import Mathlib.Tactic.Common
import Mathlib.Algebra.Order.Ring.Nat
import Mathlib.Data.List.Induction

/-!
# Hexadecimal numerals of fixed width

The numeral of a natural number in a given number of upper-case digits, as ASCII bytes, most
significant digit first, and the number a byte string of digits stands for. A numeral of `w`
digits stands for the number modulo `16 ^ w`, and digits are the numeral of the number they stand
for, once their letters are made upper-case.
-/

namespace Hex

/-- The digit for a number below `16`. -/
def digit (n : Nat) : UInt8 := if n < 10 then UInt8.ofNat (n + 48) else UInt8.ofNat (n + 55)

/-- The number a digit stands for. -/
def digitValue (c : UInt8) : Nat := if c ≤ 57 then c.toNat - 48 else c.toNat - 55

/-- The digits of either case. -/
def isDigit (c : UInt8) : Bool :=
  (48 ≤ c && c ≤ 57) || (65 ≤ c && c ≤ 70) || (97 ≤ c && c ≤ 102)

/-- The upper-case form of a letter. -/
def upper (c : UInt8) : UInt8 := if 97 ≤ c ∧ c ≤ 122 then c - 32 else c

/-- The `w` last digits of `n`. -/
def numeral : Nat → Nat → List UInt8
  | 0, _ => []
  | w + 1, n => numeral w (n / 16) ++ [digit (n % 16)]

/-- The number the digits `s` stand for. -/
def value (s : List UInt8) : Nat := s.foldl (fun n c => 16 * n + digitValue c) 0

theorem digitValue_digit {n : Nat} (h : n < 16) :
  digitValue (digit n) = n
  := by
  have : ∀ n < 16, digitValue (digit n) = n := by decide
  apply this n h

@[simp]
theorem length_numeral (w n : Nat) :
  (numeral w n).length = w
  := by
  induction w generalizing n with
  | zero => rfl
  | succ w ih => rw [numeral, List.length_append, ih, List.length_singleton]

/-- A numeral stands for the number it renders, modulo the width. -/
theorem value_numeral (w n : Nat) :
  value (numeral w n) = n % 16 ^ w
  := by
  induction w generalizing n with
  | zero => simp [numeral, value, Nat.mod_one]
  | succ w ih =>
      have hvalue := ih (n / 16)
      rw [value] at hvalue ⊢
      rw [numeral, List.foldl_append, hvalue, List.foldl_cons, List.foldl_nil,
        digitValue_digit (Nat.mod_lt n (by decide)), Nat.pow_succ', Nat.mod_mul]
      omega

/-- No digit is a `/`. -/
theorem ne_of_mem_numeral {w n : Nat} {c : UInt8} (h : c ∈ numeral w n) :
  c ≠ 47
  := by
  have hdigit : ∀ n < 16, digit n ≠ 47 := by decide
  induction w generalizing n with
  | zero => cases h
  | succ w ih =>
      rw [numeral] at h
      rcases List.mem_append.mp h with h | h
      · apply ih h
      · rw [List.mem_singleton.mp h]
        apply hdigit _ (Nat.mod_lt n (by decide))

/-- Numbers that fit the width have different numerals. -/
theorem numeral_inj {w n m : Nat} (hn : n < 16 ^ w) (hm : m < 16 ^ w) :
  numeral w n = numeral w m ↔ n = m
  := by
  constructor
  · intro h
    have hvalue := congrArg value h
    rwa [value_numeral, value_numeral, Nat.mod_eq_of_lt hn, Nat.mod_eq_of_lt hm] at hvalue
  · rintro rfl
    rfl

/-! ### Digits of either case -/

theorem digitValue_upper {c : UInt8} (h : isDigit c) :
  digitValue (upper c) < 16 ∧ digit (digitValue (upper c)) = upper c
  := by
  have hall : ∀ n < 256, isDigit (UInt8.ofNat n) →
      digitValue (upper (UInt8.ofNat n)) < 16 ∧
        digit (digitValue (upper (UInt8.ofNat n))) = upper (UInt8.ofNat n) := by decide +kernel
  have hc := hall c.toNat c.toNat_lt
  rw [UInt8.ofNat_toNat] at hc
  apply hc h

theorem value_append (s : List UInt8) (c : UInt8) :
  value (s ++ [c]) = 16 * value s + digitValue c
  := by
  rw [value, List.foldl_append]
  rfl

/-- What digits stand for fits their number. -/
theorem value_map_upper_lt {s : List UInt8} (h : ∀ c ∈ s, isDigit c) :
  value (s.map upper) < 16 ^ s.length
  := by
  induction s using List.reverseRecOn with
  | nil => decide
  | append_singleton s c ih =>
      have hs := ih (fun d hd => h d (List.mem_append_left [c] hd))
      have hc := (digitValue_upper (h c (by simp))).1
      rw [List.map_append, List.map_singleton, value_append, List.length_append,
        List.length_singleton, Nat.pow_succ]
      omega

/-- Digits are the numeral of what they stand for. -/
theorem numeral_value {s : List UInt8} (h : ∀ c ∈ s, isDigit c) :
  numeral s.length (value (s.map upper)) = s.map upper
  := by
  induction s using List.reverseRecOn with
  | nil => rfl
  | append_singleton s c ih =>
      have hs := ih (fun d hd => h d (List.mem_append_left [c] hd))
      obtain ⟨hlt, hdigit⟩ := digitValue_upper (h c (by simp))
      rw [List.map_append, List.map_singleton, value_append, List.length_append,
        List.length_singleton, numeral, Nat.mul_add_div (by decide), Nat.div_eq_of_lt hlt,
        Nat.add_zero, hs, Nat.mul_add_mod, Nat.mod_eq_of_lt hlt, hdigit]

end Hex
