import Mathlib.Tactic.Common
import Mathlib.Algebra.Order.Ring.Nat
import Mathlib.Data.List.Basic

/-!
# Decimal numerals in byte strings

The decimal numeral of a natural number as ASCII bytes, most significant digit first, and
the number a byte string of digits stands for. Reading is the inverse of rendering, also
when the numeral is padded with zeros on the left and when it is followed by a byte that is
not a digit.
-/

namespace Decimal

/-- The ASCII digits. -/
def isDigit (c : UInt8) : Bool := 48 ≤ c && c ≤ 57

/-- The decimal numeral of `n`. -/
def numeral (n : Nat) : List UInt8 := (Nat.toDigits 10 n).map Char.toUInt8

/-- The number the digits `s` stand for. -/
def value (s : List UInt8) : Nat := Nat.ofDigitChars 10 (s.map Char.ofUInt8) 0

/-- The leading digits of `s`, and what follows them. -/
def span (s : List UInt8) : List UInt8 × List UInt8 := (s.takeWhile isDigit, s.dropWhile isDigit)

/-- `s` padded with zeros on the left to the width `w`. -/
def padLeft (w : Nat) (s : List UInt8) : List UInt8 := List.replicate (w - s.length) 48 ++ s

/-- A digit character is the character of its byte, and the byte is a digit. -/
theorem ofUInt8_toUInt8 {c : Char} (h : c.isDigit) :
  Char.ofUInt8 c.toUInt8 = c ∧ isDigit c.toUInt8
  := by
  have hc : 48 ≤ c.toNat ∧ c.toNat ≤ 57 := by
    simp only [Char.isDigit, Bool.and_eq_true, decide_eq_true_eq, ge_iff_le,
      UInt32.le_iff_toNat_le] at h
    apply h
  have hn : c.toUInt8.toNat = c.toNat := by
    rw [Char.toUInt8, UInt32.toNat_toUInt8]
    apply Nat.mod_eq_of_lt
    change c.toNat < _
    omega
  constructor
  · apply Char.toNat_inj.mp
    rw [← hn]
    rfl
  · simp only [isDigit, UInt8.le_iff_toNat_le, hn, Bool.and_eq_true, decide_eq_true_eq]
    apply hc

/-- Every byte of a numeral is a digit. -/
theorem isDigit_of_mem_numeral {n : Nat} {c : UInt8} (h : c ∈ numeral n) :
  isDigit c
  := by
  obtain ⟨d, hd, rfl⟩ := List.mem_map.mp h
  apply (ofUInt8_toUInt8 (Nat.isDigit_of_mem_toDigits (by decide) (by decide) hd)).2

theorem numeral_ne_nil (n : Nat) :
  numeral n ≠ []
  := by
  simp [numeral]

/-- A numeral has at most `k` digits exactly when the number is below `10 ^ k`. -/
theorem length_numeral_le_iff {n k : Nat} (h : 0 < k) :
  (numeral n).length ≤ k ↔ n < 10 ^ k
  := by
  rw [numeral, List.length_map]
  apply Nat.length_toDigits_le_iff (by decide) h

/-- A numeral stands for the number it renders. -/
theorem value_numeral (n : Nat) :
  value (numeral n) = n
  := by
  have hmap : (numeral n).map Char.ofUInt8 = Nat.toDigits 10 n := by
    rw [numeral, List.map_map]
    apply (List.map_congr_left _).trans (List.map_id _)
    intro d hd
    apply (ofUInt8_toUInt8 (Nat.isDigit_of_mem_toDigits (by decide) (by decide) hd)).1
  rw [value, hmap]
  apply Nat.ofDigitChars_ten_toDigits

/-- Zeros on the left do not change the number. -/
theorem value_padLeft (w : Nat) (s : List UInt8) :
  value (padLeft w s) = value s
  := by
  have h48 : Char.ofUInt8 48 = '0' := rfl
  rw [value, padLeft, List.map_append, List.map_replicate, h48, Nat.ofDigitChars_append,
    Nat.ofDigitChars_replicate_zero, Nat.mul_zero]
  rfl

/-- Every byte of a padded string of digits is a digit. -/
theorem isDigit_of_mem_padLeft {w : Nat} {s : List UInt8} (hs : ∀ c ∈ s, isDigit c) {c : UInt8}
    (h : c ∈ padLeft w s) :
  isDigit c
  := by
  rcases List.mem_append.mp h with hz | hc
  · rw [List.eq_of_mem_replicate hz]
    rfl
  · apply hs c hc

/-- The digits in front of a string that starts with no digit are all of its leading
digits. -/
theorem span_append {s r : List UInt8} (hs : ∀ c ∈ s, isDigit c)
    (hr : ∀ c, r.head? = some c → isDigit c = false) :
  span (s ++ r) = (s, r)
  := by
  have hr' : r.takeWhile isDigit = [] ∧ r.dropWhile isDigit = r := by
    cases r with
    | nil => exact ⟨rfl, rfl⟩
    | cons c r => simp [hr c rfl]
  rw [span, List.takeWhile_append_of_pos hs, List.dropWhile_append_of_pos hs, hr'.1, hr'.2,
    List.append_nil]

/-- When something follows the leading digits, more text does not change them. -/
theorem span_append_of_ne_nil {s : List UInt8} (t : List UInt8) (h : (span s).2 ≠ []) :
  span (s ++ t) = ((span s).1, (span s).2 ++ t)
  := by
  induction s with
  | nil => contradiction
  | cons c s ih =>
      simp only [span, List.cons_append, List.takeWhile_cons, List.dropWhile_cons,
        Prod.mk.injEq] at h ih ⊢
      split_ifs at h ⊢
      · obtain ⟨htake, hdrop⟩ := ih h
        use congrArg (List.cons c) htake, hdrop
      · exact ⟨rfl, rfl⟩

end Decimal
