import UaRateThrottling.Decimal
import UaRateThrottling.Hex
import Mathlib.Data.List.TakeWhile

/-!
# Strings of C

A string is a sequence of bytes. What is read of it ends before the first zero byte, and what is
printed into a buffer is cut off when the buffer is full. A number is read from the start of a
string, up to the first byte that does not belong to it.
-/

namespace Zuth

/-- The bytes of a text of ASCII characters. -/
def ascii (s : String) : List UInt8 := s.toList.map Char.toUInt8

/-- `snprintf` into a buffer of the given size, which keeps a byte for the terminator. -/
def snprintf (size : Nat) (s : List UInt8) : List UInt8 := s.take (size - 1)

/-- The bytes `isspace` accepts. -/
def isSpace (c : UInt8) : Bool := c = 32 || (9 ≤ c && c ≤ 13)

/-- A number cut off at the ends of the range of `long long`. -/
def clampLongLong (i : Int) : Int := max (-9223372036854775808) (min i 9223372036854775807)

/-- The decimal number at the start of a string: blanks, a sign, and digits, up to the first
byte that is none. -/
def strtoll (s : List UInt8) : Int :=
  match s.dropWhile isSpace with
  | 45 :: r => clampLongLong (-(Decimal.value (Decimal.span r).1 : Int))
  | 43 :: r => clampLongLong (Decimal.value (Decimal.span r).1)
  | r => clampLongLong (Decimal.value (Decimal.span r).1)

/-- `0x` before a hexadecimal digit is not part of the number. -/
def dropHexPrefix : List UInt8 → List UInt8
  | 48 :: x :: c :: r =>
      if (x = 120 || x = 88) && Hex.isDigit c then c :: r else 48 :: x :: c :: r
  | s => s

/-- The digits of a number, negated after a minus sign, both within `unsigned long`. -/
def hexNumber (negative : Bool) (s : List UInt8) : Nat :=
  let n := Hex.value (((dropHexPrefix s).takeWhile Hex.isDigit).map Hex.upper)
  if 2 ^ 64 ≤ n then 2 ^ 64 - 1
  else if negative then (2 ^ 64 - n) % 2 ^ 64
  else n

/-- `strtoul` in base 16: blanks, a sign, `0x`, and digits, up to the first byte that is none. -/
def strtoul (s : List UInt8) : Nat :=
  match s.dropWhile isSpace with
  | 45 :: r => hexNumber true r
  | 43 :: r => hexNumber false r
  | r => hexNumber false r

/-- What comes before the terminator is read whole. -/
theorem takeWhile_append {s : List UInt8} (h : 0 ∉ s) (r : List UInt8) :
  (s ++ r).takeWhile (· ≠ 0) = s ++ r.takeWhile (· ≠ 0)
  := by
  apply List.takeWhile_append_of_pos
  intro c hc
  rw [decide_eq_true_eq]
  rintro rfl
  apply h hc

/-- A string without terminator is read to its end. -/
theorem takeWhile_ne_zero {s : List UInt8} (h : 0 ∉ s) :
  s.takeWhile (· ≠ 0) = s
  := by
  have happend := takeWhile_append h []
  rwa [List.append_nil, List.takeWhile_nil, List.append_nil] at happend

/-- A hexadecimal digit is neither a blank nor a sign, and no second character of `0x`. -/
theorem not_special_of_isDigit {c : UInt8} (h : Hex.isDigit c) :
  isSpace c = false ∧ c ≠ 45 ∧ c ≠ 43 ∧ c ≠ 120 ∧ c ≠ 88
  := by
  simp only [Hex.isDigit, isSpace, Bool.or_eq_true, Bool.and_eq_true, decide_eq_true_eq,
    Bool.or_eq_false_iff, decide_eq_false_iff_not, Bool.and_eq_false_iff, UInt8.le_iff_toNat_le,
    ← UInt8.toNat_inj, ne_eq, UInt8.reduceToNat] at h ⊢
  omega

/-- At most sixteen digits are read as the number they stand for. -/
theorem strtoul_of_digits {s : List UInt8} (h : ∀ c ∈ s, Hex.isDigit c) (hlength : s.length ≤ 16) :
  strtoul s = Hex.value (s.map Hex.upper)
  := by
  have hprefix : dropHexPrefix s = s := by
    rw [dropHexPrefix.eq_def]
    split
    · rename_i x c r
      obtain ⟨-, -, -, hx, hX⟩ := not_special_of_isDigit (h x (by simp))
      simp [hx, hX]
    · rfl
  have hnumber : hexNumber false s = Hex.value (s.map Hex.upper) := by
    have hlt := Hex.value_map_upper_lt h
    have hle := Nat.pow_le_pow_right (n := 16) (by decide) hlength
    rw [hexNumber, hprefix, List.takeWhile_eq_self_iff.mpr h]
    rw [if_neg (by omega), if_neg (by decide)]
  have hspace : s.dropWhile isSpace = s := by
    rw [List.dropWhile_eq_self_iff]
    intro hpos hblank
    rw [(not_special_of_isDigit (h _ (List.getElem_mem hpos))).1] at hblank
    cases hblank
  rw [strtoul, hspace]
  split
  · exact absurd rfl (not_special_of_isDigit (h 45 (by simp))).2.1
  · exact absurd rfl (not_special_of_isDigit (h 43 (by simp))).2.2.1
  · apply hnumber

/-- What fits the buffer is printed whole. -/
theorem snprintf_of_lt {size : Nat} {s : List UInt8} (h : s.length < size) :
  snprintf size s = s
  := by
  rw [snprintf, List.take_of_length_le]
  omega

end Zuth
