import Mathlib.Tactic.Common
import Mathlib.Algebra.Order.Ring.Nat
import Mathlib.Data.List.Basic

/-!
# Base64

Sequences of bytes written with 64 printable symbols: three bytes become four symbols, and the
last group is padded. `decode_encode` says that what is written is read back, and
`length_encode` how long it is.
-/

namespace Base64

/-- The symbol for six bits. -/
def symbol (n : Nat) : UInt8 :=
  if n < 26 then UInt8.ofNat (n + 65)
  else if n < 52 then UInt8.ofNat (n + 71)
  else if n < 62 then UInt8.ofNat (n - 4)
  else if n = 62 then 43
  else 47

/-- The six bits of a symbol. -/
def bits (c : UInt8) : Option Nat :=
  if 65 ≤ c ∧ c ≤ 90 then some (c.toNat - 65)
  else if 97 ≤ c ∧ c ≤ 122 then some (c.toNat - 71)
  else if 48 ≤ c ∧ c ≤ 57 then some (c.toNat + 4)
  else if c = 43 then some 62
  else if c = 47 then some 63
  else none

/-- The byte in place of a symbol that is not needed. -/
def padding : UInt8 := 61

/-- The bytes an encoding is made of. -/
def IsSymbol (c : UInt8) : Prop := (bits c).isSome ∨ c = padding

/-- Every three bytes become four symbols. -/
def encode : List UInt8 → List UInt8
  | [] => []
  | [a] => [symbol (a.toNat / 4), symbol (a.toNat % 4 * 16), padding, padding]
  | [a, b] =>
    [symbol (a.toNat / 4), symbol (a.toNat % 4 * 16 + b.toNat / 16),
      symbol (b.toNat % 16 * 4), padding]
  | a :: b :: c :: rest =>
    symbol (a.toNat / 4) :: symbol (a.toNat % 4 * 16 + b.toNat / 16) ::
      symbol (b.toNat % 16 * 4 + c.toNat / 64) :: symbol (c.toNat % 64) :: encode rest

/-- The bytes of four symbols, of which the last two may be padding. -/
def decodeGroup (p q r s : UInt8) : Option (List UInt8) := do
  let x ← bits p
  let y ← bits q
  let a := UInt8.ofNat (x * 4 + y / 16)
  if r = padding ∧ s = padding then return [a]
  let z ← bits r
  let b := UInt8.ofNat (y % 16 * 16 + z / 4)
  if s = padding then return [a, b]
  let w ← bits s
  return [a, b, UInt8.ofNat (z % 4 * 64 + w)]

/-- The bytes that symbols stand for, unless something else stands between them or their number
is no multiple of four. -/
def decode : List UInt8 → Option (List UInt8)
  | [] => some []
  | p :: q :: r :: s :: rest => do
    let group ← decodeGroup p q r s
    if s = padding ∧ rest ≠ [] then none
    return group ++ (← decode rest)
  | _ => none

/-- A symbol has the bits it was made of. -/
theorem bits_symbol {n : Nat} (h : n < 64) :
  bits (symbol n) = some n
  := by
  have : ∀ n < 64, bits (symbol n) = some n := by decide
  apply this n h

theorem symbol_ne_padding {n : Nat} (h : n < 64) :
  symbol n ≠ padding
  := by
  have : ∀ n < 64, symbol n ≠ padding := by decide
  apply this n h

theorem isSymbol_symbol {n : Nat} (h : n < 64) :
  IsSymbol (symbol n)
  := by
  left
  rw [bits_symbol h, Option.isSome_some]

/-- A symbol is a printable character, and neither a quote nor a backslash. -/
theorem printable_of_isSymbol {c : UInt8} (h : IsSymbol c) :
  32 ≤ c ∧ c ≤ 126 ∧ c ≠ 34 ∧ c ≠ 92
  := by
  rcases h with h | rfl
  · rw [bits] at h
    split_ifs at h <;> grind
  · decide

/-- A byte is put together from its upper and its lower bits. -/
theorem ofNat_div_add_mod {a : UInt8} {n : Nat} (k : Nat) (h : n = a.toNat / k * k + a.toNat % k) :
  UInt8.ofNat n = a
  := by
  rw [h, Nat.div_add_mod', UInt8.ofNat_toNat]

/-- Of a single byte, what is written is read back. -/
theorem decodeGroup_one (a : UInt8) :
  decodeGroup (symbol (a.toNat / 4)) (symbol (a.toNat % 4 * 16)) padding padding = some [a]
  := by
  have ha := a.toNat_lt
  have hx := bits_symbol (by omega : a.toNat / 4 < 64)
  have hy := bits_symbol (by omega : a.toNat % 4 * 16 < 64)
  have hbyte := ofNat_div_add_mod (a := a) (n := a.toNat / 4 * 4 + a.toNat % 4 * 16 / 16) 4
    (by omega)
  simp only [decodeGroup, hx, hy, hbyte, Option.bind_eq_bind, Option.bind_some, and_self, if_true]
  rfl

/-- Of two bytes, what is written is read back. -/
theorem decodeGroup_two (a b : UInt8) :
  decodeGroup (symbol (a.toNat / 4)) (symbol (a.toNat % 4 * 16 + b.toNat / 16))
    (symbol (b.toNat % 16 * 4)) padding = some [a, b]
  := by
  have ha := a.toNat_lt
  have hb := b.toNat_lt
  have hx := bits_symbol (by omega : a.toNat / 4 < 64)
  have hy := bits_symbol (by omega : a.toNat % 4 * 16 + b.toNat / 16 < 64)
  have hz := bits_symbol (by omega : b.toNat % 16 * 4 < 64)
  have hz' := symbol_ne_padding (by omega : b.toNat % 16 * 4 < 64)
  have hbyte := ofNat_div_add_mod (a := a)
    (n := a.toNat / 4 * 4 + (a.toNat % 4 * 16 + b.toNat / 16) / 16) 4 (by omega)
  have hbyte' := ofNat_div_add_mod (a := b)
    (n := (a.toNat % 4 * 16 + b.toNat / 16) % 16 * 16 + b.toNat % 16 * 4 / 4) 16 (by omega)
  simp only [decodeGroup, hx, hy, hz, hz', hbyte, hbyte', Option.bind_eq_bind, Option.bind_some,
    false_and, if_false, if_true]
  rfl

/-- Of three bytes, what is written is read back. -/
theorem decodeGroup_three (a b c : UInt8) :
  decodeGroup (symbol (a.toNat / 4)) (symbol (a.toNat % 4 * 16 + b.toNat / 16))
    (symbol (b.toNat % 16 * 4 + c.toNat / 64)) (symbol (c.toNat % 64)) = some [a, b, c]
  := by
  have ha := a.toNat_lt
  have hb := b.toNat_lt
  have hc := c.toNat_lt
  have hx := bits_symbol (by omega : a.toNat / 4 < 64)
  have hy := bits_symbol (by omega : a.toNat % 4 * 16 + b.toNat / 16 < 64)
  have hz := bits_symbol (by omega : b.toNat % 16 * 4 + c.toNat / 64 < 64)
  have hz' := symbol_ne_padding (by omega : b.toNat % 16 * 4 + c.toNat / 64 < 64)
  have hw := bits_symbol (by omega : c.toNat % 64 < 64)
  have hw' := symbol_ne_padding (by omega : c.toNat % 64 < 64)
  have hbyte := ofNat_div_add_mod (a := a)
    (n := a.toNat / 4 * 4 + (a.toNat % 4 * 16 + b.toNat / 16) / 16) 4 (by omega)
  have hbyte' := ofNat_div_add_mod (a := b)
    (n := (a.toNat % 4 * 16 + b.toNat / 16) % 16 * 16 + (b.toNat % 16 * 4 + c.toNat / 64) / 4) 16
    (by omega)
  have hbyte'' := ofNat_div_add_mod (a := c)
    (n := (b.toNat % 16 * 4 + c.toNat / 64) % 4 * 64 + c.toNat % 64) 64 (by omega)
  simp only [decodeGroup, hx, hy, hz, hz', hw, hw', hbyte, hbyte', hbyte'', Option.bind_eq_bind,
    Option.bind_some, false_and, if_false]
  rfl

/-- What is written is read back. -/
theorem decode_encode (bytes : List UInt8) :
  decode (encode bytes) = some bytes
  := by
  fun_induction encode bytes with
  | case1 => rfl
  | case2 a =>
      simp only [decode, decodeGroup_one, Option.bind_eq_bind, Option.bind_some]
      rfl
  | case3 a b =>
      simp only [decode, decodeGroup_two, Option.bind_eq_bind, Option.bind_some]
      rfl
  | case4 a b c rest ih =>
      have hc := symbol_ne_padding (Nat.mod_lt c.toNat (by decide : 64 > 0))
      simp only [decode, decodeGroup_three, ih, hc, Option.bind_eq_bind, Option.bind_some,
        false_and, if_false]
      rfl

/-- Four symbols for every three bytes begun. -/
theorem length_encode (bytes : List UInt8) :
  (encode bytes).length = 4 * ((bytes.length + 2) / 3)
  := by
  fun_induction encode bytes with
  | case1 => simp
  | case2 a => simp
  | case3 a b => simp
  | case4 a b c rest ih =>
      simp only [List.length_cons, ih]
      omega

/-- Four symbols stand for three bytes at most. -/
theorem length_decodeGroup_le {p q r s : UInt8} {group : List UInt8}
    (h : decodeGroup p q r s = some group) :
  group.length ≤ 3
  := by
  obtain ⟨x, -, h⟩ := Option.bind_eq_some_iff.mp h
  obtain ⟨y, -, h⟩ := Option.bind_eq_some_iff.mp h
  dsimp only at h
  split at h
  · obtain rfl := Option.some.inj h
    simp
  · obtain ⟨z, -, h⟩ := Option.bind_eq_some_iff.mp h
    split at h
    · obtain rfl := Option.some.inj h
      simp
    · obtain ⟨w, -, h⟩ := Option.bind_eq_some_iff.mp h
      obtain rfl := Option.some.inj h
      simp

/-- There are no more bytes than symbols. -/
theorem length_decode_le {symbols bytes : List UInt8} (h : decode symbols = some bytes) :
  bytes.length ≤ symbols.length
  := by
  fun_induction decode symbols generalizing bytes with
  | case1 =>
      obtain rfl := Option.some.inj h
      exact Nat.le_refl _
  | case2 p q r s rest ih =>
      obtain ⟨group, hgroup, h⟩ := Option.bind_eq_some_iff.mp h
      split at h
      · cases h
      · obtain ⟨bytes', hbytes, h⟩ := Option.bind_eq_some_iff.mp h
        obtain rfl := Option.some.inj h
        have := length_decodeGroup_le hgroup
        have := ih hbytes
        simp only [List.length_append, List.length_cons]
        omega
  | case3 => cases h

/-- An encoding is made of symbols. -/
theorem isSymbol_of_mem_encode {bytes : List UInt8} {c : UInt8} (h : c ∈ encode bytes) :
  IsSymbol c
  := by
  have hpadding : IsSymbol padding := Or.inr rfl
  fun_induction encode bytes with
  | case1 => cases h
  | case2 a =>
      have ha := a.toNat_lt
      simp only [List.mem_cons, List.not_mem_nil, or_false] at h
      rcases h with rfl | rfl | rfl | rfl
      · apply isSymbol_symbol
        omega
      · apply isSymbol_symbol
        omega
      · exact hpadding
      · exact hpadding
  | case3 a b =>
      have ha := a.toNat_lt
      have hb := b.toNat_lt
      simp only [List.mem_cons, List.not_mem_nil, or_false] at h
      rcases h with rfl | rfl | rfl | rfl
      · apply isSymbol_symbol
        omega
      · apply isSymbol_symbol
        omega
      · apply isSymbol_symbol
        omega
      · exact hpadding
  | case4 a b c rest ih =>
      have ha := a.toNat_lt
      have hb := b.toNat_lt
      have hc := c.toNat_lt
      simp only [List.mem_cons] at h
      rcases h with rfl | rfl | rfl | rfl | h
      · apply isSymbol_symbol
        omega
      · apply isSymbol_symbol
        omega
      · apply isSymbol_symbol
        omega
      · apply isSymbol_symbol
        omega
      · apply ih h

end Base64
