import Mathlib.Tactic.Common
import Mathlib.Algebra.Order.Ring.Nat

/-!
# Little-endian numbers

A natural number as a sequence of bytes of a given width, the least significant byte first.
`encode w n` writes the number modulo `256 ^ w`; `decode w` reads a number off the front of a
sequence of bytes, when there are enough of them, and tells what follows.
-/

namespace LittleEndian

/-- The `w` least significant bytes of a number. -/
def encode : (w : Nat) → Nat → List UInt8
  | 0, _ => []
  | w + 1, n => UInt8.ofNat n :: encode w (n / 256)

/-- The number the first `w` bytes spell, and the bytes that follow. -/
def decode : (w : Nat) → List UInt8 → Option (Nat × List UInt8)
  | 0, bytes => some (0, bytes)
  | _ + 1, [] => none
  | w + 1, byte :: bytes =>
    (decode w bytes).map (fun (n, rest) => (byte.toNat + 256 * n, rest))

@[simp]
theorem length_encode (w n : Nat) :
  (encode w n).length = w
  := by
  induction w generalizing n with
  | zero => rfl
  | succ w ih => rw [encode, List.length_cons, ih]

/-- What is written is read back, modulo the width. -/
theorem decode_encode_append (w n : Nat) (rest : List UInt8) :
  decode w (encode w n ++ rest) = some (n % 256 ^ w, rest)
  := by
  induction w generalizing n with
  | zero => simp [encode, decode, Nat.mod_one]
  | succ w ih =>
      have hbyte : (UInt8.ofNat n).toNat = n % 256 := rfl
      have hsplit : n % 256 ^ (w + 1) = n % 256 + 256 * (n / 256 % 256 ^ w) := by
        rw [Nat.pow_succ', Nat.mod_mul]
      rw [encode, List.cons_append, decode, ih, Option.map_some, hbyte, hsplit]

/-- What follows the number are the bytes after the first `w`. -/
theorem eq_drop_of_decode {w n : Nat} {bytes rest : List UInt8}
    (h : decode w bytes = some (n, rest)) :
  rest = bytes.drop w ∧ w ≤ bytes.length
  := by
  induction w generalizing n bytes with
  | zero =>
      obtain ⟨-, rfl⟩ := Prod.mk.inj (Option.some.inj h)
      simp
  | succ w ih =>
      cases bytes with
      | nil => cases h
      | cons byte bytes =>
          obtain ⟨⟨m, rest'⟩, hdecode, heq⟩ := Option.map_eq_some_iff.mp h
          obtain ⟨-, rfl⟩ := Prod.mk.inj heq
          obtain ⟨hrest, hlength⟩ := ih hdecode
          rw [List.drop_succ_cons, List.length_cons]
          use hrest, Nat.succ_le_succ hlength

end LittleEndian
