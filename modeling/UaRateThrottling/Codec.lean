import UaRateThrottling.Json
import UaRateThrottling.LittleEndian

/-!
# Binary codecs

A codec is a parser of bytes together with the bytes it is meant for. `Reads p s x` says that the
parser `p` reads `x` where it finds the bytes `s`, whatever follows them. So the parts of an item
may be read one after the other (`Reads.bind`), and an item that is cut off is not read at all
(`Reads.run_eq_none_of_part`).

A parser that jumps over bytes need not find them there. What follows the jump must then not be
content with nothing, or the item is read although its end is missing (`extends_jump`).
-/

namespace Codec

open Json (Parser Extends)

variable {α β : Type}

/-! ### What a parser reads -/

/-- Where the parser finds the bytes `s`, it takes them, and reads `x`. -/
def Reads (p : Parser α) (s : List UInt8) (x : α) : Prop :=
  ∀ t : List UInt8, p.run (s ++ t) = some (x, t)

theorem reads_pure (x : α) :
  Reads (pure x) [] x
  := by
  intro t
  rfl

theorem Reads.bind {p : Parser α} {q : α → Parser β} {s s' : List UInt8} {x : α} {y : β}
    (hp : Reads p s x) (hq : Reads (q x) s' y) :
  Reads (p >>= q) (s ++ s') y
  := by
  intro t
  rw [StateT.run_bind, List.append_assoc, hp]
  apply hq

/-- What is read is all there is to it. -/
theorem Reads.then_pure {p : Parser α} {f : α → β} {s : List UInt8} {x : α} (hp : Reads p s x) :
  Reads (p >>= fun x => pure (f x)) s (f x)
  := by
  have h : Reads (p >>= fun x => pure (f x)) (s ++ []) (f x) := hp.bind (reads_pure (f x))
  rw [List.append_nil] at h
  apply h

/-- From a part of an item nothing is read. -/
theorem Reads.run_eq_none_of_part {p q : Parser α} {s u : List UInt8} {x : α} (h : Reads q s x)
    (hpq : Extends p q) (hu : u <+: s) (hne : u ≠ s) :
  p.run u = none
  := by
  have hall := h []
  rw [List.append_nil] at hall
  apply hpq.run_eq_none_of_part hall hu hne

/-- What has been read by one parser after the other has been read by each one. -/
theorem of_run_bind {p : Parser α} {q : α → Parser β} {s t : List UInt8} {y : β}
    (h : (p >>= q).run s = some (y, t)) :
  ∃ x r, p.run s = some (x, r) ∧ (q x).run r = some (y, t)
  := by
  rw [StateT.run_bind] at h
  obtain ⟨⟨x, r⟩, hp, hq⟩ := Option.bind_eq_some_iff.mp h
  exact ⟨x, r, hp, hq⟩

/-! ### Parts of items -/

/-- The next `n` bytes. -/
def take (n : Nat) : Parser (List UInt8) := fun s =>
  if s.length < n then none else some (s.take n, s.drop n)

/-- The next `w` bytes, as a number. -/
def number (w : Nat) : Parser Nat := LittleEndian.decode w

/-- There are `n` bytes, which are not taken. -/
def need (n : Nat) : Parser Unit := fun s => if s.length < n then none else some ((), s)

/-- The next `n` bytes are left out, if there are as many. -/
def skip (n : Nat) : Parser Unit := fun s => some ((), s.drop n)

/-- A number of items, one after the other. -/
def items (p : Parser α) : Nat → Parser (List α)
  | 0 => pure []
  | n + 1 => do
    let x ← p
    let xs ← items p n
    pure (x :: xs)

theorem reads_take {n : Nat} {s : List UInt8} (h : s.length = n) :
  Reads (take n) s s
  := by
  subst h
  intro t
  rw [StateT.run, take, List.length_append, if_neg (by omega), List.take_left, List.drop_left]

theorem reads_number {w n : Nat} (hn : n < 256 ^ w) :
  Reads (number w) (LittleEndian.encode w n) n
  := by
  intro t
  have h := LittleEndian.decode_encode_append w n t
  rw [Nat.mod_eq_of_lt hn] at h
  apply h

theorem reads_skip {n : Nat} {s : List UInt8} (h : s.length = n) :
  Reads (skip n) s ()
  := by
  subst h
  intro t
  rw [StateT.run, skip, List.drop_left]

/-- The bytes that are needed are found when the items that follow have as many. -/
theorem Reads.need {p : Parser α} {s : List UInt8} {x : α} {n : Nat} (hp : Reads p s x)
    (hn : n ≤ s.length) :
  Reads (need n >>= fun _ => p) s x
  := by
  intro t
  have hneed : (Codec.need n).run (s ++ t) = some ((), s ++ t) := by
    rw [StateT.run, Codec.need, List.length_append, if_neg (by omega)]
  rw [StateT.run_bind, hneed]
  apply hp

/-- Items are read when each one is. -/
theorem reads_items {p : Parser α} {parts : List (List UInt8)} {xs : List α}
    (h : List.Forall₂ (Reads p) parts xs) :
  Reads (items p xs.length) parts.flatten xs
  := by
  induction h with
  | nil => apply reads_pure
  | cons hx _ ih => apply hx.bind ih.then_pure

/-! ### Parsers that wait for the end of an item -/

theorem extends_take (n : Nat) :
  Extends (take n) (take n)
  := by
  intro s x r t h
  rw [StateT.run, take] at h ⊢
  split at h
  · cases h
  · rename_i hlength
    obtain ⟨rfl, rfl⟩ := Prod.mk.inj (Option.some.inj h)
    rw [List.length_append, if_neg (by omega), List.take_append_of_le_length (by omega),
      List.drop_append_of_le_length (by omega)]

theorem extends_number (w : Nat) :
  Extends (number w) (number w)
  := by
  intro s n r t h
  induction w generalizing s n with
  | zero =>
      obtain ⟨rfl, rfl⟩ := Prod.mk.inj (Option.some.inj h)
      rfl
  | succ w ih =>
      cases s with
      | nil => cases h
      | cons byte s =>
          obtain ⟨⟨m, r'⟩, hdecode, heq⟩ := Option.map_eq_some_iff.mp h
          obtain ⟨rfl, rfl⟩ := Prod.mk.inj heq
          have hmore : LittleEndian.decode w (s ++ t) = some (m, r' ++ t) := ih s m hdecode
          rw [StateT.run, number, List.cons_append, LittleEndian.decode, hmore, Option.map_some]

theorem extends_need (n : Nat) :
  Extends (need n) (need n)
  := by
  intro s x r t h
  rw [StateT.run, need] at h ⊢
  split at h
  · cases h
  · rename_i hlength
    obtain ⟨rfl, rfl⟩ := Prod.mk.inj (Option.some.inj h)
    rw [List.length_append, if_neg (by omega)]

/-- After a jump the end of the item is waited for when something must follow. -/
theorem extends_jump {p q : Parser α} (n : Nat) (h : Extends p q) (hempty : p.run [] = none) :
  Extends (skip n >>= fun _ => p) (skip n >>= fun _ => q)
  := by
  intro s x r t hrun
  have hp : p.run (s.drop n) = some (x, r) := hrun
  have hlength : n ≤ s.length := by
    by_contra hshort
    rw [List.drop_of_length_le (by omega), hempty] at hp
    cases hp
  have hq := h _ x r t hp
  rw [← List.drop_append_of_le_length hlength] at hq
  exact hq

theorem extends_items {p q : Parser α} (h : Extends p q) (n : Nat) :
  Extends (items p n) (items q n)
  := by
  induction n with
  | zero => apply Json.extends_pure
  | succ n ih =>
      apply h.bind
      intro x
      apply ih.bind
      intro xs
      apply Json.extends_pure

end Codec
