import Mathlib.Tactic.Common
import Mathlib.Algebra.Order.Ring.Nat

/-!
# Framing

A sequence is cut into frames from its front. A reader tells whether a sequence begins with a
frame, and how long the frame is, whether no frame begins there whatever follows, or whether this
cannot be told yet.

* `cut` cuts off the frames as far as there are any, and tells what is left.
* When a sequence arrives in parts, what is left of one part is put in front of the next one.
  `cut_append` and `feed_eq` say that this way the frames of the whole sequence are found, however
  it is divided.
-/

universe u

namespace Framing

/-- What a sequence begins with. -/
inductive Front where
  | frame (length : Nat)
  | garbage
  | incomplete
deriving DecidableEq

/-- A reader of sequences. What it has told does not change when more follows, and of a frame
nothing matters that comes after it. -/
structure Reader (α : Type u) where
  /-- What the sequence begins with. -/
  front : List α → Front
  pos : ∀ {s n}, front s = .frame n → 0 < n
  le_length : ∀ {s n}, front s = .frame n → n ≤ s.length
  frame_take : ∀ {s n}, front s = .frame n → front (s.take n) = .frame n
  frame_append : ∀ {s n} t, front s = .frame n → front (s ++ t) = .frame n
  garbage_append : ∀ {s} t, front s = .garbage → front (s ++ t) = .garbage

namespace Reader

variable {α : Type u} (r : Reader α)

/-- A frame, and nothing else. -/
def IsFrame (f : List α) : Prop := r.front f = .frame f.length

instance (f : List α) : Decidable (r.IsFrame f) := inferInstanceAs (Decidable (_ = _))

/-- The frames at the front of a sequence, and what is left after them. -/
def cut (s : List α) : List (List α) × List α :=
  match _h : r.front s with
  | .frame n => (s.take n :: (cut (s.drop n)).1, (cut (s.drop n)).2)
  | _ => ([], s)
termination_by s.length
decreasing_by
  all_goals
    have hpos := r.pos ‹_›
    have hle := r.le_length ‹_›
    rw [List.length_drop]
    omega

variable {r} {s : List α}

theorem cut_frame {n : Nat} (h : r.front s = .frame n) :
  r.cut s = (s.take n :: (r.cut (s.drop n)).1, (r.cut (s.drop n)).2)
  := by
  rw [cut]
  split
  · rename_i m hm
    rw [h] at hm
    obtain rfl := Front.frame.inj hm
    rfl
  · rename_i hstop
    exact absurd h (hstop n)

theorem cut_stop (h : ∀ n, r.front s ≠ .frame n) :
  r.cut s = ([], s)
  := by
  rw [cut]
  split
  · rename_i n hn
    exact absurd hn (h n)
  · rfl

/-- A sequence is cut by cutting off one frame after the other. -/
theorem cut_induction {P : List α → Prop}
    (frame : ∀ s n, r.front s = .frame n → P (s.drop n) → P s)
    (stop : ∀ s, (∀ n, r.front s ≠ .frame n) → P s) (s : List α) :
  P s
  := by
  induction hn : s.length using Nat.strong_induction_on generalizing s with
  | _ length ih =>
      by_cases h : ∃ n, r.front s = .frame n
      · obtain ⟨n, h⟩ := h
        have hpos := r.pos h
        have hle := r.le_length h
        apply frame s n h
        apply ih (s.drop n).length _ _ rfl
        rw [List.length_drop]
        omega
      · apply stop
        intro n hframe
        apply h ⟨n, hframe⟩

/-- Nothing is lost. -/
theorem flatten_cut (s : List α) :
  (r.cut s).1.flatten ++ (r.cut s).2 = s
  := by
  induction s using r.cut_induction with
  | frame s n h ih =>
      rw [cut_frame h, List.flatten_cons, List.append_assoc, ih, List.take_append_drop]
  | stop s h =>
      rw [cut_stop h]
      rfl

/-- What is left does not begin with a frame. -/
theorem front_cut_ne_frame (s : List α) (n : Nat) :
  r.front (r.cut s).2 ≠ .frame n
  := by
  induction s using r.cut_induction with
  | frame s m h ih =>
      rw [cut_frame h]
      apply ih
  | stop s h =>
      rw [cut_stop h]
      apply h

theorem isFrame_take {n : Nat} (h : r.front s = .frame n) :
  r.IsFrame (s.take n)
  := by
  rw [IsFrame, r.frame_take h, List.length_take, Nat.min_eq_left (r.le_length h)]

/-- What is cut off are frames. -/
theorem isFrame_of_mem_cut {f : List α} (h : f ∈ (r.cut s).1) :
  r.IsFrame f
  := by
  induction s using r.cut_induction with
  | frame s n hframe ih =>
      rw [cut_frame hframe] at h
      rcases List.mem_cons.mp h with rfl | h
      · apply isFrame_take hframe
      · apply ih h
  | stop s hstop =>
      rw [cut_stop hstop] at h
      cases h

/-- Frames in front of a sequence are cut off first. -/
theorem cut_flatten_append {fs : List (List α)} (hfs : ∀ f ∈ fs, r.IsFrame f) (s : List α) :
  r.cut (fs.flatten ++ s) = (fs ++ (r.cut s).1, (r.cut s).2)
  := by
  induction fs with
  | nil => rfl
  | cons f fs ih =>
      have hf : r.front (f ++ (fs.flatten ++ s)) = .frame f.length :=
        r.frame_append _ (hfs f List.mem_cons_self)
      rw [List.flatten_cons, List.append_assoc, cut_frame hf, List.take_left, List.drop_left,
        ih (fun f hf => hfs f (List.mem_cons_of_mem _ hf))]
      rfl

/-- A sequence in two parts: what is left of the first one is put in front of the second one. -/
theorem cut_append (s t : List α) :
  r.cut (s ++ t) =
    ((r.cut s).1 ++ (r.cut ((r.cut s).2 ++ t)).1, (r.cut ((r.cut s).2 ++ t)).2)
  := by
  rw [← cut_flatten_append (fun f hf => isFrame_of_mem_cut hf), ← List.append_assoc, flatten_cut]

/-- Where no frame can begin, none will. -/
theorem cut_garbage_append (h : r.front s = .garbage) (t : List α) :
  r.cut (s ++ t) = ([], s ++ t)
  := by
  apply cut_stop
  intro n
  rw [r.garbage_append t h]
  intro hframe
  cases hframe

/-- Garbage in a part is garbage in the whole. -/
theorem garbage_of_begins (t : List α) (h : r.front (r.cut s).2 = .garbage) :
  r.front (r.cut (s ++ t)).2 = .garbage
  := by
  rw [cut_append, cut_garbage_append h]
  apply r.garbage_append t h

/-! ### Parts -/

/-- The frames found in each of the parts of a sequence, and what is left in the end, when what is
left of each part is put in front of the next one. -/
def feed (r : Reader α) : List α → List (List α) → List (List (List α)) × List α
  | rest, [] => ([], rest)
  | rest, part :: parts =>
    ((r.cut (rest ++ part)).1 :: (feed r (r.cut (rest ++ part)).2 parts).1,
      (feed r (r.cut (rest ++ part)).2 parts).2)

/-- Each part is answered with its frames. -/
theorem length_feed (kept : List α) (parts : List (List α)) :
  (r.feed kept parts).1.length = parts.length
  := by
  induction parts generalizing kept with
  | nil => rfl
  | cons part parts ih => rw [feed, List.length_cons, List.length_cons, ih]

/-- The frames found in the parts are those of the whole sequence. -/
theorem feed_eq {rest : List α} (hrest : r.cut rest = ([], rest)) (parts : List (List α)) :
  ((r.feed rest parts).1.flatten, (r.feed rest parts).2) = r.cut (rest ++ parts.flatten)
  := by
  induction parts generalizing rest with
  | nil => simp [feed, hrest]
  | cons part parts ih =>
      have hcut : r.cut (r.cut (rest ++ part)).2 = ([], (r.cut (rest ++ part)).2) :=
        cut_stop (front_cut_ne_frame _)
      obtain ⟨hframes, hleft⟩ := Prod.mk.inj (ih hcut)
      rw [feed, List.flatten_cons, List.flatten_cons, ← List.append_assoc,
        cut_append (rest ++ part), ← hframes, ← hleft]

end Reader

end Framing
