import Mathlib.Tactic.Common
import Mathlib.Algebra.Order.Ring.Nat
import Mathlib.Data.List.TakeWhile

/-!
# Words between blanks

The words of a text are its longest parts without blanks. The words of two texts with a blank
between them are those of the first and then those of the second, from which follow the words of a
text that is cut into lines, and the first word with the words of the rest.

Words may be read in pairs, the last one alone when their number is odd.
-/

namespace Words

variable {α : Type*}

/-- The words of a text. -/
def words (blank : α → Bool) (text : List α) : List (List α) :=
  (text.splitOnP blank).filter (fun w => !w.isEmpty)

/-- Words in pairs, with nothing after the last word of an odd number. -/
def pairs : List (List α) → List (List α × List α)
  | [] => []
  | [w] => [(w, [])]
  | w :: v :: ws => (w, v) :: pairs ws

variable {blank : α → Bool}

@[simp]
theorem words_nil :
  words blank [] = []
  := rfl

/-- Words end at a blank. -/
theorem words_append {c : α} (hc : blank c) (s t : List α) :
  words blank (s ++ c :: t) = words blank s ++ words blank t
  := by
  rw [words, List.splitOnP_append_cons _ _ hc, List.filter_append]
  rfl

theorem words_cons {c : α} (hc : blank c) (t : List α) :
  words blank (c :: t) = words blank t
  := words_append hc [] t

/-- A part without blanks is a word. -/
theorem words_singleton {w : List α} (hne : w ≠ []) (hw : ∀ c ∈ w, blank c = false) :
  words blank w = [w]
  := by
  rw [words, List.splitOnP_eq_singleton hw]
  simp [hne]

/-- Blanks at the start belong to no word. -/
theorem words_dropWhile (text : List α) :
  words blank (text.dropWhile blank) = words blank text
  := by
  induction text with
  | nil => rfl
  | cons c text ih =>
      by_cases hc : blank c
      · rw [List.dropWhile_cons_of_pos hc, ih, words_cons hc]
      · rw [List.dropWhile_cons_of_neg hc]

/-- After the blanks at the start comes something else. -/
theorem blank_of_dropWhile {p : α → Bool} {text rest : List α} {c : α}
    (h : text.dropWhile p = c :: rest) :
  p c = false
  := by
  have hhead := List.head_dropWhile_not p (by rw [h]; simp)
  simpa [h] using hhead

/-- The word a text starts with, and the words of the rest. -/
theorem words_takeWhile {c : α} (hc : blank c = false) (text : List α) :
  words blank (c :: text) =
    (c :: text).takeWhile (fun c => !blank c) ::
      words blank ((c :: text).dropWhile (fun c => !blank c))
  := by
  have hsplit := List.takeWhile_append_dropWhile (p := fun c => !blank c) (l := c :: text)
  have hword : ∀ d ∈ (c :: text).takeWhile (fun c => !blank c), blank d = false := by
    intro d hd
    have hnot := List.mem_takeWhile_imp hd
    rwa [Bool.not_eq_true'] at hnot
  have hne : (c :: text).takeWhile (fun c => !blank c) ≠ [] := by simp [hc]
  cases hrest : (c :: text).dropWhile (fun c => !blank c) with
  | nil =>
      rw [hrest, List.append_nil] at hsplit
      rw [hsplit] at hword ⊢
      apply words_singleton (by simp) hword
  | cons d rest =>
      have hd : blank d := by
        have hnot := blank_of_dropWhile hrest
        rwa [Bool.not_eq_false'] at hnot
      rw [hrest] at hsplit
      conv_lhs => rw [← hsplit]
      rw [words_append hd, words_singleton hne hword, words_cons hd]
      rfl

/-- A text that starts with no blank and has no words is empty. -/
theorem dropWhile_eq_nil_iff {text : List α} :
  text.dropWhile blank = [] ↔ words blank text = []
  := by
  rw [← words_dropWhile]
  constructor
  · intro h
    rw [h, words_nil]
  · intro h
    cases hdrop : text.dropWhile blank with
    | nil => rfl
    | cons c rest =>
        rw [hdrop, words_takeWhile (blank_of_dropWhile hdrop)] at h
        cases h

/-- The words of lines are the words of the text, when the byte between the lines is a blank. -/
theorem words_intercalate {c : α} (hc : blank c) (lines : List (List α)) :
  words blank ([c].intercalate lines) = lines.flatMap (words blank)
  := by
  induction lines with
  | nil => rfl
  | cons line lines ih =>
      cases lines with
      | nil => simp [List.intercalate]
      | cons line' lines =>
          rw [List.intercalate_cons_cons, List.append_assoc, List.singleton_append,
            words_append hc, ih]
          rfl

/-- An even number of words is paired without those that follow. -/
theorem pairs_append {ws : List (List α)} (h : ws.length % 2 = 0) (vs : List (List α)) :
  pairs (ws ++ vs) = pairs ws ++ pairs vs
  := by
  induction ws using pairs.induct with
  | case1 => rfl
  | case2 w => cases h
  | case3 w v ws ih =>
      rw [List.cons_append, List.cons_append, pairs, pairs, List.cons_append, ih]
      rw [List.length_cons, List.length_cons] at h
      omega

end Words
