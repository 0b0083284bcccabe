import UaRateThrottling.CString
import Mathlib.Data.List.Sort

/-!
# The order of the tasks

ZooKeeper names the sequential nodes a client creates `task-`, followed by the value of the
queue's counter, padded to ten digits.  The server reads the number back out of the name,
with `strstr` and `strtoll`, and sorts the names by it.  The number read back is the counter,
so that a listing of the queue in any order is sorted into the order of creation.
-/

namespace Zuth

/-- The name of a node, without its path. -/
abbrev Name := List UInt8

/-- `task-` -/
def taskPrefix : Name := [116, 97, 115, 107, 45]

/-- The name ZooKeeper gives to the sequential node created at the counter `n`. -/
def taskName (n : Nat) : Name := taskPrefix ++ Decimal.padLeft 10 (Decimal.numeral n)

/-- The suffix of a string that starts at the first occurrence of `needle`. -/
def strstr (needle : List UInt8) : List UInt8 → Option (List UInt8)
  | [] => if needle.isEmpty then some [] else none
  | c :: s => if needle.isPrefixOf (c :: s) then some (c :: s) else strstr needle s

/-- `zuth_extractTaskId`: what follows `task-` in a name.  Without `task-` the code reads
through the null pointer `strstr` returns. -/
def extractTaskId (tId : Name) : Option (List UInt8) :=
  (strstr taskPrefix tId).map (fun locTask => locTask.drop taskPrefix.length)

/-- The number in the name of a task. -/
def taskNumber (tId : Name) : Option Int := (extractTaskId tId).map strtoll

/-- `taskIdCmp`: two names are compared by their numbers. -/
def taskIdCmp (tId1 tId2 : Name) : Option Int := do
  let tI1 ← taskNumber tId1
  let tI2 ← taskNumber tId2
  if tI1 ≠ tI2 then
    if tI1 < tI2 then return -1
    else return 1
  else return 0

/-- The call of `qsort` on the names of a listing.  From two names on every name is compared
with some other, and a name without `task-` ends the process. -/
def sortTasks (names : List Name) : Option (List Name) :=
  if 2 ≤ names.length ∧ names.any (fun tId => (taskNumber tId).isNone) then none
  else some (names.insertionSort (fun tId1 tId2 => (taskIdCmp tId1 tId2).getD 0 ≤ 0))

/-- The number of the name made at the counter `n` is `n`, as long as it is in the range of
`long long`. -/
theorem taskNumber_taskName {n : Nat} (h : n < 9223372036854775808) :
  taskNumber (taskName n) = some (n : Int)
  := by
  have hdigits : ∀ c ∈ Decimal.padLeft 10 (Decimal.numeral n), Decimal.isDigit c := by
    intro c hc
    apply Decimal.isDigit_of_mem_padLeft _ hc
    intro d hd
    apply Decimal.isDigit_of_mem_numeral hd
  have hextract : extractTaskId (taskName n)
      = some (Decimal.padLeft 10 (Decimal.numeral n)) := by
    simp [extractTaskId, taskName, taskPrefix, strstr]
  have hspan := Decimal.span_append (r := []) hdigits (by simp)
  rw [List.append_nil] at hspan
  have hvalue : Decimal.value (Decimal.padLeft 10 (Decimal.numeral n)) = n := by
    rw [Decimal.value_padLeft, Decimal.value_numeral]
  rw [taskNumber, hextract, Option.map_some, strtoll]
  -- the digits start with neither a blank nor a sign
  generalize Decimal.padLeft 10 (Decimal.numeral n) = s at *
  have hclamp : clampLongLong (n : Int) = n := by
    rw [clampLongLong]
    omega
  cases s with
  | nil =>
      simp only [List.dropWhile_nil, hspan, hvalue, hclamp]
  | cons c s =>
      have hc : 48 ≤ c.toNat ∧ c.toNat ≤ 57 := by
        have h := hdigits c List.mem_cons_self
        simp only [Decimal.isDigit, Bool.and_eq_true, decide_eq_true_eq,
          UInt8.le_iff_toNat_le] at h
        apply h
      have hspace : isSpace c = false := by
        simp only [isSpace, Bool.or_eq_false_iff, decide_eq_false_iff_not, Bool.and_eq_false_iff,
          UInt8.le_iff_toNat_le, ← UInt8.toNat_inj]
        simp only [UInt8.reduceToNat]
        omega
      rw [List.dropWhile_cons_of_neg (by simp [hspace])]
      split
      · rename_i heq
        obtain ⟨rfl, -⟩ := List.cons.inj heq
        simp at hc
      · rename_i heq
        obtain ⟨rfl, -⟩ := List.cons.inj heq
        simp at hc
      · rw [hspan, hvalue, hclamp]

/-- Of two names with numbers, the first is sorted before the second exactly when its number
is not the greater one. -/
theorem taskIdCmp_le_iff {a b : Name} {i j : Int} (hi : taskNumber a = some i)
    (hj : taskNumber b = some j) :
  (taskIdCmp a b).getD 0 ≤ 0 ↔ i ≤ j
  := by
  rw [taskIdCmp, hi, hj]
  by_cases heq : i = j
  · simp [heq]
  · by_cases hlt : i < j
    · simp [heq, hlt]
      omega
    · simp [heq, hlt]
      omega

/-- Names that all have numbers are sorted by their numbers. -/
theorem sortTasks_byNumber {names : List Name} (hnumber : ∀ tId ∈ names, (taskNumber tId).isSome) :
  sortTasks names =
    some (names.insertionSort (fun a b => (taskNumber a).getD 0 ≤ (taskNumber b).getD 0))
  := by
  have hsome : ∀ tId ∈ names, taskNumber tId = some ((taskNumber tId).getD 0) := by
    intro tId h
    obtain ⟨i, hi⟩ := Option.isSome_iff_exists.mp (hnumber tId h)
    rw [hi]
    rfl
  have hnone : ¬(2 ≤ names.length ∧ names.any (fun tId => (taskNumber tId).isNone)) := by
    rintro ⟨-, hany⟩
    obtain ⟨tId, hmem, h⟩ := List.any_eq_true.mp hany
    rw [hsome tId hmem] at h
    cases h
  rw [sortTasks, if_neg hnone]
  congr 1
  -- on these names the comparison is the comparison of the numbers
  have hkey := List.map_insertionSort
    (fun tId1 tId2 => (taskIdCmp tId1 tId2).getD 0 ≤ 0)
    (fun a b => (taskNumber a).getD 0 ≤ (taskNumber b).getD 0) id names (by
      intro a ha b hb
      apply taskIdCmp_le_iff (hsome a ha) (hsome b hb))
  rw [List.map_id, List.map_id] at hkey
  apply hkey

/-- The names of a sorted listing have ascending numbers. -/
theorem pairwise_sortTasks {names sorted : List Name}
    (hnumber : ∀ tId ∈ names, (taskNumber tId).isSome) (h : sortTasks names = some sorted) :
  sorted.Pairwise (fun a b => (taskNumber a).getD 0 ≤ (taskNumber b).getD 0)
  := by
  rw [sortTasks_byNumber hnumber] at h
  obtain rfl := Option.some.inj h
  have htotal : Std.Total (fun a b : Name => (taskNumber a).getD 0 ≤ (taskNumber b).getD 0) :=
    ⟨fun a b => le_total _ _⟩
  have htrans : IsTrans Name (fun a b => (taskNumber a).getD 0 ≤ (taskNumber b).getD 0) :=
    ⟨fun a b c => le_trans⟩
  apply List.pairwise_insertionSort

/-- A listing, in any order, of names whose numbers increase is sorted into that order. -/
theorem sortTasks_eq {names sorted : List Name} (hperm : names.Perm sorted)
    (hnumber : ∀ tId ∈ sorted, (taskNumber tId).isSome)
    (hsorted : sorted.Pairwise (fun a b => (taskNumber a).getD 0 < (taskNumber b).getD 0)) :
  sortTasks names = some sorted
  := by
  have hnumber' : ∀ tId ∈ names, (taskNumber tId).isSome := by
    intro tId h
    apply hnumber tId (hperm.mem_iff.mp h)
  have hsort := sortTasks_byNumber hnumber'
  have hmerged := (List.perm_insertionSort
    (fun a b => (taskNumber a).getD 0 ≤ (taskNumber b).getD 0) names).trans hperm
  have hinj : ∀ a ∈ sorted, ∀ b ∈ sorted,
      (taskNumber a).getD 0 = (taskNumber b).getD 0 → a = b := by
    apply List.Pairwise.forall_of_forall_of_flip
    · intro a _ _
      rfl
    · apply hsorted.imp
      intro a b hlt heq
      omega
    · apply hsorted.imp
      intro a b hlt heq
      omega
  rw [hsort]
  congr 1
  apply List.Perm.eq_of_pairwise _ (pairwise_sortTasks hnumber' hsort) _ hmerged
  · intro a b ha hb hab hba
    apply hinj a (hmerged.mem_iff.mp ha) b hb
    omega
  · apply hsorted.imp
    intro a b hlt
    omega

/-- Sorting keeps the names. -/
theorem perm_of_sortTasks {names tasks : List Name} (h : sortTasks names = some tasks) :
  tasks.Perm names
  := by
  rw [sortTasks, Option.ite_none_left_eq_some] at h
  obtain rfl := Option.some.inj h.2
  apply List.perm_insertionSort

/-- Names that all have numbers can be sorted. -/
theorem sortTasks_isSome {names : List Name} (h : ∀ tId ∈ names, (taskNumber tId).isSome) :
  (sortTasks names).isSome
  := by
  rw [sortTasks, if_neg]
  · rfl
  · rintro ⟨-, hany⟩
    obtain ⟨tId, hmem, hnone⟩ := List.any_eq_true.mp hany
    rw [← Option.not_isSome, h tId hmem] at hnone
    cases hnone

end Zuth
