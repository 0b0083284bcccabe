import UaRateThrottling.Queue.TaskOrder

/-!
# The counter of the queue overflows

The counter ZooKeeper keeps for the queue is a signed number of 32 bits.  It overflows from
2147483647 to -2147483648, and a negative number is part of the name with its sign, which `strtoll`
reads.

`sortedByCreation_iff` says what is left of the order of the tasks then: their numbers always tell
them apart, and sorting them by their numbers is sorting them by creation unless tasks from before
the overflow are listed with tasks from after it.
-/

namespace Zuth

/-- The conversion `%010d`: at least ten characters, padded with zeros after the sign. -/
def tenDigits (i : Int) : List UInt8 :=
  if i < 0 then 45 :: Decimal.padLeft 9 (Decimal.numeral i.natAbs)
  else Decimal.padLeft 10 (Decimal.numeral i.natAbs)

/-- The counter after so many creates, from the given start. -/
def counterAfter (start : Int32) (k : Nat) : Int32 := start + Int32.ofNat k

/-- The name of the node made by the create with index `k`. -/
def createdName (start : Int32) (k : Nat) : Name :=
  taskPrefix ++ tenDigits (counterAfter start k).toInt

/-- Before the overflow the names are those of a counter that does not overflow. -/
theorem createdName_of_nonneg {start : Int32} {k : Nat} (h : 0 ≤ (counterAfter start k).toInt) :
  createdName start k = taskName (counterAfter start k).toInt.toNat
  := by
  rw [createdName, tenDigits, if_neg (by omega), taskName]
  congr 3
  omega

/-! ### The number of a task -/

/-- The number that follows a name's prefix, when its digits have no blank and no sign. -/
theorem taskNumber_tenDigits {i : Int} (hmin : -2147483648 ≤ i) (hmax : i < 2147483648) :
  taskNumber (taskPrefix ++ tenDigits i) = some i
  := by
  by_cases hneg : i < 0
  · have hdigits : ∀ c ∈ Decimal.padLeft 9 (Decimal.numeral i.natAbs), Decimal.isDigit c := by
      intro c hc
      apply Decimal.isDigit_of_mem_padLeft _ hc
      intro d hd
      apply Decimal.isDigit_of_mem_numeral hd
    have hspan := Decimal.span_append (r := []) hdigits (by simp)
    rw [List.append_nil] at hspan
    have hextract : extractTaskId (taskPrefix ++ tenDigits i) =
        some (45 :: Decimal.padLeft 9 (Decimal.numeral i.natAbs)) := by
      simp [extractTaskId, tenDigits, hneg, taskPrefix, strstr]
    have hsign : ∀ r, strtoll (45 :: r) =
        clampLongLong (-(Decimal.value (Decimal.span r).1 : Int)) := by
      intro r
      rfl
    rw [taskNumber, hextract, Option.map_some, hsign, hspan, Decimal.value_padLeft,
      Decimal.value_numeral, clampLongLong]
    congr 1
    omega
  · have hname : taskPrefix ++ tenDigits i = taskName i.natAbs := by
      rw [tenDigits, if_neg hneg, taskName]
    rw [hname, taskNumber_taskName (by omega)]
    congr 1
    omega

/-- The number in the name of a created node is the counter. -/
theorem taskNumber_createdName (start : Int32) (k : Nat) :
  taskNumber (createdName start k) = some (counterAfter start k).toInt
  := taskNumber_tenDigits (counterAfter start k).le_toInt (counterAfter start k).toInt_lt

/-- The counter overflows at most once in so many creates. -/
theorem toInt_counterAfter (start : Int32) {k : Nat} (h : k < 4294967296) :
  (counterAfter start k).toInt =
    if start.toInt + k < 2147483648 then start.toInt + k else start.toInt + k - 4294967296
  := by
  have hmin := start.le_toInt
  have hmax := start.toInt_lt
  rw [counterAfter, Int32.toInt_add, Int32.toInt_ofNat', Int.add_bmod_bmod, Int.bmod]
  simp only [Int32.size]
  split <;> split <;> omega

/-! ### The order of a listing -/

/-- Two tasks are never reported as equal. -/
theorem exists_taskIdCmp {start : Int32} {i j : Nat} (hi : i < 4294967296) (hj : j < 4294967296)
    (hne : i ≠ j) :
  ∃ order, taskIdCmp (createdName start i) (createdName start j) = some order ∧ order ≠ 0
  := by
  have hcounter : (counterAfter start i).toInt ≠ (counterAfter start j).toInt := by
    rw [toInt_counterAfter start hi, toInt_counterAfter start hj]
    split <;> split <;> omega
  rw [taskIdCmp, taskNumber_createdName, taskNumber_createdName]
  by_cases hlt : (counterAfter start i).toInt < (counterAfter start j).toInt
  · use -1
    simp [hcounter, hlt]
  · use 1
    simp [hcounter, hlt]

/-- The listed tasks are sorted by creation, and no two of them are reported as equal. -/
structure SortedByCreation (start : Int32) (outstanding : List Nat) (names : List Name) : Prop where
  sorted : sortTasks names = some (outstanding.map (createdName start))
  apart : ∀ i ∈ outstanding, ∀ j ∈ outstanding, i ≠ j →
    ∃ order, taskIdCmp (createdName start i) (createdName start j) = some order ∧ order ≠ 0

/-- The tasks left of the creates from `start` on, given by the indices of their creates in
ascending order, are sorted by creation, in whatever order they are listed, exactly when they are
all from before the overflow of the counter or all from after it. -/
theorem sortedByCreation_iff (start : Int32) {outstanding : List Nat}
    (hincreasing : outstanding.Pairwise (fun i j => i < j))
    (hwindow : ∀ k ∈ outstanding, k < 4294967296) {names : List Name}
    (hlisted : names.Perm (outstanding.map (createdName start))) :
  SortedByCreation start outstanding names ↔
    (∀ k ∈ outstanding, start.toInt + k < 2147483648) ∨
      ∀ k ∈ outstanding, 2147483648 ≤ start.toInt + k
  := by
  have hnumber : ∀ tId ∈ outstanding.map (createdName start), (taskNumber tId).isSome := by
    intro tId h
    obtain ⟨k, -, rfl⟩ := List.mem_map.mp h
    rw [taskNumber_createdName]
    rfl
  have hnumber' : ∀ tId ∈ names, (taskNumber tId).isSome := by
    intro tId h
    apply hnumber tId (hlisted.mem_iff.mp h)
  constructor
  · rintro ⟨hsort, -⟩
    by_contra hboth
    push Not at hboth
    obtain ⟨⟨i, hi, hafter⟩, j, hj, hbefore⟩ := hboth
    have hpairwise := pairwise_sortTasks hnumber' hsort
    rw [List.pairwise_map] at hpairwise
    -- a task created before another one is sorted before it
    have hascending : ∀ x ∈ outstanding, ∀ y ∈ outstanding, x < y →
        (counterAfter start x).toInt ≤ (counterAfter start y).toInt := by
      apply List.Pairwise.forall_of_forall_of_flip
      · intro x _ hlt
        omega
      · apply hpairwise.imp
        intro x y hle _
        simpa [taskNumber_createdName] using hle
      · apply hincreasing.imp
        intro x y hlt hgt
        omega
    have hle := hascending j hj i hi (by omega)
    have hwi := hwindow i hi
    have hwj := hwindow j hj
    rw [toInt_counterAfter start hwi, toInt_counterAfter start hwj, if_pos hbefore,
      if_neg (by omega)] at hle
    omega
  · intro hside
    constructor
    · apply sortTasks_eq hlisted hnumber
      rw [List.pairwise_map]
      apply hincreasing.imp_of_mem
      intro i j hi hj hlt
      have hwi := hwindow i hi
      have hwj := hwindow j hj
      rw [taskNumber_createdName, taskNumber_createdName, Option.getD_some, Option.getD_some,
        toInt_counterAfter start hwi, toInt_counterAfter start hwj]
      rcases hside with hbefore | hafter
      · rw [if_pos (hbefore i hi), if_pos (hbefore j hj)]
        omega
      · have hi' := hafter i hi
        have hj' := hafter j hj
        rw [if_neg (by omega), if_neg (by omega)]
        omega
    · intro i hi j hj hne
      apply exists_taskIdCmp (hwindow i hi) (hwindow j hj) hne

theorem sortedByCreation_iff_afterOverflow :
  SortedByCreation 2147483646 [2, 3] [createdName 2147483646 3, createdName 2147483646 2]
  := by
  apply (@sortedByCreation_iff 2147483646 [2, 3] (by decide) (by decide)
    [createdName 2147483646 3, createdName 2147483646 2] (List.Perm.swap _ _ _)).mpr
  right
  decide

/-- The last task before the overflow is sorted behind the first one after it. -/
theorem not_sortedByCreation_overflow :
  createdName 2147483647 0 = taskPrefix ++ [50, 49, 52, 55, 52, 56, 51, 54, 52, 55] ∧
    createdName 2147483647 1 = taskPrefix ++ [45, 50, 49, 52, 55, 52, 56, 51, 54, 52, 56] ∧
    ¬SortedByCreation 2147483647 [0, 1] [createdName 2147483647 0, createdName 2147483647 1]
  := by
  use rfl, rfl
  rintro ⟨hsort, -⟩
  have hpairwise := pairwise_sortTasks (by
    intro tId h
    obtain ⟨k, -, rfl⟩ := List.mem_map.mp (show tId ∈ [0, 1].map (createdName 2147483647) from h)
    rw [taskNumber_createdName]
    rfl) hsort
  rw [List.pairwise_map, List.pairwise_pair, taskNumber_createdName, taskNumber_createdName]
    at hpairwise
  revert hpairwise
  decide

end Zuth
