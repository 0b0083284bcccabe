import Mathlib.Data.List.Find
import Mathlib.Data.List.Nodup
import Mathlib.Data.List.Perm.Basic
import Mathlib.Logic.Function.Basic
import Mathlib.Tactic.Common

/-!
# Records and links between them

A list of records holds each record under its key, as a memory holds objects at addresses.
`get key records k` is the record under `k`, and each change of the list is an update of the
function `get key records`.

Members may be linked with owners from both sides: a member points to its owner, and an owner lists
its members.  `Linked` says that the two agree.
-/

/-! ### Records by their keys -/

namespace Records

variable {R K : Type} (key : R → K)

/-- The keys of the list are different. -/
def Distinct (records : List R) : Prop := (records.map key).Nodup

variable [DecidableEq K]

/-- The first record under the key. -/
def get (records : List R) (k : K) : Option R := records.find? (fun r => key r = k)

/-- The records under the key are changed. -/
def modify (k : K) (f : R → R) (records : List R) : List R :=
  records.map (fun r => if key r = k then f r else r)

/-- The records under the key are taken off the list. -/
def remove (k : K) (records : List R) : List R := records.filter (fun r => key r ≠ k)

variable {key}

theorem of_get {records : List R} {k : K} {r : R} (h : get key records k = some r) :
  r ∈ records ∧ key r = k
  := by
  use List.mem_of_find?_eq_some h
  simpa using List.find?_some h

theorem get_eq_none_iff {records : List R} {k : K} :
  get key records k = none ↔ ∀ r ∈ records, key r ≠ k
  := by simp [get]

theorem get_cons (r : R) (records : List R) :
  get key (r :: records) = Function.update (get key records) (key r) (some r)
  := by
  funext k
  rw [get, List.find?_cons]
  by_cases hk : key r = k
  · subst hk
    simp
  · rw [decide_eq_false hk, Function.update_of_ne (Ne.symm hk)]
    rfl

/-- A change of all records that keeps their keys. -/
theorem get_map {f : R → R} (hf : ∀ r, key (f r) = key r) (records : List R) (k : K) :
  get key (records.map f) k = (get key records k).map f
  := by
  rw [get, List.find?_map]
  congr 2
  funext r
  rw [Function.comp_apply, hf]

theorem get_modify {f : R → R} (hf : ∀ r, key (f r) = key r) (k : K) (records : List R) :
  get key (modify key k f records) =
    Function.update (get key records) k ((get key records k).map f)
  := by
  funext k'
  rw [modify, get_map (fun r => by split <;> simp [hf])]
  by_cases hk : k' = k
  · subst hk
    rw [Function.update_self]
    cases h : get key records k' with
    | none => rfl
    | some r => rw [Option.map_some, Option.map_some, if_pos (of_get h).2]
  · rw [Function.update_of_ne hk]
    cases h : get key records k' with
    | none => rfl
    | some r =>
        rw [Option.map_some, if_neg]
        rw [(of_get h).2]
        apply hk

theorem get_remove (k : K) (records : List R) :
  get key (remove key k records) = Function.update (get key records) k none
  := by
  funext k'
  by_cases hk : k' = k
  · subst hk
    rw [Function.update_self, get_eq_none_iff]
    intro r hr
    simpa using (List.mem_filter.mp hr).2
  · rw [Function.update_of_ne hk, get, remove, List.find?_filter]
    apply List.find?_congr
    intro r _
    by_cases hr : key r = k'
    · simp [hr, hk]
    · simp [hr]

theorem Distinct.get_eq {records : List R} (h : Distinct key records) {r : R} (hr : r ∈ records) :
  get key records (key r) = some r
  := by
  induction records with
  | nil => cases hr
  | cons head records ih =>
      obtain ⟨hhead, h⟩ := List.nodup_cons.mp h
      rw [get_cons]
      rcases List.mem_cons.mp hr with rfl | hr
      · apply Function.update_self
      · rw [Function.update_of_ne, ih h hr]
        intro heq
        apply hhead
        rw [← heq]
        apply List.mem_map_of_mem hr

/-- The order of the records does not matter. -/
theorem Distinct.get_perm {records records' : List R} (h : Distinct key records)
    (hperm : records'.Perm records) :
  get key records' = get key records
  := by
  have h' : Distinct key records' := (hperm.map key).nodup_iff.mpr h
  funext k
  cases hget : get key records k with
  | none =>
      rw [get_eq_none_iff] at hget ⊢
      intro r hr
      exact hget r (hperm.mem_iff.mp hr)
  | some r =>
      obtain ⟨hr, rfl⟩ := of_get hget
      exact h'.get_eq (hperm.mem_iff.mpr hr)

theorem Distinct.cons {records : List R} (h : Distinct key records) {r : R}
    (hr : get key records (key r) = none) :
  Distinct key (r :: records)
  := by
  apply List.nodup_cons.mpr
  constructor
  · intro hmem
    obtain ⟨r', hr', heq⟩ := List.mem_map.mp hmem
    apply get_eq_none_iff.mp hr r' hr' heq
  · apply h

omit [DecidableEq K] in
theorem Distinct.map {records : List R} (h : Distinct key records) {f : R → R}
    (hf : ∀ r, key (f r) = key r) :
  Distinct key (records.map f)
  := by
  have hkeys : (records.map f).map key = records.map key := by
    rw [List.map_map]
    apply List.map_congr_left
    intro r _
    apply hf
  rw [Distinct, hkeys]
  apply h

theorem Distinct.modify {records : List R} (h : Distinct key records) {k : K} {f : R → R}
    (hf : ∀ r, key (f r) = key r) :
  Distinct key (modify key k f records)
  := by
  apply h.map
  intro r
  split
  · apply hf
  · rfl

theorem Distinct.remove {records : List R} (h : Distinct key records) (k : K) :
  Distinct key (remove key k records)
  := h.sublist (List.filter_sublist.map key)

theorem remove_eq_self {records : List R} {k : K} (h : get key records k = none) :
  remove key k records = records
  := by
  rw [remove, List.filter_eq_self]
  intro r hr
  simpa using get_eq_none_iff.mp h r hr

theorem Distinct.get_tail {r : R} {records : List R} (h : Distinct key (r :: records)) :
  get key records (key r) = none
  := by
  rw [get_eq_none_iff]
  intro r' hr' heq
  apply (List.nodup_cons.mp h).1
  rw [← heq]
  apply List.mem_map_of_mem hr'

/-- A record is replaced by another one under its key, or taken off the list. -/
theorem Distinct.change {records records' : List R} (h : Distinct key records) {r : R}
    (hr : r ∈ records) {x : Option R} (hx : ∀ s ∈ x, key s = key r)
    (hperm : (r :: records').Perm (x.toList ++ records)) :
  Distinct key records' ∧
    get key records' = Function.update (get key records) (key r) x
  := by
  obtain ⟨before, after, rfl⟩ := List.append_of_mem hr
  have hfirst : (before ++ r :: after).Perm (r :: (before ++ after)) := List.perm_middle
  have hsplit : Distinct key (r :: (before ++ after)) := (hfirst.map key).nodup_iff.mp h
  have hrest : Distinct key (before ++ after) := (List.nodup_cons.mp hsplit).2
  have hnone : get key (before ++ after) (key r) = none := hsplit.get_tail
  have hperm' : records'.Perm (x.toList ++ (before ++ after)) := by
    apply List.Perm.cons_inv
    exact hperm.trans ((hfirst.append_left _).trans List.perm_middle)
  rw [hsplit.get_perm hfirst, get_cons, Function.update_idem]
  cases x with
  | none =>
      use (hperm'.map key).nodup_iff.mpr hrest
      rw [hrest.get_perm hperm', ← hnone, Function.update_eq_self]
  | some s =>
      have hkey := hx s rfl
      have hcons : Distinct key (s :: (before ++ after)) := hrest.cons (hkey ▸ hnone)
      use (hperm'.map key).nodup_iff.mpr hcons
      rw [hcons.get_perm hperm', get_cons, hkey]

/-- The first record that meets `p` is the only one under its key. -/
theorem Distinct.remove_eq_eraseP {records : List R} (h : Distinct key records) {p : R → Bool}
    {r : R} (hr : records.find? p = some r) :
  Records.remove key (key r) records = records.eraseP p
  := by
  induction records with
  | nil => cases hr
  | cons head records ih =>
      by_cases hp : p head
      · rw [List.find?_cons_of_pos hp] at hr
        obtain rfl := Option.some.inj hr
        rw [List.eraseP_cons_of_pos hp, Records.remove, List.filter_cons_of_neg (by simp)]
        apply remove_eq_self h.get_tail
      · rw [List.find?_cons_of_neg hp] at hr
        have hne : key head ≠ key r := by
          intro heq
          apply get_eq_none_iff.mp h.get_tail r (List.mem_of_find?_eq_some hr) heq.symm
        rw [List.eraseP_cons_of_neg hp, ← ih (List.nodup_cons.mp h).2 hr]
        apply List.filter_cons_of_pos
        simpa using hne

theorem Distinct.length_remove {records : List R} (h : Distinct key records) {k : K} {r : R}
    (hr : get key records k = some r) :
  (Records.remove key k records).length + 1 = records.length
  := by
  obtain ⟨hmem, rfl⟩ := of_get hr
  rw [h.remove_eq_eraseP hr, List.length_eraseP_of_mem hmem (by simp)]
  apply Nat.succ_pred (List.ne_nil_of_mem hmem |> List.length_pos_iff.mpr |> Nat.ne_of_gt)

theorem length_modify (k : K) (f : R → R) (records : List R) :
  (modify key k f records).length = records.length
  := List.length_map _

end Records

/-! ### Links from both sides -/

/-- An owner lists each of its members once, and its members are those that point to it. -/
structure Linked {M O : Type} (owner : M → Option O) (members : O → List M) : Prop where
  nodup : ∀ o, (members o).Nodup
  mem_iff : ∀ {m o}, m ∈ members o ↔ owner m = some o

namespace Linked

variable {M O : Type} [DecidableEq M] [DecidableEq O] {owner : M → Option O} {members : O → List M}

/-- A member without an owner gets one. -/
theorem link (h : Linked owner members) {m : M} (hm : owner m = none) (o : O) :
  Linked (Function.update owner m (some o)) (Function.update members o (m :: members o))
  := by
  have hnot : ∀ o', m ∉ members o' := by
    intro o' hmem
    cases hm.symm.trans (h.mem_iff.mp hmem)
  constructor
  · intro o'
    by_cases ho : o' = o
    · subst ho
      rw [Function.update_self]
      apply List.nodup_cons.mpr ⟨hnot _, h.nodup _⟩
    · rw [Function.update_of_ne ho]
      apply h.nodup
  · intro m' o'
    by_cases ho : o' = o
    · subst ho
      rw [Function.update_self, List.mem_cons]
      by_cases hm' : m' = m
      · simp [hm']
      · simp [hm', h.mem_iff]
    · rw [Function.update_of_ne ho]
      by_cases hm' : m' = m
      · subst hm'
        rw [Function.update_self]
        constructor
        · intro hmem
          exact absurd hmem (hnot o')
        · intro heq
          exact absurd (Option.some.inj heq).symm ho
      · rw [Function.update_of_ne hm', h.mem_iff]

/-- A member leaves its owner. -/
theorem unlink (h : Linked owner members) {m : M} {o : O} (hm : owner m = some o) :
  Linked (Function.update owner m none) (Function.update members o ((members o).erase m))
  := by
  constructor
  · intro o'
    by_cases ho : o' = o
    · subst ho
      rw [Function.update_self]
      apply (h.nodup _).erase
    · rw [Function.update_of_ne ho]
      apply h.nodup
  · intro m' o'
    by_cases hm' : m' = m
    · subst hm'
      rw [Function.update_self]
      constructor
      · intro hmem
        by_cases ho : o' = o
        · subst ho
          rw [Function.update_self] at hmem
          exact absurd hmem (h.nodup _).not_mem_erase
        · rw [Function.update_of_ne ho] at hmem
          exact absurd (Option.some.inj ((h.mem_iff.mp hmem).symm.trans hm)) ho
      · intro heq
        cases heq
    · rw [Function.update_of_ne hm']
      by_cases ho : o' = o
      · subst ho
        rw [Function.update_self, List.mem_erase_of_ne hm', h.mem_iff]
      · rw [Function.update_of_ne ho, h.mem_iff]

/-- An owner releases all its members. -/
theorem release (h : Linked owner members) (o : O) :
  Linked (fun m => if m ∈ members o then none else owner m) (Function.update members o [])
  := by
  constructor
  · intro o'
    by_cases ho : o' = o
    · subst ho
      rw [Function.update_self]
      apply List.nodup_nil
    · rw [Function.update_of_ne ho]
      apply h.nodup
  · intro m o'
    by_cases ho : o' = o
    · subst ho
      rw [Function.update_self]
      constructor
      · intro hmem
        cases hmem
      · intro heq
        split at heq
        · cases heq
        · next hnot => exact absurd (h.mem_iff.mpr heq) hnot
    · rw [Function.update_of_ne ho, h.mem_iff]
      split
      · next hmem =>
          constructor
          · intro heq
            exact absurd (Option.some.inj (heq.symm.trans (h.mem_iff.mp hmem))) ho
          · intro heq
            cases heq
      · rfl

end Linked
