import UaRateThrottling.Records
import Mathlib.Data.List.Perm.Basic
import Mathlib.Data.List.Range
import Mathlib.Algebra.Field.ZMod
import Mathlib.Logic.Function.Iterate

/-!
# Open addressing

A table of slots holds items under keys.  Each key has a path through the slots, and its item is put
into the first slot on the path that is free.  A slot whose item is removed becomes a tombstone, so
that the items behind it on their paths are still reached.

A search for an item ends at the item, or at the first empty slot on its path.  A search for a free
slot ends at a tombstone already, before it could come to the item: then the item is hidden.
-/

namespace OpenAddressing

open scoped List

/-! ### Loops -/

/-- The first result on the way from `i`, for so many steps at most. -/
def loop {ι β : Type} (body : ι → Option β) (next : ι → ι) : Nat → ι → Option β
  | 0, _ => none
  | fuel + 1, i => (body i).or (loop body next fuel (next i))

section

variable {ι β : Type} {body : ι → Option β} {next : ι → ι}

theorem loop_eq (fuel : Nat) (i : ι) :
  loop body next fuel i = ((List.range fuel).map (fun t => next^[t] i)).findSome? body
  := by
  induction fuel generalizing i with
  | zero => rfl
  | succ fuel ih =>
      have hshift : (List.range fuel).map (fun t => next^[t + 1] i) =
          (List.range fuel).map (fun t => next^[t] (next i)) := by
        apply List.map_congr_left
        intro t _
        rw [Function.iterate_succ_apply]
      rw [loop, ih, List.range_succ_eq_map, List.map_cons, List.findSome?_cons, List.map_map]
      change _ = match body i with
        | some b => some b
        | none => ((List.range fuel).map (fun t => next^[t + 1] i)).findSome? body
      rw [hshift]
      cases body i <;> rfl

theorem loop_eq_none_iff {fuel : Nat} {i : ι} :
  loop body next fuel i = none ↔ ∀ t < fuel, body (next^[t] i) = none
  := by
  rw [loop_eq, List.findSome?_eq_none_iff, List.forall_mem_map]
  simp only [List.mem_range]

theorem loop_mono {fuel fuel' : Nat} (hle : fuel ≤ fuel') {i : ι} {b : β}
    (h : loop body next fuel i = some b) :
  loop body next fuel' i = some b
  := by
  rw [loop_eq] at h ⊢
  obtain ⟨more, rfl⟩ := Nat.exists_eq_add_of_le hle
  rw [List.range_add, List.map_append, List.findSome?_append, h]
  rfl

/-- On a way that comes round after `n` steps, what has no result then never has one. -/
theorem loop_eq_of_le {n fuel : Nat} (hle : n ≤ fuel) (hn : 0 < n) {i : ι}
    (hround : next^[n] i = i) :
  loop body next fuel i = loop body next n i
  := by
  cases h : loop body next n i with
  | some b => exact loop_mono hle h
  | none =>
      rw [loop_eq_none_iff] at h ⊢
      intro t _
      have hmod : next^[t] i = next^[t % n] i := by
        have hperiod : next^[n * (t / n)] i = i := by
          rw [Function.iterate_mul]
          apply Function.iterate_fixed hround
        conv =>
          lhs
          rw [← Nat.mod_add_div t n, Function.iterate_add_apply, hperiod]
      rw [hmod]
      apply h _ (Nat.mod_lt t hn)

end

/-! ### Walks round a table of prime size -/

/-- Steps of a length that is not a multiple of the prime lead to each place. -/
theorem exists_steps {p : Nat} (hp : p.Prime) {step : Nat} (hpos : 0 < step) (hlt : step < p)
    (start : Nat) {i : Nat} (hi : i < p) :
  ∃ t < p, (start + t * step) % p = i
  := by
  have hprime : Fact p.Prime := ⟨hp⟩
  have hstep : (step : ZMod p) ≠ 0 := by
    rw [Ne, ZMod.natCast_eq_zero_iff]
    exact Nat.not_dvd_of_pos_of_lt hpos hlt
  -- The way to go, measured in steps.
  let t : ZMod p := (i - start) * (step : ZMod p)⁻¹
  use t.val, t.val_lt
  have hcast : ((start + t.val * step : Nat) : ZMod p) = (i : Nat) := by
    rw [Nat.cast_add, Nat.cast_mul, ZMod.natCast_rightInverse t]
    calc (start + t * step : ZMod p)
        = start + (i - start) * ((step : ZMod p)⁻¹ * step) := by rw [mul_assoc]
      _ = start + (i - start) * 1 := by rw [inv_mul_cancel₀ hstep]
      _ = i := by rw [mul_one, add_sub_cancel]
  rw [(ZMod.natCast_eq_natCast_iff' _ _ _).mp hcast, Nat.mod_eq_of_lt hi]

/-! ### Slots and paths -/

inductive Slot (α : Type) where
  | empty
  | tombstone
  | full (item : α)
deriving DecidableEq

variable {α K : Type} [DecidableEq K] {key : α → K} {path : K → List Nat} {slots : List (Slot α)}

def Slot.item? : Slot α → Option α
  | .full a => some a
  | _ => none

variable (key) in
/-- A search for an item ends here. -/
def Slot.endsSearch (k : K) : Slot α → Bool
  | .empty => true
  | .tombstone => false
  | .full a => key a = k

variable (key) in
/-- A search for a free slot ends here. -/
def Slot.endsPlacing (k : K) : Slot α → Bool
  | .full a => key a = k
  | _ => true

/-- The items of a table. -/
def items (slots : List (Slot α)) : List α := slots.filterMap Slot.item?

variable (key) in
/-- Where a search for the item under the key ends. -/
def search (path : K → List Nat) (slots : List (Slot α)) (k : K) : Option Nat :=
  (path k).find? (fun i => (slots[i]?).any (Slot.endsSearch key k))

variable (key) in
/-- Where a search for a free slot for the key ends, or for the item under it. -/
def placing (path : K → List Nat) (slots : List (Slot α)) (k : K) : Option Nat :=
  (path k).find? (fun i => (slots[i]?).any (Slot.endsPlacing key k))

/-- The place is on the path, and there is no empty slot before it. -/
def Reaches (path : K → List Nat) (slots : List (Slot α)) (k : K) (i : Nat) : Prop :=
  ∃ before after, path k = before ++ i :: after ∧ ∀ j ∈ before, slots[j]? ≠ some Slot.empty

variable (key) in
/-- The paths reach the items. -/
def Reached (path : K → List Nat) (slots : List (Slot α)) : Prop :=
  ∀ (i : Nat) (a : α), slots[i]? = some (Slot.full a) → Reaches path slots (key a) i

variable (key) in
/-- The item under the key is in the table, but on its path a tombstone comes first. -/
def Hidden (path : K → List Nat) (slots : List (Slot α)) (k : K) : Prop :=
  (∃ a ∈ items slots, key a = k) ∧
    ∃ i, placing key path slots k = some i ∧ slots[i]? = some Slot.tombstone

/-- Each path goes through all slots of a table of the size. -/
def Covers (path : K → List Nat) (size : Nat) : Prop := ∀ k i, i ∈ path k ↔ i < size

omit [DecidableEq K] in
theorem Covers.mem_path (hpath : Covers path slots.length) {i : Nat} {s : Slot α}
    (h : slots[i]? = some s) (k : K) :
  i ∈ path k
  := by
  obtain ⟨hlt, -⟩ := List.getElem?_eq_some_iff.mp h
  apply (hpath k i).mpr hlt

/-! ### Items -/

theorem mem_items {a : α} :
  a ∈ items slots ↔ ∃ i : Nat, slots[i]? = some (Slot.full a)
  := by
  rw [items, List.mem_filterMap]
  constructor
  · rintro ⟨s, hs, ha⟩
    obtain ⟨i, hi⟩ := List.mem_iff_getElem?.mp hs
    cases s with
    | empty => cases ha
    | tombstone => cases ha
    | full b =>
        obtain rfl := Option.some.inj ha
        exact ⟨i, hi⟩
  · rintro ⟨i, hi⟩
    use Slot.full a
    exact ⟨List.mem_of_getElem? hi, rfl⟩

/-- A slot changes: the items are the same but for the old item of the slot and the new one. -/
theorem items_set {i : Nat} {s : Slot α} (h : slots[i]? = some s) (s' : Slot α) :
  s.item?.toList ++ items (slots.set i s') ~ s'.item?.toList ++ items slots
  := by
  have hcons (s : Slot α) (slots : List (Slot α)) :
      items (s :: slots) = s.item?.toList ++ items slots := by
    rw [items, List.filterMap_cons]
    cases s.item? <;> rfl
  induction slots generalizing i with
  | nil => cases h
  | cons head slots ih =>
      cases i with
      | zero =>
          obtain rfl := Option.some.inj h
          rw [List.set_cons_zero, hcons, hcons, ← List.append_assoc, ← List.append_assoc]
          apply List.perm_append_comm.append_right
      | succ i =>
          rw [List.set_cons_succ, hcons, hcons, ← List.append_assoc, ← List.append_assoc]
          calc s.item?.toList ++ head.item?.toList ++ items (slots.set i s')
              ~ head.item?.toList ++ s.item?.toList ++ items (slots.set i s') :=
                List.perm_append_comm.append_right _
            _ = head.item?.toList ++ (s.item?.toList ++ items (slots.set i s')) :=
                List.append_assoc _ _ _
            _ ~ head.item?.toList ++ (s'.item?.toList ++ items slots) := (ih h).append_left _
            _ = head.item?.toList ++ s'.item?.toList ++ items slots :=
                (List.append_assoc _ _ _).symm
            _ ~ s'.item?.toList ++ head.item?.toList ++ items slots :=
                List.perm_append_comm.append_right _

/-- A table with fewer items than slots has a slot that is not full. -/
theorem exists_free (h : (items slots).length < slots.length) :
  ∃ (i : Nat) (s : Slot α), slots[i]? = some s ∧ s.item? = none
  := by
  by_contra hfull
  push Not at hfull
  have hall : ∀ s ∈ slots, (Slot.item? s).isSome := by
    intro s hs
    obtain ⟨i, hi⟩ := List.mem_iff_getElem?.mp hs
    exact Option.isSome_iff_ne_none.mpr (hfull i s hi)
  have hlength : (items slots).length = slots.length := by
    rw [items, List.length_filterMap_eq_countP, List.countP_eq_length]
    apply hall
  omega

/-! ### Searches -/

/-- What is found at the end of a search. -/
theorem of_search {k : K} {i : Nat} (h : search key path slots k = some i) :
  slots[i]? = some Slot.empty ∨ ∃ a, slots[i]? = some (Slot.full a) ∧ key a = k
  := by
  have hend := List.find?_some h
  cases hs : slots[i]? with
  | none => simp [hs] at hend
  | some s =>
      rw [hs] at hend
      cases s with
      | empty => exact Or.inl rfl
      | tombstone => cases hend
      | full a => exact Or.inr ⟨a, rfl, of_decide_eq_true hend⟩

/-- A search for an item of the table finds an item. -/
theorem search_of_stored (hreached : Reached key path slots) {a : α} (ha : a ∈ items slots) :
  ∃ j b, search key path slots (key a) = some j ∧ slots[j]? = some (Slot.full b) ∧ key b = key a
  := by
  obtain ⟨i, hi⟩ := mem_items.mp ha
  obtain ⟨before, after, hpath, hbefore⟩ := hreached i a hi
  have hend : (slots[i]?).any (Slot.endsSearch key (key a)) := by simp [hi, Slot.endsSearch]
  rw [search, hpath, List.find?_append]
  cases hfirst : before.find? (fun i => (slots[i]?).any (Slot.endsSearch key (key a))) with
  | some j =>
      have hsearch : search key path slots (key a) = some j := by
        rw [search, hpath, List.find?_append, hfirst]
        rfl
      rcases of_search hsearch with hempty | ⟨b, hb, hkey⟩
      · exact absurd hempty (hbefore j (List.mem_of_find?_eq_some hfirst))
      · exact ⟨j, b, rfl, hb, hkey⟩
  | none =>
      use i, a
      constructor
      · rw [Option.none_or, List.find?_cons, hend]
      · exact ⟨hi, rfl⟩

/-- A search that ends tells the item under the key. -/
theorem get_of_search (hreached : Reached key path slots)
    (hdistinct : Records.Distinct key (items slots)) {k : K} {i : Nat}
    (h : search key path slots k = some i) :
  (slots[i]?).bind Slot.item? = Records.get key (items slots) k
  := by
  rcases of_search h with hempty | ⟨a, ha, rfl⟩
  · rw [hempty]
    symm
    apply Records.get_eq_none_iff.mpr
    rintro a ha rfl
    obtain ⟨j, b, hsearch, hb, -⟩ := search_of_stored hreached ha
    obtain rfl := Option.some.inj (h.symm.trans hsearch)
    cases hempty.symm.trans hb
  · rw [ha, hdistinct.get_eq (mem_items.mpr ⟨i, ha⟩)]
    rfl

/-- A search ends if and only if there is an empty slot or the item. -/
theorem search_isSome_iff (hpath : Covers path slots.length) (hreached : Reached key path slots)
    {k : K} :
  (search key path slots k).isSome ↔
    (∃ i : Nat, slots[i]? = some Slot.empty) ∨ ∃ a ∈ items slots, key a = k
  := by
  constructor
  · intro h
    obtain ⟨i, hi⟩ := Option.isSome_iff_exists.mp h
    rcases of_search hi with hempty | ⟨a, ha, hkey⟩
    · exact Or.inl ⟨i, hempty⟩
    · exact Or.inr ⟨a, mem_items.mpr ⟨i, ha⟩, hkey⟩
  · rintro (⟨i, hi⟩ | ⟨a, ha, rfl⟩)
    · rw [search, List.find?_isSome]
      use i
      constructor
      · apply hpath.mem_path hi
      · rw [hi]
        rfl
    · obtain ⟨j, b, hsearch, -⟩ := search_of_stored hreached ha
      rw [hsearch]
      rfl

/-! ### Searches for a free slot -/

/-- The end of a search for a free slot. -/
theorem of_placing {k : K} {i : Nat} (h : placing key path slots k = some i) :
  ∃ s, slots[i]? = some s ∧ (s.item? = none ∨ ∃ a, s = .full a ∧ key a = k)
  := by
  have hend := List.find?_some h
  cases hs : slots[i]? with
  | none => simp [hs] at hend
  | some s =>
      use s, rfl
      rw [hs] at hend
      cases s with
      | empty => exact Or.inl rfl
      | tombstone => exact Or.inl rfl
      | full a => exact Or.inr ⟨a, rfl, of_decide_eq_true hend⟩

/-- There is an end of the search for a free slot while not all slots are full. -/
theorem placing_isSome (hpath : Covers path slots.length)
    (h : (items slots).length < slots.length) (k : K) :
  (placing key path slots k).isSome
  := by
  obtain ⟨i, s, hi, hfree⟩ := exists_free h
  rw [placing, List.find?_isSome]
  use i
  constructor
  · apply hpath.mem_path hi
  · rw [hi]
    cases s with
    | empty => rfl
    | tombstone => rfl
    | full a => cases hfree

/-- A slot that is found is reached from the key. -/
theorem reaches_of_placing {k : K} {i : Nat} (h : placing key path slots k = some i) :
  Reaches path slots k i
  := by
  obtain ⟨-, before, after, hpath, hbefore⟩ := List.find?_eq_some_iff_append.mp h
  use before, after, hpath
  intro j hj hempty
  have hnot := hbefore j hj
  simp [hempty, Slot.endsPlacing] at hnot

/-- The search for a free slot ends at the item that is stored, unless it is hidden. -/
theorem placing_of_stored (hreached : Reached key path slots) {a : α} (ha : a ∈ items slots)
    {i : Nat} (h : placing key path slots (key a) = some i) :
  Hidden key path slots (key a) ∨ ∃ b, slots[i]? = some (Slot.full b) ∧ key b = key a
  := by
  obtain ⟨s, hs, hend⟩ := of_placing h
  cases s with
  | full b =>
      right
      rcases hend with hfree | ⟨b', hb, hkey⟩
      · cases hfree
      · injection hb with hb
        exact ⟨b, hs, hb ▸ hkey⟩
  | tombstone => exact Or.inl ⟨⟨a, ha, rfl⟩, i, h, hs⟩
  | empty =>
      -- The item is on the path, and nothing before it is empty.
      exfalso
      obtain ⟨j, hj⟩ := mem_items.mp ha
      obtain ⟨before, after, hpath, hbefore⟩ := hreached j a hj
      have hend : (slots[j]?).any (Slot.endsPlacing key (key a)) := by simp [hj, Slot.endsPlacing]
      rw [placing, hpath, List.find?_append] at h
      cases hfirst : before.find? (fun i => (slots[i]?).any (Slot.endsPlacing key (key a))) with
      | some j' =>
          rw [hfirst] at h
          obtain rfl := Option.some.inj h
          exact hbefore j' (List.mem_of_find?_eq_some hfirst) hs
      | none =>
          rw [hfirst, Option.none_or, List.find?_cons, hend] at h
          obtain rfl := Option.some.inj h
          cases hs.symm.trans hj

/-! ### Changes of a slot -/

omit [DecidableEq K] in
/-- The items stay reached when a slot changes, but not to an empty one. -/
theorem Reached.set (hreached : Reached key path slots) {i : Nat} {s : Slot α} (hs : s ≠ .empty)
    (hnew : ∀ a, s = .full a → Reaches path slots (key a) i) :
  Reached key path (slots.set i s)
  := by
  have hkept {k : K} {j : Nat} (h : Reaches path slots k j) : Reaches path (slots.set i s) k j := by
    obtain ⟨before, after, hpath, hbefore⟩ := h
    use before, after, hpath
    intro j' hj' hempty
    rw [List.getElem?_set] at hempty
    split at hempty
    · split at hempty
      · exact hs (Option.some.inj hempty)
      · cases hempty
    · exact hbefore j' hj' hempty
  intro j a hj
  apply hkept
  rw [List.getElem?_set] at hj
  split at hj
  · next heq =>
      subst heq
      split at hj
      · exact hnew a (Option.some.inj hj)
      · cases hj
  · exact hreached j a hj

/-! ### Tables that are filled -/

variable (key) in
/-- The item is put into a free slot; `none` when its key has an item that is found. -/
def put (path : K → List Nat) (slots : List (Slot α)) (a : α) : Option (List (Slot α)) :=
  (placing key path slots (key a)).bind (fun i =>
    if ((slots[i]?).bind Slot.item?).isSome then none else some (slots.set i (.full a)))

theorem put_eq_some_iff {a : α} {slots' : List (Slot α)} :
  put key path slots a = some slots' ↔
    ∃ i s, placing key path slots (key a) = some i ∧ slots[i]? = some s ∧ s.item? = none ∧
      slots' = slots.set i (.full a)
  := by
  rw [put, Option.bind_eq_some_iff]
  constructor
  · rintro ⟨i, hi, hput⟩
    obtain ⟨s, hs, -⟩ := of_placing hi
    rw [hs, Option.bind_some] at hput
    cases hfree : s.item? with
    | some b => simp [hfree] at hput
    | none =>
        rw [hfree] at hput
        exact ⟨i, s, hi, hs, hfree, (Option.some.inj hput).symm⟩
  · rintro ⟨i, s, hi, hs, hfree, rfl⟩
    use i, hi
    rw [hs, Option.bind_some, hfree]
    rfl

/-- What an item that is put into the table changes. -/
structure Put (key : α → K) (path : K → List Nat) (slots : List (Slot α)) (new : List α)
    (slots' : List (Slot α)) : Prop where
  length_eq : slots'.length = slots.length
  perm : items slots' ~ new ++ items slots
  reached : Reached key path slots → Reached key path slots'
  tombstone : Slot.tombstone ∉ slots → Slot.tombstone ∉ slots'

theorem Put.of_put {a : α} {slots' : List (Slot α)} (h : put key path slots a = some slots') :
  Put key path slots [a] slots'
  := by
  obtain ⟨i, s, hi, hs, hfree, rfl⟩ := put_eq_some_iff.mp h
  constructor
  · apply List.length_set
  · have hperm := items_set hs (.full a)
    rw [hfree] at hperm
    apply hperm
  · intro hreached
    apply hreached.set (by simp)
    rintro b hb
    injection hb with hb
    exact hb ▸ reaches_of_placing hi
  · intro hnot hmem
    rcases List.mem_or_eq_of_mem_set hmem with hmem | heq
    · exact hnot hmem
    · cases heq

/-- An item can be put if and only if its key is not taken. -/
theorem put_isSome_iff (hpath : Covers path slots.length) (hreached : Reached key path slots)
    (htombstone : Slot.tombstone ∉ slots) (hroom : (items slots).length < slots.length) {a : α} :
  (put key path slots a).isSome ↔ ∀ b ∈ items slots, key b ≠ key a
  := by
  obtain ⟨i, hi⟩ := Option.isSome_iff_exists.mp (placing_isSome hpath hroom (key a))
  obtain ⟨s, hs, hend⟩ := of_placing hi
  rw [put, hi, Option.bind_some, hs, Option.bind_some]
  constructor
  · intro hput b hb heq
    rw [← heq] at hi
    rcases placing_of_stored hreached hb hi with ⟨-, j, -, htomb⟩ | ⟨c, hc, -⟩
    · exact htombstone (List.mem_of_getElem? htomb)
    · obtain rfl := Option.some.inj (hs.symm.trans hc)
      cases hput
  · intro hnot
    rcases hend with hfree | ⟨b, rfl, hkey⟩
    · rw [hfree]
      rfl
    · exact absurd hkey (hnot b (mem_items.mpr ⟨i, hs⟩))

variable (key) in
/-- The items are put one after the other. -/
def putAll (path : K → List Nat) : List α → List (Slot α) → Option (List (Slot α))
  | [], slots => some slots
  | a :: new, slots => (put key path slots a).bind (putAll path new)

theorem Put.of_putAll {new : List α} {slots' : List (Slot α)}
    (h : putAll key path new slots = some slots') :
  Put key path slots new slots'
  := by
  induction new generalizing slots with
  | nil =>
      obtain rfl := Option.some.inj h
      exact ⟨rfl, List.Perm.refl _, id, id⟩
  | cons a new ih =>
      obtain ⟨slots₁, hput, hall⟩ := Option.bind_eq_some_iff.mp h
      have hfirst := Put.of_put hput
      have hrest := ih hall
      constructor
      · exact hrest.length_eq.trans hfirst.length_eq
      · calc items slots' ~ new ++ items slots₁ := hrest.perm
          _ ~ new ++ (a :: items slots) := hfirst.perm.append_left new
          _ ~ a :: (new ++ items slots) := List.perm_middle
      · exact fun hreached => hrest.reached (hfirst.reached hreached)
      · exact fun hnot => hrest.tombstone (hfirst.tombstone hnot)

/-- Items can be put into a table without tombstones if and only if their keys are all different. -/
theorem putAll_isSome_iff (hpath : Covers path slots.length) (hreached : Reached key path slots)
    (htombstone : Slot.tombstone ∉ slots) (hdistinct : Records.Distinct key (items slots))
    {new : List α} (hroom : new.length + (items slots).length ≤ slots.length) :
  (putAll key path new slots).isSome ↔ Records.Distinct key (new ++ items slots)
  := by
  induction new generalizing slots with
  | nil => exact iff_of_true rfl hdistinct
  | cons a new ih =>
      rw [List.length_cons] at hroom
      have hput := put_isSome_iff hpath hreached htombstone (a := a) (by omega)
      constructor
      · intro h
        obtain ⟨slots', hall⟩ := Option.isSome_iff_exists.mp h
        obtain ⟨slots₁, hslots₁, hrest⟩ := Option.bind_eq_some_iff.mp hall
        have hfirst := Put.of_put hslots₁
        have hnot := hput.mp (Option.isSome_of_mem hslots₁)
        have hcons : Records.Distinct key (a :: items slots) :=
          hdistinct.cons (Records.get_eq_none_iff.mpr hnot)
        have hperm : new ++ items slots₁ ~ a :: (new ++ items slots) :=
          (hfirst.perm.append_left new).trans List.perm_middle
        have hall := (ih (hfirst.length_eq ▸ hpath) (hfirst.reached hreached)
          (hfirst.tombstone htombstone) ((hfirst.perm.map key).nodup_iff.mpr hcons)
          (by
            rw [hfirst.perm.length_eq, hfirst.length_eq, List.length_append, List.length_singleton]
            omega)).mp (Option.isSome_of_mem hrest)
        exact (hperm.map key).nodup_iff.mp hall
      · intro h
        obtain ⟨hhead, htail⟩ := List.nodup_cons.mp h
        have hnot : ∀ b ∈ items slots, key b ≠ key a := by
          intro b hb heq
          apply hhead
          rw [← heq]
          exact List.mem_map_of_mem (List.mem_append_right _ hb)
        obtain ⟨slots₁, hslots₁⟩ := Option.isSome_iff_exists.mp (hput.mpr hnot)
        have hfirst := Put.of_put hslots₁
        have hperm : new ++ items slots₁ ~ a :: (new ++ items slots) :=
          (hfirst.perm.append_left new).trans List.perm_middle
        rw [putAll, hslots₁, Option.bind_some]
        apply (ih (hfirst.length_eq ▸ hpath) (hfirst.reached hreached)
          (hfirst.tombstone htombstone) _ _).mpr
        · exact (hperm.map key).nodup_iff.mpr h
        · exact (hfirst.perm.map key).nodup_iff.mpr
            (hdistinct.cons (Records.get_eq_none_iff.mpr hnot))
        · rw [hfirst.perm.length_eq, hfirst.length_eq, List.length_append, List.length_singleton]
          omega

end OpenAddressing
