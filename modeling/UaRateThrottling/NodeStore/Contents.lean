import UaRateThrottling.NodeStore.Store

/-!
# The table of the node store

The tables that the store can have, whatever is called, are `Sound`: the size is a prime, and each
entry is reached from its id.  So the searches of the store are the searches of open addressing, and
a new table holds the nodes of the old one, in case their ids are all different.
-/

namespace UA

open scoped List

open OpenAddressing (Slot items search placing Reached Hidden Covers Put put putAll)

/-! ### The table of a store -/

/-- The key of an entry. -/
def NodeStoreEntry.key {V : Type} (e : NodeStoreEntry V) : Binary.NodeId :=
  NodeStore.normal e.nodeId

namespace NodeStore

variable {V : Type}

/-- The nodes of the store, by the normal forms of their ids. -/
def nodes (ns : NodeStore V) (nodeid : Binary.NodeId) : Option (NodeStoreEntry V) :=
  Records.get NodeStoreEntry.key (items ns.entries) nodeid

/-- No two nodes have the same id. -/
def Distinct (ns : NodeStore V) : Prop := Records.Distinct NodeStoreEntry.key (items ns.entries)

/-- The node is stored. -/
def Stored (ns : NodeStore V) (nodeid : Binary.NodeId) : Prop :=
  ∃ e ∈ items ns.entries, e.key = normal nodeid

/-- The node is stored, but `findSlot` comes to a tombstone first. -/
def IsHidden (ns : NodeStore V) (nodeid : Binary.NodeId) : Prop :=
  Hidden NodeStoreEntry.key (path ns.size) ns.entries (normal nodeid)

/-- What holds of a table of the store, whatever the calls have been. -/
structure Sound (ns : NodeStore V) : Prop where
  isSize : IsSize ns.size
  length_eq : ns.entries.length = ns.size.toNat
  reached : Reached NodeStoreEntry.key (path ns.size) ns.entries

/-- Besides, the nodes are counted, and not much more than three quarters of the slots are full. -/
structure Valid (ns : NodeStore V) : Prop extends Sound ns where
  count_eq : ns.count.toNat = (items ns.entries).length
  load : 4 * ns.count.toNat < 3 * ns.size.toNat + 4

theorem path_normal (size : UInt32) (nodeid : Binary.NodeId) :
  path size (normal nodeid) = path size nodeid
  := by rw [path, path, hash_normal]

namespace Sound

variable {ns : NodeStore V}

theorem covers (h : Sound ns) :
  Covers (path ns.size) ns.entries.length
  := by
  rw [h.length_eq]
  exact h.isSize.covers

end Sound

/-- A loop of the store is a search along the path. -/
theorem loop_eq_find {ns : NodeStore V} (h : Sound ns) {β : Type} {body : UInt32 → Option β}
    {ends : Nat → Bool} {result : Nat → β}
    (hbody : ∀ idx, body idx = if ends idx.toNat then some (result idx.toNat) else none)
    (nodeid : Binary.NodeId) {fuel : Nat} (hfuel : ns.size.toNat ≤ fuel) :
  OpenAddressing.loop body (next ns.size (mod2 (hash nodeid) ns.size)) fuel
      (mod (hash nodeid) ns.size) =
    ((path ns.size nodeid).find? ends).map result
  := by
  obtain ⟨-, hlt⟩ := h.isSize.mod2_bounds (hash nodeid)
  have hround := h.isSize.iterate_size hlt (h.isSize.mod_lt (hash nodeid))
  rw [OpenAddressing.loop_eq_of_le hfuel h.isSize.prime.pos hround, OpenAddressing.loop_eq, path,
    List.find?_map, List.findSome?_map, Option.map_map]
  induction List.range ns.size.toNat with
  | nil => rfl
  | cons t ts ih =>
      rw [List.findSome?_cons, List.find?_cons, Function.comp_apply, hbody, Function.comp_apply]
      split
      · rename_i heq
        split at heq
        · rename_i hends
          rw [hends]
          exact heq.symm
        · cases heq
      · rename_i heq
        split at heq
        · cases heq
        · rename_i hends
          rw [Bool.not_eq_true _ |>.mp hends]
          exact ih

/-- What `findNode` finds at the end of the search. -/
theorem findNode_eq {ns : NodeStore V} (h : Sound ns) (nodeid : Binary.NodeId) {fuel : Nat}
    (hfuel : ns.size.toNat ≤ fuel) :
  findNode fuel ns nodeid =
    (search NodeStoreEntry.key (path ns.size) ns.entries (normal nodeid)).map
      (fun i => ((ns.entries[i]?).bind Slot.item?).map (fun e => (i, e)))
  := by
  rw [search, path_normal]
  apply loop_eq_find h _ nodeid hfuel
  intro idx
  cases ns.entries[idx.toNat]? with
  | none => rfl
  | some s =>
      cases s with
      | empty => rfl
      | tombstone => rfl
      | full e =>
          by_cases heq : nodeIdEqual e.nodeId nodeid
          · have hkey : e.key = normal nodeid := nodeIdEqual_iff.mp heq
            simp [heq, hkey, Slot.endsSearch, Slot.item?]
          · have hkey : e.key ≠ normal nodeid := fun hkey => heq (nodeIdEqual_iff.mpr hkey)
            simp [heq, hkey, Slot.endsSearch]

/-- What `findSlot` finds at the end of the search. -/
theorem findSlot_eq {ns : NodeStore V} (h : Sound ns) (nodeid : Binary.NodeId) {fuel : Nat}
    (hfuel : ns.size.toNat ≤ fuel) :
  findSlot fuel ns nodeid =
    (placing NodeStoreEntry.key (path ns.size) ns.entries (normal nodeid)).map
      (fun i => if ((ns.entries[i]?).bind Slot.item?).isSome then none else some i)
  := by
  rw [placing, path_normal]
  apply loop_eq_find h _ nodeid hfuel
  intro idx
  cases ns.entries[idx.toNat]? with
  | none => rfl
  | some s =>
      cases s with
      | empty => rfl
      | tombstone => rfl
      | full e =>
          by_cases heq : nodeIdEqual e.nodeId nodeid
          · have hkey : e.key = normal nodeid := nodeIdEqual_iff.mp heq
            simp [heq, hkey, Slot.endsPlacing, Slot.item?]
          · have hkey : e.key ≠ normal nodeid := fun hkey => heq (nodeIdEqual_iff.mpr hkey)
            simp [heq, hkey, Slot.endsPlacing]

theorem findSlot_mono {ns : NodeStore V} {nodeid : Binary.NodeId} {fuel fuel' : Nat}
    (hle : fuel ≤ fuel') {r : Option Nat} (h : findSlot fuel ns nodeid = some r) :
  findSlot fuel' ns nodeid = some r
  := OpenAddressing.loop_mono hle h

/-- What a call of `findNode` has found. -/
theorem of_findNode {ns : NodeStore V} (h : Sound ns) {nodeid : Binary.NodeId} {fuel : Nat}
    {r : Option (Nat × NodeStoreEntry V)} (hfind : findNode fuel ns nodeid = some r) :
  ∃ i, search NodeStoreEntry.key (path ns.size) ns.entries (normal nodeid) = some i ∧
    r = ((ns.entries[i]?).bind Slot.item?).map (fun e => (i, e))
  := by
  have hmore := OpenAddressing.loop_mono (Nat.le_max_left fuel ns.size.toNat) hfind
  obtain ⟨i, hi, heq⟩ := Option.map_eq_some_iff.mp
    ((findNode_eq h nodeid (Nat.le_max_right fuel ns.size.toNat)).symm.trans hmore)
  exact ⟨i, hi, heq.symm⟩

/-- What a call of `findSlot` has found. -/
theorem of_findSlot {ns : NodeStore V} (h : Sound ns) {nodeid : Binary.NodeId} {fuel : Nat}
    {r : Option Nat} (hfind : findSlot fuel ns nodeid = some r) :
  ∃ i, placing NodeStoreEntry.key (path ns.size) ns.entries (normal nodeid) = some i ∧
    r = if ((ns.entries[i]?).bind Slot.item?).isSome then none else some i
  := by
  have hmore := findSlot_mono (Nat.le_max_left fuel ns.size.toNat) hfind
  obtain ⟨i, hi, heq⟩ := Option.map_eq_some_iff.mp
    ((findSlot_eq h nodeid (Nat.le_max_right fuel ns.size.toNat)).symm.trans hmore)
  exact ⟨i, hi, heq.symm⟩

/-- An entry is put into the slot that is found for it. -/
theorem put_of_findSlot {ns : NodeStore V} (h : Sound ns) {fuel slot : Nat} {e : NodeStoreEntry V}
    (hfind : findSlot fuel ns e.nodeId = some (some slot)) :
  put NodeStoreEntry.key (path ns.size) ns.entries e = some (ns.entries.set slot (.full e))
  := by
  obtain ⟨i, hi, heq⟩ := of_findSlot h hfind
  rw [put, NodeStoreEntry.key, hi, Option.bind_some]
  split at heq
  · cases heq
  · next hfree =>
      obtain rfl := Option.some.inj heq
      rw [if_neg hfree]

/-- The entry under the id is found, or else nothing can be put. -/
theorem put_of_findSlot_none {ns : NodeStore V} (h : Sound ns) {fuel : Nat} {e : NodeStoreEntry V}
    (hfind : findSlot fuel ns e.nodeId = some none) :
  put NodeStoreEntry.key (path ns.size) ns.entries e = none ∧ Stored ns e.nodeId
  := by
  obtain ⟨i, hi, heq⟩ := of_findSlot h hfind
  split at heq
  · next hfull =>
      constructor
      · rw [put, NodeStoreEntry.key, hi, Option.bind_some, if_pos hfull]
      · obtain ⟨s, hs, hend⟩ := OpenAddressing.of_placing hi
        rw [hs, Option.bind_some] at hfull
        rcases hend with hfree | ⟨b, rfl, hkey⟩
        · rw [hfree] at hfull
          cases hfull
        · exact ⟨b, OpenAddressing.mem_items.mpr ⟨i, hs⟩, hkey⟩
  · cases heq

/-! ### A new table -/

theorem moveEntries_mono {fuel fuel' : Nat} (hle : fuel ≤ fuel') {left : Nat}
    {oentries : List (Slot (NodeStoreEntry V))} {ns ns' : NodeStore V}
    (h : moveEntries fuel left oentries ns = some ns') :
  moveEntries fuel' left oentries ns = some ns'
  := by
  induction oentries generalizing left ns with
  | nil =>
      cases left with
      | zero => exact h
      | succ left => exact h
  | cons s oentries ih =>
      cases left with
      | zero => exact h
      | succ left =>
          cases s with
          | empty => exact ih h
          | tombstone => exact ih h
          | full e =>
              rw [moveEntries] at h ⊢
              cases hslot : findSlot fuel ns e.nodeId with
              | none =>
                  rw [hslot] at h
                  cases h
              | some slot =>
                  rw [hslot] at h
                  rw [findSlot_mono hle hslot]
                  cases slot with
                  | none => cases h
                  | some slot => exact ih h

/-- The entries are put into the new table one after the other. -/
theorem moveEntries_eq {ns : NodeStore V} (h : Sound ns) {fuel : Nat}
    (hfuel : ns.size.toNat ≤ fuel) (oentries : List (Slot (NodeStoreEntry V)))
    (hroom : (items oentries).length + (items ns.entries).length ≤ ns.entries.length) :
  moveEntries fuel (items oentries).length oentries ns =
    (putAll NodeStoreEntry.key (path ns.size) (items oentries) ns.entries).map
      (fun entries => { ns with entries := entries })
  := by
  induction oentries generalizing ns with
  | nil => rfl
  | cons s oentries ih =>
      have hskip (s : Slot (NodeStoreEntry V)) (hs : s.item? = none) :
          items (s :: oentries) = items oentries := List.filterMap_cons_none hs
      have hnone (left : Nat) : moveEntries fuel left (.empty :: oentries) ns =
          moveEntries fuel left oentries ns := by
        cases left <;> cases oentries <;> rfl
      have htombstone (left : Nat) : moveEntries fuel left (.tombstone :: oentries) ns =
          moveEntries fuel left oentries ns := by
        cases left <;> cases oentries <;> rfl
      cases s with
      | empty =>
          rw [hskip .empty rfl] at hroom ⊢
          rw [hnone]
          exact ih h hfuel hroom
      | tombstone =>
          rw [hskip .tombstone rfl] at hroom ⊢
          rw [htombstone]
          exact ih h hfuel hroom
      | full e =>
          have hitems : items (.full e :: oentries) = e :: items oentries :=
            List.filterMap_cons_some rfl
          rw [hitems, List.length_cons] at hroom
          rw [hitems, List.length_cons, moveEntries, putAll]
          have hsome : (placing NodeStoreEntry.key (path ns.size) ns.entries
              (normal e.nodeId)).isSome := OpenAddressing.placing_isSome h.covers (by omega) _
          obtain ⟨i, hi⟩ := Option.isSome_iff_exists.mp hsome
          have hfind := findSlot_eq h e.nodeId hfuel
          rw [hi, Option.map_some] at hfind
          rw [hfind]
          split
          · next slot hslot =>
              rw [← hfind] at hslot
              have hput := put_of_findSlot h hslot
              have hstep := Put.of_put hput
              rw [hput, Option.bind_some]
              have hsound : Sound { ns with entries := ns.entries.set slot (.full e) } :=
                ⟨h.isSize, hstep.length_eq.trans h.length_eq, hstep.reached h.reached⟩
              apply ih hsound hfuel
              rw [hstep.length_eq, hstep.perm.length_eq, List.length_append, List.length_singleton]
              omega
          · next hslot =>
              rw [← hfind] at hslot
              rw [(put_of_findSlot_none h hslot).1]
              rfl
          · next hslot => cases hslot

/-- An empty table of the size. -/
def empty (V : Type) (size count : UInt32) : NodeStore V :=
  { entries := List.replicate size.toNat .empty, size := size, count := count }

theorem sound_empty {size : UInt32} (hsize : IsSize size) (count : UInt32) :
  Sound (empty V size count)
  := by
  constructor
  · exact hsize
  · exact List.length_replicate
  · intro i e he
    obtain ⟨-, heq⟩ := List.mem_replicate.mp (List.mem_of_getElem? he)
    cases heq

theorem items_empty (size count : UInt32) :
  items (empty V size count).entries = []
  := by
  rw [items, List.filterMap_eq_nil_iff]
  intro s hs
  rw [(List.mem_replicate.mp hs).2]
  rfl

theorem tombstone_not_mem_empty (size count : UInt32) :
  Slot.tombstone ∉ (empty V size count).entries
  := by
  intro hmem
  cases (List.mem_replicate.mp hmem).2

/-- The store has a new table with the same nodes. -/
structure Resized (ns ns' : NodeStore V) : Prop extends Sound ns' where
  perm : items ns'.entries ~ items ns.entries
  tombstone : Slot.tombstone ∉ ns'.entries
  count_eq : ns'.count = ns.count
  room : 2 * ns.count.toNat ≤ ns'.size.toNat

theorem toNat_mul_of_lt {a b : UInt32} (h : a.toNat * b.toNat < 2 ^ 32) :
  (a * b).toNat = a.toNat * b.toNat
  := by rw [UInt32.toNat_mul, Nat.mod_eq_of_lt h]

/-- The nodes are moved to a new table if and only if their ids are all different. -/
theorem moveEntries_empty {ns : NodeStore V} (hcount : ns.count.toNat = (items ns.entries).length)
    {size : UInt32} (hsize : IsSize size) (hroom : 2 * ns.count.toNat ≤ size.toNat) :
  (∀ {fuel ns'}, moveEntries fuel ns.count.toNat ns.entries (empty V size ns.count) = some ns' →
      Distinct ns ∧ Resized ns ns') ∧
    (Distinct ns → ∀ {fuel}, size.toNat ≤ fuel →
      ∃ ns', moveEntries fuel ns.count.toNat ns.entries (empty V size ns.count) = some ns')
  := by
  have hsound := sound_empty (V := V) hsize ns.count
  have hitems := items_empty (V := V) size ns.count
  have htombstone := tombstone_not_mem_empty (V := V) size ns.count
  have hlength : (items ns.entries).length + (items (empty V size ns.count).entries).length ≤
      (empty V size ns.count).entries.length := by
    rw [hitems, hsound.length_eq, ← hcount, List.length_nil]
    exact le_trans (by omega) hroom
  have hput := OpenAddressing.putAll_isSome_iff hsound.covers hsound.reached htombstone
    (by rw [hitems]; exact List.nodup_nil) hlength
  rw [hitems, List.append_nil] at hput
  constructor
  · intro fuel ns' hmove
    have hmore := moveEntries_mono (Nat.le_max_left fuel size.toNat) hmove
    rw [hcount, moveEntries_eq hsound (Nat.le_max_right fuel size.toNat) _ hlength] at hmore
    obtain ⟨entries, hentries, rfl⟩ := Option.map_eq_some_iff.mp hmore
    have hall := Put.of_putAll hentries
    use hput.mp (Option.isSome_of_mem hentries)
    constructor
    · exact ⟨hsize, hall.length_eq.trans hsound.length_eq, hall.reached hsound.reached⟩
    · have hperm := hall.perm
      rw [hitems, List.append_nil] at hperm
      exact hperm
    · exact hall.tombstone htombstone
    · rfl
    · exact hroom
  · intro hdistinct fuel hfuel
    obtain ⟨entries, hentries⟩ := Option.isSome_iff_exists.mp (hput.mpr hdistinct)
    rw [hcount, moveEntries_eq hsound hfuel _ hlength, hentries]
    exact ⟨_, rfl⟩

/-- The table is neither too full nor too empty. -/
def Fits (ns : NodeStore V) : Prop :=
  ns.count * 2 < ns.size ∧ (ns.count * 8 > ns.size ∨ ns.size ≤ 64)

/-- What `expand` does. -/
theorem expand_spec {ns : NodeStore V} (hcount : ns.count.toNat = (items ns.entries).length)
    (hbound : ns.count.toNat ≤ 2 ^ 28) (calloc : Bool) :
  (Fits ns ∧ ∀ fuel, expand fuel calloc ns = some (.good, ns)) ∨
    (¬ Fits ns ∧ calloc = false ∧ ∀ fuel, expand fuel calloc ns = some (.badOutOfMemory, ns)) ∨
    (¬ Fits ns ∧ calloc = true ∧
      (∀ {fuel r}, expand fuel calloc ns = some r →
        Distinct ns ∧ ∃ ns', r = (.good, ns') ∧ Resized ns ns') ∧
      (Distinct ns → ∀ {fuel}, 1073741789 ≤ fuel →
        ∃ ns', expand fuel calloc ns = some (.good, ns')))
  := by
  by_cases hfits : Fits ns
  · left
    use hfits
    intro fuel
    rw [expand]
    exact if_pos hfits
  · right
    have htwice : (ns.count * 2).toNat = ns.count.toNat * 2 := by
      apply toNat_mul_of_lt
      change ns.count.toNat * 2 < _
      omega
    obtain ⟨size, hsize, hissize, hle⟩ := exists_size (n := ns.count * 2) (by omega)
    rw [htwice, mul_comm] at hle
    have hexpand (fuel : Nat) : expand fuel calloc ns =
        if calloc then
          (moveEntries fuel ns.count.toNat ns.entries (empty V size ns.count)).map
            (fun ns => (.good, ns))
        else some (.badOutOfMemory, ns) := by
      rw [expand]
      apply (if_neg hfits).trans
      rw [hsize]
      rfl
    cases calloc with
    | false =>
        left
        exact ⟨hfits, rfl, hexpand⟩
    | true =>
        right
        obtain ⟨hof, hends⟩ := moveEntries_empty hcount hissize hle
        use hfits, rfl
        constructor
        · intro fuel r hr
          rw [hexpand] at hr
          obtain ⟨ns', hmove, rfl⟩ := Option.map_eq_some_iff.mp hr
          obtain ⟨hdistinct, hresized⟩ := hof hmove
          exact ⟨hdistinct, ns', rfl, hresized⟩
        · intro hdistinct fuel hfuel
          obtain ⟨ns', hmove⟩ := hends hdistinct (le_trans hissize.bounds.2 hfuel)
          use ns'
          rw [hexpand, if_pos rfl, hmove]
          rfl

end NodeStore

end UA
