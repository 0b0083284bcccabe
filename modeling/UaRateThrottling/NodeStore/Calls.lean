import UaRateThrottling.NodeStore.Contents

/-!
# The calls of the node store

What each call does to a store with a sound table, and what it means for the nodes.  `Means` says
what is expected of a map from ids to nodes.  The store does not always do this: `Orderly` excludes
the calls that run into a hidden node or into a search that does not end.
-/

namespace UA

open scoped List

open OpenAddressing (Slot items placing Put put)

namespace NodeStore

variable {V : Type}

/-! ### Insertions -/

/-- The store has room for a node.  Either it is as before, or it has a new table. -/
structure Roomy (ns ns' : NodeStore V) : Prop extends Sound ns' where
  perm : items ns'.entries ~ items ns.entries
  count_eq : ns'.count = ns.count
  load : 4 * ns'.count.toNat < 3 * ns'.size.toNat
  same : ns' = ns ∨ Slot.tombstone ∉ ns'.entries

theorem Roomy.isHidden {ns ns' : NodeStore V} (h : Roomy ns ns') {nodeid : Binary.NodeId}
    (hhidden : IsHidden ns' nodeid) :
  IsHidden ns nodeid
  := by
  rcases h.same with rfl | hnot
  · exact hhidden
  · obtain ⟨-, i, -, hi⟩ := hhidden
    exact absurd (List.mem_of_getElem? hi) hnot

/-- An id is found by going through the numbers. -/
theorem of_findIdentifier {fuel slot : Nat} {ns : NodeStore V} {nodeId nodeId' : Binary.NodeId}
    (h : findIdentifier fuel ns nodeId = some (nodeId', slot)) :
  ∃ identifier, setNumeric (fillNamespace nodeId) identifier = some nodeId' ∧
    findSlot fuel ns nodeId' = some (some slot)
  := by
  obtain ⟨r, hloop, rfl⟩ : ∃ r, _ = some r ∧ r = some (nodeId', slot) :=
    ⟨_, Option.join_eq_some_iff.mp h, rfl⟩
  rw [OpenAddressing.loop_eq] at hloop
  obtain ⟨identifier, -, hbody⟩ := List.exists_of_findSome?_eq_some hloop
  use identifier
  rw [tryIdentifier] at hbody
  split at hbody
  · cases hbody
  · next candidate hset =>
      split at hbody
      · cases hbody
      · cases hbody
      · next slot' hslot =>
          cases hbody
          exact ⟨hset, hslot⟩

/-- What `UA_NodeStore_insert` does, once there is room. -/
inductive Inserts (fuel : Nat) (ns : NodeStore V) (node : NodeStoreEntry V) :
    Answer V → NodeStore V → Prop
  | generated {identifier : UInt32} {nodeId : Binary.NodeId} {slot : Nat}
      (hnull : isAnonymous node.nodeId)
      (hset : setNumeric (fillNamespace node.nodeId) identifier = some nodeId)
      (hslot : findSlot fuel ns nodeId = some (some slot)) :
      Inserts fuel ns node (.inserted nodeId) (ns.insertAt slot { node with nodeId := nodeId })
  | found (hnull : isAnonymous node.nodeId = false)
      (hslot : findSlot fuel ns node.nodeId = some none) :
      Inserts fuel ns node (.status .badNodeIdExists) ns
  | inserted {slot : Nat} (hnull : isAnonymous node.nodeId = false)
      (hslot : findSlot fuel ns node.nodeId = some (some slot)) :
      Inserts fuel ns node (.inserted node.nodeId) (ns.insertAt slot node)

theorem of_place {fuel : Nat} {ns ns' : NodeStore V} {node : NodeStoreEntry V} {a : Answer V}
    (h : place fuel ns node = some (a, ns')) :
  Inserts fuel ns node a ns'
  := by
  rw [place] at h
  cases hnull : isAnonymous node.nodeId with
  | true =>
      rw [hnull, if_pos rfl] at h
      obtain ⟨⟨nodeId, slot⟩, hfind, heq⟩ := Option.map_eq_some_iff.mp h
      obtain ⟨rfl, rfl⟩ := Prod.mk.inj heq
      obtain ⟨identifier, hset, hslot⟩ := of_findIdentifier hfind
      exact Inserts.generated hnull hset hslot
  | false =>
      rw [hnull, if_neg Bool.false_ne_true] at h
      obtain ⟨slot, hslot, heq⟩ := Option.map_eq_some_iff.mp h
      cases slot with
      | none =>
          obtain ⟨rfl, rfl⟩ := Prod.mk.inj heq
          exact Inserts.found hnull hslot
      | some slot =>
          obtain ⟨rfl, rfl⟩ := Prod.mk.inj heq
          exact Inserts.inserted hnull hslot

/-- The table has room, or there is no memory for it. -/
theorem insert_spec {ns : NodeStore V} (h : Valid ns) (hbound : ns.count.toNat < 2 ^ 28)
    (calloc : Bool) (node : NodeStoreEntry V) :
  (calloc = false ∧ ∀ fuel, insert fuel calloc ns node = some (.status .badInternalError, ns)) ∨
    (¬ ns.size * 3 ≤ ns.count * 4 ∧ Roomy ns ns ∧
      ∀ fuel, insert fuel calloc ns node = place fuel ns node) ∨
    (ns.size * 3 ≤ ns.count * 4 ∧ (∀ {fuel r}, insert fuel calloc ns node = some r →
        Distinct ns ∧ ∃ ns', Roomy ns ns' ∧ place fuel ns' node = some r) ∧
      (Distinct ns → ∀ {fuel}, 1073741789 ≤ fuel →
        ∃ ns', Roomy ns ns' ∧ insert fuel calloc ns node = place fuel ns' node))
  := by
  obtain ⟨hlow, hhigh⟩ := h.isSize.bounds
  have hfour : (ns.count * 4).toNat = ns.count.toNat * 4 := by
    apply toNat_mul_of_lt
    change ns.count.toNat * 4 < _
    omega
  have hthree : (ns.size * 3).toNat = ns.size.toNat * 3 := by
    apply toNat_mul_of_lt
    change ns.size.toNat * 3 < _
    omega
  have htwo : (ns.count * 2).toNat = ns.count.toNat * 2 := by
    apply toNat_mul_of_lt
    change ns.count.toNat * 2 < _
    omega
  have hself (hload : 4 * ns.count.toNat < 3 * ns.size.toNat) : Roomy ns ns :=
    ⟨h.toSound, List.Perm.refl _, rfl, hload, Or.inl rfl⟩
  by_cases hfull : ns.size * 3 ≤ ns.count * 4
  · rw [UInt32.le_iff_toNat_le, hthree, hfour] at hfull
    have hcond : ns.size * 3 ≤ ns.count * 4 := by
      rw [UInt32.le_iff_toNat_le, hthree, hfour]
      exact hfull
    have hinsert (fuel : Nat) : insert fuel calloc ns node =
        (expand fuel calloc ns).bind (fun r =>
          if r.1 ≠ .good then some (.status .badInternalError, r.2) else place fuel r.2 node) := by
      rw [insert, if_pos hcond]
    rcases expand_spec h.count_eq (le_of_lt hbound) calloc with
      ⟨hfits, -⟩ | ⟨-, hcalloc, hexpand⟩ | ⟨-, -, hof, hends⟩
    · exfalso
      have hlt := hfits.1
      rw [UInt32.lt_iff_toNat_lt, htwo] at hlt
      omega
    · left
      use hcalloc
      intro fuel
      rw [hinsert, hexpand]
      rfl
    · right
      right
      have hroomy {ns' : NodeStore V} (hresized : Resized ns ns') : Roomy ns ns' := by
        use hresized.toSound, hresized.perm, hresized.count_eq
        · have hpos := hresized.isSize.prime.pos
          have hroom := hresized.room
          rw [hresized.count_eq]
          omega
        · exact Or.inr hresized.tombstone
      use hcond
      constructor
      · intro fuel r hr
        rw [hinsert] at hr
        obtain ⟨r', hexpand, hplace⟩ := Option.bind_eq_some_iff.mp hr
        obtain ⟨hdistinct, ns', rfl, hresized⟩ := hof hexpand
        exact ⟨hdistinct, ns', hroomy hresized, hplace⟩
      · intro hdistinct fuel hfuel
        obtain ⟨ns', hexpand⟩ := hends hdistinct hfuel
        obtain ⟨-, ns'', heq, hresized⟩ := hof hexpand
        obtain rfl := (Prod.mk.inj heq).2
        use ns', hroomy hresized
        rw [hinsert, hexpand]
        rfl
  · right
    left
    have hinsert (fuel : Nat) : insert fuel calloc ns node = place fuel ns node := by
      rw [insert, if_neg hfull]
      rfl
    use hfull
    rw [UInt32.le_iff_toNat_le, hthree, hfour] at hfull
    exact ⟨hself (by omega), hinsert⟩

/-! ### The calls as changes of the nodes -/

/-- What a call means for the nodes, by the normal forms of their ids. -/
inductive Means (m : Binary.NodeId → Option (NodeStoreEntry V)) :
    Call V → Answer V → (Binary.NodeId → Option (NodeStoreEntry V)) → Prop
  | noMemory (node : NodeStoreEntry V) :
      Means m (.insert false node) (.status .badInternalError) m
  | generated (calloc : Bool) {node : NodeStoreEntry V} {identifier : UInt32}
      {nodeId : Binary.NodeId} (hnull : isAnonymous node.nodeId)
      (hset : setNumeric (fillNamespace node.nodeId) identifier = some nodeId)
      (hnew : m (normal nodeId) = none) :
      Means m (.insert calloc node) (.inserted nodeId)
        (Function.update m (normal nodeId) (some { node with nodeId := nodeId }))
  | taken (calloc : Bool) {node : NodeStoreEntry V} (hnull : isAnonymous node.nodeId = false)
      (htaken : m node.key ≠ none) :
      Means m (.insert calloc node) (.status .badNodeIdExists) m
  | inserted (calloc : Bool) {node : NodeStoreEntry V} (hnull : isAnonymous node.nodeId = false)
      (hnew : m node.key = none) :
      Means m (.insert calloc node) (.inserted node.nodeId)
        (Function.update m node.key (some node))
  | replaceUnknown {node : NodeStoreEntry V} (hnone : m node.key = none) :
      Means m (.replace node) (.status .badNodeIdUnknown) m
  | outdated {node entry : NodeStoreEntry V} (hentry : m node.key = some entry)
      (horig : some entry.address ≠ node.orig) :
      Means m (.replace node) (.status .badInternalError) m
  | replaced {node entry : NodeStoreEntry V} (hentry : m node.key = some entry)
      (horig : some entry.address = node.orig) :
      Means m (.replace node) (.status .good) (Function.update m node.key (some node))
  | get (nodeid : Binary.NodeId) : Means m (.get nodeid) (.node (m (normal nodeid))) m
  | getCopy (nodeid : Binary.NodeId) (new : Option Nat) :
      Means m (.getCopy nodeid new)
        (.node ((m (normal nodeid)).bind (fun entry =>
          new.map (fun address =>
            { entry with address := address, orig := some entry.address })))) m
  | removeUnknown (calloc : Bool) {nodeid : Binary.NodeId} (hnone : m (normal nodeid) = none) :
      Means m (.remove calloc nodeid) (.status .badNodeIdUnknown) m
  | removed (calloc : Bool) {nodeid : Binary.NodeId} (hsome : m (normal nodeid) ≠ none) :
      Means m (.remove calloc nodeid) (.status .good) (Function.update m (normal nodeid) none)
  | editUnknown {nodeid : Binary.NodeId} (callback : V → StatusCode × V)
      (hnone : m (normal nodeid) = none) :
      Means m (.editNode nodeid callback) (.status .badNodeIdUnknown) m
  | edited {nodeid : Binary.NodeId} {entry : NodeStoreEntry V} (callback : V → StatusCode × V)
      (hentry : m (normal nodeid) = some entry) :
      Means m (.editNode nodeid callback) (.status (callback entry.node).1)
        (Function.update m (normal nodeid) (some { entry with node := (callback entry.node).2 }))

/-- A search for the id ends. -/
def Ends (ns : NodeStore V) (nodeid : Binary.NodeId) : Prop :=
  (∃ i : Nat, ns.entries[i]? = some Slot.empty) ∨ Stored ns nodeid

/-- The call does not run into a hidden node, into a search that does not end, or into a string
without data.  Of a node without an id only the id that is found for it matters. -/
def Orderly (ns : NodeStore V) : Call V → Prop
  | .insert calloc node =>
    if isAnonymous node.nodeId then
      (∀ identifier, (setNumeric (fillNamespace node.nodeId) identifier).isSome) ∧
        ∀ fuel nodeId ns', ns.insert fuel calloc node = some (.inserted nodeId, ns') →
          ¬ IsHidden ns nodeId
    else ¬ IsHidden ns node.nodeId
  | .replace node => Ends ns node.nodeId
  | .get nodeid | .getCopy nodeid _ | .remove _ nodeid | .editNode nodeid _ => Ends ns nodeid

/-- The store after a call, and what the call means as long as all is in order. -/
structure Leads (ns : NodeStore V) (c : Call V) (a : Answer V) (ns' : NodeStore V) : Prop where
  valid : Valid ns'
  means : Distinct ns → Orderly ns c → Distinct ns' ∧ Means ns.nodes c a ns'.nodes

theorem Distinct.perm {ns ns' : NodeStore V} (h : Distinct ns)
    (hperm : items ns'.entries ~ items ns.entries) :
  Distinct ns' ∧ ns'.nodes = ns.nodes
  := by
  use (hperm.map _).nodup_iff.mpr h
  exact h.get_perm hperm

theorem Distinct.add {ns ns' : NodeStore V} (h : Distinct ns) {e : NodeStoreEntry V}
    (hnew : ns.nodes e.key = none) (hperm : items ns'.entries ~ e :: items ns.entries) :
  Distinct ns' ∧ ns'.nodes = Function.update ns.nodes e.key (some e)
  := by
  have hcons : Records.Distinct NodeStoreEntry.key (e :: items ns.entries) :=
    Records.Distinct.cons h hnew
  use (hperm.map _).nodup_iff.mpr hcons
  change Records.get NodeStoreEntry.key (items ns'.entries) = _
  rw [hcons.get_perm hperm, Records.get_cons]
  rfl

/-- A node that is put into the table is a new one, unless it is hidden. -/
theorem nodes_eq_none_of_put {ns : NodeStore V} (h : Sound ns) {e : NodeStoreEntry V}
    {entries : List (Slot (NodeStoreEntry V))}
    (hput : put NodeStoreEntry.key (path ns.size) ns.entries e = some entries)
    (hhidden : ¬ IsHidden ns e.nodeId) :
  ns.nodes e.key = none
  := by
  apply Records.get_eq_none_iff.mpr
  intro b hb heq
  obtain ⟨i, s, hi, hs, hfree, -⟩ := OpenAddressing.put_eq_some_iff.mp hput
  rw [← heq] at hi
  rcases OpenAddressing.placing_of_stored h.reached hb hi with hhid | ⟨c, hc, -⟩
  · rw [heq] at hhid
    exact hhidden hhid
  · obtain rfl := Option.some.inj (hs.symm.trans hc)
    cases hfree

/-- A node is put into a table with room. -/
theorem Roomy.insertAt {ns ns₁ : NodeStore V} (h : Valid ns) (hroomy : Roomy ns ns₁)
    (hbound : ns.count.toNat < 2 ^ 28) {fuel slot : Nat} {e : NodeStoreEntry V}
    (hslot : findSlot fuel ns₁ e.nodeId = some (some slot)) :
  Valid (ns₁.insertAt slot e) ∧
    (Distinct ns → ¬ IsHidden ns e.nodeId →
      Distinct (ns₁.insertAt slot e) ∧ ns.nodes e.key = none ∧
        (ns₁.insertAt slot e).nodes = Function.update ns.nodes e.key (some e))
  := by
  have hput := put_of_findSlot hroomy.toSound hslot
  have hstep := Put.of_put hput
  have hcount : (ns₁.count + 1).toNat = ns.count.toNat + 1 := by
    rw [UInt32.toNat_add, hroomy.count_eq, UInt32.toNat_one, Nat.mod_eq_of_lt (by omega)]
  constructor
  · constructor
    · exact ⟨hroomy.isSize, hstep.length_eq.trans hroomy.length_eq, hstep.reached hroomy.reached⟩
    · rw [NodeStore.insertAt, hcount, hstep.perm.length_eq, h.count_eq, ← hroomy.perm.length_eq,
        List.length_append, List.length_singleton, Nat.add_comm]
    · have hload := hroomy.load
      rw [hroomy.count_eq] at hload
      change 4 * (ns₁.count + 1).toNat < 3 * ns₁.size.toNat + 4
      omega
  · intro hdistinct hhidden
    obtain ⟨hdistinct₁, hnodes⟩ := hdistinct.perm hroomy.perm
    have hnone := nodes_eq_none_of_put hroomy.toSound hput (mt hroomy.isHidden hhidden)
    have hadded : Distinct (ns₁.insertAt slot e) ∧ (ns₁.insertAt slot e).nodes =
        Function.update ns₁.nodes e.key (some e) := hdistinct₁.add hnone hstep.perm
    rw [hnodes] at hnone hadded
    obtain ⟨hadd, hupdate⟩ := hadded
    exact ⟨hadd, hnone, hupdate⟩

/-- The slot of an entry changes. -/
theorem Valid.set {ns : NodeStore V} (h : Valid ns) {i : Nat} {e : NodeStoreEntry V}
    (hi : ns.entries[i]? = some (.full e)) {s : Slot (NodeStoreEntry V)} (hs : s ≠ .empty)
    (hkey : ∀ b ∈ s.item?, b.key = e.key) :
  Sound { ns with entries := ns.entries.set i s } ∧
    e :: items (ns.entries.set i s) ~ s.item?.toList ++ items ns.entries ∧
    (Distinct ns → Records.Distinct NodeStoreEntry.key (items (ns.entries.set i s)) ∧
      ns.nodes e.key = some e ∧
      Records.get NodeStoreEntry.key (items (ns.entries.set i s)) =
        Function.update ns.nodes e.key s.item?)
  := by
  have hmem : e ∈ items ns.entries := OpenAddressing.mem_items.mpr ⟨i, hi⟩
  have hperm : e :: items (ns.entries.set i s) ~ s.item?.toList ++ items ns.entries :=
    OpenAddressing.items_set hi s
  constructor
  · constructor
    · exact h.isSize
    · rw [List.length_set]
      exact h.length_eq
    · apply h.reached.set hs
      rintro b rfl
      rw [hkey b rfl]
      exact h.reached i e hi
  · use hperm
    intro hdistinct
    obtain ⟨hset, hget⟩ := Records.Distinct.change hdistinct hmem hkey hperm
    exact ⟨hset, hdistinct.get_eq hmem, hget⟩

/-- What `findNode` finds, and how it tells the nodes. -/
theorem findNode_cases {ns : NodeStore V} (h : Sound ns) {fuel : Nat} {nodeid : Binary.NodeId}
    {r : Option (Nat × NodeStoreEntry V)} (hfind : findNode fuel ns nodeid = some r) :
  (∀ p ∈ r, ns.entries[p.1]? = some (.full p.2) ∧ p.2.key = normal nodeid) ∧
    (Distinct ns → r.map Prod.snd = ns.nodes (normal nodeid))
  := by
  obtain ⟨i, hi, rfl⟩ := of_findNode h hfind
  constructor
  · rintro ⟨j, e⟩ hp
    obtain ⟨e', he', heq⟩ := Option.map_eq_some_iff.mp hp
    obtain ⟨rfl, rfl⟩ := Prod.mk.inj heq
    rcases OpenAddressing.of_search hi with hempty | ⟨b, hb, hkey⟩
    · rw [hempty] at he'
      cases he'
    · rw [hb] at he'
      obtain rfl := Option.some.inj he'
      exact ⟨hb, hkey⟩
  · intro hdistinct
    rw [nodes, ← OpenAddressing.get_of_search h.reached hdistinct hi, Option.map_map]
    cases (ns.entries[i]?).bind Slot.item? <;> rfl

theorem Leads.refl {ns : NodeStore V} (h : Valid ns) {c : Call V} {a : Answer V}
    (hmeans : Distinct ns → Orderly ns c → Means ns.nodes c a ns.nodes) :
  Leads ns c a ns
  := ⟨h, fun hdistinct horderly => ⟨hdistinct, hmeans hdistinct horderly⟩⟩

theorem Leads.place {ns ns₁ ns' : NodeStore V} (h : Valid ns) (hroomy : Roomy ns ns₁)
    (hbound : ns.count.toNat < 2 ^ 28) {calloc : Bool} {fuel : Nat} {node : NodeStoreEntry V}
    {a : Answer V} (hinsert : insert fuel calloc ns node = some (a, ns'))
    (hplace : place fuel ns₁ node = some (a, ns')) :
  Leads ns (.insert calloc node) a ns'
  := by
  cases of_place hplace with
  | generated hnull hset hslot =>
      rename_i identifier nodeId slot
      obtain ⟨hvalid, hmeans⟩ :=
        hroomy.insertAt h hbound (e := { node with nodeId := nodeId }) hslot
      use hvalid
      intro hdistinct horderly
      rw [Orderly, if_pos hnull] at horderly
      obtain ⟨hadd, hnone, hnodes⟩ := hmeans hdistinct (horderly.2 fuel _ _ hinsert)
      use hadd
      rw [hnodes]
      exact Means.generated calloc hnull hset hnone
  | found hnull hslot =>
      constructor
      · use hroomy.toSound
        · rw [hroomy.count_eq, h.count_eq, hroomy.perm.length_eq]
        · have hload := hroomy.load
          omega
      · intro hdistinct _
        obtain ⟨hdistinct₁, hnodes⟩ := hdistinct.perm hroomy.perm
        use hdistinct₁
        rw [hnodes]
        apply Means.taken calloc hnull
        rw [← hnodes]
        obtain ⟨-, e, he, hkey⟩ := put_of_findSlot_none hroomy.toSound hslot
        intro hnone
        exact Records.get_eq_none_iff.mp hnone e he hkey
  | inserted hnull hslot =>
      obtain ⟨hvalid, hmeans⟩ := hroomy.insertAt h hbound hslot
      use hvalid
      intro hdistinct horderly
      rw [Orderly, hnull, if_neg Bool.false_ne_true] at horderly
      obtain ⟨hadd, hnone, hnodes⟩ := hmeans hdistinct horderly
      use hadd
      rw [hnodes]
      exact Means.inserted calloc hnull hnone

theorem Leads.insert {ns ns' : NodeStore V} (h : Valid ns) (hbound : ns.count.toNat < 2 ^ 28)
    {calloc : Bool} {fuel : Nat} {node : NodeStoreEntry V} {a : Answer V}
    (hinsert : insert fuel calloc ns node = some (a, ns')) :
  Leads ns (.insert calloc node) a ns'
  := by
  rcases insert_spec h hbound calloc node with
    ⟨rfl, hnone⟩ | ⟨-, hroomy, hplace⟩ | ⟨-, hof, -⟩
  · rw [hnone] at hinsert
    obtain ⟨rfl, rfl⟩ := Prod.mk.inj (Option.some.inj hinsert)
    apply Leads.refl h
    intro _ _
    exact Means.noMemory node
  · exact Leads.place h hroomy hbound hinsert ((hplace fuel).symm.trans hinsert)
  · obtain ⟨-, ns₁, hroomy, hplace⟩ := hof hinsert
    exact Leads.place h hroomy hbound hinsert hplace

/-- An entry is exchanged for another one with the same id. -/
theorem Leads.exchange {ns : NodeStore V} (h : Valid ns) {i : Nat} {e e' : NodeStoreEntry V}
    (hi : ns.entries[i]? = some (.full e)) (hkey : e'.key = e.key) {c : Call V} {a : Answer V}
    (hmeans : ns.nodes e.key = some e →
      Means ns.nodes c a (Function.update ns.nodes e.key (some e'))) :
  Leads ns c a { ns with entries := ns.entries.set i (.full e') }
  := by
  obtain ⟨hsound, hperm, hnodes⟩ := h.set hi (s := .full e') (by simp)
    (by rintro b hb; exact Option.some.inj hb ▸ hkey)
  constructor
  · use hsound
    · have hlength := hperm.length_eq
      rw [List.length_cons, List.length_append] at hlength
      change ns.count.toNat = (items (ns.entries.set i (.full e'))).length
      rw [h.count_eq]
      change _ = 1 + _ at hlength
      omega
    · exact h.load
  · intro hdistinct _
    obtain ⟨hset, hsome, hget⟩ := hnodes hdistinct
    use hset
    change Means ns.nodes c a (Records.get NodeStoreEntry.key (items (ns.entries.set i (.full e'))))
    rw [hget]
    exact hmeans hsome

theorem Valid.of_expand {ns ns' : NodeStore V} (h : Valid ns) (hbound : ns.count.toNat ≤ 2 ^ 28)
    {calloc : Bool} {fuel : Nat} {code : StatusCode}
    (hexpand : expand fuel calloc ns = some (code, ns')) :
  Valid ns' ∧ items ns'.entries ~ items ns.entries
  := by
  rcases expand_spec h.count_eq hbound calloc with
    ⟨-, hsame⟩ | ⟨-, -, hsame⟩ | ⟨-, -, hof, -⟩
  · rw [hsame] at hexpand
    obtain ⟨-, rfl⟩ := Prod.mk.inj (Option.some.inj hexpand)
    exact ⟨h, List.Perm.refl _⟩
  · rw [hsame] at hexpand
    obtain ⟨-, rfl⟩ := Prod.mk.inj (Option.some.inj hexpand)
    exact ⟨h, List.Perm.refl _⟩
  · obtain ⟨-, ns'', heq, hresized⟩ := hof hexpand
    obtain ⟨-, rfl⟩ := Prod.mk.inj heq
    constructor
    · use hresized.toSound
      · rw [hresized.count_eq, h.count_eq, hresized.perm.length_eq]
      · have hroom := hresized.room
        have hpos := hresized.isSize.prime.pos
        rw [hresized.count_eq]
        omega
    · exact hresized.perm

/-- The slot of a node becomes a tombstone. -/
theorem Valid.unlink {ns : NodeStore V} (h : Valid ns) {i : Nat} {e : NodeStoreEntry V}
    (hi : ns.entries[i]? = some (.full e)) :
  Valid { ns with entries := ns.entries.set i .tombstone, count := ns.count - 1 } ∧
    (ns.count - 1).toNat = ns.count.toNat - 1 ∧
    (Distinct ns → Records.Distinct NodeStoreEntry.key (items (ns.entries.set i .tombstone)) ∧
      ns.nodes e.key = some e ∧
      Records.get NodeStoreEntry.key (items (ns.entries.set i .tombstone)) =
        Function.update ns.nodes e.key none)
  := by
  obtain ⟨hsound, hperm, hnodes⟩ := h.set hi (s := .tombstone) (by simp) (by simp [Slot.item?])
  have hlength := hperm.length_eq
  rw [List.length_cons, List.length_append] at hlength
  change _ = 0 + _ at hlength
  have hcount := h.count_eq
  have hsub : (ns.count - 1).toNat = ns.count.toNat - 1 := by
    rw [UInt32.toNat_sub_of_le]
    · rfl
    · rw [UInt32.le_iff_toNat_le, UInt32.toNat_one]
      omega
  constructor
  · constructor
    · exact ⟨hsound.isSize, hsound.length_eq, hsound.reached⟩
    · change (ns.count - 1).toNat = (items (ns.entries.set i .tombstone)).length
      rw [hsub]
      omega
    · have hload := h.load
      change 4 * (ns.count - 1).toNat < 3 * ns.size.toNat + 4
      omega
  · exact ⟨hsub, hnodes⟩

theorem Leads.remove {ns ns' : NodeStore V} (h : Valid ns) (hbound : ns.count.toNat < 2 ^ 28)
    {calloc : Bool} {fuel : Nat} {nodeid : Binary.NodeId} {a : Answer V}
    (hremove : remove fuel calloc ns nodeid = some (a, ns')) :
  Leads ns (.remove calloc nodeid) a ns'
  := by
  obtain ⟨r, hfind, hrest⟩ := Option.bind_eq_some_iff.mp hremove
  obtain ⟨hslot, hnodes⟩ := findNode_cases h.toSound hfind
  cases r with
  | none =>
      obtain ⟨rfl, rfl⟩ := Prod.mk.inj (Option.some.inj hrest)
      apply Leads.refl h
      intro hdistinct _
      exact Means.removeUnknown calloc (hnodes hdistinct).symm
  | some p =>
      obtain ⟨hi, hkey⟩ := hslot p rfl
      obtain ⟨hvalid, hsub, hchange⟩ := h.unlink hi
      have hmeans {ns'' : NodeStore V} (hvalid'' : Valid ns'')
          (hperm : items ns''.entries ~ items (ns.entries.set p.1 .tombstone)) :
          Leads ns (.remove calloc nodeid) (.status .good) ns'' := by
        use hvalid''
        intro hdistinct _
        obtain ⟨hset, hsome, hget⟩ := hchange hdistinct
        use (hperm.map _).nodup_iff.mpr hset
        change Means ns.nodes _ _ (Records.get NodeStoreEntry.key (items ns''.entries))
        rw [Records.Distinct.get_perm hset hperm, hget, hkey]
        apply Means.removed
        rw [← hkey, hsome]
        simp
      dsimp only at hrest
      split at hrest
      · obtain ⟨r, hexpand, heq⟩ := Option.map_eq_some_iff.mp hrest
        obtain ⟨rfl, rfl⟩ := Prod.mk.inj heq
        obtain ⟨hvalid'', hperm⟩ := hvalid.of_expand (by
          change (ns.count - 1).toNat ≤ _
          omega) hexpand
        exact hmeans hvalid'' hperm
      · obtain ⟨rfl, rfl⟩ := Prod.mk.inj (Option.some.inj hrest)
        exact hmeans hvalid (List.Perm.refl _)

theorem Leads.replace {ns ns' : NodeStore V} (h : Valid ns) {fuel : Nat} {node : NodeStoreEntry V}
    {a : Answer V} (hreplace : replace fuel ns node = some (a, ns')) :
  Leads ns (.replace node) a ns'
  := by
  obtain ⟨r, hfind, heq⟩ := Option.map_eq_some_iff.mp hreplace
  obtain ⟨hslot, hnodes⟩ := findNode_cases h.toSound hfind
  cases r with
  | none =>
      obtain ⟨rfl, rfl⟩ := Prod.mk.inj heq
      apply Leads.refl h
      intro hdistinct _
      exact Means.replaceUnknown (hnodes hdistinct).symm
  | some p =>
      obtain ⟨hi, hkey⟩ := hslot p rfl
      dsimp only at heq
      split at heq
      · next horig =>
          obtain ⟨rfl, rfl⟩ := Prod.mk.inj heq
          apply Leads.refl h
          intro hdistinct _
          exact Means.outdated (hnodes hdistinct).symm horig
      · next horig =>
          obtain ⟨rfl, rfl⟩ := Prod.mk.inj heq
          apply Leads.exchange h hi hkey.symm
          intro hsome
          rw [hkey] at hsome ⊢
          exact Means.replaced hsome (not_not.mp horig)

theorem Leads.editNode {ns ns' : NodeStore V} (h : Valid ns) {fuel : Nat}
    {callback : V → StatusCode × V} {nodeid : Binary.NodeId} {a : Answer V}
    (hedit : editNode fuel callback ns nodeid = some (a, ns')) :
  Leads ns (.editNode nodeid callback) a ns'
  := by
  obtain ⟨r, hfind, heq⟩ := Option.map_eq_some_iff.mp hedit
  obtain ⟨hslot, hnodes⟩ := findNode_cases h.toSound hfind
  cases r with
  | none =>
      obtain ⟨rfl, rfl⟩ := Prod.mk.inj heq
      apply Leads.refl h
      intro hdistinct _
      exact Means.editUnknown callback (hnodes hdistinct).symm
  | some p =>
      obtain ⟨hi, hkey⟩ := hslot p rfl
      obtain ⟨rfl, rfl⟩ := Prod.mk.inj heq
      have hkept : { p.2 with node := (callback p.2.node).2 }.key = p.2.key := rfl
      apply Leads.exchange h hi hkept
      intro hsome
      rw [hkey] at hsome ⊢
      exact Means.edited callback hsome

theorem Leads.call {ns ns' : NodeStore V} (h : Valid ns) (hbound : ns.count.toNat < 2 ^ 28)
    {fuel : Nat} {c : Call V} {a : Answer V} (hcall : ns.call fuel c = some (a, ns')) :
  Leads ns c a ns'
  := by
  cases c with
  | insert calloc node => exact Leads.insert h hbound hcall
  | replace node => exact Leads.replace h hcall
  | remove calloc nodeid => exact Leads.remove h hbound hcall
  | editNode nodeid callback => exact Leads.editNode h hcall
  | get nodeid =>
      obtain ⟨r, hfind, heq⟩ := Option.map_eq_some_iff.mp hcall
      obtain ⟨rfl, rfl⟩ := Prod.mk.inj heq
      apply Leads.refl h
      intro hdistinct _
      rw [(findNode_cases h.toSound hfind).2 hdistinct]
      exact Means.get nodeid
  | getCopy nodeid new =>
      obtain ⟨r, hfind, heq⟩ := Option.map_eq_some_iff.mp hcall
      obtain ⟨rfl, rfl⟩ := Prod.mk.inj heq
      apply Leads.refl h
      intro hdistinct _
      have hmeans := Means.getCopy (m := ns.nodes) nodeid new
      rw [← (findNode_cases h.toSound hfind).2 hdistinct, Option.bind_map] at hmeans
      exact hmeans

/-! ### Calls that come back -/

/-- A search for the id ends if and only if there is an empty slot or the node. -/
theorem findNode_isSome_iff {ns : NodeStore V} (h : Sound ns) {nodeid : Binary.NodeId} {fuel : Nat}
    (hfuel : ns.size.toNat ≤ fuel) :
  (findNode fuel ns nodeid).isSome ↔ Ends ns nodeid
  := by
  rw [findNode_eq h nodeid hfuel, Option.isSome_map]
  exact OpenAddressing.search_isSome_iff h.covers h.reached

theorem Roomy.length_lt {ns ns₁ : NodeStore V} (h : Valid ns) (hroomy : Roomy ns ns₁) :
  (items ns₁.entries).length < ns₁.entries.length
  := by
  have hload := hroomy.load
  have hpos := hroomy.isSize.prime.pos
  rw [hroomy.length_eq, hroomy.perm.length_eq, ← h.count_eq, ← hroomy.count_eq]
  omega

theorem Roomy.findSlot_isSome {ns ns₁ : NodeStore V} (h : Valid ns) (hroomy : Roomy ns ns₁)
    {fuel : Nat} (hfuel : ns₁.size.toNat ≤ fuel) (nodeid : Binary.NodeId) :
  (findSlot fuel ns₁ nodeid).isSome
  := by
  rw [findSlot_eq hroomy.toSound nodeid hfuel, Option.isSome_map]
  exact OpenAddressing.placing_isSome hroomy.covers (hroomy.length_lt h) _

/-- Different numbers make different ids. -/
theorem normal_setNumeric_inj {nodeId nodeId₁ nodeId₂ : Binary.NodeId} {i j : UInt32}
    (h₁ : setNumeric nodeId i = some nodeId₁) (h₂ : setNumeric nodeId j = some nodeId₂)
    (heq : normal nodeId₁ = normal nodeId₂) :
  i = j
  := by
  obtain ⟨namespaceIndex, identifier⟩ := nodeId
  cases identifier with
  | numeric n =>
      cases h₁
      cases h₂
      injection heq with _ hidentifier
      injection hidentifier
  | guid g =>
      cases h₁
      cases h₂
      injection heq with _ hidentifier
      injection hidentifier with hguid
      injection hguid
  | string s => cases h₁
  | byteString s => cases h₁

/-- Among as many numbers as there are slots there is one that is not taken. -/
theorem Roomy.findIdentifier_isSome {ns ns₁ : NodeStore V} (h : Valid ns) (hroomy : Roomy ns ns₁)
    {fuel : Nat} (hfuel : ns₁.size.toNat ≤ fuel) {nodeId : Binary.NodeId}
    (hset : ∀ identifier, (setNumeric (fillNamespace nodeId) identifier).isSome) :
  (findIdentifier fuel ns₁ nodeId).isSome
  := by
  choose candidate hcandidate using fun i => Option.isSome_iff_exists.mp (hset i)
  have hends (i : UInt32) : ∃ r, findSlot fuel ns₁ (candidate i) = some r :=
    Option.isSome_iff_exists.mp (hroomy.findSlot_isSome h hfuel (candidate i))
  obtain ⟨hlow, hhigh⟩ := hroomy.isSize.bounds
  have hload := hroomy.load
  have hstart : (ns₁.count + 1).toNat < ns₁.size.toNat := by
    rw [UInt32.toNat_add, UInt32.toNat_one, Nat.mod_eq_of_lt (by omega)]
    omega
  obtain ⟨hpos, hstep⟩ := hroomy.isSize.mod2_bounds (ns₁.count + 1)
  rw [findIdentifier]
  cases hloop : OpenAddressing.loop (tryIdentifier fuel ns₁ (fillNamespace nodeId))
      (next ns₁.size (mod2 (ns₁.count + 1) ns₁.size)) fuel (ns₁.count + 1) with
  | some r =>
      cases r with
      | some found => rfl
      | none =>
          exfalso
          rw [OpenAddressing.loop_eq] at hloop
          obtain ⟨i, -, hbody⟩ := List.exists_of_findSome?_eq_some hloop
          obtain ⟨r, hslot⟩ := hends i
          rw [tryIdentifier, hcandidate] at hbody
          dsimp only at hbody
          rw [hslot] at hbody
          cases r <;> cases hbody
  | none =>
      exfalso
      -- All the ids are taken, and there are more of them than nodes.
      rw [OpenAddressing.loop_eq_none_iff] at hloop
      have htaken : ∀ i < ns₁.size.toNat,
          normal (candidate (UInt32.ofNat i)) ∈ (items ns₁.entries).map NodeStoreEntry.key := by
        intro i hi
        obtain ⟨t, ht, heq⟩ := hroomy.isSize.exists_iterate hpos hstep hstart hi
        have hbody := hloop t (lt_of_lt_of_le ht hfuel)
        rw [← UInt32.ofNat_toNat (x := (next ns₁.size _)^[t] _), heq] at hbody
        obtain ⟨r, hslot⟩ := hends (UInt32.ofNat i)
        rw [tryIdentifier, hcandidate] at hbody
        dsimp only at hbody
        rw [hslot] at hbody
        cases r with
        | some slot => cases hbody
        | none =>
            obtain ⟨j, hj, hfull⟩ := of_findSlot hroomy.toSound hslot
            split at hfull
            · obtain ⟨s, hs, hend⟩ := OpenAddressing.of_placing hj
              rcases hend with hfree | ⟨b, rfl, hkey⟩
              · next hsome =>
                  rw [hs, Option.bind_some, hfree] at hsome
                  cases hsome
              · rw [← hkey]
                exact List.mem_map_of_mem (OpenAddressing.mem_items.mpr ⟨j, hs⟩)
            · cases hfull
      have hnodup : ((List.range ns₁.size.toNat).map
          (fun i => normal (candidate (UInt32.ofNat i)))).Nodup := by
        apply List.Nodup.map_on _ List.nodup_range
        intro i hi j hj heq
        rw [List.mem_range] at hi hj
        have hnumbers := normal_setNumeric_inj (hcandidate _) (hcandidate _) heq
        have hnat := congrArg UInt32.toNat hnumbers
        rw [UInt32.toNat_ofNat', UInt32.toNat_ofNat', Nat.mod_eq_of_lt (by omega),
          Nat.mod_eq_of_lt (by omega)] at hnat
        exact hnat
      have hsubset : (List.range ns₁.size.toNat).map
          (fun i => normal (candidate (UInt32.ofNat i))) ⊆
            (items ns₁.entries).map NodeStoreEntry.key := by
        intro k hk
        obtain ⟨i, hi, rfl⟩ := List.mem_map.mp hk
        exact htaken i (List.mem_range.mp hi)
      have hle := (hnodup.subperm hsubset).length_le
      have hlt := hroomy.length_lt h
      rw [List.length_map, List.length_map, List.length_range] at hle
      rw [hroomy.length_eq] at hlt
      omega

/-- An insertion comes back once there is room, unless the id is a string without data. -/
theorem Roomy.place_isSome {ns ns₁ : NodeStore V} (h : Valid ns) (hroomy : Roomy ns ns₁)
    {fuel : Nat} (hfuel : ns₁.size.toNat ≤ fuel) {node : NodeStoreEntry V}
    (hset : isAnonymous node.nodeId →
      ∀ identifier, (setNumeric (fillNamespace node.nodeId) identifier).isSome) :
  (place fuel ns₁ node).isSome
  := by
  rw [place]
  cases hnull : isAnonymous node.nodeId with
  | true =>
      rw [if_pos rfl, Option.isSome_map]
      exact hroomy.findIdentifier_isSome h hfuel (hset hnull)
  | false =>
      rw [if_neg Bool.false_ne_true, Option.isSome_map]
      exact hroomy.findSlot_isSome h hfuel node.nodeId

/-- An orderly call comes back. -/
theorem call_isSome {ns : NodeStore V} (h : Valid ns) (hbound : ns.count.toNat < 2 ^ 28)
    (hdistinct : Distinct ns) {c : Call V} (horderly : Orderly ns c) :
  (ns.call 1073741789 c).isSome
  := by
  have hfuel := h.isSize.bounds.2
  cases c with
  | insert calloc node =>
      have hset : isAnonymous node.nodeId →
          ∀ identifier, (setNumeric (fillNamespace node.nodeId) identifier).isSome := by
        intro hnull
        rw [Orderly, if_pos hnull] at horderly
        exact horderly.1
      rw [call]
      rcases insert_spec h hbound calloc node with
        ⟨-, hnone⟩ | ⟨-, hroomy, hplace⟩ | ⟨-, -, hends⟩
      · rw [hnone]
        rfl
      · rw [hplace]
        exact hroomy.place_isSome h hfuel hset
      · obtain ⟨ns₁, hroomy, hplace⟩ := hends hdistinct (le_refl _)
        rw [hplace]
        exact hroomy.place_isSome h hroomy.isSize.bounds.2 hset
  | replace node =>
      rw [call, replace, Option.isSome_map]
      exact (findNode_isSome_iff h.toSound hfuel).mpr horderly
  | get nodeid =>
      rw [call, get, Option.isSome_map]
      exact (findNode_isSome_iff h.toSound hfuel).mpr horderly
  | getCopy nodeid new =>
      rw [call, getCopy, Option.isSome_map]
      exact (findNode_isSome_iff h.toSound hfuel).mpr horderly
  | editNode nodeid callback =>
      rw [call, editNode, Option.isSome_map]
      exact (findNode_isSome_iff h.toSound hfuel).mpr horderly
  | remove calloc nodeid =>
      obtain ⟨r, hfind⟩ := Option.isSome_iff_exists.mp
        ((findNode_isSome_iff h.toSound hfuel).mpr horderly)
      obtain ⟨hslot, -⟩ := findNode_cases h.toSound hfind
      rw [call, remove, hfind, Option.bind_some]
      cases r with
      | none => rfl
      | some p =>
          obtain ⟨hi, -⟩ := hslot p rfl
          obtain ⟨hvalid, hsub, hchange⟩ := h.unlink hi
          obtain ⟨hset, -⟩ := hchange hdistinct
          dsimp only
          split
          · rw [Option.isSome_map]
            rcases expand_spec hvalid.count_eq (by
                change (ns.count - 1).toNat ≤ _
                omega) calloc with ⟨-, hsame⟩ | ⟨-, -, hsame⟩ | ⟨-, -, -, hends⟩
            · rw [hsame]
              rfl
            · rw [hsame]
              rfl
            · obtain ⟨ns', hexpand⟩ := hends hset (le_refl _)
              rw [hexpand]
              rfl
          · rfl

end NodeStore

end UA
