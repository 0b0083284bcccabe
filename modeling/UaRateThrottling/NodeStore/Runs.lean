import UaRateThrottling.NodeStore.Calls
import UaRateThrottling.Transition

/-!
# Runs of the node store

From an empty store on, any calls are made.  While they are in order, the store is a map from ids to
nodes.  Otherwise a search may never end, and a node may be inserted twice, which shows when the
table is resized.
-/

namespace UA

open scoped List

open OpenAddressing (Slot items placing Put)

namespace NodeStore

variable {V : Type}

/-! ### Runs -/

/-- The store with the history of its calls, newest first.  There are never too many nodes for the
arithmetic of the store. -/
def machine (V : Type) :
    Transition.Machine (NodeStore V × List (Call V × Answer V)) (Nat × Call V) where
  Init s := s = (new, [])
  step s act :=
    if s.1.count.toNat < 2 ^ 28 then
      (s.1.call act.1 act.2).map (fun r => (r.2, (act.2, r.1) :: s.2))
    else none

/-- The history of the calls, as changes of the nodes from an empty store on. -/
inductive Follows : List (Call V × Answer V) → (Binary.NodeId → Option (NodeStoreEntry V)) → Prop
  | new : Follows [] (fun _ => none)
  | call {history : List (Call V × Answer V)} {m m' : Binary.NodeId → Option (NodeStoreEntry V)}
      {c : Call V} {a : Answer V} : Follows history m → Means m c a m' →
        Follows ((c, a) :: history) m'

theorem new_eq :
  (new : NodeStore V) = empty V 127 0
  := rfl

theorem valid_new :
  Valid (new : NodeStore V)
  := by
  have hsize : IsSize 127 := by
    rw [IsSize]
    decide
  rw [new_eq]
  constructor
  · exact sound_empty hsize 0
  · rw [items_empty]
    rfl
  · change 4 * (0 : UInt32).toNat < 3 * (127 : UInt32).toNat + 4
    decide

/-- What a step of the machine is. -/
theorem of_step {s t : NodeStore V × List (Call V × Answer V)} {act : Nat × Call V}
    (h : (machine V).step s act = some t) :
  s.1.count.toNat < 2 ^ 28 ∧ ∃ a, s.1.call act.1 act.2 = some (a, t.1) ∧ t.2 = (act.2, a) :: s.2
  := by
  rw [machine] at h
  dsimp only at h
  split at h
  · next hbound =>
      obtain ⟨r, hcall, rfl⟩ := Option.map_eq_some_iff.mp h
      exact ⟨hbound, r.1, hcall, rfl⟩
  · cases h

theorem valid_of_reachable {s : NodeStore V × List (Call V × Answer V)}
    (h : (machine V).Reachable s) :
  Valid s.1
  := by
  induction h with
  | init hs =>
      obtain rfl := hs
      exact valid_new
  | step _ hstep ih =>
      obtain ⟨hbound, a, hcall, -⟩ := of_step hstep
      exact (Leads.call ih hbound hcall).valid

/-- In a table without tombstones and with an empty slot all calls are in order, but for those with
a string that is empty. -/
theorem orderly_of_fresh {ns : NodeStore V} (htombstone : Slot.tombstone ∉ ns.entries)
    (hempty : ∃ i : Nat, ns.entries[i]? = some Slot.empty) (c : Call V)
    (hset : ∀ calloc node, c = .insert calloc node → isAnonymous node.nodeId →
      ∀ identifier, (setNumeric (fillNamespace node.nodeId) identifier).isSome) :
  Orderly ns c
  := by
  have hhidden (nodeid : Binary.NodeId) : ¬ IsHidden ns nodeid := by
    rintro ⟨-, i, -, hi⟩
    exact htombstone (List.mem_of_getElem? hi)
  cases c with
  | insert calloc node =>
      rw [Orderly]
      split
      · next hnull =>
          use hset calloc node rfl hnull
          intro fuel nodeId ns' _
          exact hhidden nodeId
      · exact hhidden node.nodeId
  | replace node => exact Or.inl hempty
  | get nodeid => exact Or.inl hempty
  | getCopy nodeid new => exact Or.inl hempty
  | remove calloc nodeid => exact Or.inl hempty
  | editNode nodeid callback => exact Or.inl hempty

/-! ### Results -/

/-- A node with the numeric id. -/
def sampleNode (n : UInt32) : NodeStoreEntry Unit :=
  { address := n.toNat, orig := none, nodeId := ⟨1, .numeric n⟩, node := () }

/-- The insertion and the removal of a node, after which the table has seven slots. -/
def toSeven : List (Nat × Call Unit) :=
  [(8, .insert true (sampleNode 1)), (8, .remove true ⟨1, .numeric 1⟩)]

/-- The store after the calls. -/
def final (acts : List (Nat × Call Unit)) : NodeStore Unit :=
  (((machine Unit).run (new, []) acts).map Prod.fst).getD new

open Classical in
/-- As long as the calls are in order, the store is a map from ids to nodes: each call comes back,
and with the answer of the map. -/
theorem orderly_calls {s : NodeStore V × List (Call V × Answer V)}
    (h : ((machine V).restrict (fun s act => Orderly s.1 act.2)).Reachable s) :
  Follows s.2 s.1.nodes ∧
    ∀ c, s.1.count.toNat < 2 ^ 28 → Orderly s.1 c → ∃ fuel a ns', s.1.call fuel c = some (a, ns')
  := by
  have hkept : Distinct s.1 ∧ Follows s.2 s.1.nodes := by
    induction h with
    | init hs =>
        obtain rfl := hs
        have hnone : (new : NodeStore V).nodes = fun _ => none := by
          funext nodeid
          rw [nodes, new_eq, items_empty]
          rfl
        constructor
        · rw [Distinct, new_eq, items_empty]
          exact List.nodup_nil
        · rw [hnone]
          exact Follows.new
    | step hreach hstep ih =>
        obtain ⟨horderly, hstep⟩ := Transition.Machine.restrict_step_iff.mp hstep
        obtain ⟨hbound, a, hcall, hhistory⟩ := of_step hstep
        have hvalid := valid_of_reachable hreach.of_restrict
        obtain ⟨hdistinct, hmeans⟩ := (Leads.call hvalid hbound hcall).means ih.1 horderly
        use hdistinct
        rw [hhistory]
        exact Follows.call ih.2 hmeans
  use hkept.2
  intro c hbound horderly
  obtain ⟨r, hcall⟩ := Option.isSome_iff_exists.mp
    (call_isSome (valid_of_reachable h.of_restrict) hbound hkept.1 horderly)
  exact ⟨1073741789, r.1, r.2, hcall⟩

open Classical in
theorem orderly_calls_toSeven :
  ∃ history, (machine Unit).run (new, []) (toSeven ++ [(8, .insert true (sampleNode 0))]) =
      some (final (toSeven ++ [(8, .insert true (sampleNode 0))]), history) ∧
    Follows history (final (toSeven ++ [(8, .insert true (sampleNode 0))])).nodes
  := by
  have hinsert : Orderly (new : NodeStore Unit) (.insert true (sampleNode 1)) := by
    apply orderly_of_fresh (by decide) ⟨0, rfl⟩
    intro calloc node hnode hnull
    cases hnode
    cases hnull
  have hremove : Orderly (final (toSeven.take 1)) (.remove true ⟨1, .numeric 1⟩) := by
    apply orderly_of_fresh (by decide) ⟨0, rfl⟩
    intro calloc node hnode
    cases hnode
  have hgenerate : Orderly (final toSeven) (.insert true (sampleNode 0)) := by
    apply orderly_of_fresh (by decide) ⟨0, rfl⟩
    intro calloc node hnode _ identifier
    cases hnode
    rfl
  have hstep (s : NodeStore Unit × List (Call Unit × Answer Unit)) (c : Call Unit)
      (t : NodeStore Unit × List (Call Unit × Answer Unit))
      (hreach : ((machine Unit).restrict (fun s act => Orderly s.1 act.2)).Reachable s)
      (horderly : Orderly s.1 c) (ht : (machine Unit).step s (8, c) = some t) :
      ((machine Unit).restrict (fun s act => Orderly s.1 act.2)).Reachable t :=
    Transition.Machine.Reachable.step hreach
      (Transition.Machine.restrict_step_iff.mpr ⟨horderly, ht⟩)
  have hreach₁ := hstep (new, []) _ (final (toSeven.take 1), _)
    (Transition.Machine.Reachable.init rfl) hinsert rfl
  have hreach₂ := hstep _ _ (final toSeven, _) hreach₁ hremove rfl
  have hreach₃ := hstep _ _ (final (toSeven ++ [(8, .insert true (sampleNode 0))]), _) hreach₂
    hgenerate rfl
  exact ⟨_, rfl, (orderly_calls hreach₃).1⟩

/-- In every state of the store, `UA_NodeStore_get` comes back if and only if the node is stored or
there is a slot that has never been full since the table was made. -/
theorem get_returns_iff {s : NodeStore V × List (Call V × Answer V)} (h : (machine V).Reachable s)
    (nodeid : Binary.NodeId) :
  (∃ fuel r, s.1.get fuel nodeid = some r) ↔
    Stored s.1 nodeid ∨ ∃ i : Nat, s.1.entries[i]? = some Slot.empty
  := by
  have hsound := (valid_of_reachable h).toSound
  constructor
  · rintro ⟨fuel, r, hget⟩
    obtain ⟨slot, hfind, -⟩ := Option.map_eq_some_iff.mp hget
    have hmore := OpenAddressing.loop_mono (Nat.le_max_left fuel s.1.size.toNat) hfind
    exact ((findNode_isSome_iff hsound (Nat.le_max_right _ _)).mp (Option.isSome_of_mem hmore)).symm
  · intro hends
    obtain ⟨slot, hfind⟩ := Option.isSome_iff_exists.mp
      ((findNode_isSome_iff hsound (le_refl _)).mpr hends.symm)
    use s.1.size.toNat, (.node (slot.map Prod.snd), s.1)
    rw [get, hfind]
    rfl

/-- Nodes are inserted and removed, one at a time. -/
def oneAtATime (ids : List UInt32) : List (Nat × Call Unit) :=
  ids.flatMap (fun n => [(8, .insert true (sampleNode n)), (8, .remove true ⟨1, .numeric n⟩)])

/-- In an empty table of seven tombstones, the search for a node does not end. -/
theorem get_returns_iff_oneAtATime :
  ¬ ∃ fuel r, (final (oneAtATime [1, 1, 2, 3, 8, 16, 21, 29])).get fuel ⟨1, .numeric 4⟩ = some r
  := by
  obtain ⟨history, hrun⟩ : ∃ history, (machine Unit).run (new, [])
      (oneAtATime [1, 1, 2, 3, 8, 16, 21, 29]) =
        some (final (oneAtATime [1, 1, 2, 3, 8, 16, 21, 29]), history) := ⟨_, rfl⟩
  have hreach := (Transition.Machine.Reachable.init (M := machine Unit) rfl).run hrun
  have hempty : (final (oneAtATime [1, 1, 2, 3, 8, 16, 21, 29])).entries =
      List.replicate 7 .tombstone := by decide
  rw [get_returns_iff hreach]
  rintro (⟨e, he, -⟩ | ⟨i, hi⟩)
  · rw [hempty] at he
    cases he
  · rw [hempty] at hi
    cases List.eq_of_mem_replicate (List.mem_of_getElem? hi)

/-- A node whose id is stored already is accepted in one way only. -/
theorem of_stored_inserted {ns ns' : NodeStore V} (h : Valid ns) (hbound : ns.count.toNat < 2 ^ 28)
    {node : NodeStoreEntry V} (hnull : isAnonymous node.nodeId = false)
    (hstored : Stored ns node.nodeId) {fuel : Nat} {calloc : Bool}
    (hinsert : insert fuel calloc ns node = some (.inserted node.nodeId, ns')) :
  ¬ ns.size * 3 ≤ ns.count * 4 ∧ IsHidden ns node.nodeId ∧
    items ns'.entries ~ node :: items ns.entries
  := by
  have hfound {ns₁ : NodeStore V} (hroomy : Roomy ns ns₁)
      (hplace : place fuel ns₁ node = some (.inserted node.nodeId, ns')) :
      IsHidden ns₁ node.nodeId ∧ items ns'.entries ~ node :: items ns₁.entries := by
    cases of_place hplace with
    | generated hnull' => cases hnull.symm.trans hnull'
    | inserted _ hslot =>
        have hput := put_of_findSlot hroomy.toSound hslot
        constructor
        · by_contra hhidden
          obtain ⟨e, he, hkey⟩ := hstored
          exact Records.get_eq_none_iff.mp (nodes_eq_none_of_put hroomy.toSound hput hhidden) e
            (hroomy.perm.mem_iff.mpr he) hkey
        · exact (Put.of_put hput).perm
  rcases insert_spec h hbound calloc node with
    ⟨-, hnone⟩ | ⟨hroom, hroomy, hplace⟩ | ⟨hfull, hof, -⟩
  · rw [hnone] at hinsert
    cases hinsert
  · rw [hplace] at hinsert
    exact ⟨hroom, hfound hroomy hinsert⟩
  · exfalso
    obtain ⟨-, ns₁, hroomy, hplace⟩ := hof hinsert
    obtain ⟨-, i, -, hi⟩ := (hfound hroomy hplace).1
    rcases hroomy.same with rfl | hnot
    · have hload := hroomy.load
      have hhigh := h.isSize.bounds.2
      rw [UInt32.le_iff_toNat_le, toNat_mul_of_lt (by change _ * 3 < _; omega),
        toNat_mul_of_lt (by change _ * 4 < _; omega)] at hfull
      change _ * 3 ≤ _ * 4 at hfull
      omega
    · exact hnot (List.mem_of_getElem? hi)

/-- A node whose id is stored already is accepted if and only if the one that is stored is hidden
and the table is not resized.  Then there are two nodes with this id. -/
theorem stored_inserted_iff {s : NodeStore V × List (Call V × Answer V)}
    (h : (machine V).Reachable s) (hbound : s.1.count.toNat < 2 ^ 28) {node : NodeStoreEntry V}
    (hnull : isAnonymous node.nodeId = false) (hstored : Stored s.1 node.nodeId) :
  ((∃ fuel calloc ns', s.1.insert fuel calloc node = some (.inserted node.nodeId, ns')) ↔
      IsHidden s.1 node.nodeId ∧ ¬ s.1.size * 3 ≤ s.1.count * 4) ∧
    ∀ fuel calloc ns', s.1.insert fuel calloc node = some (.inserted node.nodeId, ns') →
      ¬ Distinct ns'
  := by
  have hvalid := valid_of_reachable h
  constructor
  · constructor
    · rintro ⟨fuel, calloc, ns', hinsert⟩
      obtain ⟨hroom, hhidden, -⟩ := of_stored_inserted hvalid hbound hnull hstored hinsert
      exact ⟨hhidden, hroom⟩
    · rintro ⟨⟨-, i, hi, htombstone⟩, hroom⟩
      have hslot := findSlot_eq hvalid.toSound node.nodeId (le_refl _)
      rw [hi, Option.map_some, htombstone] at hslot
      use s.1.size.toNat, true, s.1.insertAt i node
      rw [insert, if_neg hroom]
      change place s.1.size.toNat s.1 node = _
      rw [place, hnull, if_neg Bool.false_ne_true, hslot]
      rfl
  · intro fuel calloc ns' hinsert hdistinct
    obtain ⟨-, -, hperm⟩ := of_stored_inserted hvalid hbound hnull hstored hinsert
    obtain ⟨e, he, hkey⟩ := hstored
    have hcons : Records.Distinct NodeStoreEntry.key (node :: items s.1.entries) :=
      (hperm.map _).nodup_iff.mp hdistinct
    exact Records.get_eq_none_iff.mp hcons.get_tail e he hkey

/-- Two nodes that start at the same slot are inserted, and the first one is removed. -/
def behindTombstone : List (Nat × Call Unit) :=
  toSeven ++ [(8, .insert true (sampleNode 1)), (8, .insert true (sampleNode 4)),
    (8, .remove true ⟨1, .numeric 1⟩)]

theorem stored_inserted_iff_behindTombstone :
  Stored (final behindTombstone) ⟨1, .numeric 4⟩ ∧
    ∃ fuel calloc ns', (final behindTombstone).insert fuel calloc (sampleNode 4) =
      some (.inserted ⟨1, .numeric 4⟩, ns') ∧ ¬ Distinct ns'
  := by
  obtain ⟨history, hrun⟩ : ∃ history, (machine Unit).run (new, []) behindTombstone =
      some (final behindTombstone, history) := ⟨_, rfl⟩
  have hreach := (Transition.Machine.Reachable.init (M := machine Unit) rfl).run hrun
  have hstored : Stored (final behindTombstone) ⟨1, .numeric 4⟩ := ⟨sampleNode 4, by decide, rfl⟩
  have hbound : (final behindTombstone).count.toNat < 2 ^ 28 := by decide
  have hroom : ¬ (final behindTombstone).size * 3 ≤ (final behindTombstone).count * 4 := by decide
  have hhidden : IsHidden (final behindTombstone) ⟨1, .numeric 4⟩ := by
    use hstored, 6
    decide
  obtain ⟨hiff, htwice⟩ := @stored_inserted_iff Unit _ hreach hbound (sampleNode 4) rfl hstored
  obtain ⟨fuel, calloc, ns', hinsert⟩ := hiff.mpr ⟨hhidden, hroom⟩
  exact ⟨hstored, fuel, calloc, ns', hinsert, htwice fuel calloc ns' hinsert⟩

/-- An insertion that has to resize the table comes back if and only if no two nodes have the same
id. -/
theorem resizing_insert_iff {s : NodeStore V × List (Call V × Answer V)}
    (h : (machine V).Reachable s) (hbound : s.1.count.toNat < 2 ^ 28)
    (hfull : s.1.size * 3 ≤ s.1.count * 4) {node : NodeStoreEntry V}
    (hnull : isAnonymous node.nodeId = false) :
  (∃ fuel r, s.1.insert fuel true node = some r) ↔ Distinct s.1
  := by
  have hvalid := valid_of_reachable h
  rcases insert_spec hvalid hbound true node with
    ⟨hfalse, -⟩ | ⟨hroom, -, -⟩ | ⟨-, hof, hends⟩
  · cases hfalse
  · exact absurd hfull hroom
  · constructor
    · rintro ⟨fuel, r, hinsert⟩
      exact (hof hinsert).1
    · intro hdistinct
      obtain ⟨ns₁, hroomy, hplace⟩ := hends hdistinct (le_refl _)
      have hplaced : (place 1073741789 ns₁ node).isSome :=
        hroomy.place_isSome hvalid hroomy.isSize.bounds.2 (by simp [hnull])
      obtain ⟨r, hr⟩ := Option.isSome_iff_exists.mp hplaced
      exact ⟨1073741789, r, hplace.trans hr⟩

/-- A node is inserted twice, and the table is filled up. -/
def filledUp : List (Nat × Call Unit) :=
  behindTombstone ++ [4, 2, 29, 21, 16].map (fun n => (8, .insert true (sampleNode n)))

theorem resizing_insert_iff_filledUp :
  ¬ ∃ fuel r, (final filledUp).insert fuel true (sampleNode 8) = some r
  := by
  obtain ⟨history, hrun⟩ : ∃ history, (machine Unit).run (new, []) filledUp =
      some (final filledUp, history) := ⟨_, rfl⟩
  have hreach := (Transition.Machine.Reachable.init (M := machine Unit) rfl).run hrun
  have hbound : (final filledUp).count.toNat < 2 ^ 28 := by decide
  have hfull : (final filledUp).size * 3 ≤ (final filledUp).count * 4 := by decide
  have htwice : ¬ ((items (final filledUp).entries).map NodeStoreEntry.key).Nodup := by decide
  intro hreturns
  exact htwice ((@resizing_insert_iff Unit _ hreach hbound hfull (sampleNode 8) rfl).mp hreturns)

end NodeStore

end UA
