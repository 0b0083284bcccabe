import UaRateThrottling.Hashtable.Stacks

/-!
# Going through a hash table

An iterator stands at an entry of a table, or at its end.  It can go on to the next entry, and it
can take the entry it stands at out of the table.

`sweep_spec` says that an iterator which takes out entries wherever it likes comes to every entry of
the table once, and that the table then holds the other ones.  `search_remove` says that an entry
taken out where a search has led is the one `hashtable_remove` takes out.
-/

namespace Zuth

namespace Hashtable

variable {κ α : Type*}

/-- `struct hashtable_itr`.  A pointer to an entry is the part of its chain that begins there, and
the entry in front of it is given by its position in the chain. -/
structure Iterator (κ α : Type*) where
  h : Hashtable κ α
  e : List (Entry κ α)
  parent : Option Nat
  index : Nat

namespace Iterator

/-- The position in its chain of the entry the iterator stands at. -/
def position (itr : Iterator κ α) : Nat :=
  match itr.parent with
  | none => 0
  | some parent => parent + 1

/-- The first chain from `j` on that is not empty. -/
def nextChain (table : List (List (Entry κ α))) (j : Nat) : Option Nat :=
  ((table.drop j).findIdx? (fun c => !c.isEmpty)).map (j + ·)

/-- `hashtable_iterator` -/
def start (h : Hashtable κ α) : Iterator κ α :=
  if h.entrycount = 0 then ⟨h, [], none, h.tablelength.toNat⟩
  else
    match nextChain h.table 0 with
    | none => ⟨h, [], none, h.tablelength.toNat⟩
    | some i => ⟨h, Chains.chain h.table i, none, i⟩

/-- The iterator behind the end of a chain: it looks for an entry from the chain `index` on. -/
def advanceChain (h : Hashtable κ α) (index : Nat) : Bool × Iterator κ α :=
  if h.tablelength.toNat ≤ index then (false, ⟨h, [], none, index⟩)
  else
    match nextChain h.table index with
    | none => (false, ⟨h, [], none, h.tablelength.toNat⟩)
    | some j => (true, ⟨h, Chains.chain h.table j, none, j⟩)

/-- `hashtable_iterator_advance`, with whether it has advanced to an entry. -/
def advance (itr : Iterator κ α) : Bool × Iterator κ α :=
  match itr.e with
  | [] => (false, itr)
  | _ :: next =>
    if next ≠ [] then (true, { itr with parent := some itr.position, e := next })
    else advanceChain itr.h (itr.index + 1)

/-- The table without the entry the iterator stands at. -/
def unlink (itr : Iterator κ α) : Hashtable κ α :=
  { itr.h with
    table := itr.h.table.modify itr.index (fun c =>
      match itr.parent with
      | none => itr.e.tail
      | some parent => c.take (parent + 1) ++ itr.e.tail)
    entrycount := itr.h.entrycount - 1
    length_table := (List.length_modify ..).trans itr.h.length_table }

/-- `hashtable_iterator_remove` -/
def remove (itr : Iterator κ α) : Bool × Iterator κ α :=
  match advance { itr with h := itr.unlink } with
  | (ret, itr') =>
    (ret, if itr'.parent = some itr.position then { itr' with parent := itr.parent } else itr')

/-- `hashtable_iterator_search` -/
def search (hashfn : κ → UInt32) (eqfn : κ → κ → Bool) (itr : Iterator κ α) (h : Hashtable κ α)
    (k : κ) : Bool × Iterator κ α :=
  let index := h.index hashfn k
  let chain := Chains.chain h.table index
  match chain.findIdx? (matching hashfn eqfn k) with
  | none => (false, itr)
  | some p => (true, ⟨h, chain.drop p, if p = 0 then none else some (p - 1), index⟩)

/-! ### The entries still to come -/

/-- The entries from the one the iterator stands at to the end of the table. -/
def remaining (itr : Iterator κ α) : List (Entry κ α) :=
  if itr.e = [] then [] else itr.e ++ (itr.h.table.drop (itr.index + 1)).flatten

/-- The iterator stands at an entry, with the position of the one in front of it, or at the end. -/
def Sound (itr : Iterator κ α) : Prop :=
  itr.e ≠ [] → itr.index < itr.h.table.length ∧
    ∃ before, Chains.chain itr.h.table itr.index = before ++ itr.e ∧
      itr.position = before.length

/-- The first chain that is not empty is the one with the first element. -/
theorem findIdx?_isEmpty (t : List (List (Entry κ α))) :
  (t.findIdx? (fun c => !c.isEmpty) = none ∧ t.flatten = []) ∨
    ∃ d, t.findIdx? (fun c => !c.isEmpty) = some d ∧ d < t.length ∧ Chains.chain t d ≠ [] ∧
      t.flatten = Chains.chain t d ++ (t.drop (d + 1)).flatten
  := by
  induction t with
  | nil =>
      left
      exact ⟨rfl, rfl⟩
  | cons c t ih =>
      rw [List.findIdx?_cons, List.flatten_cons]
      cases c with
      | nil =>
          rcases ih with ⟨hnone, hempty⟩ | ⟨d, hd, hlt, hne, hflatten⟩
          · left
            rw [hnone, hempty]
            exact ⟨rfl, rfl⟩
          · right
            rw [hd]
            exact ⟨d + 1, rfl, Nat.succ_lt_succ hlt, hne, hflatten⟩
      | cons e c =>
          right
          exact ⟨0, rfl, Nat.succ_pos _, List.cons_ne_nil _ _, rfl⟩

/-- Chains that are passed over are empty. -/
theorem nextChain_spec (table : List (List (Entry κ α))) (j : Nat) :
  (nextChain table j = none ∧ (table.drop j).flatten = []) ∨
    ∃ i, nextChain table j = some i ∧ i < table.length ∧ Chains.chain table i ≠ [] ∧
      (table.drop j).flatten = Chains.chain table i ++ (table.drop (i + 1)).flatten
  := by
  have hchain : ∀ d, Chains.chain (table.drop j) d = Chains.chain table (j + d) := by
    intro d
    rw [Chains.chain, Chains.chain, List.getD_eq_getElem?_getD, List.getD_eq_getElem?_getD,
      List.getElem?_drop]
  rw [nextChain]
  rcases findIdx?_isEmpty (table.drop j) with ⟨hnone, hempty⟩ | ⟨d, hd, hlt, hne, hflatten⟩
  · left
    rw [hnone]
    exact ⟨rfl, hempty⟩
  · right
    rw [hchain] at hne hflatten
    rw [List.length_drop] at hlt
    rw [List.drop_drop] at hflatten
    rw [hd]
    exact ⟨j + d, rfl, by omega, hne, hflatten⟩

/-- The iterator at the chain that is found has all entries to come that there are from `j` on. -/
theorem nextChain_remaining (h : Hashtable κ α) (j : Nat) :
  (nextChain h.table j = none → (h.table.drop j).flatten = []) ∧
    ∀ i, nextChain h.table j = some i →
      Sound ⟨h, Chains.chain h.table i, none, i⟩ ∧ Chains.chain h.table i ≠ [] ∧
        remaining ⟨h, Chains.chain h.table i, none, i⟩ = (h.table.drop j).flatten
  := by
  rcases nextChain_spec h.table j with ⟨hnone, hempty⟩ | ⟨i, hi, hlt, hne, hflatten⟩
  · constructor
    · intro _
      apply hempty
    · intro i hi
      rw [hnone] at hi
      cases hi
  · constructor
    · intro hnone
      rw [hi] at hnone
      cases hnone
    · intro i' hi'
      obtain rfl := Option.some.inj (hi.symm.trans hi')
      refine ⟨?_, hne, ?_⟩
      · intro _
        exact ⟨hlt, [], rfl, rfl⟩
      · rw [remaining, if_neg hne, hflatten]

theorem sound_of_e_eq_nil {itr : Iterator κ α} (h : itr.e = []) :
  itr.Sound
  := fun hne => absurd h hne

/-- An iterator starts with all entries to come, when they are counted. -/
theorem start_spec {h : Hashtable κ α} (hcount : h.entrycount = 0 → h.table.flatten = []) :
  (start h).Sound ∧ (start h).h = h ∧ (start h).remaining = h.table.flatten
  := by
  rw [start]
  split
  · rename_i hzero
    refine ⟨sound_of_e_eq_nil rfl, rfl, ?_⟩
    rw [remaining, if_pos rfl, hcount hzero]
  · obtain ⟨hnone, hsome⟩ := nextChain_remaining h 0
    rw [List.drop_zero] at hnone hsome
    cases hnext : nextChain h.table 0 with
    | none =>
        refine ⟨sound_of_e_eq_nil rfl, rfl, ?_⟩
        rw [remaining, if_pos rfl, hnone hnext]
    | some i =>
        obtain ⟨hsound, -, hremaining⟩ := hsome i hnext
        exact ⟨hsound, rfl, hremaining⟩

theorem advanceChain_spec (h : Hashtable κ α) (index : Nat) :
  (advanceChain h index).2.Sound ∧ (advanceChain h index).2.h = h ∧
    (advanceChain h index).2.remaining = (h.table.drop index).flatten ∧
    ((advanceChain h index).1 = true ↔ (advanceChain h index).2.e ≠ [])
  := by
  rw [advanceChain]
  split
  · rename_i hend
    refine ⟨sound_of_e_eq_nil rfl, rfl, ?_, by simp⟩
    rw [remaining, if_pos rfl, List.drop_eq_nil_of_le (by rw [h.length_table]; exact hend)]
    rfl
  · obtain ⟨hnone, hsome⟩ := nextChain_remaining h index
    cases hj : nextChain h.table index with
    | none =>
        refine ⟨sound_of_e_eq_nil rfl, rfl, ?_, by simp⟩
        rw [remaining, if_pos rfl, hnone hj]
    | some j =>
        obtain ⟨hsound, hne, hremaining⟩ := hsome j hj
        exact ⟨hsound, rfl, hremaining, by simpa using hne⟩

variable {itr : Iterator κ α} {e : Entry κ α} {next : List (Entry κ α)}

theorem remaining_of_eq_cons (he : itr.e = e :: next) :
  itr.remaining = e :: (next ++ (itr.h.table.drop (itr.index + 1)).flatten)
  := by
  rw [remaining, if_neg (by simp [he]), he]
  rfl

/-- The iterator goes on to the next entry, and says whether there is one. -/
theorem advance_spec (hsound : itr.Sound) (he : itr.e = e :: next) :
  (advance itr).2.Sound ∧ (advance itr).2.h = itr.h ∧
    itr.remaining = e :: (advance itr).2.remaining ∧
    ((advance itr).1 = true ↔ (advance itr).2.e ≠ [])
  := by
  obtain ⟨hindex, before, hchain, hposition⟩ := hsound (by simp [he])
  rw [remaining_of_eq_cons he, advance, he]
  dsimp only
  split
  · rename_i hnext
    refine ⟨?_, rfl, ?_, by simpa using hnext⟩
    · intro _
      refine ⟨hindex, before ++ [e], ?_, ?_⟩
      · rw [hchain, he, List.append_assoc]
        rfl
      · rw [position, hposition, List.length_append]
        rfl
    · rw [remaining, if_neg hnext]
  · rename_i hnext
    obtain ⟨hsound', hh, hremaining, hret⟩ := advanceChain_spec itr.h (itr.index + 1)
    rw [not_not.mp hnext, List.nil_append, hremaining]
    exact ⟨hsound', hh, rfl, hret⟩

/-- The chain is the one without the entry the iterator stands at. -/
theorem table_unlink {before : List (Entry κ α)} (hindex : itr.index < itr.h.table.length)
    (hchain : Chains.chain itr.h.table itr.index = before ++ itr.e)
    (hposition : itr.position = before.length) (he : itr.e = e :: next) :
  itr.unlink.table = itr.h.table.set itr.index (before ++ next)
  := by
  rw [he] at hchain
  have hget : itr.h.table[itr.index] = before ++ e :: next := by
    rw [← hchain, Chains.chain, List.getD_eq_getElem _ _ hindex]
  rw [unlink]
  dsimp only
  rw [List.modify_eq_set_getElem?, List.getElem?_eq_getElem hindex, Option.map_eq_map,
    Option.map_some, Option.getD_some, hget, he]
  rw [position] at hposition
  cases hparent : itr.parent with
  | none =>
      rw [hparent] at hposition
      rw [List.eq_nil_of_length_eq_zero hposition.symm]
      rfl
  | some parent =>
      rw [hparent] at hposition
      dsimp only at hposition ⊢
      rw [hposition, List.take_left]
      rfl

/-- The entry the iterator stands at is taken out of the table, and the others stay where they
are. -/
theorem remove_spec (hsound : itr.Sound) (he : itr.e = e :: next) :
  (remove itr).2.Sound ∧ (remove itr).2.h = itr.unlink ∧
    itr.remaining = e :: (remove itr).2.remaining ∧
    ((remove itr).1 = true ↔ (remove itr).2.e ≠ [])
  := by
  obtain ⟨hindex, before, hchain, hposition⟩ := hsound (by simp [he])
  have htable := table_unlink hindex hchain hposition he
  have hdrop : itr.unlink.table.drop (itr.index + 1) = itr.h.table.drop (itr.index + 1) := by
    rw [htable, List.drop_set_of_lt (Nat.lt_succ_self _)]
  rw [remaining_of_eq_cons he, remove, advance]
  dsimp only
  rw [he]
  dsimp only
  split
  · rename_i hnext
    rw [if_pos (by rfl)]
    refine ⟨?_, rfl, ?_, by simpa using hnext⟩
    · intro _
      refine ⟨?_, before, ?_, hposition⟩
      · dsimp only
        rw [htable, List.length_set]
        exact hindex
      · dsimp only
        rw [htable, Chains.chain, List.getD_eq_getElem _ _ (by rw [List.length_set]; exact hindex),
          List.getElem_set_self]
    · rw [remaining, if_neg hnext]
      dsimp only
      rw [hdrop]
  · rename_i hnext
    obtain ⟨hsound', hh, hremaining, hret⟩ := advanceChain_spec itr.unlink (itr.index + 1)
    have hparent : (advanceChain itr.unlink (itr.index + 1)).2.parent = none := by
      rw [advanceChain]
      split
      · rfl
      · split <;> rfl
    rw [not_not.mp hnext, List.nil_append, hparent, if_neg (by simp), hremaining, hdrop]
    exact ⟨hsound', hh, rfl, hret⟩

/-- Of the entries of the table, the one the iterator stands at is missing. -/
theorem flatten_unlink (hsound : itr.Sound) (he : itr.e = e :: next) {kept : List (Entry κ α)}
    (hkept : itr.h.table.flatten = kept ++ itr.remaining) :
  itr.unlink.table.flatten = kept ++ itr.remaining.tail
  := by
  obtain ⟨hindex, before, hchain, hposition⟩ := hsound (by simp [he])
  have htable := table_unlink hindex hchain hposition he
  rw [he] at hchain
  have hget : itr.h.table[itr.index] = before ++ e :: next := by
    rw [← hchain, Chains.chain, List.getD_eq_getElem _ _ hindex]
  have hsplit : itr.h.table.flatten = (itr.h.table.take itr.index).flatten ++ before ++
      itr.remaining := by
    conv_lhs => rw [← List.take_append_drop itr.index itr.h.table]
    rw [← List.getElem_cons_drop hindex, List.flatten_append, List.flatten_cons, hget,
      remaining_of_eq_cons he]
    simp only [List.append_assoc, List.cons_append]
  rw [hsplit, List.append_cancel_right_eq] at hkept
  rw [htable, List.set_eq_take_append_cons_drop, if_pos hindex, List.flatten_append,
    List.flatten_cons, ← hkept, remaining_of_eq_cons he, List.tail_cons]
  simp only [List.append_assoc]

/-- The entries that are left stay in their chains. -/
theorem filed_unlink {hashfn : κ → UInt32} (hfiled : itr.h.Filed hashfn) (hsound : itr.Sound)
    (he : itr.e = e :: next) :
  itr.unlink.Filed hashfn
  := by
  obtain ⟨hindex, before, hchain, hposition⟩ := hsound (by simp [he])
  have htable := table_unlink hindex hchain hposition he
  rw [he] at hchain
  have hsubset : ∀ j, ∀ e' ∈ Chains.chain itr.unlink.table j, e' ∈ Chains.chain itr.h.table j := by
    intro j e' he'
    have hset : itr.h.table.set itr.index (before ++ next) =
        itr.h.table.modify itr.index (fun _ => before ++ next) := by
      rw [List.modify_eq_set_getElem?, List.getElem?_eq_getElem hindex]
      rfl
    rw [htable, hset, Chains.chain_modify hindex] at he'
    split at he'
    · rename_i hj
      rw [← hj, hchain]
      rcases List.mem_append.mp he' with he' | he'
      · apply List.mem_append_left _ he'
      · apply List.mem_append_right _ (List.mem_cons_of_mem _ he')
    · apply he'
  constructor
  · intro j e' he'
    apply hfiled.placed j e' (hsubset j e' he')
  · intro e' he'
    obtain ⟨j, hj⟩ := Chains.mem_flatten.mp he'
    apply hfiled.hashed e' (Chains.mem_flatten.mpr ⟨j, hsubset j e' hj⟩)

/-! ### Going through the table -/

section

variable {σ : Type*} (visit : σ → Entry κ α → σ × Bool)

/-- The loop of a user, who visits each entry and then takes it out of the table or goes on. -/
def sweep : Nat → σ → Iterator κ α → Option (σ × Hashtable κ α)
  | 0, _, _ => none
  | fuel + 1, s, itr =>
    match itr.e with
    | [] => some (s, itr.h)
    | e :: _ =>
      match visit s e with
      | (s, true) => sweep fuel s itr.remove.2
      | (s, false) => sweep fuel s itr.advance.2

/-- The entries visited one after the other, and those that are not taken out. -/
def visitAll : σ → List (Entry κ α) → σ × List (Entry κ α)
  | s, [] => (s, [])
  | s, e :: es =>
    match visit s e with
    | (s, true) => visitAll s es
    | (s, false) => ((visitAll s es).1, e :: (visitAll s es).2)

variable {visit} {hashfn : κ → UInt32}

/-- The loop visits the entries that are still to come. -/
theorem sweep_remaining {fuel : Nat} (hfuel : itr.remaining.length < fuel) (hsound : itr.Sound)
    (hfiled : itr.h.Filed hashfn) {kept : List (Entry κ α)}
    (hkept : itr.h.table.flatten = kept ++ itr.remaining)
    (hcount : itr.h.entrycount = UInt32.ofNat itr.h.table.flatten.length) (s : σ) :
  ∃ h', sweep visit fuel s itr = some ((visitAll visit s itr.remaining).1, h') ∧
    h'.table.flatten = kept ++ (visitAll visit s itr.remaining).2 ∧ h'.Filed hashfn ∧
    h'.entrycount = UInt32.ofNat h'.table.flatten.length ∧ h'.primeindex = itr.h.primeindex
  := by
  induction fuel generalizing itr kept s with
  | zero => cases hfuel
  | succ fuel ih =>
      rw [sweep]
      cases he : itr.e with
      | nil =>
          have hremaining : itr.remaining = [] := by rw [remaining, if_pos he]
          rw [hremaining] at hkept ⊢
          exact ⟨itr.h, rfl, hkept, hfiled, hcount, rfl⟩
      | cons e next =>
          dsimp only
          cases hvisit : visit s e with
          | mk s' out =>
              cases out with
              | true =>
                  obtain ⟨hsound', hh, hremaining, -⟩ := remove_spec hsound he
                  have hflatten := flatten_unlink hsound he hkept
                  have hlength := congrArg List.length hflatten
                  have hbefore := congrArg List.length hkept
                  rw [hremaining, List.tail_cons, ← hh] at hflatten
                  rw [List.length_append, hremaining, List.length_cons] at hbefore
                  rw [List.length_append, hremaining, List.tail_cons, ← hh] at hlength
                  have hcount' : itr.remove.2.h.entrycount =
                      UInt32.ofNat itr.remove.2.h.table.flatten.length := by
                    have hone : itr.h.table.flatten.length =
                        itr.remove.2.h.table.flatten.length + 1 := by omega
                    have hentry : itr.unlink.entrycount = itr.h.entrycount - 1 := rfl
                    rw [hh, hentry, hcount, hone, ← hh, UInt32.ofNat_add]
                    apply UInt32.add_sub_cancel
                  have hfiled' : itr.remove.2.h.Filed hashfn := by
                    rw [hh]
                    apply filed_unlink hfiled hsound he
                  have hfuel' : itr.remove.2.remaining.length < fuel := by
                    rw [hremaining, List.length_cons] at hfuel
                    omega
                  obtain ⟨h', hsweep, hleft, hrest⟩ :=
                    ih hfuel' hsound' hfiled' hflatten hcount' s'
                  have hindex : itr.remove.2.h.primeindex = itr.h.primeindex := by rw [hh]; rfl
                  rw [hindex] at hrest
                  rw [hremaining, visitAll, hvisit]
                  exact ⟨h', hsweep, hleft, hrest⟩
              | false =>
                  obtain ⟨hsound', hh, hremaining, -⟩ := advance_spec hsound he
                  have hfuel' : itr.advance.2.remaining.length < fuel := by
                    rw [hremaining, List.length_cons] at hfuel
                    omega
                  have hflatten : itr.advance.2.h.table.flatten =
                      (kept ++ [e]) ++ itr.advance.2.remaining := by
                    rw [hh, hkept, hremaining, List.append_assoc]
                    rfl
                  obtain ⟨h', hsweep, hleft, hrest⟩ :=
                    ih hfuel' hsound' (hh ▸ hfiled) hflatten (hh ▸ hcount) s'
                  rw [hh] at hrest
                  rw [hremaining, visitAll, hvisit]
                  rw [List.append_assoc] at hleft
                  exact ⟨h', hsweep, hleft, hrest⟩

end

/-- A history of some length leaves at most as many entries. -/
theorem length_calls_le {hashfn : κ → UInt32} {eqfn : κ → κ → Bool} {h : Hashtable κ α}
    (hfiled : h.Filed hashfn) (cs : List (Call κ α)) :
  (h.calls hashfn eqfn cs).2.table.flatten.length ≤ h.table.flatten.length + cs.length
  := by
  induction cs generalizing h with
  | nil => exact Nat.le_refl _
  | cons c cs ih =>
      have hone : (h.call hashfn eqfn c).2.table.flatten.length ≤ h.table.flatten.length + 1 := by
        cases c with
        | insert k v => exact Nat.le_of_eq (insert_spec hfiled k v).2.length_eq
        | search k => exact Nat.le_succ _
        | remove k =>
            rw [call, Hashtable.remove]
            cases hfind : (Chains.chain h.table (h.index hashfn k)).find?
                (matching hashfn eqfn k) with
            | none => exact Nat.le_succ _
            | some e =>
                have hlength := (Chains.flatten_eraseP hfind).length_eq
                rw [List.length_cons] at hlength
                dsimp only
                omega
      have hrest := ih (@filed_call _ _ hashfn eqfn h hfiled c)
      rw [calls, List.length_cons]
      dsimp only
      omega

/-- After every history, an iterator which visits entry after entry, and takes out those it likes
to, comes to each entry of the table once.  The table then has the other entries, in the chains
they have been in and in their order, and counts them. -/
theorem sweep_spec {σ : Type*} (visit : σ → Entry κ α → σ × Bool) {hashfn : κ → UInt32}
    {eqfn : κ → κ → Bool} {minsize : UInt32} {h : Hashtable κ α} (hcreate : create minsize = some h)
    {cs : List (Call κ α)} (hcs : cs.length < 2 ^ 32) {fuel : Nat} (hfuel : cs.length < fuel)
    (s : σ) :
  ∃ h', sweep visit fuel s (start (h.calls hashfn eqfn cs).2) =
      some ((visitAll visit s (h.calls hashfn eqfn cs).2.table.flatten).1, h') ∧
    h'.table.flatten = (visitAll visit s (h.calls hashfn eqfn cs).2.table.flatten).2 ∧
    h'.Filed hashfn ∧ h'.entrycount = UInt32.ofNat h'.table.flatten.length ∧
    h'.primeindex = (h.calls hashfn eqfn cs).2.primeindex
  := by
  obtain ⟨hfiled, hempty⟩ := @create_spec _ _ hashfn _ _ hcreate
  obtain ⟨hfiled', hcount, -, -⟩ := @loaded_calls _ _ hashfn eqfn h _ hcreate cs
  have hlength := @length_calls_le _ _ hashfn eqfn h hfiled cs
  rw [hempty, List.length_nil, Nat.zero_add] at hlength
  have hcounted : (h.calls hashfn eqfn cs).2.entrycount = 0 →
      (h.calls hashfn eqfn cs).2.table.flatten = [] := by
    intro hzero
    have hnumber := congrArg UInt32.toNat (hcount.symm.trans hzero)
    rw [UInt32.toNat_ofNat', Nat.mod_eq_of_lt (by omega)] at hnumber
    apply List.eq_nil_of_length_eq_zero hnumber
  obtain ⟨hsound, hh, hremaining⟩ := start_spec hcounted
  have hsweep := @sweep_remaining _ _ (start (h.calls hashfn eqfn cs).2) _ visit hashfn fuel
    (by rw [hremaining]; omega) hsound (hh.symm ▸ hfiled') [] (by rw [hremaining, hh]; rfl)
    (hh.symm ▸ hcount) s
  rw [hremaining, hh] at hsweep
  apply hsweep

theorem sweep_spec_even :
  ∃ h h' : Hashtable UInt32 Nat, create 16 = some h ∧
    sweep (fun vs e => (vs ++ [e.v], e.v % 2 == 0)) 5 []
      (start (h.calls id (fun k k' => k = k')
        [.insert 7 1, .insert 7 2, .insert 60 3, .insert 8 4]).2) = some ([3, 4, 2, 1], h') ∧
    h'.table.flatten.map Entry.v = [3, 1] ∧ h'.entrycount = 2
  := by
  obtain ⟨h, hcreate⟩ : ∃ h : Hashtable UInt32 Nat, create 16 = some h := ⟨_, rfl⟩
  obtain ⟨h', hsweep, hflatten, -, hcount, -⟩ :=
    @sweep_spec UInt32 Nat _ (fun vs e => (vs ++ [e.v], e.v % 2 == 0)) id (fun k k' => k = k') 16 h
      hcreate [.insert 7 1, .insert 7 2, .insert 60 3, .insert 8 4] (by decide) 5 (by decide) []
  rw [hflatten] at hcount
  obtain rfl := Option.some.inj hcreate
  refine ⟨_, h', rfl, hsweep, ?_, hcount⟩
  rw [hflatten]
  rfl

/-- Where a search has led, the entry that `hashtable_remove` would take out is taken out. -/
theorem search_remove {hashfn : κ → UInt32} {eqfn : κ → κ → Bool} (itr : Iterator κ α)
    (h : Hashtable κ α) (k : κ) :
  (search hashfn eqfn itr h k = (false, itr) ∧ h.remove hashfn eqfn k = (none, h)) ∨
    ∃ itr' e, search hashfn eqfn itr h k = (true, itr') ∧ itr'.e.head? = some e ∧ itr'.Sound ∧
      h.remove hashfn eqfn k = (some e.v, itr'.remove.2.h)
  := by
  have hindex : ∀ e, e ∈ Chains.chain h.table (h.index hashfn k) →
      h.index hashfn k < h.table.length := by
    intro e he
    by_contra hge
    rw [Chains.chain, List.getD_eq_default _ _ (by omega)] at he
    cases he
  have hmodify : ∀ f : List (Entry κ α) → List (Entry κ α),
      h.index hashfn k < h.table.length → h.table.modify (h.index hashfn k) f =
        h.table.set (h.index hashfn k) (f (Chains.chain h.table (h.index hashfn k))) := by
    intro f hlt
    rw [List.modify_eq_set_getElem?, List.getElem?_eq_getElem hlt, Chains.chain,
      List.getD_eq_getElem _ _ hlt]
    rfl
  rw [search, Hashtable.remove, List.find?_eq_bind_findIdx?_getElem?]
  generalize hchain : Chains.chain h.table (h.index hashfn k) = chain at hindex hmodify
  cases hfind : chain.findIdx? (matching hashfn eqfn k) with
  | none =>
      left
      exact ⟨rfl, rfl⟩
  | some p =>
      right
      obtain ⟨hp, -, -⟩ := List.findIdx?_eq_some_iff_getElem.mp hfind
      have hlt := hindex _ (List.getElem_mem hp)
      have hdrop := List.drop_eq_getElem_cons hp
      have hbefore : Chains.chain h.table (h.index hashfn k) = chain.take p ++ chain.drop p := by
        rw [hchain, List.take_append_drop]
      have hposition : position ⟨h, chain.drop p, if p = 0 then none else some (p - 1),
          h.index hashfn k⟩ = (chain.take p).length := by
        rw [List.length_take, Nat.min_eq_left (Nat.le_of_lt hp), position]
        by_cases hzero : p = 0
        · rw [hzero]
          rfl
        · rw [if_neg hzero]
          dsimp only
          omega
      have hsound : Sound ⟨h, chain.drop p, if p = 0 then none else some (p - 1),
          h.index hashfn k⟩ := fun _ => ⟨hlt, chain.take p, hbefore, hposition⟩
      refine ⟨_, chain[p], rfl, by rw [hdrop]; rfl, hsound, ?_⟩
      obtain ⟨-, hremoved, -⟩ := remove_spec hsound hdrop
      have htable := table_unlink hlt hbefore hposition hdrop
      have herase : chain.eraseP (matching hashfn eqfn k) = chain.take p ++ chain.drop (p + 1) := by
        rw [List.eraseP_eq_eraseIdx, hfind, ← List.eraseIdx_eq_take_drop_succ]
      rw [hremoved]
      simp only [Option.bind_some, List.getElem?_eq_getElem hp]
      rw [Prod.mk.injEq]
      use rfl
      rw [unlink] at htable ⊢
      simp only [Hashtable.mk.injEq, true_and, and_true] at htable ⊢
      rw [htable, hmodify _ hlt, herase]

end Iterator

end Hashtable

end Zuth
