import UaRateThrottling.Hashtable.TaskTable

/-!
# Keys inserted again

`hashtable_insert` does not look for the key it inserts.  Entries whose keys have the same name are
kept side by side, and a table that holds some is not a map on names but one of stacks of values:
a search sees the last value inserted, and a removal takes it away.  When the table grows, each
stack is turned over.  `calls_stacks` says that this is all there is to see.

`load_le` says how full a table becomes.
-/

namespace Zuth

namespace Hashtable

variable {κ α ν : Type*} {hashfn : κ → UInt32} {eqfn : κ → κ → Bool} {name : κ → ν}
  {h : Hashtable κ α}

/-- The entries of a name are in the chain of its keys. -/
theorem place_eq_index (hagree : Agree hashfn eqfn name) (hfiled : h.Filed hashfn)
    {e : Entry κ α} (he : e ∈ h.table.flatten) {k : κ} (hname : name e.k = name k)
    (tablelength : UInt32) :
  place tablelength e = (indexFor tablelength (hash hashfn k)).toNat
  := by
  rw [place, hfiled.hashed e he, ((hagree e.k k).mpr hname).1]

/-- A chain of the new table: the entries that come into it, in reversed order. -/
theorem chain_rehash {newsize : UInt32}
    (hnewsize : ∀ e : Entry κ α, place newsize e < newsize.toNat) (table : List (List (Entry κ α)))
    (j : Nat) :
  Chains.chain (rehash newsize table) j =
    (table.flatten.filter (fun e => place newsize e = j)).reverse
  := by
  rw [rehash, Chains.chain_transfer _ (by
    intro e
    rw [List.length_replicate]
    apply hnewsize)]
  have hempty : Chains.chain (List.replicate newsize.toNat ([] : List (Entry κ α))) j = [] := by
    rw [Chains.chain, List.getD_eq_getElem?_getD, List.getElem?_replicate]
    split <;> rfl
  rw [hempty, List.append_nil]

/-! ### Stacks of values -/

variable [DecidableEq ν]

/-- A stack of values for each name, how many values there are, and how often the table has
grown. -/
structure Stacks (ν α : Type*) where
  stack : ν → List α
  entrycount : UInt32
  primeindex : Fin primes.length

namespace Stacks

/-- When the table grows, every stack is turned over. -/
def expand (s : Stacks ν α) : Stacks ν α :=
  if h : s.primeindex.val + 1 < primes.length then
    ⟨fun n => (s.stack n).reverse, s.entrycount, ⟨s.primeindex.val + 1, h⟩⟩
  else s

/-- A value is put on the stack of its name. -/
def insert (s : Stacks ν α) (n : ν) (v : α) : Stacks ν α :=
  let s := { s with entrycount := s.entrycount + 1 }
  let s := if s.entrycount > loadlimitOf primes[s.primeindex] then s.expand else s
  { s with stack := Function.update s.stack n (v :: s.stack n) }

/-- The value on top. -/
def search (s : Stacks ν α) (n : ν) : Option α := (s.stack n).head?

/-- The value on top is taken away. -/
def remove (s : Stacks ν α) (n : ν) : Option α × Stacks ν α :=
  match s.stack n with
  | [] => (none, s)
  | v :: vs =>
      (some v,
        { s with
          stack := Function.update s.stack n vs
          entrycount := s.entrycount - 1 })

end Stacks

/-! ### The stacks of a table -/

variable {s : Stacks ν α}

/-- The values of a name, in the order in which a search comes upon them. -/
def stack (name : κ → ν) (h : Hashtable κ α) (n : ν) : List α :=
  (h.table.flatten.filter (fun e => name e.k = n)).map Entry.v

/-- The table holds these stacks. -/
structure Holds (hashfn : κ → UInt32) (name : κ → ν) (h : Hashtable κ α) (s : Stacks ν α) :
    Prop where
  filed : h.Filed hashfn
  stack_eq : ∀ n, h.stack name n = s.stack n
  entrycount_eq : h.entrycount = s.entrycount
  primeindex_eq : h.primeindex = s.primeindex
  loadlimit_eq : h.loadlimit = loadlimitOf primes[h.primeindex]

/-- The entries of a name, as they are found in their chain. -/
theorem filter_name (hagree : Agree hashfn eqfn name) (hfiled : h.Filed hashfn) (k : κ) :
  h.table.flatten.filter (fun e => name e.k = name k) =
    (Chains.chain h.table (h.index hashfn k)).filter (fun e => name e.k = name k)
  := by
  apply Chains.filter_flatten hfiled.placed
  intro e he hname
  apply place_eq_index hagree hfiled he (of_decide_eq_true hname)

/-- In the chain of a key, the entries that match it are those of its name. -/
theorem filter_matching (hagree : Agree hashfn eqfn name) (hfiled : h.Filed hashfn) (k : κ) :
  (Chains.chain h.table (h.index hashfn k)).filter (matching hashfn eqfn k) =
    (Chains.chain h.table (h.index hashfn k)).filter (fun e => name e.k = name k)
  := by
  apply List.filter_congr
  intro e he
  have hiff := matching_iff hagree hfiled (Chains.mem_flatten.mpr ⟨_, he⟩) k
  rw [Bool.eq_iff_iff, hiff, decide_eq_true_eq]

/-- A name without keys has no entries. -/
theorem filter_of_not_exists {n : ν} (hn : ¬∃ k, name k = n) (es : List (Entry κ α)) :
  es.filter (fun e => name e.k = n) = []
  := by
  rw [List.filter_eq_nil_iff]
  intro e he hname
  apply hn ⟨e.k, of_decide_eq_true hname⟩

/-- A table that grows turns its stacks over. -/
theorem stack_expand (hagree : Agree hashfn eqfn name) (hfiled : h.Filed hashfn)
    (hnext : h.primeindex.val + 1 < primes.length) (n : ν) :
  h.expand.stack name n = (h.stack name n).reverse
  := by
  have hexpand := (expand_spec hfiled).1
  by_cases hn : ∃ k, name k = n
  · obtain ⟨k, rfl⟩ := hn
    have htable : h.expand.table = rehash primes[h.primeindex.val + 1] h.table := by
      rw [expand, dif_pos hnext]
      rfl
    have hlength : h.expand.tablelength = primes[h.primeindex.val + 1] := by
      rw [expand, dif_pos hnext]
      rfl
    have hchain : Chains.chain h.expand.table (h.expand.index hashfn k) =
        (h.table.flatten.filter (fun e => place primes[h.primeindex.val + 1] e =
          h.expand.index hashfn k)).reverse := by
      rw [htable]
      apply chain_rehash (fun e => place_lt ⟨h.primeindex.val + 1, hnext⟩ e)
    rw [stack, stack, filter_name hagree hexpand, hchain, List.filter_reverse,
      List.filter_filter, List.map_reverse]
    congr 2
    apply List.filter_congr
    intro e he
    by_cases hname : name e.k = name k
    · have hplace := place_eq_index hagree hfiled he hname h.expand.tablelength
      rw [hlength] at hplace
      simp only [hname, decide_true, Bool.true_and, decide_eq_true_eq]
      rw [hplace, index, hlength]
    · simp only [hname, decide_false, Bool.false_and]
  · rw [stack, stack, filter_of_not_exists hn, filter_of_not_exists hn]
    rfl

/-- The entry that is entered comes to stand on top of its stack. -/
theorem stack_enter (hagree : Agree hashfn eqfn name) (hfiled : h.Filed hashfn) (k : κ) (v : α) :
  (h.enter ⟨k, v, hash hashfn k⟩).stack name =
    Function.update (h.stack name) (name k) (v :: h.stack name (name k))
  := by
  have henter := (@enter_spec _ _ _ _ hfiled ⟨k, v, hash hashfn k⟩ rfl).1
  have hplace : place h.tablelength ⟨k, v, hash hashfn k⟩ = h.index hashfn k := rfl
  funext n
  rw [Function.update_apply]
  by_cases hn : ∃ k', name k' = n
  · obtain ⟨k', rfl⟩ := hn
    have hindex : (h.enter ⟨k, v, hash hashfn k⟩).index hashfn k' = h.index hashfn k' := rfl
    rw [stack, stack, stack, filter_name hagree henter, hindex, enter]
    dsimp only
    rw [Chains.push, Chains.chain_modify (place_lt_length h _), hplace]
    by_cases hname : name k = name k'
    · have hsame : h.index hashfn k = h.index hashfn k' := by
        rw [index, index, ((hagree k k').mpr hname).1]
      rw [if_pos hsame, if_pos hname.symm, List.filter_cons_of_pos (by simpa using hname),
        List.map_cons, hname, filter_name hagree hfiled]
    · rw [if_neg (Ne.symm hname), filter_name hagree hfiled]
      split
      · rw [List.filter_cons_of_neg (by simpa using hname)]
      · rfl
  · have hne : n ≠ name k := fun heq => hn ⟨k, heq.symm⟩
    rw [if_neg hne, stack, stack, filter_of_not_exists hn, filter_of_not_exists hn]

theorem holds_expand (hagree : Agree hashfn eqfn name) (hholds : h.Holds hashfn name s) :
  h.expand.Holds hashfn name s.expand
  := by
  obtain ⟨hfiled, hstack, hcount, hindex, hlimit⟩ := hholds
  have hexpand := (expand_spec hfiled).1
  by_cases hnext : h.primeindex.val + 1 < primes.length
  · have hturned := stack_expand hagree hfiled hnext
    have hnext' := hnext
    rw [hindex] at hnext'
    rw [expand, dif_pos hnext] at hexpand hturned ⊢
    rw [Stacks.expand, dif_pos hnext']
    refine ⟨hexpand, ?_, hcount, ?_, rfl⟩
    · intro n
      rw [hturned, hstack]
    · apply Fin.ext
      dsimp only
      rw [hindex]
  · have hnext' := hnext
    rw [hindex] at hnext'
    rw [expand, dif_neg hnext, Stacks.expand, dif_neg hnext']
    exact ⟨hfiled, hstack, hcount, hindex, hlimit⟩

/-- An insertion puts a value on its stack, whatever the stack holds. -/
theorem holds_insert (hagree : Agree hashfn eqfn name) (hholds : h.Holds hashfn name s) (k : κ)
    (v : α) :
  (h.insert hashfn k v).Holds hashfn name (s.insert (name k) v)
  := by
  have henter : ∀ {h : Hashtable κ α} {s : Stacks ν α}, h.Holds hashfn name s →
      (h.enter ⟨k, v, hash hashfn k⟩).Holds hashfn name
        { s with stack := Function.update s.stack (name k) (v :: s.stack (name k)) } := by
    intro h s hholds
    obtain ⟨hfiled, hstack, hcount, hindex, hlimit⟩ := hholds
    refine ⟨(@enter_spec _ _ _ _ hfiled ⟨k, v, hash hashfn k⟩ rfl).1, ?_, hcount, hindex, hlimit⟩
    intro n
    rw [stack_enter hagree hfiled, funext hstack]
  have hcounted : ({ h with entrycount := h.entrycount + 1 } : Hashtable κ α).Holds hashfn name
      { s with entrycount := s.entrycount + 1 } := by
    obtain ⟨hfiled, hstack, hcount, hindex, hlimit⟩ := hholds
    exact ⟨⟨hfiled.placed, hfiled.hashed⟩, hstack, by rw [hcount], hindex, hlimit⟩
  have hfull : h.entrycount + 1 > h.loadlimit ↔
      s.entrycount + 1 > loadlimitOf primes[s.primeindex] := by
    rw [hholds.entrycount_eq, hholds.loadlimit_eq]
    simp only [hholds.primeindex_eq]
  rw [insert, Stacks.insert]
  dsimp only
  by_cases hgrows : h.entrycount + 1 > h.loadlimit
  · rw [if_pos hgrows, if_pos (hfull.mp hgrows)]
    apply henter
    apply holds_expand hagree hcounted
  · rw [if_neg hgrows, if_neg (fun hgrows' => hgrows (hfull.mpr hgrows'))]
    apply henter hcounted

/-- A search sees the value on top of the stack. -/
theorem search_stack (hagree : Agree hashfn eqfn name) (hholds : h.Holds hashfn name s) (k : κ) :
  h.search hashfn eqfn k = s.search (name k)
  := by
  rw [search, Stacks.search, ← hholds.stack_eq, stack, filter_name hagree hholds.filed,
    ← filter_matching hagree hholds.filed, List.head?_map, List.head?_filter]

/-- Of the elements that satisfy `q`, a removal takes away the first one. -/
theorem filter_eraseP {ε : Type*} {p q : ε → Bool} {c : List ε} (h : ∀ e ∈ c, p e = q e) :
  (c.eraseP p).filter q = (c.filter q).tail
  := by
  induction c with
  | nil => rfl
  | cons e c ih =>
      have he := h e List.mem_cons_self
      by_cases hp : p e = true
      · rw [List.eraseP_cons_of_pos hp, List.filter_cons_of_pos (he ▸ hp), List.tail_cons]
      · rw [List.eraseP_cons_of_neg hp, List.filter_cons_of_neg (he ▸ hp),
          List.filter_cons_of_neg (he ▸ hp), ih (fun e he => h e (List.mem_cons_of_mem _ he))]

/-- A removal leaves the elements that it is not about. -/
theorem filter_eraseP_of_disjoint {ε : Type*} {p q : ε → Bool} {c : List ε}
    (h : ∀ e ∈ c, p e = true → q e = false) :
  (c.eraseP p).filter q = c.filter q
  := by
  induction c with
  | nil => rfl
  | cons e c ih =>
      by_cases hp : p e = true
      · have hq := h e List.mem_cons_self hp
        rw [List.eraseP_cons_of_pos hp, List.filter_cons_of_neg (by simp [hq])]
      · rw [List.eraseP_cons_of_neg hp, List.filter_cons, List.filter_cons,
          ih (fun e he => h e (List.mem_cons_of_mem _ he))]

theorem filed_remove (hfiled : h.Filed hashfn) (k : κ) :
  (h.remove hashfn eqfn k).2.Filed hashfn
  := by
  rw [remove]
  cases hfind : (Chains.chain h.table (h.index hashfn k)).find? (matching hashfn eqfn k) with
  | none => apply hfiled
  | some e =>
      have hperm := Chains.flatten_eraseP hfind
      constructor
      · apply hfiled.placed.eraseP
      · intro e' he'
        apply hfiled.hashed e' (hperm.mem_iff.mpr (List.mem_cons_of_mem e he'))

/-- The chains after a removal. -/
theorem chain_remove (k : κ) (i : Nat) :
  Chains.chain (h.remove hashfn eqfn k).2.table i =
    if h.index hashfn k = i then (Chains.chain h.table i).eraseP (matching hashfn eqfn k)
    else Chains.chain h.table i
  := by
  rw [remove]
  cases hfind : (Chains.chain h.table (h.index hashfn k)).find? (matching hashfn eqfn k) with
  | none =>
      dsimp only
      split
      · rename_i hi
        rw [← hi, List.eraseP_of_forall_not (List.find?_eq_none.mp hfind)]
      · rfl
  | some e =>
      have hplace := place_lt_length h ⟨k, e.v, hash hashfn k⟩
      apply Chains.chain_modify hplace

/-- A removal takes the value on top off its stack. -/
theorem stack_remove (hagree : Agree hashfn eqfn name) (hfiled : h.Filed hashfn) (k : κ) :
  (h.remove hashfn eqfn k).2.stack name =
    Function.update (h.stack name) (name k) (h.stack name (name k)).tail
  := by
  have hremoved := @filed_remove _ _ hashfn eqfn h hfiled k
  have hindex : ∀ k', (h.remove hashfn eqfn k).2.index hashfn k' = h.index hashfn k' := by
    intro k'
    rw [remove]
    split <;> rfl
  funext n
  rw [Function.update_apply]
  by_cases hn : ∃ k', name k' = n
  · obtain ⟨k', rfl⟩ := hn
    rw [stack, filter_name hagree hremoved, hindex, chain_remove]
    have hmatch : ∀ e ∈ Chains.chain h.table (h.index hashfn k'),
        matching hashfn eqfn k e = decide (name e.k = name k) := by
      intro e he
      have hiff := matching_iff hagree hfiled (Chains.mem_flatten.mpr ⟨_, he⟩) k
      rw [Bool.eq_iff_iff, hiff, decide_eq_true_eq]
    by_cases hname : name k' = name k
    · have hsame : h.index hashfn k = h.index hashfn k' := by
        rw [index, index, ((hagree k k').mpr hname.symm).1]
      rw [if_pos hsame, if_pos hname, hname, filter_eraseP hmatch, List.map_tail, ← hname,
        ← filter_name hagree hfiled]
      rfl
    · rw [if_neg hname, stack, filter_name hagree hfiled]
      split
      · rw [filter_eraseP_of_disjoint]
        intro e he hp
        rw [hmatch e he, decide_eq_true_eq] at hp
        rw [hp, decide_eq_false_iff_not]
        exact Ne.symm hname
      · rfl
  · have hne : n ≠ name k := fun heq => hn ⟨k, heq.symm⟩
    rw [if_neg hne, stack, stack, filter_of_not_exists hn, filter_of_not_exists hn]

/-- A removal is one from the stacks. -/
theorem holds_remove (hagree : Agree hashfn eqfn name) (hholds : h.Holds hashfn name s) (k : κ) :
  (h.remove hashfn eqfn k).1 = (s.remove (name k)).1 ∧
    (h.remove hashfn eqfn k).2.Holds hashfn name (s.remove (name k)).2
  := by
  have htop := search_stack hagree hholds k
  have hstack := stack_remove hagree hholds.filed k
  have hfiled := @filed_remove _ _ hashfn eqfn h hholds.filed k
  rw [search, Stacks.search] at htop
  rw [remove] at hstack hfiled ⊢
  rw [Stacks.remove]
  cases hfind : (Chains.chain h.table (h.index hashfn k)).find? (matching hashfn eqfn k) with
  | none =>
      rw [hfind, Option.map_none] at htop
      rw [List.head?_eq_none_iff.mp htop.symm]
      exact ⟨rfl, hholds⟩
  | some e =>
      simp only [hfind] at htop hstack hfiled ⊢
      obtain ⟨vs, hvs⟩ := List.head?_eq_some_iff.mp htop.symm
      rw [hvs]
      use rfl
      refine ⟨hfiled, ?_, ?_, hholds.primeindex_eq, hholds.loadlimit_eq⟩
      · intro n
        rw [hstack, funext hholds.stack_eq, hvs]
        rfl
      · dsimp only
        rw [hholds.entrycount_eq]

/-! ### Whole histories -/

/-- What is asked of a table. -/
inductive Call (κ α : Type*)
  | insert (k : κ) (v : α)
  | search (k : κ)
  | remove (k : κ)

section

variable (hashfn : κ → UInt32) (eqfn : κ → κ → Bool)

/-- What a call returns, and the table after it. -/
def call (h : Hashtable κ α) : Call κ α → Option α × Hashtable κ α
  | .insert k v => (none, h.insert hashfn k v)
  | .search k => (h.search hashfn eqfn k, h)
  | .remove k => h.remove hashfn eqfn k

/-- What the calls of a history return, and the table after them. -/
def calls (h : Hashtable κ α) : List (Call κ α) → List (Option α) × Hashtable κ α
  | [] => ([], h)
  | c :: cs =>
    (((h.call hashfn eqfn c).1 :: (calls (h.call hashfn eqfn c).2 cs).1),
      (calls (h.call hashfn eqfn c).2 cs).2)

end

/-- A call as one on the stacks. -/
def Stacks.call (name : κ → ν) (s : Stacks ν α) : Call κ α → Option α × Stacks ν α
  | .insert k v => (none, s.insert (name k) v)
  | .search k => (s.search (name k), s)
  | .remove k => s.remove (name k)

def Stacks.calls (name : κ → ν) (s : Stacks ν α) : List (Call κ α) → List (Option α) × Stacks ν α
  | [] => ([], s)
  | c :: cs =>
    ((s.call name c).1 :: (calls name (s.call name c).2 cs).1,
      (calls name (s.call name c).2 cs).2)

theorem holds_call (hagree : Agree hashfn eqfn name) (hholds : h.Holds hashfn name s)
    (c : Call κ α) :
  (h.call hashfn eqfn c).1 = (s.call name c).1 ∧
    (h.call hashfn eqfn c).2.Holds hashfn name (s.call name c).2
  := by
  cases c with
  | insert k v =>
      use rfl
      apply holds_insert hagree hholds
  | search k =>
      use search_stack hagree hholds k
      apply hholds
  | remove k => apply holds_remove hagree hholds

theorem create_holds {minsize : UInt32} (hcreate : create minsize = some h) :
  h.Holds hashfn name ⟨fun _ => [], 0, h.primeindex⟩
  := by
  obtain ⟨hfiled, hempty⟩ := @create_spec _ _ hashfn _ _ hcreate
  have hstack : ∀ n, h.stack name n = [] := by
    intro n
    rw [stack, hempty]
    rfl
  rw [create] at hcreate
  split at hcreate
  · cases hcreate
  · obtain rfl := Option.some.inj hcreate
    exact ⟨hfiled, hstack, rfl, rfl, rfl⟩

/-- In every history, with keys inserted again and removed, a table returns what the stacks of the
names of its keys return. -/
theorem calls_stacks (hagree : Agree hashfn eqfn name) {minsize : UInt32}
    (hcreate : create minsize = some h) (cs : List (Call κ α)) :
  (h.calls hashfn eqfn cs).1 =
      (Stacks.calls name ⟨fun _ => [], 0, h.primeindex⟩ cs).1 ∧
    (h.calls hashfn eqfn cs).2.Holds hashfn name
      (Stacks.calls name ⟨fun _ => [], 0, h.primeindex⟩ cs).2
  := by
  have hholds := @create_holds _ _ _ hashfn name h _ _ hcreate
  revert hholds
  generalize (⟨fun _ => [], 0, h.primeindex⟩ : Stacks ν α) = s
  clear hcreate
  intro hholds
  induction cs generalizing h s with
  | nil => exact ⟨rfl, hholds⟩
  | cons c cs ih =>
      obtain ⟨hreturn, hholds'⟩ := holds_call hagree hholds c
      obtain ⟨hreturns, hlast⟩ := ih _ hholds'
      rw [calls, Stacks.calls, hreturn, hreturns]
      exact ⟨rfl, hlast⟩

theorem calls_stacks_again :
  ∃ h : Hashtable UInt32 Nat, create 16 = some h ∧
    (h.calls id (fun k k' => k = k')
      [.insert 7 1, .insert 7 2, .search 7, .remove 7, .search 7, .remove 7, .remove 7]).1 =
        [none, none, some 2, some 2, some 1, some 1, none]
  := by
  obtain ⟨h, hcreate⟩ : ∃ h : Hashtable UInt32 Nat, create 16 = some h := ⟨_, rfl⟩
  have hagree : Agree (id : UInt32 → UInt32) (fun k k' => k = k') (id : UInt32 → UInt32) := by
    intro k k'
    simp only [decide_eq_true_eq, id_eq, and_iff_right_iff_imp]
    rintro rfl
    rfl
  use h, hcreate
  rw [(calls_stacks hagree hcreate _).1]
  obtain rfl := Option.some.inj hcreate
  rfl

/-! ### The load -/

/-- The entries are counted, and as long as there is a greater prime they are no more than the load
limit. -/
structure Loaded (h : Hashtable κ α) : Prop where
  entrycount_eq : h.entrycount = UInt32.ofNat h.table.flatten.length
  loadlimit_eq : h.loadlimit = loadlimitOf primes[h.primeindex]
  length_le : h.primeindex.val + 1 < primes.length → h.table.flatten.length ≤ h.loadlimit.toNat

/-- The load limit of a greater prime is greater, and no load limit is large. -/
theorem loadlimitOf_lt (i : Fin primes.length) (hi : i.val + 1 < primes.length) :
  (loadlimitOf primes[i]).toNat < (loadlimitOf primes[i.val + 1]).toNat ∧
    3 * (loadlimitOf primes[i]).toNat ≤ 2 * primes[i].toNat
  := by
  revert i
  decide +kernel

/-- An insertion counts one entry more, and the table grows in time. -/
theorem loaded_insert (hfiled : h.Filed hashfn) (hloaded : h.Loaded) (k : κ) (v : α) :
  (h.insert hashfn k v).Loaded
  := by
  have hlength := (insert_spec hfiled k v).2.length_eq
  obtain ⟨hcount, hlimit, hle⟩ := hloaded
  have hcount' : h.entrycount + 1 = UInt32.ofNat (h.table.flatten.length + 1) := by
    rw [hcount, UInt32.ofNat_add]
    rfl
  rw [List.length_cons] at hlength
  rw [insert] at hlength ⊢
  dsimp only at hlength ⊢
  by_cases hgrows : h.entrycount + 1 > h.loadlimit
  · rw [if_pos hgrows] at hlength ⊢
    by_cases hnext : h.primeindex.val + 1 < primes.length
    · obtain ⟨hlt, -⟩ := loadlimitOf_lt h.primeindex hnext
      have hentries := hle hnext
      rw [expand, dif_pos hnext] at hlength ⊢
      refine ⟨?_, rfl, ?_⟩
      · rw [hlength]
        apply hcount'
      · intro _
        rw [hlength]
        rw [hlimit] at hentries
        exact Nat.lt_of_le_of_lt hentries hlt
    · rw [expand, dif_neg hnext] at hlength ⊢
      refine ⟨?_, hlimit, fun hnext' => absurd hnext' hnext⟩
      rw [hlength]
      apply hcount'
  · rw [if_neg hgrows] at hlength ⊢
    refine ⟨?_, hlimit, ?_⟩
    · rw [hlength]
      apply hcount'
    · intro hnext
      obtain ⟨-, hsmall⟩ := loadlimitOf_lt h.primeindex hnext
      have hentries := hle hnext
      have hprime := (primes[h.primeindex]).toNat_lt
      rw [← hlimit] at hsmall
      have hexact : (h.entrycount + 1).toNat = h.table.flatten.length + 1 := by
        rw [hcount', UInt32.toNat_ofNat', Nat.mod_eq_of_lt (by omega)]
      rw [gt_iff_lt, UInt32.not_lt, UInt32.le_iff_toNat_le, hexact] at hgrows
      rw [hlength]
      apply hgrows

/-- A removal counts one entry less, if there is one to remove. -/
theorem loaded_remove (hloaded : h.Loaded) (k : κ) :
  (h.remove hashfn eqfn k).2.Loaded
  := by
  obtain ⟨hcount, hlimit, hle⟩ := hloaded
  rw [remove]
  cases hfind : (Chains.chain h.table (h.index hashfn k)).find? (matching hashfn eqfn k) with
  | none => exact ⟨hcount, hlimit, hle⟩
  | some e =>
      have hlength := (Chains.flatten_eraseP hfind).length_eq
      rw [List.length_cons] at hlength
      refine ⟨?_, hlimit, ?_⟩
      · dsimp only
        rw [hcount, hlength, UInt32.ofNat_add]
        apply UInt32.add_sub_cancel
      · intro hnext
        apply Nat.le_trans (Nat.le_succ _)
        rw [Nat.succ_eq_add_one, ← hlength]
        apply hle hnext

theorem filed_call (hfiled : h.Filed hashfn) (c : Call κ α) :
  (h.call hashfn eqfn c).2.Filed hashfn
  := by
  cases c with
  | insert k v => exact (insert_spec hfiled k v).1
  | search k => exact hfiled
  | remove k => apply filed_remove hfiled

theorem loaded_call (hfiled : h.Filed hashfn) (hloaded : h.Loaded) (c : Call κ α) :
  (h.call hashfn eqfn c).2.Loaded
  := by
  cases c with
  | insert k v => apply loaded_insert hfiled hloaded
  | search k => exact hloaded
  | remove k => apply loaded_remove hloaded

/-- A new table is loaded, and remains so. -/
theorem loaded_calls {minsize : UInt32} (hcreate : create minsize = some h)
    (cs : List (Call κ α)) :
  (h.calls hashfn eqfn cs).2.Filed hashfn ∧ (h.calls hashfn eqfn cs).2.Loaded
  := by
  obtain ⟨hfiled, hempty⟩ := @create_spec _ _ hashfn _ _ hcreate
  have hloaded : h.Loaded := by
    rw [create] at hcreate
    split at hcreate
    · cases hcreate
    · obtain rfl := Option.some.inj hcreate
      refine ⟨?_, rfl, ?_⟩
      · rw [hempty]
        rfl
      · intro _
        rw [hempty]
        exact Nat.zero_le _
  clear hcreate hempty
  induction cs generalizing h with
  | nil => exact ⟨hfiled, hloaded⟩
  | cons c cs ih => apply ih (filed_call hfiled c) (loaded_call hfiled hloaded c)

/-- In every history of a table, whatever its hash function and its comparison are, the entries are
counted, and there are never more than two for three chains, unless the table has as many chains as
it can have. -/
theorem load_le {minsize : UInt32} (hcreate : create minsize = some h) (cs : List (Call κ α)) :
  (h.calls hashfn eqfn cs).2.entrycount =
      UInt32.ofNat (h.calls hashfn eqfn cs).2.table.flatten.length ∧
    (3 * (h.calls hashfn eqfn cs).2.table.flatten.length ≤
        2 * (h.calls hashfn eqfn cs).2.tablelength.toNat ∨
      (h.calls hashfn eqfn cs).2.tablelength = 1610612741)
  := by
  obtain ⟨hcount, hlimit, hle⟩ := (@loaded_calls _ _ hashfn eqfn h _ hcreate cs).2
  use hcount
  rw [(h.calls hashfn eqfn cs).2.tablelength_eq]
  by_cases hnext : (h.calls hashfn eqfn cs).2.primeindex.val + 1 < primes.length
  · left
    obtain ⟨-, hsmall⟩ := loadlimitOf_lt _ hnext
    rw [← hlimit] at hsmall
    have hentries := hle hnext
    omega
  · right
    have hlast : (h.calls hashfn eqfn cs).2.primeindex = ⟨25, by decide⟩ := by
      apply Fin.ext
      have hlt := (h.calls hashfn eqfn cs).2.primeindex.isLt
      have hprimes : primes.length = 26 := rfl
      dsimp only
      omega
    rw [hlast]
    rfl

theorem load_le_again :
  ∃ h : Hashtable UInt32 Nat, create 16 = some h ∧
    (h.calls id (fun k k' => k = k') [.insert 7 1, .insert 7 2, .remove 7]).2.entrycount =
      UInt32.ofNat (h.calls id (fun k k' => k = k')
        [.insert 7 1, .insert 7 2, .remove 7]).2.table.flatten.length
  := by
  obtain ⟨h, hcreate⟩ : ∃ h : Hashtable UInt32 Nat, create 16 = some h := ⟨_, rfl⟩
  use h, hcreate
  apply (load_le hcreate _).1

end Hashtable

end Zuth
