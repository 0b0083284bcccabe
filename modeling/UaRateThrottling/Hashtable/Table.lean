import UaRateThrottling.Hashtable.Chains

/-!
# The hash table

A table of chained entries with a prime number of chains. Keys are compared by the hash value
that is stored with an entry and then by the comparison the table was created with. The table
grows to the next prime when it holds more entries than its load limit, and then carries its
entries over to the new chains. Allocation succeeds.

When hash function and comparison together tell keys apart by their names, and only so, the table
is a partial function on names: `search` is its application, `insert` and `remove` update it, and
`expand` leaves it as it is.
-/

namespace Zuth

/-- `primes` -/
def primes : List UInt32 :=
  [53, 97, 193, 389,
   769, 1543, 3079, 6151,
   12289, 24593, 49157, 98317,
   196613, 393241, 786433, 1572869,
   3145739, 6291469, 12582917, 25165843,
   50331653, 100663319, 201326611, 402653189,
   805306457, 1610612741]

/-- `struct entry`, without the link to the next one. -/
structure Entry (κ α : Type*) where
  k : κ
  v : α
  h : UInt32

/-- `struct hashtable`, without the two functions it is created with. -/
structure Hashtable (κ α : Type*) where
  tablelength : UInt32
  table : List (List (Entry κ α))
  entrycount : UInt32
  loadlimit : UInt32
  primeindex : Fin primes.length
  tablelength_eq : tablelength = primes[primeindex]
  length_table : table.length = tablelength.toNat

namespace Hashtable

variable {κ α ν : Type*}

/-! ### The load limit -/

/-- A number in single precision: its first 24 binary digits, rounded to the nearest, and to the
even one of two that are as near. -/
def roundSingle (n : Nat) : Nat :=
  let d := 2 ^ (n.log2 + 1 - 24)
  if 2 * (n % d) < d ∨ 2 * (n % d) = d ∧ n / d % 2 = 0 then n / d * d else (n / d + 1) * d

/-- `max_load_factor`, which in single precision is this number of `2 ^ 24`-th parts. -/
def maxLoadFactor : Nat := 10905190

/-- `ceil(size * max_load_factor)`, the product taken in single precision. -/
def loadlimitOf (size : UInt32) : UInt32 :=
  UInt32.ofNat ((roundSingle (roundSingle size.toNat * maxLoadFactor) + (2 ^ 24 - 1)) / 2 ^ 24)

/-! ### The functions of the table -/

/-- `indexFor` -/
def indexFor (tablelength hashvalue : UInt32) : UInt32 := hashvalue % tablelength

/-- The chain of an entry. -/
def place (tablelength : UInt32) (e : Entry κ α) : Nat := (indexFor tablelength e.h).toNat

/-- `hash` -/
def hash (hashfn : κ → UInt32) (k : κ) : UInt32 :=
  let i := hashfn k
  let i := i + ~~~(i <<< 9)
  let i := i ^^^ ((i >>> 14) ||| (i <<< 18))
  let i := i + (i <<< 4)
  i ^^^ ((i >>> 10) ||| (i <<< 22))

/-- Up to `2 ^ 30` there is a greater prime. -/
theorem findIdx_primes_lt {minsize : UInt32} (h : ¬ minsize > (1 : UInt32) <<< (30 : UInt32)) :
  primes.findIdx (fun p => p > minsize) < primes.length
  := by
  apply List.findIdx_lt_length_of_exists
  use 1610612741
  constructor
  · simp [primes]
  · have hshift : ((1 : UInt32) <<< (30 : UInt32)).toNat = 1073741824 := by decide
    rw [gt_iff_lt, UInt32.lt_iff_toNat_lt, hshift] at h
    rw [decide_eq_true_eq, gt_iff_lt, UInt32.lt_iff_toNat_lt]
    apply lt_of_le_of_lt (Nat.le_of_not_lt h)
    decide

/-- `create_hashtable` -/
def create (minsize : UInt32) : Option (Hashtable κ α) :=
  if h : minsize > (1 : UInt32) <<< (30 : UInt32) then none
  else
    let primeindex : Fin primes.length := ⟨_, findIdx_primes_lt h⟩
    some
      { tablelength := primes[primeindex]
        table := List.replicate primes[primeindex].toNat []
        entrycount := 0
        loadlimit := loadlimitOf primes[primeindex]
        primeindex := primeindex
        tablelength_eq := rfl
        length_table := List.length_replicate }

theorem tablelength_pos (i : Fin primes.length) :
  0 < primes[i].toNat
  := by
  revert i
  decide

theorem place_lt (i : Fin primes.length) (e : Entry κ α) :
  place primes[i] e < primes[i].toNat
  := by
  rw [place, indexFor, UInt32.toNat_mod]
  apply Nat.mod_lt _ (tablelength_pos i)

/-- The new table of `hashtable_expand`: the entries are taken out of the old chains, and each one
becomes the first of its new chain. -/
def rehash (newsize : UInt32) (table : List (List (Entry κ α))) : List (List (Entry κ α)) :=
  Chains.transfer (place newsize) table (List.replicate newsize.toNat [])

theorem rehash_spec (i : Fin primes.length) (table : List (List (Entry κ α))) :
  (rehash primes[i] table).length = primes[i].toNat ∧
    Chains.Placed (place primes[i]) (rehash primes[i] table) ∧
    ((rehash primes[i] table).flatten).Perm table.flatten
  := by
  have hplaced := Chains.placed_replicate (place (κ := κ) (α := α) primes[i]) primes[i].toNat
  obtain ⟨hlength, hplaced, hperm⟩ := Chains.transfer_spec table hplaced (by
    intro e
    rw [List.length_replicate]
    apply place_lt)
  rw [List.length_replicate] at hlength
  rw [List.flatten_replicate_nil, List.append_nil] at hperm
  exact ⟨hlength, hplaced, hperm⟩

/-- `hashtable_expand`, which does nothing at the last prime. -/
def expand (h : Hashtable κ α) : Hashtable κ α :=
  if hindex : h.primeindex.val + 1 < primes.length then
    let primeindex : Fin primes.length := ⟨h.primeindex.val + 1, hindex⟩
    { tablelength := primes[primeindex]
      table := rehash primes[primeindex] h.table
      entrycount := h.entrycount
      loadlimit := loadlimitOf primes[primeindex]
      primeindex := primeindex
      tablelength_eq := rfl
      length_table := (rehash_spec primeindex h.table).1 }
  else h

/-- The entry as the first one of its chain. -/
def enter (h : Hashtable κ α) (e : Entry κ α) : Hashtable κ α :=
  { h with
    table := Chains.push (place h.tablelength) h.table e
    length_table := (Chains.length_push ..).trans h.length_table }

section

variable (hashfn : κ → UInt32) (eqfn : κ → κ → Bool)

/-- `hashtable_insert` -/
def insert (h : Hashtable κ α) (k : κ) (v : α) : Hashtable κ α :=
  let h := { h with entrycount := h.entrycount + 1 }
  let h := if h.entrycount > h.loadlimit then h.expand else h
  h.enter { k := k, v := v, h := hash hashfn k }

/-- The comparison of a search with an entry, its hash value first. -/
def matching (k : κ) (e : Entry κ α) : Bool := hash hashfn k = e.h && eqfn k e.k

/-- The chain a key is looked for in. -/
def index (h : Hashtable κ α) (k : κ) : Nat := (indexFor h.tablelength (hash hashfn k)).toNat

/-- `hashtable_search`, with `none` for `NULL`. -/
def search (h : Hashtable κ α) (k : κ) : Option α :=
  ((Chains.chain h.table (h.index hashfn k)).find? (matching hashfn eqfn k)).map Entry.v

/-- `hashtable_remove`, with the value it returns. -/
def remove (h : Hashtable κ α) (k : κ) : Option α × Hashtable κ α :=
  match (Chains.chain h.table (h.index hashfn k)).find? (matching hashfn eqfn k) with
  | none => (none, h)
  | some e =>
      (some e.v,
        { h with
          table := h.table.modify (h.index hashfn k) (·.eraseP (matching hashfn eqfn k))
          entrycount := h.entrycount - 1
          length_table := (List.length_modify ..).trans h.length_table })

end

/-- The table after a change of the memory its keys point to. -/
def rekey (f : κ → κ) (h : Hashtable κ α) : Hashtable κ α :=
  { h with
    table := h.table.map (List.map (fun e => { e with k := f e.k }))
    length_table := (List.length_map ..).trans h.length_table }

/-! ### The entries of a table -/

/-- The entries are stored with the hash values of their keys, in the chains that go with them. -/
structure Filed (hashfn : κ → UInt32) (h : Hashtable κ α) : Prop where
  placed : Chains.Placed (place h.tablelength) h.table
  hashed : ∀ e ∈ h.table.flatten, e.h = hash hashfn e.k

variable {hashfn : κ → UInt32} {eqfn : κ → κ → Bool} {name : κ → ν} {h : Hashtable κ α}
  {content : ν → Option α}

theorem place_lt_length (h : Hashtable κ α) (e : Entry κ α) :
  place h.tablelength e < h.table.length
  := by
  rw [h.length_table, h.tablelength_eq]
  apply place_lt

theorem create_spec {minsize : UInt32} (hcreate : create minsize = some h) :
  h.Filed hashfn ∧ h.table.flatten = []
  := by
  rw [create] at hcreate
  split at hcreate
  · cases hcreate
  · obtain rfl := Option.some.inj hcreate
    constructor
    · constructor
      · apply Chains.placed_replicate
      · simp
    · apply List.flatten_replicate_nil

/-- A table that grows keeps its entries. -/
theorem expand_spec (hfiled : h.Filed hashfn) :
  h.expand.Filed hashfn ∧ (h.expand.table.flatten).Perm h.table.flatten
  := by
  rw [expand]
  split
  · rename_i hindex
    obtain ⟨-, hplaced, hperm⟩ := rehash_spec ⟨h.primeindex.val + 1, hindex⟩ h.table
    constructor
    · use hplaced
      intro e he
      apply hfiled.hashed e (hperm.mem_iff.mp he)
    · apply hperm
  · exact ⟨hfiled, List.Perm.refl _⟩

theorem enter_spec (hfiled : h.Filed hashfn) {e : Entry κ α} (he : e.h = hash hashfn e.k) :
  (h.enter e).Filed hashfn ∧ ((h.enter e).table.flatten).Perm (e :: h.table.flatten)
  := by
  have hperm := Chains.flatten_push (place_lt_length h e)
  constructor
  · use hfiled.placed.push (place_lt_length h e)
    intro e' he'
    rcases List.mem_cons.mp (hperm.mem_iff.mp he') with rfl | he'
    · apply he
    · apply hfiled.hashed e' he'
  · apply hperm

/-- An insertion adds one entry, whether the table grows or not. -/
theorem insert_spec (hfiled : h.Filed hashfn) (k : κ) (v : α) :
  (h.insert hashfn k v).Filed hashfn ∧
    ((h.insert hashfn k v).table.flatten).Perm (⟨k, v, hash hashfn k⟩ :: h.table.flatten)
  := by
  have hcount : ({ h with entrycount := h.entrycount + 1 } : Hashtable κ α).Filed hashfn :=
    ⟨hfiled.placed, hfiled.hashed⟩
  rw [insert]
  split
  · obtain ⟨hexpand, hperm⟩ := expand_spec hcount
    obtain ⟨henter, hperm'⟩ := enter_spec hexpand (e := ⟨k, v, hash hashfn k⟩) rfl
    exact ⟨henter, hperm'.trans (hperm.cons _)⟩
  · apply enter_spec hcount rfl

/-- A search that finds nothing has no entry to find. -/
theorem find?_matching_eq_none (hfiled : h.Filed hashfn) {k : κ}
    (hnone : (Chains.chain h.table (h.index hashfn k)).find? (matching hashfn eqfn k) = none) :
  ∀ e ∈ h.table.flatten, matching hashfn eqfn k e = false
  := by
  intro e he
  rw [Bool.eq_false_iff]
  intro hmatch
  -- a matching entry is in the chain that is looked through
  have hhash := hmatch
  rw [matching, Bool.and_eq_true, decide_eq_true_eq] at hhash
  have hchain := hfiled.placed.mem_flatten.mp he
  rw [place, ← hhash.1] at hchain
  apply List.find?_eq_none.mp hnone e hchain hmatch

/-- A search returns `NULL` exactly when no entry matches the key. -/
theorem search_eq_none_iff (hfiled : h.Filed hashfn) (k : κ) :
  h.search hashfn eqfn k = none ↔ ∀ e ∈ h.table.flatten, matching hashfn eqfn k e = false
  := by
  rw [search, Option.map_eq_none_iff]
  constructor
  · apply find?_matching_eq_none hfiled
  · intro h
    rw [List.find?_eq_none]
    intro e he
    rw [h e (Chains.mem_flatten.mpr ⟨_, he⟩)]
    decide

/-! ### The map of a table -/

/-- The table holds the entries of a partial function on names. -/
structure Represents (hashfn : κ → UInt32) (name : κ → ν) (h : Hashtable κ α)
    (content : ν → Option α) : Prop where
  filed : h.Filed hashfn
  lists : Chains.Lists (fun e => name e.k) Entry.v h.table.flatten content

/-- Hash function and comparison tell keys apart by their names, and only so. -/
def Agree (hashfn : κ → UInt32) (eqfn : κ → κ → Bool) (name : κ → ν) : Prop :=
  ∀ k k', (hash hashfn k = hash hashfn k' ∧ eqfn k k') ↔ name k = name k'

theorem create_represents {minsize : UInt32} (hcreate : create minsize = some h) :
  h.Represents hashfn name (fun _ => none)
  := by
  obtain ⟨hfiled, hempty⟩ := @create_spec _ _ hashfn _ _ hcreate
  use hfiled
  rw [hempty]
  apply Chains.lists_nil

/-- An insertion is an update, when no key of the name is there. -/
theorem insert_represents [DecidableEq ν] (hrep : h.Represents hashfn name content) {k : κ}
    (hk : content (name k) = none) (v : α) :
  (h.insert hashfn k v).Represents hashfn name (Function.update content (name k) (some v))
  := by
  obtain ⟨hfiled, hperm⟩ := insert_spec hrep.filed k v
  have hlists := hrep.lists.cons (e := ⟨k, v, hash hashfn k⟩) hk
  exact ⟨hfiled, hlists.perm hperm⟩

/-- Where hash function and comparison agree with the names, an entry matches the keys of its
name. -/
theorem matching_iff (hagree : Agree hashfn eqfn name) (hfiled : h.Filed hashfn) {e : Entry κ α}
    (he : e ∈ h.table.flatten) (k : κ) :
  matching hashfn eqfn k e = true ↔ name e.k = name k
  := by
  rw [matching, Bool.and_eq_true, decide_eq_true_eq, hfiled.hashed e he, hagree k e.k]
  exact eq_comm

/-- The entry that is found has the name of the key, and the value of the name. -/
theorem find?_matching (hagree : Agree hashfn eqfn name) (hrep : h.Represents hashfn name content)
    {k : κ} {e : Entry κ α}
    (he : (Chains.chain h.table (h.index hashfn k)).find? (matching hashfn eqfn k) = some e) :
  name e.k = name k ∧ content (name k) = some e.v
  := by
  have hmem : e ∈ h.table.flatten := Chains.mem_flatten.mpr ⟨_, List.mem_of_find?_eq_some he⟩
  have hname := (matching_iff hagree hrep.filed hmem k).mp (List.find?_some he)
  use hname
  rw [hrep.lists.eq_some_iff]
  exact ⟨e, hmem, hname, rfl⟩

/-- When none is found, the name has no value. -/
theorem eq_none_of_find? (hagree : Agree hashfn eqfn name)
    (hrep : h.Represents hashfn name content) {k : κ}
    (hnone : (Chains.chain h.table (h.index hashfn k)).find? (matching hashfn eqfn k) = none) :
  content (name k) = none
  := by
  rw [hrep.lists.eq_none_iff]
  intro e he hname
  have hmatch := find?_matching_eq_none hrep.filed hnone e he
  rw [(matching_iff hagree hrep.filed he k).mpr hname] at hmatch
  cases hmatch

/-- A search is an application. -/
theorem search_eq (hagree : Agree hashfn eqfn name) (hrep : h.Represents hashfn name content)
    (k : κ) :
  h.search hashfn eqfn k = content (name k)
  := by
  rw [search]
  cases hfind : (Chains.chain h.table (h.index hashfn k)).find? (matching hashfn eqfn k) with
  | none => exact (eq_none_of_find? hagree hrep hfind).symm
  | some e => exact (find?_matching hagree hrep hfind).2.symm

/-- A removal returns the value of the name and takes it away. -/
theorem remove_represents [DecidableEq ν] (hagree : Agree hashfn eqfn name)
    (hrep : h.Represents hashfn name content) (k : κ) :
  (h.remove hashfn eqfn k).1 = content (name k) ∧
    (h.remove hashfn eqfn k).2.Represents hashfn name
      (Function.update content (name k) none)
  := by
  rw [remove]
  cases hfind : (Chains.chain h.table (h.index hashfn k)).find? (matching hashfn eqfn k) with
  | none =>
      have hnone := eq_none_of_find? hagree hrep hfind
      rw [← hnone, Function.update_eq_self]
      exact ⟨rfl, hrep⟩
  | some e =>
      obtain ⟨hname, hvalue⟩ := find?_matching hagree hrep hfind
      have hperm := Chains.flatten_eraseP hfind
      use hvalue.symm
      constructor
      · constructor
        · apply hrep.filed.placed.eraseP
        · intro e' he'
          apply hrep.filed.hashed e' (hperm.mem_iff.mpr (List.mem_cons_of_mem e he'))
      · rw [← hname]
        apply (hrep.lists.perm hperm.symm).of_cons

/-- Keys may be replaced by others of the same name and the same hash value. -/
theorem rekey_represents {f : κ → κ} (hname : ∀ k, name (f k) = name k)
    (hhash : ∀ k, hash hashfn (f k) = hash hashfn k) (hrep : h.Represents hashfn name content) :
  (h.rekey f).Represents hashfn name content
  := by
  have hflatten : (h.rekey f).table.flatten
      = h.table.flatten.map (fun e => { e with k := f e.k }) := by
    rw [rekey, List.map_flatten]
  constructor
  · constructor
    · apply hrep.filed.placed.map
      intro e
      rfl
    · intro e he
      rw [hflatten] at he
      obtain ⟨e', he', rfl⟩ := List.mem_map.mp he
      rw [hrep.filed.hashed e' he', hhash]
  · rw [hflatten]
    apply hrep.lists.map
    · intro e
      apply hname
    · intro e
      rfl

end Hashtable

end Zuth
