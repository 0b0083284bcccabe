import UaRateThrottling.Hashtable.Table

/-!
# The calls of a hash table

A table is created, and keys are inserted and removed. A key is inserted only when none of its name
is there. In between the memory behind the keys may change, as long as each keeps its name.

In a history the latest event comes first. It says which value a name has: the one of the last
insertion of a key of that name, unless a removal came after it. `isMap_iff_agree` says that the
table finds these values in every history exactly when hash function and comparison together tell
the keys apart by their names, and only so.
-/

namespace Zuth

namespace Hashtable

/-- What happens to a table. -/
inductive Event (κ α : Type*)
  | insert (k : κ) (v : α)
  | remove (k : κ)
  | overwrite (f : κ → κ)

variable {κ α ν : Type*} [DecidableEq ν]

/-- The value the latest call on a key of the name leaves. -/
def last (name : κ → ν) : List (Event κ α) → ν → Option α
  | [], _ => none
  | .insert k v :: events, n => if name k = n then some v else last name events n
  | .remove k :: events, n => if name k = n then none else last name events n
  | .overwrite _ :: events, n => last name events n

/-- A key is inserted only when none of its name is there, and keeps its name in memory. -/
def Allowed (name : κ → ν) : List (Event κ α) → Prop
  | [] => True
  | .insert k _ :: events => last name events (name k) = none ∧ Allowed name events
  | .remove _ :: events => Allowed name events
  | .overwrite f :: events => (∀ k, name (f k) = name k) ∧ Allowed name events

section

variable (hashfn : κ → UInt32) (eqfn : κ → κ → Bool)

/-- The table after an event. -/
def apply (h : Hashtable κ α) : Event κ α → Hashtable κ α
  | .insert k v => h.insert hashfn k v
  | .remove k => (h.remove hashfn eqfn k).2
  | .overwrite f => h.rekey f

/-- The table after a history. -/
def run (h : Hashtable κ α) (events : List (Event κ α)) : Hashtable κ α :=
  events.foldr (fun event h => h.apply hashfn eqfn event) h

/-- After every history a search finds the value the history leaves for the name of the key. -/
def IsMap (name : κ → ν) (h : Hashtable κ α) : Prop :=
  ∀ events, Allowed name events →
    ∀ k, (h.run hashfn eqfn events).search hashfn eqfn k = last name events (name k)

end

variable {hashfn : κ → UInt32} {eqfn : κ → κ → Bool} {name : κ → ν} {h : Hashtable κ α}

/-- An insertion updates the values a history leaves. -/
theorem last_insert (k : κ) (v : α) (events : List (Event κ α)) :
  last name (.insert k v :: events) = Function.update (last name events) (name k) (some v)
  := by
  funext n
  rw [last, Function.update_apply]
  apply if_congr eq_comm rfl rfl

theorem last_remove (k : κ) (events : List (Event κ α)) :
  last name (.remove k :: events) = Function.update (last name events) (name k) none
  := by
  funext n
  rw [last, Function.update_apply]
  apply if_congr eq_comm rfl rfl

/-- What an event does to a table that holds the values of the history before it. -/
theorem apply_represents (hagree : Agree hashfn eqfn name) {event : Event κ α}
    {events : List (Event κ α)} (hallowed : Allowed name (event :: events))
    (hrep : h.Represents hashfn name (last name events)) :
  (h.apply hashfn eqfn event).Represents hashfn name (last name (event :: events))
  := by
  cases event with
  | insert k v =>
      rw [last_insert]
      apply insert_represents hrep hallowed.1
  | remove k =>
      rw [last_remove]
      exact (remove_represents hagree hrep k).2
  | overwrite f =>
      apply rekey_represents hallowed.1 _ hrep
      intro k
      exact ((hagree (f k) k).mpr (hallowed.1 k)).1

theorem allowed_tail {event : Event κ α} {events : List (Event κ α)}
    (h : Allowed name (event :: events)) :
  Allowed name events
  := by
  cases event with
  | insert k v => exact h.2
  | remove k => exact h
  | overwrite f => exact h.2

/-- A table holds the values of its history. -/
theorem run_represents (hagree : Agree hashfn eqfn name)
    (hrep : h.Represents hashfn name (fun _ => none)) {events : List (Event κ α)}
    (hallowed : Allowed name events) :
  (h.run hashfn eqfn events).Represents hashfn name (last name events)
  := by
  induction events with
  | nil => apply hrep
  | cons event events ih => apply apply_represents hagree hallowed (ih (allowed_tail hallowed))

/-- After a single insertion the key that was inserted is found under exactly the keys that match
it. -/
theorem search_insert_eq_none_iff {minsize : UInt32} (hcreate : create minsize = some h) (k k' : κ)
    (v : α) :
  (h.insert hashfn k' v).search hashfn eqfn k = none ↔
    ¬ (hash hashfn k = hash hashfn k' ∧ eqfn k k')
  := by
  obtain ⟨hfiled, hempty⟩ := @create_spec _ _ hashfn _ _ hcreate
  obtain ⟨hfiled', hperm⟩ := insert_spec hfiled k' v
  rw [hempty] at hperm
  rw [search_eq_none_iff hfiled', List.perm_singleton.mp hperm, List.forall_mem_singleton]
  simp [matching]

/-- A new table is a map on names exactly when hash function and comparison agree with them. -/
theorem isMap_iff_agree [Inhabited α] {minsize : UInt32} (hcreate : create minsize = some h) :
  h.IsMap hashfn eqfn name ↔ Agree hashfn eqfn name
  := by
  constructor
  · intro hmap k k'
    -- the search of one key after the insertion of the other
    have hsearch := hmap [.insert k' default] ⟨rfl, trivial⟩ k
    have hinsert := @search_insert_eq_none_iff _ _ hashfn eqfn _ _ hcreate k k' default
    rw [show h.insert hashfn k' default = h.run hashfn eqfn [.insert k' default] from rfl, hsearch,
      last] at hinsert
    by_cases hname : name k = name k'
    · rw [if_pos hname.symm] at hinsert
      simp only [reduceCtorEq, false_iff, not_not] at hinsert
      exact ⟨fun _ => hname, fun _ => hinsert⟩
    · rw [if_neg (Ne.symm hname), last] at hinsert
      simp only [true_iff] at hinsert
      exact ⟨fun hmatch => absurd hmatch hinsert, fun h => absurd h hname⟩
  · intro hagree events hallowed k
    apply search_eq hagree
    apply run_represents hagree (create_represents hcreate) hallowed

end Hashtable

end Zuth
