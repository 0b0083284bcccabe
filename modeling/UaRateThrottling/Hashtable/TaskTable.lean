import UaRateThrottling.Hashtable.Calls
import UaRateThrottling.CString

/-!
# The task table

The keys of the task table are strings in memory. They are hashed up to the terminator, but compared
as the first bytes of an `unsigned long`, which ends within a long string and behind the terminator
of a short one.

So a short string is not found again when other bytes follow its terminator, and two long strings
are the same to the table when they have their first bytes and the hash value in common.
`taskTableIsMap_iff` says that these are the only ways for the table to fail to be a map on strings.
-/

namespace Zuth

/-- A string in memory, with the bytes behind the terminator that `memcmp` may come to read. -/
structure Key where
  chars : List UInt8
  behind : Vector UInt8 7
  terminated : 0 ∉ chars

namespace Key

/-- The bytes of the memory. -/
def bytes (k : Key) : List UInt8 := k.chars ++ 0 :: k.behind.toList

/-- `zkUA_hash`, with the characters signed. -/
def hash (k : Key) : UInt32 :=
  k.chars.foldl (fun hash c => ((hash <<< 5) + hash) + c.toInt8.toInt32.toUInt32) 5381

/-- `zkUA_equalKeys`, where an `unsigned long` has eight bytes. -/
def equalKeys (k1 k2 : Key) : Bool := k1.bytes.take 8 = k2.bytes.take 8

end Key

/-- `zkUA_initializeTaskHashmap` -/
def initializeTaskHashmap {κ α : Type*} : Option (Hashtable κ α) := Hashtable.create 16

/-- With keys from `K`, the task table is a map on strings. -/
def TaskTableIsMap (K : Set Key) (α : Type*) : Prop :=
  ∃ taskTable : Hashtable K α, initializeTaskHashmap = some taskTable ∧
    taskTable.IsMap (fun k => k.val.hash) (fun k1 k2 => k1.val.equalKeys k2.val)
      (fun k => k.val.chars)

/-- Of two keys with the same string, the bytes compared behind the terminator are the same. Two
keys with different strings that begin with the same eight characters have different hash values in
the table. -/
structure KeysApart (K : Set Key) : Prop where
  behind : ∀ k1 ∈ K, ∀ k2 ∈ K, k1.chars = k2.chars →
    k1.behind.toList.take (7 - k1.chars.length) = k2.behind.toList.take (7 - k2.chars.length)
  hash : ∀ k1 ∈ K, ∀ k2 ∈ K, k1.chars ≠ k2.chars → k1.chars.take 8 = k2.chars.take 8 →
    Hashtable.hash Key.hash k1 ≠ Hashtable.hash Key.hash k2

namespace Key

variable {k1 k2 : Key}

theorem hash_eq_of_chars (h : k1.chars = k2.chars) :
  k1.hash = k2.hash
  := by
  rw [hash, hash, h]

/-- The bytes that are compared, of a string of at least eight characters. -/
theorem take_bytes_of_le (h : 8 ≤ k1.chars.length) :
  k1.bytes.take 8 = k1.chars.take 8
  := List.take_append_of_le_length h

/-- The bytes that are compared, of a shorter string. -/
theorem take_bytes_of_lt (h : k1.chars.length < 8) :
  k1.bytes.take 8 = k1.chars ++ 0 :: k1.behind.toList.take (7 - k1.chars.length)
  := by
  have hsub : 8 - k1.chars.length = (7 - k1.chars.length) + 1 := by omega
  rw [bytes, List.take_append, List.take_of_length_le (by omega), hsub, List.take_succ_cons]

/-- The characters among the bytes that are compared. -/
theorem takeWhile_bytes (k : Key) :
  (k.bytes.take 8).takeWhile (· ≠ 0) = k.chars.take 8
  := by
  by_cases h : 8 ≤ k.chars.length
  · rw [take_bytes_of_le h, takeWhile_ne_zero]
    intro hmem
    apply k.terminated (List.mem_of_mem_take hmem)
  · have hchars : k.chars.take 8 = k.chars := List.take_of_length_le (by omega)
    rw [take_bytes_of_lt (by omega), takeWhile_append k.terminated,
      List.takeWhile_cons_of_neg (by decide), List.append_nil, hchars]

/-- Keys with the same string are compared behind the terminator. -/
theorem equalKeys_iff_of_chars (h : k1.chars = k2.chars) :
  k1.equalKeys k2 ↔
    k1.behind.toList.take (7 - k1.chars.length) = k2.behind.toList.take (7 - k2.chars.length)
  := by
  rw [equalKeys, decide_eq_true_eq]
  by_cases hlength : 8 ≤ k1.chars.length
  · have hsub : 7 - k1.chars.length = 0 := by omega
    rw [take_bytes_of_le hlength, take_bytes_of_le (h ▸ hlength), ← h, hsub]
    simp
  · rw [take_bytes_of_lt (by omega), @take_bytes_of_lt k2 (h ▸ by omega), ← h]
    simp

/-- Keys with different strings are compared in their first eight characters. -/
theorem equalKeys_iff_of_ne (h : k1.chars ≠ k2.chars) :
  k1.equalKeys k2 ↔ k1.chars.take 8 = k2.chars.take 8
  := by
  rw [equalKeys, decide_eq_true_eq]
  constructor
  · intro hbytes
    rw [← takeWhile_bytes, ← takeWhile_bytes, hbytes]
  · intro hchars
    -- a string of less than eight characters would be the other one
    have hlength := congrArg List.length hchars
    rw [List.length_take, List.length_take] at hlength
    by_cases h1 : 8 ≤ k1.chars.length
    · rw [take_bytes_of_le h1, take_bytes_of_le (by omega), hchars]
    · rw [List.take_of_length_le (by omega), List.take_of_length_le (by omega)] at hchars
      exact absurd hchars h

end Key

/-- Hash function and comparison agree with the strings exactly when the keys are apart. -/
theorem agree_iff_keysApart (K : Set Key) :
  Hashtable.Agree (fun k : K => k.val.hash) (fun k1 k2 => k1.val.equalKeys k2.val)
    (fun k => k.val.chars) ↔ KeysApart K
  := by
  constructor
  · intro hagree
    constructor
    · intro k1 h1 k2 h2 hchars
      have hmatch := (hagree ⟨k1, h1⟩ ⟨k2, h2⟩).mpr hchars
      apply (Key.equalKeys_iff_of_chars hchars).mp hmatch.2
    · intro k1 h1 k2 h2 hchars htake hhash
      apply hchars
      apply (hagree ⟨k1, h1⟩ ⟨k2, h2⟩).mp
      exact ⟨hhash, (Key.equalKeys_iff_of_ne hchars).mpr htake⟩
  · rintro hapart ⟨k1, h1⟩ ⟨k2, h2⟩
    by_cases hchars : k1.chars = k2.chars
    · have hequal := (Key.equalKeys_iff_of_chars hchars).mpr (hapart.behind k1 h1 k2 h2 hchars)
      have hhash : Hashtable.hash (fun k : K => k.val.hash) ⟨k1, h1⟩
          = Hashtable.hash (fun k : K => k.val.hash) ⟨k2, h2⟩ := by
        rw [Hashtable.hash, Hashtable.hash, Key.hash_eq_of_chars hchars]
      exact ⟨fun _ => hchars, fun _ => ⟨hhash, hequal⟩⟩
    · constructor
      · rintro ⟨hhash, hequal⟩
        have htake := (Key.equalKeys_iff_of_ne hchars).mp hequal
        exact absurd hhash (hapart.hash k1 h1 k2 h2 hchars htake)
      · intro h
        exact absurd h hchars

/-- The task table is a map on strings exactly when its keys are apart. -/
theorem taskTableIsMap_iff (K : Set Key) (α : Type*) [Inhabited α] :
  TaskTableIsMap K α ↔ KeysApart K
  := by
  rw [← agree_iff_keysApart]
  obtain ⟨taskTable, hcreate⟩ : ∃ taskTable : Hashtable K α,
      initializeTaskHashmap = some taskTable := ⟨_, rfl⟩
  constructor
  · rintro ⟨taskTable', hcreate', hmap⟩
    apply (Hashtable.isMap_iff_agree hcreate').mp hmap
  · intro hagree
    exact ⟨taskTable, hcreate, (Hashtable.isMap_iff_agree hcreate).mpr hagree⟩

/-- A string that other bytes follow is not found, and of two strings of which none is the other the
second is found where the first was inserted. -/
theorem not_taskTableIsMap :
  ¬ TaskTableIsMap
      {⟨ascii "a", Vector.replicate 7 0, by decide⟩, ⟨ascii "a", Vector.replicate 7 1, by decide⟩}
      Nat ∧
    ¬ TaskTableIsMap
      {⟨ascii "/Servers/ab", Vector.replicate 7 0, by decide⟩,
        ⟨ascii "/Servers/bA", Vector.replicate 7 0, by decide⟩}
      Nat
  := by
  constructor
  · rintro ⟨taskTable, hcreate, hmap⟩
    obtain rfl := Option.some.inj hcreate
    have hsearch := hmap [.insert ⟨_, Or.inl rfl⟩ 1] ⟨rfl, trivial⟩ ⟨_, Or.inr rfl⟩
    revert hsearch
    decide
  · rintro ⟨taskTable, hcreate, hmap⟩
    obtain rfl := Option.some.inj hcreate
    have hsearch := hmap [.insert ⟨_, Or.inl rfl⟩ 1] ⟨rfl, trivial⟩ ⟨_, Or.inr rfl⟩
    revert hsearch
    decide

end Zuth
