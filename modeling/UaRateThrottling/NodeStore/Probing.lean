import UaRateThrottling.Binary.DataType
import UaRateThrottling.LittleEndian
import UaRateThrottling.OpenAddressing
import UaRateThrottling.TrialDivision

/-!
# Node ids and their places in the node store

The size of the node store is a prime.  The hash value of a node id gives the place where a search
for the id starts, and the length of the steps it goes round the table with.  Since the size is a
prime, the search comes by each place.

`UA_NodeId_equal` takes a missing string for an empty one, and so does `UA_NodeId_hash`.  An id is
brought to the form with the empty string by `normal`.
-/

namespace UA

namespace NodeStore

/-! ### Node ids -/

/-- `UA_NodeId_isNull` -/
def isNull (p : Binary.NodeId) : Bool :=
  if p.namespaceIndex ≠ 0 then false
  else
    match p.identifier with
    | .numeric n => n = 0
    | .guid g => g = ⟨0, 0, 0, Vector.replicate 8 0⟩
    | .string s | .byteString s => (s.getD []).length = 0

/-- `UA_NodeId_equal` -/
def nodeIdEqual (n1 n2 : Binary.NodeId) : Bool :=
  if n1.namespaceIndex ≠ n2.namespaceIndex then false
  else
    match n1.identifier, n2.identifier with
    | .numeric n, .numeric n' => n = n'
    | .string s, .string s' => s.getD [] = s'.getD []
    | .guid g, .guid g' => g = g'
    | .byteString s, .byteString s' => s.getD [] = s'.getD []
    | _, _ => false

/-- The id with an empty string in place of a missing one. -/
def normal (n : Binary.NodeId) : Binary.NodeId :=
  { n with
    identifier :=
      match n.identifier with
      | .string s => .string (some (s.getD []))
      | .byteString s => .byteString (some (s.getD []))
      | identifier => identifier }

theorem nodeIdEqual_iff {n1 n2 : Binary.NodeId} :
  nodeIdEqual n1 n2 ↔ normal n1 = normal n2
  := by
  obtain ⟨namespace1, identifier1⟩ := n1
  obtain ⟨namespace2, identifier2⟩ := n2
  by_cases h : namespace1 = namespace2
  · subst h
    cases identifier1 <;> cases identifier2 <;> simp [nodeIdEqual, normal]
  · simp [nodeIdEqual, normal, h]

/-- `fnv32` -/
def fnv32 (fnv : UInt32) (buf : List UInt8) : UInt32 :=
  buf.foldl (fun fnv b => (fnv ^^^ b.toUInt32) * 16777619) fnv

/-- The memory of a `UA_Guid`. -/
def guidBytes (g : Zuth.Guid) : List UInt8 :=
  LittleEndian.encode 4 g.data1.toNat ++ LittleEndian.encode 2 g.data2.toNat ++
    LittleEndian.encode 2 g.data3.toNat ++ g.data4.toList

/-- `UA_NodeId_hash` -/
def hash (n : Binary.NodeId) : UInt32 :=
  match n.identifier with
  | .numeric numeric => n.namespaceIndex.toUInt32 + numeric * 2654435761
  | .string s | .byteString s => fnv32 n.namespaceIndex.toUInt32 (s.getD [])
  | .guid g => fnv32 n.namespaceIndex.toUInt32 (guidBytes g)

theorem hash_normal (n : Binary.NodeId) :
  hash (normal n) = hash n
  := by
  obtain ⟨namespaceIndex, identifier⟩ := n
  cases identifier <;> rfl

/-! ### Sizes -/

/-- `primes` -/
def primes : List UInt32 :=
  [7,         13,         31,         61,         127,        251,
   509,       1021,       2039,       4093,       8191,       16381,
   32749,     65521,      131071,     262139,     524287,     1048573,
   2097143,   4194301,    8388593,    16777213,   33554393,   67108859,
   134217689, 268435399,  536870909,  1073741789, 2147483647, 4294967291]

/-- `mod` -/
def mod (h size : UInt32) : UInt32 := h % size

/-- `mod2` -/
def mod2 (h size : UInt32) : UInt32 := 1 + h % (size - 2)

/-- The search of `higher_prime_index` between two indices, for so many steps at most. -/
def higherPrimeIndexFrom (n : UInt32) : Nat → Nat → Nat → Nat
  | 0, low, _ => low
  | fuel + 1, low, high =>
    if low = high then low
    else
      let mid := low + (high - low) / 2
      if n > primes[mid]! then higherPrimeIndexFrom n fuel (mid + 1) high
      else higherPrimeIndexFrom n fuel low mid

/-- `higher_prime_index`, the number of primes for `n` above them all. -/
def higherPrimeIndex (n : UInt32) : Nat :=
  higherPrimeIndexFrom n primes.length 0 primes.length

theorem primes_sorted {i j : Nat} (hle : i ≤ j) (hj : j < primes.length) :
  primes[i]! ≤ primes[j]!
  := by
  have hall : ∀ j < primes.length, ∀ i ≤ j, primes[i]! ≤ primes[j]! := by decide +kernel
  exact hall j hj i hle

theorem higherPrimeIndexFrom_spec {n : UInt32} {fuel low high : Nat} (hfuel : high - low ≤ fuel)
    (hle : low ≤ high) (hhigh : high ≤ primes.length) (hlow : ∀ i < low, primes[i]! < n)
    (hend : high < primes.length → n ≤ primes[high]!) :
  (∀ i < higherPrimeIndexFrom n fuel low high, primes[i]! < n) ∧
    (higherPrimeIndexFrom n fuel low high < primes.length →
      n ≤ primes[higherPrimeIndexFrom n fuel low high]!)
  := by
  induction fuel generalizing low high with
  | zero =>
      obtain rfl : low = high := by omega
      exact ⟨hlow, hend⟩
  | succ fuel ih =>
      rw [higherPrimeIndexFrom]
      by_cases heq : low = high
      · rw [if_pos heq]
        subst heq
        exact ⟨hlow, hend⟩
      · rw [if_neg heq]
        have hmid : low + (high - low) / 2 < high := by omega
        by_cases hgt : n > primes[low + (high - low) / 2]!
        · simp only [if_pos hgt]
          apply ih (by omega) (by omega) hhigh
          · intro i hi
            have hle := primes_sorted (Nat.le_of_lt_succ hi) (by omega)
            rw [UInt32.le_iff_toNat_le] at hle
            rw [gt_iff_lt, UInt32.lt_iff_toNat_lt] at hgt
            rw [UInt32.lt_iff_toNat_lt]
            omega
          · exact hend
        · simp only [if_neg hgt]
          apply ih (by omega) (by omega) (by omega) hlow
          intro _
          exact UInt32.not_lt.mp hgt

/-- The index found is that of the first prime that is not below the number. -/
theorem higherPrimeIndex_spec (n : UInt32) :
  (∀ i < higherPrimeIndex n, primes[i]! < n) ∧
    (higherPrimeIndex n < primes.length → n ≤ primes[higherPrimeIndex n]!)
  := by
  apply higherPrimeIndexFrom_spec
  · omega
  · omega
  · rfl
  · intro i hi
    omega
  · intro h
    exact absurd h (lt_irrefl _)

/-- The sizes of tables that are not too large for the arithmetic of the store. -/
def IsSize (size : UInt32) : Prop := size ∈ primes.take 28

theorem IsSize.prime {size : UInt32} (h : IsSize size) :
  size.toNat.Prime
  := by
  simp only [IsSize, primes, List.take_succ_cons, List.take_zero, List.mem_cons, List.not_mem_nil,
    or_false] at h
  rcases h with rfl | rfl | rfl | rfl | rfl | rfl | rfl | rfl | rfl | rfl | rfl | rfl | rfl | rfl |
    rfl | rfl | rfl | rfl | rfl | rfl | rfl | rfl | rfl | rfl | rfl | rfl | rfl | rfl
  all_goals
    apply TrialDivision.prime_of_isPrime 16400
    simp only [UInt32.reduceToNat]
    decide +kernel

theorem IsSize.bounds {size : UInt32} (h : IsSize size) :
  7 ≤ size.toNat ∧ size.toNat ≤ 1073741789
  := by
  obtain ⟨i, hi, rfl⟩ := List.mem_take_iff_getElem.mp h
  rw [Nat.lt_min] at hi
  have hlow := primes_sorted (Nat.zero_le i) hi.2
  have hhigh := primes_sorted (Nat.le_of_lt_succ hi.1) (by decide)
  rw [getElem!_pos primes i hi.2, UInt32.le_iff_toNat_le] at hlow hhigh
  have hfirst : (primes[0]!).toNat = 7 := by decide
  have hlast : (primes[27]!).toNat = 1073741789 := by decide
  omega

/-- Up to `2 ^ 30` there is a size that is not less. -/
theorem exists_size {n : UInt32} (h : n.toNat ≤ 1073741789) :
  ∃ size, primes[higherPrimeIndex n]? = some size ∧ IsSize size ∧ n.toNat ≤ size.toNat
  := by
  obtain ⟨hbelow, habove⟩ := higherPrimeIndex_spec n
  have hindex : higherPrimeIndex n < 28 := by
    by_contra hge
    have hlast := hbelow 27 (by omega)
    rw [UInt32.lt_iff_toNat_lt] at hlast
    have hvalue : (primes[27]!).toNat = 1073741789 := by decide
    omega
  have hlength : higherPrimeIndex n < primes.length := lt_trans hindex (by decide)
  use primes[higherPrimeIndex n]
  constructor
  · exact List.getElem?_eq_getElem hlength
  · constructor
    · rw [IsSize, List.mem_take_iff_getElem]
      exact ⟨higherPrimeIndex n, by simpa [primes] using hindex, rfl⟩
    · have hle := habove hlength
      rw [getElem!_pos primes _ hlength, UInt32.le_iff_toNat_le] at hle
      exact hle

/-! ### The way round the table -/

/-- A step of `findNode` and `findSlot`. -/
def next (size hash2 idx : UInt32) : UInt32 :=
  let idx := idx + hash2
  if idx ≥ size then idx - size else idx

/-- The places a search for the id comes by on its way round the table. -/
def path (size : UInt32) (nodeid : Binary.NodeId) : List Nat :=
  let h := hash nodeid
  (List.range size.toNat).map (fun t => ((next size (mod2 h size))^[t] (mod h size)).toNat)

namespace IsSize

variable {size : UInt32}

theorem mod_lt (h : IsSize size) (hashvalue : UInt32) :
  (mod hashvalue size).toNat < size.toNat
  := by
  rw [mod, UInt32.toNat_mod]
  apply Nat.mod_lt _ h.prime.pos

theorem mod2_bounds (h : IsSize size) (hashvalue : UInt32) :
  0 < (mod2 hashvalue size).toNat ∧ (mod2 hashvalue size).toNat < size.toNat
  := by
  obtain ⟨hlow, hhigh⟩ := h.bounds
  have htwo : (size - 2).toNat = size.toNat - 2 := by
    rw [UInt32.toNat_sub_of_le]
    · rfl
    · rw [UInt32.le_iff_toNat_le]
      apply le_trans _ hlow
      decide
  have hlt : hashvalue.toNat % (size.toNat - 2) < size.toNat - 2 := Nat.mod_lt _ (by omega)
  rw [mod2, UInt32.toNat_add, UInt32.toNat_mod, htwo, UInt32.toNat_one, Nat.mod_eq_of_lt (by omega)]
  omega

theorem toNat_next (h : IsSize size) {hash2 idx : UInt32} (hhash2 : hash2.toNat < size.toNat)
    (hidx : idx.toNat < size.toNat) :
  (next size hash2 idx).toNat = (idx.toNat + hash2.toNat) % size.toNat
  := by
  obtain ⟨hlow, hhigh⟩ := h.bounds
  have hsum : (idx + hash2).toNat = idx.toNat + hash2.toNat := by
    rw [UInt32.toNat_add, Nat.mod_eq_of_lt (by omega)]
  rw [next]
  by_cases hge : idx + hash2 ≥ size
  · simp only [if_pos hge]
    rw [ge_iff_le, UInt32.le_iff_toNat_le, hsum] at hge
    rw [UInt32.toNat_sub_of_le _ _ (by rw [UInt32.le_iff_toNat_le, hsum]; exact hge), hsum,
      Nat.mod_eq_sub_mod hge, Nat.mod_eq_of_lt (by omega)]
  · simp only [if_neg hge]
    rw [ge_iff_le, UInt32.le_iff_toNat_le, hsum] at hge
    rw [hsum, Nat.mod_eq_of_lt (by omega)]

/-- So many steps, taken at once. -/
theorem toNat_iterate (h : IsSize size) {hash2 idx : UInt32} (hhash2 : hash2.toNat < size.toNat)
    (hidx : idx.toNat < size.toNat) (t : Nat) :
  ((next size hash2)^[t] idx).toNat = (idx.toNat + t * hash2.toNat) % size.toNat
  := by
  induction t with
  | zero => rw [Nat.zero_mul, Nat.add_zero, Nat.mod_eq_of_lt hidx, Function.iterate_zero_apply]
  | succ t ih =>
      have hlt : ((next size hash2)^[t] idx).toNat < size.toNat := by
        rw [ih]
        apply Nat.mod_lt _ h.prime.pos
      rw [Function.iterate_succ_apply', h.toNat_next hhash2 hlt, ih, Nat.mod_add_mod, Nat.add_assoc,
        Nat.succ_mul]

/-- After `size` steps one is back. -/
theorem iterate_size (h : IsSize size) {hash2 idx : UInt32} (hhash2 : hash2.toNat < size.toNat)
    (hidx : idx.toNat < size.toNat) :
  (next size hash2)^[size.toNat] idx = idx
  := by
  apply UInt32.toNat_inj.mp
  rw [h.toNat_iterate hhash2 hidx, Nat.add_mul_mod_self_left, Nat.mod_eq_of_lt hidx]

/-- One comes by each place. -/
theorem exists_iterate (h : IsSize size) {hash2 idx : UInt32} (hpos : 0 < hash2.toNat)
    (hhash2 : hash2.toNat < size.toNat) (hidx : idx.toNat < size.toNat) {i : Nat}
    (hi : i < size.toNat) :
  ∃ t < size.toNat, ((next size hash2)^[t] idx).toNat = i
  := by
  obtain ⟨t, ht, heq⟩ := OpenAddressing.exists_steps h.prime hpos hhash2 idx.toNat hi
  use t, ht
  rw [h.toNat_iterate hhash2 hidx, heq]

/-- A search comes by each place. -/
theorem covers (h : IsSize size) :
  OpenAddressing.Covers (path size) size.toNat
  := by
  intro nodeid i
  obtain ⟨hpos, hlt⟩ := h.mod2_bounds (hash nodeid)
  have hidx := h.mod_lt (hash nodeid)
  rw [path, List.mem_map]
  constructor
  · rintro ⟨t, -, rfl⟩
    rw [h.toNat_iterate hlt hidx]
    apply Nat.mod_lt _ h.prime.pos
  · intro hi
    obtain ⟨t, ht, heq⟩ := h.exists_iterate hpos hlt hidx hi
    exact ⟨t, List.mem_range.mpr ht, heq⟩

end IsSize

end NodeStore

end UA
