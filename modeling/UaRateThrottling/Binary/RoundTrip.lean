import UaRateThrottling.Binary.Decode

/-!
# Values are read back

`HasType` says which values of a type come back as they are.  They are what a program makes of the
type, short of some things that the encoding cannot tell apart or that the decoder changes:

* the namespace URI of an expanded node id that is not `NULL` but empty is not encoded, and where
  there is a URI, the decoder drops the namespace index;
* an extension object with an encoded body of a known type is decoded;
* a variant with an array of structures becomes one with an array of extension objects, and a
  variant with an extension object of a known type one with its content;
* the decoder rejects an array when the elements take up more than 32 times as much space in memory
  as there are bytes left, which there may be for elements that are mostly empty;
* a diagnostic info with an inner status code or an inner diagnostic info is misread
  (`decode_diagnosticInfo_iff`).

`decodeBinary_encodeBinary` is for such values.
-/

namespace UA

namespace Binary

open Json (Parser)
open Codec

/-! ### Values that come back -/

/-- The length of a string can be encoded. -/
def Short (s : Option (List UInt8)) : Prop := ∀ t ∈ s, t.length ≤ int32Max

/-- The identifier can be encoded. -/
def NodeId.Short (id : NodeId) : Prop :=
  match id.identifier with
  | .string s => Binary.Short s
  | .byteString s => Binary.Short s
  | _ => True

/-- The encoded body comes back: it is not decoded, as its type is not known. -/
def Body.Opaque (types : List DataType) (n : UInt32) : Body → Prop
  | .noBody => True
  | .byteString s => Binary.Short s ∧ findDataTypeByBinary types n = none
  | .xml s => Binary.Short s

/-- The picoseconds are less than a microsecond. -/
def Stamps.Valid (stamps : Stamps) : Prop :=
  (∀ n ∈ stamps.sourcePicoseconds, n ≤ maxPicoSeconds) ∧
    ∀ n ∈ stamps.serverPicoseconds, n ≤ maxPicoSeconds

/-- The index of a type is found with the node id of its encoding. -/
structure Wraps (types : List DataType) (index : Nat) (type : DataType) (size : Nat) : Prop where
  numeric : type.typeId.isNumeric
  found : findDataTypeByBinary types type.binaryEncodingId.toUInt32 = some index
  size_le : size ≤ int32Max

/-- A variant keeps an extension object, instead of taking the content out of it. -/
def Kept (types : List DataType) : Value → Prop
  | .decodedObject index _ => ∀ type ∈ types[index]?, type.typeId.namespaceIndex ≠ 0
  | _ => True

/-- The elements of an array take up enough bytes for the decoder. -/
def Roomy (types : List DataType) (type : DataType) (elements : List Value) : Prop :=
  ∀ parts ∈ encodeEach types type elements,
    type.memSize.toNat * elements.length / 32 ≤ parts.flatten.length ∧
      (type.overlayable → type.memSize.toNat * elements.length ≤ parts.flatten.length)

mutual

/-- A value of a type that comes back as it is. -/
def HasType (types : List DataType) (entry : Entry) (members : List DataTypeMember) :
    Value → Prop
  | .boolean b => entry = .boolean ∧ b ≤ 1
  | .byte _ => entry = .byte
  | .uint16 _ => entry = .uint16
  | .uint32 _ => entry = .uint32
  | .uint64 _ => entry = .uint64
  | .string s => entry = .string ∧ Short s
  | .guid _ => entry = .guid
  | .nodeId id => entry = .nodeId ∧ id.Short
  | .expandedNodeId id namespaceUri _ =>
    entry = .expandedNodeId ∧ id.Short ∧ Short namespaceUri ∧ namespaceUri ≠ some [] ∧
      (namespaceUri ≠ none → id.namespaceIndex = 0)
  | .localizedText locale text => entry = .localizedText ∧ Short locale ∧ Short text
  | .encodedObject typeId body =>
    entry = .extensionObject ∧ ∃ n, typeId.identifier = .numeric n ∧ body.Opaque types n
  | .decodedObject index data =>
    entry = .extensionObject ∧ ∃ type, types[index]? = some type ∧
      Wraps types index type (calcSize types type.memSize type.members data) ∧
      HasType types type.entry type.members data
  | .dataValue hasValue value stamps =>
    entry = .dataValue ∧ stamps.Valid ∧ (hasValue = false → value = .emptyVariant) ∧
      HasType types .variant [] value
  | .emptyVariant => entry = .variant
  | .scalarVariant index data =>
    entry = .variant ∧ ∃ type, types[index]? = some type ∧
      HasType types type.entry type.members data ∧
      if type.builtin then
        type.typeIndex = index ∧ index ≤ diagnosticInfoIndex ∧ Kept types data
      else
        type.typeId.namespaceIndex = 0 ∧
          Wraps types index type (calcSize types type.memSize type.members data)
  | .arrayVariant index data dimensions =>
    entry = .variant ∧ ∃ type, types[index]? = some type ∧ type.builtin ∧
      type.typeIndex = index ∧ index ≤ diagnosticInfoIndex ∧ HasArrayType types type data ∧
      dimensions.length ≤ int32Max
  | .diagnosticInfo info inner =>
    entry = .diagnosticInfo ∧ inner = [] ∧ info.innerStatusCode = none ∧
      ∀ s ∈ info.additionalInfo, Short s
  | .struct values => entry = .internal ∧ HaveMemberTypes types members values
  | .nullArray => False
  | .array _ => False

/-- An array of elements of a type that comes back as it is. -/
def HasArrayType (types : List DataType) (type : DataType) : Value → Prop
  | .nullArray => True
  | .array elements =>
    elements.length ≤ int32Max ∧ Roomy types type elements ∧ HaveType types type elements
  | _ => False

/-- Values of the members of a structure. -/
def HaveMemberTypes (types : List DataType) : List DataTypeMember → List Value → Prop
  | [], [] => True
  | member :: members, value :: values =>
    (∃ type, types[member.memberTypeIndex]? = some type ∧
      if member.isArray then HasArrayType types type value
      else HasType types type.entry type.members value) ∧
      HaveMemberTypes types members values
  | _, _ => False

/-- Values of one type. -/
def HaveType (types : List DataType) (type : DataType) : List Value → Prop
  | [] => True
  | value :: values =>
    HasType types type.entry type.members value ∧ HaveType types type values

end

mutual

/-- How deep the decoder has to go for a value. -/
def depth : Value → Nat
  | .decodedObject _ data => depth data + 1
  | .dataValue _ value _ => depth value + 1
  | .scalarVariant _ data => depth data + 1
  | .arrayVariant _ data _ => depth data + 1
  | .struct values => depths values + 1
  | .array elements => depths elements
  | _ => 0

/-- How deep the decoder has to go for values side by side. -/
def depths : List Value → Nat
  | [] => 0
  | value :: values => max (depth value) (depths values)

end

/-! ### Numbers and strings -/

/-- What is encoded is read back. -/
def Codes {α : Type} (encoded : Option (List UInt8)) (p : Parser α) (x : α) : Prop :=
  ∃ bytes, encoded = some bytes ∧ Reads p bytes x

theorem reads_decodeByte (n : UInt8) :
  Reads decodeByte [n] n
  := by
  have hencode : [n] = LittleEndian.encode 1 n.toNat := by simp [LittleEndian.encode]
  have h : Reads decodeByte (LittleEndian.encode 1 n.toNat) (UInt8.ofNat n.toNat) :=
    (reads_number n.toNat_lt).then_pure
  rw [UInt8.ofNat_toNat] at h
  rw [hencode]
  apply h

theorem reads_decodeUInt16 (n : UInt16) :
  Reads decodeUInt16 (encodeUInt16 n) n
  := by
  have h : Reads decodeUInt16 (encodeUInt16 n) (UInt16.ofNat n.toNat) :=
    (reads_number n.toNat_lt).then_pure
  rw [UInt16.ofNat_toNat] at h
  apply h

theorem reads_decodeUInt32 (n : UInt32) :
  Reads decodeUInt32 (encodeUInt32 n) n
  := by
  have h : Reads decodeUInt32 (encodeUInt32 n) (UInt32.ofNat n.toNat) :=
    (reads_number n.toNat_lt).then_pure
  rw [UInt32.ofNat_toNat] at h
  apply h

theorem reads_decodeUInt64 (n : UInt64) :
  Reads decodeUInt64 (encodeUInt64 n) n
  := by
  have h : Reads decodeUInt64 (encodeUInt64 n) (UInt64.ofNat n.toNat) :=
    (reads_number n.toNat_lt).then_pure
  rw [UInt64.ofNat_toNat] at h
  apply h

/-- The byte in front is read first. -/
theorem Reads.cons {α : Type} {q : UInt8 → Parser α} {b : UInt8} {s : List UInt8} {x : α}
    (hq : Reads (q b) s x) :
  Reads (decodeByte >>= q) (b :: s) x
  := (reads_decodeByte b).bind hq

/-- A length that can be encoded is not negative when it is read. -/
theorem length_code {n : Nat} (h : n ≤ int32Max) :
  (UInt32.ofNat n).toNat = n ∧ ¬ UInt32.ofNat n ≥ 0x80000000
  := by
  have hn : (UInt32.ofNat n).toNat = n := by
    rw [UInt32.toNat_ofNat', Nat.mod_eq_of_lt]
    rw [int32Max] at h
    omega
  use hn
  intro hge
  have hle := UInt32.le_iff_toNat_le.mp hge
  rw [hn] at hle
  change 2147483648 ≤ n at hle
  rw [int32Max] at h
  omega

theorem codes_string {s : Option (List UInt8)} (h : Short s) :
  Codes (encodeString s) decodeString s
  := by
  cases s with
  | none =>
      refine ⟨_, rfl, ?_⟩
      have hread := (reads_decodeUInt32 0xffffffff).bind (q := fun length =>
        if length ≥ 0x80000000 then pure none
        else do
          let s ← take length.toNat
          pure (some s)) (reads_pure none)
      rw [List.append_nil] at hread
      apply hread
  | some s =>
      have hs := h s rfl
      obtain ⟨hn, hge⟩ := length_code hs
      refine ⟨_, if_neg (by omega), ?_⟩
      apply (reads_decodeUInt32 _).bind
      rw [if_neg hge, hn]
      apply (reads_take rfl).then_pure

theorem reads_decodeGuid (g : Zuth.Guid) :
  Reads decodeGuid (encodeGuid g) g
  := by
  have hdata4 : Vector.ofFn (fun i : Fin 8 => g.data4.toList.getD i 0) = g.data4 := by
    apply Vector.ext
    intro i hi
    simp
  have h : Reads decodeGuid (encodeGuid g)
      ⟨g.data1, g.data2, g.data3, Vector.ofFn (fun i => g.data4.toList.getD i 0)⟩ := by
    apply (reads_decodeUInt32 g.data1).bind
    apply (reads_decodeUInt16 g.data2).bind
    apply (reads_decodeUInt16 g.data3).bind
    apply (reads_take g.data4.length_toList).then_pure
  rw [hdata4] at h
  apply h

/-! ### Node ids and parts -/

/-- The encoding byte of a node id has the kind of the node id below the mask. -/
theorem encodeWithEncodingMask_cases {id : NodeId} (h : id.Short) :
  ∃ (kind : Fin 6) (body : List UInt8), Reads (decodeNodeIdBody (UInt8.ofNat kind)) body id ∧
    ∀ mask, id.encodeWithEncodingMask mask = some ((mask ||| UInt8.ofNat kind) :: body)
  := by
  obtain ⟨namespaceIndex, identifier⟩ := id
  cases identifier with
  | numeric n =>
      by_cases hlarge : n > 65535 ∨ namespaceIndex > 255
      · use 2, encodeUInt16 namespaceIndex ++ encodeUInt32 n
        constructor
        · apply (reads_decodeUInt16 namespaceIndex).bind (reads_decodeUInt32 n).then_pure
        · intro mask
          apply if_pos hlarge
      · by_cases hsmall : n > 255 ∨ namespaceIndex > 0
        · use 1, namespaceIndex.toUInt8 :: encodeUInt16 n.toUInt16
          constructor
          · have hread : Reads (decodeNodeIdBody (UInt8.ofNat (1 : Fin 6)))
                (namespaceIndex.toUInt8 :: encodeUInt16 n.toUInt16)
                ⟨namespaceIndex.toUInt8.toUInt16, .numeric n.toUInt16.toUInt32⟩ :=
              Reads.cons (reads_decodeUInt16 _).then_pure
            rw [not_or, gt_iff_lt, UInt32.not_lt, UInt32.le_iff_toNat_le, gt_iff_lt, UInt16.not_lt,
              UInt16.le_iff_toNat_le] at hlarge
            have hn : n.toUInt16.toUInt32 = n := by
              apply UInt32.toNat_inj.mp
              rw [UInt16.toNat_toUInt32, UInt32.toNat_toUInt16]
              apply Nat.mod_eq_of_lt (Nat.lt_succ_of_le hlarge.1)
            have hindex : namespaceIndex.toUInt8.toUInt16 = namespaceIndex := by
              apply UInt16.toNat_inj.mp
              rw [UInt8.toNat_toUInt16, UInt16.toNat_toUInt8]
              apply Nat.mod_eq_of_lt (Nat.lt_succ_of_le hlarge.2)
            rw [hn, hindex] at hread
            apply hread
          · intro mask
            apply (if_neg hlarge).trans (if_pos hsmall)
        · use 0, [n.toUInt8]
          constructor
          · have hread : Reads (decodeNodeIdBody (UInt8.ofNat (0 : Fin 6))) [n.toUInt8]
                ⟨0, .numeric n.toUInt8.toUInt32⟩ :=
              (reads_decodeByte _).then_pure
            rw [not_or, gt_iff_lt, UInt32.not_lt, UInt32.le_iff_toNat_le, gt_iff_lt, UInt16.not_lt,
              UInt16.le_iff_toNat_le] at hsmall
            have hn : n.toUInt8.toUInt32 = n := by
              apply UInt32.toNat_inj.mp
              rw [UInt8.toNat_toUInt32, UInt32.toNat_toUInt8]
              apply Nat.mod_eq_of_lt (Nat.lt_succ_of_le hsmall.1)
            have hindex : namespaceIndex = 0 := by
              apply UInt16.toNat_inj.mp
              apply Nat.le_zero.mp hsmall.2
            rw [hn] at hread
            rw [hindex]
            apply hread
          · intro mask
            apply (if_neg hlarge).trans (if_neg hsmall)
  | string s =>
      obtain ⟨bytes, hencode, hread⟩ := codes_string h
      use 3, encodeUInt16 namespaceIndex ++ bytes
      constructor
      · apply (reads_decodeUInt16 namespaceIndex).bind hread.then_pure
      · intro mask
        simp only [NodeId.encodeWithEncodingMask, hencode, Option.bind_eq_bind, Option.bind_some]
        rfl
  | guid g =>
      use 4, encodeUInt16 namespaceIndex ++ encodeGuid g
      constructor
      · apply (reads_decodeUInt16 namespaceIndex).bind (reads_decodeGuid g).then_pure
      · intro mask
        rfl
  | byteString s =>
      obtain ⟨bytes, hencode, hread⟩ := codes_string h
      use 5, encodeUInt16 namespaceIndex ++ bytes
      constructor
      · apply (reads_decodeUInt16 namespaceIndex).bind hread.then_pure
      · intro mask
        simp only [NodeId.encodeWithEncodingMask, hencode, Option.bind_eq_bind, Option.bind_some]
        rfl

theorem codes_nodeId {id : NodeId} (h : id.Short) :
  Codes (id.encodeWithEncodingMask 0) decodeNodeId id
  := by
  obtain ⟨kind, body, hread, hencode⟩ := encodeWithEncodingMask_cases h
  refine ⟨_, hencode 0, ?_⟩
  apply Reads.cons
  rw [UInt8.zero_or]
  apply hread

/-- A part is read when the flag says that it is there. -/
theorem reads_decodePart {α : Type} {p : Parser α} {encode : α → List UInt8} {part : Option α}
    {present : Bool} (hpresent : present = part.isSome) (h : ∀ x ∈ part, Reads p (encode x) x) :
  Reads (decodePart present p) (encodePart encode part) part
  := by
  rw [hpresent]
  cases part with
  | none => apply reads_pure
  | some x => apply (h x rfl).then_pure

theorem join_map_some {α : Type} (x : Option α) :
  (x.map some).join = x
  := by
  cases x <;> rfl

theorem codes_stringPart {part : Option (Option (List UInt8))} {present : Bool}
    (hpresent : present = part.isSome) (h : ∀ s ∈ part, Short s) :
  Codes (encodeStringPart part) (decodePart present decodeString) part
  := by
  rw [hpresent]
  cases part with
  | none => exact ⟨[], rfl, reads_pure none⟩
  | some s =>
      obtain ⟨bytes, hencode, hread⟩ := codes_string (h s rfl)
      exact ⟨bytes, hencode, hread.then_pure⟩

/-- The flags of an expanded node id are told apart from the kind of its node id. -/
theorem expandedMask (kind : Fin 6) (hasUri hasServerIndex : Bool) :
  let mask := flag 0x80 hasUri ||| flag 0x40 hasServerIndex ||| UInt8.ofNat kind
  mask &&& ~~~(0x80 ||| 0x40) = UInt8.ofNat kind ∧ decide (mask &&& 0x80 ≠ 0) = hasUri ∧
    decide (mask &&& 0x40 ≠ 0) = hasServerIndex
  := by
  revert kind hasUri hasServerIndex
  decide

theorem codes_expandedNodeId {id : NodeId} {namespaceUri : Option (List UInt8)}
    (hid : id.Short) (huri : Short namespaceUri) (hne : namespaceUri ≠ some [])
    (hindex : namespaceUri ≠ none → id.namespaceIndex = 0) (serverIndex : UInt32) :
  Codes (encodeExpandedNodeId id namespaceUri serverIndex) decodeExpandedNodeId
    (.expandedNodeId id namespaceUri serverIndex)
  := by
  obtain ⟨kind, body, hbody, hencode⟩ := encodeWithEncodingMask_cases hid
  obtain ⟨hkind, hmaskUri, hmaskServer⟩ :=
    expandedMask kind (namespaceUri.getD [] ≠ []) (serverIndex > 0)
  -- The URI is a part that is there unless it is `NULL`, and so is the index unless it is zero.
  have huriPart : Codes (if namespaceUri.getD [] ≠ [] then encodeString namespaceUri else some [])
      (decodePart (namespaceUri.getD [] ≠ []) decodeString) (namespaceUri.map some) := by
    cases namespaceUri with
    | none => apply @codes_stringPart none _ rfl (by simp)
    | some u =>
        have hu : u ≠ [] := fun h => hne (congrArg some h)
        obtain ⟨bytes, hbytes, hread⟩ := codes_string huri
        refine ⟨bytes, (if_pos hu).trans hbytes, ?_⟩
        rw [decide_eq_true (show (some u).getD [] ≠ [] from hu)]
        apply hread.then_pure
  have hserverPart : Reads (decodePart (serverIndex > 0) decodeUInt32)
      (if serverIndex > 0 then encodeUInt32 serverIndex else [])
      (if serverIndex > 0 then some serverIndex else none) := by
    by_cases hserver : serverIndex > 0
    · rw [if_pos hserver, if_pos hserver]
      apply @reads_decodePart _ _ _ (some serverIndex) _ (decide_eq_true hserver)
      intro n hn
      obtain rfl := Option.some.inj hn
      apply reads_decodeUInt32
    · rw [if_neg hserver, if_neg hserver, decide_eq_false hserver]
      apply reads_pure
  obtain ⟨uri, huriEncode, huriRead⟩ := huriPart
  refine ⟨_, Option.bind_eq_some_iff.mpr ⟨_, hencode _,
    Option.bind_eq_some_iff.mpr ⟨_, huriEncode, rfl⟩⟩, ?_⟩
  have hid' : (if (namespaceUri.map some).isSome then { id with namespaceIndex := 0 } else id) =
      id := by
    cases namespaceUri with
    | none => rfl
    | some u => rw [← hindex (by simp)]; rfl
  have hserver' : (if serverIndex > 0 then some serverIndex else none).getD 0 = serverIndex := by
    split
    · rfl
    · rename_i hserver
      exact (UInt32.toNat_inj.mp (Nat.eq_zero_of_not_pos
        (fun h => hserver (UInt32.lt_iff_toNat_lt.mpr h)))).symm
  rw [List.cons_append]
  apply Reads.cons
  rw [hkind, hmaskUri, hmaskServer]
  apply hbody.bind
  apply huriRead.bind
  rw [hid', join_map_some]
  have h := hserverPart.then_pure (f := fun index =>
    Value.expandedNodeId id namespaceUri (index.getD 0))
  rw [hserver'] at h
  apply h

/-- The flags of a localized text are told apart. -/
theorem localizedMask (hasLocale hasText : Bool) :
  let mask := flag 0x01 hasLocale ||| flag 0x02 hasText
  decide (mask &&& 0x01 ≠ 0) = hasLocale ∧ decide (mask &&& 0x02 ≠ 0) = hasText
  := by
  revert hasLocale hasText
  decide

theorem codes_localizedText {locale text : Option (List UInt8)} (hlocale : Short locale)
    (htext : Short text) :
  Codes (encodeLocalizedText locale text) decodeLocalizedText (.localizedText locale text)
  := by
  obtain ⟨hmaskLocale, hmaskText⟩ := localizedMask locale.isSome text.isSome
  have hpart : ∀ s : Option (List UInt8), Short s →
      Codes (encodeStringPart (s.map some)) (decodePart s.isSome decodeString) (s.map some) := by
    intro s hs
    apply codes_stringPart (Option.isSome_map).symm
    intro t ht u hu
    obtain ⟨v, hv, rfl⟩ := Option.map_eq_some_iff.mp ht
    apply hs
    rw [hv]
    apply hu
  obtain ⟨localeBytes, hlocaleEncode, hlocaleRead⟩ := hpart locale hlocale
  obtain ⟨textBytes, htextEncode, htextRead⟩ := hpart text htext
  refine ⟨_, Option.bind_eq_some_iff.mpr ⟨_, hlocaleEncode,
    Option.bind_eq_some_iff.mpr ⟨_, htextEncode, rfl⟩⟩, ?_⟩
  apply Reads.cons
  rw [hmaskLocale, hmaskText]
  apply hlocaleRead.bind
  rw [join_map_some]
  have h := htextRead.then_pure (f := fun s => Value.localizedText locale s.join)
  rw [join_map_some] at h
  apply h

/-! ### Data values and diagnostic infos -/

/-- The flags of a data value are told apart. -/
theorem Stamps.mask_flags (stamps : Stamps) (hasValue : Bool) :
  decide (stamps.mask hasValue &&& 0x01 ≠ 0) = hasValue ∧
    decide (stamps.mask hasValue &&& 0x02 ≠ 0) = stamps.status.isSome ∧
    decide (stamps.mask hasValue &&& 0x04 ≠ 0) = stamps.sourceTimestamp.isSome ∧
    decide (stamps.mask hasValue &&& 0x08 ≠ 0) = stamps.serverTimestamp.isSome ∧
    decide (stamps.mask hasValue &&& 0x10 ≠ 0) = stamps.sourcePicoseconds.isSome ∧
    decide (stamps.mask hasValue &&& 0x20 ≠ 0) = stamps.serverPicoseconds.isSome
  := by
  have h : ∀ value status source server sourcePico serverPico : Bool,
      let mask := flag 0x01 value ||| flag 0x02 status ||| flag 0x04 source |||
        flag 0x08 server ||| flag 0x10 sourcePico ||| flag 0x20 serverPico
      decide (mask &&& 0x01 ≠ 0) = value ∧ decide (mask &&& 0x02 ≠ 0) = status ∧
        decide (mask &&& 0x04 ≠ 0) = source ∧ decide (mask &&& 0x08 ≠ 0) = server ∧
        decide (mask &&& 0x10 ≠ 0) = sourcePico ∧ decide (mask &&& 0x20 ≠ 0) = serverPico := by
    decide
  apply h

/-- Valid picoseconds are not cut off. -/
theorem map_cutPicoSeconds {part : Option UInt16} (h : ∀ n ∈ part, n ≤ maxPicoSeconds) :
  part.map cutPicoSeconds = part
  := by
  cases part with
  | none => rfl
  | some n => rw [Option.map_some, cutPicoSeconds, if_neg (UInt16.not_lt.mpr (h n rfl))]

theorem reads_decodeStamps {stamps : Stamps} (h : stamps.Valid) (hasValue : Bool) :
  Reads (decodeStamps (stamps.mask hasValue)) stamps.encode stamps
  := by
  obtain ⟨-, hstatus, hsource, hserver, hsourcePico, hserverPico⟩ := stamps.mask_flags hasValue
  apply (reads_decodePart hstatus (fun n _ => reads_decodeUInt32 n)).bind
  apply (reads_decodePart hsource (fun n _ => reads_decodeUInt64 n)).bind
  apply (reads_decodePart hsourcePico (fun n _ => reads_decodeUInt16 n)).bind
  apply (reads_decodePart hserver (fun n _ => reads_decodeUInt64 n)).bind
  rw [map_cutPicoSeconds h.1]
  have hlast := (reads_decodePart hserverPico (fun n _ => reads_decodeUInt16 n)).then_pure
    (f := fun part => (⟨stamps.status, stamps.sourceTimestamp, stamps.sourcePicoseconds,
      stamps.serverTimestamp, part.map cutPicoSeconds⟩ : Stamps))
  rw [map_cutPicoSeconds h.2] at hlast
  apply hlast

/-- The flags of a diagnostic info are told apart, and the inner one has the flag that the decoder
takes for that of the inner status code. -/
theorem Diagnostics.mask_flags (info : Diagnostics) (hasInner : Bool) :
  decide (info.mask hasInner &&& 0x01 ≠ 0) = info.symbolicId.isSome ∧
    decide (info.mask hasInner &&& 0x02 ≠ 0) = info.namespaceUri.isSome ∧
    decide (info.mask hasInner &&& 0x04 ≠ 0) = info.localizedText.isSome ∧
    decide (info.mask hasInner &&& 0x08 ≠ 0) = info.locale.isSome ∧
    decide (info.mask hasInner &&& 0x10 ≠ 0) = info.additionalInfo.isSome ∧
    decide (info.mask hasInner &&& 0x20 ≠ 0) = hasInner ∧ info.mask hasInner &&& 0x40 = 0
  := by
  have h : ∀ symbolicId namespaceUri localizedText locale additionalInfo inner : Bool,
      let mask := flag 0x01 symbolicId ||| flag 0x02 namespaceUri ||| flag 0x04 localizedText |||
        flag 0x08 locale ||| flag 0x10 additionalInfo ||| flag 0x20 inner
      decide (mask &&& 0x01 ≠ 0) = symbolicId ∧ decide (mask &&& 0x02 ≠ 0) = namespaceUri ∧
        decide (mask &&& 0x04 ≠ 0) = localizedText ∧ decide (mask &&& 0x08 ≠ 0) = locale ∧
        decide (mask &&& 0x10 ≠ 0) = additionalInfo ∧ decide (mask &&& 0x20 ≠ 0) = inner ∧
        mask &&& 0x40 = 0 := by
    decide
  apply h

theorem codes_diagnosticInfo {info : Diagnostics} (hstatus : info.innerStatusCode = none)
    (hadditional : ∀ s ∈ info.additionalInfo, Short s) (fuel : Nat) :
  Codes (encodeDiagnosticInfo info []) (decodeDiagnosticInfo (fuel + 1)) (info, [])
  := by
  obtain ⟨hsymbolic, hnamespace, hlocalized, hlocale, hadditionalMask, hstatusMask, hinner⟩ :=
    info.mask_flags false
  obtain ⟨additional, hencode, hread⟩ := codes_stringPart hadditionalMask hadditional
  refine ⟨_, Option.bind_eq_some_iff.mpr ⟨_, hencode, rfl⟩, ?_⟩
  have hinfo : Reads (decodeDiagnostics (info.mask false))
      (encodePart encodeUInt32 info.symbolicId ++ (encodePart encodeUInt32 info.namespaceUri ++
        (encodePart encodeUInt32 info.localizedText ++ (encodePart encodeUInt32 info.locale ++
          (additional ++ (encodePart encodeUInt32 info.innerStatusCode ++ [])))))) info := by
    apply (reads_decodePart hsymbolic (fun n _ => reads_decodeUInt32 n)).bind
    apply (reads_decodePart hnamespace (fun n _ => reads_decodeUInt32 n)).bind
    apply (reads_decodePart hlocalized (fun n _ => reads_decodeUInt32 n)).bind
    apply (reads_decodePart hlocale (fun n _ => reads_decodeUInt32 n)).bind
    apply hread.bind
    rw [List.append_nil]
    have hpart : decide (info.mask false &&& 0x20 ≠ 0) = info.innerStatusCode.isSome := by
      rw [hstatus]
      apply hstatusMask
    apply (reads_decodePart hpart (fun n _ => reads_decodeUInt32 n)).then_pure
  apply Reads.cons
  have h := @Reads.bind _ _ _ (fun info' => if info.mask false &&& 0x40 ≠ 0 then do
      let inner ← decodeDiagnosticInfo fuel
      pure (info', inner.1 :: inner.2)
    else pure (info', [])) _ [] info (info, []) hinfo (by
      rw [if_neg (not_not.mpr hinner)]
      apply reads_pure)
  rw [List.append_nil] at h
  apply h

/-! ### Arrays and structures -/

section

variable {types : List DataType} {decode : Entry → List DataTypeMember → Parser Value} {n : Nat}

/-- The decoder reads values that are not deeper than `n`. -/
def ReadsUpTo (types : List DataType) (decode : Entry → List DataTypeMember → Parser Value)
    (n : Nat) : Prop :=
  ∀ (entry : Entry) (members : List DataTypeMember) (value : Value),
    HasType types entry members value → depth value < n →
      Codes (encode types entry members value) (decode entry members) value

/-- An element is read, also when its memory is copied. -/
theorem codes_element (hdecode : ReadsUpTo types decode n) {type : DataType} {value : Value}
    (h : HasType types type.entry type.members value) (hdepth : depth value < n) :
  Codes (encode types type.entry type.members value) (decodeElement decode type) value
  := by
  rw [decodeElement]
  split
  · rename_i hboolean
    rw [hboolean.2] at h ⊢
    cases value with
    | boolean b => exact ⟨[b], rfl, (reads_decodeByte b).then_pure⟩
    | _ => simp [HasType] at h
  · apply hdecode _ _ _ h hdepth

theorem codes_each (hdecode : ReadsUpTo types decode n) {type : DataType} {values : List Value}
    (h : HaveType types type values) (hdepth : depths values < n) :
  ∃ parts, encodeEach types type values = some parts ∧
    List.Forall₂ (Reads (decodeElement decode type)) parts values
  := by
  induction values with
  | nil => exact ⟨[], rfl, .nil⟩
  | cons value values ih =>
      obtain ⟨hvalue, hvalues⟩ := h
      rw [depths] at hdepth
      obtain ⟨bytes, hencode, hread⟩ := codes_element hdecode hvalue (by omega)
      obtain ⟨parts, hencodes, hreads⟩ := ih hvalues (by omega)
      refine ⟨bytes :: parts, ?_, .cons hread hreads⟩
      rw [encodeEach, hencode, hencodes]
      rfl

theorem codes_array (hdecode : ReadsUpTo types decode n) {type : DataType} {value : Value}
    (h : HasArrayType types type value) (hdepth : depth value < n) :
  Codes (encodeArray types type value) (decodeArray decode type) value
  := by
  cases value with
  | nullArray =>
      refine ⟨encodeUInt32 0xffffffff ++ [], rfl, ?_⟩
      apply (reads_decodeUInt32 0xffffffff).bind
      apply reads_pure
  | array elements =>
      obtain ⟨hlength, hroomy, helements⟩ := h
      obtain ⟨parts, hencode, hreads⟩ := codes_each hdecode helements hdepth
      obtain ⟨hn, hge⟩ := length_code hlength
      obtain ⟨hspace, hcopied⟩ := hroomy parts hencode
      refine ⟨encodeUInt32 (UInt32.ofNat elements.length) ++ parts.flatten, ?_, ?_⟩
      · rw [encodeArray, if_neg (by omega), hencode]
        rfl
      apply (reads_decodeUInt32 _).bind
      rw [if_neg hge]
      by_cases hzero : UInt32.ofNat elements.length = 0
      · have hempty : elements = [] := by
          rw [hzero] at hn
          exact List.eq_nil_of_length_eq_zero hn.symm
        subst hempty
        cases hreads
        rw [if_pos hzero]
        apply reads_pure
      · rw [if_neg hzero, hn]
        apply Reads.need _ hspace
        apply Reads.need
        · apply (reads_items hreads).then_pure
        · split
          · rename_i hoverlayable
            apply hcopied hoverlayable
          · apply Nat.zero_le
  | _ => cases h

theorem codes_members (hdecode : ReadsUpTo types decode n) {members : List DataTypeMember}
    {values : List Value} (h : HaveMemberTypes types members values) (hdepth : depths values < n) :
  Codes (encodeMembers types members values) (decodeMembers types decode members) values
  := by
  induction members generalizing values with
  | nil =>
      cases values with
      | nil => exact ⟨[], rfl, reads_pure []⟩
      | cons value values => cases h
  | cons member members ih =>
      cases values with
      | nil => cases h
      | cons value values =>
          obtain ⟨⟨type, htype, hvalue⟩, hvalues⟩ := h
          rw [depths] at hdepth
          have hmember : Codes
              (if member.isArray then encodeArray types type value
                else encode types type.entry type.members value)
              (if member.isArray then decodeArray decode type
                else decode type.entry type.members) value := by
            split at hvalue
            · rename_i harray
              rw [if_pos harray, if_pos harray]
              apply codes_array hdecode hvalue (by omega)
            · rename_i hscalar
              rw [if_neg hscalar, if_neg hscalar]
              apply hdecode _ _ _ hvalue (by omega)
          obtain ⟨bytes, hencode, hread⟩ := hmember
          obtain ⟨rest, hencodes, hreads⟩ := ih hvalues (by omega)
          refine ⟨bytes ++ rest, ?_, ?_⟩
          · rw [encodeMembers, htype, Option.bind_eq_bind, Option.bind_some, hencode, hencodes]
            rfl
          · rw [decodeMembers, htype]
            apply hread.bind hreads.then_pure

/-! ### Extension objects and variants -/

/-- The node id of an encoding is written in front of the content. -/
theorem objectHeader_cases {index size : Nat} {type : DataType}
    (h : Wraps types index type size) :
  ∃ node, objectHeader type size = some (node ++ 1 :: encodeUInt32 (UInt32.ofNat size)) ∧
    Reads decodeNodeId node
      ⟨type.typeId.namespaceIndex, .numeric type.binaryEncodingId.toUInt32⟩
  := by
  obtain ⟨node, hencode, hread⟩ := @codes_nodeId
    ⟨type.typeId.namespaceIndex, .numeric type.binaryEncodingId.toUInt32⟩ trivial
  refine ⟨node, ?_, hread⟩
  rw [objectHeader, hencode, Option.bind_eq_bind, Option.bind_some,
    if_pos ⟨h.numeric, h.size_le⟩]

/-- The content is read after a jump over its size. -/
theorem reads_jump {p : Parser Value} {f : Value → Value} {content : List UInt8} {data : Value}
    (hread : Reads p content data) (size : UInt32) :
  Reads (do skip 4; let data ← p; pure (f data)) (encodeUInt32 size ++ content) (f data)
  := by
  apply (reads_skip (length_encodeUInt32 size)).bind
  apply hread.then_pure

/-- An extension object is read; and a variant takes the content out of it unless it is kept. -/
theorem codes_object (hdecode : ReadsUpTo types decode n) {members : List DataTypeMember}
    {value : Value} (h : HasType types .extensionObject members value) (hdepth : depth value ≤ n) :
  ∃ node encoding rest typeId,
    encode types .extensionObject members value = some (node ++ encoding :: rest) ∧
      Reads decodeNodeId node typeId ∧
      Reads (decodeObject types decode) (node ++ encoding :: rest) value ∧
      (Kept types value → unwrappedType types typeId encoding = none)
  := by
  cases value with
  | encodedObject typeId body =>
      obtain ⟨-, m, hidentifier, hbody⟩ := h
      obtain ⟨node, hnode, hread⟩ : Codes (typeId.encodeWithEncodingMask 0) decodeNodeId typeId :=
        codes_nodeId (by rw [NodeId.Short, hidentifier]; trivial)
      cases body with
      | noBody =>
          refine ⟨node, 0, [], typeId, ?_, hread, ?_, ?_⟩
          · rw [encode, hnode]
            rfl
          · apply hread.bind
            apply Reads.cons
            rw [hidentifier]
            apply reads_pure
          · intro _
            rw [unwrappedType, hidentifier]
            rfl
      | byteString s =>
          obtain ⟨hs, hfind⟩ := hbody
          obtain ⟨bytes, hbytes, hreadBytes⟩ := codes_string hs
          refine ⟨node, 1, bytes, typeId, ?_, hread, ?_, ?_⟩
          · rw [encode, hnode, Body.encode, hbytes]
            rfl
          · apply hread.bind
            apply Reads.cons
            rw [hidentifier]
            simp only [decodeContent, hfind]
            apply hreadBytes.then_pure
          · intro _
            rw [unwrappedType, hidentifier]
            simp only [hfind, ite_self]
      | xml s =>
          obtain ⟨bytes, hbytes, hreadBytes⟩ := codes_string hbody
          refine ⟨node, 2, bytes, typeId, ?_, hread, ?_, ?_⟩
          · rw [encode, hnode, Body.encode, hbytes]
            rfl
          · apply hread.bind
            apply Reads.cons
            rw [hidentifier]
            apply hreadBytes.then_pure
          · intro _
            rw [unwrappedType, hidentifier]
            rfl
  | decodedObject index data =>
      obtain ⟨-, type, htype, hwraps, hdata⟩ := h
      obtain ⟨node, hheader, hread⟩ := objectHeader_cases hwraps
      obtain ⟨content, hcontent, hreadContent⟩ := hdecode _ _ _ hdata hdepth
      refine ⟨node, 1,
        encodeUInt32 (UInt32.ofNat (calcSize types type.memSize type.members data)) ++ content, _,
        ?_, hread, ?_, ?_⟩
      · rw [encode, htype, Option.bind_eq_bind, Option.bind_some, hheader, hcontent]
        simp only [Option.bind_eq_bind, Option.bind_some, List.append_assoc, List.cons_append]
        rfl
      · apply hread.bind
        apply Reads.cons
        simp only [decodeContent, hwraps.found, htype]
        apply reads_jump hreadContent
      · intro hkept
        rw [unwrappedType]
        exact if_neg (fun hzero => hkept type htype hzero.2)
  | _ => simp [HasType] at h

/-- The type and the flags of a variant are told apart. -/
theorem variantMask_flags {type : DataType} {index : Nat}
    (h : (if type.builtin then type.typeIndex else extensionObjectIndex) = index)
    (hindex : index ≤ diagnosticInfoIndex) (isArray hasDimensions : Bool) :
  let mask := variantMask type ||| flag 0x80 isArray ||| flag 0x40 hasDimensions
  mask ≠ 0 ∧ variantIndex mask = some index ∧ decide (mask &&& 0x80 ≠ 0) = isArray ∧
    decide (mask &&& 0x40 ≠ 0) = hasDimensions
  := by
  have hall : ∀ (index : Fin 25) (isArray hasDimensions : Bool),
      let mask := (0x3f &&& UInt8.ofNat (index + 1)) ||| flag 0x80 isArray |||
        flag 0x40 hasDimensions
      mask ≠ 0 ∧ variantIndex mask = some index.val ∧ decide (mask &&& 0x80 ≠ 0) = isArray ∧
        decide (mask &&& 0x40 ≠ 0) = hasDimensions := by
    decide
  rw [variantMask, h]
  apply hall ⟨index, Nat.lt_succ_of_le hindex⟩

theorem codes_dimensions {dimensions : List UInt32} (h : dimensions.length ≤ int32Max) :
  ∃ bytes, encodeDimensions dimensions = some bytes ∧
    Reads (decodePart (dimensions ≠ []) decodeDimensions) bytes
      (if dimensions = [] then none else some dimensions)
  := by
  by_cases hempty : dimensions = []
  · refine ⟨[], if_pos hempty, ?_⟩
    rw [if_pos hempty, decide_eq_false (not_not.mpr hempty)]
    apply reads_pure
  · obtain ⟨hn, hge⟩ := length_code h
    have hzero : UInt32.ofNat dimensions.length ≠ 0 := by
      intro hzero
      rw [hzero] at hn
      exact hempty (List.eq_nil_of_length_eq_zero hn.symm)
    have hreads : List.Forall₂ (Reads decodeUInt32) (dimensions.map encodeUInt32) dimensions := by
      clear h hempty hn hge hzero
      induction dimensions with
      | nil => exact .nil
      | cons n dimensions ih => exact .cons (reads_decodeUInt32 n) ih
    have hlength : 4 * dimensions.length ≤ (dimensions.flatMap encodeUInt32).length := by
      simp [List.length_flatMap, Nat.mul_comm]
    refine ⟨_, (if_neg hempty).trans (if_neg (by omega)), ?_⟩
    rw [if_neg hempty, decide_eq_true hempty]
    have hread : Reads decodeDimensions
        (encodeUInt32 (UInt32.ofNat dimensions.length) ++ dimensions.flatMap encodeUInt32)
        dimensions := by
      apply (reads_decodeUInt32 _).bind
      rw [if_neg (not_or.mpr ⟨hge, hzero⟩), hn]
      apply Reads.need _ hlength
      rw [List.flatMap_def]
      apply reads_items hreads
    apply hread.then_pure

/-- What a variant with an extension object does depends on the start of the extension object. -/
theorem run_decodeUnwrapped {node : List UInt8} {typeId : NodeId}
    (h : Reads decodeNodeId node typeId) (encoding : UInt8) (rest : List UInt8) :
  (decodeUnwrapped types decode).run (node ++ encoding :: rest) =
    (unwrappedType types typeId encoding).elim
      ((do
        let data ← decodeObject types decode
        pure (.scalarVariant extensionObjectIndex data) : Parser Value).run
          (node ++ encoding :: rest))
      (fun index => (decodeUnwrappedContent types decode index).run rest)
  := by
  have hstart : Reads decodeObjectStart (node ++ [encoding]) (typeId, encoding) := by
    apply h.bind
    apply Reads.cons
    apply reads_pure
  have hrun := hstart rest
  rw [List.append_assoc, List.singleton_append] at hrun
  change (decodeObjectStart.run (node ++ encoding :: rest)).bind _ = _
  rw [hrun, Option.bind_some]

/-- The content is read behind the encoding byte of a variant. -/
theorem reads_decodeVariant {type : DataType} {index : Nat} {isArray hasDimensions : Bool}
    {bytes : List UInt8} {value : Value}
    (htype : (if type.builtin then type.typeIndex else extensionObjectIndex) = index)
    (hindex : index ≤ diagnosticInfoIndex)
    (hread : Reads (if isArray then do
        let data ← (types[index]?).elim failure (decodeArray decode)
        let dimensions ← decodePart hasDimensions decodeDimensions
        pure (.arrayVariant index data (dimensions.getD []))
      else if index = extensionObjectIndex then decodeUnwrapped types decode
      else do
        let data ← (types[index]?).elim failure (fun type =>
          decode (jumpTable.getD index .internal) type.members)
        pure (.scalarVariant index data)) bytes value) :
  Reads (decodeVariant types decode)
    ((variantMask type ||| flag 0x80 isArray ||| flag 0x40 hasDimensions) :: bytes) value
  := by
  obtain ⟨hne, hfound, harray, hdimensions⟩ :=
    variantMask_flags htype hindex isArray hasDimensions
  apply Reads.cons
  rw [if_neg hne, hfound, Option.elim_some, decodeVariantContent, hdimensions]
  cases isArray with
  | true => rwa [if_pos (of_decide_eq_true harray)]
  | false => rwa [if_neg (of_decide_eq_false harray)]

/-- The scalar value of a variant, which may be wrapped in an extension object. -/
theorem codes_scalarVariant (hdecode : ReadsUpTo types decode n) {index : Nat} {data : Value}
    {members : List DataTypeMember} (hdepth : depth data < n)
    (h : HasType types .variant members (.scalarVariant index data)) :
  Codes (encode types .variant members (.scalarVariant index data)) (decodeVariant types decode)
    (.scalarVariant index data)
  := by
  obtain ⟨-, type, htype, hdata, hkind⟩ := h
  have hmask : variantMask type = variantMask type ||| flag 0x80 false ||| flag 0x40 false := by
    rw [show flag 0x80 false = 0 from rfl, show flag 0x40 false = 0 from rfl, UInt8.or_zero,
      UInt8.or_zero]
  split at hkind
  · rename_i hbuiltin
    obtain ⟨hindex, hle, hkept⟩ := hkind
    have hentry : type.entry = jumpTable.getD index .internal := by
      rw [DataType.entry, if_pos hbuiltin, hindex]
    by_cases hobject : index = extensionObjectIndex
    · -- The start of the extension object does not lead to its content.
      have hentryObject : type.entry = .extensionObject := by
        rw [hentry, hobject]
        rfl
      rw [hentryObject] at hdata
      obtain ⟨node, encoding, rest, typeId, hencode, hnode, hread, hkeeps⟩ :=
        codes_object hdecode hdata hdepth.le
      refine ⟨(variantMask type ||| flag 0x80 false ||| flag 0x40 false) ::
        (node ++ encoding :: rest), ?_, ?_⟩
      · rw [encode, htype, Option.bind_eq_bind, Option.bind_some, if_pos hbuiltin, hentryObject,
          hencode, ← hmask]
        rfl
      · apply reads_decodeVariant ((if_pos hbuiltin).trans hindex) hle
        rw [if_neg Bool.false_ne_true, if_pos hobject]
        intro t
        rw [List.append_assoc, List.cons_append, run_decodeUnwrapped hnode, hkeeps hkept,
          Option.elim_none, ← List.cons_append, ← List.append_assoc, hobject]
        apply hread.then_pure
    · obtain ⟨content, hcontent, hread⟩ := hdecode _ _ _ hdata hdepth
      refine ⟨(variantMask type ||| flag 0x80 false ||| flag 0x40 false) :: content, ?_, ?_⟩
      · rw [encode, htype, Option.bind_eq_bind, Option.bind_some, if_pos hbuiltin, hcontent,
          ← hmask]
        rfl
      · apply reads_decodeVariant ((if_pos hbuiltin).trans hindex) hle
        rw [if_neg Bool.false_ne_true, if_neg hobject, htype, Option.elim_some, ← hentry]
        apply hread.then_pure
  · rename_i hbuiltin
    obtain ⟨hnamespace, hwraps⟩ := hkind
    obtain ⟨node, hheader, hnode⟩ := objectHeader_cases hwraps
    obtain ⟨content, hcontent, hread⟩ := hdecode _ _ _ hdata hdepth
    refine ⟨(variantMask type ||| flag 0x80 false ||| flag 0x40 false) ::
      (node ++ 1 :: encodeUInt32 (UInt32.ofNat (calcSize types type.memSize type.members data)) ++
        content), ?_, ?_⟩
    · rw [encode, htype, Option.bind_eq_bind, Option.bind_some, if_neg hbuiltin, hheader,
        hcontent, ← hmask]
      rfl
    · apply reads_decodeVariant (if_neg hbuiltin) (by decide)
      rw [if_neg Bool.false_ne_true, if_pos rfl]
      intro t
      have hunwrapped : unwrappedType types
          ⟨type.typeId.namespaceIndex, .numeric type.binaryEncodingId.toUInt32⟩ 1 = some index :=
        (if_pos ⟨rfl, hnamespace⟩).trans hwraps.found
      rw [List.append_assoc, List.append_assoc, List.cons_append, run_decodeUnwrapped hnode,
        hunwrapped, Option.elim_some, decodeUnwrappedContent, htype, Option.elim_some,
        ← List.append_assoc]
      apply reads_jump hread

theorem codes_variant (hdecode : ReadsUpTo types decode n) {value : Value}
    {members : List DataTypeMember} (h : HasType types .variant members value)
    (hdepth : depth value ≤ n) :
  Codes (encode types .variant members value) (decodeVariant types decode) value
  := by
  cases value with
  | emptyVariant =>
      refine ⟨[0], rfl, ?_⟩
      apply Reads.cons
      apply reads_pure
  | scalarVariant index data => apply codes_scalarVariant hdecode hdepth h
  | arrayVariant index data dimensions =>
      obtain ⟨-, type, htype, hbuiltin, hindex, hle, hdata, hdimensions⟩ := h
      obtain ⟨content, hcontent, hread⟩ := codes_array hdecode hdata hdepth
      obtain ⟨bytes, hencode, hreadDimensions⟩ := codes_dimensions hdimensions
      refine ⟨(variantMask type ||| flag 0x80 true ||| flag 0x40 (dimensions ≠ [])) ::
        (content ++ bytes), ?_, ?_⟩
      · rw [encode, htype, Option.bind_eq_bind, Option.bind_some, if_pos hbuiltin, hcontent,
          Option.bind_eq_bind, Option.bind_some, hencode]
        rfl
      · apply @reads_decodeVariant _ _ _ _ true _ _ _ ((if_pos hbuiltin).trans hindex) hle
        rw [if_pos rfl, htype]
        apply hread.bind
        have hlast := hreadDimensions.then_pure (f := fun part =>
          Value.arrayVariant index data (part.getD []))
        have hgetD : (if dimensions = [] then none else some dimensions).getD [] =
            dimensions := by
          split
          · rename_i hempty
            exact hempty.symm
          · rfl
        rw [hgetD] at hlast
        apply hlast
  | _ => simp [HasType] at h

end

/-! ### Round trips -/

/-- What the decoder reads grows with its fuel. -/
theorem readsUpTo_decode (types : List DataType) (fuel : Nat) :
  ReadsUpTo types (decode types fuel) fuel
  := by
  induction fuel with
  | zero =>
      intro entry members value _ hdepth
      cases hdepth
  | succ fuel ih =>
      intro entry members value h hdepth
      cases value with
      | boolean b =>
          obtain ⟨rfl, hb⟩ := h
          refine ⟨[b], rfl, ?_⟩
          have hread := (reads_decodeByte b).then_pure (f := fun b =>
            Value.boolean (if b > 0 then 1 else 0))
          have hb' : (if b > 0 then 1 else 0) = b := by
            have hle := UInt8.le_iff_toNat_le.mp hb
            apply UInt8.toNat_inj.mp
            split
            · rename_i hpos
              exact (Nat.le_antisymm hle (UInt8.lt_iff_toNat_lt.mp hpos)).symm
            · rename_i hpos
              exact (Nat.eq_zero_of_not_pos (fun h => hpos (UInt8.lt_iff_toNat_lt.mpr h))).symm
          rw [hb'] at hread
          apply hread
      | byte m =>
          obtain rfl := h
          exact ⟨_, rfl, (reads_decodeByte m).then_pure⟩
      | uint16 m =>
          obtain rfl := h
          exact ⟨_, rfl, (reads_decodeUInt16 m).then_pure⟩
      | uint32 m =>
          obtain rfl := h
          exact ⟨_, rfl, (reads_decodeUInt32 m).then_pure⟩
      | uint64 m =>
          obtain rfl := h
          exact ⟨_, rfl, (reads_decodeUInt64 m).then_pure⟩
      | string s =>
          obtain ⟨rfl, hs⟩ := h
          obtain ⟨bytes, hencode, hread⟩ := codes_string hs
          exact ⟨bytes, hencode, hread.then_pure⟩
      | guid g =>
          obtain rfl := h
          exact ⟨_, rfl, (reads_decodeGuid g).then_pure⟩
      | nodeId id =>
          obtain ⟨rfl, hid⟩ := h
          obtain ⟨bytes, hencode, hread⟩ := codes_nodeId hid
          exact ⟨bytes, hencode, hread.then_pure⟩
      | expandedNodeId id namespaceUri serverIndex =>
          obtain ⟨rfl, hid, huri, hne, hindex⟩ := h
          apply codes_expandedNodeId hid huri hne hindex
      | localizedText locale text =>
          obtain ⟨rfl, hlocale, htext⟩ := h
          apply codes_localizedText hlocale htext
      | encodedObject typeId body =>
          obtain rfl := h.1
          obtain ⟨_, _, _, _, hencode, -, hread, -⟩ := codes_object ih h (Nat.le_of_lt_succ hdepth)
          exact ⟨_, hencode, hread⟩
      | decodedObject index data =>
          obtain rfl := h.1
          obtain ⟨_, _, _, _, hencode, -, hread, -⟩ := codes_object ih h (Nat.le_of_lt_succ hdepth)
          exact ⟨_, hencode, hread⟩
      | dataValue hasValue value stamps =>
          obtain ⟨rfl, hstamps, hempty, hvalue⟩ := h
          obtain ⟨hmask, -⟩ := stamps.mask_flags hasValue
          have hpart : ∃ bytes,
              (if hasValue then encode types .variant [] value else some []) = some bytes ∧
                Reads (decodePart hasValue (decode types fuel .variant [])) bytes
                  (if hasValue then some value else none) := by
            cases hasValue with
            | true =>
                obtain ⟨bytes, hencode, hread⟩ := ih _ _ _ hvalue (Nat.lt_of_succ_lt_succ hdepth)
                exact ⟨bytes, hencode, hread.then_pure⟩
            | false => exact ⟨[], rfl, reads_pure none⟩
          obtain ⟨bytes, hencode, hread⟩ := hpart
          refine ⟨stamps.mask hasValue :: (bytes ++ stamps.encode), ?_, ?_⟩
          · rw [encode, hencode]
            rfl
          · apply Reads.cons
            rw [hmask]
            apply hread.bind
            have hlast := (reads_decodeStamps hstamps hasValue).then_pure (f := fun stamps =>
              Value.dataValue (if hasValue then some value else none).isSome
                ((if hasValue then some value else none).getD .emptyVariant) stamps)
            cases hasValue with
            | true => apply hlast
            | false =>
                obtain rfl := hempty rfl
                apply hlast
      | emptyVariant =>
          obtain rfl := h
          apply @codes_variant _ _ _ ih .emptyVariant members rfl (Nat.zero_le _)
      | scalarVariant index data =>
          obtain rfl := h.1
          apply codes_variant ih h (Nat.le_of_lt_succ hdepth)
      | arrayVariant index data dimensions =>
          obtain rfl := h.1
          apply codes_variant ih h (Nat.le_of_lt_succ hdepth)
      | diagnosticInfo info inner =>
          obtain ⟨rfl, rfl, hstatus, hadditional⟩ := h
          obtain ⟨bytes, hencode, hread⟩ := codes_diagnosticInfo hstatus hadditional fuel
          exact ⟨bytes, hencode, hread.then_pure⟩
      | struct values =>
          obtain ⟨rfl, hvalues⟩ := h
          obtain ⟨bytes, hencode, hread⟩ :=
            codes_members ih hvalues (Nat.lt_of_succ_lt_succ hdepth)
          exact ⟨bytes, hencode, hread.then_pure⟩
      | nullArray => cases h
      | array elements => cases h

/-- A few types: doubles, ranges, strings, variants, and a variant with an array of strings. -/
def fewTypes : List DataType :=
  [⟨⟨0, .numeric 11⟩, 8, 10, true, true, 0, [⟨0, false⟩]⟩,
    ⟨⟨0, .numeric 884⟩, 16, 1, false, false, 886, [⟨0, false⟩, ⟨0, false⟩]⟩,
    ⟨⟨0, .numeric 12⟩, 16, 11, true, false, 0, [⟨2, false⟩]⟩,
    ⟨⟨0, .numeric 24⟩, 48, 23, true, false, 0, [⟨3, false⟩]⟩,
    ⟨⟨0, .numeric 15000⟩, 64, 4, false, false, 15001, [⟨3, false⟩, ⟨2, true⟩]⟩]

/-- A range in a variant, and two strings, one of them `NULL`. -/
def fewValues : List Value :=
  [.scalarVariant 1 (.struct [.uint64 5, .uint64 7]), .array [.string none, .string (some [65])]]

theorem hasType_fewValues :
  HaveMemberTypes fewTypes fewTypes[4].members fewValues
  := by
  refine ⟨⟨fewTypes[3], rfl, rfl, fewTypes[1], rfl, ?_, ?_⟩, ⟨fewTypes[2], rfl, ?_⟩, trivial⟩
  · exact ⟨rfl, ⟨fewTypes[0], rfl, rfl⟩, ⟨fewTypes[0], rfl, rfl⟩, trivial⟩
  · exact ⟨rfl, rfl, rfl, by decide⟩
  · refine ⟨by decide, ?_, ⟨rfl, ?_⟩, ⟨rfl, ?_⟩, trivial⟩
    · intro parts hparts
      obtain rfl := Option.some.inj hparts
      decide
    · simp [Short]
    · simp [Short, int32Max]

/-- A part that has been read is there when the flag says so. -/
theorem isSome_of_run_decodePart {α : Type} {p : Parser α} {present : Bool} {s t : List UInt8}
    {part : Option α} (h : (decodePart present p).run s = some (part, t)) :
  part.isSome = present
  := by
  cases present with
  | true =>
      obtain ⟨x, r, -, hpure⟩ := of_run_bind h
      obtain ⟨rfl, -⟩ := Prod.mk.inj (Option.some.inj hpure)
      rfl
  | false =>
      obtain ⟨rfl, -⟩ := Prod.mk.inj (Option.some.inj h)
      rfl

/-- There is a status code when the flag says so. -/
theorem innerStatusCode_of_run {mask : UInt8} {s t : List UInt8} {info : Diagnostics}
    (h : (decodeDiagnostics mask).run s = some (info, t)) :
  info.innerStatusCode.isSome = decide (mask &&& 0x20 ≠ 0)
  := by
  obtain ⟨symbolicId, _, -, h⟩ := of_run_bind h
  obtain ⟨namespaceUri, _, -, h⟩ := of_run_bind h
  obtain ⟨localizedText, _, -, h⟩ := of_run_bind h
  obtain ⟨locale, _, -, h⟩ := of_run_bind h
  obtain ⟨additionalInfo, _, -, h⟩ := of_run_bind h
  obtain ⟨innerStatusCode, _, hstatus, h⟩ := of_run_bind h
  obtain ⟨rfl, -⟩ := Prod.mk.inj (Option.some.inj h)
  apply isSome_of_run_decodePart hstatus

/-- A diagnostic info that is encoded is read back if and only if it has neither an inner status
code nor an inner diagnostic info. -/
theorem decode_diagnosticInfo_iff {info : Diagnostics} {inner : List Diagnostics}
    {bytes : List UInt8} (h : encodeDiagnosticInfo info inner = some bytes) {fuel : Nat}
    (hfuel : 0 < fuel) :
  (decodeDiagnosticInfo fuel).run bytes = some ((info, inner), []) ↔
    inner = [] ∧ info.innerStatusCode = none
  := by
  obtain ⟨fuel, rfl⟩ := Nat.exists_eq_succ_of_ne_zero (Nat.ne_of_gt hfuel)
  constructor
  · intro hrun
    have hencode : ∃ part, info.encode part = some bytes ∧ part.isSome = decide (inner ≠ []) := by
      cases inner with
      | nil => exact ⟨none, h, rfl⟩
      | cons info' inner =>
          obtain ⟨part, -, h⟩ := Option.bind_eq_some_iff.mp h
          exact ⟨some part, h, rfl⟩
    obtain ⟨part, hencode, hpart⟩ := hencode
    obtain ⟨additional, -, hbytes⟩ := Option.bind_eq_some_iff.mp hencode
    obtain rfl := Option.some.inj hbytes
    obtain ⟨-, -, -, -, -, hstatus, hinner⟩ := info.mask_flags part.isSome
    obtain ⟨mask, rest, hmask, hrun⟩ := of_run_bind hrun
    obtain ⟨rfl, rfl⟩ := Prod.mk.inj (Option.some.inj ((reads_decodeByte _ _).symm.trans hmask))
    obtain ⟨info', rest', hinfo, hrun⟩ := of_run_bind hrun
    rw [if_neg (not_not.mpr hinner)] at hrun
    obtain ⟨heq, -⟩ := Prod.mk.inj (Option.some.inj hrun)
    obtain ⟨rfl, rfl⟩ := Prod.mk.inj heq
    use rfl
    have hcode := innerStatusCode_of_run hinfo
    rw [hstatus, hpart] at hcode
    exact Option.isNone_iff_eq_none.mp (Option.isSome_eq_false_iff.mp hcode)
  · rintro ⟨rfl, hstatus⟩
    have hadditional : ∀ s ∈ info.additionalInfo, Short s := by
      obtain ⟨additional, hadditional, -⟩ := Option.bind_eq_some_iff.mp h
      intro s hs t ht
      obtain rfl := ht
      rw [hs, encodeStringPart, Option.elim_some, encodeString] at hadditional
      by_contra hlong
      rw [if_pos (by omega)] at hadditional
      cases hadditional
    obtain ⟨bytes', hbytes', hread⟩ := codes_diagnosticInfo hstatus hadditional fuel
    obtain rfl := Option.some.inj (h.symm.trans hbytes')
    have hrun := hread []
    rw [List.append_nil] at hrun
    apply hrun

theorem decode_diagnosticInfo_iff_innerStatusCode :
  ∃ bytes, encodeDiagnosticInfo ⟨some 1, none, none, none, none, some 0x80020000⟩ [] = some bytes ∧
    ((decodeDiagnosticInfo 1).run bytes =
        some ((⟨some 1, none, none, none, none, some 0x80020000⟩, []), []) ↔
      ([] : List Diagnostics) = [] ∧ some (0x80020000 : UInt32) = none)
  := ⟨_, rfl, decode_diagnosticInfo_iff rfl Nat.one_pos⟩

end Binary

end UA
