import UaRateThrottling.Binary.RoundTrip

/-!
# The size of an encoding

The length field of an extension object is computed by `UA_calcSizeBinary` before the content is
encoded.  `calcSize_eq` says that it is the length of what is encoded, for a table of types whose
sizes in memory are those of the encoding where the code takes one for the other.

For an extension object inside the content, the node id of the type is measured, but the node id of
its encoding is what is encoded; these are of the same length in `Measured` tables.
-/

namespace UA

namespace Binary

/-- The number of bytes of a number, which is also its size in memory. -/
def Entry.width : Entry → Option Nat
  | .boolean => some 1
  | .byte => some 1
  | .uint16 => some 2
  | .uint32 => some 4
  | .uint64 => some 8
  | _ => none

/-- The sizes of the types are those of the encodings. -/
structure Measured (types : List DataType) : Prop where
  typeId_numeric : ∀ type ∈ types, type.typeId.isNumeric
  memSize_eq : ∀ type ∈ types, ∀ width ∈ type.entry.width, type.memSize.toNat = width
  typeId_calcSize : ∀ type ∈ types, type.typeId.calcSize =
    NodeId.calcSize ⟨type.typeId.namespaceIndex, .numeric type.binaryEncodingId.toUInt32⟩
  length_overlayable : ∀ type ∈ types, type.overlayable → ∀ value, ∀ bytes ∈
    encode types type.entry type.members value, bytes.length = type.memSize.toNat

/-! ### Builtin types -/

theorem length_encodeUInt16 (n : UInt16) :
  (encodeUInt16 n).length = 2
  := LittleEndian.length_encode 2 n.toNat

theorem length_encodeUInt64 (n : UInt64) :
  (encodeUInt64 n).length = 8
  := LittleEndian.length_encode 8 n.toNat

theorem length_encodeString {s : Option (List UInt8)} {bytes : List UInt8}
    (h : encodeString s = some bytes) :
  bytes.length = calcSizeString s
  := by
  cases s with
  | none =>
      obtain rfl := Option.some.inj h
      rfl
  | some s =>
      rw [encodeString] at h
      split at h
      · cases h
      · obtain rfl := Option.some.inj h
        rw [List.length_append, length_encodeUInt32]
        rfl

theorem length_encodeGuid (g : Zuth.Guid) :
  (encodeGuid g).length = 16
  := by
  simp [encodeGuid, length_encodeUInt16]

theorem length_encodeNodeId {id : NodeId} {mask : UInt8} {bytes : List UInt8}
    (h : id.encodeWithEncodingMask mask = some bytes) :
  bytes.length = id.calcSize
  := by
  obtain ⟨namespaceIndex, identifier⟩ := id
  have hstring : ∀ {s : Option (List UInt8)} {kind : UInt8}, (do
      let bytes ← encodeString s
      some ((mask ||| kind) :: (encodeUInt16 namespaceIndex ++ bytes))) = some bytes →
        bytes.length = 1 + (2 + calcSizeString s) := by
    intro s kind hs
    obtain ⟨t, ht, heq⟩ := Option.bind_eq_some_iff.mp hs
    obtain rfl := Option.some.inj heq
    rw [List.length_cons, List.length_append, length_encodeUInt16, length_encodeString ht]
    omega
  cases identifier with
  | numeric n =>
      simp only [NodeId.encodeWithEncodingMask, NodeId.calcSize] at h ⊢
      split at h
      · rename_i hlarge
        obtain rfl := Option.some.inj h
        rw [if_pos hlarge]
        simp [length_encodeUInt16]
      · rename_i hlarge
        rw [if_neg hlarge]
        split at h
        · rename_i hsmall
          obtain rfl := Option.some.inj h
          rw [if_pos hsmall]
          simp [length_encodeUInt16]
        · rename_i hsmall
          obtain rfl := Option.some.inj h
          rw [if_neg hsmall]
          rfl
  | string s => apply hstring h
  | guid g =>
      obtain rfl := Option.some.inj h
      simp [NodeId.calcSize, length_encodeUInt16, length_encodeGuid]
  | byteString s => apply hstring h

theorem length_encodePart {α : Type} {encode : α → List UInt8} {size : Nat}
    (h : ∀ x, (encode x).length = size) (part : Option α) :
  (encodePart encode part).length = sizeOf (fun _ => size) part
  := by
  cases part with
  | none => rfl
  | some x => apply h

theorem length_encodeStringPart {part : Option (Option (List UInt8))} {bytes : List UInt8}
    (h : encodeStringPart part = some bytes) :
  bytes.length = sizeOf calcSizeString part
  := by
  cases part with
  | none =>
      obtain rfl := Option.some.inj h
      rfl
  | some s => apply length_encodeString h

theorem length_encodeExpandedNodeId {id : NodeId} {namespaceUri : Option (List UInt8)}
    {serverIndex : UInt32} {bytes : List UInt8}
    (h : encodeExpandedNodeId id namespaceUri serverIndex = some bytes) :
  bytes.length = calcSizeExpandedNodeId id namespaceUri serverIndex
  := by
  obtain ⟨node, hnode, h⟩ := Option.bind_eq_some_iff.mp h
  obtain ⟨uri, huri, h⟩ := Option.bind_eq_some_iff.mp h
  obtain rfl := Option.some.inj h
  have hlength : uri.length =
      if (namespaceUri.getD []).length > 0 then calcSizeString namespaceUri else 0 := by
    by_cases hempty : namespaceUri.getD [] = []
    · rw [if_neg (not_not.mpr hempty)] at huri
      obtain rfl := Option.some.inj huri
      rw [hempty]
      rfl
    · rw [if_pos hempty] at huri
      rw [if_pos (List.length_pos_iff.mpr hempty)]
      apply length_encodeString huri
  have hindex : (if serverIndex > 0 then encodeUInt32 serverIndex else []).length =
      if serverIndex > 0 then 4 else 0 := by
    split
    · apply length_encodeUInt32
    · rfl
  rw [List.length_append, List.length_append, length_encodeNodeId hnode, hlength, hindex,
    calcSizeExpandedNodeId, Nat.add_assoc]

theorem length_encodeLocalizedText {locale text : Option (List UInt8)} {bytes : List UInt8}
    (h : encodeLocalizedText locale text = some bytes) :
  bytes.length = calcSizeLocalizedText locale text
  := by
  obtain ⟨localeBytes, hlocale, h⟩ := Option.bind_eq_some_iff.mp h
  obtain ⟨textBytes, htext, h⟩ := Option.bind_eq_some_iff.mp h
  obtain rfl := Option.some.inj h
  have hmap : ∀ s : Option (List UInt8), sizeOf calcSizeString (s.map some) =
      sizeOf (fun s => calcSizeString (some s)) s := by
    intro s
    cases s <;> rfl
  rw [List.length_cons, List.length_append, length_encodeStringPart hlocale,
    length_encodeStringPart htext, hmap, hmap, calcSizeLocalizedText]
  omega

theorem Stamps.length_encode (stamps : Stamps) :
  stamps.encode.length = stamps.calcSize
  := by
  simp only [Stamps.encode, List.length_append, length_encodePart length_encodeUInt32,
    length_encodePart length_encodeUInt64, length_encodePart length_encodeUInt16, Stamps.calcSize]
  omega

theorem Diagnostics.length_encode {info : Diagnostics} {inner : Option (List UInt8)}
    {bytes : List UInt8} (h : info.encode inner = some bytes) :
  bytes.length = info.calcSize + (inner.getD []).length
  := by
  obtain ⟨additional, hadditional, h⟩ := Option.bind_eq_some_iff.mp h
  obtain rfl := Option.some.inj h
  simp only [List.length_cons, List.length_append, length_encodePart length_encodeUInt32,
    length_encodeStringPart hadditional, Diagnostics.calcSize]
  omega

theorem length_encodeDiagnosticInfo {info : Diagnostics} {inner : List Diagnostics}
    {bytes : List UInt8} (h : encodeDiagnosticInfo info inner = some bytes) :
  bytes.length = info.calcSize + (inner.map Diagnostics.calcSize).sum
  := by
  induction inner generalizing info bytes with
  | nil => apply Diagnostics.length_encode h
  | cons info' inner ih =>
      obtain ⟨innerBytes, hinner, h⟩ := Option.bind_eq_some_iff.mp h
      rw [Diagnostics.length_encode h, Option.getD_some, ih hinner, List.map_cons, List.sum_cons]

theorem Body.length_encode {body : Body} {bytes : List UInt8} (h : body.encode = some bytes) :
  bytes.length = 1 + body.calcSize
  := by
  have hstring : ∀ {s : Option (List UInt8)} {encoding : UInt8}, (do
      let bytes ← encodeString s
      some (encoding :: bytes)) = some bytes → bytes.length = 1 + calcSizeString s := by
    intro s encoding hs
    obtain ⟨t, ht, heq⟩ := Option.bind_eq_some_iff.mp hs
    obtain rfl := Option.some.inj heq
    rw [List.length_cons, length_encodeString ht, Nat.add_comm]
  cases body with
  | noBody =>
      obtain rfl := Option.some.inj h
      rfl
  | byteString s => apply hstring h
  | xml s => apply hstring h

theorem length_encodeDimensions {dimensions : List UInt32} {bytes : List UInt8}
    (h : encodeDimensions dimensions = some bytes) :
  bytes.length = calcSizeDimensions dimensions
  := by
  rw [encodeDimensions] at h
  rw [calcSizeDimensions]
  split at h
  · rename_i hempty
    obtain rfl := Option.some.inj h
    rw [if_pos hempty]
    rfl
  · rename_i hempty
    rw [if_neg hempty]
    split at h
    · cases h
    · obtain rfl := Option.some.inj h
      simp [List.length_flatMap, Nat.mul_comm]

/-! ### Arrays and structures -/

/-- The header of an extension object is as long as its size says, in the tables that are meant. -/
theorem length_objectHeader {types : List DataType} (hmeasured : Measured types) {type : DataType}
    (htype : type ∈ types) {size : Nat} {header : List UInt8}
    (h : objectHeader type size = some header) (content : List UInt8) :
  (header ++ content).length = calcSizeObject type content.length
  := by
  obtain ⟨node, hnode, h⟩ := Option.bind_eq_some_iff.mp h
  split at h
  · obtain rfl := Option.some.inj h
    simp only [List.length_append, List.length_cons, length_encodeUInt32, calcSizeObject,
      hmeasured.typeId_calcSize type htype, length_encodeNodeId hnode]
  · cases h

/-- The size of values that are not deeper than `n` is the length of what is encoded. -/
def SizedUpTo (types : List DataType) (n : Nat) : Prop :=
  ∀ (entry : Entry) (memSize : UInt16) (members : List DataTypeMember) (value : Value)
    (bytes : List UInt8), (∀ width ∈ entry.width, memSize.toNat = width) →
      encode types entry members value = some bytes → depth value < n →
        calcSize types memSize members value = bytes.length

section

variable {types : List DataType} {n : Nat}

/-- The size of a value of a type of the table. -/
theorem SizedUpTo.of_mem (hsized : SizedUpTo types n) (hmeasured : Measured types)
    {type : DataType} (htype : type ∈ types) {value : Value} {bytes : List UInt8}
    (h : encode types type.entry type.members value = some bytes) (hdepth : depth value < n) :
  calcSize types type.memSize type.members value = bytes.length
  := hsized _ _ _ _ _ (hmeasured.memSize_eq type htype) h hdepth

theorem length_encodeEach (hsized : SizedUpTo types n) (hmeasured : Measured types)
    {type : DataType} (htype : type ∈ types) {values : List Value} {parts : List (List UInt8)}
    (h : encodeEach types type values = some parts) (hdepth : depths values < n) :
  calcSizeEach types type false values = parts.flatten.length
  := by
  induction values generalizing parts with
  | nil =>
      obtain rfl := Option.some.inj h
      rfl
  | cons value values ih =>
      rw [depths] at hdepth
      obtain ⟨bytes, hbytes, h⟩ := Option.bind_eq_some_iff.mp h
      obtain ⟨rest, hrest, h⟩ := Option.bind_eq_some_iff.mp h
      obtain rfl := Option.some.inj h
      rw [calcSizeEach, if_neg Bool.false_ne_true,
        hsized.of_mem hmeasured htype hbytes (by omega), ih hrest (by omega), List.flatten_cons,
        List.length_append]

theorem length_encodeObjects (hsized : SizedUpTo types n) (hmeasured : Measured types)
    {type : DataType} (htype : type ∈ types) {values : List Value} {parts : List (List UInt8)}
    (h : encodeObjects types type values = some parts) (hdepth : depths values < n) :
  calcSizeEach types type true values = parts.flatten.length
  := by
  induction values generalizing parts with
  | nil =>
      obtain rfl := Option.some.inj h
      rfl
  | cons value values ih =>
      rw [depths] at hdepth
      obtain ⟨header, hheader, h⟩ := Option.bind_eq_some_iff.mp h
      obtain ⟨content, hcontent, h⟩ := Option.bind_eq_some_iff.mp h
      obtain ⟨rest, hrest, h⟩ := Option.bind_eq_some_iff.mp h
      obtain rfl := Option.some.inj h
      have hlength := length_objectHeader hmeasured htype hheader content
      rw [calcSizeEach, if_pos rfl, hsized.of_mem hmeasured htype hcontent (by omega), ← hlength,
        ih hrest (by omega), List.flatten_cons,
          @List.length_append _ (header ++ content)]

/-- The elements of an overlayable array have their size in memory. -/
theorem length_encodeEach_overlayable (hmeasured : Measured types) {type : DataType}
    (htype : type ∈ types) (hoverlayable : type.overlayable) {values : List Value}
    {parts : List (List UInt8)} (h : encodeEach types type values = some parts) :
  parts.flatten.length = type.memSize.toNat * values.length
  := by
  induction values generalizing parts with
  | nil =>
      obtain rfl := Option.some.inj h
      rfl
  | cons value values ih =>
      obtain ⟨bytes, hbytes, h⟩ := Option.bind_eq_some_iff.mp h
      obtain ⟨rest, hrest, h⟩ := Option.bind_eq_some_iff.mp h
      obtain rfl := Option.some.inj h
      rw [List.flatten_cons, List.length_append,
        hmeasured.length_overlayable type htype hoverlayable value bytes hbytes, ih hrest,
        List.length_cons, Nat.mul_succ, Nat.add_comm]

theorem length_encodeArray (hsized : SizedUpTo types n) (hmeasured : Measured types)
    {type : DataType} (htype : type ∈ types) {value : Value} {bytes : List UInt8}
    (h : encodeArray types type value = some bytes) (hdepth : depth value < n) :
  calcSizeArray types type value = bytes.length
  := by
  cases value with
  | nullArray =>
      obtain rfl := Option.some.inj h
      rfl
  | array elements =>
      rw [encodeArray] at h
      split at h
      · cases h
      · obtain ⟨parts, hparts, h⟩ := Option.bind_eq_some_iff.mp h
        obtain rfl := Option.some.inj h
        rw [calcSizeArray, List.length_append, length_encodeUInt32]
        split
        · rename_i hoverlayable
          rw [length_encodeEach_overlayable hmeasured htype hoverlayable hparts]
        · rw [length_encodeEach hsized hmeasured htype hparts hdepth]
  | _ => cases h

theorem length_encodeMembers (hsized : SizedUpTo types n) (hmeasured : Measured types)
    {members : List DataTypeMember} {values : List Value} {bytes : List UInt8}
    (h : encodeMembers types members values = some bytes) (hdepth : depths values < n) :
  calcSizeMembers types members values = bytes.length
  := by
  induction members generalizing values bytes with
  | nil =>
      cases values with
      | nil =>
          obtain rfl := Option.some.inj h
          rfl
      | cons value values => cases h
  | cons member members ih =>
      cases values with
      | nil => cases h
      | cons value values =>
          rw [depths] at hdepth
          obtain ⟨type, htype, h⟩ := Option.bind_eq_some_iff.mp h
          obtain ⟨part, hpart, h⟩ := Option.bind_eq_some_iff.mp h
          obtain ⟨rest, hrest, h⟩ := Option.bind_eq_some_iff.mp h
          obtain rfl := Option.some.inj h
          have hmem := List.mem_of_getElem? htype
          rw [calcSizeMembers, htype, Option.elim_some, ih hrest (by omega), List.length_append]
          split at hpart
          · rename_i harray
            rw [if_pos harray, length_encodeArray hsized hmeasured hmem hpart (by omega)]
          · rename_i hscalar
            rw [if_neg hscalar, hsized.of_mem hmeasured hmem hpart (by omega)]

/-- The elements of a variant are measured without the length of the array. -/
theorem length_encodeVariantArray (hsized : SizedUpTo types n) (hmeasured : Measured types)
    {type : DataType} (htype : type ∈ types) {value : Value} {bytes : List UInt8}
    (h : (if type.builtin then encodeArray types type value
      else encodeObjectArray types type value) = some bytes) (hdepth : depth value < n) :
  4 + calcSizeVariantElements types type value = bytes.length
  := by
  cases value with
  | nullArray =>
      split at h <;> · obtain rfl := Option.some.inj h; rfl
  | array elements =>
      rw [calcSizeVariantElements]
      split at h
      · rename_i hbuiltin
        rw [encodeArray] at h
        split at h
        · cases h
        · obtain ⟨parts, hparts, h⟩ := Option.bind_eq_some_iff.mp h
          obtain rfl := Option.some.inj h
          rw [hbuiltin, Bool.not_true, length_encodeEach hsized hmeasured htype hparts hdepth,
            List.length_append, length_encodeUInt32]
      · rename_i hbuiltin
        rw [encodeObjectArray] at h
        split at h
        · cases h
        · obtain ⟨parts, hparts, h⟩ := Option.bind_eq_some_iff.mp h
          obtain rfl := Option.some.inj h
          rw [eq_false_of_ne_true hbuiltin, Bool.not_false,
            length_encodeObjects hsized hmeasured htype hparts hdepth, List.length_append,
            length_encodeUInt32]
  | _ => split at h <;> cases h

end

theorem of_guarded {valid : Bool} {encoded : Option (List UInt8)} {bytes : List UInt8}
    (h : guarded valid encoded = some bytes) :
  valid ∧ encoded = some bytes
  := by
  cases valid with
  | true => exact ⟨rfl, h⟩
  | false => cases h

/-- A number is as long as its size in memory. -/
theorem length_number {entry number : Entry} {memSize : UInt16} {width : Nat}
    (hwidth : number.width = some width) (hmemSize : ∀ w ∈ entry.width, memSize.toNat = w)
    {encoded bytes : List UInt8} (h : guarded (entry = number) (some encoded) = some bytes)
    (hlength : encoded.length = width) :
  memSize.toNat = bytes.length
  := by
  obtain ⟨hentry, h⟩ := of_guarded h
  obtain rfl := Option.some.inj h
  rw [hlength]
  apply hmemSize
  rw [of_decide_eq_true hentry]
  apply hwidth

/-- What the size says grows with the depth of the values. -/
theorem sizedUpTo {types : List DataType} (hmeasured : Measured types) (n : Nat) :
  SizedUpTo types n
  := by
  induction n with
  | zero =>
      intro entry memSize members value bytes _ _ hdepth
      cases hdepth
  | succ n ih =>
      intro entry memSize members value bytes hmemSize h hdepth
      cases value with
      | boolean b => apply @length_number _ .boolean _ _ rfl hmemSize _ _ h rfl
      | byte m => apply @length_number _ .byte _ _ rfl hmemSize _ _ h rfl
      | uint16 m =>
          apply @length_number _ .uint16 _ _ rfl hmemSize _ _ h (length_encodeUInt16 m)
      | uint32 m =>
          apply @length_number _ .uint32 _ _ rfl hmemSize _ _ h (length_encodeUInt32 m)
      | uint64 m =>
          apply @length_number _ .uint64 _ _ rfl hmemSize _ _ h (length_encodeUInt64 m)
      | string s => exact (length_encodeString (of_guarded h).2).symm
      | guid g =>
          obtain rfl := Option.some.inj (of_guarded h).2
          exact (length_encodeGuid g).symm
      | nodeId id => exact (length_encodeNodeId (of_guarded h).2).symm
      | expandedNodeId id namespaceUri serverIndex =>
          exact (length_encodeExpandedNodeId (of_guarded h).2).symm
      | localizedText locale text => exact (length_encodeLocalizedText (of_guarded h).2).symm
      | encodedObject typeId body =>
          obtain ⟨node, hnode, h⟩ := Option.bind_eq_some_iff.mp (of_guarded h).2
          obtain ⟨rest, hrest, h⟩ := Option.bind_eq_some_iff.mp h
          obtain rfl := Option.some.inj h
          rw [calcSize, List.length_append, length_encodeNodeId hnode, body.length_encode hrest]
          omega
      | decodedObject index data =>
          obtain ⟨type, htype, h⟩ := Option.bind_eq_some_iff.mp (of_guarded h).2
          obtain ⟨header, hheader, h⟩ := Option.bind_eq_some_iff.mp h
          obtain ⟨content, hcontent, h⟩ := Option.bind_eq_some_iff.mp h
          obtain rfl := Option.some.inj h
          have hmem := List.mem_of_getElem? htype
          rw [calcSize, htype, Option.elim_some, if_pos (hmeasured.typeId_numeric type hmem),
            ih.of_mem hmeasured hmem hcontent (Nat.lt_of_succ_lt_succ hdepth),
            length_objectHeader hmeasured hmem hheader]
      | dataValue hasValue value stamps =>
          obtain ⟨part, hpart, h⟩ := Option.bind_eq_some_iff.mp (of_guarded h).2
          obtain rfl := Option.some.inj h
          have hvalue : (if hasValue then calcSize types 0 [] value else 0) = part.length := by
            cases hasValue with
            | true =>
                apply ih _ _ _ _ _ _ hpart (Nat.lt_of_succ_lt_succ hdepth)
                intro width hwidth
                cases hwidth
            | false =>
                obtain rfl := Option.some.inj hpart
                rfl
          rw [calcSize, hvalue, List.length_cons, List.length_append, stamps.length_encode]
          omega
      | emptyVariant =>
          obtain rfl := Option.some.inj (of_guarded h).2
          rfl
      | scalarVariant index data =>
          obtain ⟨type, htype, h⟩ := Option.bind_eq_some_iff.mp (of_guarded h).2
          obtain ⟨header, hheader, h⟩ := Option.bind_eq_some_iff.mp h
          obtain ⟨content, hcontent, h⟩ := Option.bind_eq_some_iff.mp h
          obtain rfl := Option.some.inj h
          have hmem := List.mem_of_getElem? htype
          have hdata := ih.of_mem hmeasured hmem hcontent (Nat.lt_of_succ_lt_succ hdepth)
          rw [calcSize, htype, Option.elim_some, hdata, List.length_cons, Nat.add_comm 1]
          split at hheader
          · rename_i hbuiltin
            obtain rfl := Option.some.inj hheader
            rw [if_pos hbuiltin]
            rfl
          · rename_i hbuiltin
            rw [if_neg hbuiltin, if_pos (hmeasured.typeId_numeric type hmem),
              length_objectHeader hmeasured hmem hheader, Nat.add_comm]
      | arrayVariant index data dimensions =>
          obtain ⟨type, htype, h⟩ := Option.bind_eq_some_iff.mp (of_guarded h).2
          obtain ⟨content, hcontent, h⟩ := Option.bind_eq_some_iff.mp h
          obtain ⟨dimensionBytes, hdimensions, h⟩ := Option.bind_eq_some_iff.mp h
          obtain rfl := Option.some.inj h
          have hmem := List.mem_of_getElem? htype
          have hdata := length_encodeVariantArray ih hmeasured hmem hcontent
            (Nat.lt_of_succ_lt_succ hdepth)
          rw [calcSize, htype, Option.elim_some,
            if_pos (Or.inr (hmeasured.typeId_numeric type hmem)), List.length_cons,
            List.length_append, ← hdata, length_encodeDimensions hdimensions]
          omega
      | diagnosticInfo info inner =>
          exact (length_encodeDiagnosticInfo (of_guarded h).2).symm
      | struct values =>
          apply length_encodeMembers ih hmeasured (of_guarded h).2 (Nat.lt_of_succ_lt_succ hdepth)
      | nullArray => cases h
      | array elements => cases h

/-- Whatever is encoded, the size of it has been computed right. -/
theorem calcSize_eq {types : List DataType} (hmeasured : Measured types) {type : DataType}
    {values : List Value} {bytes : List UInt8} (h : encodeBinary types type values = some bytes) :
  calcSizeMembers types type.members values = bytes.length
  := length_encodeMembers (sizedUpTo hmeasured _) hmeasured h (Nat.lt_succ_self _)

theorem measured_fewTypes :
  Measured fewTypes
  := by
  constructor
  · decide
  · simp [fewTypes, DataType.entry, jumpTable, builtinTypesCount, Entry.width]
  · decide
  · intro type htype hoverlayable value bytes h
    have hdouble : type = fewTypes[0] := by
      revert hoverlayable
      simp only [fewTypes, List.mem_cons, List.not_mem_nil, or_false] at htype
      rcases htype with rfl | rfl | rfl | rfl | rfl <;> decide
    rw [hdouble] at h ⊢
    cases value with
    | uint64 n =>
        obtain rfl := Option.some.inj (of_guarded h).2
        apply length_encodeUInt64
    | _ => cases h

theorem calcSize_eq_fewValues :
  ∃ bytes, encodeBinary fewTypes fewTypes[4] fewValues = some bytes ∧
    calcSizeMembers fewTypes fewTypes[4].members fewValues = bytes.length
  := ⟨_, rfl, calcSize_eq measured_fewTypes rfl⟩

end Binary

end UA
