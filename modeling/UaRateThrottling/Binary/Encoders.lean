import UaRateThrottling.Binary.Encode
import UaRateThrottling.Binary.Size
import UaRateThrottling.Channel.Encoder

/-!
# The encoders of values

How `UA_encodeBinary` encodes a value when its buffers are exchanged: where a part of a value is
written as a whole, where it is copied as far as there is room, and what is encoded again in a new
buffer.  `bytes_encoder` says that the encoders write what is encoded into a buffer that is large
enough.
-/

namespace UA

namespace Binary

/-- Nothing is written. -/
def nothing : Encoder := .content []

/-- A part that may be missing, after the parts before it. -/
def also (first : Encoder) (part : Option Encoder) : Encoder := part.elim first (.both first)

/-- `String_encodeBinary` -/
def encoderString : Option (List UInt8) → Encoder
  | none => .number (encodeUInt32 0xffffffff)
  | some s =>
    if s.length > int32Max then .error .badInternalError
    else .andThen (.number (encodeUInt32 (UInt32.ofNat s.length))) (.content (s.map ([·])))

/-- `Guid_encodeBinary` -/
def encoderGuid (g : Zuth.Guid) : Encoder :=
  .both (.both (.both (.number (encodeUInt32 g.data1)) (.number (encodeUInt16 g.data2)))
    (.number (encodeUInt16 g.data3))) (.number g.data4.toList)

/-- `NodeId_encodeBinaryWithEncodingMask` -/
def NodeId.encoder (id : NodeId) (encoding : UInt8) : Encoder :=
  match id.identifier with
  | .numeric n =>
    if n > 65535 ∨ id.namespaceIndex > 255 then
      .both (.both (.number [encoding ||| 2]) (.number (encodeUInt16 id.namespaceIndex)))
        (.number (encodeUInt32 n))
    else if n > 255 ∨ id.namespaceIndex > 0 then
      .both (.both (.number [encoding ||| 1]) (.number [id.namespaceIndex.toUInt8]))
        (.number (encodeUInt16 n.toUInt16))
    else .both (.number [encoding ||| 0]) (.number [n.toUInt8])
  | .string s =>
    .both (.both (.number [encoding ||| 3]) (.number (encodeUInt16 id.namespaceIndex)))
      (encoderString s)
  | .guid g =>
    .both (.both (.number [encoding ||| 4]) (.number (encodeUInt16 id.namespaceIndex)))
      (encoderGuid g)
  | .byteString s =>
    .both (.both (.number [encoding ||| 5]) (.number (encodeUInt16 id.namespaceIndex)))
      (encoderString s)

/-- `ExpandedNodeId_encodeBinary` -/
def encoderExpandedNodeId (id : NodeId) (namespaceUri : Option (List UInt8))
    (serverIndex : UInt32) : Encoder :=
  let hasUri := namespaceUri.getD [] ≠ []
  also (also (id.encoder (flag 0x80 hasUri ||| flag 0x40 (serverIndex > 0)))
      (if hasUri then some (encoderString namespaceUri) else none))
    (if serverIndex > 0 then some (.number (encodeUInt32 serverIndex)) else none)

/-- `LocalizedText_encodeBinary` -/
def encoderLocalizedText (locale text : Option (List UInt8)) : Encoder :=
  also (also (.number [flag 0x01 locale.isSome ||| flag 0x02 text.isSome])
      (locale.map (fun s => encoderString (some s))))
    (text.map (fun s => encoderString (some s)))

/-- `DataValue_encodeBinary` after the value. -/
def Stamps.encoder (stamps : Stamps) (first : Encoder) : Encoder :=
  also (also (also (also (also first
      (stamps.status.map (fun n => .number (encodeUInt32 n))))
      (stamps.sourceTimestamp.map (fun n => .number (encodeUInt64 n))))
      (stamps.sourcePicoseconds.map (fun n => .number (encodeUInt16 n))))
      (stamps.serverTimestamp.map (fun n => .number (encodeUInt64 n))))
      (stamps.serverPicoseconds.map (fun n => .number (encodeUInt16 n)))

/-- `DiagnosticInfo_encodeBinary`, with the encoder of the inner diagnostic info. -/
def Diagnostics.encoder (info : Diagnostics) (inner : Option Encoder) : Encoder :=
  also (also (also (also (also (also (also (.number [info.mask inner.isSome])
      (info.symbolicId.map (fun n => .number (encodeUInt32 n))))
      (info.namespaceUri.map (fun n => .number (encodeUInt32 n))))
      (info.localizedText.map (fun n => .number (encodeUInt32 n))))
      (info.locale.map (fun n => .number (encodeUInt32 n))))
      (info.additionalInfo.map encoderString))
      (info.innerStatusCode.map (fun n => .number (encodeUInt32 n))))
      inner

/-- `DiagnosticInfo_encodeBinary` -/
def encoderDiagnosticInfo : Diagnostics → List Diagnostics → Encoder
  | info, [] => info.encoder none
  | info, info' :: inner => info.encoder (some (encoderDiagnosticInfo info' inner))

/-- `ExtensionObject_encodeBinary` of a body that is encoded already. -/
def Body.encoder (body : Body) (typeId : NodeId) : Encoder :=
  match body with
  | .noBody => .both (typeId.encoder 0) (.number [0])
  | .byteString s => .both (.both (typeId.encoder 0) (.number [1])) (encoderString s)
  | .xml s => .both (.both (typeId.encoder 0) (.number [2])) (encoderString s)

/-- `ExtensionObject_encodeBinary` of a value of the given type and size. -/
def encoderObject (type : DataType) (size : Nat) (content : Encoder) : Encoder :=
  let typeId : NodeId := ⟨type.typeId.namespaceIndex, .numeric type.binaryEncodingId.toUInt32⟩
  let header := .both (typeId.encoder 0) (.number [1])
  if ¬type.typeId.isNumeric then .error .badEncodingError
  else if size > int32Max then .abandon header
  else .both (.both header (.number (encodeUInt32 (UInt32.ofNat size)))) content

/-- `Array_encodeBinary` of the dimensions of an array. -/
def encoderDimensions (dimensions : List UInt32) : Option Encoder :=
  if dimensions = [] then none
  else if dimensions.length > int32Max then some (.error .badInternalError)
  else some (.andThen (.number (encodeUInt32 (UInt32.ofNat dimensions.length)))
    (.content (dimensions.map encodeUInt32)))

/-- One part after the other, up to the first error. -/
def inOrder : List Encoder → Encoder
  | [] => nothing
  | part :: parts => .andThen part (inOrder parts)

/-- A value that is encoded by its own function. -/
def guardedEncoder (valid : Bool) (encoder : Encoder) : Encoder :=
  if valid then encoder else .error .badInternalError

mutual

/-- The function of `encodeBinaryJumpTable`, for a type with the given members. -/
def encoder (types : List DataType) (entry : Entry) (members : List DataTypeMember) :
    Value → Encoder
  | .boolean b => guardedEncoder (entry = .boolean) (.number [b])
  | .byte n => guardedEncoder (entry = .byte) (.number [n])
  | .uint16 n => guardedEncoder (entry = .uint16) (.number (encodeUInt16 n))
  | .uint32 n => guardedEncoder (entry = .uint32) (.number (encodeUInt32 n))
  | .uint64 n => guardedEncoder (entry = .uint64) (.number (encodeUInt64 n))
  | .string s => guardedEncoder (entry = .string) (encoderString s)
  | .guid g => guardedEncoder (entry = .guid) (encoderGuid g)
  | .nodeId id => guardedEncoder (entry = .nodeId) (id.encoder 0)
  | .expandedNodeId id namespaceUri serverIndex =>
    guardedEncoder (entry = .expandedNodeId) (encoderExpandedNodeId id namespaceUri serverIndex)
  | .localizedText locale text =>
    guardedEncoder (entry = .localizedText) (encoderLocalizedText locale text)
  | .encodedObject typeId body =>
    guardedEncoder (entry = .extensionObject) (body.encoder typeId)
  | .decodedObject type data => guardedEncoder (entry = .extensionObject)
    ((types[type]?).elim (.error .badEncodingError) (fun type =>
      encoderObject type (calcSize types type.memSize type.members data)
        (encoder types type.entry type.members data)))
  | .dataValue hasValue value stamps => guardedEncoder (entry = .dataValue)
    (stamps.encoder (also (.number [stamps.mask hasValue])
      (if hasValue then some (encoder types .variant [] value) else none)))
  | .emptyVariant => guardedEncoder (entry = .variant) (.number [0])
  | .scalarVariant type data => guardedEncoder (entry = .variant)
    ((types[type]?).elim (.error .badEncodingError) (fun type =>
      .both (.number [variantMask type])
        (if type.builtin then encoder types type.entry type.members data
        else .member (encoderObject type (calcSize types type.memSize type.members data)
          (encoder types type.entry type.members data)))))
  | .arrayVariant type data dimensions => guardedEncoder (entry = .variant)
    ((types[type]?).elim (.error .badEncodingError) (fun type =>
      also (.both (.number [variantMask type ||| 0x80 ||| flag 0x40 (dimensions ≠ [])])
          (if type.builtin then encoderArray types type data
          else encoderObjectArray types type data))
        (encoderDimensions dimensions)))
  | .diagnosticInfo info inner =>
    guardedEncoder (entry = .diagnosticInfo) (encoderDiagnosticInfo info inner)
  | .struct values => guardedEncoder (entry = .internal) (encoderMembers types members values)
  | .nullArray => .error .badInternalError
  | .array _ => .error .badInternalError

/-- `Array_encodeBinary` -/
def encoderArray (types : List DataType) (type : DataType) : Value → Encoder
  | .nullArray => .number (encodeUInt32 0xffffffff)
  | .array elements =>
    if elements.length > int32Max then .error .badInternalError
    else .andThen (.number (encodeUInt32 (UInt32.ofNat elements.length)))
      (if type.overlayable then
        (encodeEach types type elements).elim (.error .badInternalError) .content
      else inOrder (encoderEach types type elements))
  | _ => .error .badInternalError

/-- `Variant_encodeBinaryWrapExtensionObject` with the length of the array. -/
def encoderObjectArray (types : List DataType) (type : DataType) : Value → Encoder
  | .nullArray => .number (encodeUInt32 0)
  | .array elements =>
    if elements.length > int32Max then .error .badEncodingError
    else .andThen (.number (encodeUInt32 (UInt32.ofNat elements.length)))
      (inOrder (encoderObjects types type elements))
  | _ => .error .badInternalError

/-- The members of a structure in `UA_encodeBinaryInternal`. -/
def encoderMembers (types : List DataType) : List DataTypeMember → List Value → Encoder
  | [], [] => nothing
  | member :: members, value :: values =>
    .andThen
      ((types[member.memberTypeIndex]?).elim (.error .badInternalError) (fun type =>
        if member.isArray then encoderArray types type value
        else .member (encoder types type.entry type.members value)))
      (encoderMembers types members values)
  | _, _ => .error .badInternalError

/-- The elements of an array, one by one. -/
def encoderEach (types : List DataType) (type : DataType) : List Value → List Encoder
  | [] => []
  | value :: values =>
    .member (encoder types type.entry type.members value) :: encoderEach types type values

/-- The elements of an array, each in an extension object. -/
def encoderObjects (types : List DataType) (type : DataType) : List Value → List Encoder
  | [] => []
  | value :: values =>
    .member (encoderObject type (calcSize types type.memSize type.members value)
      (encoder types type.entry type.members value)) :: encoderObjects types type values

end

/-! ### The bytes they write -/

theorem bytes_also (first : Encoder) (part : Option Encoder) :
  (also first part).bytes = first.bytes ++ (part.map Encoder.bytes).getD []
  := by
  cases part with
  | none => simp [also]
  | some part => rfl

theorem bytes_encoderString {s : Option (List UInt8)} {bytes : List UInt8}
    (h : encodeString s = some bytes) :
  (encoderString s).bytes = bytes
  := by
  cases s with
  | none => exact Option.some.inj h
  | some s =>
      rw [encodeString] at h
      rw [encoderString]
      split at h
      · cases h
      · rename_i hlength
        obtain rfl := Option.some.inj h
        rw [if_neg hlength, Encoder.bytes, Encoder.bytes, Encoder.bytes, ← List.flatMap_def,
          List.flatMap_singleton']

theorem bytes_encoderGuid (g : Zuth.Guid) :
  (encoderGuid g).bytes = encodeGuid g
  := by
  simp [encoderGuid, encodeGuid, Encoder.bytes]

theorem NodeId.bytes_encoder {id : NodeId} {encoding : UInt8} {bytes : List UInt8}
    (h : id.encodeWithEncodingMask encoding = some bytes) :
  (id.encoder encoding).bytes = bytes
  := by
  obtain ⟨namespaceIndex, identifier⟩ := id
  cases identifier with
  | numeric n =>
      rw [NodeId.encodeWithEncodingMask] at h
      rw [NodeId.encoder]
      dsimp only at h ⊢
      split_ifs at h ⊢ <;> simpa [Encoder.bytes] using h
  | string s =>
      obtain ⟨sBytes, hs, h⟩ := Option.bind_eq_some_iff.mp h
      obtain rfl := Option.some.inj h
      simp [NodeId.encoder, Encoder.bytes, bytes_encoderString hs]
  | guid g =>
      obtain rfl := Option.some.inj h
      simp [NodeId.encoder, Encoder.bytes, bytes_encoderGuid]
  | byteString s =>
      obtain ⟨sBytes, hs, h⟩ := Option.bind_eq_some_iff.mp h
      obtain rfl := Option.some.inj h
      simp [NodeId.encoder, Encoder.bytes, bytes_encoderString hs]

theorem bytes_encoderExpandedNodeId {id : NodeId} {namespaceUri : Option (List UInt8)}
    {serverIndex : UInt32} {bytes : List UInt8}
    (h : encodeExpandedNodeId id namespaceUri serverIndex = some bytes) :
  (encoderExpandedNodeId id namespaceUri serverIndex).bytes = bytes
  := by
  obtain ⟨node, hnode, h⟩ := Option.bind_eq_some_iff.mp h
  obtain ⟨uri, huri, h⟩ := Option.bind_eq_some_iff.mp h
  obtain rfl := Option.some.inj h
  have huriBytes : ((if namespaceUri.getD [] ≠ [] then some (encoderString namespaceUri)
      else none).map Encoder.bytes).getD [] = uri := by
    split_ifs at huri ⊢
    · apply bytes_encoderString huri
    · apply Option.some.inj huri
  have hindexBytes : ((if serverIndex > 0 then some (Encoder.number (encodeUInt32 serverIndex))
      else none).map Encoder.bytes).getD [] =
      if serverIndex > 0 then encodeUInt32 serverIndex else [] := by
    split_ifs <;> rfl
  rw [encoderExpandedNodeId, bytes_also, bytes_also, NodeId.bytes_encoder hnode, huriBytes,
    hindexBytes, List.append_assoc]

/-- A string that may be missing. -/
theorem bytes_stringPart {part : Option (Option (List UInt8))} {bytes : List UInt8}
    (h : encodeStringPart part = some bytes) :
  ((part.map encoderString).map Encoder.bytes).getD [] = bytes
  := by
  cases part with
  | none => exact Option.some.inj h
  | some s => exact bytes_encoderString h

/-- A number that may be missing. -/
theorem bytes_part {α : Type} (encode : α → List UInt8) (part : Option α) :
  ((part.map (fun n => Encoder.number (encode n))).map Encoder.bytes).getD [] =
    encodePart encode part
  := by
  cases part <;> rfl

theorem bytes_encoderLocalizedText {locale text : Option (List UInt8)} {bytes : List UInt8}
    (h : encodeLocalizedText locale text = some bytes) :
  (encoderLocalizedText locale text).bytes = bytes
  := by
  obtain ⟨localeBytes, hlocale, h⟩ := Option.bind_eq_some_iff.mp h
  obtain ⟨textBytes, htext, h⟩ := Option.bind_eq_some_iff.mp h
  obtain rfl := Option.some.inj h
  have hmap : ∀ s : Option (List UInt8),
      s.map (fun s => encoderString (some s)) = (s.map some).map encoderString := by
    intro s
    cases s <;> rfl
  rw [encoderLocalizedText, hmap, hmap, bytes_also, bytes_also, bytes_stringPart hlocale,
    bytes_stringPart htext, List.append_assoc]
  rfl

theorem Stamps.bytes_encoder (stamps : Stamps) (first : Encoder) :
  (stamps.encoder first).bytes = first.bytes ++ stamps.encode
  := by
  simp only [Stamps.encoder, bytes_also, bytes_part, Stamps.encode, List.append_assoc]

theorem Diagnostics.bytes_encoder {info : Diagnostics} {inner : Option Encoder}
    {bytes : List UInt8} (h : info.encode (inner.map Encoder.bytes) = some bytes) :
  (info.encoder inner).bytes = bytes
  := by
  obtain ⟨additional, hadditional, h⟩ := Option.bind_eq_some_iff.mp h
  obtain rfl := Option.some.inj h
  simp only [Diagnostics.encoder, bytes_also, bytes_part, bytes_stringPart hadditional,
    List.append_assoc, Option.isSome_map]
  rfl

theorem bytes_encoderDiagnosticInfo {info : Diagnostics} {inner : List Diagnostics}
    {bytes : List UInt8} (h : encodeDiagnosticInfo info inner = some bytes) :
  (encoderDiagnosticInfo info inner).bytes = bytes
  := by
  induction inner generalizing info bytes with
  | nil => apply @Diagnostics.bytes_encoder info none bytes h
  | cons info' inner ih =>
      obtain ⟨innerBytes, hinner, h⟩ := Option.bind_eq_some_iff.mp h
      apply Diagnostics.bytes_encoder
      rw [Option.map_some, ih hinner, h]

theorem Body.bytes_encoder {body : Body} {typeId : NodeId} {node rest : List UInt8}
    (hnode : typeId.encodeWithEncodingMask 0 = some node) (h : body.encode = some rest) :
  (body.encoder typeId).bytes = node ++ rest
  := by
  cases body with
  | noBody =>
      obtain rfl := Option.some.inj h
      rw [Body.encoder, Encoder.bytes, NodeId.bytes_encoder hnode, Encoder.bytes]
  | byteString s =>
      obtain ⟨sBytes, hs, h⟩ := Option.bind_eq_some_iff.mp h
      obtain rfl := Option.some.inj h
      simp [Body.encoder, Encoder.bytes, NodeId.bytes_encoder hnode, bytes_encoderString hs]
  | xml s =>
      obtain ⟨sBytes, hs, h⟩ := Option.bind_eq_some_iff.mp h
      obtain rfl := Option.some.inj h
      simp [Body.encoder, Encoder.bytes, NodeId.bytes_encoder hnode, bytes_encoderString hs]

theorem bytes_encoderObject {type : DataType} {size : Nat} {header : List UInt8}
    (h : objectHeader type size = some header) (content : Encoder) :
  (encoderObject type size content).bytes = header ++ content.bytes
  := by
  obtain ⟨node, hnode, h⟩ := Option.bind_eq_some_iff.mp h
  split at h
  · rename_i hvalid
    obtain rfl := Option.some.inj h
    rw [encoderObject, if_neg (not_not.mpr hvalid.1), if_neg (Nat.not_lt.mpr hvalid.2)]
    simp [Encoder.bytes, NodeId.bytes_encoder hnode]
  · cases h

theorem bytes_encoderDimensions {dimensions : List UInt32} {bytes : List UInt8}
    (h : encodeDimensions dimensions = some bytes) :
  ((encoderDimensions dimensions).map Encoder.bytes).getD [] = bytes
  := by
  rw [encodeDimensions] at h
  rw [encoderDimensions]
  split_ifs at h ⊢
  · exact Option.some.inj h
  · rw [← Option.some.inj h, List.flatMap_def]
    rfl

/-- The encoders of values that are not deeper than `n` write what is encoded. -/
def WriteUpTo (types : List DataType) (n : Nat) : Prop :=
  ∀ (entry : Entry) (members : List DataTypeMember) (value : Value) (bytes : List UInt8),
    encode types entry members value = some bytes → depth value < n →
      (encoder types entry members value).bytes = bytes

section

variable {types : List DataType} {n : Nat}

theorem bytes_encoderEach (hwrite : WriteUpTo types n) {type : DataType} {values : List Value}
    {parts : List (List UInt8)} (h : encodeEach types type values = some parts)
    (hdepth : depths values < n) :
  (inOrder (encoderEach types type values)).bytes = parts.flatten
  := by
  induction values generalizing parts with
  | nil =>
      obtain rfl := Option.some.inj h
      rfl
  | cons value values ih =>
      rw [depths] at hdepth
      obtain ⟨bytes, hbytes, h⟩ := Option.bind_eq_some_iff.mp h
      obtain ⟨rest, hrest, h⟩ := Option.bind_eq_some_iff.mp h
      obtain rfl := Option.some.inj h
      rw [encoderEach, inOrder, Encoder.bytes, Encoder.bytes,
        hwrite _ _ _ _ hbytes (by omega), ih hrest (by omega), List.flatten_cons]

theorem bytes_encoderObjects (hwrite : WriteUpTo types n) {type : DataType}
    {values : List Value} {parts : List (List UInt8)}
    (h : encodeObjects types type values = some parts) (hdepth : depths values < n) :
  (inOrder (encoderObjects types type values)).bytes = parts.flatten
  := by
  induction values generalizing parts with
  | nil =>
      obtain rfl := Option.some.inj h
      rfl
  | cons value values ih =>
      rw [depths] at hdepth
      obtain ⟨header, hheader, h⟩ := Option.bind_eq_some_iff.mp h
      obtain ⟨content, hcontent, h⟩ := Option.bind_eq_some_iff.mp h
      obtain ⟨rest, hrest, h⟩ := Option.bind_eq_some_iff.mp h
      obtain rfl := Option.some.inj h
      rw [encoderObjects, inOrder, Encoder.bytes, Encoder.bytes, bytes_encoderObject hheader,
        hwrite _ _ _ _ hcontent (by omega), ih hrest (by omega), List.flatten_cons]

theorem bytes_encoderArray (hwrite : WriteUpTo types n) {type : DataType} {value : Value}
    {bytes : List UInt8} (h : encodeArray types type value = some bytes)
    (hdepth : depth value < n) :
  (encoderArray types type value).bytes = bytes
  := by
  cases value with
  | nullArray => exact Option.some.inj h
  | array elements =>
      rw [encodeArray] at h
      rw [encoderArray]
      split at h
      · cases h
      · rename_i hlength
        obtain ⟨parts, hparts, h⟩ := Option.bind_eq_some_iff.mp h
        obtain rfl := Option.some.inj h
        rw [if_neg hlength, Encoder.bytes, Encoder.bytes]
        split
        · rw [hparts]
          rfl
        · rw [bytes_encoderEach hwrite hparts hdepth]
  | _ => cases h

theorem bytes_encoderObjectArray (hwrite : WriteUpTo types n) {type : DataType} {value : Value}
    {bytes : List UInt8} (h : encodeObjectArray types type value = some bytes)
    (hdepth : depth value < n) :
  (encoderObjectArray types type value).bytes = bytes
  := by
  cases value with
  | nullArray => exact Option.some.inj h
  | array elements =>
      rw [encodeObjectArray] at h
      rw [encoderObjectArray]
      split at h
      · cases h
      · rename_i hlength
        obtain ⟨parts, hparts, h⟩ := Option.bind_eq_some_iff.mp h
        obtain rfl := Option.some.inj h
        rw [if_neg hlength, Encoder.bytes, Encoder.bytes,
          bytes_encoderObjects hwrite hparts hdepth]
  | _ => cases h

theorem bytes_encoderMembers (hwrite : WriteUpTo types n) {members : List DataTypeMember}
    {values : List Value} {bytes : List UInt8}
    (h : encodeMembers types members values = some bytes) (hdepth : depths values < n) :
  (encoderMembers types members values).bytes = bytes
  := by
  induction members generalizing values bytes with
  | nil =>
      cases values with
      | nil =>
          obtain rfl := Option.some.inj h
          rfl
      | cons value values => cases h
  | cons member members ih =>
      cases values with
      | nil => cases h
      | cons value values =>
          rw [depths] at hdepth
          obtain ⟨type, htype, h⟩ := Option.bind_eq_some_iff.mp h
          obtain ⟨part, hpart, h⟩ := Option.bind_eq_some_iff.mp h
          obtain ⟨rest, hrest, h⟩ := Option.bind_eq_some_iff.mp h
          obtain rfl := Option.some.inj h
          rw [encoderMembers, Encoder.bytes, htype, Option.elim_some, ih hrest (by omega)]
          split at hpart
          · rename_i harray
            rw [if_pos harray, bytes_encoderArray hwrite hpart (by omega)]
          · rename_i hscalar
            rw [if_neg hscalar, Encoder.bytes, hwrite _ _ _ _ hpart (by omega)]

end

/-- What is encoded at all is of the right kind, and is left to its encoder. -/
theorem bytes_guardedEncoder {valid : Bool} {encoded : Option (List UInt8)} {encoder : Encoder}
    {bytes : List UInt8} (h : guarded valid encoded = some bytes)
    (hbytes : encoded = some bytes → encoder.bytes = bytes) :
  (guardedEncoder valid encoder).bytes = bytes
  := by
  obtain ⟨hvalid, h⟩ := of_guarded h
  rw [guardedEncoder, if_pos hvalid]
  apply hbytes h

/-- What the encoders write grows with the depth of the values. -/
theorem writeUpTo (types : List DataType) (n : Nat) :
  WriteUpTo types n
  := by
  induction n with
  | zero =>
      intro entry members value bytes _ hdepth
      cases hdepth
  | succ n ih =>
      intro entry members value bytes h hdepth
      cases value with
      | boolean b =>
          rw [encoder]
          exact bytes_guardedEncoder h Option.some.inj
      | byte m =>
          rw [encoder]
          exact bytes_guardedEncoder h Option.some.inj
      | uint16 m =>
          rw [encoder]
          exact bytes_guardedEncoder h Option.some.inj
      | uint32 m =>
          rw [encoder]
          exact bytes_guardedEncoder h Option.some.inj
      | uint64 m =>
          rw [encoder]
          exact bytes_guardedEncoder h Option.some.inj
      | string s =>
          rw [encoder]
          apply bytes_guardedEncoder h bytes_encoderString
      | guid g =>
          rw [encoder]
          apply bytes_guardedEncoder h
          rw [bytes_encoderGuid]
          apply Option.some.inj
      | nodeId id =>
          rw [encoder]
          apply bytes_guardedEncoder h NodeId.bytes_encoder
      | expandedNodeId id namespaceUri serverIndex =>
          rw [encoder]
          apply bytes_guardedEncoder h bytes_encoderExpandedNodeId
      | localizedText locale text =>
          rw [encoder]
          apply bytes_guardedEncoder h bytes_encoderLocalizedText
      | encodedObject typeId body =>
          rw [encoder]
          apply bytes_guardedEncoder h
          intro h
          obtain ⟨node, hnode, h⟩ := Option.bind_eq_some_iff.mp h
          obtain ⟨rest, hrest, h⟩ := Option.bind_eq_some_iff.mp h
          obtain rfl := Option.some.inj h
          rw [Body.bytes_encoder hnode hrest]
      | decodedObject index data =>
          rw [encoder]
          apply bytes_guardedEncoder h
          intro h
          obtain ⟨type, htype, h⟩ := Option.bind_eq_some_iff.mp h
          obtain ⟨header, hheader, h⟩ := Option.bind_eq_some_iff.mp h
          obtain ⟨content, hcontent, h⟩ := Option.bind_eq_some_iff.mp h
          obtain rfl := Option.some.inj h
          rw [htype, Option.elim_some,
            bytes_encoderObject hheader, ih _ _ _ _ hcontent (Nat.lt_of_succ_lt_succ hdepth)]
      | dataValue hasValue value stamps =>
          rw [encoder]
          apply bytes_guardedEncoder h
          intro h
          obtain ⟨part, hpart, h⟩ := Option.bind_eq_some_iff.mp h
          obtain rfl := Option.some.inj h
          have hvalue : ((if hasValue then some (encoder types .variant [] value)
              else none).map Encoder.bytes).getD [] = part := by
            cases hasValue with
            | true => exact ih _ _ _ _ hpart (Nat.lt_of_succ_lt_succ hdepth)
            | false => exact Option.some.inj hpart
          rw [Stamps.bytes_encoder, bytes_also, hvalue,
            Encoder.bytes, List.append_assoc]
          rfl
      | emptyVariant =>
          rw [encoder]
          exact bytes_guardedEncoder h Option.some.inj
      | scalarVariant index data =>
          rw [encoder]
          apply bytes_guardedEncoder h
          intro h
          obtain ⟨type, htype, h⟩ := Option.bind_eq_some_iff.mp h
          obtain ⟨header, hheader, h⟩ := Option.bind_eq_some_iff.mp h
          obtain ⟨content, hcontent, h⟩ := Option.bind_eq_some_iff.mp h
          obtain rfl := Option.some.inj h
          have hdata := ih _ _ _ _ hcontent (Nat.lt_of_succ_lt_succ hdepth)
          rw [htype, Option.elim_some, Encoder.bytes,
            Encoder.bytes]
          split at hheader
          · rename_i hbuiltin
            obtain rfl := Option.some.inj hheader
            rw [if_pos hbuiltin, hdata]
            rfl
          · rename_i hbuiltin
            rw [if_neg hbuiltin, Encoder.bytes, bytes_encoderObject hheader, hdata]
            rfl
      | arrayVariant index data dimensions =>
          rw [encoder]
          apply bytes_guardedEncoder h
          intro h
          obtain ⟨type, htype, h⟩ := Option.bind_eq_some_iff.mp h
          obtain ⟨content, hcontent, h⟩ := Option.bind_eq_some_iff.mp h
          obtain ⟨dimensionBytes, hdimensions, h⟩ := Option.bind_eq_some_iff.mp h
          obtain rfl := Option.some.inj h
          have hdata : (if type.builtin then encoderArray types type data
              else encoderObjectArray types type data).bytes = content := by
            split at hcontent
            · rename_i hbuiltin
              rw [if_pos hbuiltin,
                bytes_encoderArray ih hcontent (Nat.lt_of_succ_lt_succ hdepth)]
            · rename_i hbuiltin
              rw [if_neg hbuiltin,
                bytes_encoderObjectArray ih hcontent (Nat.lt_of_succ_lt_succ hdepth)]
          rw [htype, Option.elim_some, bytes_also,
            bytes_encoderDimensions hdimensions, Encoder.bytes, Encoder.bytes, hdata]
          rfl
      | diagnosticInfo info inner =>
          rw [encoder]
          apply bytes_guardedEncoder h bytes_encoderDiagnosticInfo
      | struct values =>
          rw [encoder]
          apply bytes_guardedEncoder h
          intro h
          apply bytes_encoderMembers ih h (Nat.lt_of_succ_lt_succ hdepth)
      | nullArray => cases h
      | array elements => cases h

/-- The encoder of a structure writes what is encoded into a buffer that is large enough. -/
theorem bytes_encoder {types : List DataType} {type : DataType} {values : List Value}
    {bytes : List UInt8} (h : encodeBinary types type values = some bytes) :
  (encoderMembers types type.members values).bytes = bytes
  := bytes_encoderMembers (writeUpTo types _) h (Nat.lt_succ_self _)

end Binary

end UA
