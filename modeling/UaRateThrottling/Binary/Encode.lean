import UaRateThrottling.Binary.DataType
import UaRateThrottling.Channel.Encoding

/-!
# Encoding of values

`UA_calcSizeBinary` and `UA_encodeBinary` into a buffer that is large enough.  An encoder follows
the members of the type; it returns nothing where the code returns an error, which is when something
is too long or an extension object cannot be encoded.

The memory of an array that is overlayable is copied as it is.  It consists of the encodings of the
elements, which is what the type says by being overlayable.
-/

namespace UA

namespace Binary

/-- `UA_INT32_MAX` -/
def int32Max : Nat := 2147483647

/-! ### Sizes -/

/-- `String_calcSizeBinary` -/
def calcSizeString (s : Option (List UInt8)) : Nat := 4 + (s.getD []).length

/-- `NodeId_calcSizeBinary` -/
def NodeId.calcSize (id : NodeId) : Nat :=
  1 + match id.identifier with
  | .numeric n =>
    if n > 65535 ∨ id.namespaceIndex > 255 then 6
    else if n > 255 ∨ id.namespaceIndex > 0 then 3
    else 1
  | .string s => 2 + calcSizeString s
  | .byteString s => 2 + calcSizeString s
  | .guid _ => 18

/-- The identifier is a number. -/
def NodeId.isNumeric (id : NodeId) : Bool :=
  match id.identifier with
  | .numeric _ => true
  | _ => false

/-- `ExpandedNodeId_calcSizeBinary` -/
def calcSizeExpandedNodeId (id : NodeId) (namespaceUri : Option (List UInt8))
    (serverIndex : UInt32) : Nat :=
  id.calcSize + (if (namespaceUri.getD []).length > 0 then calcSizeString namespaceUri else 0) +
    if serverIndex > 0 then 4 else 0

/-- The size of a part that may be missing. -/
def sizeOf {α : Type} (size : α → Nat) (part : Option α) : Nat := part.elim 0 size

/-- `LocalizedText_calcSizeBinary` -/
def calcSizeLocalizedText (locale text : Option (List UInt8)) : Nat :=
  1 + sizeOf (fun s => calcSizeString (some s)) locale +
    sizeOf (fun s => calcSizeString (some s)) text

/-- `DataValue_calcSizeBinary` without the value. -/
def Stamps.calcSize (stamps : Stamps) : Nat :=
  sizeOf (fun _ => 4) stamps.status + sizeOf (fun _ => 8) stamps.sourceTimestamp +
    sizeOf (fun _ => 2) stamps.sourcePicoseconds + sizeOf (fun _ => 8) stamps.serverTimestamp +
    sizeOf (fun _ => 2) stamps.serverPicoseconds

/-- `DiagnosticInfo_calcSizeBinary` without the inner diagnostic info. -/
def Diagnostics.calcSize (info : Diagnostics) : Nat :=
  1 + sizeOf (fun _ => 4) info.symbolicId + sizeOf (fun _ => 4) info.namespaceUri +
    sizeOf (fun _ => 4) info.localizedText + sizeOf (fun _ => 4) info.locale +
    sizeOf calcSizeString info.additionalInfo + sizeOf (fun _ => 4) info.innerStatusCode

/-- The size of a body that is encoded already. -/
def Body.calcSize : Body → Nat
  | .noBody => 0
  | .byteString s => calcSizeString s
  | .xml s => calcSizeString s

/-- The size of an extension object around its content.  It takes the node id of the type for the
one of the encoding. -/
def calcSizeObject (type : DataType) (content : Nat) : Nat := type.typeId.calcSize + 1 + 4 + content

/-- `Array_calcSizeBinary` of the dimensions of an array. -/
def calcSizeDimensions (dimensions : List UInt32) : Nat :=
  if dimensions = [] then 0 else 4 + 4 * dimensions.length

mutual

/-- The function of `calcSizeBinaryJumpTable` for a type of the given size in memory, with the given
members. -/
def calcSize (types : List DataType) (memSize : UInt16) (members : List DataTypeMember) :
    Value → Nat
  | .boolean _ => memSize.toNat
  | .byte _ => memSize.toNat
  | .uint16 _ => memSize.toNat
  | .uint32 _ => memSize.toNat
  | .uint64 _ => memSize.toNat
  | .string s => calcSizeString s
  | .guid _ => 16
  | .nodeId id => id.calcSize
  | .expandedNodeId id namespaceUri serverIndex =>
    calcSizeExpandedNodeId id namespaceUri serverIndex
  | .localizedText locale text => calcSizeLocalizedText locale text
  | .encodedObject typeId body => 1 + typeId.calcSize + body.calcSize
  | .decodedObject type data =>
    (types[type]?).elim 0 (fun type =>
      if type.typeId.isNumeric then
        calcSizeObject type (calcSize types type.memSize type.members data)
      else 0)
  | .dataValue hasValue value stamps =>
    1 + (if hasValue then calcSize types 0 [] value else 0) + stamps.calcSize
  | .emptyVariant => 1
  | .scalarVariant type data =>
    (types[type]?).elim 1 (fun type =>
      if type.builtin then 1 + calcSize types type.memSize type.members data
      else if type.typeId.isNumeric then
        1 + calcSizeObject type (calcSize types type.memSize type.members data)
      else 0)
  | .arrayVariant type data dimensions =>
    (types[type]?).elim 1 (fun type =>
      if type.builtin ∨ type.typeId.isNumeric then
        1 + 4 + calcSizeVariantElements types type data + calcSizeDimensions dimensions
      else 0)
  | .diagnosticInfo info inner => info.calcSize + (inner.map Diagnostics.calcSize).sum
  | .struct values => calcSizeMembers types members values
  | .nullArray => 0
  | .array _ => 0

/-- The elements of an array in `Variant_calcSizeBinary`. -/
def calcSizeVariantElements (types : List DataType) (type : DataType) : Value → Nat
  | .array elements => calcSizeEach types type (!type.builtin) elements
  | _ => 0

/-- `Array_calcSizeBinary` -/
def calcSizeArray (types : List DataType) (type : DataType) : Value → Nat
  | .array elements =>
    if type.overlayable then 4 + type.memSize.toNat * elements.length
    else 4 + calcSizeEach types type false elements
  | _ => 4

/-- `UA_calcSizeBinary` -/
def calcSizeMembers (types : List DataType) : List DataTypeMember → List Value → Nat
  | member :: members, value :: values =>
    ((types[member.memberTypeIndex]?).elim 0 (fun type =>
      if member.isArray then calcSizeArray types type value
      else calcSize types type.memSize type.members value)) +
      calcSizeMembers types members values
  | _, _ => 0

/-- The elements of an array, which may be wrapped in extension objects. -/
def calcSizeEach (types : List DataType) (type : DataType) (wrapped : Bool) : List Value → Nat
  | [] => 0
  | value :: values =>
    (if wrapped then calcSizeObject type (calcSize types type.memSize type.members value)
      else calcSize types type.memSize type.members value) +
      calcSizeEach types type wrapped values

end

/-! ### Builtin types -/

/-- `String_encodeBinary` -/
def encodeString : Option (List UInt8) → Option (List UInt8)
  | none => some (encodeUInt32 0xffffffff)
  | some s =>
    if s.length > int32Max then none
    else some (encodeUInt32 (UInt32.ofNat s.length) ++ s)

/-- `UInt64_encodeBinary` -/
def encodeUInt64 (n : UInt64) : List UInt8 := LittleEndian.encode 8 n.toNat

/-- `Guid_encodeBinary` -/
def encodeGuid (g : Zuth.Guid) : List UInt8 :=
  encodeUInt32 g.data1 ++ (encodeUInt16 g.data2 ++ (encodeUInt16 g.data3 ++ g.data4.toList))

/-- `NodeId_encodeBinaryWithEncodingMask` -/
def NodeId.encodeWithEncodingMask (id : NodeId) (encoding : UInt8) : Option (List UInt8) :=
  match id.identifier with
  | .numeric n =>
    if n > 65535 ∨ id.namespaceIndex > 255 then
      some ((encoding ||| 2) :: (encodeUInt16 id.namespaceIndex ++ encodeUInt32 n))
    else if n > 255 ∨ id.namespaceIndex > 0 then
      some ((encoding ||| 1) :: id.namespaceIndex.toUInt8 :: encodeUInt16 n.toUInt16)
    else some [encoding ||| 0, n.toUInt8]
  | .string s => do
    let bytes ← encodeString s
    some ((encoding ||| 3) :: (encodeUInt16 id.namespaceIndex ++ bytes))
  | .guid g => some ((encoding ||| 4) :: (encodeUInt16 id.namespaceIndex ++ encodeGuid g))
  | .byteString s => do
    let bytes ← encodeString s
    some ((encoding ||| 5) :: (encodeUInt16 id.namespaceIndex ++ bytes))

/-- A flag of an encoding mask. -/
def flag (mask : UInt8) (present : Bool) : UInt8 := if present then mask else 0

/-- `ExpandedNodeId_encodeBinary`.  The URI must be neither `NULL` nor the sentinel. -/
def encodeExpandedNodeId (id : NodeId) (namespaceUri : Option (List UInt8))
    (serverIndex : UInt32) : Option (List UInt8) := do
  let hasUri := namespaceUri.getD [] ≠ []
  let node ← id.encodeWithEncodingMask (flag 0x80 hasUri ||| flag 0x40 (serverIndex > 0))
  let uri ← (if hasUri then encodeString namespaceUri else some [])
  some (node ++ (uri ++ if serverIndex > 0 then encodeUInt32 serverIndex else []))

/-- A part that may be missing. -/
def encodePart {α : Type} (encode : α → List UInt8) (part : Option α) : List UInt8 :=
  part.elim [] encode

/-- A string that may be missing. -/
def encodeStringPart (part : Option (Option (List UInt8))) : Option (List UInt8) :=
  part.elim (some []) encodeString

/-- `LocalizedText_encodeBinary` -/
def encodeLocalizedText (locale text : Option (List UInt8)) : Option (List UInt8) := do
  let localeBytes ← encodeStringPart (locale.map some)
  let textBytes ← encodeStringPart (text.map some)
  some ((flag 0x01 locale.isSome ||| flag 0x02 text.isSome) :: (localeBytes ++ textBytes))

/-- The encoding mask of `DataValue_encodeBinary`. -/
def Stamps.mask (stamps : Stamps) (hasValue : Bool) : UInt8 :=
  flag 0x01 hasValue ||| flag 0x02 stamps.status.isSome |||
    flag 0x04 stamps.sourceTimestamp.isSome ||| flag 0x08 stamps.serverTimestamp.isSome |||
    flag 0x10 stamps.sourcePicoseconds.isSome ||| flag 0x20 stamps.serverPicoseconds.isSome

/-- `DataValue_encodeBinary` without the value. -/
def Stamps.encode (stamps : Stamps) : List UInt8 :=
  encodePart encodeUInt32 stamps.status ++ (encodePart encodeUInt64 stamps.sourceTimestamp ++
    (encodePart encodeUInt16 stamps.sourcePicoseconds ++
      (encodePart encodeUInt64 stamps.serverTimestamp ++
        encodePart encodeUInt16 stamps.serverPicoseconds)))

/-- The encoding mask of `DiagnosticInfo_encodeBinary`: the status code has no bit, and the inner
diagnostic info has the bit of the status code. -/
def Diagnostics.mask (info : Diagnostics) (hasInner : Bool) : UInt8 :=
  flag 0x01 info.symbolicId.isSome ||| flag 0x02 info.namespaceUri.isSome |||
    flag 0x04 info.localizedText.isSome ||| flag 0x08 info.locale.isSome |||
    flag 0x10 info.additionalInfo.isSome ||| flag 0x20 hasInner

/-- `DiagnosticInfo_encodeBinary`, where the inner diagnostic info is encoded. -/
def Diagnostics.encode (info : Diagnostics) (inner : Option (List UInt8)) :
    Option (List UInt8) := do
  let additionalInfo ← encodeStringPart info.additionalInfo
  some (info.mask inner.isSome :: (encodePart encodeUInt32 info.symbolicId ++
    (encodePart encodeUInt32 info.namespaceUri ++
      (encodePart encodeUInt32 info.localizedText ++
        (encodePart encodeUInt32 info.locale ++ (additionalInfo ++
          (encodePart encodeUInt32 info.innerStatusCode ++ inner.getD [])))))))

/-- `DiagnosticInfo_encodeBinary` -/
def encodeDiagnosticInfo : Diagnostics → List Diagnostics → Option (List UInt8)
  | info, [] => info.encode none
  | info, info' :: inner => do
    let bytes ← encodeDiagnosticInfo info' inner
    info.encode (some bytes)

/-! ### Arrays and structures -/

/-- The body of an extension object that is encoded already, with its encoding byte. -/
def Body.encode : Body → Option (List UInt8)
  | .noBody => some [0]
  | .byteString s => do
    let bytes ← encodeString s
    some (1 :: bytes)
  | .xml s => do
    let bytes ← encodeString s
    some (2 :: bytes)

/-- What `ExtensionObject_encodeBinary` writes before a content of the given size: the node id of
the encoding, the encoding byte and the size. -/
def objectHeader (type : DataType) (size : Nat) : Option (List UInt8) := do
  let node ← NodeId.encodeWithEncodingMask
    ⟨type.typeId.namespaceIndex, .numeric type.binaryEncodingId.toUInt32⟩ 0
  if type.typeId.isNumeric ∧ size ≤ int32Max then
    some (node ++ (1 :: encodeUInt32 (UInt32.ofNat size)))
  else none

/-- The type in the encoding mask of a variant. -/
def variantMask (type : DataType) : UInt8 :=
  0x3f &&& UInt8.ofNat ((if type.builtin then type.typeIndex else extensionObjectIndex) + 1)

/-- `Array_encodeBinary` of the dimensions of an array. -/
def encodeDimensions (dimensions : List UInt32) : Option (List UInt8) :=
  if dimensions = [] then some []
  else if dimensions.length > int32Max then none
  else some (encodeUInt32 (UInt32.ofNat dimensions.length) ++ dimensions.flatMap encodeUInt32)

/-- A value that is encoded by its own function. -/
def guarded (valid : Bool) (bytes : Option (List UInt8)) : Option (List UInt8) :=
  if valid then bytes else none

mutual

/-- The function of `encodeBinaryJumpTable`, for a type with the given members. -/
def encode (types : List DataType) (entry : Entry) (members : List DataTypeMember) :
    Value → Option (List UInt8)
  | .boolean b => guarded (entry = .boolean) (some [b])
  | .byte n => guarded (entry = .byte) (some [n])
  | .uint16 n => guarded (entry = .uint16) (some (encodeUInt16 n))
  | .uint32 n => guarded (entry = .uint32) (some (encodeUInt32 n))
  | .uint64 n => guarded (entry = .uint64) (some (encodeUInt64 n))
  | .string s => guarded (entry = .string) (encodeString s)
  | .guid g => guarded (entry = .guid) (some (encodeGuid g))
  | .nodeId id => guarded (entry = .nodeId) (id.encodeWithEncodingMask 0)
  | .expandedNodeId id namespaceUri serverIndex =>
    guarded (entry = .expandedNodeId) (encodeExpandedNodeId id namespaceUri serverIndex)
  | .localizedText locale text =>
    guarded (entry = .localizedText) (encodeLocalizedText locale text)
  | .encodedObject typeId body => guarded (entry = .extensionObject) do
    let node ← typeId.encodeWithEncodingMask 0
    let bytes ← body.encode
    some (node ++ bytes)
  | .decodedObject type data => guarded (entry = .extensionObject) do
    let type ← types[type]?
    let header ← objectHeader type (calcSize types type.memSize type.members data)
    let content ← encode types type.entry type.members data
    some (header ++ content)
  | .dataValue hasValue value stamps => guarded (entry = .dataValue) do
    let bytes ← (if hasValue then encode types .variant [] value else some [])
    some (stamps.mask hasValue :: (bytes ++ stamps.encode))
  | .emptyVariant => guarded (entry = .variant) (some [0])
  | .scalarVariant type data => guarded (entry = .variant) do
    let type ← types[type]?
    let header ← (if type.builtin then some []
      else objectHeader type (calcSize types type.memSize type.members data))
    let content ← encode types type.entry type.members data
    some (variantMask type :: (header ++ content))
  | .arrayVariant type data dimensions => guarded (entry = .variant) do
    let type ← types[type]?
    let content ← (if type.builtin then encodeArray types type data
      else encodeObjectArray types type data)
    let dimensionBytes ← encodeDimensions dimensions
    some ((variantMask type ||| 0x80 ||| flag 0x40 (dimensions ≠ [])) ::
      (content ++ dimensionBytes))
  | .diagnosticInfo info inner =>
    guarded (entry = .diagnosticInfo) (encodeDiagnosticInfo info inner)
  | .struct values => guarded (entry = .internal) (encodeMembers types members values)
  | .nullArray => none
  | .array _ => none

/-- `Array_encodeBinary` -/
def encodeArray (types : List DataType) (type : DataType) : Value → Option (List UInt8)
  | .nullArray => some (encodeUInt32 0xffffffff)
  | .array elements =>
    if elements.length > int32Max then none
    else do
      let parts ← encodeEach types type elements
      some (encodeUInt32 (UInt32.ofNat elements.length) ++ parts.flatten)
  | _ => none

/-- The loop of `Variant_encodeBinaryWrapExtensionObject` with the length of the array. -/
def encodeObjectArray (types : List DataType) (type : DataType) : Value → Option (List UInt8)
  | .nullArray => some (encodeUInt32 0)
  | .array elements =>
    if elements.length > int32Max then none
    else do
      let parts ← encodeObjects types type elements
      some (encodeUInt32 (UInt32.ofNat elements.length) ++ parts.flatten)
  | _ => none

/-- The members of a structure in `UA_encodeBinaryInternal`. -/
def encodeMembers (types : List DataType) :
    List DataTypeMember → List Value → Option (List UInt8)
  | [], [] => some []
  | member :: members, value :: values => do
    let type ← types[member.memberTypeIndex]?
    let bytes ← (if member.isArray then encodeArray types type value
      else encode types type.entry type.members value)
    let rest ← encodeMembers types members values
    some (bytes ++ rest)
  | _, _ => none

/-- The elements of an array, one by one. -/
def encodeEach (types : List DataType) (type : DataType) :
    List Value → Option (List (List UInt8))
  | [] => some []
  | value :: values => do
    let bytes ← encode types type.entry type.members value
    let rest ← encodeEach types type values
    some (bytes :: rest)

/-- The elements of an array, each in an extension object. -/
def encodeObjects (types : List DataType) (type : DataType) :
    List Value → Option (List (List UInt8))
  | [] => some []
  | value :: values => do
    let header ← objectHeader type (calcSize types type.memSize type.members value)
    let content ← encode types type.entry type.members value
    let rest ← encodeObjects types type values
    some ((header ++ content) :: rest)

end

/-- `UA_encodeBinary` -/
def encodeBinary (types : List DataType) (type : DataType) (values : List Value) :
    Option (List UInt8) :=
  encodeMembers types type.members values

end Binary

end UA
