import UaRateThrottling.Binary.Encode
import UaRateThrottling.Codec

/-!
# Decoding of values

`UA_decodeBinary`, which is told the type it has to decode.  The types of the contents of extension
objects and variants are looked up in `UA_TYPES` with what the message says about them.

The fuel is for the nesting of variants, extension objects and structures: the source decodes one
inside the other without end.  The decoders of the source go on after an error, and report it in the
end; here nothing is decoded then.
-/

namespace UA

namespace Binary

open Json (Parser)
open Codec

/-! ### Builtin types -/

/-- `Byte_decodeBinary` -/
def decodeByte : Parser UInt8 := do
  let n ← number 1
  pure (UInt8.ofNat n)

/-- `UInt16_decodeBinary` -/
def decodeUInt16 : Parser UInt16 := do
  let n ← number 2
  pure (UInt16.ofNat n)

/-- `UInt32_decodeBinary` -/
def decodeUInt32 : Parser UInt32 := do
  let n ← number 4
  pure (UInt32.ofNat n)

/-- `UInt64_decodeBinary` -/
def decodeUInt64 : Parser UInt64 := do
  let n ← number 8
  pure (UInt64.ofNat n)

/-- `String_decodeBinary`.  A negative length is that of `NULL`. -/
def decodeString : Parser (Option (List UInt8)) := do
  let length ← decodeUInt32
  if length ≥ 0x80000000 then pure none
  else do
    let s ← take length.toNat
    pure (some s)

/-- `Guid_decodeBinary` -/
def decodeGuid : Parser Zuth.Guid := do
  let data1 ← decodeUInt32
  let data2 ← decodeUInt16
  let data3 ← decodeUInt16
  let data4 ← take 8
  pure ⟨data1, data2, data3, Vector.ofFn (fun i => data4.getD i 0)⟩

/-- `NodeId_decodeBinary` after the encoding byte. -/
def decodeNodeIdBody (encodingByte : UInt8) : Parser NodeId :=
  if encodingByte = 0 then do
    let n ← decodeByte
    pure ⟨0, .numeric n.toUInt32⟩
  else if encodingByte = 1 then do
    let namespaceIndex ← decodeByte
    let n ← decodeUInt16
    pure ⟨namespaceIndex.toUInt16, .numeric n.toUInt32⟩
  else if encodingByte = 2 then do
    let namespaceIndex ← decodeUInt16
    let n ← decodeUInt32
    pure ⟨namespaceIndex, .numeric n⟩
  else if encodingByte = 3 then do
    let namespaceIndex ← decodeUInt16
    let s ← decodeString
    pure ⟨namespaceIndex, .string s⟩
  else if encodingByte = 4 then do
    let namespaceIndex ← decodeUInt16
    let g ← decodeGuid
    pure ⟨namespaceIndex, .guid g⟩
  else if encodingByte = 5 then do
    let namespaceIndex ← decodeUInt16
    let s ← decodeString
    pure ⟨namespaceIndex, .byteString s⟩
  else failure

/-- `NodeId_decodeBinary` -/
def decodeNodeId : Parser NodeId := do
  let encodingByte ← decodeByte
  decodeNodeIdBody encodingByte

/-- A part that is there when the flag is set. -/
def decodePart {α : Type} (present : Bool) (decode : Parser α) : Parser (Option α) :=
  if present then do
    let x ← decode
    pure (some x)
  else pure none

/-- `ExpandedNodeId_decodeBinary`: the flags are masked out of the encoding byte of the node id. -/
def decodeExpandedNodeId : Parser Value := do
  let encoding ← decodeByte
  let id ← decodeNodeIdBody (encoding &&& ~~~(0x80 ||| 0x40))
  let namespaceUri ← decodePart (encoding &&& 0x80 ≠ 0) decodeString
  let serverIndex ← decodePart (encoding &&& 0x40 ≠ 0) decodeUInt32
  pure (.expandedNodeId (if namespaceUri.isSome then { id with namespaceIndex := 0 } else id)
    namespaceUri.join (serverIndex.getD 0))

/-- `LocalizedText_decodeBinary` -/
def decodeLocalizedText : Parser Value := do
  let encoding ← decodeByte
  let locale ← decodePart (encoding &&& 0x01 ≠ 0) decodeString
  let text ← decodePart (encoding &&& 0x02 ≠ 0) decodeString
  pure (.localizedText locale.join text.join)

/-- `MAX_PICO_SECONDS` -/
def maxPicoSeconds : UInt16 := 9999

/-- More picoseconds than the maximum are cut off. -/
def cutPicoSeconds (n : UInt16) : UInt16 := if n > maxPicoSeconds then maxPicoSeconds else n

/-- `DataValue_decodeBinary` after the value. -/
def decodeStamps (encodingMask : UInt8) : Parser Stamps := do
  let status ← decodePart (encodingMask &&& 0x02 ≠ 0) decodeUInt32
  let sourceTimestamp ← decodePart (encodingMask &&& 0x04 ≠ 0) decodeUInt64
  let sourcePicoseconds ← decodePart (encodingMask &&& 0x10 ≠ 0) decodeUInt16
  let serverTimestamp ← decodePart (encodingMask &&& 0x08 ≠ 0) decodeUInt64
  let serverPicoseconds ← decodePart (encodingMask &&& 0x20 ≠ 0) decodeUInt16
  pure ⟨status, sourceTimestamp, sourcePicoseconds.map cutPicoSeconds, serverTimestamp,
    serverPicoseconds.map cutPicoSeconds⟩

/-- `DiagnosticInfo_decodeBinary` up to the inner diagnostic info. -/
def decodeDiagnostics (encodingMask : UInt8) : Parser Diagnostics := do
  let symbolicId ← decodePart (encodingMask &&& 0x01 ≠ 0) decodeUInt32
  let namespaceUri ← decodePart (encodingMask &&& 0x02 ≠ 0) decodeUInt32
  let localizedText ← decodePart (encodingMask &&& 0x04 ≠ 0) decodeUInt32
  let locale ← decodePart (encodingMask &&& 0x08 ≠ 0) decodeUInt32
  let additionalInfo ← decodePart (encodingMask &&& 0x10 ≠ 0) decodeString
  let innerStatusCode ← decodePart (encodingMask &&& 0x20 ≠ 0) decodeUInt32
  pure ⟨symbolicId, namespaceUri, localizedText, locale, additionalInfo, innerStatusCode⟩

/-- `DiagnosticInfo_decodeBinary` -/
def decodeDiagnosticInfo : Nat → Parser (Diagnostics × List Diagnostics)
  | 0 => failure
  | fuel + 1 => do
    let encodingMask ← decodeByte
    let info ← decodeDiagnostics encodingMask
    if encodingMask &&& 0x40 ≠ 0 then do
      let inner ← decodeDiagnosticInfo fuel
      pure (info, inner.1 :: inner.2)
    else pure (info, [])

/-! ### Arrays and structures -/

section

variable (types : List DataType) (decode : Entry → List DataTypeMember → Parser Value)

/-- An element of an array.  Where the memory is copied, a Boolean is any byte. -/
def decodeElement (type : DataType) : Parser Value :=
  if type.overlayable ∧ type.entry = .boolean then do
    let b ← decodeByte
    pure (.boolean b)
  else decode type.entry type.members

/-- `Array_decodeBinary` -/
def decodeArray (type : DataType) : Parser Value := do
  let length ← decodeUInt32
  if length ≥ 0x80000000 then pure .nullArray
  else if length = 0 then pure (.array [])
  else do
    need (type.memSize.toNat * length.toNat / 32)
    need (if type.overlayable then type.memSize.toNat * length.toNat else 0)
    let elements ← items (decodeElement decode type) length.toNat
    pure (.array elements)

/-- `Array_decodeBinary` of the dimensions of an array. -/
def decodeDimensions : Parser (List UInt32) := do
  let length ← decodeUInt32
  if length ≥ 0x80000000 ∨ length = 0 then pure []
  else do
    need (4 * length.toNat)
    items decodeUInt32 length.toNat

/-- The members of a structure in `UA_decodeBinaryInternal`. -/
def decodeMembers : List DataTypeMember → Parser (List Value)
  | [] => pure []
  | member :: members => do
    let value ← (types[member.memberTypeIndex]?).elim failure (fun type =>
      if member.isArray then decodeArray decode type else decode type.entry type.members)
    let values ← decodeMembers members
    pure (value :: values)

/-- `ExtensionObject_decodeBinaryContent`.  The size of the content is jumped over. -/
def decodeContent (typeId : NodeId) (n : UInt32) : Parser Value :=
  match findDataTypeByBinary types n with
  | none => do
    let s ← decodeString
    pure (.encodedObject typeId (.byteString s))
  | some t => (types[t]?).elim failure (fun type => do
    skip 4
    let data ← decode type.entry type.members
    pure (.decodedObject t data))

/-- `ExtensionObject_decodeBinary` -/
def decodeObject : Parser Value := do
  let typeId ← decodeNodeId
  let encoding ← decodeByte
  match typeId.identifier with
  | .numeric n =>
    if encoding = 1 then decodeContent types decode typeId n
    else if encoding = 0 then pure (.encodedObject typeId .noBody)
    else if encoding = 2 then do
      let s ← decodeString
      pure (.encodedObject typeId (.xml s))
    else failure
  | _ => failure

/-- The type of the content that `Variant_decodeBinaryUnwrapExtensionObject` unwraps. -/
def unwrappedType (typeId : NodeId) (encoding : UInt8) : Option Nat :=
  match typeId.identifier with
  | .numeric n =>
    if encoding = 1 ∧ typeId.namespaceIndex = 0 then findDataTypeByBinary types n else none
  | _ => none

/-- The node id and the encoding byte of an extension object. -/
def decodeObjectStart : Parser (NodeId × UInt8) := do
  let typeId ← decodeNodeId
  let encoding ← decodeByte
  pure (typeId, encoding)

/-- The content of a variant, after the start of the extension object around it and a jump over the
size. -/
def decodeUnwrappedContent (index : Nat) : Parser Value :=
  (types[index]?).elim failure (fun type => do
    skip 4
    let data ← decode type.entry type.members
    pure (.scalarVariant index data))

/-- `Variant_decodeBinaryUnwrapExtensionObject`: it goes back to where it began unless it unwraps.
-/
def decodeUnwrapped : Parser Value := fun s => do
  let (start, rest) ← decodeObjectStart.run s
  (unwrappedType types start.1 start.2).elim
    ((do
      let data ← decodeObject types decode
      pure (.scalarVariant extensionObjectIndex data) : Parser Value).run s)
    (fun index => (decodeUnwrappedContent types decode index).run rest)

/-- The type of a variant with an array or a scalar value.  Without a type, the index is that of no
type. -/
def variantIndex (encodingByte : UInt8) : Option Nat :=
  if encodingByte &&& 0x3f = 0 ∨ (encodingByte &&& 0x3f).toNat - 1 > diagnosticInfoIndex then none
  else some ((encodingByte &&& 0x3f).toNat - 1)

/-- `Variant_decodeBinary` after the encoding byte, where there is a type. -/
def decodeVariantContent (encodingByte : UInt8) (index : Nat) : Parser Value :=
  if encodingByte &&& 0x80 ≠ 0 then do
    let data ← (types[index]?).elim failure (decodeArray decode)
    let dimensions ← decodePart (encodingByte &&& 0x40 ≠ 0) decodeDimensions
    pure (.arrayVariant index data (dimensions.getD []))
  else if index = extensionObjectIndex then decodeUnwrapped types decode
  else do
    let data ← (types[index]?).elim failure (fun type =>
      decode (jumpTable.getD index .internal) type.members)
    pure (.scalarVariant index data)

/-- `Variant_decodeBinary` -/
def decodeVariant : Parser Value := do
  let encodingByte ← decodeByte
  if encodingByte = 0 then pure .emptyVariant
  else (variantIndex encodingByte).elim failure (decodeVariantContent types decode encodingByte)

end

/-- The function of `decodeBinaryJumpTable`, for a type with the given members. -/
def decode (types : List DataType) : Nat → Entry → List DataTypeMember → Parser Value
  | 0, _, _ => failure
  | fuel + 1, entry, members =>
    match entry with
    | .boolean => do
      let b ← decodeByte
      pure (.boolean (if b > 0 then 1 else 0))
    | .byte => do
      let n ← decodeByte
      pure (.byte n)
    | .uint16 => do
      let n ← decodeUInt16
      pure (.uint16 n)
    | .uint32 => do
      let n ← decodeUInt32
      pure (.uint32 n)
    | .uint64 => do
      let n ← decodeUInt64
      pure (.uint64 n)
    | .string => do
      let s ← decodeString
      pure (.string s)
    | .guid => do
      let g ← decodeGuid
      pure (.guid g)
    | .nodeId => do
      let id ← decodeNodeId
      pure (.nodeId id)
    | .expandedNodeId => decodeExpandedNodeId
    | .localizedText => decodeLocalizedText
    | .extensionObject => decodeObject types (decode types fuel)
    | .dataValue => do
      let encodingMask ← decodeByte
      let value ← decodePart (encodingMask &&& 0x01 ≠ 0) (decode types fuel .variant [])
      let stamps ← decodeStamps encodingMask
      pure (.dataValue value.isSome (value.getD .emptyVariant) stamps)
    | .variant => decodeVariant types (decode types fuel)
    | .diagnosticInfo => do
      let info ← decodeDiagnosticInfo (fuel + 1)
      pure (.diagnosticInfo info.1 info.2)
    | .internal => do
      let values ← decodeMembers types (decode types fuel) members
      pure (.struct values)

/-- `UA_decodeBinary` -/
def decodeBinary (types : List DataType) (fuel : Nat) (type : DataType) : Parser (List Value) :=
  decodeMembers types (decode types fuel) type.members

end Binary

end UA
