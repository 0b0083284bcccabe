import UaRateThrottling.Path.QueuePath

/-!
# Data types and their values

What `UA_DataType` says about a type, and the values a type can have.  The builtin types have
encoding functions of their own, which a jump table finds; every other type is a structure of
members, and a member is a value or an array.

A value is what the memory of a C value holds.  A pointer is `NULL`, the sentinel of an empty array,
or points to something, so a string and an array may be missing or empty.
-/

namespace UA

namespace Binary

/-! ### Types -/

/-- `UA_NodeIdType` with the identifier itself.  A string may be `NULL`. -/
inductive Identifier where
  | numeric (n : UInt32)
  | string (s : Option (List UInt8))
  | guid (g : Zuth.Guid)
  | byteString (s : Option (List UInt8))
deriving DecidableEq

/-- `UA_NodeId` -/
structure NodeId where
  namespaceIndex : UInt16
  identifier : Identifier
deriving DecidableEq

/-- `UA_DataTypeMember`; the type is an index into `UA_TYPES`. -/
structure DataTypeMember where
  memberTypeIndex : Nat
  isArray : Bool
deriving DecidableEq

/-- `UA_DataType` -/
structure DataType where
  typeId : NodeId
  memSize : UInt16
  typeIndex : Nat
  builtin : Bool
  overlayable : Bool
  binaryEncodingId : UInt16
  members : List DataTypeMember
deriving DecidableEq

/-- The functions in the jump tables. -/
inductive Entry where
  | boolean | byte | uint16 | uint32 | uint64 | string | guid | nodeId | expandedNodeId
  | localizedText | extensionObject | dataValue | variant | diagnosticInfo | internal
deriving DecidableEq

/-- `encodeBinaryJumpTable`, which has the functions that `decodeBinaryJumpTable` and
`calcSizeBinaryJumpTable` have.  A float is encoded as the integer in its place. -/
def jumpTable : List Entry :=
  [.boolean, .byte, .byte, .uint16, .uint16, .uint32, .uint32, .uint64, .uint64, .uint32, .uint64,
    .string, .uint64, .guid, .string, .string, .nodeId, .expandedNodeId, .uint32, .internal,
    .localizedText, .extensionObject, .dataValue, .variant, .diagnosticInfo, .internal]

/-- `UA_BUILTIN_TYPES_COUNT` -/
def builtinTypesCount : Nat := 25

/-- `UA_TYPES_EXTENSIONOBJECT` -/
def extensionObjectIndex : Nat := 21

/-- `UA_TYPES_DIAGNOSTICINFO` -/
def diagnosticInfoIndex : Nat := 24

/-- The function for a type. -/
def DataType.entry (type : DataType) : Entry :=
  jumpTable.getD (if type.builtin then type.typeIndex else builtinTypesCount) .internal

/-- `findDataTypeByBinary`, as an index into `UA_TYPES`. -/
def findDataTypeByBinary (types : List DataType) (identifier : UInt32) : Option Nat :=
  types.findIdx? (fun type => type.binaryEncodingId.toUInt32 = identifier)

/-! ### Values -/

/-- The numbers of a `UA_DataValue`.  What is missing there is marked by a flag here. -/
structure Stamps where
  status : Option UInt32
  sourceTimestamp : Option UInt64
  sourcePicoseconds : Option UInt16
  serverTimestamp : Option UInt64
  serverPicoseconds : Option UInt16
deriving DecidableEq

/-- `UA_DiagnosticInfo` without the inner one.  What is missing there is marked by a flag here. -/
structure Diagnostics where
  symbolicId : Option UInt32
  namespaceUri : Option UInt32
  localizedText : Option UInt32
  locale : Option UInt32
  additionalInfo : Option (Option (List UInt8))
  innerStatusCode : Option UInt32
deriving DecidableEq

/-- The body of a `UA_ExtensionObject` that is encoded already. -/
inductive Body where
  | noBody
  | byteString (s : Option (List UInt8))
  | xml (s : Option (List UInt8))
deriving DecidableEq

/-- A value of some type.  An array of structures that a variant holds, the value of an extension
object and that of a variant come with the index of their type; the inner diagnostic infos of a
diagnostic info are listed from the outside in. -/
inductive Value where
  | boolean (b : UInt8)
  | byte (n : UInt8)
  | uint16 (n : UInt16)
  | uint32 (n : UInt32)
  | uint64 (n : UInt64)
  | string (s : Option (List UInt8))
  | guid (g : Zuth.Guid)
  | nodeId (id : NodeId)
  | expandedNodeId (id : NodeId) (namespaceUri : Option (List UInt8)) (serverIndex : UInt32)
  | localizedText (locale text : Option (List UInt8))
  | encodedObject (typeId : NodeId) (body : Body)
  | decodedObject (type : Nat) (data : Value)
  | dataValue (hasValue : Bool) (value : Value) (stamps : Stamps)
  | emptyVariant
  | scalarVariant (type : Nat) (data : Value)
  | arrayVariant (type : Nat) (data : Value) (arrayDimensions : List UInt32)
  | diagnosticInfo (info : Diagnostics) (inner : List Diagnostics)
  | struct (members : List Value)
  | nullArray
  | array (elements : List Value)

end Binary

end UA
