import UaRateThrottling.LittleEndian
import UaRateThrottling.Channel.Basic

/-!
# The binary encoding

The headers of messages and chunks, the error message of the transport and node ids, as bytes.
Numbers are little-endian, a string is its length and its bytes.  A decoder fails when the bytes
end too early.
-/

namespace UA

open LittleEndian

/-! ### Numbers and strings -/

/-- `UInt16_encodeBinary`. -/
def encodeUInt16 (n : UInt16) : List UInt8 := encode 2 n.toNat

/-- `UInt16_decodeBinary`. -/
def decodeUInt16 (bytes : List UInt8) : Option (UInt16 × List UInt8) :=
  (decode 2 bytes).map (fun (n, rest) => (UInt16.ofNat n, rest))

/-- `UInt32_encodeBinary`. -/
def encodeUInt32 (n : UInt32) : List UInt8 := encode 4 n.toNat

/-- `UInt32_decodeBinary`. -/
def decodeUInt32 (bytes : List UInt8) : Option (UInt32 × List UInt8) :=
  (decode 4 bytes).map (fun (n, rest) => (UInt32.ofNat n, rest))

/-- `String_decodeBinary`: a length that is negative as a signed number, or zero, is the length of
the empty string. -/
def decodeString (bytes : List UInt8) : Option (List UInt8 × List UInt8) := do
  let (length, rest) ← decodeUInt32 bytes
  if length = 0 ∨ 0x80000000 ≤ length then some ([], rest)
  else if rest.length < length.toNat then none
  else some (rest.take length.toNat, rest.drop length.toNat)

/-- The null string, which is how an abort message without a reason ends. -/
def encodeNullString : List UInt8 := [0xff, 0xff, 0xff, 0xff]

@[simp]
theorem length_encodeUInt32 (n : UInt32) :
  (encodeUInt32 n).length = 4
  := length_encode 4 n.toNat

@[simp]
theorem decodeUInt32_encodeUInt32_append (n : UInt32) (rest : List UInt8) :
  decodeUInt32 (encodeUInt32 n ++ rest) = some (n, rest)
  := by
  have hn : n.toNat % 256 ^ 4 = n.toNat := Nat.mod_eq_of_lt n.toNat_lt
  rw [decodeUInt32, encodeUInt32, decode_encode_append, hn]
  simp

/-! ### Headers -/

namespace MessageType

def ack : UInt32 := 0x4b4341
def hel : UInt32 := 0x4c4548
def msg : UInt32 := 0x47534d
def opn : UInt32 := 0x4e504f
def clo : UInt32 := 0x4f4c43
def err : UInt32 := 0x525245

end MessageType

namespace ChunkType

def final : UInt32 := 0x46000000
def intermediate : UInt32 := 0x43000000
def abort : UInt32 := 0x41000000

end ChunkType

/-- The type of a message together with the type of the chunk, and the size of the chunk. -/
structure TcpMessageHeader where
  messageTypeAndChunkType : UInt32
  messageSize : UInt32
deriving DecidableEq

/-- The header of a chunk. -/
structure SecureConversationMessageHeader where
  messageHeader : TcpMessageHeader
  secureChannelId : UInt32
deriving DecidableEq

/-- The header that follows the token of a chunk. -/
structure SequenceHeader where
  sequenceNumber : UInt32
  requestId : UInt32
deriving DecidableEq

/-- The error message of the transport. -/
structure TcpErrorMessage where
  error : StatusCode
  reason : List UInt8
deriving DecidableEq

/-- The length of the headers of a chunk that is not an OPN. -/
def secureMessageHeaderLength : Nat := 24

def TcpMessageHeader.decode (bytes : List UInt8) :
    Option (TcpMessageHeader × List UInt8) := do
  let (messageTypeAndChunkType, rest) ← decodeUInt32 bytes
  let (messageSize, rest) ← decodeUInt32 rest
  some (⟨messageTypeAndChunkType, messageSize⟩, rest)

def SecureConversationMessageHeader.encode (header : SecureConversationMessageHeader) :
    List UInt8 :=
  encodeUInt32 header.messageHeader.messageTypeAndChunkType ++
    encodeUInt32 header.messageHeader.messageSize ++ encodeUInt32 header.secureChannelId

def SecureConversationMessageHeader.decode (bytes : List UInt8) :
    Option (SecureConversationMessageHeader × List UInt8) := do
  let (messageHeader, rest) ← TcpMessageHeader.decode bytes
  let (secureChannelId, rest) ← decodeUInt32 rest
  some (⟨messageHeader, secureChannelId⟩, rest)

def SequenceHeader.encode (header : SequenceHeader) : List UInt8 :=
  encodeUInt32 header.sequenceNumber ++ encodeUInt32 header.requestId

def SequenceHeader.decode (bytes : List UInt8) : Option (SequenceHeader × List UInt8) := do
  let (sequenceNumber, rest) ← decodeUInt32 bytes
  let (requestId, rest) ← decodeUInt32 rest
  some (⟨sequenceNumber, requestId⟩, rest)

def TcpErrorMessage.decode (bytes : List UInt8) :
    Option (TcpErrorMessage × List UInt8) := do
  let (error, rest) ← decodeUInt32 bytes
  let (reason, rest) ← decodeString rest
  some (⟨error, reason⟩, rest)

/-- A chunk that is not an OPN: its headers, and its payload. -/
def encodeChunk (messageTypeAndChunkType : UInt32) (header : ChunkHeader)
    (payload : List UInt8) : List UInt8 :=
  SecureConversationMessageHeader.encode
      ⟨⟨messageTypeAndChunkType, UInt32.ofNat (payload.length + secureMessageHeaderLength)⟩,
        header.secureChannelId⟩ ++
    encodeUInt32 header.tokenId ++
    SequenceHeader.encode ⟨header.sequenceNumber, header.requestId⟩ ++ payload

/-- A chunk header is read back. -/
theorem SecureConversationMessageHeader.decode_encode_append
    (header : SecureConversationMessageHeader) (rest : List UInt8) :
  SecureConversationMessageHeader.decode (header.encode ++ rest) = some (header, rest)
  := by
  simp only [SecureConversationMessageHeader.decode, TcpMessageHeader.decode,
    SecureConversationMessageHeader.encode, List.append_assoc,
    decodeUInt32_encodeUInt32_append, Option.bind_eq_bind, Option.bind_some]

/-- A sequence header is read back. -/
theorem SequenceHeader.decode_encode_append (header : SequenceHeader) (rest : List UInt8) :
  SequenceHeader.decode (header.encode ++ rest) = some (header, rest)
  := by
  simp only [SequenceHeader.decode, SequenceHeader.encode, List.append_assoc,
    decodeUInt32_encodeUInt32_append, Option.bind_eq_bind, Option.bind_some]

/-! ### Node ids -/

/-- A node id: a namespace, and an identifier of one of four kinds. -/
inductive NodeId where
  | numeric (namespaceIndex : UInt16) (identifier : UInt32)
  | string (namespaceIndex : UInt16) (identifier : List UInt8)
  | guid (namespaceIndex : UInt16) (identifier : List UInt8)
  | byteString (namespaceIndex : UInt16) (identifier : List UInt8)
deriving DecidableEq

/-- `NodeId_encodeBinary` for a numeric node id, in the shortest of three encodings. -/
def NodeId.encodeNumeric (namespaceIndex : UInt16) (identifier : UInt32) : List UInt8 :=
  if identifier > 65535 ∨ namespaceIndex > 255 then
    2 :: (encodeUInt16 namespaceIndex ++ encodeUInt32 identifier)
  else if identifier > 255 ∨ namespaceIndex > 0 then
    1 :: namespaceIndex.toUInt8 :: encodeUInt16 identifier.toUInt16
  else [0, identifier.toUInt8]

/-- Every node id takes up some bytes. -/
theorem NodeId.encodeNumeric_ne_nil (namespaceIndex : UInt16) (identifier : UInt32) :
  NodeId.encodeNumeric namespaceIndex identifier ≠ []
  := by
  rw [NodeId.encodeNumeric]
  split
  · apply List.cons_ne_nil
  · split <;> apply List.cons_ne_nil

/-- `NodeId_decodeBinary`. -/
def NodeId.decode : List UInt8 → Except StatusCode (NodeId × List UInt8)
  | [] => .error .badDecodingError
  | encodingByte :: rest =>
    let orDecodingError {α : Type} (decoded : Option α) : Except StatusCode α :=
      decoded.elim (.error .badDecodingError) .ok
    if encodingByte = 0 then orDecodingError do
      let (identifier, rest) ← LittleEndian.decode 1 rest
      some (.numeric 0 (UInt32.ofNat identifier), rest)
    else if encodingByte = 1 then orDecodingError do
      let (namespaceIndex, rest) ← LittleEndian.decode 1 rest
      let (identifier, rest) ← decodeUInt16 rest
      some (.numeric (UInt16.ofNat namespaceIndex) identifier.toUInt32, rest)
    else if encodingByte = 2 then orDecodingError do
      let (namespaceIndex, rest) ← decodeUInt16 rest
      let (identifier, rest) ← decodeUInt32 rest
      some (.numeric namespaceIndex identifier, rest)
    else if encodingByte = 3 then orDecodingError do
      let (namespaceIndex, rest) ← decodeUInt16 rest
      let (identifier, rest) ← decodeString rest
      some (.string namespaceIndex identifier, rest)
    else if encodingByte = 4 then orDecodingError do
      let (namespaceIndex, rest) ← decodeUInt16 rest
      if rest.length < 16 then none
      else some (.guid namespaceIndex (rest.take 16), rest.drop 16)
    else if encodingByte = 5 then orDecodingError do
      let (namespaceIndex, rest) ← decodeUInt16 rest
      let (identifier, rest) ← decodeString rest
      some (.byteString namespaceIndex identifier, rest)
    else .error .badInternalError

/-- A node id that cannot be decoded gives a bad status code. -/
theorem NodeId.ne_good_of_decode {bytes : List UInt8} {retval : StatusCode}
    (h : NodeId.decode bytes = .error retval) :
  retval ≠ .good
  := by
  have helim : ∀ {α : Type} (decoded : Option α),
      decoded.elim (Except.error StatusCode.badDecodingError) Except.ok = .error retval →
        retval ≠ .good := by
    intro α decoded helim
    cases decoded with
    | none =>
        obtain rfl := Except.error.inj helim
        decide
    | some a => cases helim
  cases bytes with
  | nil =>
      obtain rfl := Except.error.inj h
      decide
  | cons encodingByte rest =>
      simp only [NodeId.decode] at h
      repeat (split at h; · apply helim _ h)
      obtain rfl := Except.error.inj h
      decide

end UA
