import UaRateThrottling.Channel.Encoding

/-!
# Sending a message as tasks

A client encodes a message into a buffer of the size the other end accepts.  Whenever a piece of
the message does not fit any more, `sendChunk` puts the buffer into a task of the queue, as an
intermediate chunk, and a new buffer takes its place; the last buffer is sent as the final chunk.
A message beyond the limits of the other end is aborted.

`sendBinaryMessage_unlimited` says what becomes of a message when there are no limits: its bytes
are cut into payloads, and each payload is a task, under consecutive sequence numbers.
-/

namespace Zuth

open UA

/-- What a task document says: the channel and the request, the bytes of the chunk and their
number. -/
structure Task where
  channelId : UInt32
  requestId : UInt32
  dst : List UInt8
  offset : Nat
deriving DecidableEq

/-- The state of sending a message. -/
structure ChunkInfo where
  requestId : UInt32
  messageType : UInt32
  chunksSoFar : UInt16
  messageSizeSoFar : Nat
  final : Bool
  errorCode : StatusCode
deriving DecidableEq

/-- A channel while a message is sent on it: `dst` is what the buffer holds after the place of the
headers, `space` how much it can hold there, and `tasks` are the tasks created. -/
structure Sender where
  channel : SecureChannel
  ci : ChunkInfo
  dst : List UInt8
  space : Nat
  tasks : List Task
deriving DecidableEq

/-- What is sent: the id of its binary encoding, the pieces the encoder writes, each of which goes
into one buffer, and the status code it ends with. -/
structure Content where
  binaryEncodingId : UInt32
  pieces : List (List UInt8)
  retval : StatusCode

/-- What `HelAckHandshake` makes of the limits in the ACK message: the own buffers are made no
larger than what the other end takes. -/
def acknowledge (connection : Connection) (ack : ConnectionConfig) : Connection :=
  { connection with
    remoteConf := ack
    localConf := { connection.localConf with
      sendBufferSize :=
        if ack.recvBufferSize < connection.localConf.sendBufferSize then ack.recvBufferSize
        else connection.localConf.sendBufferSize
      recvBufferSize :=
        if ack.sendBufferSize < connection.localConf.recvBufferSize then ack.sendBufferSize
        else connection.localConf.recvBufferSize } }

/-- After the handshake the other end takes the buffers of the connection. -/
theorem accepted_acknowledge (connection : Connection) (ack : ConnectionConfig) :
  (acknowledge connection ack).localConf.sendBufferSize ≤
    (acknowledge connection ack).remoteConf.recvBufferSize
  := by
  simp only [acknowledge]
  split
  · apply UInt32.le_refl
  · apply UInt32.not_lt.mp
    assumption

/-- `ClientNetworkLayerGetBuffer`: the length of a new buffer. -/
def getSendBuffer (connection : Connection) (closed : Bool) (length : UInt32) :
    Except StatusCode Nat :=
  if length > connection.remoteConf.recvBufferSize then .error .badCommunicationError
  else if closed then .error .badConnectionClosed
  else .ok connection.remoteConf.recvBufferSize.toNat

/-- The space a new buffer has for a payload, when there is room for the headers. -/
def payloadSpace (connection : Connection) : Nat :=
  connection.localConf.sendBufferSize.toNat - secureMessageHeaderLength

/-- The payload of an abort chunk, as far as there is space for it: the error code and a null
string. -/
def abortPayload (space : Nat) (errorCode : StatusCode) : List UInt8 :=
  if space < 4 then []
  else if space < 8 then encodeUInt32 errorCode
  else encodeUInt32 errorCode ++ encodeNullString

/-- The error code of a message after one more chunk of the given length. -/
def limitCode (remoteConf : ConnectionConfig) (ci : ChunkInfo) (offset : Nat) : StatusCode :=
  if (ci.messageSizeSoFar + offset > remoteConf.maxMessageSize.toNat ∧
        remoteConf.maxMessageSize > 0) ∨
      ((ci.chunksSoFar + 1).toUInt32 > remoteConf.maxChunkCount ∧
        remoteConf.maxChunkCount > 0) then .badResponseTooLarge
  else ci.errorCode

/-- The task for a chunk of a channel, under the token in use. -/
def chunkTask (channel : SecureChannel) (requestId messageTypeAndChunkType sequenceNumber : UInt32)
    (payload : List UInt8) : Task where
  channelId := channel.securityToken.channelId
  requestId := requestId
  dst := encodeChunk messageTypeAndChunkType
    { secureChannelId := channel.securityToken.channelId
      tokenId := channel.securityToken.tokenId
      sequenceNumber := sequenceNumber
      requestId := requestId } payload
  offset := payload.length + secureMessageHeaderLength

/-- `ZUTH_SecureChannel_sendChunk`: the buffer becomes a chunk in a task, and unless it was the
last one there is a new buffer. -/
def sendChunk (closed : Bool) (sender : Sender) : StatusCode × Sender :=
  match sender.channel.connection with
  | none => (.badInternalError, sender)
  | some connection =>
    let channel := sender.channel
    let errorCode := limitCode connection.remoteConf sender.ci
      (sender.dst.length + secureMessageHeaderLength)
    let final := sender.ci.final || errorCode ≠ .good
    let chunkType :=
      if errorCode = .good then
        if sender.ci.final then ChunkType.final else ChunkType.intermediate
      else ChunkType.abort
    let payload := if errorCode = .good then sender.dst else abortPayload sender.space errorCode
    let task := chunkTask channel sender.ci.requestId (sender.ci.messageType + chunkType)
      (channel.sendSequenceNumber + 1) payload
    let sender := { sender with
      channel := { channel with sendSequenceNumber := channel.sendSequenceNumber + 1 }
      ci := { sender.ci with
        chunksSoFar := sender.ci.chunksSoFar + 1
        messageSizeSoFar := sender.ci.messageSizeSoFar + task.offset
        final := final
        errorCode := errorCode }
      tasks := sender.tasks ++ [task] }
    if final then (errorCode, sender)
    else
      match getSendBuffer connection closed connection.localConf.sendBufferSize with
      | .error retval => (retval, sender)
      | .ok _ => (errorCode, { sender with
          dst := []
          space := payloadSpace connection })

/-- The encoder writes its pieces into the buffer.  A piece that does not fit is tried again on the
next buffer, for ever when it fits into none. -/
def encodePieces (closed : Bool) : Nat → List (List UInt8) → Sender →
    Option (StatusCode × Sender)
  | 0, _, _ => none
  | _ + 1, [], sender => some (.good, sender)
  | fuel + 1, piece :: pieces, sender =>
    if sender.dst.length + piece.length ≤ sender.space then
      encodePieces closed fuel pieces { sender with dst := sender.dst ++ piece }
    else
      match sendChunk closed sender with
      | (retval, sender) =>
        if retval ≠ .good then some (retval, sender)
        else encodePieces closed fuel (piece :: pieces) sender

/-- The message type of a request or response. -/
def messageType (binaryEncodingId : UInt32) : UInt32 :=
  if binaryEncodingId = 446 ∨ binaryEncodingId = 449 then MessageType.opn
  else if binaryEncodingId = 452 ∨ binaryEncodingId = 455 then MessageType.clo
  else MessageType.msg

/-- `ZUTH_SecureChannel_sendBinaryMessage` of a message in pieces.  The node id of the type is
written into the first buffer, when it fits there.  Nothing is said of buffers without room for the
headers. -/
def sendBinaryMessage (closed : Bool) (fuel : Nat) (channel : SecureChannel)
    (requestId : UInt32) (content : Content) :
    Option (StatusCode × SecureChannel × List Task) :=
  match channel.connection with
  | none => some (.badInternalError, channel, [])
  | some connection =>
    match getSendBuffer connection closed connection.localConf.sendBufferSize with
    | .error retval => some (retval, channel, [])
    | .ok length =>
      if connection.localConf.sendBufferSize.toNat < secureMessageHeaderLength then none else
      let space := length - secureMessageHeaderLength
      let typeId := NodeId.encodeNumeric 0 content.binaryEncodingId
      let ci : ChunkInfo := {
        requestId := requestId
        messageType := messageType content.binaryEncodingId
        chunksSoFar := 0
        messageSizeSoFar := 0
        final := false
        errorCode := .good }
      let dst := if typeId.length ≤ space then typeId else []
      match encodePieces closed fuel content.pieces ⟨channel, ci, dst, space, []⟩ with
      | none => none
      | some (retval, sender) =>
        let retval := if retval = .good then content.retval else retval
        if retval ≠ .good then
          if sender.ci.final then some (retval, sender.channel, sender.tasks)
          else
            let sender := (sendChunk closed
              { sender with ci := { sender.ci with errorCode := retval } }).2
            some (retval, sender.channel, sender.tasks)
        else
          match sendChunk closed { sender with ci := { sender.ci with final := true } } with
          | (retval, sender) => some (retval, sender.channel, sender.tasks)

/-! ### A message without limits -/

/-- The sequence number after as many chunks. -/
def after (n : UInt32) (payloads : List (List UInt8)) : UInt32 :=
  payloads.foldl (fun n _ => n + 1) n

/-- The tasks for intermediate chunks with the given payloads, with the sequence numbers after
`n`. -/
def intermediateTasks (channel : SecureChannel) (requestId messageType : UInt32) :
    UInt32 → List (List UInt8) → List Task
  | _, [] => []
  | n, payload :: payloads =>
    chunkTask channel requestId (messageType + ChunkType.intermediate) (n + 1) payload ::
      intermediateTasks channel requestId messageType (n + 1) payloads

/-- The tasks for a message cut into the given payloads, the last of which is the final chunk. -/
def messageTasks (channel : SecureChannel) (requestId messageType n : UInt32)
    (payloads : List (List UInt8)) (last : List UInt8) : List Task :=
  intermediateTasks channel requestId messageType n payloads ++
    [chunkTask channel requestId (messageType + ChunkType.final) (after n payloads + 1) last]

theorem after_append (n : UInt32) (payloads : List (List UInt8)) (payload : List UInt8) :
  after n (payloads ++ [payload]) = after n payloads + 1
  := by
  rw [after, List.foldl_append]
  rfl

theorem intermediateTasks_append (channel : SecureChannel) (requestId messageType n : UInt32)
    (payloads : List (List UInt8)) (payload : List UInt8) :
  intermediateTasks channel requestId messageType n (payloads ++ [payload]) =
    intermediateTasks channel requestId messageType n payloads ++
      [chunkTask channel requestId (messageType + ChunkType.intermediate)
        (after n payloads + 1) payload]
  := by
  induction payloads generalizing n with
  | nil => rfl
  | cons head payloads ih =>
      rw [List.cons_append, intermediateTasks, ih]
      rfl

/-- A connection without limits on messages, whose buffers have space for more than the headers
and are accepted by the other end. -/
structure Unlimited (connection : Connection) : Prop where
  messageSize : connection.remoteConf.maxMessageSize = 0
  chunkCount : connection.remoteConf.maxChunkCount = 0
  space : secureMessageHeaderLength < connection.localConf.sendBufferSize.toNat
  accepted : connection.localConf.sendBufferSize ≤ connection.remoteConf.recvBufferSize

section

variable {channel : SecureChannel} {connection : Connection} {requestId type : UInt32}

/-- What a sender has done so far: the bytes given to it are cut into payloads, each of which is an
intermediate chunk, and the rest is in the buffer. -/
structure Emitted (channel : SecureChannel) (connection : Connection) (requestId type : UInt32)
    (bytes : List UInt8) (payloads : List (List UInt8)) (sender : Sender) : Prop where
  channel_eq : sender.channel =
    { channel with sendSequenceNumber := after channel.sendSequenceNumber payloads }
  requestId_eq : sender.ci.requestId = requestId
  type_eq : sender.ci.messageType = type
  not_final : sender.ci.final = false
  no_error : sender.ci.errorCode = .good
  tasks_eq : sender.tasks =
    intermediateTasks channel requestId type channel.sendSequenceNumber payloads
  bytes_eq : payloads.flatten ++ sender.dst = bytes
  fits : sender.dst.length ≤ sender.space
  space_le : sender.space + secureMessageHeaderLength ≤
    connection.remoteConf.recvBufferSize.toNat
  le_space : payloadSpace connection ≤ sender.space
  payloads_le : ∀ payload ∈ payloads, payload.length + secureMessageHeaderLength ≤
    connection.remoteConf.recvBufferSize.toNat

variable {bytes : List UInt8} {payloads : List (List UInt8)} {sender : Sender}

/-- Without limits no error comes up. -/
theorem limitCode_unlimited (h : Unlimited connection) (ci : ChunkInfo) (offset : Nat) :
  limitCode connection.remoteConf ci offset = ci.errorCode
  := by
  obtain ⟨hsize, hcount, -, -⟩ := h
  rw [limitCode, if_neg]
  simp [hsize, hcount]

/-- A buffer of the size of the connection can be had while the connection is open. -/
theorem getSendBuffer_unlimited (h : Unlimited connection) :
  getSendBuffer connection false connection.localConf.sendBufferSize =
    .ok connection.remoteConf.recvBufferSize.toNat
  := by
  rw [getSendBuffer, if_neg (UInt32.not_lt.mpr h.accepted)]
  rfl

/-- A piece that fits is written into the buffer. -/
theorem Emitted.write (h : Emitted channel connection requestId type bytes payloads sender)
    {piece : List UInt8} (hfits : sender.dst.length + piece.length ≤ sender.space) :
  Emitted channel connection requestId type (bytes ++ piece) payloads
    { sender with dst := sender.dst ++ piece }
  := by
  obtain ⟨hchannel, hrequestId, htype, hfinal, herror, htasks, hbytes, -, hspace, hle,
    hpayloads⟩ := h
  constructor
  · apply hchannel
  · apply hrequestId
  · apply htype
  · apply hfinal
  · apply herror
  · apply htasks
  · rw [← hbytes, List.append_assoc]
  · rw [List.length_append]
    apply hfits
  · apply hspace
  · apply hle
  · apply hpayloads

/-- The buffer is sent as an intermediate chunk, and there is a new one. -/
theorem Emitted.sendChunk (hconnection : channel.connection = some connection)
    (hunlimited : Unlimited connection)
    (h : Emitted channel connection requestId type bytes payloads sender) :
  ∃ sender', Zuth.sendChunk false sender = (.good, sender') ∧ sender'.dst = [] ∧
    Emitted channel connection requestId type bytes (payloads ++ [sender.dst]) sender'
  := by
  obtain ⟨hchannel, hrequestId, htype, hfinal, herror, htasks, hbytes, hfits, hspace, hle,
    hpayloads⟩ := h
  have hsenderConnection : sender.channel.connection = some connection := by
    rw [hchannel]
    apply hconnection
  simp only [Zuth.sendChunk, hsenderConnection, limitCode_unlimited hunlimited, herror, hfinal,
    getSendBuffer_unlimited hunlimited]
  refine ⟨_, rfl, rfl, ?_⟩
  constructor
  · simp only [hchannel, after_append]
    rw [hconnection]
  · apply hrequestId
  · apply htype
  · rfl
  · rfl
  · simp only [htasks, intermediateTasks_append, hrequestId, htype, hchannel]
    rfl
  · simp only [List.flatten_append, List.flatten_singleton, List.append_nil]
    apply hbytes
  · simp
  · have hsend := UInt32.le_iff_toNat_le.mp hunlimited.accepted
    have hlt := hunlimited.space
    dsimp only [payloadSpace]
    omega
  · apply Nat.le_refl
  · intro payload hmem
    rcases List.mem_append.mp hmem with hmem | hmem
    · apply hpayloads payload hmem
    · rw [List.mem_singleton.mp hmem]
      omega

/-- The encoder writes all its pieces, when each fits into an empty buffer. -/
theorem Emitted.encodePieces (hconnection : channel.connection = some connection)
    (hunlimited : Unlimited connection)
    (h : Emitted channel connection requestId type bytes payloads sender)
    {pieces : List (List UInt8)}
    (hpieces : ∀ piece ∈ pieces, piece.length ≤ payloadSpace connection)
    {fuel : Nat} (hfuel : 2 * pieces.length < fuel) :
  ∃ payloads' sender', Zuth.encodePieces false fuel pieces sender = some (.good, sender') ∧
    Emitted channel connection requestId type (bytes ++ pieces.flatten) payloads' sender'
  := by
  induction pieces generalizing bytes payloads sender fuel with
  | nil =>
      obtain ⟨fuel, rfl⟩ := Nat.exists_eq_succ_of_ne_zero (Nat.ne_zero_of_lt hfuel)
      use payloads, sender, rfl
      rw [List.flatten_nil, List.append_nil]
      apply h
  | cons piece pieces ih =>
      rw [List.length_cons] at hfuel
      have hpiece := hpieces piece List.mem_cons_self
      have hrest := fun p hp => hpieces p (List.mem_cons_of_mem _ hp)
      have hwrite : ∀ {payloads sender fuel}, 2 * pieces.length + 1 < fuel →
          Emitted channel connection requestId type bytes payloads sender →
          sender.dst.length + piece.length ≤ sender.space →
          ∃ payloads' sender',
            Zuth.encodePieces false fuel (piece :: pieces) sender = some (.good, sender') ∧
            Emitted channel connection requestId type (bytes ++ (piece :: pieces).flatten)
              payloads' sender' := by
        intro payloads sender fuel hfuel h hfits
        obtain ⟨fuel, rfl⟩ := Nat.exists_eq_succ_of_ne_zero (Nat.ne_zero_of_lt hfuel)
        have hfuel' : 2 * pieces.length < fuel := by omega
        obtain ⟨payloads', sender', heq, h'⟩ := ih (h.write hfits) hrest hfuel'
        use payloads', sender'
        constructor
        · rw [Zuth.encodePieces, if_pos hfits]
          apply heq
        · rw [List.flatten_cons, ← List.append_assoc]
          apply h'
      by_cases hfits : sender.dst.length + piece.length ≤ sender.space
      · apply hwrite (by omega) h hfits
      · -- the buffer is exchanged, and the piece fits into the new one
        obtain ⟨fuel, rfl⟩ := Nat.exists_eq_succ_of_ne_zero (Nat.ne_zero_of_lt hfuel)
        obtain ⟨sender', hsend, hempty, h'⟩ := h.sendChunk hconnection hunlimited
        have hfits' : sender'.dst.length + piece.length ≤ sender'.space := by
          have hle := h'.le_space
          rw [hempty, List.length_nil]
          omega
        have hfuel' : 2 * pieces.length + 1 < fuel := by omega
        obtain ⟨payloads'', sender'', heq, h''⟩ := hwrite hfuel' h' hfits'
        use payloads'', sender''
        constructor
        · rw [Zuth.encodePieces, if_neg hfits, hsend]
          apply heq
        · apply h''

/-- The last buffer is sent as the final chunk. -/
theorem Emitted.sendFinal (hconnection : channel.connection = some connection)
    (hunlimited : Unlimited connection)
    (h : Emitted channel connection requestId type bytes payloads sender) :
  ∃ sender', Zuth.sendChunk false { sender with ci := { sender.ci with final := true } } =
      (.good, sender') ∧
    sender'.channel = { channel with
      sendSequenceNumber := after channel.sendSequenceNumber payloads + 1 } ∧
    sender'.tasks =
      messageTasks channel requestId type channel.sendSequenceNumber payloads sender.dst
  := by
  have hsenderConnection : sender.channel.connection = some connection := by
    rw [h.channel_eq]
    apply hconnection
  simp only [Zuth.sendChunk, hsenderConnection, limitCode_unlimited hunlimited, h.no_error]
  refine ⟨_, rfl, ?_, ?_⟩
  · simp only [h.channel_eq]
    rw [hconnection]
  · simp only [h.tasks_eq, h.requestId_eq, h.type_eq, h.channel_eq, messageTasks]
    rfl

end

/-- A message without limits is cut into payloads, and becomes the tasks for them. -/
theorem sendBinaryMessage_unlimited {channel : SecureChannel} {connection : Connection}
    (hconnection : channel.connection = some connection) (hunlimited : Unlimited connection)
    (requestId : UInt32) {content : Content} (hretval : content.retval = .good)
    (htypeId : (NodeId.encodeNumeric 0 content.binaryEncodingId).length ≤ payloadSpace connection)
    (hpieces : ∀ piece ∈ content.pieces, piece.length ≤ payloadSpace connection)
    {fuel : Nat} (hfuel : 2 * content.pieces.length < fuel) :
  ∃ payloads last,
    sendBinaryMessage false fuel channel requestId content = some (.good,
      { channel with sendSequenceNumber := after channel.sendSequenceNumber payloads + 1 },
      messageTasks channel requestId (messageType content.binaryEncodingId)
        channel.sendSequenceNumber payloads last) ∧
    payloads.flatten ++ last =
      NodeId.encodeNumeric 0 content.binaryEncodingId ++ content.pieces.flatten ∧
    ∀ payload ∈ payloads ++ [last], payload.length + secureMessageHeaderLength < 2 ^ 32
  := by
  have hspace := hunlimited.space
  have haccepted := UInt32.le_iff_toNat_le.mp hunlimited.accepted
  have hlt := connection.remoteConf.recvBufferSize.toNat_lt
  have hpayload : payloadSpace connection ≤
      connection.remoteConf.recvBufferSize.toNat - secureMessageHeaderLength := by
    rw [payloadSpace]
    omega
  have hfirst := Nat.le_trans htypeId hpayload
  have hstart : Emitted channel connection requestId (messageType content.binaryEncodingId)
      (NodeId.encodeNumeric 0 content.binaryEncodingId) []
      ⟨channel, ⟨requestId, messageType content.binaryEncodingId, 0, 0, false, .good⟩,
        NodeId.encodeNumeric 0 content.binaryEncodingId,
        connection.remoteConf.recvBufferSize.toNat - secureMessageHeaderLength, []⟩ := by
    constructor
    · rfl
    · rfl
    · rfl
    · rfl
    · rfl
    · rfl
    · rfl
    · apply hfirst
    · dsimp only
      omega
    · apply hpayload
    · simp
  obtain ⟨payloads, sender, hencode, hemitted⟩ :=
    hstart.encodePieces hconnection hunlimited hpieces hfuel
  obtain ⟨sender', hsend, hchannel, htasks⟩ := hemitted.sendFinal hconnection hunlimited
  use payloads, sender.dst
  constructor
  · rw [sendBinaryMessage, hconnection]
    simp only [getSendBuffer_unlimited hunlimited, if_neg (Nat.not_lt.mpr (Nat.le_of_lt hspace)),
      if_pos hfirst, hencode, hretval, if_true, ne_eq, not_true_eq_false, if_false, hsend, hchannel,
      htasks]
    rw [hconnection]
  · use hemitted.bytes_eq
    intro payload hmem
    rcases List.mem_append.mp hmem with hmem | hmem
    · have hle := hemitted.payloads_le payload hmem
      omega
    · rw [List.mem_singleton.mp hmem]
      have hfits := hemitted.fits
      have hle := hemitted.space_le
      omega

end Zuth
