import UaRateThrottling.Channel.Envelope
import UaRateThrottling.Channel.Stream

/-!
# The messages of whole runs

A client sends one message after the other on its channel, directly over TCP or as tasks of the
queue.  Either way the channel of the server calls back the messages of its client, as they were
sent and in their order:

* `messages_delivered` for messages sent directly, however TCP divides the stream;
* `queue_delivers` for the tasks of any number of clients, however they are mixed in the queue.
-/

namespace UA

open SecureChannel

/-- A chunk is a chunk for every receiver whose buffer it fits into. -/
theorem dataChunk_encodeChunk {recvBufferSize t : UInt32} (header : ChunkHeader)
    {payload : List UInt8}
    (ht : t ∈ [MessageType.msg + ChunkType.final, MessageType.msg + ChunkType.intermediate,
      MessageType.msg + ChunkType.abort, MessageType.opn + ChunkType.final,
      MessageType.opn + ChunkType.intermediate, MessageType.opn + ChunkType.abort,
      MessageType.clo + ChunkType.final, MessageType.clo + ChunkType.intermediate,
      MessageType.clo + ChunkType.abort])
    (hlength : payload.length + secureMessageHeaderLength ≤ recvBufferSize.toNat) :
  DataChunk recvBufferSize (encodeChunk t header payload)
  := by
  have htype : ∀ rest, IsMessageType (messageTypeAt (encodeUInt32 t ++ rest)) ∧
      (encodeUInt32 t).take 3 ≠ [0x45, 0x52, 0x52] := by
    intro rest
    rw [messageTypeAt, List.getD_append _ _ _ 0 (by simp), List.getD_append _ _ _ 1 (by simp),
      List.getD_append _ _ _ 2 (by simp)]
    simp only [List.mem_cons, List.not_mem_nil, or_false] at ht
    rcases ht with rfl | rfl | rfl | rfl | rfl | rfl | rfl | rfl | rfl <;> decide
  have hlt := recvBufferSize.toNat_lt
  have hsize : (UInt32.ofNat (payload.length + secureMessageHeaderLength)).toNat =
      payload.length + secureMessageHeaderLength := by
    rw [UInt32.toNat_ofNat', Nat.mod_eq_of_lt (by omega)]
  have hencoded : (encodeChunk t header payload).length =
      payload.length + secureMessageHeaderLength := Zuth.length_encodeChunk
  have hsplit : ∃ rest, encodeChunk t header payload = encodeUInt32 t ++
      (encodeUInt32 (UInt32.ofNat (payload.length + secureMessageHeaderLength)) ++ rest) := by
    rw [encodeChunk, SecureConversationMessageHeader.encode]
    simp only [List.append_assoc]
    exact ⟨_, rfl⟩
  obtain ⟨rest, hrest⟩ := hsplit
  rw [secureMessageHeaderLength] at hencoded hsize hlength
  constructor
  · have hbig : ¬(UInt32.ofNat (payload.length + 24) < 16 ∨
        UInt32.ofNat (payload.length + 24) > recvBufferSize) := by
      rw [not_or, UInt32.not_lt, gt_iff_lt, UInt32.not_lt, UInt32.le_iff_toNat_le,
        UInt32.le_iff_toNat_le, hsize]
      constructor
      · exact Nat.le_trans (by decide) (Nat.le_add_left 24 payload.length)
      · apply hlength
    rw [isChunk_iff, chunkFront, hencoded, if_neg (by omega), hrest,
      if_neg (not_not.mpr (htype _).1),
      chunkLengthAt, List.drop_append_of_le_length (by simp),
      List.drop_eq_nil_of_le (by simp), List.nil_append, decodeUInt32_encodeUInt32_append]
    rw [secureMessageHeaderLength, Option.map_some]
    dsimp only
    rw [if_neg hbig, if_neg (by omega), hsize]
  · rw [hencoded, secureMessageHeaderLength]
    omega
  · rw [hrest, List.take_append_of_le_length (by simp)]
    apply (htype []).2

end UA

namespace Zuth

open UA SecureChannel

/-! ### One message -/

section

variable {client server : SecureChannel} {received : List Received} {requestId n : UInt32}
  {part : Option (List UInt8)} {payload : List UInt8} {recvBufferSize : UInt32}

/-- An intermediate chunk is gone through to its end, and adds its payload. -/
theorem processAt_intermediate
    (hid : client.securityToken.channelId = server.securityToken.channelId)
    (htoken : client.securityToken.tokenId = server.securityToken.tokenId)
    (hnew : ∀ ch ∈ server.chunks, ch.requestId ≠ requestId)
    (hlength : payload.length + secureMessageHeaderLength < 2 ^ 32) :
  ∃ next, processAt collect (chunkTask client requestId
        (MessageType.msg + ChunkType.intermediate) (n + 1) payload).dst 0 received
      (receiving server requestId n part) =
    ⟨.good, some next, received,
      receiving server requestId (n + 1) (some (part.getD [] ++ payload))⟩
  := by
  obtain ⟨hsize, hcontent⟩ := chunklength_eq hlength
  have htypes : (MessageType.msg + ChunkType.intermediate) &&& 0xff000000 =
      ChunkType.intermediate := by decide
  rw [chunkTask, processAt_encodeChunk collect _ (by decide) (by decide) hid htoken rfl,
    dispatchChunk]
  simp only [htypes, if_true, hsize, hcontent, Nat.zero_add]
  rw [← appendChunk_receiving hnew]
  exact ⟨_, rfl⟩

/-- The final chunk is gone through to its end, and completes the message. -/
theorem processAt_final
    (hid : client.securityToken.channelId = server.securityToken.channelId)
    (htoken : client.securityToken.tokenId = server.securityToken.tokenId)
    (hnew : ∀ ch ∈ server.chunks, ch.requestId ≠ requestId)
    (hlength : payload.length + secureMessageHeaderLength < 2 ^ 32)
    (hmessage : part.getD [] ++ payload ≠ []) :
  ∃ next, processAt collect (chunkTask client requestId
        (MessageType.msg + ChunkType.final) (n + 1) payload).dst 0 received
      (receiving server requestId n part) =
    ⟨.good, some next, received ++ [.message MessageType.msg requestId (part.getD [] ++ payload)],
      receiving server requestId (n + 1) none⟩
  := by
  obtain ⟨hsize, hcontent⟩ := chunklength_eq hlength
  have htypes : (MessageType.msg + ChunkType.final) &&& 0xff000000 = ChunkType.final := by decide
  have htype : (MessageType.msg + ChunkType.final) &&& 0x00ffffff = MessageType.msg := by decide
  have hne : ChunkType.final ≠ ChunkType.intermediate := by decide
  have hchecked : { receiving server requestId n part with receiveSequenceNumber := n + 1 } =
      receiving server requestId (n + 1) part := rfl
  rw [chunkTask, processAt_encodeChunk collect _ (by decide) (by decide) hid htoken rfl,
    dispatchChunk]
  simp only [htypes, htype, hne, if_false, if_true, hsize, hcontent, Nat.zero_add]
  have hnumber : (receiving server requestId n part).receiveSequenceNumber = n := rfl
  rw [hnumber, hchecked, finalizeChunk_receiving hnew, if_pos (List.length_pos_iff.mpr hmessage)]
  exact ⟨_, rfl⟩

/-- The chunks of a message make the channel call it back, and leave nothing else behind than the
next sequence number. -/
theorem processEach_messageTasks
    (hid : client.securityToken.channelId = server.securityToken.channelId)
    (htoken : client.securityToken.tokenId = server.securityToken.tokenId)
    (hnew : ∀ ch ∈ server.chunks, ch.requestId ≠ requestId) {payloads : List (List UInt8)}
    {last : List UInt8}
    (hlength : ∀ payload ∈ payloads ++ [last],
      payload.length + secureMessageHeaderLength < 2 ^ 32)
    (hmessage : part.getD [] ++ payloads.flatten ++ last ≠ []) :
  processEach collect
      ((messageTasks client requestId MessageType.msg n payloads last).map Task.dst) received
      (receiving server requestId n part) =
    ⟨.good, received ++
        [.message MessageType.msg requestId (part.getD [] ++ payloads.flatten ++ last)],
      receiving server requestId (after n payloads + 1) none⟩
  := by
  induction payloads generalizing n part with
  | nil =>
      rw [List.flatten_nil, List.append_nil] at hmessage ⊢
      obtain ⟨next, hstep⟩ := @processAt_final client server received requestId n part last hid
        htoken hnew (hlength last (by simp)) hmessage
      rw [messageTasks, intermediateTasks, List.nil_append, List.map_singleton, processEach,
        show after n [] = n from rfl, hstep]
      rfl
  | cons payload payloads ih =>
      have hpart : part.getD [] ++ (payload :: payloads).flatten ++ last =
          (some (part.getD [] ++ payload)).getD [] ++ payloads.flatten ++ last := by
        rw [List.flatten_cons, Option.getD_some, List.append_assoc, List.append_assoc,
          List.append_assoc, List.append_assoc]
      rw [hpart] at hmessage ⊢
      obtain ⟨next, hstep⟩ := @processAt_intermediate client server received requestId n part
        payload hid htoken hnew (hlength payload List.mem_cons_self)
      rw [messageTasks, intermediateTasks, List.cons_append, List.map_cons, processEach, hstep]
      apply ih (fun p hp => hlength p (List.mem_cons_of_mem _ hp)) hmessage

end

/-! ### One message after the other -/

/-- A request id, and what is sent under it. -/
abbrev Message := UInt32 × Content

/-- The bytes of a message. -/
def Message.bytes (message : Message) : List UInt8 :=
  NodeId.encodeNumeric 0 message.2.binaryEncodingId ++ message.2.pieces.flatten

theorem Message.bytes_ne_nil (message : Message) :
  message.bytes ≠ []
  := by
  apply List.append_ne_nil_of_left_ne_nil
  apply NodeId.encodeNumeric_ne_nil

/-- What the other end is called back on. -/
def Message.received (message : Message) : Received :=
  .message MessageType.msg message.1 message.bytes

/-- The message is an ordinary one, it is encoded without an error, and each piece of it fits into a
buffer of the connection. -/
structure Sendable (connection : Connection) (message : Message) : Prop where
  type : message.2.binaryEncodingId ∉ [446, 449, 452, 455]
  retval : message.2.retval = .good
  typeId : (NodeId.encodeNumeric 0 message.2.binaryEncodingId).length ≤ payloadSpace connection
  pieces : ∀ piece ∈ message.2.pieces, piece.length ≤ payloadSpace connection

theorem Sendable.messageType_eq {connection : Connection} {message : Message}
    (h : Sendable connection message) :
  messageType message.2.binaryEncodingId = MessageType.msg
  := by
  have htype := h.type
  simp only [List.mem_cons, List.not_mem_nil, or_false, not_or] at htype
  rw [messageType, if_neg (by tauto), if_neg (by tauto)]

/-- The messages are sent one after the other: their status codes, the channel, and what has been
sent. -/
def sendAll {μ τ : Type} (send : SecureChannel → μ → Option (StatusCode × SecureChannel × List τ)) :
    List μ → SecureChannel → Option (List StatusCode × SecureChannel × List τ)
  | [], channel => some ([], channel, [])
  | message :: messages, channel => do
    let (retval, channel, sent) ← send channel message
    let (retvals, channel, later) ← sendAll send messages channel
    some (retval :: retvals, channel, sent ++ later)

/-- Both ends agree on the channel, its token and the sequence number. -/
structure EndsAgree (client server : SecureChannel) : Prop where
  channelId : client.securityToken.channelId = server.securityToken.channelId
  tokenId : client.securityToken.tokenId = server.securityToken.tokenId
  number : client.sendSequenceNumber = server.receiveSequenceNumber

section

variable {μ τ : Type} (send : SecureChannel → μ → Option (StatusCode × SecureChannel × List τ))
  (dst : τ → List UInt8) (requestId : μ → UInt32) (bytes : μ → List UInt8)

/-- The message is sent in chunks no longer than the limit, under consecutive sequence numbers. -/
def SendsChunks (limit : Nat) (client : SecureChannel) (message : μ) : Prop :=
  ∃ payloads last sent,
    send client message = some (.good,
      { client with sendSequenceNumber := after client.sendSequenceNumber payloads + 1 }, sent) ∧
    sent.map dst = (messageTasks client (requestId message) MessageType.msg
      client.sendSequenceNumber payloads last).map Task.dst ∧
    payloads.flatten ++ last = bytes message ∧
    ∀ payload ∈ payloads ++ [last], payload.length + secureMessageHeaderLength ≤ limit

variable {send dst requestId bytes} {client server : SecureChannel} {recvBufferSize : UInt32}

/-- The chunks of a message are chunks for the receiver. -/
theorem dataChunk_of_mem_messageTasks {requestId n : UInt32} {payloads : List (List UInt8)}
    {last : List UInt8}
    (hlength : ∀ payload ∈ payloads ++ [last],
      payload.length + secureMessageHeaderLength ≤ recvBufferSize.toNat)
    {chunk : List UInt8}
    (h : chunk ∈ (messageTasks client requestId MessageType.msg n payloads last).map Task.dst) :
  DataChunk recvBufferSize chunk
  := by
  induction payloads generalizing n with
  | nil =>
      rw [messageTasks, intermediateTasks, List.nil_append, List.map_singleton,
        List.mem_singleton] at h
      rw [h]
      apply dataChunk_encodeChunk _ (by simp) (hlength last (by simp))
  | cons payload payloads ih =>
      rw [messageTasks, intermediateTasks, List.cons_append, List.map_cons, List.mem_cons] at h
      rcases h with rfl | h
      · apply dataChunk_encodeChunk _ (by simp) (hlength payload List.mem_cons_self)
      · apply ih (fun p hp => hlength p (List.mem_cons_of_mem _ hp)) h

/-- The messages are sent, and their chunks make the channel call them back in their order. -/
theorem sendAll_processEach (hagree : EndsAgree client server) {messages : List μ}
    (hnew : ∀ message ∈ messages, ∀ ch ∈ server.chunks, ch.requestId ≠ requestId message)
    (hbytes : ∀ message ∈ messages, bytes message ≠ [])
    (hsend : ∀ message ∈ messages, ∀ n, SendsChunks send dst requestId bytes recvBufferSize.toNat
      { client with sendSequenceNumber := n } message)
    (received : List Received) :
  ∃ n sent,
    sendAll send messages client = some (List.replicate messages.length .good,
      { client with sendSequenceNumber := n }, sent) ∧
    (∀ chunk ∈ sent.map dst, DataChunk recvBufferSize chunk) ∧
    processEach collect (sent.map dst) received server =
      ⟨.good, received ++ messages.map (fun message =>
          .message MessageType.msg (requestId message) (bytes message)),
        { server with receiveSequenceNumber := n }⟩
  := by
  obtain ⟨hid, htoken, hnumber⟩ := hagree
  induction messages generalizing client server received with
  | nil =>
      use client.sendSequenceNumber, [], rfl
      constructor
      · simp
      · rw [hnumber, List.map_nil, List.map_nil, List.append_nil]
        rfl
  | cons message messages ih =>
      obtain ⟨payloads, last, sent, hsent, hdst, htext, hlength⟩ :=
        hsend message List.mem_cons_self client.sendSequenceNumber
      obtain ⟨n, later, hlater, hchunks, hprocess⟩ := @ih
        { client with sendSequenceNumber := after client.sendSequenceNumber payloads + 1 }
        { server with receiveSequenceNumber := after client.sendSequenceNumber payloads + 1 }
        (fun m hm => hnew m (List.mem_cons_of_mem _ hm))
        (fun m hm => hbytes m (List.mem_cons_of_mem _ hm))
        (fun m hm => hsend m (List.mem_cons_of_mem _ hm))
        (received ++ [.message MessageType.msg (requestId message) (bytes message)])
        hid htoken rfl
      have hsentChunks : ∀ chunk ∈ sent.map dst, DataChunk recvBufferSize chunk := by
        intro chunk hmem
        rw [hdst] at hmem
        apply dataChunk_of_mem_messageTasks hlength hmem
      have hnonempty : (none : Option (List UInt8)).getD [] ++ payloads.flatten ++ last ≠ [] := by
        rw [Option.getD_none, List.nil_append, htext]
        apply hbytes message List.mem_cons_self
      have hlt : ∀ payload ∈ payloads ++ [last],
          payload.length + secureMessageHeaderLength < 2 ^ 32 :=
        fun p hp => Nat.lt_of_le_of_lt (hlength p hp) recvBufferSize.toNat_lt
      have hmessage := @processEach_messageTasks client server received (requestId message)
        client.sendSequenceNumber none hid htoken (hnew message List.mem_cons_self) payloads last
        hlt hnonempty
      rw [Option.getD_none, List.nil_append, htext] at hmessage
      have hstart : receiving server (requestId message) client.sendSequenceNumber none =
          server := by
        rw [hnumber]
        rfl
      rw [hstart] at hmessage
      use n, sent ++ later
      refine ⟨?_, ?_, ?_⟩
      · simp only [sendAll, hsent, hlater, Option.bind_eq_bind, Option.bind_some,
          List.length_cons, List.replicate_succ]
      · intro chunk hmem
        rw [List.map_append, List.mem_append] at hmem
        rcases hmem with hmem | hmem
        · apply hsentChunks chunk hmem
        · apply hchunks chunk hmem
      · rw [List.map_append, processEach_append hsentChunks, hdst, hmessage, if_pos rfl]
        rw [List.append_assoc] at hprocess
        apply hprocess

end

/-! ### Messages sent directly -/

section

variable {client server : SecureChannel} {connection : Connection} {message : Message}

/-- A message sent directly is written in chunks that fit into the buffer of the other end. -/
theorem sendsChunks_direct (hconnection : client.connection = some connection)
    (hunlimited : Unlimited connection) (h : Sendable connection message) {fuel : Nat}
    (hfuel : 2 * message.2.pieces.length < fuel) :
  SendsChunks (fun channel message =>
      SecureChannel.sendBinaryMessage false fuel channel message.1 message.2) id Prod.fst
    Message.bytes connection.remoteConf.recvBufferSize.toNat client message
  := by
  have hspace := hunlimited.space
  have haccepted := UInt32.le_iff_toNat_le.mp hunlimited.accepted
  have hpayload : payloadSpace connection ≤
      connection.remoteConf.recvBufferSize.toNat - secureMessageHeaderLength := by
    rw [payloadSpace]
    omega
  have hfirst := Nat.le_trans h.typeId hpayload
  have hstart : Emitted client connection message.1 MessageType.msg
      (NodeId.encodeNumeric 0 message.2.binaryEncodingId) []
      ⟨client, ⟨message.1, MessageType.msg, 0, 0, false, .good⟩,
        NodeId.encodeNumeric 0 message.2.binaryEncodingId,
        connection.remoteConf.recvBufferSize.toNat - secureMessageHeaderLength, []⟩ := by
    constructor
    · rfl
    · rfl
    · rfl
    · rfl
    · rfl
    · rfl
    · rfl
    · apply hfirst
    · dsimp only
      omega
    · apply hpayload
    · simp
  obtain ⟨payloads, sender, hencode, hemitted⟩ :=
    hstart.encodePieces hconnection hunlimited h.pieces hfuel
  obtain ⟨sender', hsend, hchannel, htasks⟩ := hemitted.sendFinal hconnection hunlimited
  -- the direct sender goes through the same buffers
  have hdirect := encodePieces_direct false fuel message.2.pieces
    ⟨client, ⟨message.1, MessageType.msg, 0, 0, false, .good⟩,
      NodeId.encodeNumeric 0 message.2.binaryEncodingId,
      connection.remoteConf.recvBufferSize.toNat - secureMessageHeaderLength, []⟩
  rw [hencode, Option.map_some] at hdirect
  have hfinal := sendChunk_direct false { sender with ci := { sender.ci with final := true } }
  rw [hsend] at hfinal
  refine ⟨payloads, sender.dst, sender'.tasks.map Task.dst, ?_, ?_, hemitted.bytes_eq, ?_⟩
  · simp only [Sender.direct, List.map_nil] at hdirect hfinal
    simp only [SecureChannel.sendBinaryMessage, hconnection, getSendBuffer_unlimited hunlimited,
      if_neg (Nat.not_lt.mpr (Nat.le_of_lt hunlimited.space)), h.messageType_eq, if_pos hfirst,
      hdirect, h.retval, if_true, ne_eq, not_true_eq_false, if_false, hfinal, hchannel]
  · rw [htasks, List.map_id]
  · intro payload hmem
    rcases List.mem_append.mp hmem with hmem | hmem
    · apply hemitted.payloads_le payload hmem
    · rw [List.mem_singleton.mp hmem]
      have hfits := hemitted.fits
      have hle := hemitted.space_le
      omega

/-- The channels of a client and of the server agree, their connection has no limits, and the
messages can be sent under request ids of which the server holds no part. -/
structure Ready (client server : SecureChannel) (connection : Connection)
    (messages : List Message) : Prop where
  connection_eq : client.connection = some connection
  unlimited : Unlimited connection
  agree : EndsAgree client server
  new : ∀ message ∈ messages, ∀ ch ∈ server.chunks, ch.requestId ≠ message.1
  sendable : ∀ message ∈ messages, Sendable connection message

/-- Messages sent directly one after the other are called back as they were sent, each once and in
their order, however TCP divides the stream. -/
theorem messages_delivered {messages : List Message}
    (h : Ready client server connection messages) {fuel : Nat}
    (hfuel : ∀ message ∈ messages, 2 * message.2.pieces.length < fuel)
    (received : List Received) :
  ∃ n chunks,
    sendAll (fun channel message =>
        SecureChannel.sendBinaryMessage false fuel channel message.1 message.2) messages client =
      some (List.replicate messages.length .good, { client with sendSequenceNumber := n },
        chunks) ∧
    ∀ segments rest, segments.flatten = chunks.flatten ++ rest →
      chunkFront connection.remoteConf.recvBufferSize rest = .incomplete →
      ∀ fuel', chunks.length ≤ fuel' →
        processMessages collect fuel'
            (receiveSegments connection.remoteConf.recvBufferSize [] segments).1 received server =
          some (received ++ messages.map Message.received,
            { server with receiveSequenceNumber := n })
  := by
  obtain ⟨n, chunks, hsend, hchunks, hprocess⟩ := @sendAll_processEach _ _
    (fun channel message => SecureChannel.sendBinaryMessage false fuel channel message.1 message.2)
    id Prod.fst Message.bytes client server connection.remoteConf.recvBufferSize h.agree messages
    h.new (fun message _ => Message.bytes_ne_nil message)
    (fun message hmem n => @sendsChunks_direct { client with sendSequenceNumber := n } connection
      message h.connection_eq h.unlimited (h.sendable message hmem) fuel (hfuel message hmem))
    received
  rw [List.map_id] at hchunks hprocess
  use n, chunks, hsend
  intro segments rest hsegments hrest fuel' hfuel'
  obtain ⟨groups, rfl, -, hreceive⟩ :=
    receiveSegments_groups (fun c hc => (hchunks c hc).isChunk) hrest hsegments
  rw [hreceive]
  apply processMessages_groups hchunks hfuel' hprocess

/-- A channel about to use the last sequence number before the numbers start over. -/
def lastNumberOn (channelId : UInt32) : SecureChannel :=
  { lastNumber with securityToken := ⟨channelId, 1, 0, 3600000⟩ }

/-- Two messages in two pieces each, over a connection whose buffers have space for eight bytes
after the headers. -/
theorem ready_lastNumber (channelId : UInt32) :
  Ready (lastNumberOn channelId) (lastNumberOn channelId) smallConnection
    [(2, twoPieces 631), (3, twoPieces 673)]
  := by
  constructor
  · rfl
  · constructor
    · rfl
    · rfl
    · decide
    · apply accepted_acknowledge
  · exact ⟨rfl, rfl, rfl⟩
  · simp [lastNumberOn, lastNumber, SecureChannel.init]
  · intro message hmem
    simp only [List.mem_cons, List.not_mem_nil, or_false] at hmem
    rcases hmem with rfl | rfl
    · exact ⟨by decide, rfl, by decide, by decide⟩
    · exact ⟨by decide, rfl, by decide, by decide⟩

theorem messages_delivered_lastNumber :
  ∃ n chunks,
    sendAll (fun channel message =>
        SecureChannel.sendBinaryMessage false 9 channel message.1 message.2)
        [(2, twoPieces 631), (3, twoPieces 673)] (lastNumberOn 1) =
      some ([.good, .good], { lastNumberOn 1 with sendSequenceNumber := n }, chunks) ∧
    chunks.length = 4 ∧
    processMessages collect 4 (receiveSegments 32 []
        [chunks.flatten.take 40, chunks.flatten.drop 40]).1 [] (lastNumberOn 1) =
      some ([.message MessageType.msg 2 [1, 0, 0x77, 0x02, 1, 2, 3, 4, 5, 6, 7],
          .message MessageType.msg 3 [1, 0, 0xa1, 0x02, 1, 2, 3, 4, 5, 6, 7]],
        { lastNumberOn 1 with receiveSequenceNumber := n })
  := by
  have hcomputed : (sendAll (fun channel message =>
        SecureChannel.sendBinaryMessage false 9 channel message.1 message.2)
        [(2, twoPieces 631), (3, twoPieces 673)] (lastNumberOn 1)).map
      (fun sent => sent.2.2.length) = some 4 := rfl
  obtain ⟨n, chunks, hsend, hdelivered⟩ :=
    @messages_delivered (lastNumberOn 1) (lastNumberOn 1) smallConnection _ (ready_lastNumber 1) 9
      (by decide) []
  rw [hsend, Option.map_some] at hcomputed
  have hlength := Option.some.inj hcomputed
  use n, chunks, hsend, hlength
  apply hdelivered _ []
  · simp
  · rfl
  · apply Nat.le_of_eq hlength

end

/-! ### Messages sent through the queue -/

section

variable {client : SecureChannel} {connection : Connection} {message : Message}

/-- A message sent through the queue becomes tasks with the same chunks. -/
theorem sendsChunks_tasks (hconnection : client.connection = some connection)
    (hunlimited : Unlimited connection) (h : Sendable connection message) {fuel : Nat}
    (hfuel : 2 * message.2.pieces.length < fuel) :
  SendsChunks (fun channel message => sendBinaryMessage false fuel channel message.1 message.2)
    Task.dst Prod.fst Message.bytes (0xffffffff : UInt32).toNat client message
  := by
  obtain ⟨payloads, last, hsend, hbytes, hlength⟩ :=
    sendBinaryMessage_unlimited hconnection hunlimited message.1 h.retval h.typeId h.pieces hfuel
  rw [h.messageType_eq] at hsend
  refine ⟨payloads, last, _, hsend, rfl, hbytes, ?_⟩
  intro payload hmem
  apply Nat.le_of_lt_succ
  apply hlength payload hmem

/-- A receiver that is fed with tasks whose chunks are gone through has called back what they
complete. -/
theorem feedTasks_eq {recvBufferSize : UInt32} {tasks : List Task}
    (hchunks : ∀ chunk ∈ tasks.map Task.dst, DataChunk recvBufferSize chunk) {fuel : Nat}
    (hfuel : 0 < fuel) {received received' : List Received} {channel channel' : SecureChannel}
    (h : processEach collect (tasks.map Task.dst) received channel =
      ⟨.good, received', channel'⟩) :
  feedTasks fuel tasks ⟨channel, received⟩ = some ⟨channel', received'⟩
  := by
  induction tasks generalizing received channel with
  | nil =>
      simp only [List.map_nil, processEach, ChunksResult.mk.injEq, true_and] at h
      obtain ⟨rfl, rfl⟩ := h
      rfl
  | cons task tasks ih =>
      have hone : ∀ chunk ∈ [task.dst], DataChunk recvBufferSize chunk := by
        intro chunk hmem
        rw [List.mem_singleton.mp hmem]
        apply hchunks _ List.mem_cons_self
      have hprocess := @processChunks_flatten recvBufferSize _ collect _
        (List.cons_ne_nil task.dst []) hone _ hfuel received channel
      rw [List.flatten_singleton] at hprocess
      have happend := @processEach_append recvBufferSize _ collect _ hone (tasks.map Task.dst)
        received channel
      rw [List.singleton_append, ← List.map_cons, h] at happend
      rw [feedTasks, Receiver.feed, hprocess, Option.map_some, Option.bind_some]
      apply ih (fun c hc => hchunks c (List.mem_cons_of_mem _ hc))
      split_ifs at happend with hgood
      · apply happend.symm
      · rw [← happend] at hgood
        contradiction

/-- The server gets through the tasks of all channels when each channel gets through its own. -/
theorem feedChannels_of_feeds {fuel : Nat} {all : List Task} {ids : List UInt32}
    (hall : ∀ task ∈ all, task.channelId ∈ ids) {receivers : UInt32 → Option Receiver}
    {results : UInt32 → Receiver}
    (h : ∀ id ∈ ids, ∃ receiver, receivers id = some receiver ∧
      feedTasks fuel (own id all) receiver = some (results id)) :
  ∃ receivers', feedChannels fuel all receivers = some receivers' ∧
    ∀ id ∈ ids, receivers' id = some (results id)
  := by
  induction all generalizing receivers with
  | nil =>
      use receivers, rfl
      intro id hid
      obtain ⟨receiver, hreceiver, hfeed⟩ := h id hid
      rw [hreceiver]
      apply hfeed
  | cons task all ih =>
      have htask := hall task List.mem_cons_self
      obtain ⟨receiver, hreceiver, hfeed⟩ := h task.channelId htask
      rw [own, List.filter_cons_of_pos (by simp), feedTasks] at hfeed
      obtain ⟨fed, hfed, hrest⟩ := Option.bind_eq_some_iff.mp hfeed
      rw [feedChannels, hreceiver, Option.bind_some, hfed, Option.bind_some]
      apply ih (fun t ht => hall t (List.mem_cons_of_mem _ ht))
      intro id hid
      by_cases heq : id = task.channelId
      · subst heq
        use fed, Function.update_self ..
        apply hrest
      · obtain ⟨receiver', hreceiver', hfeed'⟩ := h id hid
        use receiver'
        rw [Function.update_of_ne heq]
        use hreceiver'
        rw [own, List.filter_cons_of_neg (by simpa using Ne.symm heq)] at hfeed'
        apply hfeed'

end

/-- The messages become tasks whose chunks make the channel call them back in their order. -/
theorem Ready.tasks {client server : SecureChannel} {connection : Connection}
    {messages : List Message} (h : Ready client server connection messages) {fuel : Nat}
    (hfuel : ∀ message ∈ messages, 2 * message.2.pieces.length < fuel)
    (received : List Received) :
  ∃ n tasks,
    sendAll (fun channel message => sendBinaryMessage false fuel channel message.1 message.2)
        messages client =
      some (List.replicate messages.length .good, { client with sendSequenceNumber := n },
        tasks) ∧
    (∀ chunk ∈ tasks.map Task.dst, DataChunk 0xffffffff chunk) ∧
    processEach collect (tasks.map Task.dst) received server =
      ⟨.good, received ++ messages.map Message.received,
        { server with receiveSequenceNumber := n }⟩
  := by
  apply sendAll_processEach h.agree h.new (fun message _ => Message.bytes_ne_nil message)
  intro message hmem n
  apply @sendsChunks_tasks { client with sendSequenceNumber := n } connection message
    h.connection_eq h.unlimited (h.sendable message hmem) fuel (hfuel message hmem)

/-- Messages sent through the queue by any number of clients, each on its own channel, are called
back on these channels as they were sent, each once and in the order of its client, however the
tasks of the clients are mixed, when the tasks are read back from their documents. -/
theorem queue_delivers {ids : List UInt32} {clients servers : UInt32 → SecureChannel}
    {connections : UInt32 → Connection} {messages : UInt32 → List Message}
    (h : ∀ id ∈ ids, Ready (clients id) (servers id) (connections id) (messages id)) {fuel : Nat}
    (hfuel : ∀ id ∈ ids, ∀ message ∈ messages id, 2 * message.2.pieces.length < fuel)
    {fuel' : Nat} (hfuel' : 0 < fuel') (lib : Libraries) (received : UInt32 → List Received) :
  ∃ (n : UInt32 → UInt32) (tasks : UInt32 → List Task),
    (∀ id ∈ ids,
      sendAll (fun channel message => sendBinaryMessage false fuel channel message.1 message.2)
          (messages id) (clients id) =
        some (List.replicate (messages id).length .good,
          { clients id with sendSequenceNumber := n id }, tasks id)) ∧
    ∀ all, (∀ task ∈ all, ReadsBack lib task.1 ∧ task.1.channelId ∈ ids) →
      (∀ id ∈ ids, own id (all.map Prod.fst) = tasks id) →
      ∀ receivers, (∀ id ∈ ids, receivers id = some ⟨servers id, received id⟩) →
        ∃ receivers', executeTasks lib fuel' all receivers = some receivers' ∧
          ∀ id ∈ ids, receivers' id =
            some ⟨{ servers id with receiveSequenceNumber := n id },
              received id ++ (messages id).map Message.received⟩
  := by
  choose! n tasks hsend hchunks hprocess using
    fun id (hid : id ∈ ids) => (h id hid).tasks (hfuel id hid) (received id)
  use n, tasks, hsend
  intro all hall hown receivers hreceivers
  rw [executeTasks_eq fuel' (fun task hmem => (hall task hmem).1)]
  apply feedChannels_of_feeds
  · intro task hmem
    obtain ⟨run, hrun, rfl⟩ := List.mem_map.mp hmem
    apply (hall run hrun).2
  · intro id hid
    use ⟨servers id, received id⟩, hreceivers id hid
    rw [hown id hid]
    apply feedTasks_eq (hchunks id hid) hfuel' (hprocess id hid)

/-- When the tasks of each channel are read back, all tasks are. -/
theorem readsBack_of_own {lib : Libraries} {ids : List UInt32} {tasks : UInt32 → List Task}
    (h : ∀ id ∈ ids, ∀ task ∈ tasks id, ReadsBack lib task) {all : List Task}
    (hown : ∀ id ∈ ids, own id all = tasks id) :
  ∀ task ∈ all, task.channelId ∈ ids → ReadsBack lib task
  := by
  intro task hmem hid
  apply h _ hid
  rw [← hown _ hid]
  apply List.mem_filter.mpr ⟨hmem, by simp⟩

/-- Tasks with small chunks are read back. -/
theorem readsBack_of_all {tasks : List Task}
    (h : tasks.all (fun task =>
      decide (task.offset = task.dst.length ∧ task.dst.length ≤ safeLength)) = true) :
  ∀ task ∈ tasks, ReadsBack referenceLibraries task
  := by
  intro task hmem
  obtain ⟨hoffset, hlength⟩ := of_decide_eq_true (List.all_eq_true.mp h task hmem)
  apply readsBack_of_le_safeLength documented_referenceLibraries hoffset hlength

theorem queue_delivers_lastNumber :
  ∃ (n : UInt32 → UInt32) (tasks : UInt32 → List Task),
    (∀ id ∈ [(1 : UInt32), 2],
      sendAll (fun channel message => sendBinaryMessage false 9 channel message.1 message.2)
          [(2, twoPieces 631), (3, twoPieces 673)] (lastNumberOn id) =
        some ([.good, .good], { lastNumberOn id with sendSequenceNumber := n id }, tasks id)) ∧
    ∀ all : List (Task × List UInt8), (∀ task ∈ all, task.1.channelId ∈ [(1 : UInt32), 2]) →
      (∀ id ∈ [(1 : UInt32), 2], own id (all.map Prod.fst) = tasks id) →
      ∀ receivers, (∀ id ∈ [(1 : UInt32), 2], receivers id = some ⟨lastNumberOn id, []⟩) →
        ∃ receivers', executeTasks referenceLibraries 1 all receivers = some receivers' ∧
          ∀ id ∈ [(1 : UInt32), 2], receivers' id =
            some ⟨{ lastNumberOn id with receiveSequenceNumber := n id },
              [.message MessageType.msg 2 [1, 0, 0x77, 0x02, 1, 2, 3, 4, 5, 6, 7],
                .message MessageType.msg 3 [1, 0, 0xa1, 0x02, 1, 2, 3, 4, 5, 6, 7]]⟩
  := by
  have hfuel : ∀ message ∈ [((2 : UInt32), twoPieces 631), (3, twoPieces 673)],
      2 * message.2.pieces.length < 9 := by decide
  have hsmall : ∀ id ∈ [(1 : UInt32), 2],
      (sendAll (fun channel message => sendBinaryMessage false 9 channel message.1 message.2)
        [(2, twoPieces 631), (3, twoPieces 673)] (lastNumberOn id)).map
      (fun sent => sent.2.2.all (fun task =>
        decide (task.offset = task.dst.length ∧ task.dst.length ≤ safeLength))) = some true := by
    intro id hid
    simp only [List.mem_cons, List.not_mem_nil, or_false] at hid
    rcases hid with rfl | rfl <;> rfl
  obtain ⟨n, tasks, hsend, hdelivered⟩ := @queue_delivers [1, 2] lastNumberOn lastNumberOn
    (fun _ => smallConnection) (fun _ => [(2, twoPieces 631), (3, twoPieces 673)])
    (fun id _ => ready_lastNumber id) 9 (fun _ _ => hfuel) 1 Nat.zero_lt_one referenceLibraries
    (fun _ => [])
  refine ⟨n, tasks, hsend, ?_⟩
  intro all hids hown
  apply hdelivered all _ hown
  intro task hmem
  refine ⟨?_, hids task hmem⟩
  apply readsBack_of_own _ hown task.1 (List.mem_map_of_mem hmem) (hids task hmem)
  intro id hid
  have hread := hsmall id hid
  rw [hsend id hid] at hread
  apply readsBack_of_all (Option.some.inj hread)

end Zuth
