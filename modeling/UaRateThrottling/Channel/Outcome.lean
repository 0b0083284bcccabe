import UaRateThrottling.Channel.Send

/-!
# The outcome of sending a message

A message is cut into payloads as its pieces are written.  `Progress` is how far the cutting has
come, with the bounds which keep a chunk below the size a header can tell.  As long as no limit is
exceeded the sender is `Progress.sender`, so that a message has one of two outcomes: all its
payloads are sent, the last one as the final chunk, or after some of them an abort chunk is the
last one.  `sendBinaryMessage_cases` says that there are no other outcomes.
-/

namespace Zuth

open UA

/-- How far the cutting of a message into payloads has come: the payloads cut off, what the buffer
holds, and how much it can hold. -/
structure Progress where
  payloads : List (List UInt8)
  dst : List UInt8
  space : Nat
  fits : dst.length ≤ space
  space_lt : space + secureMessageHeaderLength < 2 ^ 32
  payloads_lt : ∀ payload ∈ payloads, payload.length + secureMessageHeaderLength < 2 ^ 32

/-- The size of the chunks for the given payloads. -/
def messageSize (payloads : List (List UInt8)) : Nat :=
  (payloads.map (fun payload => payload.length + secureMessageHeaderLength)).sum

theorem messageSize_append (payloads : List (List UInt8)) (payload : List UInt8) :
  messageSize (payloads ++ [payload]) =
    messageSize payloads + (payload.length + secureMessageHeaderLength)
  := by
  simp [messageSize]

/-- With one more chunk for the payload, the message exceeds a limit of the other end.  The chunks
are counted in 16 bits. -/
def Exceeds (remoteConf : ConnectionConfig) (payloads : List (List UInt8))
    (payload : List UInt8) : Prop :=
  (messageSize payloads + (payload.length + secureMessageHeaderLength) >
      remoteConf.maxMessageSize.toNat ∧ remoteConf.maxMessageSize > 0) ∨
    ((UInt16.ofNat payloads.length + 1).toUInt32 > remoteConf.maxChunkCount ∧
      remoteConf.maxChunkCount > 0)

instance (remoteConf : ConnectionConfig) (payloads : List (List UInt8)) (payload : List UInt8) :
    Decidable (Exceeds remoteConf payloads payload) :=
  inferInstanceAs (Decidable (_ ∨ _))

namespace Progress

/-- A piece that fits is written into the buffer. -/
def write (progress : Progress) (piece : List UInt8)
    (h : progress.dst.length + piece.length ≤ progress.space) : Progress where
  payloads := progress.payloads
  dst := progress.dst ++ piece
  space := progress.space
  fits := by
    rw [List.length_append]
    apply h
  space_lt := progress.space_lt
  payloads_lt := progress.payloads_lt

theorem payload_lt (progress : Progress) :
  progress.dst.length + secureMessageHeaderLength < 2 ^ 32
  := Nat.lt_of_le_of_lt (Nat.add_le_add_right progress.fits _) progress.space_lt

/-- The space of a new buffer leaves a chunk below the size a header can tell. -/
theorem payloadSpace_lt (size : UInt32) :
  size.toNat - secureMessageHeaderLength + secureMessageHeaderLength < 2 ^ 32
  := by
  have hlt := size.toNat_lt
  rw [secureMessageHeaderLength]
  omega

/-- The buffer is cut off as a payload, and there is a new one. -/
def exchange (progress : Progress) (connection : Connection) : Progress where
  payloads := progress.payloads ++ [progress.dst]
  dst := []
  space := payloadSpace connection
  fits := Nat.zero_le _
  space_lt := payloadSpace_lt connection.localConf.sendBufferSize
  payloads_lt := by
    intro payload hmem
    rcases List.mem_append.mp hmem with hmem | hmem
    · apply progress.payloads_lt payload hmem
    · rw [List.mem_singleton.mp hmem]
      apply progress.payload_lt

/-- The start: the node id of the type is in the first buffer, when it fits there. -/
def start (recvBufferSize : UInt32) (typeId : List UInt8) : Progress where
  payloads := []
  dst := if typeId.length ≤ recvBufferSize.toNat - secureMessageHeaderLength then typeId else []
  space := recvBufferSize.toNat - secureMessageHeaderLength
  fits := by
    split
    · assumption
    · apply Nat.zero_le
  space_lt := payloadSpace_lt recvBufferSize
  payloads_lt := by simp

/-- The state of the message when its chunks so far have been within the limits. -/
def ci (progress : Progress) (requestId type : UInt32) : ChunkInfo where
  requestId := requestId
  messageType := type
  chunksSoFar := UInt16.ofNat progress.payloads.length
  messageSizeSoFar := messageSize progress.payloads
  final := false
  errorCode := .good

/-- The sender when its chunks so far have been within the limits. -/
def sender (progress : Progress) (channel : SecureChannel) (requestId type : UInt32) :
    Sender where
  channel :=
    { channel with sendSequenceNumber := after channel.sendSequenceNumber progress.payloads }
  ci := progress.ci requestId type
  dst := progress.dst
  space := progress.space
  tasks := intermediateTasks channel requestId type channel.sendSequenceNumber progress.payloads

end Progress

/-- The task for the abort chunk of a message, after the given payloads. -/
def abortTask (channel : SecureChannel) (requestId type n : UInt32)
    (payloads : List (List UInt8)) (payload : List UInt8) : Task :=
  chunkTask channel requestId (type + ChunkType.abort) (after n payloads + 1) payload

/-- An abort chunk is short. -/
theorem abortPayload_lt (space : Nat) (errorCode : StatusCode) :
  (abortPayload space errorCode).length + secureMessageHeaderLength < 2 ^ 32
  := by
  rw [abortPayload]
  split
  · decide
  · split <;> simp [secureMessageHeaderLength, encodeNullString]

section

variable {channel : SecureChannel} {connection : Connection} {requestId type : UInt32}
  {closed : Bool}

/-- The error code of a message is the one it has already, unless it exceeds a limit. -/
theorem limitCode_eq (remoteConf : ConnectionConfig) (progress : Progress)
    (final : Bool) (errorCode : StatusCode) :
  limitCode remoteConf
      { progress.ci requestId type with final := final, errorCode := errorCode }
      (progress.dst.length + secureMessageHeaderLength) =
    if Exceeds remoteConf progress.payloads progress.dst then .badResponseTooLarge
    else errorCode
  := rfl

/-- The message is aborted: the abort chunk is its last one. -/
structure Aborted (channel : SecureChannel) (requestId type : UInt32) (sender : Sender) : Prop where
  final : sender.ci.final = true
  tasks : ∃ (progress : Progress) (errorCode : StatusCode),
    sender.channel = { channel with
      sendSequenceNumber := after channel.sendSequenceNumber progress.payloads + 1 } ∧
    sender.tasks =
      intermediateTasks channel requestId type channel.sendSequenceNumber progress.payloads ++
        [abortTask channel requestId type channel.sendSequenceNumber progress.payloads
          (abortPayload progress.space errorCode)]

/-- A chunk with an error is an abort chunk, and the last one. -/
theorem sendChunk_error (hconnection : channel.connection = some connection)
    (progress : Progress) (final : Bool) {errorCode : StatusCode}
    (h : errorCode ≠ .good ∨ Exceeds connection.remoteConf progress.payloads progress.dst) :
  ∃ result : StatusCode × Sender, result.1 ≠ .good ∧ Aborted channel requestId type result.2 ∧
    sendChunk closed { progress.sender channel requestId type with
      ci := { progress.ci requestId type with final := final, errorCode := errorCode } } = result
  := by
  have hlimit : ∃ retval, retval ≠ .good ∧
      (if Exceeds connection.remoteConf progress.payloads progress.dst then
        StatusCode.badResponseTooLarge else errorCode) = retval := by
    use if Exceeds connection.remoteConf progress.payloads progress.dst then
      StatusCode.badResponseTooLarge else errorCode
    constructor
    · split
      · decide
      · tauto
    · rfl
  obtain ⟨retval, hretval, hcode⟩ := hlimit
  simp only [sendChunk, Progress.sender, hconnection, limitCode_eq, hcode]
  simp only [hretval, ne_eq, not_false_eq_true, decide_true, Bool.or_true, if_true, if_false]
  refine ⟨_, hretval, ?_, rfl⟩
  constructor
  · rfl
  · use progress, retval
    constructor
    · simp only
      rw [hconnection]
    · rfl

/-- Within the limits the buffer is sent as an intermediate chunk, and exchanged. -/
theorem sendChunk_exchange (hconnection : channel.connection = some connection) {length : Nat}
    (hbuffer : getSendBuffer connection closed connection.localConf.sendBufferSize = .ok length)
    {progress : Progress} (h : ¬Exceeds connection.remoteConf progress.payloads progress.dst) :
  sendChunk closed (progress.sender channel requestId type) =
    (.good, (progress.exchange connection).sender channel requestId type)
  := by
  have hcode : limitCode connection.remoteConf (progress.ci requestId type)
      (progress.dst.length + secureMessageHeaderLength) = .good :=
    (limitCode_eq connection.remoteConf progress false .good).trans (if_neg h)
  simp only [sendChunk, Progress.sender, hconnection, hcode, hbuffer]
  simp only [Progress.ci, ne_eq, not_true_eq_false, decide_false, Bool.or_false,
    Bool.false_eq_true, if_true, if_false, Progress.exchange, after_append,
    intermediateTasks_append, messageSize_append,
    List.length_append, List.length_singleton, UInt16.ofNat_add]
  rfl

/-- Within the limits the last buffer is sent as the final chunk. -/
theorem sendChunk_final (hconnection : channel.connection = some connection)
    {progress : Progress} (h : ¬Exceeds connection.remoteConf progress.payloads progress.dst) :
  ∃ sender',
    sendChunk closed { progress.sender channel requestId type with
      ci := { progress.ci requestId type with final := true } } = (.good, sender') ∧
    sender'.channel = { channel with
      sendSequenceNumber := after channel.sendSequenceNumber progress.payloads + 1 } ∧
    sender'.tasks = messageTasks channel requestId type channel.sendSequenceNumber
      progress.payloads progress.dst
  := by
  have hcode : limitCode connection.remoteConf
      { progress.ci requestId type with final := true }
      (progress.dst.length + secureMessageHeaderLength) = .good :=
    (limitCode_eq connection.remoteConf progress true .good).trans (if_neg h)
  simp only [sendChunk, Progress.sender, hconnection, hcode]
  exact ⟨_, rfl, rfl, rfl⟩

section

variable {fuel : Nat} {piece : List UInt8} {pieces : List (List UInt8)} {progress : Progress}

/-- The encoder writes a piece that fits. -/
theorem encodePieces_write (hfits : progress.dst.length + piece.length ≤ progress.space) :
  encodePieces closed (fuel + 1) (piece :: pieces) (progress.sender channel requestId type) =
    encodePieces closed fuel pieces
      ((progress.write piece hfits).sender channel requestId type)
  := by
  rw [encodePieces]
  apply if_pos hfits

/-- Within the limits the encoder has the buffer exchanged for a piece that does not fit. -/
theorem encodePieces_exchange (hconnection : channel.connection = some connection) {length : Nat}
    (hbuffer : getSendBuffer connection closed connection.localConf.sendBufferSize = .ok length)
    (hfits : ¬progress.dst.length + piece.length ≤ progress.space)
    (h : ¬Exceeds connection.remoteConf progress.payloads progress.dst) :
  encodePieces closed (fuel + 1) (piece :: pieces) (progress.sender channel requestId type) =
    encodePieces closed fuel (piece :: pieces)
      ((progress.exchange connection).sender channel requestId type)
  := by
  rw [encodePieces, sendChunk_exchange hconnection hbuffer h]
  apply if_neg hfits

/-- When a limit is exceeded then, the message is aborted. -/
theorem encodePieces_exceeds (hconnection : channel.connection = some connection)
    (hfits : ¬progress.dst.length + piece.length ≤ progress.space)
    (h : Exceeds connection.remoteConf progress.payloads progress.dst) :
  ∃ result : StatusCode × Sender, result.1 ≠ .good ∧ Aborted channel requestId type result.2 ∧
    encodePieces closed (fuel + 1) (piece :: pieces) (progress.sender channel requestId type) =
      some result
  := by
  obtain ⟨result, hretval, haborted, hsend⟩ :=
    @sendChunk_error channel connection requestId type closed hconnection progress false .good
      (.inr h)
  use result, hretval, haborted
  have hchunk : sendChunk closed (progress.sender channel requestId type) = result := hsend
  rw [encodePieces, hchunk]
  apply (if_neg hfits).trans (if_pos hretval)

end

/-- The encoder writes its pieces into the buffers within the limits, or the message is aborted. -/
theorem encodePieces_cases (hconnection : channel.connection = some connection) {length : Nat}
    (hbuffer : getSendBuffer connection closed connection.localConf.sendBufferSize = .ok length)
    {fuel : Nat} {pieces : List (List UInt8)} {progress : Progress}
    {result : StatusCode × Sender}
    (h : encodePieces closed fuel pieces (progress.sender channel requestId type) = some result) :
  (∃ progress' : Progress, result = (.good, progress'.sender channel requestId type)) ∨
    (result.1 ≠ .good ∧ Aborted channel requestId type result.2)
  := by
  induction fuel generalizing pieces progress with
  | zero => cases h
  | succ fuel ih =>
      cases pieces with
      | nil =>
          obtain rfl := Option.some.inj h
          left
          use progress
      | cons piece pieces =>
          by_cases hfits : progress.dst.length + piece.length ≤ progress.space
          · rw [encodePieces_write hfits] at h
            apply ih h
          · by_cases hexceeds : Exceeds connection.remoteConf progress.payloads progress.dst
            · right
              obtain ⟨result', hretval, haborted, hencode⟩ :=
                @encodePieces_exceeds channel connection requestId type closed fuel piece pieces
                  progress hconnection hfits hexceeds
              obtain rfl := Option.some.inj (hencode.symm.trans h)
              use hretval
            · rw [encodePieces_exchange hconnection hbuffer hfits hexceeds] at h
              apply ih h

end

/-- When no buffer can be had there is an error. -/
theorem ne_good_of_getSendBuffer {connection : Connection} {closed : Bool} {length : UInt32}
    {retval : StatusCode} (h : getSendBuffer connection closed length = .error retval) :
  retval ≠ .good
  := by
  rw [getSendBuffer] at h
  split at h
  · obtain rfl := Except.error.inj h
    decide
  · split at h
    · obtain rfl := Except.error.inj h
      decide
    · cases h

/-- The chunks of a message as tasks, and whether it has been sent completely. -/
inductive SendOutcome (channel : SecureChannel) (requestId type : UInt32) :
    StatusCode × SecureChannel × List Task → Prop
  /-- No buffer can be had, and nothing is sent. -/
  | refused (retval : StatusCode) :
    retval ≠ .good → SendOutcome channel requestId type (retval, channel, [])
  /-- All payloads are sent, the last one as the final chunk. -/
  | sent (progress : Progress) :
    SendOutcome channel requestId type (.good,
      { channel with
        sendSequenceNumber := after channel.sendSequenceNumber progress.payloads + 1 },
      messageTasks channel requestId type channel.sendSequenceNumber progress.payloads
        progress.dst)
  /-- After some payloads the last chunk is an abort chunk. -/
  | aborted (progress : Progress) (retval errorCode : StatusCode) :
    retval ≠ .good → SendOutcome channel requestId type (retval,
      { channel with
        sendSequenceNumber := after channel.sendSequenceNumber progress.payloads + 1 },
      intermediateTasks channel requestId type channel.sendSequenceNumber progress.payloads ++
        [abortTask channel requestId type channel.sendSequenceNumber progress.payloads
          (abortPayload progress.space errorCode)])

/-- What is left to do after the encoder: the final chunk is sent, or the abort chunk unless it
has been sent. -/
def finish (closed : Bool) (encoded : StatusCode) (result : StatusCode × Sender) :
    StatusCode × SecureChannel × List Task :=
  let retval := if result.1 = .good then encoded else result.1
  if retval ≠ .good then
    if result.2.ci.final then (retval, result.2.channel, result.2.tasks)
    else
      let sender := (sendChunk closed
        { result.2 with ci := { result.2.ci with errorCode := retval } }).2
      (retval, sender.channel, sender.tasks)
  else
    let result := sendChunk closed { result.2 with ci := { result.2.ci with final := true } }
    (result.1, result.2.channel, result.2.tasks)

section

variable {closed : Bool} {fuel length : Nat} {channel : SecureChannel} {connection : Connection}
  {requestId type : UInt32} {content : Content}

/-- The start of sending a message. -/
def Progress.ofMessage (connection : Connection) (content : Content) : Progress :=
  Progress.start connection.remoteConf.recvBufferSize
    (NodeId.encodeNumeric 0 content.binaryEncodingId)

/-- A message is encoded, and its last chunk sent. -/
theorem sendBinaryMessage_eq (hconnection : channel.connection = some connection)
    (hbuffer : getSendBuffer connection closed connection.localConf.sendBufferSize = .ok length)
    (hroom : secureMessageHeaderLength ≤ connection.localConf.sendBufferSize.toNat) :
  sendBinaryMessage closed fuel channel requestId content =
    (encodePieces closed fuel content.pieces ((Progress.ofMessage connection content).sender
      channel requestId (messageType content.binaryEncodingId))).map (finish closed content.retval)
  := by
  have hlength : length = connection.remoteConf.recvBufferSize.toNat := by
    rw [getSendBuffer] at hbuffer
    split at hbuffer
    · cases hbuffer
    · split at hbuffer
      · cases hbuffer
      · rw [Except.ok.inj hbuffer]
  have hstart : (Progress.ofMessage connection content).sender channel requestId
      (messageType content.binaryEncodingId) =
      ⟨channel, ⟨requestId, messageType content.binaryEncodingId, 0, 0, false, .good⟩,
        if (NodeId.encodeNumeric 0 content.binaryEncodingId).length ≤
          length - secureMessageHeaderLength then
          NodeId.encodeNumeric 0 content.binaryEncodingId else [],
        length - secureMessageHeaderLength, []⟩ := by
    rw [hlength]
    rfl
  rw [sendBinaryMessage, hconnection]
  simp only [hbuffer, if_neg (Nat.not_lt.mpr hroom)]
  rw [← hstart]
  cases encodePieces closed fuel content.pieces ((Progress.ofMessage connection content).sender
      channel requestId (messageType content.binaryEncodingId)) with
  | none => rfl
  | some result =>
      simp only [finish, Option.map_some]
      split_ifs <;> rfl

/-- A message that is sent has buffers with room for the headers. -/
theorem room_of_sends (hconnection : channel.connection = some connection)
    (hbuffer : getSendBuffer connection closed connection.localConf.sendBufferSize = .ok length)
    {result : StatusCode × SecureChannel × List Task}
    (h : sendBinaryMessage closed fuel channel requestId content = some result) :
  secureMessageHeaderLength ≤ connection.localConf.sendBufferSize.toNat
  := by
  by_contra hroom
  rw [sendBinaryMessage, hconnection] at h
  simp only [hbuffer, if_pos (Nat.not_le.mp hroom)] at h
  cases h

/-- A message that has been aborted has that outcome. -/
theorem Aborted.outcome {sender : Sender} (h : Aborted channel requestId type sender)
    {retval : StatusCode} (hretval : retval ≠ .good) :
  SendOutcome channel requestId type (retval, sender.channel, sender.tasks)
  := by
  obtain ⟨-, progress, errorCode, hchannel, htasks⟩ := h
  rw [hchannel, htasks]
  apply SendOutcome.aborted progress retval errorCode hretval

/-- After the encoder a message within the limits is completed, unless the encoder reports an error
or its last chunk exceeds a limit. -/
theorem finish_sent (hconnection : channel.connection = some connection) {progress : Progress}
    (h : ¬Exceeds connection.remoteConf progress.payloads progress.dst) :
  finish closed .good (.good, progress.sender channel requestId type) =
    (.good, { channel with
        sendSequenceNumber := after channel.sendSequenceNumber progress.payloads + 1 },
      messageTasks channel requestId type channel.sendSequenceNumber progress.payloads
        progress.dst)
  := by
  obtain ⟨sender', hsend, hchannel, htasks⟩ :=
    @sendChunk_final channel connection requestId type closed hconnection progress h
  have hsend' : sendChunk closed { progress.sender channel requestId type with
      ci := { (progress.sender channel requestId type).ci with final := true } } =
      (.good, sender') := hsend
  simp only [finish, if_true, ne_eq, not_true_eq_false, if_false, hsend', hchannel, htasks]

/-- When the encoder reports an error or the last chunk exceeds a limit, the message is aborted. -/
theorem finish_error (hconnection : channel.connection = some connection) {progress : Progress}
    {encoded : StatusCode}
    (h : encoded ≠ .good ∨ Exceeds connection.remoteConf progress.payloads progress.dst) :
  ∃ retval sender', retval ≠ .good ∧ Aborted channel requestId type sender' ∧
    finish closed encoded (.good, progress.sender channel requestId type) =
      (retval, sender'.channel, sender'.tasks)
  := by
  by_cases hencoded : encoded = .good
  · obtain ⟨result, hretval, haborted, hsend⟩ :=
      @sendChunk_error channel connection requestId type closed hconnection progress true .good
        (.inr (h.resolve_left (not_not.mpr hencoded)))
    have hsend' : sendChunk closed { progress.sender channel requestId type with
        ci := { (progress.sender channel requestId type).ci with final := true } } = result := hsend
    use result.1, result.2, hretval, haborted
    simp only [finish, if_true, hencoded, ne_eq, not_true_eq_false, if_false, hsend']
  · obtain ⟨result, hretval, haborted, hsend⟩ :=
      @sendChunk_error channel connection requestId type closed hconnection progress false encoded
        (.inl hencoded)
    have hfinal : (progress.sender channel requestId type).ci.final = false := rfl
    use encoded, result.2, hencoded, haborted
    simp only [finish, if_true, ne_eq, hencoded, not_false_eq_true, hfinal, Bool.false_eq_true,
      if_false]
    rw [← hsend]
    rfl

/-- A message aborted by the encoder stays so. -/
theorem finish_aborted {encoded : StatusCode} {result : StatusCode × Sender}
    (hretval : result.1 ≠ .good) (h : Aborted channel requestId type result.2) :
  finish closed encoded result = (result.1, result.2.channel, result.2.tasks)
  := by
  simp only [finish, hretval, if_false, ne_eq, not_false_eq_true, if_true, h.final]

/-- After the encoder a message has one of the outcomes. -/
theorem outcome_finish (hconnection : channel.connection = some connection)
    {encoded : StatusCode} {result : StatusCode × Sender}
    (h : (∃ progress : Progress, result = (.good, progress.sender channel requestId type)) ∨
      (result.1 ≠ .good ∧ Aborted channel requestId type result.2)) :
  SendOutcome channel requestId type (finish closed encoded result)
  := by
  rcases h with ⟨progress, rfl⟩ | ⟨hretval, haborted⟩
  · by_cases herror : encoded ≠ .good ∨
        Exceeds connection.remoteConf progress.payloads progress.dst
    · obtain ⟨retval, sender', hretval, haborted, hfinish⟩ :=
        @finish_error closed channel connection requestId type hconnection progress encoded herror
      rw [hfinish]
      apply haborted.outcome hretval
    · obtain ⟨hencoded, hexceeds⟩ := not_or.mp herror
      rw [not_not.mp hencoded, finish_sent hconnection hexceeds]
      apply SendOutcome.sent
  · rw [finish_aborted hretval haborted]
    apply haborted.outcome hretval

end

/-- Sending a message has one of these outcomes. -/
theorem sendBinaryMessage_cases {closed : Bool} {fuel : Nat} {channel : SecureChannel}
    {requestId : UInt32} {content : Content} {result : StatusCode × SecureChannel × List Task}
    (h : sendBinaryMessage closed fuel channel requestId content = some result) :
  SendOutcome channel requestId (messageType content.binaryEncodingId) result
  := by
  cases hconnection : channel.connection with
  | none =>
      rw [sendBinaryMessage, hconnection] at h
      obtain rfl := Option.some.inj h
      apply SendOutcome.refused
      decide
  | some connection =>
      cases hbuffer : getSendBuffer connection closed connection.localConf.sendBufferSize with
      | error retval =>
          rw [sendBinaryMessage, hconnection] at h
          simp only [hbuffer] at h
          obtain rfl := Option.some.inj h
          apply SendOutcome.refused
          apply ne_good_of_getSendBuffer hbuffer
      | ok length =>
          rw [sendBinaryMessage_eq hconnection hbuffer (room_of_sends hconnection hbuffer h)] at h
          obtain ⟨encoded, hencode, rfl⟩ := Option.map_eq_some_iff.mp h
          apply outcome_finish hconnection
          apply encodePieces_cases hconnection hbuffer hencode

end Zuth
