import UaRateThrottling.Channel.Send

/-!
# Sending a message directly

The throttled sender is the sender of the stack in which a chunk becomes a task of the queue
instead of being written to the socket.  `UA.SecureChannel.sendBinaryMessage` is the sender of the
stack, for a content that is given by its pieces.  `sendChunk_direct` and `encodePieces_direct` say
that the two senders take the same steps: the chunk of a task is the chunk written to the socket,
and the status code and the channel left behind agree.
-/

namespace UA

open Zuth (ChunkInfo Content getSendBuffer payloadSpace abortPayload messageType)

/-- A channel while a message is sent on it directly: `dst` is what the buffer holds after the
place of the headers, `space` how much it can hold there, and `written` is what each call of
`socket_write` has written. -/
structure Writer where
  channel : SecureChannel
  ci : ChunkInfo
  dst : List UInt8
  space : Nat
  written : List (List UInt8)
deriving DecidableEq

/-- `socket_write`: the socket takes all bytes of the buffer. -/
def Writer.send (writer : Writer) (dst : List UInt8) : Writer :=
  { writer with written := writer.written ++ [dst] }

/-- The checks of the limits of the other end: a chunk which would make the message too large, or
one chunk too many, sets the error code of the message. -/
def checkLimits (remoteConf : ConnectionConfig) (ci : ChunkInfo) (offset : Nat) : ChunkInfo :=
  let ci :=
    if ci.messageSizeSoFar + offset > remoteConf.maxMessageSize.toNat ∧
        remoteConf.maxMessageSize > 0 then
      { ci with errorCode := .badResponseTooLarge }
    else ci
  let ci := { ci with chunksSoFar := ci.chunksSoFar + 1 }
  if ci.chunksSoFar.toUInt32 > remoteConf.maxChunkCount ∧ remoteConf.maxChunkCount > 0 then
    { ci with errorCode := .badResponseTooLarge }
  else ci

/-- `UA_SecureChannel_sendChunk`: the buffer becomes a chunk on the socket, and unless it was the
last one there is a new buffer. -/
def SecureChannel.sendChunk (closed : Bool) (writer : Writer) : StatusCode × Writer :=
  match writer.channel.connection with
  | none => (.badInternalError, writer)
  | some connection =>
    let channel := writer.channel
    let ci := checkLimits connection.remoteConf writer.ci
      (writer.dst.length + secureMessageHeaderLength)
    let chunkType :=
      if ci.errorCode = .good then
        if ci.final then ChunkType.final else ChunkType.intermediate
      else ChunkType.abort
    let payload :=
      if ci.errorCode = .good then writer.dst else abortPayload writer.space ci.errorCode
    let ci := if ci.errorCode = .good then ci else { ci with final := true }
    let offset := payload.length + secureMessageHeaderLength
    let ci := { ci with messageSizeSoFar := ci.messageSizeSoFar + offset }
    let sequenceNumber := channel.sendSequenceNumber + 1
    let dst := encodeChunk (ci.messageType + chunkType)
      { secureChannelId := channel.securityToken.channelId
        tokenId := channel.securityToken.tokenId
        sequenceNumber := sequenceNumber
        requestId := ci.requestId } payload
    let writer := { writer with
      channel := { channel with sendSequenceNumber := sequenceNumber }
      ci := ci }.send dst
    if ci.final then (ci.errorCode, writer)
    else
      match getSendBuffer connection closed connection.localConf.sendBufferSize with
      | .error retval => (retval, writer)
      | .ok _ => (ci.errorCode, { writer with
          dst := []
          space := payloadSpace connection })

/-- The encoder writes its pieces into the buffer, which `UA_SecureChannel_sendChunk` exchanges when
a piece does not fit. -/
def encodePieces (closed : Bool) : Nat → List (List UInt8) → Writer →
    Option (StatusCode × Writer)
  | 0, _, _ => none
  | _ + 1, [], writer => some (.good, writer)
  | fuel + 1, piece :: pieces, writer =>
    if writer.dst.length + piece.length ≤ writer.space then
      encodePieces closed fuel pieces { writer with dst := writer.dst ++ piece }
    else
      match SecureChannel.sendChunk closed writer with
      | (retval, writer) =>
        if retval ≠ .good then some (retval, writer)
        else encodePieces closed fuel (piece :: pieces) writer

/-- `UA_SecureChannel_sendBinaryMessage` of a message in pieces.  The node id of the type is written
into the first buffer, when it fits there.  Nothing is said of buffers without room for the
headers. -/
def SecureChannel.sendBinaryMessage (closed : Bool) (fuel : Nat) (channel : SecureChannel)
    (requestId : UInt32) (content : Content) :
    Option (StatusCode × SecureChannel × List (List UInt8)) :=
  match channel.connection with
  | none => some (.badInternalError, channel, [])
  | some connection =>
    match getSendBuffer connection closed connection.localConf.sendBufferSize with
    | .error retval => some (retval, channel, [])
    | .ok length =>
      if connection.localConf.sendBufferSize.toNat < secureMessageHeaderLength then none else
      let space := length - secureMessageHeaderLength
      let typeId := NodeId.encodeNumeric 0 content.binaryEncodingId
      let ci : ChunkInfo := {
        requestId := requestId
        messageType := messageType content.binaryEncodingId
        chunksSoFar := 0
        messageSizeSoFar := 0
        final := false
        errorCode := .good }
      let dst := if typeId.length ≤ space then typeId else []
      match encodePieces closed fuel content.pieces ⟨channel, ci, dst, space, []⟩ with
      | none => none
      | some (retval, writer) =>
        let retval := if retval = .good then content.retval else retval
        if retval ≠ .good then
          if writer.ci.final then some (retval, writer.channel, writer.written)
          else
            let writer := (sendChunk closed
              { writer with ci := { writer.ci with errorCode := retval } }).2
            some (retval, writer.channel, writer.written)
        else
          match sendChunk closed { writer with ci := { writer.ci with final := true } } with
          | (retval, writer) => some (retval, writer.channel, writer.written)

end UA

namespace Zuth

open UA

/-- The direct sender a throttled sender stands for: the chunks of its tasks are what is
written. -/
def Sender.direct (sender : Sender) : Writer where
  channel := sender.channel
  ci := sender.ci
  dst := sender.dst
  space := sender.space
  written := sender.tasks.map Task.dst

/-- The two checks of the limits set the error code that the throttled sender works with. -/
theorem checkLimits_eq (remoteConf : ConnectionConfig) (ci : ChunkInfo) (offset : Nat) :
  checkLimits remoteConf ci offset =
    { ci with
      chunksSoFar := ci.chunksSoFar + 1
      errorCode := limitCode remoteConf ci offset }
  := by
  simp only [checkLimits, limitCode]
  by_cases hsize : ci.messageSizeSoFar + offset > remoteConf.maxMessageSize.toNat ∧
      remoteConf.maxMessageSize > 0
  · simp only [if_pos hsize, if_pos (Or.inl hsize), ite_self]
  · by_cases hcount : (ci.chunksSoFar + 1).toUInt32 > remoteConf.maxChunkCount ∧
        remoteConf.maxChunkCount > 0
    · simp only [if_neg hsize, if_pos hcount, if_pos (Or.inr hcount)]
    · simp only [if_neg hsize, if_neg hcount, if_neg (not_or.mpr ⟨hsize, hcount⟩)]

/-- A chunk sent as a task is the chunk sent directly, and the same buffer takes its place. -/
theorem sendChunk_direct (closed : Bool) (sender : Sender) :
  SecureChannel.sendChunk closed sender.direct =
    ((sendChunk closed sender).1, (sendChunk closed sender).2.direct)
  := by
  cases hconnection : sender.channel.connection with
  | none => simp only [SecureChannel.sendChunk, sendChunk, Sender.direct, hconnection]
  | some connection =>
      simp only [SecureChannel.sendChunk, sendChunk, hconnection, checkLimits_eq, Sender.direct,
        Writer.send]
      generalize limitCode connection.remoteConf sender.ci
        (sender.dst.length + secureMessageHeaderLength) = errorCode
      by_cases herror : errorCode = .good
      · cases sender.ci.final with
        | true =>
            simp only [herror, if_true, Bool.true_or, List.map_append]
            rfl
        | false =>
            simp only [herror, if_true, ne_eq, not_true_eq_false, decide_false, Bool.or_false,
              Bool.false_eq_true, if_false]
            cases getSendBuffer connection closed connection.localConf.sendBufferSize with
            | error retval =>
                simp only [List.map_append]
                rfl
            | ok length =>
                simp only [List.map_append]
                rfl
      · simp only [herror, if_false, if_true, ne_eq, not_false_eq_true, decide_true, Bool.or_true,
          List.map_append]
        rfl

/-- The encoder goes through the same buffers. -/
theorem encodePieces_direct (closed : Bool) (fuel : Nat) (pieces : List (List UInt8))
    (sender : Sender) :
  UA.encodePieces closed fuel pieces sender.direct =
    (encodePieces closed fuel pieces sender).map (fun result => (result.1, result.2.direct))
  := by
  induction fuel generalizing pieces sender with
  | zero => rfl
  | succ fuel ih =>
      cases pieces with
      | nil => rfl
      | cons piece pieces =>
          rw [UA.encodePieces, encodePieces]
          by_cases hfits : sender.dst.length + piece.length ≤ sender.space
          · rw [if_pos hfits, if_pos (show sender.direct.dst.length + piece.length ≤
              sender.direct.space from hfits), ← ih]
            rfl
          · rw [if_neg hfits, if_neg (show ¬ sender.direct.dst.length + piece.length ≤
              sender.direct.space from hfits), sendChunk_direct]
            dsimp only
            split_ifs with hretval
            · rfl
            · apply ih

end Zuth
