import UaRateThrottling.Channel.Encoding

/-!
# Receiving chunks

`processChunks` takes a buffer apart into chunks, checks each of them against the channel,
assembles the messages sent in several chunks, and calls back for every complete message.  What
is called back, and on what, is the business of the caller: a callback works on a state of its
own and may change the channel.

* The loop of the source ends by itself only when the chunks make it advance, so it is given
  fuel; `processChunks_mono` says that the fuel does not matter when it ends.
* `processChunks_map` relates two callbacks, `processChunks_fold` gives the effect of a callback
  that does not touch the channel: it is called on the messages `collect` collects.
-/

universe u v

namespace UA

/-- What a callback is called on: an error message, or the type, the request id and the bytes of
a complete message.  A chunk of type ERR is always decoded as an error message. -/
inductive Received where
  | error (errorMessage : TcpErrorMessage)
  | message (messageType requestId : UInt32) (bytes : List UInt8)
deriving DecidableEq

/-- A callback for complete messages. -/
abbrev Callback (σ : Type u) := σ → SecureChannel → Received → σ × SecureChannel

/-- A callback that leaves the channel alone. -/
def Callback.ofFold {σ : Type u} (f : σ → Received → σ) : Callback σ :=
  fun application channel received => (f application received, channel)

/-- The callback that collects the messages. -/
def collect : Callback (List Received) :=
  Callback.ofFold (fun messages received => messages ++ [received])

namespace SecureChannel

/-! ### Messages received in part -/

/-- The part of a message received so far is dropped. -/
def removeChunk (channel : SecureChannel) (requestId : UInt32) : SecureChannel :=
  { channel with chunks := channel.chunks.eraseP (fun ch => ch.requestId = requestId) }

/-- `appendChunk` on the entry of the request: the bytes are added at its end. -/
def addBytes (requestId : UInt32) (bytes : List UInt8) : List ChunkEntry → List ChunkEntry
  | [] => []
  | ch :: chunks =>
    if ch.requestId = requestId then { ch with bytes := ch.bytes ++ bytes } :: chunks
    else ch :: addBytes requestId bytes chunks

/-- `UA_SecureChannel_appendChunk`: the bytes of an intermediate chunk are added to the entry of
its request, which is made when there is none.  When the buffer ends before the chunk does, the
entry is dropped. -/
def appendChunk (channel : SecureChannel) (requestId : UInt32) (msg : List UInt8)
    (offset chunklength : Nat) : SecureChannel :=
  if msg.length - offset < chunklength then channel.removeChunk requestId
  else
    let bytes := (msg.drop offset).take chunklength
    match channel.chunks.find? (fun ch => ch.requestId = requestId) with
    | none => { channel with chunks := ⟨requestId, bytes⟩ :: channel.chunks }
    | some _ => { channel with chunks := addBytes requestId bytes channel.chunks }

/-- `UA_SecureChannel_finalizeChunk`: the bytes of a final chunk complete the message, and its
entry is removed. -/
def finalizeChunk (channel : SecureChannel) (requestId : UInt32) (msg : List UInt8)
    (offset chunklength : Nat) : List UInt8 × SecureChannel :=
  if msg.length - offset < chunklength then ([], channel.removeChunk requestId)
  else
    let bytes := (msg.drop offset).take chunklength
    match channel.chunks.find? (fun ch => ch.requestId = requestId) with
    | none => (bytes, channel)
    | some ch => (ch.bytes ++ bytes, channel.removeChunk requestId)

/-- An intermediate chunk changes nothing but the parts of messages. -/
theorem appendChunk_eq (channel : SecureChannel) (requestId : UInt32) (msg : List UInt8)
    (offset chunklength : Nat) :
  channel.appendChunk requestId msg offset chunklength = { channel with
    chunks := (channel.appendChunk requestId msg offset chunklength).chunks }
  := by
  rw [appendChunk]
  split
  · rfl
  · dsimp only
    split <;> rfl

/-- A final chunk changes nothing but the parts of messages. -/
theorem finalizeChunk_eq (channel : SecureChannel) (requestId : UInt32) (msg : List UInt8)
    (offset chunklength : Nat) :
  (channel.finalizeChunk requestId msg offset chunklength).2 = { channel with
    chunks := (channel.finalizeChunk requestId msg offset chunklength).2.chunks }
  := by
  rw [finalizeChunk]
  split
  · rfl
  · dsimp only
    split <;> rfl

/-! ### The loop over the chunks -/

/-- The outcome of one iteration: the status code, where the next chunk begins unless the loop
is left, and what the callback and the checks did. -/
structure ChunkStep (σ : Type u) where
  retval : StatusCode
  next : Option Nat
  application : σ
  channel : SecureChannel

/-- The result of the loop. -/
structure ChunksResult (σ : Type u) where
  retval : StatusCode
  application : σ
  channel : SecureChannel
deriving DecidableEq

section

variable {σ : Type u} (callback : Callback σ) (chunks : List UInt8)

/-- The iteration on an error message. -/
def processError (offset : Nat) (application : σ) (channel : SecureChannel) : ChunkStep σ :=
  match TcpMessageHeader.decode (chunks.drop offset) with
  | none => ⟨.badDecodingError, none, application, channel⟩
  | some (_, rest) =>
    match TcpErrorMessage.decode rest with
    | none => ⟨.badDecodingError, none, application, channel⟩
    | some (errorMessage, rest) =>
      match callback application channel (.error errorMessage) with
      | (application, channel) =>
        ⟨.good, some (chunks.length - rest.length), application, channel⟩

/-- What becomes of a chunk that has passed the checks, by its chunk type.  The length of its
content is computed in 64 bits, also when its size is less than that of the headers. -/
def dispatchChunk (offset processedHeader : Nat) (header : TcpMessageHeader) (requestId : UInt32)
    (application : σ) (channel : SecureChannel) : ChunkStep σ :=
  let chunkType := header.messageTypeAndChunkType &&& 0xff000000
  let chunklength := (2 ^ 64 + header.messageSize.toNat - processedHeader) % 2 ^ 64
  let next := some (offset + header.messageSize.toNat)
  if chunkType = ChunkType.intermediate then
    ⟨.good, next, application,
      channel.appendChunk requestId chunks (offset + processedHeader) chunklength⟩
  else if chunkType = ChunkType.final then
    match channel.finalizeChunk requestId chunks (offset + processedHeader) chunklength with
    | (message, channel) =>
      if 0 < message.length then
        match callback application channel
          (.message (header.messageTypeAndChunkType &&& 0x00ffffff) requestId message) with
        | (application, channel) => ⟨.good, next, application, channel⟩
      else ⟨.good, next, application, channel⟩
  else if chunkType = ChunkType.abort then
    ⟨.good, next, application, channel.removeChunk requestId⟩
  else ⟨.badDecodingError, none, application, channel⟩

/-- The iteration on a chunk.  An OPN has request id `0` here, and its token and sequence number
are not checked. -/
def processChunk (offset : Nat) (application : σ) (channel : SecureChannel) : ChunkStep σ :=
  match SecureConversationMessageHeader.decode (chunks.drop offset) with
  | none => ⟨.badDecodingError, none, application, channel⟩
  | some (header, rest) =>
    if header.secureChannelId ≠ channel.securityToken.channelId then
      ⟨.badCommunicationError, none, application, channel⟩
    else if header.messageHeader.messageTypeAndChunkType &&& 0x00ffffff = MessageType.opn then
      dispatchChunk callback chunks offset 12 header.messageHeader 0 application channel
    else
      match decodeUInt32 rest with
      | none => ⟨.badCommunicationError, none, application, channel⟩
      | some (tokenId, rest) =>
        match SequenceHeader.decode rest with
        | none => ⟨.badCommunicationError, none, application, channel⟩
        | some (sequenceHeader, _) =>
          match channel.checkSymmetric tokenId sequenceHeader.sequenceNumber with
          | (retval, channel) =>
            if retval ≠ .good then ⟨retval, none, application, channel⟩
            else dispatchChunk callback chunks offset secureMessageHeaderLength
              header.messageHeader sequenceHeader.requestId application channel

/-- One iteration, at the given offset. -/
def processAt (offset : Nat) (application : σ) (channel : SecureChannel) : ChunkStep σ :=
  if chunks.length > 3 ∧ (chunks.drop offset).take 3 = [0x45, 0x52, 0x52] then
    processError callback chunks offset application channel
  else processChunk callback chunks offset application channel

/-- The loop, from the given offset on. -/
def processChunksFrom : Nat → Nat → σ → SecureChannel → Option (ChunksResult σ)
  | 0, _, _, _ => none
  | fuel + 1, offset, application, channel =>
    match processAt callback chunks offset application channel with
    | ⟨retval, none, application, channel⟩ => some ⟨retval, application, channel⟩
    | ⟨retval, some offset, application, channel⟩ =>
      if chunks.length > offset then processChunksFrom fuel offset application channel
      else some ⟨retval, application, channel⟩

/-- `UA_SecureChannel_processChunks`. -/
def processChunks (fuel : Nat) (application : σ) (channel : SecureChannel) :
    Option (ChunksResult σ) :=
  processChunksFrom callback chunks fuel 0 application channel

variable {callback chunks}

/-- More fuel does not change the result of the loop. -/
theorem processChunksFrom_mono {fuel fuel' offset : Nat} {application : σ}
    {channel : SecureChannel} {result : ChunksResult σ} (hle : fuel ≤ fuel')
    (h : processChunksFrom callback chunks fuel offset application channel = some result) :
  processChunksFrom callback chunks fuel' offset application channel = some result
  := by
  induction fuel generalizing fuel' offset application channel with
  | zero => cases h
  | succ fuel ih =>
      cases fuel' with
      | zero => cases hle
      | succ fuel' =>
          rw [processChunksFrom] at h ⊢
          split at h
          · apply h
          · split at h
            · rw [if_pos ‹_›]
              apply ih (Nat.le_of_succ_le_succ hle) h
            · rw [if_neg ‹_›]
              apply h

/-- More fuel does not change what becomes of a buffer. -/
theorem processChunks_mono {fuel fuel' : Nat} {application : σ} {channel : SecureChannel}
    {result : ChunksResult σ} (hle : fuel ≤ fuel')
    (h : processChunks callback chunks fuel application channel = some result) :
  processChunks callback chunks fuel' application channel = some result
  := processChunksFrom_mono hle h

end

/-! ### Two callbacks -/

section

variable {σ : Type u} {τ : Type v}

/-- The outcome of an iteration, with another state of the application. -/
def ChunkStep.map (f : σ → τ) (step : ChunkStep σ) : ChunkStep τ :=
  ⟨step.retval, step.next, f step.application, step.channel⟩

/-- The result of the loop, with another state of the application. -/
def ChunksResult.map (f : σ → τ) (result : ChunksResult σ) : ChunksResult τ :=
  ⟨result.retval, f result.application, result.channel⟩

variable {callback : Callback σ} {callback' : Callback τ} {f : σ → τ}

/-- The function `f` takes what the first callback does to what the second one does. -/
def Follow (callback : Callback σ) (callback' : Callback τ) (f : σ → τ) : Prop :=
  ∀ application channel received, callback' (f application) channel received =
    Prod.map f id (callback application channel received)

theorem dispatchChunk_map (h : Follow callback callback' f) (chunks : List UInt8)
    (offset processedHeader : Nat) (header : TcpMessageHeader) (requestId : UInt32)
    (application : σ) (channel : SecureChannel) :
  dispatchChunk callback' chunks offset processedHeader header requestId (f application) channel =
    (dispatchChunk callback chunks offset processedHeader header requestId application
      channel).map f
  := by
  simp only [dispatchChunk, h _ _ _]
  split
  · rfl
  · split
    · split
      · rfl
      · rfl
    · split
      · rfl
      · rfl

theorem processAt_map (h : Follow callback callback' f) (chunks : List UInt8) (offset : Nat)
    (application : σ) (channel : SecureChannel) :
  processAt callback' chunks offset (f application) channel =
    (processAt callback chunks offset application channel).map f
  := by
  rw [processAt, processAt]
  split
  · rw [processError, processError]
    split
    · rfl
    · split
      · rfl
      · rw [h]
        rfl
  · rw [processChunk, processChunk]
    split
    · rfl
    · split
      · rfl
      · split
        · apply dispatchChunk_map h
        · split
          · rfl
          · split
            · rfl
            · -- the checks do not depend on the callback
              dsimp only
              split
              · rfl
              · apply dispatchChunk_map h

/-- When a function takes what one callback does to what another one does, it takes the whole
loop with the one to the loop with the other. -/
theorem processChunksFrom_map (h : Follow callback callback' f) (chunks : List UInt8)
    (fuel offset : Nat) (application : σ) (channel : SecureChannel) :
  processChunksFrom callback' chunks fuel offset (f application) channel =
    (processChunksFrom callback chunks fuel offset application channel).map
      (ChunksResult.map f)
  := by
  induction fuel generalizing offset application channel with
  | zero => rfl
  | succ fuel ih =>
      rw [processChunksFrom, processChunksFrom, processAt_map h]
      cases processAt callback chunks offset application channel with
      | mk retval next application channel =>
          cases next with
          | none => rfl
          | some offset =>
              simp only [ChunkStep.map]
              split
              · apply ih
              · rfl

theorem processChunks_map (h : Follow callback callback' f) (chunks : List UInt8) (fuel : Nat)
    (application : σ) (channel : SecureChannel) :
  processChunks callback' chunks fuel (f application) channel =
    (processChunks callback chunks fuel application channel).map (ChunksResult.map f)
  := processChunksFrom_map h chunks fuel 0 application channel

/-- The effect of a callback that leaves the channel alone: it is called on the messages that
the buffer completes, one after the other. -/
theorem processChunks_fold (g : σ → Received → σ) (chunks : List UInt8) (fuel : Nat)
    (application : σ) (channel : SecureChannel) :
  processChunks (Callback.ofFold g) chunks fuel application channel =
    (processChunks collect chunks fuel [] channel).map
      (ChunksResult.map (List.foldl g application))
  := by
  have hfollow : Follow collect (Callback.ofFold g) (List.foldl g application) := by
    intro messages channel received
    simp [collect, Callback.ofFold]
  rw [← processChunks_map hfollow, List.foldl_nil]

end

end SecureChannel

end UA
