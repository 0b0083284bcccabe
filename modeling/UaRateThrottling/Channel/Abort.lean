import UaRateThrottling.Channel.Pieces
import UaRateThrottling.Channel.Envelope

/-!
# Messages that are aborted

When sending a message fails, its chunks so far are tasks in the queue already, and an abort chunk
follows them.  The server drops the part of the message it has received when it comes to the abort
chunk.

* `process_intermediates` says what the chunks of a message do to the channel of the server before
  its end: the sequence number goes on, and nothing else changes but the parts of messages.
* `aborted_message` says that an aborted message leaves nothing behind, unless its type makes it
  an OPN message: the sequence number of an OPN is not checked, and not counted when it is
  aborted.
-/

namespace Zuth

open UA SecureChannel

/-- The channel holds at most one part of a message for each request. -/
def PartsApart (channel : SecureChannel) : Prop :=
  (channel.chunks.map ChunkEntry.requestId).Nodup

/-! ### The parts of messages -/

theorem partsApart_removeChunk {channel : SecureChannel} (h : PartsApart channel)
    (requestId : UInt32) :
  PartsApart (channel.removeChunk requestId)
  := by
  apply List.Nodup.sublist _ h
  apply List.Sublist.map
  apply List.eraseP_sublist

/-- A part that is removed is gone. -/
theorem not_mem_removeChunk {channel : SecureChannel} (h : PartsApart channel)
    {requestId : UInt32} :
  ∀ ch ∈ (channel.removeChunk requestId).chunks, ch.requestId ≠ requestId
  := by
  rw [PartsApart] at h
  rw [removeChunk]
  dsimp only
  generalize channel.chunks = chunks at h ⊢
  induction chunks with
  | nil => simp
  | cons head chunks ih =>
      rw [List.map_cons, List.nodup_cons] at h
      intro ch hmem
      by_cases hhead : head.requestId = requestId
      · rw [List.eraseP_cons_of_pos (by simpa using hhead)] at hmem
        intro heq
        apply h.1
        rw [hhead, ← heq]
        apply List.mem_map_of_mem hmem
      · rw [List.eraseP_cons_of_neg (by simpa using hhead)] at hmem
        rcases List.mem_cons.mp hmem with rfl | hmem
        · apply hhead
        · apply ih h.2 ch hmem

/-- Adding bytes to a part does not change which parts there are. -/
theorem map_requestId_addBytes (requestId : UInt32) (bytes : List UInt8)
    (chunks : List ChunkEntry) :
  (addBytes requestId bytes chunks).map ChunkEntry.requestId =
    chunks.map ChunkEntry.requestId
  := by
  induction chunks with
  | nil => rfl
  | cons ch chunks ih =>
      rw [addBytes]
      split
      · rfl
      · rw [List.map_cons, ih, List.map_cons]

/-- A part is begun only when there is none for its request. -/
theorem partsApart_appendChunk {channel : SecureChannel} (h : PartsApart channel)
    (requestId : UInt32) (msg : List UInt8) (offset chunklength : Nat) :
  PartsApart (channel.appendChunk requestId msg offset chunklength)
  := by
  rw [appendChunk]
  split
  · apply partsApart_removeChunk h
  · dsimp only
    split
    · rename_i hfind
      rw [PartsApart, List.map_cons, List.nodup_cons]
      constructor
      · intro hmem
        obtain ⟨ch, hch, heq⟩ := List.mem_map.mp hmem
        have hne := List.find?_eq_none.mp hfind ch hch
        simp [heq] at hne
      · apply h
    · rw [PartsApart, map_requestId_addBytes]
      apply h

theorem partsApart_finalizeChunk {channel : SecureChannel} (h : PartsApart channel)
    (requestId : UInt32) (msg : List UInt8) (offset chunklength : Nat) :
  PartsApart (channel.finalizeChunk requestId msg offset chunklength).2
  := by
  rw [finalizeChunk]
  split
  · apply partsApart_removeChunk h
  · dsimp only
    split
    · apply h
    · apply partsApart_removeChunk h

/-- The checks of a chunk do not touch the parts of messages. -/
theorem partsApart_checkSymmetric {channel : SecureChannel} (h : PartsApart channel)
    (tokenId sequenceNumber : UInt32) :
  PartsApart (channel.checkSymmetric tokenId sequenceNumber).2
  := by
  have hnumber : ∀ channel : SecureChannel,
      (channel.processSequenceNumber sequenceNumber).2.chunks = channel.chunks := by
    intro channel
    obtain ⟨n, hn⟩ := processSequenceNumber_eq channel sequenceNumber
    rw [hn]
  rw [PartsApart, checkSymmetric]
  split
  · split
    · apply h
    · dsimp only
      rw [hnumber, revolveTokens]
      split <;> apply h
  · rw [hnumber]
    apply h

section

variable {σ : Type} {callback : Callback σ} {chunks : List UInt8}

theorem partsApart_dispatchChunk
    (hcallback : ∀ application channel received, PartsApart channel →
      PartsApart (callback application channel received).2)
    (offset processedHeader : Nat) (header : TcpMessageHeader) (requestId : UInt32)
    (application : σ) {channel : SecureChannel} (h : PartsApart channel) :
  PartsApart (dispatchChunk callback chunks offset processedHeader header requestId application
    channel).channel
  := by
  simp only [dispatchChunk]
  split
  · apply partsApart_appendChunk h
  · split
    · split
      · apply hcallback
        apply partsApart_finalizeChunk h
      · apply partsApart_finalizeChunk h
    · split
      · apply partsApart_removeChunk h
      · apply h

theorem partsApart_processAt
    (hcallback : ∀ application channel received, PartsApart channel →
      PartsApart (callback application channel received).2)
    (offset : Nat) (application : σ) {channel : SecureChannel} (h : PartsApart channel) :
  PartsApart (processAt callback chunks offset application channel).channel
  := by
  rw [processAt]
  split
  · rw [processError]
    split
    · apply h
    · split
      · apply h
      · apply hcallback _ _ _ h
  · rw [processChunk]
    split
    · apply h
    · split
      · apply h
      · split
        · apply partsApart_dispatchChunk hcallback _ _ _ _ _ h
        · split
          · apply h
          · split
            · apply h
            · dsimp only
              split
              · apply partsApart_checkSymmetric h
              · apply partsApart_dispatchChunk hcallback
                apply partsApart_checkSymmetric h

/-- The parts stay apart, whatever a buffer holds, when they do under the callback. -/
theorem partsApart_processChunks
    (hcallback : ∀ application channel received, PartsApart channel →
      PartsApart (callback application channel received).2)
    {fuel : Nat} {application : σ} {channel : SecureChannel} (h : PartsApart channel)
    {result : ChunksResult σ}
    (hresult : processChunks callback chunks fuel application channel = some result) :
  PartsApart result.channel
  := by
  rw [processChunks] at hresult
  generalize 0 = offset at hresult
  induction fuel generalizing offset application channel with
  | zero => cases hresult
  | succ fuel ih =>
      have hstep := @partsApart_processAt σ callback chunks hcallback offset application channel h
      rw [processChunksFrom] at hresult
      cases hat : processAt callback chunks offset application channel with
      | mk retval next application' channel' =>
          rw [hat] at hstep
          cases next with
          | none =>
              simp only [hat] at hresult
              obtain rfl := Option.some.inj hresult
              apply hstep
          | some offset' =>
              simp only [hat] at hresult
              split at hresult
              · apply ih hstep _ hresult
              · obtain rfl := Option.some.inj hresult
                apply hstep

end

/-! ### One chunk -/

/-- Both ends agree on the channel and the sequence number, and the token of the client is the one
in use at the server or the one issued next. -/
structure InStep (client server : SecureChannel) : Prop where
  channelId : client.securityToken.channelId = server.securityToken.channelId
  hasToken : server.HasToken client.securityToken.tokenId
  issued : client.securityToken.tokenId ≠ 0
  agree : server.TokensAgree
  number : client.sendSequenceNumber = server.receiveSequenceNumber

/-- The channel with the given token in use. -/
def inUse (channel : SecureChannel) (tokenId : UInt32) : SecureChannel :=
  if tokenId = channel.securityToken.tokenId then channel else channel.revolveTokens

/-- A channel which has come to the given sequence number and the given parts of messages. -/
def comeTo (channel : SecureChannel) (n : UInt32) (chunks : List ChunkEntry) : SecureChannel :=
  { channel with
    receiveSequenceNumber := n
    chunks := chunks }

/-- Bringing the token of the client into use changes nothing else. -/
theorem InStep.inUse_eq {client server : SecureChannel} (h : InStep client server) :
  (inUse server client.securityToken.tokenId).securityToken.tokenId =
      client.securityToken.tokenId ∧
    (inUse server client.securityToken.tokenId).securityToken.channelId =
      server.securityToken.channelId ∧
    (inUse server client.securityToken.tokenId).receiveSequenceNumber =
      server.receiveSequenceNumber ∧
    (inUse server client.securityToken.tokenId).chunks = server.chunks ∧
    (inUse server client.securityToken.tokenId).TokensAgree
  := by
  obtain ⟨-, htoken, hissued, hagree, -⟩ := h
  rw [inUse]
  by_cases hcurrent : client.securityToken.tokenId = server.securityToken.tokenId
  · rw [if_pos hcurrent]
    use hcurrent.symm, rfl, rfl, rfl, hagree
  · have hnext := htoken.resolve_left hcurrent
    have hne : server.nextSecurityToken.tokenId ≠ 0 := by
      rw [← hnext]
      apply hissued
    rw [if_neg hcurrent, revolveTokens, if_neg hne]
    use hnext.symm, hagree hne, rfl, rfl
    intro hinit
    contradiction

/-- The types of a message. -/
theorem messageType_cases (binaryEncodingId : UInt32) :
  messageType binaryEncodingId ∈ [MessageType.msg, MessageType.opn, MessageType.clo]
  := by
  rw [messageType]
  split
  · simp
  · split <;> simp

section

variable {client server : SecureChannel} {received : List Received}
  {requestId type chunkType n : UInt32} {payload : List UInt8} {chunks : List ChunkEntry}
  {fuel : Nat}

/-- A chunk of one of the three chunk types is processed without an error, and changes nothing but
the parts of messages. -/
theorem dispatchChunk_good {dst : List UInt8} (k : Nat) {header : TcpMessageHeader}
    (htype : header.messageTypeAndChunkType &&& 0xff000000 ∈
      [ChunkType.intermediate, ChunkType.final, ChunkType.abort])
    (hsize : header.messageSize.toNat = dst.length) :
  ∃ received' chunks',
    dispatchChunk collect dst 0 k header requestId received server =
      ⟨.good, some dst.length, received', { server with chunks := chunks' }⟩
  := by
  simp only [dispatchChunk, hsize, Nat.zero_add]
  simp only [List.mem_cons, List.not_mem_nil, or_false] at htype
  have hfinal : ChunkType.final ≠ ChunkType.intermediate := by decide
  have habort : ChunkType.abort ≠ ChunkType.intermediate ∧
      ChunkType.abort ≠ ChunkType.final := by decide
  rcases htype with htype | htype | htype
  · rw [if_pos htype, appendChunk_eq]
    exact ⟨_, _, rfl⟩
  · rw [htype, if_neg hfinal, if_pos rfl, finalizeChunk_eq]
    split
    · exact ⟨_, _, rfl⟩
    · exact ⟨_, _, rfl⟩
  · rw [htype, if_neg habort.1, if_neg habort.2, if_pos rfl]
    exact ⟨_, _, rfl⟩

/-- A chunk of a message is a chunk of its type, of the chunk type it is sent under. -/
theorem chunkTypes (htype : type ∈ [MessageType.msg, MessageType.opn, MessageType.clo])
    (hchunkType : chunkType ∈ [ChunkType.intermediate, ChunkType.final, ChunkType.abort]) :
  (type + chunkType) &&& 0xff000000 = chunkType ∧ (type + chunkType) &&& 0x00ffffff = type ∧
    (encodeUInt32 (type + chunkType)).take 3 ≠ [0x45, 0x52, 0x52]
  := by
  simp only [List.mem_cons, List.not_mem_nil, or_false] at htype hchunkType
  rcases htype with rfl | rfl | rfl
  · rcases hchunkType with rfl | rfl | rfl <;> decide
  · rcases hchunkType with rfl | rfl | rfl <;> decide
  · rcases hchunkType with rfl | rfl | rfl <;> decide

theorem chunkType_of_mem (htype : type ∈ [MessageType.msg, MessageType.clo])
    (hchunkType : chunkType ∈ [ChunkType.intermediate, ChunkType.final, ChunkType.abort]) :
  (type + chunkType) &&& 0xff000000 = chunkType
  := by
  apply (chunkTypes _ hchunkType).1
  simp only [List.mem_cons, List.not_mem_nil, or_false] at htype ⊢
  tauto

theorem not_opn_of_mem (htype : type ∈ [MessageType.msg, MessageType.clo])
    (hchunkType : chunkType ∈ [ChunkType.intermediate, ChunkType.final, ChunkType.abort]) :
  (encodeUInt32 (type + chunkType)).take 3 ≠ [0x45, 0x52, 0x52] ∧
    (type + chunkType) &&& 0x00ffffff ≠ MessageType.opn
  := by
  have hmem : type ∈ [MessageType.msg, MessageType.opn, MessageType.clo] := by
    simp only [List.mem_cons, List.not_mem_nil, or_false] at htype ⊢
    tauto
  have hopn : type ≠ MessageType.opn := by
    simp only [List.mem_cons, List.not_mem_nil, or_false] at htype
    rcases htype with rfl | rfl <;> decide
  obtain ⟨-, hmasked, herr⟩ := chunkTypes hmem hchunkType
  rw [hmasked]
  use herr, hopn

/-- A chunk of a message that is not an OPN is dispatched when it has the next sequence number. -/
theorem processAt_chunkTask (hid : client.securityToken.channelId = server.securityToken.channelId)
    (htoken : client.securityToken.tokenId = server.securityToken.tokenId)
    (htype : type ∈ [MessageType.msg, MessageType.clo])
    (hchunkType : chunkType ∈ [ChunkType.intermediate, ChunkType.final, ChunkType.abort]) :
  processAt collect (chunkTask client requestId (type + chunkType)
      (server.receiveSequenceNumber + 1) payload).dst 0 received server =
    dispatchChunk collect (chunkTask client requestId (type + chunkType)
      (server.receiveSequenceNumber + 1) payload).dst 0 secureMessageHeaderLength
      ⟨type + chunkType, UInt32.ofNat (payload.length + secureMessageHeaderLength)⟩ requestId
      received { server with receiveSequenceNumber := server.receiveSequenceNumber + 1 }
  := by
  obtain ⟨herr, hopn⟩ := not_opn_of_mem htype hchunkType
  rw [chunkTask]
  apply processAt_encodeChunk collect received herr hopn hid htoken rfl

/-- A chunk that is not an OPN brings its token into use. -/
theorem processChunks_inUse (hfuel : 0 < fuel) (hstep : InStep client server)
    (htype : type ∈ [MessageType.msg, MessageType.clo])
    (hchunkType : chunkType ∈ [ChunkType.intermediate, ChunkType.final, ChunkType.abort]) :
  processChunks collect (chunkTask client requestId (type + chunkType) n payload).dst fuel received
      server =
    processChunks collect (chunkTask client requestId (type + chunkType) n payload).dst fuel
      received (inUse server client.securityToken.tokenId)
  := by
  obtain ⟨htoken, hid, -⟩ := hstep.inUse_eq
  obtain ⟨herr, hopn⟩ := not_opn_of_mem htype hchunkType
  have hcheck : server.checkSymmetric client.securityToken.tokenId n =
      (inUse server client.securityToken.tokenId).checkSymmetric client.securityToken.tokenId
        n := by
    rw [checkSymmetric.eq_1 (inUse _ _), if_neg (not_not.mpr htoken.symm), checkSymmetric, inUse]
    by_cases hcurrent : client.securityToken.tokenId = server.securityToken.tokenId
    · rw [if_pos hcurrent, if_neg (not_not.mpr hcurrent)]
    · rw [if_neg hcurrent, if_pos hcurrent,
        if_neg (not_not.mpr (hstep.hasToken.resolve_left hcurrent))]
  obtain ⟨fuel, rfl⟩ := Nat.exists_eq_succ_of_ne_zero (Nat.ne_of_gt hfuel)
  rw [processChunks, processChunks, processChunksFrom, processChunksFrom, chunkTask,
    processAt_checked collect received herr hopn hstep.channelId,
    processAt_checked collect received herr hopn (hstep.channelId.trans hid.symm), hcheck]

/-- An intermediate chunk changes nothing but the sequence number and the parts of messages. -/
theorem process_intermediate (hfuel : 0 < fuel)
    (hid : client.securityToken.channelId = server.securityToken.channelId)
    (htoken : client.securityToken.tokenId = server.securityToken.tokenId)
    (htype : type ∈ [MessageType.msg, MessageType.clo]) (hparts : PartsApart server)
    (hlength : payload.length + secureMessageHeaderLength < 2 ^ 32) :
  ∃ chunks, Receiver.feed fuel ⟨server, received⟩ (chunkTask client requestId
      (type + ChunkType.intermediate) (server.receiveSequenceNumber + 1) payload).dst =
        some ⟨comeTo server (server.receiveSequenceNumber + 1) chunks, received⟩ ∧
      PartsApart (comeTo server (server.receiveSequenceNumber + 1) chunks)
  := by
  have hchunk := chunkType_of_mem htype (show ChunkType.intermediate ∈ _ by simp)
  obtain ⟨hsize, hcontent⟩ := chunklength_eq hlength
  let checked := { server with receiveSequenceNumber := server.receiveSequenceNumber + 1 }
  let dst := (chunkTask client requestId (type + ChunkType.intermediate)
    (server.receiveSequenceNumber + 1) payload).dst
  have hparts' : PartsApart checked := hparts
  have happended := partsApart_appendChunk hparts' requestId dst secureMessageHeaderLength
    payload.length
  have heq := appendChunk_eq checked requestId dst secureMessageHeaderLength payload.length
  use (checked.appendChunk requestId dst secureMessageHeaderLength payload.length).chunks
  constructor
  · apply feed_eq hfuel
    rw [processAt_chunkTask hid htoken htype (by simp)]
    simp only [dispatchChunk, hchunk, if_true, hsize, hcontent, Nat.zero_add]
    rw [heq, chunkTask, length_encodeChunk]
    rfl
  · apply happended

/-- The abort chunk removes the part of its message. -/
theorem process_abort (hfuel : 0 < fuel)
    (hid : client.securityToken.channelId = server.securityToken.channelId)
    (htoken : client.securityToken.tokenId = server.securityToken.tokenId)
    (htype : type ∈ [MessageType.msg, MessageType.clo]) (hparts : PartsApart server)
    (hlength : payload.length + secureMessageHeaderLength < 2 ^ 32) :
  ∃ chunks, Receiver.feed fuel ⟨server, received⟩ (chunkTask client requestId
      (type + ChunkType.abort) (server.receiveSequenceNumber + 1) payload).dst =
        some ⟨comeTo server (server.receiveSequenceNumber + 1) chunks, received⟩ ∧
      ∀ ch ∈ chunks, ch.requestId ≠ requestId
  := by
  have hchunk := chunkType_of_mem htype (show ChunkType.abort ∈ _ by simp)
  have hne : ChunkType.abort ≠ ChunkType.intermediate ∧ ChunkType.abort ≠ ChunkType.final := by
    decide
  have hparts' : PartsApart
      { server with receiveSequenceNumber := server.receiveSequenceNumber + 1 } := hparts
  use (removeChunk { server with receiveSequenceNumber := server.receiveSequenceNumber + 1 }
    requestId).chunks
  constructor
  · apply feed_eq hfuel
    rw [processAt_chunkTask hid htoken htype (by simp)]
    simp only [dispatchChunk, hchunk, hne.1, hne.2, if_false, if_true]
    rw [(chunklength_eq hlength).1, Nat.zero_add, chunkTask, length_encodeChunk]
    rfl
  · apply not_mem_removeChunk hparts'

/-- The first chunk of an aborted message brings its token into use. -/
theorem feedTasks_inUse (hfuel : 0 < fuel) (hstep : InStep client server) {n' : UInt32}
    (htype : type ∈ [MessageType.msg, MessageType.clo]) (payloads : List (List UInt8)) :
  feedTasks fuel (intermediateTasks client requestId type n payloads ++
      [abortTask client requestId type n' payloads payload]) ⟨server, received⟩ =
    feedTasks fuel (intermediateTasks client requestId type n payloads ++
      [abortTask client requestId type n' payloads payload])
      ⟨inUse server client.securityToken.tokenId, received⟩
  := by
  cases payloads with
  | nil =>
      rw [intermediateTasks, List.nil_append, feedTasks, feedTasks, Receiver.feed, Receiver.feed,
        abortTask, processChunks_inUse hfuel hstep htype (by simp)]
  | cons head payloads =>
      rw [intermediateTasks, List.cons_append, feedTasks, feedTasks, Receiver.feed, Receiver.feed,
        processChunks_inUse hfuel hstep htype (by simp)]

/-- The intermediate chunks of a message are counted, and change only the parts of messages. -/
theorem process_intermediates (hfuel : 0 < fuel)
    (hid : client.securityToken.channelId = server.securityToken.channelId)
    (htoken : client.securityToken.tokenId = server.securityToken.tokenId)
    (htype : type ∈ [MessageType.msg, MessageType.clo]) (hparts : PartsApart server)
    {payloads : List (List UInt8)}
    (hlength : ∀ payload ∈ payloads, payload.length + secureMessageHeaderLength < 2 ^ 32) :
  ∃ chunks, feedTasks fuel (intermediateTasks client requestId type server.receiveSequenceNumber
      payloads) ⟨server, received⟩ =
        some ⟨comeTo server (after server.receiveSequenceNumber payloads) chunks, received⟩ ∧
      PartsApart (comeTo server (after server.receiveSequenceNumber payloads) chunks)
  := by
  induction payloads generalizing server with
  | nil =>
      use server.chunks
      constructor
      · rfl
      · apply hparts
  | cons payload payloads ih =>
      obtain ⟨chunks, hfeed, hparts'⟩ := @process_intermediate client server received requestId type
        payload fuel hfuel hid htoken htype hparts (hlength payload List.mem_cons_self)
      obtain ⟨chunks', hrest, hparts''⟩ := @ih
        (comeTo server (server.receiveSequenceNumber + 1) chunks) hid htoken hparts'
        (fun p hp => hlength p (List.mem_cons_of_mem _ hp))
      use chunks'
      constructor
      · rw [intermediateTasks, feedTasks, hfeed]
        apply hrest
      · apply hparts''

/-- An aborted message is counted, and leaves no part of it. -/
theorem process_aborted (hfuel : 0 < fuel)
    (hid : client.securityToken.channelId = server.securityToken.channelId)
    (htoken : client.securityToken.tokenId = server.securityToken.tokenId)
    (htype : type ∈ [MessageType.msg, MessageType.clo]) (hparts : PartsApart server)
    (progress : Progress) (errorCode : StatusCode) :
  ∃ chunks, feedTasks fuel (intermediateTasks client requestId type server.receiveSequenceNumber
      progress.payloads ++ [abortTask client requestId type server.receiveSequenceNumber
        progress.payloads (abortPayload progress.space errorCode)]) ⟨server, received⟩ =
        some ⟨comeTo server (after server.receiveSequenceNumber progress.payloads + 1) chunks,
          received⟩ ∧
      ∀ ch ∈ chunks, ch.requestId ≠ requestId
  := by
  obtain ⟨chunks, hfeed, hparts'⟩ := @process_intermediates client server received requestId type
    fuel hfuel hid htoken htype hparts progress.payloads progress.payloads_lt
  obtain ⟨chunks', habort, hnone⟩ := @process_abort client
    (comeTo server (after server.receiveSequenceNumber progress.payloads) chunks) received requestId
    type (abortPayload progress.space errorCode) fuel hfuel hid htoken htype hparts'
    (abortPayload_lt _ _)
  use chunks'
  constructor
  · rw [feedTasks_append, hfeed, Option.bind_some, feedTasks]
    apply Option.bind_eq_some_iff.mpr
    exact ⟨_, habort, rfl⟩
  · apply hnone

end

/-! ### The next message -/

/-- The chunks of the tasks are processed without an error, one after the other. -/
def Accepted (fuel : Nat) : List Task → SecureChannel → Prop
  | [], _ => True
  | task :: tasks, channel =>
    ∃ result, processChunks collect task.dst fuel [] channel = some result ∧
      result.retval = .good ∧ Accepted fuel tasks result.channel

/-- The server takes chunks of a message of the given type from the given sequence number on: the
number, and the token, matter only when the message is not an OPN. -/
structure Awaits (client server : SecureChannel) (type n : UInt32) : Prop where
  channelId : client.securityToken.channelId = server.securityToken.channelId
  next : type = MessageType.opn ∨
    (client.securityToken.tokenId = server.securityToken.tokenId ∧ server.receiveSequenceNumber = n)

section

variable {client server : SecureChannel} {received : List Received}
  {requestId type chunkType n : UInt32} {payload : List UInt8} {fuel : Nat}

/-- A chunk of an OPN message is dispatched without being checked. -/
theorem processAt_opn (hid : client.securityToken.channelId = server.securityToken.channelId)
    (hchunkType : chunkType ∈ [ChunkType.intermediate, ChunkType.final, ChunkType.abort]) :
  processAt collect (chunkTask client requestId (MessageType.opn + chunkType) n payload).dst 0
      received server =
    dispatchChunk collect (chunkTask client requestId (MessageType.opn + chunkType) n payload).dst
      0 12 ⟨MessageType.opn + chunkType, UInt32.ofNat (payload.length + secureMessageHeaderLength)⟩
      0 received server
  := by
  obtain ⟨-, hmasked, herr⟩ := chunkTypes (show MessageType.opn ∈ _ by simp) hchunkType
  rw [chunkTask, processAt, if_neg (not_err_encodeChunk herr), processChunk, List.drop_zero,
    encodeChunk]
  simp only [List.append_assoc, SecureConversationMessageHeader.decode_encode_append, hid,
    ne_eq, not_true_eq_false, if_false, hmasked, if_true]

/-- A chunk the server waits for is processed without an error, and changes nothing but the parts
of messages and the sequence number, which is the next one unless the message is an OPN. -/
theorem Awaits.processAt (h : Awaits client server type n)
    (htype : type ∈ [MessageType.msg, MessageType.opn, MessageType.clo])
    (hchunkType : chunkType ∈ [ChunkType.intermediate, ChunkType.final, ChunkType.abort])
    (hlength : payload.length + secureMessageHeaderLength < 2 ^ 32) :
  ∃ n' received' chunks', (type = MessageType.opn ∨ n' = n + 1) ∧
    SecureChannel.processAt collect
        (chunkTask client requestId (type + chunkType) (n + 1) payload).dst 0 received server =
      ⟨.good, some (chunkTask client requestId (type + chunkType) (n + 1) payload).dst.length,
        received', comeTo server n' chunks'⟩
  := by
  obtain ⟨hid, hnext⟩ := h
  obtain ⟨hmasked, -, -⟩ := chunkTypes htype hchunkType
  have hsize : (UInt32.ofNat (payload.length + secureMessageHeaderLength)).toNat =
      (chunkTask client requestId (type + chunkType) (n + 1) payload).dst.length := by
    rw [(chunklength_eq hlength).1, chunkTask, length_encodeChunk]
  have hmem : type + chunkType &&& 0xff000000 ∈
      [ChunkType.intermediate, ChunkType.final, ChunkType.abort] := by
    rw [hmasked]
    apply hchunkType
  by_cases hopn : type = MessageType.opn
  · obtain ⟨received', chunks', hdispatch⟩ :=
      @dispatchChunk_good server received 0 _ 12 ⟨type + chunkType,
        UInt32.ofNat (payload.length + secureMessageHeaderLength)⟩ hmem hsize
    use server.receiveSequenceNumber, received', chunks', .inl hopn
    rw [hopn] at hdispatch ⊢
    rw [processAt_opn hid hchunkType, hdispatch]
    rfl
  · obtain ⟨htoken, hnumber⟩ := hnext.resolve_left hopn
    obtain ⟨received', chunks', hdispatch⟩ :=
      @dispatchChunk_good { server with receiveSequenceNumber := server.receiveSequenceNumber + 1 }
        received requestId _ secureMessageHeaderLength ⟨type + chunkType,
          UInt32.ofNat (payload.length + secureMessageHeaderLength)⟩ hmem hsize
    have hnotOpn : type ∈ [MessageType.msg, MessageType.clo] := by
      simp only [List.mem_cons, List.not_mem_nil, or_false] at htype ⊢
      tauto
    use n + 1, received', chunks', .inr rfl
    rw [← hnumber] at hdispatch ⊢
    rw [processAt_chunkTask hid htoken hnotOpn hchunkType, hdispatch]
    rfl

/-- A chunk is processed without an error when the server waits for it, and the server waits for
the next one then. -/
theorem Awaits.process (h : Awaits client server type n) (hfuel : 0 < fuel)
    (htype : type ∈ [MessageType.msg, MessageType.opn, MessageType.clo])
    (hchunkType : chunkType ∈ [ChunkType.intermediate, ChunkType.final, ChunkType.abort])
    (hlength : payload.length + secureMessageHeaderLength < 2 ^ 32) :
  ∃ result, processChunks collect
      (chunkTask client requestId (type + chunkType) (n + 1) payload).dst fuel received server =
        some result ∧
    result.retval = .good ∧ Awaits client result.channel type (n + 1)
  := by
  obtain ⟨n', received', chunks', hnumber, hat⟩ :=
    @Awaits.processAt client server received requestId type chunkType n payload h htype hchunkType
      hlength
  refine ⟨_, processChunks_eq hfuel hat, rfl, h.channelId, ?_⟩
  rcases hnumber with hopn | hnumber
  · left
    apply hopn
  · rcases h.next with hopn | ⟨htoken, -⟩
    · left
      apply hopn
    · right
      use htoken, hnumber

/-- All chunks of a message are accepted when the server waits for the first one. -/
theorem Awaits.accepted (h : Awaits client server type n) (hfuel : 0 < fuel)
    (htype : type ∈ [MessageType.msg, MessageType.opn, MessageType.clo])
    (hchunkType : chunkType ∈ [ChunkType.intermediate, ChunkType.final, ChunkType.abort])
    {payloads : List (List UInt8)}
    (hpayloads : ∀ payload ∈ payloads, payload.length + secureMessageHeaderLength < 2 ^ 32)
    (hlength : payload.length + secureMessageHeaderLength < 2 ^ 32) :
  Accepted fuel (intermediateTasks client requestId type n payloads ++
    [chunkTask client requestId (type + chunkType) (after n payloads + 1) payload]) server
  := by
  induction payloads generalizing n server with
  | nil =>
      obtain ⟨result, hprocess, hretval, -⟩ :=
        @Awaits.process client server [] requestId type chunkType n payload fuel h hfuel htype
          hchunkType hlength
      use result, hprocess, hretval
      trivial
  | cons head payloads ih =>
      obtain ⟨result, hprocess, hretval, hnext⟩ :=
        @Awaits.process client server [] requestId type ChunkType.intermediate n head fuel h hfuel
          htype (by simp) (hpayloads head List.mem_cons_self)
      use result, hprocess, hretval
      apply ih hnext
      intro p hp
      apply hpayloads p (List.mem_cons_of_mem _ hp)

end

/-- The first chunk of a message that is not an OPN brings its token into use. -/
theorem accepted_of_inUse {client server : SecureChannel} (hstep : InStep client server)
    {fuel : Nat} (hfuel : 0 < fuel) {requestId type chunkType n n' : UInt32} {payload : List UInt8}
    (htype : type ∈ [MessageType.msg, MessageType.clo])
    (hchunkType : chunkType ∈ [ChunkType.intermediate, ChunkType.final, ChunkType.abort])
    {payloads : List (List UInt8)}
    (h : Accepted fuel (intermediateTasks client requestId type n payloads ++
      [chunkTask client requestId (type + chunkType) n' payload])
      (inUse server client.securityToken.tokenId)) :
  Accepted fuel (intermediateTasks client requestId type n payloads ++
    [chunkTask client requestId (type + chunkType) n' payload]) server
  := by
  cases payloads with
  | nil =>
      obtain ⟨result, hprocess, hrest⟩ := h
      use result
      rw [processChunks_inUse hfuel hstep htype hchunkType]
      use hprocess
  | cons head payloads =>
      obtain ⟨result, hprocess, hrest⟩ := h
      use result
      rw [processChunks_inUse hfuel hstep htype (by simp)]
      use hprocess

/-- Whatever message the client sends next, its chunks are accepted. -/
theorem InStep.accepted {client server : SecureChannel} (h : InStep client server)
    {closed : Bool} {fuel fuel' : Nat} (hfuel' : 0 < fuel') {requestId : UInt32}
    {content : EncodedContent} {status : StatusCode} {client' : SecureChannel} {tasks : List Task}
    (hsend : sendEncoded closed fuel client requestId content =
      .returns status (client', tasks)) :
  Accepted fuel' tasks server
  := by
  obtain ⟨htoken, hid, hnumber, -⟩ := h.inUse_eq
  have htype := messageType_cases content.binaryEncodingId
  have haccepted : ∀ {chunkType payload}, ∀ progress : Progress,
      chunkType ∈ [ChunkType.intermediate, ChunkType.final, ChunkType.abort] →
      payload.length + secureMessageHeaderLength < 2 ^ 32 →
      Accepted fuel' (intermediateTasks client requestId (messageType content.binaryEncodingId)
        client.sendSequenceNumber progress.payloads ++
          [chunkTask client requestId (messageType content.binaryEncodingId + chunkType)
            (after client.sendSequenceNumber progress.payloads + 1) payload]) server := by
    intro chunkType payload progress hchunkType hlength
    by_cases hopn : messageType content.binaryEncodingId = MessageType.opn
    · have hawaits : Awaits client server (messageType content.binaryEncodingId)
          client.sendSequenceNumber := ⟨h.channelId, .inl hopn⟩
      apply hawaits.accepted hfuel' htype hchunkType progress.payloads_lt hlength
    · have hawaits : Awaits client (inUse server client.securityToken.tokenId)
          (messageType content.binaryEncodingId) client.sendSequenceNumber :=
        ⟨h.channelId.trans hid.symm, .inr ⟨htoken.symm, hnumber.trans h.number.symm⟩⟩
      apply accepted_of_inUse h hfuel' _ hchunkType
      · apply hawaits.accepted hfuel' htype hchunkType progress.payloads_lt hlength
      · simp only [List.mem_cons, List.not_mem_nil, or_false] at htype ⊢
        tauto
  cases sendEncoded_outcome hsend with
  | refused _ _ => trivial
  | sent progress => apply haccepted progress (by simp) progress.payload_lt
  | aborted progress _ errorCode _ => apply haccepted progress (by simp) (abortPayload_lt _ _)

/-! ### An aborted message -/

/-- The chunk type a task's chunk is sent under. -/
def Task.chunkType (task : Task) : Option UInt32 :=
  (SecureConversationMessageHeader.decode task.dst).map
    (fun decoded => decoded.1.messageHeader.messageTypeAndChunkType &&& 0xff000000)

theorem chunkType_chunkTask (channel : SecureChannel) (requestId t n : UInt32)
    (payload : List UInt8) :
  (chunkTask channel requestId t n payload).chunkType = some (t &&& 0xff000000)
  := by
  simp only [Task.chunkType, chunkTask, encodeChunk, List.append_assoc,
    SecureConversationMessageHeader.decode_encode_append, Option.map_some]

/-- The tasks before the last one are intermediate chunks. -/
theorem chunkType_intermediateTasks (channel : SecureChannel) (requestId : UInt32) {type : UInt32}
    (htype : type ∈ [MessageType.msg, MessageType.opn, MessageType.clo]) (n : UInt32)
    (payloads : List (List UInt8)) :
  (intermediateTasks channel requestId type n payloads).map Task.chunkType =
    List.replicate payloads.length (some ChunkType.intermediate)
  := by
  induction payloads generalizing n with
  | nil => rfl
  | cons payload payloads ih =>
      rw [intermediateTasks, List.map_cons, chunkType_chunkTask, ih,
        (chunkTypes htype (by simp)).1]
      rfl

/-- The tasks of an aborted message leave nothing behind: when they are read back from their
documents, the server gets through them, and whatever tasks of other channels are executed in
between, the channel holds no part of the message then, nothing has been called back on it, and it
accepts the message the client sends next. -/
structure LeavesNothing (lib : Libraries) (fuel : Nat) (tasks : List Task) (receiver : Receiver)
    (requestId : UInt32) (client : SecureChannel) : Prop where
  gets_through : ∀ all, all.map Prod.fst = tasks → (∀ task ∈ all, ReadsBack lib task.1) →
    ∀ receivers : UInt32 → Option Receiver,
      receivers receiver.channel.securityToken.channelId = some receiver →
        ∃ receivers', executeTasks lib fuel all receivers = some receivers'
  nothing : ∀ all, own receiver.channel.securityToken.channelId (all.map Prod.fst) = tasks →
    (∀ task ∈ all, ReadsBack lib task.1) →
    ∀ receivers receivers', receivers receiver.channel.securityToken.channelId = some receiver →
      executeTasks lib fuel all receivers = some receivers' →
        ∃ channel, receivers' receiver.channel.securityToken.channelId =
            some ⟨channel, receiver.received⟩ ∧
          (∀ ch ∈ channel.chunks, ch.requestId ≠ requestId) ∧
          ∀ closed fuel' requestId' content status client' tasks',
            sendEncoded closed fuel' client requestId' content =
              .returns status (client', tasks') →
            Accepted fuel tasks' channel

/-- A message whose sending fails, and which is no OPN, ends in one abort chunk, and its tasks leave
nothing behind. -/
theorem aborted_message {client server : SecureChannel} {connection : Connection}
    (hconnection : client.connection = some connection) {closed : Bool} {length : Nat}
    (hbuffer : getSendBuffer connection closed connection.localConf.sendBufferSize = .ok length)
    (hroom : secureMessageHeaderLength ≤ length)
    (hstep : InStep client server) (hparts : PartsApart server) (requestId : UInt32)
    {content : EncodedContent} (htype : content.binaryEncodingId ∉ [446, 449]) {fuel fuel' : Nat}
    (hfails : Fails connection fuel content) (hfuel' : 0 < fuel') (received : List Received)
    (lib : Libraries) :
  ∃ status client' tasks k,
    sendEncoded closed fuel client requestId content = .returns status (client', tasks) ∧
    status ≠ .good ∧
    tasks.map Task.chunkType =
      List.replicate k (some ChunkType.intermediate) ++ [some ChunkType.abort] ∧
    LeavesNothing lib fuel' tasks ⟨server, received⟩ requestId client'
  := by
  obtain ⟨retval, sender, hretval, ⟨-, progress, errorCode, hchannel, htasks⟩, hsend⟩ :=
    sendEncoded_of_fails hconnection hbuffer hroom requestId hfails
  rw [hchannel, htasks] at hsend
  have htypes := messageType_cases content.binaryEncodingId
  have hnotOpn : messageType content.binaryEncodingId ∈ [MessageType.msg, MessageType.clo] := by
    simp only [List.mem_cons, List.not_mem_nil, or_false] at htype
    rw [messageType, if_neg htype]
    split <;> simp
  obtain ⟨htoken, hid, hnumber, hchunks, hagree⟩ := hstep.inUse_eq
  have hparts' : PartsApart (inUse server client.securityToken.tokenId) := by
    rw [PartsApart, hchunks]
    apply hparts
  obtain ⟨chunks, hfeed, hnone⟩ := @process_aborted client
    (inUse server client.securityToken.tokenId) received requestId
    (messageType content.binaryEncodingId) fuel' hfuel' (hstep.channelId.trans hid.symm)
    htoken.symm hnotOpn hparts' progress errorCode
  rw [hnumber, ← hstep.number, ← feedTasks_inUse hfuel' hstep hnotOpn] at hfeed
  refine ⟨_, _, _, progress.payloads.length, hsend, hretval, ?_, ?_⟩
  · rw [List.map_append, chunkType_intermediateTasks _ _ htypes, List.map_singleton, abortTask,
      chunkType_chunkTask, (chunkTypes htypes (by simp)).1]
  · constructor
    · intro all hall hreads receivers hreceiver
      rw [executeTasks_eq fuel' hreads, hall]
      apply feedChannels_of_feed _ hreceiver hfeed
      intro task hmem
      rw [← hstep.channelId]
      apply channelId_of_mem hmem
    · intro all htasks hreads receivers receivers' hreceiver hexecute
      rw [executeTasks_eq fuel' hreads] at hexecute
      obtain ⟨receiver', hreceiver', hfeed'⟩ := feedChannels_own hreceiver hexecute
      rw [htasks, hfeed] at hfeed'
      obtain rfl := Option.some.inj hfeed'
      refine ⟨_, hreceiver', hnone, ?_⟩
      have hstep' : InStep { client with
          sendSequenceNumber := after client.sendSequenceNumber progress.payloads + 1 }
          (comeTo (inUse server client.securityToken.tokenId)
            (after client.sendSequenceNumber progress.payloads + 1) chunks) :=
        ⟨hstep.channelId.trans hid.symm, .inl htoken.symm, hstep.issued, hagree, rfl⟩
      intro closed fuel requestId' content status client' tasks' hsend'
      apply hstep'.accepted hfuel' hsend'

/-- A channel on which each end has used one sequence number. -/
def opened : SecureChannel :=
  { lastNumber with
    sendSequenceNumber := 1
    receiveSequenceNumber := 1 }

/-- An OPN message that is aborted uses a sequence number which the server does not count: the next
message is not accepted. -/
theorem opn_aborted :
  ∃ status client' tasks,
    sendEncoded false 1 opened 2 ⟨446, .error .badEncodingError⟩ =
      .returns status (client', tasks) ∧ status ≠ .good ∧
    tasks.map Task.chunkType = [some ChunkType.abort] ∧
    ¬LeavesNothing referenceLibraries 1 tasks ⟨opened, []⟩ 2 client'
  := by
  refine ⟨_, _, [chunkTask opened 2 (MessageType.opn + ChunkType.abort) 2
    (abortPayload 8 .badEncodingError)], rfl, by decide, by decide, ?_⟩
  rintro ⟨-, hnothing⟩
  have hreads : ReadsBack referenceLibraries (chunkTask opened 2
      (MessageType.opn + ChunkType.abort) 2 (abortPayload 8 .badEncodingError)) := by
    apply readsBack_of_le_safeLength documented_referenceLibraries
    · apply offset_chunkTask
    · decide
  have hexecute : executeTasks referenceLibraries 1 [(chunkTask opened 2
      (MessageType.opn + ChunkType.abort) 2 (abortPayload 8 .badEncodingError), [])]
      (fun _ => some ⟨opened, []⟩) = some (Function.update (fun _ => some ⟨opened, []⟩)
        opened.securityToken.channelId (some ⟨opened, []⟩)) := by
    rw [executeTasks_eq]
    · rfl
    · simpa using hreads
  obtain ⟨channel, hchannel, -, haccepted⟩ :=
    hnothing [(chunkTask opened 2 (MessageType.opn + ChunkType.abort) 2
      (abortPayload 8 .badEncodingError), [])] rfl (by simpa using hreads)
      (fun _ => some ⟨opened, []⟩) _ rfl hexecute
  obtain rfl : opened = channel := congrArg Receiver.channel (Option.some.inj hchannel)
  obtain ⟨result, hprocess, hretval, -⟩ := haccepted false 1 3 ⟨631, Binary.nothing⟩ .good _
    [chunkTask opened 3 (MessageType.msg + ChunkType.final) 3 (NodeId.encodeNumeric 0 631)] rfl
  have hrefused : (processChunks collect (chunkTask opened 3 (MessageType.msg + ChunkType.final) 3
      (NodeId.encodeNumeric 0 631)).dst 1 [] opened).map ChunksResult.retval =
      some .badCommunicationError := rfl
  rw [hprocess, Option.map_some, hretval] at hrefused
  cases hrefused

theorem aborted_message_secondChunk :
  ∃ status client' tasks k,
    sendEncoded false 30 { opened with connection := some oneChunk } 2
        (twoPieces 631).encoded = .returns status (client', tasks) ∧
    status ≠ .good ∧
    tasks.map Task.chunkType =
      List.replicate k (some ChunkType.intermediate) ++ [some ChunkType.abort] ∧
    LeavesNothing referenceLibraries 1 tasks ⟨{ opened with chunks := [⟨2, [0xff]⟩] }, []⟩ 2 client'
  := by
  have hparts : PartsApart { opened with chunks := [⟨2, [0xff]⟩] } := by
    simp [PartsApart]
  have hstep : InStep { opened with connection := some oneChunk }
      { opened with chunks := [⟨2, [0xff]⟩] } := by
    constructor
    · rfl
    · left
      rfl
    · decide
    · intro hnext
      contradiction
    · rfl
  apply @aborted_message { opened with connection := some oneChunk }
    { opened with chunks := [⟨2, [0xff]⟩] } oneChunk rfl false 32 rfl (by decide) hstep hparts 2
    (twoPieces 631).encoded (by decide) 30 1 _ Nat.zero_lt_one [] referenceLibraries
  exact ⟨_, _, rfl, .inr (by decide)⟩

end Zuth
