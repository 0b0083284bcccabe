import UaRateThrottling.Channel.Direct
import UaRateThrottling.Channel.RoundTrip
import UaRateThrottling.Channel.Segments

/-!
# Messages over a stream

The chunks of a secure channel are processed one after the other, and an iteration over a buffer
looks at nothing behind its chunk.  So it does not matter how the stream of chunks has been divided
into the buffers that the connection hands on.
-/

namespace UA

/-! ### What follows does not matter to a decoder -/

theorem decodeUInt32_append {bytes rest : List UInt8} {n : UInt32}
    (h : decodeUInt32 bytes = some (n, rest)) (more : List UInt8) :
  decodeUInt32 (bytes ++ more) = some (n, rest ++ more)
  := by
  obtain ⟨⟨m, rest'⟩, hdecode, heq⟩ := Option.map_eq_some_iff.mp h
  obtain ⟨rfl, rfl⟩ := Prod.mk.inj heq
  rw [decodeUInt32, LittleEndian.decode_append hdecode]
  rfl

theorem exists_decodeUInt32 {bytes : List UInt8} (h : 4 ≤ bytes.length) :
  ∃ n, decodeUInt32 bytes = some (n, bytes.drop 4)
  := by
  obtain ⟨n, rest, hdecode⟩ := LittleEndian.exists_decode h
  use UInt32.ofNat n
  rw [decodeUInt32, hdecode, (LittleEndian.eq_drop_of_decode hdecode).1]
  rfl

theorem SecureConversationMessageHeader.decode_append {bytes rest : List UInt8}
    {header : SecureConversationMessageHeader} (h : decode bytes = some (header, rest))
    (more : List UInt8) :
  decode (bytes ++ more) = some (header, rest ++ more)
  := by
  simp only [decode, TcpMessageHeader.decode, Option.bind_eq_bind, Option.bind_eq_some_iff,
    Option.some.injEq, Prod.mk.injEq, Prod.exists] at h
  obtain ⟨messageHeader, rest₂, ⟨type, rest₀, htype, size, rest₁, hsize, rfl, rfl⟩, id, rest₃, hid,
    rfl, rfl⟩ := h
  simp only [decode, TcpMessageHeader.decode, Option.bind_eq_bind, Option.bind_some,
    decodeUInt32_append htype, decodeUInt32_append hsize, decodeUInt32_append hid]

theorem SequenceHeader.decode_append {bytes rest : List UInt8} {header : SequenceHeader}
    (h : decode bytes = some (header, rest)) (more : List UInt8) :
  decode (bytes ++ more) = some (header, rest ++ more)
  := by
  simp only [decode, Option.bind_eq_bind, Option.bind_eq_some_iff, Option.some.injEq,
    Prod.mk.injEq, Prod.exists] at h
  obtain ⟨number, rest₀, hnumber, id, rest₁, hid, rfl, rfl⟩ := h
  simp only [decode, Option.bind_eq_bind, Option.bind_some, decodeUInt32_append hnumber,
    decodeUInt32_append hid]

/-- A chunk that carries a part of a message: it has all its headers, and is no error message. -/
structure DataChunk (recvBufferSize : UInt32) (chunk : List UInt8) : Prop where
  isChunk : IsChunk recvBufferSize chunk
  headers : secureMessageHeaderLength ≤ chunk.length
  not_err : chunk.take 3 ≠ [0x45, 0x52, 0x52]

variable {recvBufferSize : UInt32} {chunk : List UInt8}

/-- The headers of a chunk; its size is its length. -/
theorem DataChunk.headers_eq (h : DataChunk recvBufferSize chunk) :
  ∃ type size id token sequenceHeader,
    SecureConversationMessageHeader.decode chunk = some (⟨⟨type, size⟩, id⟩, chunk.drop 12) ∧
    decodeUInt32 (chunk.drop 12) = some (token, chunk.drop 16) ∧
    SequenceHeader.decode (chunk.drop 16) = some (sequenceHeader, chunk.drop 24) ∧
    size.toNat = chunk.length
  := by
  obtain ⟨hchunk, hlength, -⟩ := h
  rw [secureMessageHeaderLength] at hlength
  have hdecode : ∀ k, k + 4 ≤ 24 →
      ∃ n, decodeUInt32 (chunk.drop k) = some (n, chunk.drop (k + 4)) := by
    intro k hk
    obtain ⟨n, hn⟩ := @exists_decodeUInt32 (chunk.drop k) (by
      rw [List.length_drop]
      omega)
    use n
    rw [hn, List.drop_drop]
  obtain ⟨type, htype⟩ := hdecode 0 (by omega)
  obtain ⟨size, hsize⟩ := hdecode 4 (by omega)
  obtain ⟨id, hid⟩ := hdecode 8 (by omega)
  obtain ⟨token, htoken⟩ := hdecode 12 (by omega)
  obtain ⟨number, hnumber⟩ := hdecode 16 (by omega)
  obtain ⟨requestId, hrequestId⟩ := hdecode 20 (by omega)
  rw [List.drop_zero] at htype
  use type, size, id, token, ⟨number, requestId⟩
  refine ⟨?_, htoken, ?_, ?_⟩
  · simp only [SecureConversationMessageHeader.decode, TcpMessageHeader.decode,
      Option.bind_eq_bind, Option.bind_some, htype, hsize, hid]
  · simp only [SequenceHeader.decode, Option.bind_eq_bind, Option.bind_some, hnumber, hrequestId]
  · have hfront : chunkFront recvBufferSize chunk = .frame chunk.length := hchunk
    rw [chunkFront, chunkLengthAt, hsize, Option.map_some] at hfront
    split_ifs at hfront
    dsimp only at hfront
    split_ifs at hfront
    apply Framing.Front.frame.inj hfront

namespace SecureChannel

universe u

variable {σ : Type u} {callback : Callback σ}

/-- The outcome of an iteration, with the chunk further back in the buffer. -/
def ChunkStep.shift (k : Nat) (step : ChunkStep σ) : ChunkStep σ :=
  { step with next := step.next.map (k + ·) }

theorem drop_middle (pre : List UInt8) (k : Nat) (bytes : List UInt8) :
  (pre ++ bytes).drop (pre.length + k) = bytes.drop k
  := List.drop_length_add_append ..

/-- A part that is complete is appended in the middle of a buffer as it is at its beginning. -/
theorem appendChunk_middle {k n : Nat} (h : k + n ≤ chunk.length) (pre rest : List UInt8)
    (channel : SecureChannel) (requestId : UInt32) :
  channel.appendChunk requestId (pre ++ (chunk ++ rest)) (pre.length + k) n =
    channel.appendChunk requestId chunk k n
  := by
  have htake : ((pre ++ (chunk ++ rest)).drop (pre.length + k)).take n =
      (chunk.drop k).take n := by
    rw [drop_middle, List.drop_append_of_le_length (by omega),
      List.take_append_of_le_length (by rw [List.length_drop]; omega)]
  rw [appendChunk, appendChunk, htake, if_neg, if_neg (by omega)]
  rw [List.length_append, List.length_append]
  omega

theorem finalizeChunk_middle {k n : Nat} (h : k + n ≤ chunk.length) (pre rest : List UInt8)
    (channel : SecureChannel) (requestId : UInt32) :
  channel.finalizeChunk requestId (pre ++ (chunk ++ rest)) (pre.length + k) n =
    channel.finalizeChunk requestId chunk k n
  := by
  have htake : ((pre ++ (chunk ++ rest)).drop (pre.length + k)).take n =
      (chunk.drop k).take n := by
    rw [drop_middle, List.drop_append_of_le_length (by omega),
      List.take_append_of_le_length (by rw [List.length_drop]; omega)]
  rw [finalizeChunk, finalizeChunk, htake, if_neg, if_neg (by omega)]
  rw [List.length_append, List.length_append]
  omega

/-- What becomes of a chunk that has passed the checks does not depend on where it is. -/
theorem dispatchChunk_middle {header : TcpMessageHeader} {k : Nat}
    (hsize : header.messageSize.toNat = chunk.length) (hk : k ≤ chunk.length)
    (pre rest : List UInt8) (requestId : UInt32) (application : σ) (channel : SecureChannel) :
  dispatchChunk callback (pre ++ (chunk ++ rest)) pre.length k header requestId application
      channel =
    (dispatchChunk callback chunk 0 k header requestId application channel).shift pre.length
  := by
  have hlt : chunk.length < 2 ^ 32 := by
    rw [← hsize]
    apply header.messageSize.toNat_lt
  have hcontent : k + (2 ^ 64 + chunk.length - k) % 2 ^ 64 ≤ chunk.length := by omega
  simp only [dispatchChunk, hsize, appendChunk_middle hcontent, finalizeChunk_middle hcontent,
    Nat.zero_add]
  split_ifs <;> rfl

/-- What becomes of a chunk does not depend on where it is in a buffer, and on what else there
is. -/
theorem processAt_middle (h : DataChunk recvBufferSize chunk) (pre rest : List UInt8)
    (application : σ) (channel : SecureChannel) :
  processAt callback (pre ++ (chunk ++ rest)) pre.length application channel =
    (processAt callback chunk 0 application channel).shift pre.length
  := by
  obtain ⟨type, size, id, token, sequenceHeader, hheader, htoken, hsequence, hsize⟩ :=
    h.headers_eq
  have hheaders := h.headers
  rw [secureMessageHeaderLength] at hheaders
  have hdrop : (pre ++ (chunk ++ rest)).drop pre.length = chunk ++ rest := List.drop_left ..
  have hnot : ¬((pre ++ (chunk ++ rest)).length > 3 ∧
      ((pre ++ (chunk ++ rest)).drop pre.length).take 3 = [0x45, 0x52, 0x52]) := by
    rintro ⟨-, herr⟩
    rw [hdrop, List.take_append_of_le_length (by omega)] at herr
    apply h.not_err herr
  have hnot' : ¬(chunk.length > 3 ∧ (chunk.drop 0).take 3 = [0x45, 0x52, 0x52]) := by
    rintro ⟨-, herr⟩
    apply h.not_err herr
  rw [processAt, if_neg hnot, processAt, if_neg hnot', processChunk, processChunk, hdrop,
    List.drop_zero, SecureConversationMessageHeader.decode_append hheader, hheader]
  dsimp only
  rw [decodeUInt32_append htoken, htoken]
  dsimp only
  rw [SequenceHeader.decode_append hsequence, hsequence]
  dsimp only
  have hopn := @dispatchChunk_middle chunk σ callback ⟨type, size⟩ 12 hsize (by omega) pre rest 0
    application channel
  have hdata := fun channel => @dispatchChunk_middle chunk σ callback ⟨type, size⟩
    secureMessageHeaderLength hsize h.headers pre rest sequenceHeader.requestId application channel
  simp only [hopn, hdata]
  split_ifs <;> rfl

/-- A chunk is gone through to its end, or is the last one that is looked at. -/
theorem processAt_next (h : DataChunk recvBufferSize chunk) (application : σ)
    (channel : SecureChannel) :
  ((processAt callback chunk 0 application channel).next = none ∧
      (processAt callback chunk 0 application channel).retval ≠ .good) ∨
    (processAt callback chunk 0 application channel).next = some chunk.length ∧
      (processAt callback chunk 0 application channel).retval = .good
  := by
  obtain ⟨type, size, id, token, sequenceHeader, hheader, htoken, hsequence, hsize⟩ :=
    h.headers_eq
  have hnot : ¬(chunk.length > 3 ∧ (chunk.drop 0).take 3 = [0x45, 0x52, 0x52]) := by
    rintro ⟨-, herr⟩
    apply h.not_err herr
  have hdispatch : ∀ k requestId channel,
      ((dispatchChunk callback chunk 0 k ⟨type, size⟩ requestId application channel).next = none ∧
        (dispatchChunk callback chunk 0 k ⟨type, size⟩ requestId application channel).retval ≠
          .good) ∨
      (dispatchChunk callback chunk 0 k ⟨type, size⟩ requestId application channel).next =
          some chunk.length ∧
        (dispatchChunk callback chunk 0 k ⟨type, size⟩ requestId application channel).retval =
          .good := by
    intro k requestId channel
    have hbad : StatusCode.badDecodingError ≠ .good := by decide
    simp only [dispatchChunk, hsize, Nat.zero_add]
    split_ifs <;> tauto
  have hbad : StatusCode.badCommunicationError ≠ .good := by decide
  rw [processAt, if_neg hnot, processChunk, List.drop_zero, hheader]
  dsimp only
  rw [htoken]
  dsimp only
  rw [hsequence]
  dsimp only
  split_ifs
  · left
    exact ⟨rfl, hbad⟩
  · apply hdispatch
  · left
    exact ⟨rfl, ‹_›⟩
  · apply hdispatch

/-! ### Buffers with several chunks -/

/-- The chunks one after the other, until one fails. -/
def processEach (callback : Callback σ) : List (List UInt8) → σ → SecureChannel → ChunksResult σ
  | [], application, channel => ⟨.good, application, channel⟩
  | chunk :: chunks, application, channel =>
    match processAt callback chunk 0 application channel with
    | ⟨retval, none, application, channel⟩ => ⟨retval, application, channel⟩
    | ⟨_, some _, application, channel⟩ => processEach callback chunks application channel

/-- The loop over a buffer, at the beginning of a chunk. -/
theorem processChunksFrom_middle {chunks : List (List UInt8)} {fuel : Nat} (pre : List UInt8)
    (hchunk : DataChunk recvBufferSize chunk)
    (hchunks : ∀ chunk ∈ chunks, DataChunk recvBufferSize chunk) (hfuel : chunks.length < fuel)
    (application : σ) (channel : SecureChannel) :
  processChunksFrom callback (pre ++ (chunk ++ chunks.flatten)) fuel pre.length application
      channel =
    some (processEach callback (chunk :: chunks) application channel)
  := by
  induction chunks generalizing pre chunk fuel application channel with
  | nil =>
      obtain ⟨fuel, rfl⟩ := Nat.exists_eq_succ_of_ne_zero (Nat.ne_zero_of_lt hfuel)
      have hnext := @processAt_next _ _ σ callback hchunk application channel
      rw [processChunksFrom, processAt_middle hchunk, processEach]
      cases hstep : processAt callback chunk 0 application channel with
      | mk retval next application' channel' =>
          rw [hstep] at hnext
          obtain ⟨rfl, -⟩ | ⟨rfl, rfl⟩ := hnext
          · rfl
          · simp [ChunkStep.shift, processEach]
  | cons chunk' chunks ih =>
      obtain ⟨fuel, rfl⟩ := Nat.exists_eq_succ_of_ne_zero (Nat.ne_zero_of_lt hfuel)
      have hnext := @processAt_next _ _ σ callback hchunk application channel
      have hchunk' := hchunks chunk' List.mem_cons_self
      rw [processChunksFrom, processAt_middle hchunk, processEach]
      cases hstep : processAt callback chunk 0 application channel with
      | mk retval next application' channel' =>
          rw [hstep] at hnext
          obtain ⟨rfl, -⟩ | ⟨rfl, rfl⟩ := hnext
          · rfl
          · have hlonger : (pre ++ (chunk ++ (chunk' :: chunks).flatten)).length >
                pre.length + chunk.length := by
              have hheaders := hchunk'.headers
              rw [secureMessageHeaderLength] at hheaders
              rw [List.length_append, List.length_append, List.flatten_cons, List.length_append]
              omega
            have hrest := ih (pre ++ chunk) hchunk'
              (fun c hc => hchunks c (List.mem_cons_of_mem _ hc)) (Nat.lt_of_succ_lt_succ hfuel)
              application' channel'
            rw [List.length_append, List.append_assoc] at hrest
            simp only [ChunkStep.shift, Option.map_some, if_pos hlonger]
            apply hrest

/-- The chunks of a buffer are processed one after the other, each as if it had come alone. -/
theorem processChunks_flatten {chunks : List (List UInt8)} (hne : chunks ≠ [])
    (hchunks : ∀ chunk ∈ chunks, DataChunk recvBufferSize chunk) {fuel : Nat}
    (hfuel : chunks.length ≤ fuel) (application : σ) (channel : SecureChannel) :
  processChunks callback chunks.flatten fuel application channel =
    some (processEach callback chunks application channel)
  := by
  cases chunks with
  | nil => contradiction
  | cons chunk chunks =>
      apply processChunksFrom_middle [] (hchunks chunk List.mem_cons_self)
        (fun c hc => hchunks c (List.mem_cons_of_mem _ hc)) hfuel

/-- What comes after a chunk that fails is not looked at. -/
theorem processEach_append {chunks : List (List UInt8)}
    (hchunks : ∀ chunk ∈ chunks, DataChunk recvBufferSize chunk) (chunks' : List (List UInt8))
    (application : σ) (channel : SecureChannel) :
  processEach callback (chunks ++ chunks') application channel =
    if (processEach callback chunks application channel).retval = .good then
      processEach callback chunks' (processEach callback chunks application channel).application
        (processEach callback chunks application channel).channel
    else processEach callback chunks application channel
  := by
  induction chunks generalizing application channel with
  | nil => rfl
  | cons chunk chunks ih =>
      have hnext := @processAt_next _ _ σ callback (hchunks chunk List.mem_cons_self) application
        channel
      rw [List.cons_append, processEach, processEach]
      cases hstep : processAt callback chunk 0 application channel with
      | mk retval next application' channel' =>
          rw [hstep] at hnext
          obtain ⟨rfl, hbad⟩ | ⟨rfl, rfl⟩ := hnext
          · rw [if_neg hbad]
          · apply ih (fun c hc => hchunks c (List.mem_cons_of_mem _ hc))

/-! ### The stream of a connection -/

/-- `UA_Server_processBinaryMessage` on a connection that has a channel, for what is handed on of
each segment.  When it is nothing, there is no job. -/
def processMessages (callback : Callback σ) (fuel : Nat) : List (List UInt8) → σ →
    SecureChannel → Option (σ × SecureChannel)
  | [], application, channel => some (application, channel)
  | message :: messages, application, channel =>
    if message.length = 0 then processMessages callback fuel messages application channel
    else
      (processChunks callback message fuel application channel).bind (fun result =>
        processMessages callback fuel messages result.application result.channel)

theorem processMessages_groups {groups : List (List (List UInt8))}
    (hchunks : ∀ chunk ∈ groups.flatten, DataChunk recvBufferSize chunk) {fuel : Nat}
    (hfuel : groups.flatten.length ≤ fuel) {application application' : σ}
    {channel channel' : SecureChannel}
    (h : processEach callback groups.flatten application channel =
      ⟨.good, application', channel'⟩) :
  processMessages callback fuel (groups.map List.flatten) application channel =
    some (application', channel')
  := by
  induction groups generalizing application channel with
  | nil =>
      simp only [List.flatten_nil, processEach, ChunksResult.mk.injEq, true_and] at h
      obtain ⟨rfl, rfl⟩ := h
      rfl
  | cons group groups ih =>
      rw [List.flatten_cons, List.length_append] at hfuel
      rw [List.flatten_cons] at h hchunks
      have hgroup := fun c hc => hchunks c (List.mem_append_left _ hc)
      have hgroups := fun c hc => hchunks c (List.mem_append_right _ hc)
      rw [processEach_append hgroup] at h
      rw [List.map_cons, processMessages]
      cases hempty : group with
      | nil =>
          rw [hempty] at h
          rw [if_pos (by simp)]
          apply ih hgroups (by omega) h
      | cons chunk chunks =>
          rw [← hempty]
          have hne : group ≠ [] := by simp [hempty]
          have hlength : group.flatten.length ≠ 0 := by
            have hheaders := (hgroup chunk (by simp [hempty])).headers
            rw [secureMessageHeaderLength] at hheaders
            rw [hempty, List.flatten_cons, List.length_append]
            omega
          have hgood : (processEach callback group application channel).retval = .good := by
            by_contra hbad
            rw [if_neg hbad] at h
            apply hbad
            rw [h]
          rw [if_pos hgood] at h
          rw [if_neg hlength, processChunks_flatten hne hgroup (by omega), Option.bind_some]
          apply ih hgroups (by omega) h

/-- However a stream of chunks is divided into segments, the channel and the application come to
the state they come to when the chunks are processed one by one. -/
theorem segments_transparent {chunks : List (List UInt8)} {rest : List UInt8}
    (hchunks : ∀ chunk ∈ chunks, DataChunk recvBufferSize chunk)
    (hrest : chunkFront recvBufferSize rest = .incomplete) {segments : List (List UInt8)}
    (hsegments : segments.flatten = chunks.flatten ++ rest) {fuel : Nat}
    (hfuel : chunks.length ≤ fuel) {application application' : σ}
    {channel channel' : SecureChannel}
    (h : processEach callback chunks application channel = ⟨.good, application', channel'⟩) :
  processMessages callback fuel (receiveSegments recvBufferSize [] segments).1 application
      channel =
    some (application', channel')
  := by
  obtain ⟨groups, rfl, -, hreceive⟩ :=
    receiveSegments_groups (fun c hc => (hchunks c hc).isChunk) hrest hsegments
  rw [hreceive]
  apply processMessages_groups hchunks hfuel h

/-- The two chunks of a message. -/
def twoChunks : List (List UInt8) :=
  [encodeChunk (MessageType.msg + ChunkType.intermediate) ⟨1, 1, 1, 9⟩ [1, 2],
    encodeChunk (MessageType.msg + ChunkType.final) ⟨1, 1, 2, 9⟩ [3]]

theorem segments_transparent_split :
  processMessages collect 2 (receiveSegments 64 []
      [twoChunks.flatten.take 30, twoChunks.flatten.drop 30 ++ [0x4d]]).1 []
      { SecureChannel.init with securityToken := ⟨1, 1, 0, 3600000⟩ } =
    some ([.message MessageType.msg 9 [1, 2, 3]],
      { SecureChannel.init with
        securityToken := ⟨1, 1, 0, 3600000⟩
        receiveSequenceNumber := 2 })
  := by
  have hchunks : ∀ chunk ∈ twoChunks, DataChunk 64 chunk := by
    intro chunk hmem
    simp only [twoChunks, List.mem_cons, List.not_mem_nil, or_false] at hmem
    rcases hmem with rfl | rfl
    · exact ⟨by decide, by decide, by decide⟩
    · exact ⟨by decide, by decide, by decide⟩
  apply @segments_transparent 64 _ collect twoChunks [0x4d] hchunks rfl _ rfl 2 (by decide)
  rfl

end SecureChannel

end UA
