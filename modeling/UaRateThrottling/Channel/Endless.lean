import UaRateThrottling.Channel.Receive

/-!
# Buffers that are never done

The loop of `processChunks` goes to the next chunk by the size in the header of the chunk, which is
taken as it is.  A chunk of size zero leaves the loop where it is.  The sequence number ends it
then, as it has been used already, but that of an OPN is not checked.

`processChunks_ends_iff` says that a buffer is done with unless the loop comes to an OPN chunk of
size zero.
-/

universe u

namespace UA.SecureChannel

variable {σ : Type u} {callback : Callback σ} {chunks : List UInt8}

/-- The loop comes from one place and state to another. -/
inductive Comes (callback : Callback σ) (chunks : List UInt8) :
    Nat → σ → SecureChannel → Nat → σ → SecureChannel → Prop
  | refl {offset : Nat} {application : σ} {channel : SecureChannel} :
    Comes callback chunks offset application channel offset application channel
  | next {offset offset' offset'' : Nat} {application application' application'' : σ}
    {channel channel' channel'' : SecureChannel} {retval : StatusCode} :
    processAt callback chunks offset application channel =
      ⟨retval, some offset', application', channel'⟩ →
    chunks.length > offset' →
    Comes callback chunks offset' application' channel' offset'' application'' channel'' →
    Comes callback chunks offset application channel offset'' application'' channel''

/-- What holds at all places the loop comes to holds at the one it is at, and at all it comes to
from the next one. -/
theorem forall_comes_iff {P : Nat → σ → SecureChannel → Prop} {offset : Nat} {application : σ}
    {channel : SecureChannel} :
  (∀ offset' application' channel',
      Comes callback chunks offset application channel offset' application' channel' →
        P offset' application' channel') ↔
    P offset application channel ∧
      ∀ next, (processAt callback chunks offset application channel).next = some next →
        chunks.length > next → ∀ offset' application' channel',
          Comes callback chunks next
            (processAt callback chunks offset application channel).application
            (processAt callback chunks offset application channel).channel offset' application'
            channel' → P offset' application' channel'
  := by
  cases hat : processAt callback chunks offset application channel with
  | mk retval next application₁ channel₁ =>
      constructor
      · intro h
        use h _ _ _ .refl
        rintro offset₁ rfl hmore offset' application' channel' hcomes
        apply h _ _ _ (.next hat hmore hcomes)
      · rintro ⟨hhere, hnext⟩ offset' application' channel' hcomes
        cases hcomes with
        | refl => apply hhere
        | next hat' hmore hcomes =>
            rw [hat] at hat'
            obtain ⟨-, rfl, rfl, rfl⟩ := ChunkStep.mk.inj hat'
            apply hnext _ rfl hmore _ _ _ hcomes

/-- The chunk is an OPN of one of the three chunk types, addressed to the channel, whose header says
that it has size zero. -/
structure IsEmptyOpn (header : SecureConversationMessageHeader) (channel : SecureChannel) :
    Prop where
  channelId : header.secureChannelId = channel.securityToken.channelId
  opn : header.messageHeader.messageTypeAndChunkType &&& 0x00ffffff = MessageType.opn
  chunkType : header.messageHeader.messageTypeAndChunkType &&& 0xff000000 ∈
    [ChunkType.intermediate, ChunkType.final, ChunkType.abort]
  size : header.messageHeader.messageSize = 0

/-- There is such a chunk at the place. -/
def EmptyOpnAt (chunks : List UInt8) (offset : Nat) (channel : SecureChannel) : Prop :=
  ¬(chunks.length > 3 ∧ (chunks.drop offset).take 3 = [0x45, 0x52, 0x52]) ∧
    ∃ header rest, SecureConversationMessageHeader.decode (chunks.drop offset) =
      some (header, rest) ∧ IsEmptyOpn header channel

/-! ### How far a chunk goes -/

theorem length_decodeUInt32 {bytes rest : List UInt8} {n : UInt32}
    (h : decodeUInt32 bytes = some (n, rest)) :
  bytes.length = rest.length + 4
  := by
  obtain ⟨⟨m, rest'⟩, hdecode, heq⟩ := Option.map_eq_some_iff.mp h
  obtain ⟨-, rfl⟩ := Prod.mk.inj heq
  obtain ⟨rfl, hlength⟩ := LittleEndian.eq_drop_of_decode hdecode
  rw [List.length_drop]
  omega

theorem length_decodeHeader {bytes rest : List UInt8} {header : TcpMessageHeader}
    (h : TcpMessageHeader.decode bytes = some (header, rest)) :
  bytes.length = rest.length + 8
  := by
  obtain ⟨⟨t, rest₁⟩, htype, h⟩ := Option.bind_eq_some_iff.mp h
  obtain ⟨⟨size, rest₂⟩, hsize, h⟩ := Option.bind_eq_some_iff.mp h
  obtain ⟨-, rfl⟩ := Prod.mk.inj (Option.some.inj h)
  rw [length_decodeUInt32 htype, length_decodeUInt32 hsize]

theorem length_decodeError {bytes rest : List UInt8} {errorMessage : TcpErrorMessage}
    (h : TcpErrorMessage.decode bytes = some (errorMessage, rest)) :
  rest.length ≤ bytes.length
  := by
  obtain ⟨⟨error, rest₁⟩, herror, h⟩ := Option.bind_eq_some_iff.mp h
  obtain ⟨⟨reason, rest₂⟩, hreason, h⟩ := Option.bind_eq_some_iff.mp h
  obtain ⟨-, rfl⟩ := Prod.mk.inj (Option.some.inj h)
  obtain ⟨⟨length, rest₃⟩, hlength, hreason⟩ := Option.bind_eq_some_iff.mp hreason
  rw [length_decodeUInt32 herror, length_decodeUInt32 hlength]
  dsimp only at hreason
  split at hreason
  · obtain ⟨-, rfl⟩ := Prod.mk.inj (Option.some.inj hreason)
    omega
  · split at hreason
    · cases hreason
    · obtain ⟨-, rfl⟩ := Prod.mk.inj (Option.some.inj hreason)
      rw [List.length_drop]
      omega

/-- Past an error message the loop is further on. -/
theorem lt_of_processError {offset offset' : Nat} {application application' : σ}
    {channel channel' : SecureChannel} {retval : StatusCode}
    (h : processError callback chunks offset application channel =
      ⟨retval, some offset', application', channel'⟩) :
  offset < offset'
  := by
  rw [processError] at h
  cases hheader : TcpMessageHeader.decode (chunks.drop offset) with
  | none =>
      rw [hheader] at h
      cases h
  | some decoded =>
      obtain ⟨header, rest⟩ := decoded
      cases herror : TcpErrorMessage.decode rest with
      | none =>
          simp only [hheader, herror] at h
          cases h
      | some decoded =>
          obtain ⟨errorMessage, rest'⟩ := decoded
          simp only [hheader, herror, ChunkStep.mk.injEq, Option.some.injEq] at h
          have hlength := length_decodeHeader hheader
          have hrest := length_decodeError herror
          rw [List.length_drop] at hlength
          omega

/-- A chunk takes the loop further on by the size in its header, unless it ends the loop. -/
theorem next_dispatchChunk {offset offset' k : Nat} {header : TcpMessageHeader}
    {requestId : UInt32} {application application' : σ} {channel channel' : SecureChannel}
    {retval : StatusCode}
    (h : dispatchChunk callback chunks offset k header requestId application channel =
      ⟨retval, some offset', application', channel'⟩) :
  offset' = offset + header.messageSize.toNat ∧
    header.messageTypeAndChunkType &&& 0xff000000 ∈
      [ChunkType.intermediate, ChunkType.final, ChunkType.abort]
  := by
  simp only [dispatchChunk] at h
  split at h
  · rename_i htype
    rw [htype]
    simp only [ChunkStep.mk.injEq, Option.some.injEq] at h
    use h.2.1.symm
    simp
  · split at h
    · rename_i htype
      rw [htype]
      have hnext : offset + header.messageSize.toNat = offset' := by
        split at h <;> apply Option.some.inj (congrArg ChunkStep.next h)
      use hnext.symm
      simp
    · split at h
      · rename_i htype
        rw [htype]
        simp only [ChunkStep.mk.injEq, Option.some.injEq] at h
        use h.2.1.symm
        simp
      · cases h

/-- A chunk of size zero has no content: nothing is called back, and the channel keeps everything
but its parts of messages. -/
theorem dispatchChunk_empty (hlength : chunks.length < 2 ^ 63) {offset k : Nat} (hk : 0 < k)
    (hk' : k < 2 ^ 63) {header : TcpMessageHeader} (hsize : header.messageSize = 0)
    (htype : header.messageTypeAndChunkType &&& 0xff000000 ∈
      [ChunkType.intermediate, ChunkType.final, ChunkType.abort])
    (requestId : UInt32) (application : σ) (channel : SecureChannel) :
  ∃ parts, dispatchChunk callback chunks offset k header requestId application channel =
    ⟨.good, some offset, application, { channel with chunks := parts }⟩
  := by
  have hchunklength : chunks.length - (offset + k) < (2 ^ 64 + 0 - k) % 2 ^ 64 := by
    omega
  have hzero : (0 : UInt32).toNat = 0 := rfl
  rw [dispatchChunk]
  dsimp only
  rw [hsize, hzero, Nat.add_zero offset, appendChunk, finalizeChunk, if_pos hchunklength,
    if_pos hchunklength]
  simp only [List.mem_cons, List.not_mem_nil, or_false] at htype
  rcases htype with htype | htype | htype
  · rw [if_pos htype]
    exact ⟨_, rfl⟩
  · rw [htype, if_neg (by decide), if_pos rfl]
    exact ⟨_, rfl⟩
  · rw [htype, if_neg (by decide), if_neg (by decide), if_pos rfl]
    exact ⟨_, rfl⟩

/-! ### A sequence number is used once -/

theorem receiveSequenceNumber_processSequenceNumber {channel : SecureChannel} {n : UInt32}
    (h : (channel.processSequenceNumber n).1 = .good) :
  (channel.processSequenceNumber n).2.receiveSequenceNumber = n
  := by
  rw [processSequenceNumber] at h ⊢
  split at h
  · rename_i hne
    rw [if_pos hne]
    split at h
    · rename_i hroll
      rw [if_pos hroll]
      simp
    · cases h
  · rename_i heq
    rw [if_neg heq]
    apply (not_not.mp heq).symm

/-- A number that has been used is not taken again. -/
theorem processSequenceNumber_used {channel : SecureChannel} {n : UInt32}
    (h : channel.receiveSequenceNumber = n) :
  channel.processSequenceNumber n = (.badSecurityChecksFailed, channel)
  := by
  have hne : n ≠ n + 1 := by
    rw [ne_eq, ← UInt32.toNat_inj, UInt32.toNat_add]
    have := n.toNat_lt
    simp only [UInt32.reduceToNat]
    omega
  have hroll : ¬(n + 1 > 4294966271 ∧ n < 1024) := by
    rw [gt_iff_lt, UInt32.lt_iff_toNat_lt, UInt32.lt_iff_toNat_lt, UInt32.toNat_add]
    simp only [UInt32.reduceToNat]
    omega
  rw [processSequenceNumber, h, if_pos hne, if_neg hroll]

/-- A chunk that has passed the checks does not pass them again. -/
theorem checkSymmetric_used {channel : SecureChannel} {tokenId n : UInt32}
    (hused : channel.receiveSequenceNumber = n) :
  (channel.checkSymmetric tokenId n).1 ≠ .good
  := by
  have hbad : StatusCode.badCommunicationError ≠ .good := by decide
  have hrevolved : channel.revolveTokens.receiveSequenceNumber = n := by
    rw [revolveTokens]
    split <;> apply hused
  rw [checkSymmetric]
  split
  · split
    · apply hbad
    · rw [processSequenceNumber_used hrevolved]
      apply hbad
  · rw [processSequenceNumber_used hused]
    apply hbad

theorem receiveSequenceNumber_checkSymmetric {channel : SecureChannel} {tokenId n : UInt32}
    (h : (channel.checkSymmetric tokenId n).1 = .good) :
  (channel.checkSymmetric tokenId n).2.receiveSequenceNumber = n
  := by
  have hbad : StatusCode.badCommunicationError ≠ .good := by decide
  rw [checkSymmetric] at h ⊢
  split at h
  · rename_i hcurrent
    rw [if_pos hcurrent]
    split at h
    · contradiction
    · rename_i hnext
      rw [if_neg hnext]
      apply receiveSequenceNumber_processSequenceNumber
      by_contra hnumber
      apply hbad ((if_pos hnumber).symm.trans h)
  · rename_i hcurrent
    rw [if_neg hcurrent]
    apply receiveSequenceNumber_processSequenceNumber
    by_contra hnumber
    apply hbad ((if_pos hnumber).symm.trans h)

/-! ### Going on -/

/-- At an empty OPN the loop does not go on. -/
theorem processAt_emptyOpn (hlength : chunks.length < 2 ^ 63) {offset : Nat}
    {channel : SecureChannel} (h : EmptyOpnAt chunks offset channel) (application : σ) :
  ∃ parts, processAt callback chunks offset application channel =
    ⟨.good, some offset, application, { channel with chunks := parts }⟩
  := by
  obtain ⟨herr, header, rest, hdecode, hid, hopn, htype, hsize⟩ := h
  rw [processAt, if_neg herr, processChunk]
  simp only [hdecode, hid, ne_eq, not_true_eq_false, if_false, hopn, if_true]
  apply dispatchChunk_empty hlength (by decide) (by decide) hsize htype

/-- After a chunk that has passed the checks the loop goes further on, or it stays and the sequence
number stays. -/
theorem dispatchChunk_progress (hlength : chunks.length < 2 ^ 63) {offset offset' : Nat}
    {header : TcpMessageHeader} {requestId : UInt32} {application application' : σ}
    {channel channel' : SecureChannel} {retval : StatusCode}
    (h : dispatchChunk callback chunks offset secureMessageHeaderLength header requestId application
      channel = ⟨retval, some offset', application', channel'⟩) :
  offset < offset' ∨
    (offset' = offset ∧ channel'.receiveSequenceNumber = channel.receiveSequenceNumber)
  := by
  obtain ⟨hnext, hchunkType⟩ := next_dispatchChunk h
  by_cases hsize : header.messageSize = 0
  · right
    obtain ⟨parts, hempty⟩ := @dispatchChunk_empty σ callback chunks hlength offset
      secureMessageHeaderLength (by decide) (by decide) header hsize hchunkType requestId
      application channel
    rw [hempty] at h
    simp only [ChunkStep.mk.injEq, Option.some.injEq] at h
    obtain ⟨-, hoffset, -, rfl⟩ := h
    use hoffset.symm
  · left
    rw [← UInt32.toNat_inj, UInt32.toNat_zero] at hsize
    omega

/-- The loop ends at a chunk that is no OPN and whose sequence number has been used. -/
theorem next_processChunk_used {offset : Nat} {header : SecureConversationMessageHeader}
    {tokenId : UInt32} {sequenceHeader : SequenceHeader} {rest rest' rest'' : List UInt8}
    (hdecode : SecureConversationMessageHeader.decode (chunks.drop offset) = some (header, rest))
    (htype : header.messageHeader.messageTypeAndChunkType &&& 0x00ffffff ≠ MessageType.opn)
    (htoken : decodeUInt32 rest = some (tokenId, rest'))
    (hsequence : SequenceHeader.decode rest' = some (sequenceHeader, rest''))
    {channel : SecureChannel}
    (hused : channel.receiveSequenceNumber = sequenceHeader.sequenceNumber) (application : σ) :
  (processChunk callback chunks offset application channel).next = none
  := by
  rw [processChunk]
  simp only [hdecode, htoken, hsequence, if_neg htype, if_pos (checkSymmetric_used hused)]
  split <;> rfl

/-- Elsewhere the loop goes further on, or it ends the next time. -/
theorem processAt_progress (hlength : chunks.length < 2 ^ 63) {offset offset' : Nat}
    {application application' : σ} {channel channel' : SecureChannel} {retval : StatusCode}
    (hopn : ¬EmptyOpnAt chunks offset channel)
    (h : processAt callback chunks offset application channel =
      ⟨retval, some offset', application', channel'⟩) :
  offset < offset' ∨
    (offset' = offset ∧ (processAt callback chunks offset application' channel').next = none)
  := by
  by_cases herr : chunks.length > 3 ∧ (chunks.drop offset).take 3 = [0x45, 0x52, 0x52]
  · rw [processAt, if_pos herr] at h
    left
    apply lt_of_processError h
  · rw [processAt, if_neg herr, processChunk] at h
    rw [processAt, if_neg herr]
    cases hdecode : SecureConversationMessageHeader.decode (chunks.drop offset) with
    | none =>
        rw [hdecode] at h
        cases h
    | some decoded =>
        obtain ⟨header, rest⟩ := decoded
        simp only [hdecode] at h
        split at h
        · cases h
        · rename_i hid
          by_cases htype : header.messageHeader.messageTypeAndChunkType &&& 0x00ffffff =
              MessageType.opn
          · rw [if_pos htype] at h
            obtain ⟨hnext, hchunkType⟩ := next_dispatchChunk h
            left
            by_contra hstays
            apply hopn
            use herr, header, rest, hdecode, not_not.mp hid, htype, hchunkType
            rw [← UInt32.toNat_inj, UInt32.toNat_zero]
            omega
          · rw [if_neg htype] at h
            cases htoken : decodeUInt32 rest with
            | none =>
                rw [htoken] at h
                cases h
            | some decoded =>
                obtain ⟨tokenId, rest⟩ := decoded
                cases hsequence : SequenceHeader.decode rest with
                | none =>
                    simp only [htoken, hsequence] at h
                    cases h
                | some decoded =>
                    obtain ⟨sequenceHeader, rest⟩ := decoded
                    simp only [htoken, hsequence] at h
                    split at h
                    · cases h
                    · rename_i hgood
                      rcases dispatchChunk_progress hlength h with hlt | ⟨hoffset, hnumber⟩
                      · left
                        apply hlt
                      · right
                        use hoffset
                        apply next_processChunk_used hdecode htype htoken hsequence
                        rw [hnumber]
                        apply receiveSequenceNumber_checkSymmetric (not_not.mp hgood)

/-- When the loop goes on for ever from a place it has come to, it does so from the start. -/
theorem none_of_comes {offset offset' : Nat} {application application' : σ}
    {channel channel' : SecureChannel}
    (hcomes : Comes callback chunks offset application channel offset' application' channel')
    (h : ∀ fuel, processChunksFrom callback chunks fuel offset' application' channel' = none) :
  ∀ fuel, processChunksFrom callback chunks fuel offset application channel = none
  := by
  induction hcomes with
  | refl => apply h
  | next hat hlt _ ih =>
      intro fuel
      cases fuel with
      | zero => rfl
      | succ fuel =>
          rw [processChunksFrom, hat]
          simp only [hlt, if_true]
          apply ih h

/-- At an empty OPN it goes on for ever. -/
theorem none_of_emptyOpn (hlength : chunks.length < 2 ^ 63) {offset : Nat}
    (hoffset : offset < chunks.length) {channel : SecureChannel}
    (h : EmptyOpnAt chunks offset channel) (application : σ) (fuel : Nat) :
  processChunksFrom callback chunks fuel offset application channel = none
  := by
  induction fuel generalizing channel with
  | zero => rfl
  | succ fuel ih =>
      obtain ⟨parts, hat⟩ :=
        @processAt_emptyOpn σ callback chunks hlength offset channel h application
      rw [processChunksFrom, hat]
      simp only [gt_iff_lt, hoffset, if_true]
      apply ih
      obtain ⟨herr, header, rest, hdecode, hid, hopn, htype, hsize⟩ := h
      exact ⟨herr, header, rest, hdecode, hid, hopn, htype, hsize⟩

/-- An iteration that ends the loop gives its result. -/
theorem ends_of_next {offset : Nat} {application : σ} {channel : SecureChannel}
    (h : (processAt callback chunks offset application channel).next = none) :
  processChunksFrom callback chunks 1 offset application channel =
    some ⟨(processAt callback chunks offset application channel).retval,
      (processAt callback chunks offset application channel).application,
      (processAt callback chunks offset application channel).channel⟩
  := by
  rw [processChunksFrom]
  cases hat : processAt callback chunks offset application channel with
  | mk retval next application' channel' =>
      rw [hat] at h
      dsimp only at h
      rw [h]

/-- The loop ends when it does not come to an empty OPN: it goes further on every other time at the
least. -/
theorem ends_of_comes (hlength : chunks.length < 2 ^ 63) {offset : Nat} {application : σ}
    {channel : SecureChannel}
    (hopn : ∀ offset' application' channel',
      Comes callback chunks offset application channel offset' application' channel' →
        ¬EmptyOpnAt chunks offset' channel') :
  ∃ fuel result, processChunksFrom callback chunks fuel offset application channel = some result
  := by
  generalize hleft : chunks.length - offset = left
  induction left using Nat.strongRecOn generalizing offset application channel with
  | ind left ih =>
      cases hat : processAt callback chunks offset application channel with
      | mk retval next application' channel' =>
          cases next with
          | none => exact ⟨1, _, ends_of_next (congrArg ChunkStep.next hat)⟩
          | some offset' =>
              by_cases hmore : chunks.length > offset'
              · have hopn' : ∀ offset'' application'' channel'',
                    Comes callback chunks offset' application' channel' offset'' application''
                      channel'' → ¬EmptyOpnAt chunks offset'' channel'' := by
                  intro offset'' application'' channel'' hcomes
                  apply hopn offset'' application'' channel'' (.next hat hmore hcomes)
                have hrest : ∃ fuel result, processChunksFrom callback chunks fuel offset'
                    application' channel' = some result := by
                  rcases processAt_progress hlength (hopn _ _ _ .refl) hat with hlt | ⟨rfl, hends⟩
                  · apply ih (chunks.length - offset') (by omega) hopn' rfl
                  · exact ⟨1, _, ends_of_next hends⟩
                obtain ⟨fuel, result, hresult⟩ := hrest
                use fuel + 1, result
                rw [processChunksFrom, hat]
                simp only [hmore, if_true, hresult]
              · use 1, ⟨retval, application', channel'⟩
                rw [processChunksFrom, hat]
                simp only [hmore, if_false]

/-- A buffer is done with exactly when the loop does not come to an empty OPN. -/
theorem processChunks_ends_iff (hlength : chunks.length < 2 ^ 63) (application : σ)
    (channel : SecureChannel) :
  (∃ fuel result, processChunks callback chunks fuel application channel = some result) ↔
    ∀ offset application' channel',
      Comes callback chunks 0 application channel offset application' channel' →
        ¬EmptyOpnAt chunks offset channel'
  := by
  constructor
  · rintro ⟨fuel, result, hresult⟩ offset application' channel' hcomes hopn
    have hoffset : offset < chunks.length := by
      obtain ⟨-, header, rest, hdecode, -⟩ := hopn
      obtain ⟨⟨messageHeader, rest₁⟩, hheader, -⟩ := Option.bind_eq_some_iff.mp hdecode
      have hlength := length_decodeHeader hheader
      rw [List.length_drop] at hlength
      omega
    have hnone := none_of_comes hcomes
      (none_of_emptyOpn hlength hoffset hopn application') fuel
    rw [processChunks, hnone] at hresult
    cases hresult
  · intro hopn
    obtain ⟨fuel, result, hresult⟩ := ends_of_comes hlength hopn
    use fuel, result, hresult

end UA.SecureChannel
