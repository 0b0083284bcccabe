import UaRateThrottling.Channel.Endless
import UaRateThrottling.Channel.Manager

/-!
# Handing over the messages of a chunk

The chunk of a task is given to `UA_SecureChannel_processChunks`, which calls back
`UA_Server_processSecureChannelMessage` for every message.  That one asserts that the channel has a
connection, and a CLO message frees the channel, as does an OPN message that opens another one and
takes the place of the channel for it, while the loop goes on with the pointer.

`executeChunk_iff` says when the loop comes to its end.
-/

universe u

/-! ### What is handed over at a place -/

namespace UA.SecureChannel

variable {σ : Type u}

/-- Whether a message is handed over at a place. -/
def HandsOver (chunks : List UInt8) (offset : Nat) (channel : SecureChannel) : Prop :=
  (processAt collect chunks offset [] channel).application ≠ []

instance (chunks : List UInt8) (offset : Nat) (channel : SecureChannel) :
    Decidable (HandsOver chunks offset channel) :=
  inferInstanceAs (Decidable (_ ≠ _))

/-- Whether the channel is used at a place: its id is read after the header of a chunk, and an error
message is handed over on it. -/
def usesChannel (chunks : List UInt8) (offset : Nat) : Bool :=
  if chunks.length > 3 ∧ (chunks.drop offset).take 3 = [0x45, 0x52, 0x52] then
    ((TcpMessageHeader.decode (chunks.drop offset)).bind (fun decoded =>
      TcpErrorMessage.decode decoded.2)).isSome
  else (SecureConversationMessageHeader.decode (chunks.drop offset)).isSome

/-- An iteration hands nothing over, or one message, on a channel with the same connection. -/
inductive Handing (callback : Callback σ) (application : σ) (channel : SecureChannel) :
    ChunkStep σ → List Received → Prop
  | nothing {retval : StatusCode} {next : Option Nat} {channel' : SecureChannel} :
    Handing callback application channel ⟨retval, next, application, channel'⟩ []
  | message {retval : StatusCode} {next : Option Nat} {channel' : SecureChannel}
    {received : Received} :
    channel'.connection = channel.connection →
    Handing callback application channel
      ⟨retval, next, (callback application channel' received).1,
        (callback application channel' received).2⟩ [received]

theorem connection_processSequenceNumber (channel : SecureChannel) (sequenceNumber : UInt32) :
  (channel.processSequenceNumber sequenceNumber).2.connection = channel.connection
  := by
  obtain ⟨n, hn⟩ := processSequenceNumber_eq channel sequenceNumber
  rw [hn]

theorem connection_checkSymmetric (channel : SecureChannel) (tokenId sequenceNumber : UInt32) :
  (channel.checkSymmetric tokenId sequenceNumber).2.connection = channel.connection
  := by
  rw [checkSymmetric]
  split
  · split
    · rfl
    · dsimp only
      rw [connection_processSequenceNumber, revolveTokens]
      split <;> rfl
  · apply connection_processSequenceNumber

variable {callback : Callback σ} {chunks : List UInt8} {application : σ}
  {channel channel' : SecureChannel}

theorem handing_dispatchChunk (offset processedHeader : Nat) (header : TcpMessageHeader)
    (requestId : UInt32) (h : channel'.connection = channel.connection) :
  Handing callback application channel
    (dispatchChunk callback chunks offset processedHeader header requestId application channel')
    (dispatchChunk collect chunks offset processedHeader header requestId [] channel').application
  := by
  simp only [dispatchChunk]
  split
  · apply Handing.nothing
  · split
    · split
      · apply Handing.message
        rw [finalizeChunk_eq]
        apply h
      · apply Handing.nothing
    · split
      · apply Handing.nothing
      · apply Handing.nothing

/-- What an iteration hands over. -/
theorem handing_processAt (offset : Nat) :
  Handing callback application channel (processAt callback chunks offset application channel)
    (processAt collect chunks offset [] channel).application
  := by
  rw [processAt, processAt]
  split
  · rw [processError, processError]
    split
    · apply Handing.nothing
    · split
      · apply Handing.nothing
      · apply Handing.message rfl
  · rw [processChunk, processChunk]
    split
    · apply Handing.nothing
    · split
      · apply Handing.nothing
      · split
        · apply handing_dispatchChunk
          rfl
        · split
          · apply Handing.nothing
          · split
            · apply Handing.nothing
            · dsimp only
              split
              · apply Handing.nothing
              · apply handing_dispatchChunk
                apply connection_checkSymmetric

end UA.SecureChannel

namespace Batch

open UA UA.SecureChannel

/-- What a call does that is not made for what it is given: `strlen` and `g_base64_decode` of a null
pointer, a null pointer taken for a channel, a channel without a connection, the use of a channel
that has been freed, more written to a buffer or read from it than it holds, and a loop that does
not end. -/
inductive Fault where
  | nullString
  | nullBase64
  | nullChannel
  | noConnection
  | freedChannel
  | overflow
  | overread
  | endless
deriving DecidableEq

/-- A server: its channels, the channel that a connection points to, by the socket of the one and
the id of the other, and all else. -/
structure UaServer (σ : Type u) where
  secureChannelManager : SecureChannelManager
  attached : List (Nat × UInt32)
  application : σ
deriving DecidableEq

/-- What `UA_Server_processSecureChannelMessage` uses that is not its own: `processOPN`, which
leaves no channel when it has freed it to open another one, `processMSG`, and what becomes of
sessions whose channel is freed. -/
structure Services (σ : Type u) where
  processOPN : UaServer σ → Connection → SecureChannel → List UInt8 →
    UaServer σ × Option SecureChannel
  processMSG : UaServer σ → SecureChannel → UInt32 → List UInt8 → UaServer σ × SecureChannel
  removeSessionPointers : List Nat → σ → σ

/-- The execution of a task: the server, whether the channel of the task has been freed, and what
has gone wrong. -/
structure Execution (σ : Type u) where
  server : UaServer σ
  freed : Bool
  fault : Option Fault

section

variable {σ : Type u} (services : Services σ)

/-- `UA_Connection_detachSecureChannel` -/
def UaServer.detachSecureChannel (server : UaServer σ) (connection : Connection) : UaServer σ :=
  { server with
    secureChannelManager :=
      (server.attached.lookup connection.sockfd).elim server.secureChannelManager (fun channelId =>
        server.secureChannelManager.update (SecureChannelManager.hasId channelId)
          (SecureChannel.detach connection.sockfd))
    attached := server.attached.filter (fun pointer => pointer.1 ≠ connection.sockfd) }

/-- `Service_CloseSecureChannel`: the channel is removed from the manager, and is freed. -/
def closeSecureChannel (server : UaServer σ) (channel : SecureChannel) : UaServer σ :=
  let server' : UaServer σ := { server with
    secureChannelManager :=
      (server.secureChannelManager.close channel.securityToken.channelId).2
    application := services.removeSessionPointers channel.sessions server.application }
  channel.connection.elim server' server'.detachSecureChannel

/-- `UA_Server_processSecureChannelMessage` -/
def processSecureChannelMessage : Callback (Execution σ) := fun e channel received =>
  match channel.connection with
  | none => ({ e with fault := some .noConnection }, channel)
  | some connection =>
    match received with
    | .error _ => (e, channel)
    | .message messageType requestId message =>
      if messageType = MessageType.opn then
        match services.processOPN e.server connection channel message with
        | (server, some channel) => ({ e with server := server }, channel)
        | (server, none) => ({ e with server := server, freed := true }, channel)
      else if messageType = MessageType.msg then
        match services.processMSG e.server channel requestId message with
        | (server, channel) => ({ e with server := server }, channel)
      else if messageType = MessageType.clo then
        ({ e with server := closeSecureChannel services e.server channel, freed := true }, channel)
      else (e, channel)

/-- `UA_SecureChannel_processChunks`, from the given offset on, as far as nothing goes wrong. -/
def executeChunk (dst : List UInt8) :
    Nat → Nat → Execution σ → SecureChannel → Except Fault (Execution σ × SecureChannel)
  | 0, _, _, _ => .error .endless
  | fuel + 1, offset, e, channel =>
    if e.freed ∧ usesChannel dst offset then .error .freedChannel
    else
      match processAt (processSecureChannelMessage services) dst offset e channel with
      | ⟨_, next, e, channel⟩ =>
        match e.fault with
        | some fault => .error fault
        | none =>
          match next with
          | none => .ok (e, channel)
          | some offset =>
            if dst.length > offset then executeChunk dst fuel offset e channel
            else .ok (e, channel)

/-- Nothing goes wrong at a place of the loop: a channel that has been freed is not used, and the
channel has a connection when a message is handed over. -/
structure SafeAt (dst : List UInt8) (offset : Nat) (e : Execution σ) (channel : SecureChannel) :
    Prop where
  freed : e.freed = true → usesChannel dst offset = false
  connection : HandsOver dst offset channel → channel.connection.isSome

/-! ### When the loop comes to its end -/

/-- A message is handed over without a fault when the channel has a connection. -/
theorem fault_processSecureChannelMessage (e : Execution σ) (channel : SecureChannel)
    (received : Received) :
  (processSecureChannelMessage services e channel received).1.fault =
    if channel.connection.isSome then e.fault else some .noConnection
  := by
  rw [processSecureChannelMessage]
  cases channel.connection with
  | none => rfl
  | some connection =>
      cases received with
      | error errorMessage => rfl
      | message messageType requestId message =>
          dsimp only
          split
          · split <;> rfl
          · split
            · rfl
            · split <;> rfl

/-- An iteration goes without a fault when the channel has a connection, should a message be handed
over. -/
theorem fault_processAt {e : Execution σ} (he : e.fault = none) (dst : List UInt8) (offset : Nat)
    (channel : SecureChannel) :
  (processAt (processSecureChannelMessage services) dst offset e channel).application.fault = none ↔
    (HandsOver dst offset channel → channel.connection.isSome)
  := by
  have hhanding := @handing_processAt (Execution σ) (processSecureChannelMessage services) dst e
    channel offset
  rw [HandsOver]
  generalize processAt (processSecureChannelMessage services) dst offset e channel = step
    at hhanding
  generalize (processAt collect dst offset [] channel).application = messages at hhanding
  cases hhanding with
  | nothing => simp [he]
  | message hconnection =>
      rw [fault_processSecureChannelMessage, hconnection, he]
      cases channel.connection with
      | none => simp
      | some connection => simp

variable {services} {dst : List UInt8}

/-- Nothing goes wrong at a place when the channel has not been freed or is not used, and the
iteration goes without a fault. -/
theorem safeAt_iff {e : Execution σ} (he : e.fault = none) {offset : Nat}
    {channel : SecureChannel} :
  SafeAt dst offset e channel ↔ ¬(e.freed = true ∧ usesChannel dst offset = true) ∧
    (processAt (processSecureChannelMessage services) dst offset e channel).application.fault =
      none
  := by
  rw [fault_processAt services he]
  constructor
  · intro h
    constructor
    · rintro ⟨hfreed, huses⟩
      rw [h.freed hfreed] at huses
      cases huses
    · apply h.connection
  · rintro ⟨hfreed, hconnection⟩
    constructor
    · intro hfreed'
      apply Bool.eq_false_of_not_eq_true
      intro huses
      apply hfreed ⟨hfreed', huses⟩
    · apply hconnection

/-- The loop comes to its end when it does so without minding what goes wrong, and nothing goes
wrong at any place it comes to. -/
theorem executeChunk_eq_ok_iff {fuel offset : Nat} {e e' : Execution σ} (he : e.fault = none)
    {channel channel' : SecureChannel} :
  executeChunk services dst fuel offset e channel = .ok (e', channel') ↔
    (∃ retval, processChunksFrom (processSecureChannelMessage services) dst fuel offset e channel =
      some ⟨retval, e', channel'⟩) ∧
    ∀ offset' e' channel', Comes (processSecureChannelMessage services) dst offset e channel offset'
      e' channel' → SafeAt dst offset' e' channel'
  := by
  induction fuel generalizing offset e channel with
  | zero =>
      constructor
      · intro h
        cases h
      · rintro ⟨⟨retval, h⟩, -⟩
        cases h
  | succ fuel ih =>
      rw [forall_comes_iff (P := SafeAt dst), @safeAt_iff _ services _ _ he, executeChunk,
        processChunksFrom]
      generalize processAt (processSecureChannelMessage services) dst offset e channel = step
      obtain ⟨retval, next, e₁, channel₁⟩ := step
      dsimp only
      by_cases hfreed : e.freed = true ∧ usesChannel dst offset = true
      · simp [hfreed]
      · rw [if_neg hfreed]
        cases hfault : e₁.fault with
        | some fault => simp
        | none =>
            cases next with
            | none => simp [hfreed]
            | some offset₁ =>
                by_cases hmore : dst.length > offset₁
                · simp only [if_pos hmore]
                  rw [ih hfault]
                  simp [hfreed, hmore]
                · simp [hfreed, hmore]

/-- The loop over a chunk comes to its end exactly when it does not come to an empty OPN, and
nothing goes wrong at any place it comes to. -/
theorem executeChunk_iff (hlength : dst.length < 2 ^ 63) {e : Execution σ} (he : e.fault = none)
    (channel : SecureChannel) :
  (∃ fuel result, executeChunk services dst fuel 0 e channel = .ok result) ↔
    ∀ offset e' channel', Comes (processSecureChannelMessage services) dst 0 e channel offset e'
      channel' → ¬EmptyOpnAt dst offset channel' ∧ SafeAt dst offset e' channel'
  := by
  have hends := @processChunks_ends_iff (Execution σ) (processSecureChannelMessage services) dst
    hlength e channel
  constructor
  · rintro ⟨fuel, ⟨e', channel'⟩, hexecute⟩ offset e₁ channel₁ hcomes
    obtain ⟨⟨retval, hprocess⟩, hsafe⟩ := (executeChunk_eq_ok_iff he).mp hexecute
    use hends.mp ⟨fuel, _, hprocess⟩ offset e₁ channel₁ hcomes
    apply hsafe offset e₁ channel₁ hcomes
  · intro h
    obtain ⟨fuel, ⟨retval, e', channel'⟩, hprocess⟩ :=
      hends.mpr (fun offset e₁ channel₁ hcomes => (h offset e₁ channel₁ hcomes).1)
    use fuel, (e', channel')
    rw [executeChunk_eq_ok_iff he]
    use ⟨retval, hprocess⟩
    intro offset e₁ channel₁ hcomes
    apply (h offset e₁ channel₁ hcomes).2

/-- More fuel does not change what the loop comes to. -/
theorem executeChunk_mono {fuel fuel' offset : Nat} (hle : fuel ≤ fuel') {e : Execution σ}
    (he : e.fault = none) {channel : SecureChannel} {result : Execution σ × SecureChannel}
    (h : executeChunk services dst fuel offset e channel = .ok result) :
  executeChunk services dst fuel' offset e channel = .ok result
  := by
  obtain ⟨⟨retval, hprocess⟩, hsafe⟩ := (executeChunk_eq_ok_iff he).mp h
  apply (executeChunk_eq_ok_iff he).mpr
  use ⟨retval, processChunksFrom_mono hle hprocess⟩, hsafe

end

end Batch
