import UaRateThrottling.Transition
import UaRateThrottling.Channel.Abort
import UaRateThrottling.Channel.Endless
import UaRateThrottling.Channel.Manager
import Mathlib.Data.List.Nodup
import Mathlib.Logic.Function.Basic

/-!
# At most once

A task is deleted after it has been executed, and a deletion that fails is ignored, so that a task
may be executed any number of times.  That its message is passed on only once is due to the sequence
numbers alone: they increase on every channel, and a number that has been accepted is not accepted
again.

`passed_once` says so for all runs in which the sequence numbers of a channel do not come to the
number from which on they may start over.
-/

namespace Redelivery

open UA UA.SecureChannel Zuth Transition

/-- A chunk of a request, as a client sends it: neither an error message nor an OPN, of one of the
three chunk types, and of a size that is written into its header. -/
structure Chunk where
  messageTypeAndChunkType : UInt32
  header : ChunkHeader
  payload : List UInt8
  not_err : (encodeUInt32 messageTypeAndChunkType).take 3 ≠ [0x45, 0x52, 0x52]
  not_opn : messageTypeAndChunkType &&& 0x00ffffff ≠ MessageType.opn
  chunkType : messageTypeAndChunkType &&& 0xff000000 ∈
    [ChunkType.intermediate, ChunkType.final, ChunkType.abort]
  fits : payload.length + secureMessageHeaderLength < 2 ^ 32

namespace Chunk

/-- The bytes of the chunk. -/
def bytes (chunk : Chunk) : List UInt8 :=
  encodeChunk chunk.messageTypeAndChunkType chunk.header chunk.payload

/-- The channel and the sequence number of the chunk. A message is known by those of the chunk that
completes it. -/
def source (chunk : Chunk) : UInt32 × UInt32 :=
  (chunk.header.secureChannelId, chunk.header.sequenceNumber)

/-- A client stores these bytes when it sends the chunk through the queue. -/
theorem bytes_eq_dst (chunk : Chunk) {client : SecureChannel}
    (hid : chunk.header.secureChannelId = client.securityToken.channelId)
    (htoken : chunk.header.tokenId = client.securityToken.tokenId) :
  chunk.bytes = (chunkTask client chunk.header.requestId chunk.messageTypeAndChunkType
    chunk.header.sequenceNumber chunk.payload).dst
  := by
  rw [bytes, chunkTask, ← hid, ← htoken]

end Chunk

/-- What a client sends over its connection: a chunk, or a request to renew the channel. -/
inductive Wire where
  | direct (chunk : Chunk)
  | renewal (sequenceNumber : UInt32)

/-- The sequence number of what is sent. -/
def Wire.number : Wire → UInt32
  | .direct chunk => chunk.header.sequenceNumber
  | .renewal sequenceNumber => sequenceNumber

/-- A channel of the server and its client: how many sequence numbers the client has used, and what
is on the connection, in order. -/
structure Link where
  channel : SecureChannel
  used : Nat
  wire : List Wire

/-- The server with its channels by their ids, the chunks of the tasks in the queue, and the sources
of the chunks executed, of those accepted, and of the messages passed on. -/
structure State (σ : Type) where
  links : UInt32 → Link
  queue : List Chunk
  application : σ
  executed : List (UInt32 × UInt32)
  accepted : List (UInt32 × UInt32)
  passed : List (UInt32 × UInt32)

/-- The steps of the clients and of the server. A chunk may be under any token. -/
inductive Action where
  /-- A client puts a chunk into the queue. -/
  | createTask (chunk : Chunk)
  /-- A client sends a chunk over its connection. -/
  | send (chunk : Chunk)
  /-- A client asks to renew its channel. -/
  | renew (id : UInt32)
  /-- The server takes what comes next on the connection. A renewal issues the given token. -/
  | receive (id tokenId revisedLifetime : UInt32) (now : Int)
  /-- What comes next on the connection is lost. -/
  | lose (id : UInt32)
  /-- The server cleans up the channel. -/
  | cleanup (id : UInt32)
  /-- `zuth_executeRequest` on a task of the queue. The deletion fails unless `ok`. -/
  | execute (task : Nat) (ok : Bool)

section

variable {σ : Type} (process : Callback σ)

/-- The callback with a record of the messages passed on. -/
def recording : Callback (List Received × σ) := fun (messages, application) channel received =>
  match process application channel received with
  | (application, channel) => ((messages ++ [received], application), channel)

/-- A chunk is processed on a channel. It is the whole buffer, so that one iteration does. -/
def handle (application : σ) (channel : SecureChannel) (chunk : Chunk) :
    Option (ChunksResult (List Received × σ)) :=
  processChunks (recording process) chunk.bytes 1 ([], application) channel

namespace State

/-- The sequence number a client uses next, as long as the numbers do not come to that from which on
they may start over. -/
def nextNumber (s : State σ) (id : UInt32) : Option UInt32 :=
  if (s.links id).used + 1 < 4294966271 then some (UInt32.ofNat ((s.links id).used + 1)) else none

/-- The link of a channel is changed. -/
def update (s : State σ) (id : UInt32) (f : Link → Link) : State σ :=
  { s with links := Function.update s.links id (f (s.links id)) }

/-- A chunk is taken on a channel. -/
def take (s : State σ) (id : UInt32) (chunk : Chunk) : Option (State σ) :=
  (handle process s.application (s.links id).channel chunk).map (fun result =>
    { s.update id (fun link => { link with channel := result.channel }) with
      application := result.application.2
      accepted := if result.retval = .good then s.accepted ++ [chunk.source] else s.accepted
      passed := s.passed ++ result.application.1.map (fun _ => chunk.source) })

/-- What comes next on a connection is taken off it. -/
def pop (s : State σ) (id : UInt32) : State σ :=
  s.update id (fun link => { link with wire := link.wire.tail })

/-- `processOPN` on a channel that is renewed: a token is issued next, unless one is already, and
the sequence number of the request is the last one received. -/
def renewed (tokenId revisedLifetime : UInt32) (now : Int) (sequenceNumber : UInt32)
    (channel : SecureChannel) : SecureChannel :=
  { channel with
    nextSecurityToken := { channel.renewedToken tokenId revisedLifetime with createdAt := now }
    receiveSequenceNumber := sequenceNumber
    sendSequenceNumber := channel.sendSequenceNumber + 1 }

/-- The step an action makes. -/
def step (s : State σ) : Action → Option (State σ)
  | .createTask chunk =>
    if s.nextNumber chunk.header.secureChannelId = some chunk.header.sequenceNumber then
      some { s.update chunk.header.secureChannelId (fun link => { link with used := link.used + 1 })
        with queue := s.queue ++ [chunk] }
    else none
  | .send chunk =>
    if s.nextNumber chunk.header.secureChannelId = some chunk.header.sequenceNumber then
      some (s.update chunk.header.secureChannelId (fun link =>
        { link with used := link.used + 1, wire := link.wire ++ [.direct chunk] }))
    else none
  | .renew id =>
    (s.nextNumber id).map (fun sequenceNumber => s.update id (fun link =>
      { link with used := link.used + 1, wire := link.wire ++ [.renewal sequenceNumber] }))
  | .receive id tokenId revisedLifetime now =>
    match (s.links id).wire with
    | [] => none
    | .direct chunk :: _ => (s.pop id).take process id chunk
    | .renewal sequenceNumber :: _ =>
      some ((s.pop id).update id (fun link =>
        { link with channel := renewed tokenId revisedLifetime now sequenceNumber link.channel }))
  | .lose id => some (s.pop id)
  | .cleanup id =>
    some (s.update id (fun link =>
      { link with channel := SecureChannelManager.cleanedUp link.channel }))
  | .execute task ok =>
    match s.queue[task]? with
    | none => none
    | some chunk =>
      (s.take process chunk.header.secureChannelId chunk).map (fun s =>
        { s with
          queue := if ok then s.queue.eraseIdx task else s.queue
          executed := s.executed ++ [chunk.source] })

end State

/-- The server with its clients and the queue, which starts with channels on which the client has
used one sequence number, that of the request to open the channel. -/
def machine : Machine (State σ) Action where
  Init s :=
    (∀ id, (s.links id).channel.securityToken.channelId = id ∧
      (s.links id).channel.receiveSequenceNumber = 1 ∧ (s.links id).used = 1 ∧
      (s.links id).wire = []) ∧
    s.queue = [] ∧ s.executed = [] ∧ s.accepted = [] ∧ s.passed = []
  step := State.step process

/-- A callback on a message that is no OPN leaves the sequence number of the channel alone. -/
def KeepsNumber : Prop :=
  ∀ application channel messageType requestId bytes, messageType ≠ MessageType.opn →
    (process application channel (.message messageType requestId bytes)).2.receiveSequenceNumber =
      channel.receiveSequenceNumber

end

/-! ### The checks of a chunk -/

theorem sequenceNumber_revolveTokens (channel : SecureChannel) :
  channel.revolveTokens.receiveSequenceNumber = channel.receiveSequenceNumber ∧
    channel.revolveTokens.chunks = channel.chunks
  := by
  rw [revolveTokens]
  split
  · exact ⟨rfl, rfl⟩
  · exact ⟨rfl, rfl⟩

/-- Below the number from which on they may start over, only the next sequence number is accepted,
and without that nothing changes. -/
theorem processSequenceNumber_cases {channel : SecureChannel}
    (hbound : channel.receiveSequenceNumber.toNat < 4294966271) (n : UInt32) :
  ((channel.processSequenceNumber n).1 = .good ∧
      n.toNat = channel.receiveSequenceNumber.toNat + 1) ∨
    ((channel.processSequenceNumber n).1 ≠ .good ∧ (channel.processSequenceNumber n).2 = channel)
  := by
  have hnext : (channel.receiveSequenceNumber + 1).toNat =
      channel.receiveSequenceNumber.toNat + 1 := by
    rw [UInt32.toNat_add]
    apply Nat.mod_eq_of_lt
    simp only [UInt32.toNat_one]
    omega
  have hroll : ¬(channel.receiveSequenceNumber + 1 > 4294966271 ∧ n < 1024) := by
    rw [gt_iff_lt, UInt32.lt_iff_toNat_lt, hnext]
    simp only [UInt32.reduceToNat]
    omega
  rw [processSequenceNumber]
  by_cases hn : n = channel.receiveSequenceNumber + 1
  · left
    rw [if_neg (not_not.mpr hn), hn, hnext]
    exact ⟨rfl, rfl⟩
  · right
    have hbad : StatusCode.badSecurityChecksFailed ≠ .good := by decide
    rw [if_pos hn, if_neg hroll]
    exact ⟨hbad, rfl⟩

/-- The same for a chunk: one that is not accepted changes neither the sequence number nor the parts
of messages. -/
theorem checkSymmetric_cases {channel : SecureChannel}
    (hbound : channel.receiveSequenceNumber.toNat < 4294966271) (tokenId n : UInt32) :
  ((channel.checkSymmetric tokenId n).1 = .good ∧
      n.toNat = channel.receiveSequenceNumber.toNat + 1) ∨
    ((channel.checkSymmetric tokenId n).1 ≠ .good ∧
      (channel.checkSymmetric tokenId n).2.receiveSequenceNumber = channel.receiveSequenceNumber ∧
        (channel.checkSymmetric tokenId n).2.chunks = channel.chunks)
  := by
  have hbad : StatusCode.badCommunicationError ≠ .good := by decide
  obtain ⟨hnumber, hchunks⟩ := sequenceNumber_revolveTokens channel
  rw [checkSymmetric]
  split
  · split
    · right
      exact ⟨hbad, rfl, rfl⟩
    · rcases @processSequenceNumber_cases channel.revolveTokens
        (by rw [hnumber]; exact hbound) n with ⟨hgood, hn⟩ | ⟨hnot, hsame⟩
      · left
        dsimp only
        rw [if_neg (not_not.mpr hgood), hn, hnumber]
        exact ⟨rfl, rfl⟩
      · right
        dsimp only
        rw [if_pos hnot, hsame]
        exact ⟨hbad, hnumber, hchunks⟩
  · rcases processSequenceNumber_cases hbound n with ⟨hgood, hn⟩ | ⟨hnot, hsame⟩
    · left
      dsimp only
      rw [if_neg (not_not.mpr hgood)]
      exact ⟨rfl, hn⟩
    · right
      dsimp only
      rw [if_pos hnot, hsame]
      exact ⟨hbad, rfl, rfl⟩

/-! ### Handling a chunk -/

section

variable {σ : Type} {process : Callback σ}

/-- What becomes of a chunk that has passed the checks: at most one message is passed on, and the
sequence number stays what it is. -/
theorem dispatchChunk_recording (hkeeps : KeepsNumber process) (chunk : Chunk) (application : σ)
    (channel : SecureChannel) :
  ∃ messages application' channel',
    dispatchChunk (recording process) chunk.bytes 0 secureMessageHeaderLength
      ⟨chunk.messageTypeAndChunkType,
        UInt32.ofNat (chunk.payload.length + secureMessageHeaderLength)⟩
      chunk.header.requestId ([], application) channel =
        ⟨.good, some chunk.bytes.length, (messages, application'), channel'⟩ ∧
      messages.length ≤ 1 ∧ channel'.receiveSequenceNumber = channel.receiveSequenceNumber
  := by
  have hlength : 0 + (UInt32.ofNat (chunk.payload.length + secureMessageHeaderLength)).toNat =
      chunk.bytes.length := by
    rw [Nat.zero_add, (chunklength_eq chunk.fits).1, Chunk.bytes, length_encodeChunk]
  have htype := chunk.chunkType
  simp only [List.mem_cons, List.not_mem_nil, or_false] at htype
  simp only [dispatchChunk, hlength]
  generalize (2 ^ 64 + (UInt32.ofNat
    (chunk.payload.length + secureMessageHeaderLength)).toNat - secureMessageHeaderLength) %
      2 ^ 64 = chunklength
  rcases htype with htype | htype | htype
  · rw [if_pos htype]
    refine ⟨[], application, _, rfl, Nat.zero_le _, ?_⟩
    rw [appendChunk_eq]
  · rw [htype, if_neg (by decide), if_pos rfl]
    have hfinal := finalizeChunk_eq channel chunk.header.requestId chunk.bytes
      (0 + secureMessageHeaderLength) chunklength
    split
    · refine ⟨[_], _, _, rfl, Nat.le_refl _, ?_⟩
      apply (hkeeps _ _ _ _ _ chunk.not_opn).trans
      rw [hfinal]
    · refine ⟨[], application, _, rfl, Nat.zero_le _, ?_⟩
      rw [hfinal]
  · rw [htype, if_neg (by decide), if_neg (by decide), if_pos rfl]
    exact ⟨[], application, _, rfl, Nat.zero_le _, rfl⟩

/-- What becomes of a chunk: either it is accepted, under the next sequence number, or nothing is
passed on, and neither the sequence number nor the parts of messages change. -/
inductive Handled (process : Callback σ) (application : σ) (channel : SecureChannel)
    (chunk : Chunk) : Prop
  | accepted {messages : List Received} {application' : σ} {channel' : SecureChannel}
    (h : handle process application channel chunk =
      some ⟨.good, (messages, application'), channel'⟩)
    (hmessages : messages.length ≤ 1)
    (hnumber : chunk.header.sequenceNumber.toNat = channel.receiveSequenceNumber.toNat + 1)
    (hreceived : channel'.receiveSequenceNumber = chunk.header.sequenceNumber)
  | refused {retval : StatusCode} {channel' : SecureChannel}
    (h : handle process application channel chunk = some ⟨retval, ([], application), channel'⟩)
    (hretval : retval ≠ .good)
    (hreceived : channel'.receiveSequenceNumber = channel.receiveSequenceNumber)
    (hchunks : channel'.chunks = channel.chunks)

theorem handled (hkeeps : KeepsNumber process) (application : σ) {channel : SecureChannel}
    (hbound : channel.receiveSequenceNumber.toNat < 4294966271) (chunk : Chunk) :
  Handled process application channel chunk
  := by
  by_cases hid : chunk.header.secureChannelId = channel.securityToken.channelId
  · have hat := @processAt_checked _ chunk.header chunk.payload _ (recording process)
      ([], application) _ chunk.not_err chunk.not_opn hid
    rcases checkSymmetric_cases hbound chunk.header.tokenId chunk.header.sequenceNumber with
      ⟨hgood, hnumber⟩ | ⟨hnot, hreceived, hchunks⟩
    · obtain ⟨messages, application', channel', hdispatch, hmessages, hsame⟩ :=
        dispatchChunk_recording hkeeps chunk application
          (channel.checkSymmetric chunk.header.tokenId chunk.header.sequenceNumber).2
      simp only [hgood, ne_eq, not_true_eq_false, if_false] at hat
      apply Handled.accepted (processChunks_eq Nat.one_pos (hat.trans hdispatch)) hmessages hnumber
      rw [hsame, receiveSequenceNumber_checkSymmetric hgood]
    · simp only [hnot, ne_eq, not_false_eq_true, if_true] at hat
      apply Handled.refused _ hnot hreceived hchunks
      rw [handle, Chunk.bytes, processChunks, processChunksFrom, hat]
  · have hbad : StatusCode.badCommunicationError ≠ .good := by decide
    have hat : processAt (recording process) chunk.bytes 0 ([], application) channel =
        ⟨.badCommunicationError, none, ([], application), channel⟩ := by
      rw [processAt, Chunk.bytes, if_neg (not_err_encodeChunk chunk.not_err), processChunk,
        List.drop_zero, encodeChunk]
      simp only [List.append_assoc, SecureConversationMessageHeader.decode_encode_append, ne_eq,
        hid, not_false_eq_true, if_true]
    apply Handled.refused _ hbad rfl rfl
    rw [handle, processChunks, processChunksFrom, hat]

/-! ### The invariant -/

/-- The sequence numbers of a channel: those used are below the number from which on they may start
over, what is on the connection has them in order, the renewals on it are still to come, and no two
things sent have the same; those accepted are not above the last one received. -/
structure LinkKept (queue : List Chunk) (accepted : List (UInt32 × UInt32)) (id : UInt32)
    (link : Link) : Prop where
  used_lt : link.used < 4294966271
  received_le : link.channel.receiveSequenceNumber.toNat ≤ link.used
  wire_id : ∀ chunk, .direct chunk ∈ link.wire → chunk.header.secureChannelId = id
  wire_le : ∀ w ∈ link.wire, w.number.toNat ≤ link.used
  wire_sorted : link.wire.Pairwise (fun w w' => w.number.toNat < w'.number.toNat)
  pending : ∀ n, .renewal n ∈ link.wire → link.channel.receiveSequenceNumber.toNat < n.toNat
  queue_le : ∀ chunk ∈ queue, chunk.header.secureChannelId = id →
    chunk.header.sequenceNumber.toNat ≤ link.used ∧
      ∀ w ∈ link.wire, w.number ≠ chunk.header.sequenceNumber
  accepted_le : ∀ n, (id, n) ∈ accepted → n.toNat ≤ link.channel.receiveSequenceNumber.toNat

/-- What holds in every state: every channel keeps its sequence numbers, no chunk is accepted twice,
and only accepted chunks complete a message, each of them one. -/
structure Kept (s : State σ) : Prop where
  link : ∀ id, LinkKept s.queue s.accepted id (s.links id)
  accepted : s.accepted.Nodup
  passed : s.passed.Nodup
  subset : s.passed ⊆ s.accepted

namespace LinkKept

variable {queue queue' : List Chunk} {accepted : List (UInt32 × UInt32)} {id : UInt32} {link : Link}

/-- A channel keeps its sequence numbers when tasks are removed. -/
theorem mono (h : LinkKept queue accepted id link) (hsub : queue' ⊆ queue) :
  LinkKept queue' accepted id link
  := { h with queue_le := fun chunk hchunk => h.queue_le chunk (hsub hchunk) }

/-- A channel keeps its sequence numbers when it changes in other ways. -/
theorem channel (h : LinkKept queue accepted id link) {channel : SecureChannel}
    (hreceived : channel.receiveSequenceNumber = link.channel.receiveSequenceNumber) :
  LinkKept queue accepted id { link with channel := channel }
  := by
  obtain ⟨hused, hle, hid, hwire, hsorted, hpending, hqueue, haccepted⟩ := h
  rw [← hreceived] at hle hpending haccepted
  exact ⟨hused, hle, hid, hwire, hsorted, hpending, hqueue, haccepted⟩

/-- What comes next on the connection is taken off. -/
theorem pop (h : LinkKept queue accepted id link) :
  LinkKept queue accepted id { link with wire := link.wire.tail }
  := by
  obtain ⟨hused, hle, hid, hwire, hsorted, hpending, hqueue, haccepted⟩ := h
  constructor
  · exact hused
  · exact hle
  · intro chunk hchunk
    apply hid chunk (List.mem_of_mem_tail hchunk)
  · intro w hw
    apply hwire w (List.mem_of_mem_tail hw)
  · apply hsorted.tail
  · intro n hn
    apply hpending n (List.mem_of_mem_tail hn)
  · intro chunk hchunk hchunkId
    obtain ⟨hnumber, hne⟩ := hqueue chunk hchunk hchunkId
    use hnumber
    intro w hw
    apply hne w (List.mem_of_mem_tail hw)
  · exact haccepted

/-- Something is sent over the connection, under the next sequence number. -/
theorem send (h : LinkKept queue accepted id link) {w : Wire} (hused : link.used + 1 < 4294966271)
    (hnumber : w.number.toNat = link.used + 1)
    (hid : ∀ chunk, w = .direct chunk → chunk.header.secureChannelId = id) :
  LinkKept queue accepted id { link with used := link.used + 1, wire := link.wire ++ [w] }
  := by
  constructor
  · exact hused
  · apply Nat.le_succ_of_le h.received_le
  · intro chunk hchunk
    rcases List.mem_append.mp hchunk with hchunk | hchunk
    · apply h.wire_id chunk hchunk
    · apply hid chunk (List.mem_singleton.mp hchunk).symm
  · intro w' hw'
    rcases List.mem_append.mp hw' with hw' | hw'
    · apply Nat.le_succ_of_le (h.wire_le w' hw')
    · rw [List.mem_singleton.mp hw', hnumber]
  · rw [List.pairwise_append]
    use h.wire_sorted, List.pairwise_singleton _ _
    intro w' hw' w'' hw''
    rw [List.mem_singleton.mp hw'', hnumber]
    apply Nat.lt_succ_of_le (h.wire_le w' hw')
  · intro n hn
    rcases List.mem_append.mp hn with hn | hn
    · apply h.pending n hn
    · rw [← List.mem_singleton.mp hn] at hnumber
      have hreceived := h.received_le
      change n.toNat = link.used + 1 at hnumber
      dsimp only
      omega
  · intro chunk hchunk hchunkId
    obtain ⟨hle, hne⟩ := h.queue_le chunk hchunk hchunkId
    use Nat.le_succ_of_le hle
    intro w' hw'
    rcases List.mem_append.mp hw' with hw' | hw'
    · apply hne w' hw'
    · rw [List.mem_singleton.mp hw']
      rintro heq
      rw [← heq, hnumber] at hle
      omega
  · exact h.accepted_le

/-- A task is created, under the next sequence number of its channel. -/
theorem createTask (h : LinkKept queue accepted id link) {chunk : Chunk}
    (hused : link.used + 1 < 4294966271)
    (hnumber : chunk.header.sequenceNumber.toNat = link.used + 1) :
  LinkKept (queue ++ [chunk]) accepted id { link with used := link.used + 1 }
  := by
  constructor
  · exact hused
  · apply Nat.le_succ_of_le h.received_le
  · exact h.wire_id
  · intro w hw
    apply Nat.le_succ_of_le (h.wire_le w hw)
  · exact h.wire_sorted
  · exact h.pending
  · intro chunk' hchunk' hchunkId
    rcases List.mem_append.mp hchunk' with hchunk' | hchunk'
    · obtain ⟨hle, hne⟩ := h.queue_le chunk' hchunk' hchunkId
      exact ⟨Nat.le_succ_of_le hle, hne⟩
    · rw [List.mem_singleton.mp hchunk']
      use Nat.le_of_eq hnumber
      intro w hw heq
      have hle := h.wire_le w hw
      rw [heq, hnumber] at hle
      omega
  · exact h.accepted_le

/-- A task of another channel does not matter. -/
theorem createOther (h : LinkKept queue accepted id link) {chunk : Chunk}
    (hne : chunk.header.secureChannelId ≠ id) :
  LinkKept (queue ++ [chunk]) accepted id link
  := by
  obtain ⟨hused, hle, hid, hwire, hsorted, hpending, hqueue, haccepted⟩ := h
  refine ⟨hused, hle, hid, hwire, hsorted, hpending, ?_, haccepted⟩
  intro chunk' hchunk' hchunkId
  rcases List.mem_append.mp hchunk' with hchunk' | hchunk'
  · apply hqueue chunk' hchunk' hchunkId
  · rw [List.mem_singleton.mp hchunk'] at hchunkId
    contradiction

/-- A renewal is received: its sequence number is above all that have been. -/
theorem renewed (h : LinkKept queue accepted id link) {n : UInt32} {wire : List Wire}
    (hwire : link.wire = .renewal n :: wire) {channel : SecureChannel}
    (hreceived : channel.receiveSequenceNumber = n) :
  LinkKept queue accepted id { link with wire := wire, channel := channel }
  := by
  have hn := h.pending n (by rw [hwire]; apply List.mem_cons_self)
  have hpop := h.pop
  have hsorted := h.wire_sorted
  rw [hwire] at hpop hsorted
  constructor
  · exact h.used_lt
  · rw [hreceived]
    apply h.wire_le (.renewal n)
    rw [hwire]
    apply List.mem_cons_self
  · exact hpop.wire_id
  · exact hpop.wire_le
  · exact hpop.wire_sorted
  · intro n' hn'
    rw [hreceived]
    apply List.rel_of_pairwise_cons hsorted hn'
  · exact hpop.queue_le
  · intro n' hn'
    rw [hreceived]
    have hle := h.accepted_le n' hn'
    omega

/-- A chunk is accepted that is not numbered as a renewal still to come. -/
theorem accept (h : LinkKept queue accepted id link) {n : UInt32}
    (hnumber : n.toNat = link.channel.receiveSequenceNumber.toNat + 1) (hle : n.toNat ≤ link.used)
    (hne : ∀ w ∈ link.wire, w.number ≠ n) {channel : SecureChannel}
    (hreceived : channel.receiveSequenceNumber = n) :
  LinkKept queue (accepted ++ [(id, n)]) id { link with channel := channel }
  := by
  constructor
  · exact h.used_lt
  · rw [hreceived]
    exact hle
  · exact h.wire_id
  · exact h.wire_le
  · exact h.wire_sorted
  · intro n' hn'
    have hlt := h.pending n' hn'
    have hne' : n'.toNat ≠ n.toNat := by
      intro heq
      apply hne _ hn' (UInt32.toNat_inj.mp heq)
    rw [hreceived]
    omega
  · exact h.queue_le
  · intro n' hn'
    rw [hreceived]
    rcases List.mem_append.mp hn' with hn' | hn'
    · have hle' := h.accepted_le n' hn'
      omega
    · obtain ⟨-, rfl⟩ := Prod.mk.inj (List.mem_singleton.mp hn')
      apply Nat.le_refl

/-- A chunk accepted on another channel does not matter. -/
theorem acceptOther (h : LinkKept queue accepted id link) {source : UInt32 × UInt32}
    (hne : source.1 ≠ id) :
  LinkKept queue (accepted ++ [source]) id link
  := by
  obtain ⟨hused, hle, hid, hwire, hsorted, hpending, hqueue, haccepted⟩ := h
  use hused, hle, hid, hwire, hsorted, hpending, hqueue
  intro n hn
  rcases List.mem_append.mp hn with hn | hn
  · apply haccepted n hn
  · rw [← List.mem_singleton.mp hn] at hne
    contradiction

end LinkKept

/-! ### What the steps keep -/

theorem of_nextNumber {s : State σ} {id n : UInt32} (h : s.nextNumber id = some n) :
  (s.links id).used + 1 < 4294966271 ∧ n.toNat = (s.links id).used + 1
  := by
  rw [State.nextNumber, Option.ite_none_right_eq_some] at h
  obtain ⟨hused, hn⟩ := h
  use hused
  rw [← Option.some.inj hn, UInt32.toNat_ofNat']
  apply Nat.mod_eq_of_lt
  omega

namespace Kept

variable {s t : State σ} {id : UInt32}

/-- One channel is changed. -/
theorem update (hs : Kept s) {f : Link → Link}
    (h : LinkKept s.queue s.accepted id (f (s.links id))) :
  Kept (s.update id f)
  := by
  obtain ⟨hlink, haccepted, hpassed, hsubset⟩ := hs
  refine ⟨?_, haccepted, hpassed, hsubset⟩
  apply (Function.forall_update_iff s.links (fun id link =>
    LinkKept s.queue s.accepted id link)).mpr
  use h
  intro id' _
  apply hlink id'

theorem pop (hs : Kept s) (id : UInt32) :
  Kept (s.pop id)
  := by
  apply hs.update (hs.link id).pop

/-- A chunk is taken on its channel, if its sequence number is none of those on the connection. -/
theorem take (hkeeps : KeepsNumber process) (hs : Kept s) {chunk : Chunk}
    (hid : chunk.header.secureChannelId = id)
    (hle : chunk.header.sequenceNumber.toNat ≤ (s.links id).used)
    (hne : ∀ w ∈ (s.links id).wire, w.number ≠ chunk.header.sequenceNumber)
    (h : s.take process id chunk = some t) :
  Kept t
  := by
  have hlink := hs.link id
  have hbound := Nat.lt_of_le_of_lt hlink.received_le hlink.used_lt
  obtain ⟨result, hresult, rfl⟩ := Option.map_eq_some_iff.mp h
  cases handled hkeeps s.application hbound chunk with
  | @accepted messages _ _ hhandle hmessages hnumber hreceived =>
      rw [hhandle] at hresult
      obtain rfl := Option.some.inj hresult
      have hnew : chunk.source ∉ s.accepted := by
        intro hmem
        rw [Chunk.source, hid] at hmem
        have hold := hlink.accepted_le _ hmem
        omega
      have hsource : chunk.source = (id, chunk.header.sequenceNumber) := by
        rw [Chunk.source, hid]
      constructor
      · dsimp only
        rw [if_pos rfl, hsource]
        apply (Function.forall_update_iff s.links (fun id' link =>
          LinkKept s.queue (s.accepted ++ [(id, chunk.header.sequenceNumber)]) id' link)).mpr
        use hlink.accept hnumber hle hne hreceived
        intro id' hother
        apply (hs.link id').acceptOther hother.symm
      · dsimp only
        rw [if_pos rfl]
        have haccepted := hs.accepted.concat hnew
        rw [List.concat_eq_append] at haccepted
        exact haccepted
      · -- at most one message is completed
        rcases messages with _ | ⟨message, _ | ⟨other, messages⟩⟩
        · simpa using hs.passed
        · have hpassed := hs.passed.concat (fun hmem => hnew (hs.subset hmem))
          rw [List.concat_eq_append] at hpassed
          exact hpassed
        · simp at hmessages
      · dsimp only
        rw [if_pos rfl]
        intro source hsource
        rcases List.mem_append.mp hsource with hsource | hsource
        · apply List.mem_append_left _ (hs.subset hsource)
        · obtain ⟨message, -, rfl⟩ := List.mem_map.mp hsource
          simp
  | refused hhandle hretval hreceived hchunks =>
      rw [hhandle] at hresult
      obtain rfl := Option.some.inj hresult
      obtain ⟨hlink', haccepted, hpassed, hsubset⟩ :=
        hs.update (f := fun link => { link with channel := _ }) (hlink.channel hreceived)
      constructor
      · dsimp only
        rw [if_neg hretval]
        exact hlink'
      · dsimp only
        rw [if_neg hretval]
        exact haccepted
      · rw [List.map_nil, List.append_nil]
        exact hpassed
      · dsimp only
        rw [if_neg hretval, List.map_nil, List.append_nil]
        exact hsubset

/-- What comes next on the connection is received: a chunk is taken, or the channel is renewed. -/
theorem receive (hkeeps : KeepsNumber process) (hs : Kept s)
    {tokenId revisedLifetime : UInt32} {now : Int}
    (h : s.step process (.receive id tokenId revisedLifetime now) = some t) :
  Kept t
  := by
  rw [State.step] at h
  split at h
  · cases h
  · rename_i chunk wire hwire
    have hmem : .direct chunk ∈ (s.links id).wire := by
      rw [hwire]
      apply List.mem_cons_self
    have hpop : ((s.pop id).links id) = { s.links id with wire := wire } := by
      simp only [State.pop, State.update, Function.update_self, hwire, List.tail_cons]
    apply (hs.pop id).take hkeeps ((hs.link id).wire_id chunk hmem) _ _ h
    · rw [hpop]
      apply (hs.link id).wire_le _ hmem
    · rw [hpop]
      have hsorted := (hs.link id).wire_sorted
      rw [hwire] at hsorted
      intro w hw heq
      have hlt := List.rel_of_pairwise_cons hsorted hw
      rw [heq] at hlt
      apply Nat.lt_irrefl _ hlt
  · rename_i n wire hwire
    obtain rfl := Option.some.inj h
    have hupdate := hs.update (f := fun link => { link with
        wire := wire
        channel := State.renewed tokenId revisedLifetime now n link.channel })
      ((hs.link id).renewed hwire rfl)
    have heq : (s.pop id).update id (fun link => { link with
        channel := State.renewed tokenId revisedLifetime now n link.channel }) =
          s.update id (fun link => { link with
            wire := wire
            channel := State.renewed tokenId revisedLifetime now n link.channel }) := by
      simp only [State.pop, State.update, Function.update_idem, Function.update_self, hwire,
        List.tail_cons]
    rw [heq]
    exact hupdate

/-- Every step keeps the sequence numbers. -/
theorem step (hkeeps : KeepsNumber process) (hs : Kept s) {action : Action}
    (h : s.step process action = some t) :
  Kept t
  := by
  cases action with
  | createTask chunk =>
      simp only [State.step, Option.ite_none_right_eq_some, Option.some.injEq] at h
      obtain ⟨hnext, rfl⟩ := h
      obtain ⟨hused, hnumber⟩ := of_nextNumber hnext
      refine ⟨?_, hs.accepted, hs.passed, hs.subset⟩
      apply (Function.forall_update_iff s.links (fun id link =>
        LinkKept (s.queue ++ [chunk]) s.accepted id link)).mpr
      use (hs.link _).createTask hused hnumber
      intro id hother
      apply (hs.link id).createOther hother.symm
  | send chunk =>
      simp only [State.step, Option.ite_none_right_eq_some, Option.some.injEq] at h
      obtain ⟨hnext, rfl⟩ := h
      obtain ⟨hused, hnumber⟩ := of_nextNumber hnext
      apply hs.update
      apply (hs.link _).send (w := .direct chunk) hused hnumber
      intro chunk' heq
      rw [Wire.direct.inj heq]
  | renew id =>
      obtain ⟨n, hnext, rfl⟩ := Option.map_eq_some_iff.mp h
      obtain ⟨hused, hnumber⟩ := of_nextNumber hnext
      apply hs.update
      apply (hs.link _).send (w := .renewal n) hused hnumber
      intro chunk' heq
      cases heq
  | receive id tokenId revisedLifetime now => apply hs.receive hkeeps h
  | lose id =>
      obtain rfl := Option.some.inj h
      apply hs.pop
  | cleanup id =>
      obtain rfl := Option.some.inj h
      apply hs.update
      apply (hs.link id).channel
      rw [SecureChannelManager.cleanedUp]
      split
      · apply (sequenceNumber_revolveTokens _).1
      · rfl
  | execute task ok =>
      rw [State.step] at h
      split at h
      · cases h
      · rename_i chunk hchunk
        obtain ⟨s', htake, rfl⟩ := Option.map_eq_some_iff.mp h
        obtain ⟨hle, hne⟩ := (hs.link _).queue_le chunk (List.mem_of_getElem? hchunk) rfl
        obtain ⟨hlink, haccepted, hpassed, hsubset⟩ := hs.take hkeeps rfl hle hne htake
        refine ⟨?_, haccepted, hpassed, hsubset⟩
        intro id
        apply (hlink id).mono
        split
        · apply List.eraseIdx_subset
        · apply List.Subset.refl

end Kept

/-- Every reachable state keeps the sequence numbers. -/
theorem kept_of_reachable (hkeeps : KeepsNumber process) {s : State σ}
    (h : (machine process).Reachable s) :
  Kept s
  := by
  apply Machine.Reachable.invariant _ _ h
  · rintro s ⟨hlinks, hqueue, -, haccepted, hpassed⟩
    constructor
    · intro id
      obtain ⟨-, hreceived, hused, hwire⟩ := hlinks id
      rw [hqueue, haccepted]
      constructor
      · rw [hused]
        decide
      · rw [hreceived, hused]
        decide
      · rw [hwire]
        nofun
      · rw [hwire]
        nofun
      · rw [hwire]
        apply List.Pairwise.nil
      · rw [hwire]
        nofun
      · nofun
      · nofun
    · rw [haccepted]
      apply List.nodup_nil
    · rw [hpassed]
      apply List.nodup_nil
    · rw [hpassed]
      apply List.nil_subset
  · intro s action t _ hs ht
    apply hs.step hkeeps ht

/-! ### Executing again -/

/-- Nothing is passed on, and no channel changes its sequence number or its parts of messages. -/
structure WithoutEffect (s t : State σ) : Prop where
  passed : t.passed = s.passed
  application : t.application = s.application
  receiveSequenceNumber : ∀ id, (t.links id).channel.receiveSequenceNumber =
    (s.links id).channel.receiveSequenceNumber
  chunks : ∀ id, (t.links id).channel.chunks = (s.links id).channel.chunks

/-- A chunk that has been accepted is without effect. -/
theorem Kept.withoutEffect (hkeeps : KeepsNumber process) {s : State σ} (hs : Kept s)
    {chunk : Chunk} (haccepted : chunk.source ∈ s.accepted) :
  ∃ t, s.take process chunk.header.secureChannelId chunk = some t ∧ WithoutEffect s t
  := by
  have hlink := hs.link chunk.header.secureChannelId
  have hbound := Nat.lt_of_le_of_lt hlink.received_le hlink.used_lt
  cases handled hkeeps s.application hbound chunk with
  | accepted hhandle hmessages hnumber hreceived =>
      have hle := hlink.accepted_le _ haccepted
      omega
  | refused hhandle hretval hreceived hchunks =>
      refine ⟨_, Option.map_eq_some_iff.mpr ⟨_, hhandle, rfl⟩, ?_⟩
      constructor
      · rw [List.map_nil, List.append_nil]
      · rfl
      · apply (Function.forall_update_iff s.links (fun id link =>
          link.channel.receiveSequenceNumber = (s.links id).channel.receiveSequenceNumber)).mpr
        exact ⟨hreceived, fun _ _ => rfl⟩
      · apply (Function.forall_update_iff s.links (fun id link =>
          link.channel.chunks = (s.links id).channel.chunks)).mpr
        exact ⟨hchunks, fun _ _ => rfl⟩

/-- No message is passed on twice, and the execution of a task whose chunk has been accepted is
without effect, whether the task is then deleted or not. -/
theorem passed_once (hkeeps : KeepsNumber process) {s : State σ}
    (h : (machine process).Reachable s) :
  s.passed.Nodup ∧ ∀ (task : Nat) (chunk : Chunk), s.queue[task]? = some chunk →
    chunk.source ∈ s.accepted → ∀ ok, ∃ t, s.step process (.execute task ok) = some t ∧
      WithoutEffect s t
  := by
  have hs := kept_of_reachable hkeeps h
  use hs.passed
  intro task chunk hchunk haccepted ok
  obtain ⟨t, htake, hpassed, happlication, hreceived, hchunks⟩ := hs.withoutEffect hkeeps haccepted
  use { t with
    queue := if ok then t.queue.eraseIdx task else t.queue
    executed := t.executed ++ [chunk.source] }
  constructor
  · simp only [State.step, hchunk, htake, Option.map_some]
  · exact ⟨hpassed, happlication, hreceived, hchunks⟩

end

/-! ### Two chunks -/

/-- A callback that leaves the channel alone, as far as its sequence number goes. -/
def ignore : Callback Unit := fun application channel _ => (application, channel)

theorem keepsNumber_ignore :
  KeepsNumber ignore
  := fun _ _ _ _ _ _ => rfl

/-- A request on the first channel. -/
def requestChunk (sequenceNumber : UInt32) : Chunk where
  messageTypeAndChunkType := MessageType.msg + ChunkType.final
  header := ⟨1, 1, sequenceNumber, sequenceNumber⟩
  payload := NodeId.encodeNumeric 0 631
  not_err := by decide
  not_opn := by decide
  chunkType := by decide
  fits := by decide

/-- Channels on which nothing has been sent. -/
def initial : State Unit where
  links := fun id => {
    channel := { SecureChannel.init with
      securityToken := ⟨id, 1, 0, 3600000⟩
      receiveSequenceNumber := 1 }
    used := 1
    wire := [] }
  queue := []
  application := ()
  executed := []
  accepted := []
  passed := []

theorem init_initial :
  (machine ignore).Init initial
  := ⟨fun _ => ⟨rfl, rfl, rfl, rfl⟩, rfl, rfl, rfl, rfl⟩

/-- A task is executed, and its deletion fails. -/
theorem passed_once_notDeleted :
  ∃ s, (machine ignore).run initial [.createTask (requestChunk 2), .execute 0 false] = some s ∧
    s.passed = [(1, 2)] ∧ s.passed.Nodup ∧
    ∃ t, s.step ignore (.execute 0 false) = some t ∧ WithoutEffect s t
  := by
  have hrun : ∃ s, (machine ignore).run initial
      [.createTask (requestChunk 2), .execute 0 false] = some s ∧ s.passed = [(1, 2)] ∧
        s.queue[0]? = some (requestChunk 2) ∧ (requestChunk 2).source ∈ s.accepted := by
    refine ⟨_, rfl, rfl, rfl, by decide⟩
  obtain ⟨s, hs, hpassed, hqueue, haccepted⟩ := hrun
  have honce := passed_once keepsNumber_ignore ((Machine.Reachable.init init_initial).run hs)
  exact ⟨s, hs, hpassed, honce.1, honce.2 0 _ hqueue haccepted false⟩

/-- The second of two chunks is executed before the first one, which comes over the connection, is
received. It is not accepted, and its task is not deleted. When it is executed again, the sequence
number of the channel changes. -/
theorem executed_again :
  ∃ s t, (machine ignore).run initial [.send (requestChunk 2), .createTask (requestChunk 3),
      .execute 0 false, .receive 1 2 3600000 0] = some s ∧
    s.queue[0]? = some (requestChunk 3) ∧ (requestChunk 3).source ∈ s.executed ∧
    s.step ignore (.execute 0 false) = some t ∧
    (s.links 1).channel.receiveSequenceNumber = 2 ∧ (t.links 1).channel.receiveSequenceNumber = 3 ∧
    ¬WithoutEffect s t
  := by
  refine ⟨_, _, rfl, rfl, by decide, rfl, rfl, rfl, ?_⟩
  intro hwithout
  have hnumber := hwithout.receiveSequenceNumber 1
  revert hnumber
  decide

end Redelivery
