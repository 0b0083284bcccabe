import UaRateThrottling.Channel.Receive
import UaRateThrottling.Channel.Send
import Mathlib.Logic.Function.Basic

/-!
# From the tasks back to the message

The server executes the tasks of all clients one at a time, and processes the chunk of a task on
the channel the task names.  Here the chunks are at hand; reading them from the documents of the
tasks comes later.

* `feed_intermediate` and `feed_final` say what a chunk of a message does to its channel: the
  payload is added to the part of the message received so far, and the last one completes it.
* `feedChannels_own` says that the tasks of other channels do not matter to a channel.
* `message_roundTrip` puts them together with what the sender does: a message arrives as it was
  sent, unless its type makes it an OPN or CLO message, or the channel still holds a part of an
  earlier message with the same request id.
-/

namespace Zuth

open UA SecureChannel

/-- A channel of the server, with the messages called back on it. -/
structure Receiver where
  channel : SecureChannel
  received : List Received

/-- The chunk of a task is processed on its channel. -/
def Receiver.feed (fuel : Nat) (receiver : Receiver) (dst : List UInt8) : Option Receiver :=
  (processChunks collect dst fuel receiver.received receiver.channel).map
    (fun result => ⟨result.channel, result.application⟩)

/-- The chunks of several tasks are processed on one channel. -/
def feedTasks (fuel : Nat) : List Task → Receiver → Option Receiver
  | [], receiver => some receiver
  | task :: tasks, receiver =>
    (receiver.feed fuel task.dst).bind (feedTasks fuel tasks)

/-- The chunks of one task after the other are fed to `UA_SecureChannel_processChunks`, each on the
channel its task names. -/
def feedChannels (fuel : Nat) : List Task → (UInt32 → Option Receiver) →
    Option (UInt32 → Option Receiver)
  | [], receivers => some receivers
  | task :: tasks, receivers =>
    ((receivers task.channelId).bind (fun receiver => receiver.feed fuel task.dst)).bind
      (fun receiver =>
        feedChannels fuel tasks (Function.update receivers task.channelId (some receiver)))

/-! ### One chunk -/

section

variable {t : UInt32} {header : ChunkHeader} {payload : List UInt8}

theorem length_encodeChunk :
  (encodeChunk t header payload).length = payload.length + secureMessageHeaderLength
  := by
  simp [encodeChunk, SecureConversationMessageHeader.encode, SequenceHeader.encode,
    secureMessageHeaderLength]
  omega

theorem drop_encodeChunk :
  (encodeChunk t header payload).drop secureMessageHeaderLength = payload
  := by
  rw [encodeChunk, List.drop_append_of_le_length]
  all_goals
    simp [SecureConversationMessageHeader.encode, SequenceHeader.encode,
      secureMessageHeaderLength]

/-- A chunk which begins with `ERR` would be taken for an error message. -/
theorem not_err_encodeChunk (herr : (encodeUInt32 t).take 3 ≠ [0x45, 0x52, 0x52]) :
  ¬((encodeChunk t header payload).length > 3 ∧
    ((encodeChunk t header payload).drop 0).take 3 = [0x45, 0x52, 0x52])
  := by
  rintro ⟨-, h⟩
  rw [List.drop_zero, encodeChunk, SecureConversationMessageHeader.encode, List.append_assoc,
    List.append_assoc, List.append_assoc, List.append_assoc, List.take_append_of_le_length
      (by simp)] at h
  apply herr h

/-- A chunk that is not an OPN is checked, and dispatched when it passes. -/
theorem processAt_checked {σ : Type} (callback : Callback σ) (application : σ)
    {channel : SecureChannel} (herr : (encodeUInt32 t).take 3 ≠ [0x45, 0x52, 0x52])
    (htype : t &&& 0x00ffffff ≠ MessageType.opn)
    (hid : header.secureChannelId = channel.securityToken.channelId) :
  processAt callback (encodeChunk t header payload) 0 application channel =
    match channel.checkSymmetric header.tokenId header.sequenceNumber with
    | (retval, channel) =>
      if retval ≠ .good then ⟨retval, none, application, channel⟩
      else dispatchChunk callback (encodeChunk t header payload) 0 secureMessageHeaderLength
        ⟨t, UInt32.ofNat (payload.length + secureMessageHeaderLength)⟩ header.requestId
        application channel
  := by
  rw [processAt, if_neg (not_err_encodeChunk herr), processChunk, List.drop_zero, encodeChunk]
  simp only [List.append_assoc, SecureConversationMessageHeader.decode_encode_append, hid,
    ne_eq, not_true_eq_false, if_false, htype, decodeUInt32_encodeUInt32_append,
    SequenceHeader.decode_encode_append]

/-- It passes the checks under the token in use and with the next number. -/
theorem processAt_encodeChunk {σ : Type} (callback : Callback σ) (application : σ)
    {channel : SecureChannel} (herr : (encodeUInt32 t).take 3 ≠ [0x45, 0x52, 0x52])
    (htype : t &&& 0x00ffffff ≠ MessageType.opn)
    (hid : header.secureChannelId = channel.securityToken.channelId)
    (htoken : header.tokenId = channel.securityToken.tokenId)
    (hnumber : header.sequenceNumber = channel.receiveSequenceNumber + 1) :
  processAt callback (encodeChunk t header payload) 0 application channel =
    dispatchChunk callback (encodeChunk t header payload) 0 secureMessageHeaderLength
      ⟨t, UInt32.ofNat (payload.length + secureMessageHeaderLength)⟩ header.requestId application
      { channel with receiveSequenceNumber := channel.receiveSequenceNumber + 1 }
  := by
  have hcheck : channel.checkSymmetric header.tokenId header.sequenceNumber =
      (.good, { channel with receiveSequenceNumber := channel.receiveSequenceNumber + 1 }) := by
    have hchunk := checkChunk_current hid htoken hnumber
    rw [checkChunk, if_neg (not_not.mpr hid)] at hchunk
    apply hchunk
  rw [processAt_checked callback application herr htype hid, hcheck]
  rfl

/-- The content of such a chunk is its payload, and the buffer ends with it. -/
theorem chunklength_eq (hlength : payload.length + secureMessageHeaderLength < 2 ^ 32) :
  (UInt32.ofNat (payload.length + secureMessageHeaderLength)).toNat =
      payload.length + secureMessageHeaderLength ∧
    (2 ^ 64 + (payload.length + secureMessageHeaderLength) - secureMessageHeaderLength) % 2 ^ 64 =
      payload.length
  := by
  constructor
  · rw [UInt32.toNat_ofNat', Nat.mod_eq_of_lt hlength]
  · omega

/-- A buffer that consists of one chunk is processed in one iteration. -/
theorem processChunks_eq {σ : Type} {callback : Callback σ} {application application' : σ}
    {fuel : Nat} (hfuel : 0 < fuel) {dst : List UInt8} {retval : StatusCode}
    {channel channel' : SecureChannel}
    (h : processAt callback dst 0 application channel =
      ⟨retval, some dst.length, application', channel'⟩) :
  processChunks callback dst fuel application channel = some ⟨retval, application', channel'⟩
  := by
  obtain ⟨fuel, rfl⟩ := Nat.exists_eq_succ_of_ne_zero (Nat.ne_of_gt hfuel)
  rw [processChunks, processChunksFrom, h]
  simp

/-- A receiver is fed with such a buffer. -/
theorem feed_eq {receiver : Receiver} {fuel : Nat} (hfuel : 0 < fuel) {dst : List UInt8}
    {channel : SecureChannel} {received : List Received}
    (h : processAt collect dst 0 receiver.received receiver.channel =
      ⟨.good, some dst.length, received, channel⟩) :
  receiver.feed fuel dst = some ⟨channel, received⟩
  := by
  rw [Receiver.feed, processChunks_eq hfuel h]
  rfl

end

/-! ### The part of a message received so far -/

/-- The entries of a channel when it has received a part of the message of a request. -/
def withPart (requestId : UInt32) (chunks : List ChunkEntry) :
    Option (List UInt8) → List ChunkEntry
  | none => chunks
  | some bytes => ⟨requestId, bytes⟩ :: chunks

/-- The channel after the checks of a chunk, with a part of a message received. -/
def receiving (channel : SecureChannel) (requestId n : UInt32) (part : Option (List UInt8)) :
    SecureChannel :=
  { channel with
    receiveSequenceNumber := n
    chunks := withPart requestId channel.chunks part }

section

variable {channel : SecureChannel} {requestId : UInt32} {t : UInt32} {header : ChunkHeader}
  {payload : List UInt8}

/-- The payload of a chunk is what is added to the part received. -/
theorem appendChunk_receiving (hnew : ∀ ch ∈ channel.chunks, ch.requestId ≠ requestId) (n : UInt32)
    (part : Option (List UInt8)) :
  (receiving channel requestId n part).appendChunk requestId (encodeChunk t header payload)
      secureMessageHeaderLength payload.length =
    receiving channel requestId n (some (part.getD [] ++ payload))
  := by
  rw [appendChunk, length_encodeChunk, if_neg (by omega), drop_encodeChunk, List.take_length]
  cases part with
  | none =>
      have hfind : channel.chunks.find? (fun ch => ch.requestId = requestId) = none := by
        simpa using hnew
      simp [receiving, withPart, hfind]
  | some bytes => simp [receiving, withPart, addBytes]

/-- The payload of the final chunk completes the message, and the part received is removed. -/
theorem finalizeChunk_receiving (hnew : ∀ ch ∈ channel.chunks, ch.requestId ≠ requestId)
    (n : UInt32) (part : Option (List UInt8)) :
  (receiving channel requestId n part).finalizeChunk requestId (encodeChunk t header payload)
      secureMessageHeaderLength payload.length =
    (part.getD [] ++ payload, receiving channel requestId n none)
  := by
  rw [finalizeChunk, length_encodeChunk, if_neg (by omega), drop_encodeChunk, List.take_length]
  cases part with
  | none =>
      have hfind : channel.chunks.find? (fun ch => ch.requestId = requestId) = none := by
        simpa using hnew
      simp [receiving, withPart, hfind]
  | some bytes => simp [receiving, withPart, removeChunk]

end

section

variable {client channel : SecureChannel} {received : List Received} {requestId n : UInt32}
  {part : Option (List UInt8)} {payload : List UInt8} {fuel : Nat}

/-- An intermediate chunk adds its payload to the part received so far. -/
theorem feed_intermediate (hfuel : 0 < fuel)
    (hid : client.securityToken.channelId = channel.securityToken.channelId)
    (htoken : client.securityToken.tokenId = channel.securityToken.tokenId)
    (hnew : ∀ ch ∈ channel.chunks, ch.requestId ≠ requestId)
    (hlength : payload.length + secureMessageHeaderLength < 2 ^ 32) :
  Receiver.feed fuel ⟨receiving channel requestId n part, received⟩
      (chunkTask client requestId (MessageType.msg + ChunkType.intermediate) (n + 1)
        payload).dst =
    some ⟨receiving channel requestId (n + 1) (some (part.getD [] ++ payload)), received⟩
  := by
  obtain ⟨hsize, hcontent⟩ := chunklength_eq hlength
  have htypes : (MessageType.msg + ChunkType.intermediate) &&& 0xff000000 =
      ChunkType.intermediate := by decide
  have hchecked : { receiving channel requestId n part with receiveSequenceNumber := n + 1 } =
      receiving channel requestId (n + 1) part := rfl
  apply feed_eq hfuel
  rw [chunkTask, processAt_encodeChunk collect _ (by decide) (by decide) hid htoken rfl,
    dispatchChunk]
  simp only [htypes, if_true, hsize, hcontent, Nat.zero_add, length_encodeChunk]
  rw [← appendChunk_receiving hnew, ← hchecked]
  rfl

/-- The final chunk completes the message. -/
theorem feed_final (hfuel : 0 < fuel)
    (hid : client.securityToken.channelId = channel.securityToken.channelId)
    (htoken : client.securityToken.tokenId = channel.securityToken.tokenId)
    (hnew : ∀ ch ∈ channel.chunks, ch.requestId ≠ requestId)
    (hlength : payload.length + secureMessageHeaderLength < 2 ^ 32)
    (hmessage : part.getD [] ++ payload ≠ []) :
  Receiver.feed fuel ⟨receiving channel requestId n part, received⟩
      (chunkTask client requestId (MessageType.msg + ChunkType.final) (n + 1) payload).dst =
    some ⟨receiving channel requestId (n + 1) none,
      received ++ [.message MessageType.msg requestId (part.getD [] ++ payload)]⟩
  := by
  obtain ⟨hsize, hcontent⟩ := chunklength_eq hlength
  have htypes : (MessageType.msg + ChunkType.final) &&& 0xff000000 = ChunkType.final := by decide
  have htype : (MessageType.msg + ChunkType.final) &&& 0x00ffffff = MessageType.msg := by decide
  have hne : ChunkType.final ≠ ChunkType.intermediate := by decide
  have hpos := List.length_pos_iff.mpr hmessage
  have hchecked : { receiving channel requestId n part with receiveSequenceNumber := n + 1 } =
      receiving channel requestId (n + 1) part := rfl
  apply feed_eq hfuel
  rw [chunkTask, processAt_encodeChunk collect _ (by decide) (by decide) hid htoken rfl,
    dispatchChunk]
  simp only [htypes, htype, hne, if_false, if_true, hsize, hcontent, Nat.zero_add,
    length_encodeChunk]
  have hnumber : (receiving channel requestId n part).receiveSequenceNumber = n := rfl
  rw [hnumber, hchecked, finalizeChunk_receiving hnew, if_pos hpos]
  rfl

/-- The intermediate chunks add their payloads. -/
theorem feed_intermediates (hfuel : 0 < fuel)
    (hid : client.securityToken.channelId = channel.securityToken.channelId)
    (htoken : client.securityToken.tokenId = channel.securityToken.tokenId)
    (hnew : ∀ ch ∈ channel.chunks, ch.requestId ≠ requestId) {payloads : List (List UInt8)}
    (hlength : ∀ payload ∈ payloads, payload.length + secureMessageHeaderLength < 2 ^ 32) :
  ∃ part', part'.getD [] = part.getD [] ++ payloads.flatten ∧
    feedTasks fuel (intermediateTasks client requestId MessageType.msg n payloads)
        ⟨receiving channel requestId n part, received⟩ =
      some ⟨receiving channel requestId (after n payloads) part', received⟩
  := by
  induction payloads generalizing n part with
  | nil =>
      use part
      constructor
      · simp
      · rfl
  | cons payload payloads ih =>
      obtain ⟨part', hpart, hfeed⟩ := @ih (n + 1) (some (part.getD [] ++ payload))
        (fun p hp => hlength p (List.mem_cons_of_mem _ hp))
      use part'
      constructor
      · rw [hpart, Option.getD_some, List.flatten_cons, List.append_assoc]
      · rw [intermediateTasks, feedTasks, feed_intermediate hfuel hid htoken hnew
          (hlength payload List.mem_cons_self), Option.bind_some, hfeed]
        rfl

/-- Before the last chunk nothing is called back. -/
theorem feed_silent (hfuel : 0 < fuel)
    (hid : client.securityToken.channelId = channel.securityToken.channelId)
    (htoken : client.securityToken.tokenId = channel.securityToken.tokenId)
    (hnew : ∀ ch ∈ channel.chunks, ch.requestId ≠ requestId) {payloads : List (List UInt8)}
    (hlength : ∀ payload ∈ payloads, payload.length + secureMessageHeaderLength < 2 ^ 32)
    {last : List UInt8} {before later : List Task}
    (h : before ++ later = messageTasks client requestId MessageType.msg n payloads last)
    (hlater : later ≠ []) :
  ∃ channel', feedTasks fuel before ⟨receiving channel requestId n part, received⟩ =
    some ⟨channel', received⟩
  := by
  induction payloads generalizing n part before with
  | nil =>
      cases before with
      | nil => exact ⟨_, rfl⟩
      | cons task before =>
          obtain ⟨-, hnil⟩ := List.cons.inj h
          cases hlater (List.append_eq_nil_iff.mp hnil).2
  | cons payload payloads ih =>
      cases before with
      | nil => exact ⟨_, rfl⟩
      | cons task before =>
          obtain ⟨rfl, hrest⟩ := List.cons.inj h
          obtain ⟨channel', hfeed⟩ := @ih (n + 1) (some (part.getD [] ++ payload))
            (fun p hp => hlength p (List.mem_cons_of_mem _ hp)) before hrest
          use channel'
          rw [feedTasks, feed_intermediate hfuel hid htoken hnew
            (hlength payload List.mem_cons_self), Option.bind_some, hfeed]

end

theorem feedTasks_append (fuel : Nat) (tasks tasks' : List Task) (receiver : Receiver) :
  feedTasks fuel (tasks ++ tasks') receiver =
    (feedTasks fuel tasks receiver).bind (feedTasks fuel tasks')
  := by
  induction tasks generalizing receiver with
  | nil => rfl
  | cons task tasks ih =>
      rw [List.cons_append, feedTasks, feedTasks, Option.bind_assoc]
      congr 1
      funext receiver
      apply ih

/-! ### The tasks of all clients -/

/-- The tasks of one channel among those of all. -/
def own (id : UInt32) (tasks : List Task) : List Task :=
  tasks.filter (fun task => task.channelId = id)

/-- What becomes of a channel depends only on its own tasks. -/
theorem feedChannels_own {fuel : Nat} {tasks : List Task} {id : UInt32}
    {receivers receivers' : UInt32 → Option Receiver} {receiver : Receiver}
    (hreceiver : receivers id = some receiver)
    (h : feedChannels fuel tasks receivers = some receivers') :
  ∃ receiver', receivers' id = some receiver' ∧
    feedTasks fuel (own id tasks) receiver = some receiver'
  := by
  induction tasks generalizing receivers receiver with
  | nil =>
      obtain rfl := Option.some.inj h
      use receiver, hreceiver
      rfl
  | cons task tasks ih =>
      obtain ⟨fed, hfed, hrest⟩ := Option.bind_eq_some_iff.mp h
      by_cases hid : task.channelId = id
      · obtain rfl := hid
        rw [hreceiver, Option.bind_some] at hfed
        obtain ⟨receiver', hreceiver', hfeed⟩ := ih (Function.update_self _ _ _) hrest
        use receiver', hreceiver'
        rw [own, List.filter_cons_of_pos (by simp), feedTasks, hfed, Option.bind_some]
        apply hfeed
      · have hkept : Function.update receivers task.channelId (some fed) id = some receiver := by
          rw [Function.update_of_ne (Ne.symm hid), hreceiver]
        obtain ⟨receiver', hreceiver', hfeed⟩ := ih hkept hrest
        use receiver', hreceiver'
        rw [own, List.filter_cons_of_neg (by simpa using hid)]
        apply hfeed

/-- The server gets through tasks of one channel when the channel does. -/
theorem feedChannels_of_feed {fuel : Nat} {tasks : List Task} {id : UInt32}
    (hown : ∀ task ∈ tasks, task.channelId = id) {receivers : UInt32 → Option Receiver}
    {receiver receiver' : Receiver} (hreceiver : receivers id = some receiver)
    (h : feedTasks fuel tasks receiver = some receiver') :
  ∃ receivers', feedChannels fuel tasks receivers = some receivers'
  := by
  induction tasks generalizing receivers receiver with
  | nil => exact ⟨receivers, rfl⟩
  | cons task tasks ih =>
      obtain ⟨fed, hfed, hrest⟩ := Option.bind_eq_some_iff.mp h
      obtain rfl := hown task List.mem_cons_self
      obtain ⟨receivers', hexecute⟩ := ih (fun t ht => hown t (List.mem_cons_of_mem _ ht))
        (Function.update_self task.channelId (some fed) receivers) hrest
      use receivers'
      rw [feedChannels, hreceiver, Option.bind_some, hfed, Option.bind_some, hexecute]

/-- The tasks of a message, however it ends, name the channel it is sent on. -/
theorem channelId_of_mem {client : SecureChannel} {requestId type t n n' : UInt32}
    {payloads : List (List UInt8)} {payload : List UInt8} {task : Task}
    (h : task ∈ intermediateTasks client requestId type n payloads ++
      [chunkTask client requestId t n' payload]) :
  task.channelId = client.securityToken.channelId
  := by
  induction payloads generalizing n with
  | nil =>
      rw [List.mem_singleton.mp h]
      rfl
  | cons payload payloads ih =>
      rcases List.mem_cons.mp h with rfl | h
      · rfl
      · apply ih h

/-- Tasks are delivered as one message: the server gets through them; whatever tasks of other
channels are executed in between, nothing is called back before the last one, and then the message
is, no part of it is left, and the sequence number expected next is the one after `n`. -/
structure Delivered (fuel : Nat) (tasks : List Task) (receiver : Receiver) (requestId n : UInt32)
    (message : Received) : Prop where
  gets_through : ∀ receivers : UInt32 → Option Receiver,
    receivers receiver.channel.securityToken.channelId = some receiver →
      ∃ receivers', feedChannels fuel tasks receivers = some receivers'
  silent : ∀ before later, later ≠ [] →
    own receiver.channel.securityToken.channelId before ++ later = tasks →
      ∀ receivers receivers', receivers receiver.channel.securityToken.channelId = some receiver →
        feedChannels fuel before receivers = some receivers' →
          ∃ channel, receivers' receiver.channel.securityToken.channelId =
            some ⟨channel, receiver.received⟩
  delivers : ∀ all, own receiver.channel.securityToken.channelId all = tasks →
    ∀ receivers receivers', receivers receiver.channel.securityToken.channelId = some receiver →
      feedChannels fuel all receivers = some receivers' →
        ∃ channel, receivers' receiver.channel.securityToken.channelId =
            some ⟨channel, receiver.received ++ [message]⟩ ∧
          (∀ ch ∈ channel.chunks, ch.requestId ≠ requestId) ∧ channel.receiveSequenceNumber = n

/-- A message of no special type is delivered, over a connection without limits, when both ends
agree on the channel, the token and the sequence number, each piece of it fits into a buffer, and
the channel holds no part of another message with its request id. -/
theorem message_roundTrip {client server : SecureChannel} {connection : Connection}
    (hconnection : client.connection = some connection) (hunlimited : Unlimited connection)
    (hid : client.securityToken.channelId = server.securityToken.channelId)
    (htoken : client.securityToken.tokenId = server.securityToken.tokenId)
    (hnumber : client.sendSequenceNumber = server.receiveSequenceNumber) {requestId : UInt32}
    (hnew : ∀ ch ∈ server.chunks, ch.requestId ≠ requestId) {content : Content}
    (htype : content.binaryEncodingId ∉ [446, 449, 452, 455]) (hretval : content.retval = .good)
    (htypeId : (NodeId.encodeNumeric 0 content.binaryEncodingId).length ≤ payloadSpace connection)
    (hpieces : ∀ piece ∈ content.pieces, piece.length ≤ payloadSpace connection)
    {fuel fuel' : Nat} (hfuel : 2 * content.pieces.length < fuel) (hfuel' : 0 < fuel')
    (received : List Received) :
  ∃ client' tasks,
    sendBinaryMessage false fuel client requestId content = some (.good, client', tasks) ∧
    Delivered fuel' tasks ⟨server, received⟩ requestId client'.sendSequenceNumber
      (.message MessageType.msg requestId
        (NodeId.encodeNumeric 0 content.binaryEncodingId ++ content.pieces.flatten))
  := by
  obtain ⟨payloads, last, hsend, hbytes, hlength⟩ :=
    sendBinaryMessage_unlimited hconnection hunlimited requestId hretval htypeId hpieces hfuel
  have hmsg : messageType content.binaryEncodingId = MessageType.msg := by
    simp only [List.mem_cons, List.not_mem_nil, or_false, not_or] at htype
    rw [messageType, if_neg (by tauto), if_neg (by tauto)]
  rw [hmsg, hnumber] at hsend
  have hpayloads := fun p hp => hlength p (List.mem_append_left _ hp)
  have hlast := hlength last (List.mem_append_right _ (List.mem_singleton.mpr rfl))
  have hstart : server = receiving server requestId server.receiveSequenceNumber none := rfl
  have hnonempty : payloads.flatten ++ last ≠ [] := by
    rw [hbytes]
    apply List.append_ne_nil_of_left_ne_nil
    apply NodeId.encodeNumeric_ne_nil
  -- fed with all its tasks, the channel calls back once
  have hfeed : feedTasks fuel' (messageTasks client requestId MessageType.msg
      server.receiveSequenceNumber payloads last) ⟨server, received⟩ =
      some ⟨receiving server requestId (after server.receiveSequenceNumber payloads + 1) none,
        received ++ [.message MessageType.msg requestId (payloads.flatten ++ last)]⟩ := by
    obtain ⟨part, hpart, hintermediate⟩ := @feed_intermediates client server received requestId
      server.receiveSequenceNumber none fuel' hfuel' hid htoken hnew payloads hpayloads
    rw [Option.getD_none, List.nil_append] at hpart
    rw [← hstart] at hintermediate
    rw [← hpart] at hnonempty ⊢
    rw [messageTasks, feedTasks_append, hintermediate, Option.bind_some, feedTasks,
      feed_final hfuel' hid htoken hnew hlast hnonempty]
    rfl
  refine ⟨_, _, hsend, ?_, ?_, ?_⟩
  · intro receivers hreceiver
    apply feedChannels_of_feed _ hreceiver hfeed
    intro task hmem
    rw [← hid]
    apply channelId_of_mem hmem
  · intro before later hlater htasks receivers receivers' hreceiver hexecute
    obtain ⟨receiver', hreceiver', hfeed'⟩ := feedChannels_own hreceiver hexecute
    obtain ⟨channel', hsilent⟩ := @feed_silent client server received requestId
      server.receiveSequenceNumber none fuel' hfuel' hid htoken hnew payloads hpayloads last _
      later htasks hlater
    obtain rfl := Option.some.inj (hsilent.symm.trans hfeed')
    use channel'
  · intro all htasks receivers receivers' hreceiver hexecute
    obtain ⟨receiver', hreceiver', hfeed'⟩ := feedChannels_own hreceiver hexecute
    rw [htasks, hfeed] at hfeed'
    obtain rfl := Option.some.inj hfeed'
    rw [← hbytes]
    exact ⟨_, hreceiver', hnew, rfl⟩

/-! ### A message that does not arrive as it was sent -/

/-- Tasks that make the channel call back something else are not delivered. -/
theorem not_delivered_of_feed {fuel : Nat} {tasks : List Task} {receiver receiver' : Receiver}
    {requestId n : UInt32} {message : Received}
    (hown : ∀ task ∈ tasks, task.channelId = receiver.channel.securityToken.channelId)
    (h : feedTasks fuel tasks receiver = some receiver')
    (hne : receiver'.received ≠ receiver.received ++ [message]) :
  ¬Delivered fuel tasks receiver requestId n message
  := by
  rintro ⟨-, -, hdelivers⟩
  have hall : own receiver.channel.securityToken.channelId tasks = tasks := by
    apply List.filter_eq_self.mpr
    intro task hmem
    simpa using hown task hmem
  obtain ⟨receivers', hexecute⟩ :=
    @feedChannels_of_feed fuel tasks _ hown (fun _ => some receiver) receiver receiver' rfl h
  obtain ⟨channel, hdelivered, -⟩ := hdelivers tasks hall _ _ rfl hexecute
  obtain ⟨fed, hfed, hfeed⟩ :=
    @feedChannels_own fuel tasks receiver.channel.securityToken.channelId _ _ _ rfl hexecute
  rw [hall, h] at hfeed
  obtain rfl := Option.some.inj hfeed
  obtain rfl := Option.some.inj (hfed.symm.trans hdelivered)
  apply hne rfl

/-- A connection whose buffers have space for eight bytes after the headers. -/
def smallConnection : Connection :=
  acknowledge ⟨5, .standard, .standard⟩ ⟨0, 65535, 32, 0, 0⟩

/-- A client about to use the last sequence number before the numbers start over. -/
def lastNumber : SecureChannel :=
  { SecureChannel.init with
    securityToken := ⟨1, 1, 0, 3600000⟩
    connection := some smallConnection
    sendSequenceNumber := 0xfffffffe
    receiveSequenceNumber := 0xfffffffe }

/-- A message of the given type, in two pieces. -/
def twoPieces (binaryEncodingId : UInt32) : Content :=
  ⟨binaryEncodingId, [[1, 2, 3, 4], [5, 6, 7]], .good⟩

/-- A CloseSecureChannelRequest becomes a CLO message, and a message whose request id the server's
channel holds a part for arrives with that part in front. -/
theorem not_delivered :
  (∃ client' tasks,
    sendBinaryMessage false 9 lastNumber 2 (twoPieces 452) = some (.good, client', tasks) ∧
    ¬Delivered 1 tasks ⟨lastNumber, []⟩ 2 client'.sendSequenceNumber
      (.message MessageType.msg 2
        (NodeId.encodeNumeric 0 452 ++ (twoPieces 452).pieces.flatten))) ∧
  ∃ client' tasks,
    sendBinaryMessage false 9 lastNumber 2 (twoPieces 631) = some (.good, client', tasks) ∧
    ¬Delivered 1 tasks ⟨{ lastNumber with chunks := [⟨2, [0xff]⟩] }, []⟩ 2
      client'.sendSequenceNumber
      (.message MessageType.msg 2
        (NodeId.encodeNumeric 0 631 ++ (twoPieces 631).pieces.flatten))
  := by
  constructor
  · refine ⟨_, _, rfl, not_delivered_of_feed (by decide) rfl ?_⟩
    decide
  · refine ⟨_, _, rfl, not_delivered_of_feed (by decide) rfl ?_⟩
    decide

theorem message_roundTrip_lastNumber :
  ∃ client' tasks,
    sendBinaryMessage false 9 lastNumber 2 (twoPieces 631) = some (.good, client', tasks) ∧
    tasks.length = 2 ∧ client'.sendSequenceNumber = 0 ∧
    Delivered 1 tasks ⟨lastNumber, []⟩ 2 client'.sendSequenceNumber
      (.message MessageType.msg 2 [1, 0, 0x77, 0x02, 1, 2, 3, 4, 5, 6, 7])
  := by
  have hunlimited : Unlimited smallConnection := by
    constructor
    · rfl
    · rfl
    · decide
    · apply accepted_acknowledge
  have hcomputed : (sendBinaryMessage false 9 lastNumber 2 (twoPieces 631)).map
      (fun sent => (sent.2.2.length, sent.2.1.sendSequenceNumber)) = some (2, 0) := rfl
  obtain ⟨client', tasks, hsend, hdelivered⟩ :=
    @message_roundTrip lastNumber lastNumber smallConnection rfl hunlimited rfl rfl rfl 2
      (by simp [lastNumber, SecureChannel.init]) (twoPieces 631) (by decide) rfl (by decide)
      (by decide) 9 1 (by decide) Nat.zero_lt_one []
  rw [hsend, Option.map_some] at hcomputed
  obtain ⟨hlength, hnumber⟩ := Prod.mk.inj (Option.some.inj hcomputed)
  use client', tasks, hsend, hlength, hnumber
  apply hdelivered

end Zuth
