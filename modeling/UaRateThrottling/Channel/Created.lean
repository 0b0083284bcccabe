import UaRateThrottling.Channel.Abort

/-!
# Chunks that are not stored

The client creates one node in the queue for each chunk of a message.  What `zoo_create` returns is
printed and not looked at any more: the chunk has used up its sequence number, sending goes on, and
the status code of the message does not tell.

* `consecutive_sendBinaryMessage` says that the chunks of a message use the sequence numbers one
  after the other, however the message ends.
* `queuedCompletely_iff` says that a message is queued as it is reported, and does not tear a hole
  into the numbers of its channel, only when every node has been created.
-/

namespace Zuth

open UA SecureChannel

/-- The result of a call of ZooKeeper that has succeeded. -/
def ZOK : Int := 0

/-- The tasks in the queue after the calls of `zoo_create` for them have had the given results. -/
def stored (results : List Int) (tasks : List Task) : List Task :=
  ((results.zip tasks).filter (fun created => created.1 = ZOK)).map Prod.snd

/-- The sequence number in the headers of the chunk of a task. -/
def Task.sequenceNumber (task : Task) : Option UInt32 := do
  let (_, rest) ← SecureConversationMessageHeader.decode task.dst
  let (_, rest) ← decodeUInt32 rest
  let (sequenceHeader, _) ← SequenceHeader.decode rest
  some sequenceHeader.sequenceNumber

/-- So many sequence numbers after `n`. -/
def numbersAfter (n : UInt32) : Nat → List UInt32
  | 0 => []
  | k + 1 => (n + 1) :: numbersAfter (n + 1) k

/-- The chunks of the tasks have the sequence numbers after `n`, one after the other. -/
def Consecutive (n : UInt32) (tasks : List Task) : Prop :=
  tasks.map Task.sequenceNumber = (numbersAfter n tasks.length).map some

/-- Messages sent on a channel one after the other, with the request id of each. -/
def sendMessages (closed : Bool) (fuel : Nat) : List (UInt32 × Content) → SecureChannel →
    Option (SecureChannel × List Task)
  | [], channel => some (channel, [])
  | (requestId, content) :: messages, channel => do
    let (_, channel, tasks) ← sendBinaryMessage closed fuel channel requestId content
    let (channel, tasks') ← sendMessages closed fuel messages channel
    some (channel, tasks ++ tasks')

/-- A message which ends with the given status code is queued completely, when the calls of
`zoo_create` for its chunks have had the given results: it is reported as good only when all of them
have succeeded; and when one has failed, the chunks stored for this message and the next ones still
have consecutive sequence numbers, and the server accepts them. -/
structure QueuedCompletely (channel : SecureChannel) (results : List Int) (status : StatusCode)
    (channel' : SecureChannel) (tasks : List Task) : Prop where
  good_only : status = .good → ∀ rc ∈ results, rc = ZOK
  consecutive : (∃ rc ∈ results, rc ≠ ZOK) →
    ∀ closed fuel messages channel'' tasks',
      sendMessages closed fuel messages channel' = some (channel'', tasks') →
        Consecutive channel.sendSequenceNumber (stored results tasks ++ tasks') ∧
        ∀ server, InStep channel server → Accepted 1 (stored results tasks ++ tasks') server

/-! ### The sequence numbers of a message -/

theorem sequenceNumber_chunkTask (channel : SecureChannel) (requestId t n : UInt32)
    (payload : List UInt8) :
  (chunkTask channel requestId t n payload).sequenceNumber = some n
  := by
  simp only [Task.sequenceNumber, chunkTask, encodeChunk, List.append_assoc,
    SecureConversationMessageHeader.decode_encode_append, Option.bind_eq_bind, Option.bind_some,
    decodeUInt32_encodeUInt32_append, SequenceHeader.decode_encode_append]

theorem length_numbersAfter (n : UInt32) (k : Nat) :
  (numbersAfter n k).length = k
  := by
  induction k generalizing n with
  | zero => rfl
  | succ k ih => rw [numbersAfter, List.length_cons, ih]

/-- The numbers after `n` go on after the first ones. -/
theorem numbersAfter_add (n : UInt32) (k m : Nat) :
  numbersAfter n (k + m) = numbersAfter n k ++ numbersAfter (n + UInt32.ofNat k) m
  := by
  induction k generalizing n with
  | zero =>
      rw [Nat.zero_add, numbersAfter, List.nil_append]
      simp
  | succ k ih =>
      rw [Nat.succ_add, numbersAfter, numbersAfter, ih, List.cons_append]
      rw [UInt32.ofNat_add, UInt32.add_assoc, UInt32.add_comm 1]
      rfl

theorem after_eq (n : UInt32) (payloads : List (List UInt8)) :
  after n payloads = n + UInt32.ofNat payloads.length
  := by
  induction payloads generalizing n with
  | nil => simp [after]
  | cons payload payloads ih =>
      rw [after, List.foldl_cons, ← after, ih, List.length_cons, UInt32.ofNat_add,
        UInt32.add_assoc, UInt32.add_comm 1]
      rfl

theorem length_intermediateTasks (channel : SecureChannel) (requestId type n : UInt32)
    (payloads : List (List UInt8)) :
  (intermediateTasks channel requestId type n payloads).length = payloads.length
  := by
  induction payloads generalizing n with
  | nil => rfl
  | cons payload payloads ih => rw [intermediateTasks, List.length_cons, ih, List.length_cons]

/-- The chunks of a message up to any last one have consecutive numbers. -/
theorem consecutive_chunkTasks (channel : SecureChannel) (requestId type t n : UInt32)
    (payloads : List (List UInt8)) (payload : List UInt8) :
  Consecutive n (intermediateTasks channel requestId type n payloads ++
    [chunkTask channel requestId t (after n payloads + 1) payload])
  := by
  induction payloads generalizing n with
  | nil =>
      rw [Consecutive, intermediateTasks, List.nil_append, List.map_singleton,
        sequenceNumber_chunkTask]
      rfl
  | cons head payloads ih =>
      have hrest := ih (n + 1)
      rw [Consecutive] at hrest ⊢
      rw [intermediateTasks, List.cons_append, List.map_cons, List.length_cons, numbersAfter,
        List.map_cons, sequenceNumber_chunkTask]
      apply congrArg _ hrest

/-- Where the numbers are consecutive, the number of a chunk says how many come before it. -/
theorem Consecutive.number_append {n : UInt32} {before later : List Task} {task : Task}
    (h : Consecutive n (before ++ task :: later)) :
  task.sequenceNumber = some (n + UInt32.ofNat before.length + 1)
  := by
  rw [Consecutive, List.length_append, List.length_cons, numbersAfter_add, List.map_append,
    List.map_append] at h
  obtain ⟨-, htask⟩ := List.append_inj h (by simp [length_numbersAfter])
  rw [List.map_cons, numbersAfter, List.map_cons] at htask
  apply (List.cons.inj htask).1

/-- However a message ends, its chunks use the sequence numbers one after the other. -/
theorem consecutive_sendBinaryMessage {closed : Bool} {fuel : Nat}
    {channel channel' : SecureChannel} {requestId : UInt32} {content : Content}
    {status : StatusCode} {tasks : List Task}
    (h : sendBinaryMessage closed fuel channel requestId content =
      some (status, channel', tasks)) :
  Consecutive channel.sendSequenceNumber tasks ∧
    channel'.sendSequenceNumber = channel.sendSequenceNumber + UInt32.ofNat tasks.length
  := by
  have hlength : ∀ (payloads : List (List UInt8)) (type n : UInt32) (task : Task),
      after n payloads + 1 = n + UInt32.ofNat
        (intermediateTasks channel requestId type n payloads ++ [task]).length := by
    intro payloads type n task
    rw [List.length_append, length_intermediateTasks, List.length_singleton, UInt32.ofNat_add,
      after_eq, UInt32.add_assoc]
    rfl
  cases sendBinaryMessage_cases h with
  | refused _ _ =>
      constructor
      · rfl
      · simp
  | sent progress =>
      constructor
      · apply consecutive_chunkTasks
      · apply hlength
  | aborted progress _ errorCode _ =>
      constructor
      · apply consecutive_chunkTasks
      · apply hlength

/-! ### A hole in the numbers -/

/-- A task that has not been created is missing. -/
theorem length_stored_lt {results : List Int} {tasks : List Task}
    (hlength : results.length = tasks.length) (h : ∃ rc ∈ results, rc ≠ ZOK) :
  (stored results tasks).length < tasks.length
  := by
  obtain ⟨rc, hmem, hne⟩ := h
  have hzip : (results.zip tasks).length = tasks.length := by
    rw [List.length_zip, hlength, Nat.min_self]
  rw [← List.map_fst_zip (Nat.le_of_eq hlength)] at hmem
  obtain ⟨created, hcreated, rfl⟩ := List.mem_map.mp hmem
  rw [stored, List.length_map, ← hzip]
  apply List.length_filter_lt_length_iff_exists.mpr
  use created, hcreated
  simpa using hne

/-- A message has at least one chunk when there is a buffer for it. -/
theorem ne_nil_of_buffer {closed : Bool} {fuel length : Nat} {channel channel' : SecureChannel}
    {connection : Connection} (hconnection : channel.connection = some connection)
    (hbuffer : getSendBuffer connection closed connection.localConf.sendBufferSize = .ok length)
    {requestId : UInt32} {content : Content} {status : StatusCode} {tasks : List Task}
    (h : sendBinaryMessage closed fuel channel requestId content =
      some (status, channel', tasks)) :
  tasks ≠ []
  := by
  rw [sendBinaryMessage_eq hconnection hbuffer (room_of_sends hconnection hbuffer h)] at h
  obtain ⟨encoded, hencode, hfinish⟩ := Option.map_eq_some_iff.mp h
  have haborted : ∀ sender, Aborted channel requestId (messageType content.binaryEncodingId)
      sender → sender.tasks ≠ [] := by
    rintro sender ⟨-, progress, errorCode, -, htasks⟩
    rw [htasks]
    simp
  rcases encodePieces_cases hconnection hbuffer hencode with ⟨progress, rfl⟩ | ⟨hretval, hsender⟩
  · by_cases herror : content.retval ≠ .good ∨
        Exceeds connection.remoteConf progress.payloads progress.dst
    · obtain ⟨retval, sender', -, hsender, hfinish'⟩ :=
        @finish_error closed channel connection requestId
          (messageType content.binaryEncodingId) hconnection progress content.retval herror
      rw [hfinish'] at hfinish
      obtain ⟨-, -, rfl⟩ := hfinish
      apply haborted _ hsender
    · obtain ⟨hencoded, hexceeds⟩ := not_or.mp herror
      rw [not_not.mp hencoded, finish_sent hconnection hexceeds] at hfinish
      obtain ⟨-, -, rfl⟩ := hfinish
      rw [messageTasks]
      simp
  · rw [finish_aborted hretval hsender] at hfinish
    obtain ⟨-, -, rfl⟩ := hfinish
    apply haborted _ hsender

/-- A message with a chunk has had a buffer. -/
theorem buffer_of_ne_nil {closed : Bool} {fuel : Nat} {channel channel' : SecureChannel}
    {requestId : UInt32} {content : Content} {status : StatusCode} {tasks : List Task}
    (h : sendBinaryMessage closed fuel channel requestId content = some (status, channel', tasks))
    (htasks : tasks ≠ []) :
  ∃ connection length, channel.connection = some connection ∧
    getSendBuffer connection closed connection.localConf.sendBufferSize = .ok length
  := by
  cases hconnection : channel.connection with
  | none =>
      simp only [sendBinaryMessage, hconnection, Option.some.injEq, Prod.mk.injEq] at h
      cases htasks h.2.2.symm
  | some connection =>
      cases hbuffer : getSendBuffer connection closed connection.localConf.sendBufferSize with
      | error retval =>
          simp only [sendBinaryMessage, hconnection, hbuffer, Option.some.injEq,
            Prod.mk.injEq] at h
          cases htasks h.2.2.symm
      | ok length => exact ⟨connection, length, rfl, hbuffer⟩

/-- As long as there is a buffer for it, there is a next message. -/
theorem exists_next {closed : Bool} {fuel : Nat} {channel channel' : SecureChannel}
    {requestId : UInt32} {content : Content} {status : StatusCode} {tasks : List Task}
    (h : sendBinaryMessage closed fuel channel requestId content = some (status, channel', tasks))
    (htasks : tasks ≠ []) :
  ∃ channel'' task tasks', sendMessages closed 1 [(requestId, ⟨631, [], .good⟩)] channel' =
      some (channel'', task :: tasks') ∧
    task.sequenceNumber = some (channel'.sendSequenceNumber + 1)
  := by
  obtain ⟨connection, length, hconnection, hbuffer⟩ := buffer_of_ne_nil h htasks
  have hroom := room_of_sends hconnection hbuffer h
  have hconnection' : channel'.connection = some connection := by
    rw [← hconnection]
    cases sendBinaryMessage_cases h <;> rfl
  have hsome : ∃ result, sendBinaryMessage closed 1 channel' requestId ⟨631, [], .good⟩ =
      some result := by
    rw [sendBinaryMessage_eq hconnection' hbuffer hroom]
    exact ⟨_, rfl⟩
  obtain ⟨⟨status', channel'', next⟩, hnext⟩ := hsome
  cases next with
  | nil => cases ne_nil_of_buffer hconnection' hbuffer hnext rfl
  | cons task tasks' =>
      use channel'', task, tasks'
      constructor
      · simp [sendMessages, hnext]
      · obtain ⟨hconsecutive, -⟩ := consecutive_sendBinaryMessage hnext
        have hfirst := @Consecutive.number_append _ [] tasks' task hconsecutive
        rw [hfirst]
        simp

/-- A message is queued completely when all its nodes have been created, and, unless the sequence
numbers come round, only then. -/
theorem queuedCompletely_iff {closed : Bool} {fuel : Nat} {channel channel' : SecureChannel}
    {requestId : UInt32} {content : Content} {status : StatusCode} {tasks : List Task}
    (h : sendBinaryMessage closed fuel channel requestId content = some (status, channel', tasks))
    {results : List Int} (hlength : results.length = tasks.length) :
  ((∀ rc ∈ results, rc = ZOK) → QueuedCompletely channel results status channel' tasks) ∧
    (tasks.length < 2 ^ 32 → QueuedCompletely channel results status channel' tasks →
      ∀ rc ∈ results, rc = ZOK)
  := by
  constructor
  · intro hall
    constructor
    · intro
      apply hall
    · rintro ⟨rc, hmem, hne⟩
      cases hne (hall rc hmem)
  · intro hlt hqueued
    by_contra hfailed
    push Not at hfailed
    have hmissing := length_stored_lt hlength hfailed
    have htasks : tasks ≠ [] := by
      rintro rfl
      cases hmissing
    obtain ⟨channel'', task, tasks', hnext, hnumber⟩ := exists_next h htasks
    obtain ⟨hconsecutive, -⟩ := hqueued.consecutive hfailed closed 1 _ _ _ hnext
    obtain ⟨-, hafter⟩ := consecutive_sendBinaryMessage h
    have hexpected := hconsecutive.number_append
    rw [hnumber, hafter, Option.some.injEq, UInt32.add_left_inj, UInt32.add_right_inj] at hexpected
    have hequal := congrArg UInt32.toNat hexpected
    rw [UInt32.toNat_ofNat_of_lt' hlt,
      UInt32.toNat_ofNat_of_lt' (Nat.lt_trans hmissing hlt)] at hequal
    omega

/-- The connection to ZooKeeper is lost while the node of a message of one chunk is created: the
message is reported as good, and the chunk of the next one is not accepted. -/
theorem lostCreate :
  ∃ channel' channel'' tasks next,
    sendBinaryMessage false 1 opened 2 ⟨631, [], .good⟩ = some (.good, channel', tasks) ∧
    tasks.length = 1 ∧ stored [-4] tasks = [] ∧
    sendMessages false 1 [(3, ⟨631, [], .good⟩)] channel' = some (channel'', next) ∧
    ¬Accepted 1 next opened ∧ ¬QueuedCompletely opened [-4] .good channel' tasks
  := by
  refine ⟨_, _, _, [chunkTask opened 3 (MessageType.msg + ChunkType.final) 3
    (NodeId.encodeNumeric 0 631)], rfl, rfl, rfl, rfl, ?_, ?_⟩
  · rintro ⟨result, hprocess, hretval, -⟩
    have hrefused : (processChunks collect (chunkTask opened 3
        (MessageType.msg + ChunkType.final) 3 (NodeId.encodeNumeric 0 631)).dst 1 []
        opened).map ChunksResult.retval = some .badCommunicationError := rfl
    rw [hprocess, Option.map_some, hretval] at hrefused
    cases hrefused
  · rintro ⟨hgood, -⟩
    cases hgood rfl (-4) (List.mem_singleton.mpr rfl)

theorem queuedCompletely_iff_secondLost :
  ∃ status channel' tasks,
    sendBinaryMessage false 9 opened 2 (twoPieces 631) = some (status, channel', tasks) ∧
    ¬QueuedCompletely opened [ZOK, -4] status channel' tasks
  := by
  refine ⟨_, _, _, rfl, ?_⟩
  intro hqueued
  cases (@queuedCompletely_iff false 9 opened _ 2 (twoPieces 631) _ _ rfl [ZOK, -4] rfl).2
    (by decide) hqueued (-4) (by simp)

end Zuth
