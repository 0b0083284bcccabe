import UaRateThrottling.Channel.Receive
import Mathlib.Data.List.Induction

/-!
# A throttled call and its response

`__ZUTH_Client_Service` renews the channel when that is due, sends the request through the queue
and waits for buffers from the connection, until a buffer completes a message, the receiving
fails or the deadline has passed.  `processServiceResponse` is called on every message such a
buffer completes.

* `ResponseDescription.processServiceResponse_cases` is all that one message can do, unless it is
  silent.
* `receiveResponse_eq` says that the first buffer that completes a message decides the call.
* `ownAnswer_iff` says exactly when a good result is the call's own answer: an error message with
  error code `0`, and a service fault with a good service result, are taken for one.
-/

universe u v

namespace Service

open UA

/-- A response: the service result, the rest of the response header, and the body. -/
structure Response (η : Type u) (β : Type v) where
  serviceResult : StatusCode
  header : η
  body : β
deriving DecidableEq

/-- A type of responses: the id of its binary encoding, the fields of a structure set to zero, and
`UA_decodeBinary` for the type and for a service fault, which has only the response header. -/
structure ResponseType (η : Type u) (β : Type v) where
  binaryEncodingId : UInt32
  headerInit : η
  bodyInit : β
  decode : List UInt8 → Except StatusCode (Response η β)
  decodeFault : List UInt8 → Except StatusCode (StatusCode × η)
  /-- Decoding fails with a status code that is not good. -/
  ne_good_of_decode : ∀ {bytes retval}, decode bytes = .error retval → retval ≠ .good
  ne_good_of_decodeFault : ∀ {bytes retval}, decodeFault bytes = .error retval → retval ≠ .good

/-- The binary encoding of a service fault. -/
def serviceFaultEncodingId : UInt32 := 397

/-- What the callback of a call works on.  `received` are the messages it was called on, and
`decodedFrom` is the message the whole response was decoded from, if any; the code does not keep
them. -/
structure ResponseDescription (η : Type u) (β : Type v) where
  processed : Bool
  requestId : UInt32
  response : Response η β
  received : List Received
  decodedFrom : Option (List UInt8)

section

variable {η : Type u} {β : Type v} (T : ResponseType η β)

/-- `UA_init`: all zero, which reads as a good service result. -/
def ResponseType.init : Response η β := ⟨.good, T.headerInit, T.bodyInit⟩

namespace ResponseDescription

/-- The description a call starts to wait with. -/
def init (requestId : UInt32) : ResponseDescription η β :=
  ⟨false, requestId, T.init, [], none⟩

/-- The response carries the given result. -/
def setServiceResult (rd : ResponseDescription η β) (retval : StatusCode) :
    ResponseDescription η β :=
  { rd with response := { rd.response with serviceResult := retval } }

/-- The end of `processServiceResponse`: a status code that is not good becomes the service
result. -/
def finish (rd : ResponseDescription η β) (retval : StatusCode) : ResponseDescription η β :=
  if retval = .good then rd
  else if retval = .badEncodingLimitsExceeded then rd.setServiceResult .badResponseTooLarge
  else rd.setServiceResult retval

/-- `processServiceResponse`, called on a message. -/
def processServiceResponse (rd : ResponseDescription η β) (received : Received) :
    ResponseDescription η β :=
  let rd := { rd with processed := true, received := rd.received ++ [received] }
  match received with
  | .error errorMessage => rd.finish errorMessage.error
  | .message messageType requestId message =>
    if messageType ≠ MessageType.msg then rd.finish .badTcpMessageTypeInvalid
    else if requestId ≠ rd.requestId then rd.finish .badInternalError
    else
      match NodeId.decode message with
      | .error retval => rd.finish retval
      | .ok (responseId, rest) =>
        if responseId ≠ .numeric 0 T.binaryEncodingId then
          if responseId = .numeric 0 serviceFaultEncodingId then
            match T.decodeFault rest with
            | .error retval =>
              { rd with
                response := ⟨.good, T.headerInit, rd.response.body⟩
                decodedFrom := none }.finish retval
            | .ok (serviceResult, header) =>
              { rd with
                response := ⟨serviceResult, header, rd.response.body⟩
                decodedFrom := none }
          else rd.finish .badInternalError
        else
          match T.decode rest with
          | .error retval => { rd with response := T.init, decodedFrom := none }.finish retval
          | .ok response => { rd with response := response, decodedFrom := some message }

end ResponseDescription

/-! ### The wait -/

/-- What an iteration of the wait gets: whether it begins before the deadline, and the status code
and the complete chunks of `UA_Connection_receiveChunksBlocking`. -/
structure Reception where
  inTime : Bool
  retval : StatusCode
  reply : List UInt8

/-- The status code of an iteration: past the deadline nothing is received any more. -/
def Reception.status (reception : Reception) : StatusCode :=
  if reception.inTime then reception.retval else .goodNonCriticalTimeout

/-- `ZUTH_receiveUAClientServiceResponse`, over what its iterations get.  There is no result
before the wait has ended. -/
def receiveResponse (fuel : Nat) : List Reception → SecureChannel → ResponseDescription η β →
    Option (ResponseDescription η β × SecureChannel)
  | [], _, _ => none
  | reception :: receptions, channel, rd =>
    if reception.status ≠ .good then some (rd.setServiceResult reception.status, channel)
    else
      match SecureChannel.processChunks
        (Callback.ofFold (ResponseDescription.processServiceResponse T)) reception.reply fuel rd
        channel with
      | none => none
      | some ⟨_, rd, channel⟩ =>
        if rd.processed then some (rd, channel) else receiveResponse fuel receptions channel rd

/-- What ends the wait: a status code, or the messages that the first buffer to complete any
completes. -/
def verdict (fuel : Nat) : List Reception → SecureChannel →
    Option (Except StatusCode (List Received) × SecureChannel)
  | [], _ => none
  | reception :: receptions, channel =>
    if reception.status ≠ .good then some (.error reception.status, channel)
    else
      match SecureChannel.processChunks collect reception.reply fuel [] channel with
      | none => none
      | some ⟨_, [], channel⟩ => verdict fuel receptions channel
      | some ⟨_, messages, channel⟩ => some (.ok messages, channel)

namespace ResponseDescription

variable {T} {rd : ResponseDescription η β}

@[simp]
theorem finish_processed (retval : StatusCode) :
  (rd.finish retval).processed = rd.processed
  := by
  rw [finish]
  split
  · rfl
  · split <;> rfl

/-- A message marks the call as processed. -/
theorem processServiceResponse_processed (received : Received) :
  (rd.processServiceResponse T received).processed = true
  := by
  cases received with
  | error errorMessage => simp [processServiceResponse]
  | message messageType requestId message =>
      simp only [processServiceResponse]
      repeat' split
      all_goals simp

/-- One message, or more, mark the call as processed. -/
theorem foldl_processed {messages : List Received} (h : messages ≠ []) :
  (messages.foldl (processServiceResponse T) rd).processed = true
  := by
  rcases List.eq_nil_or_concat messages with rfl | ⟨messages, message, rfl⟩
  · contradiction
  · rw [List.concat_eq_append, List.foldl_append, List.foldl_cons, List.foldl_nil]
    apply processServiceResponse_processed

end ResponseDescription

/-- What the verdict does to the response. -/
def settle (rd : ResponseDescription η β) :
    Except StatusCode (List Received) → ResponseDescription η β
  | .error retval => rd.setServiceResult retval
  | .ok messages => messages.foldl (ResponseDescription.processServiceResponse T) rd

/-- The wait ends with its verdict: the callback is called on the messages of the first buffer
that completes any. -/
theorem receiveResponse_eq (fuel : Nat) (receptions : List Reception) (channel : SecureChannel)
    {rd : ResponseDescription η β} (hprocessed : rd.processed = false) :
  receiveResponse T fuel receptions channel rd =
    (verdict fuel receptions channel).map (Prod.map (settle T rd) id)
  := by
  induction receptions generalizing channel with
  | nil => rfl
  | cons reception receptions ih =>
      rw [receiveResponse, verdict]
      split
      · rfl
      · rw [SecureChannel.processChunks_fold]
        cases hcollect : SecureChannel.processChunks collect reception.reply fuel [] channel with
        | none => rfl
        | some result =>
            obtain ⟨retval, messages, channel'⟩ := result
            simp only [Option.map_some, SecureChannel.ChunksResult.map]
            cases messages with
            | nil =>
                rw [List.foldl_nil, hprocessed]
                apply ih
            | cons message messages =>
                rw [if_pos (ResponseDescription.foldl_processed (List.cons_ne_nil _ _))]
                rfl

/-- A wait that ends without a message ends with a status code that is not good. -/
theorem ne_good_of_verdict {fuel : Nat} {receptions : List Reception}
    {channel channel' : SecureChannel} {retval : StatusCode}
    (h : verdict fuel receptions channel = some (.error retval, channel')) :
  retval ≠ .good
  := by
  induction receptions generalizing channel with
  | nil => cases h
  | cons reception receptions ih =>
      rw [verdict] at h
      split at h
      · rename_i hbad
        obtain ⟨heq, -⟩ := Prod.mk.inj (Option.some.inj h)
        rw [← Except.error.inj heq]
        apply hbad
      · split at h
        · cases h
        · apply ih h
        · cases h

/-! ### What one message does -/

/-- An error message with error code `0`: it is logged, and nothing else. -/
def silent : Received → Bool
  | .error errorMessage => errorMessage.error = .good
  | .message _ _ _ => false

/-- The bytes of a message are a response of the expected type. -/
def ResponseType.Encodes (message : List UInt8) (response : Response η β) : Prop :=
  ∃ rest, NodeId.decode message = .ok (.numeric 0 T.binaryEncodingId, rest) ∧
    T.decode rest = .ok response

/-- A service fault for the given request whose service result is good. -/
def GoodFault (requestId : UInt32) (received : Received) : Prop :=
  ∃ message rest header, received = .message MessageType.msg requestId message ∧
    NodeId.decode message = .ok (.numeric 0 serviceFaultEncodingId, rest) ∧
    serviceFaultEncodingId ≠ T.binaryEncodingId ∧
    T.decodeFault rest = .ok (.good, header)

/-- A good result is the call's own answer: the response was decoded, as a response of the
expected type, from a MSG message with the request id of the call. -/
def ResponseDescription.OwnAnswer (rd : ResponseDescription η β) : Prop :=
  rd.response.serviceResult = .good →
    ∃ message, rd.decodedFrom = some message ∧
      .message MessageType.msg rd.requestId message ∈ rd.received ∧
      T.Encodes message rd.response

namespace ResponseDescription

variable {T} {rd : ResponseDescription η β}

@[simp]
theorem finish_requestId (retval : StatusCode) :
  (rd.finish retval).requestId = rd.requestId
  := by
  rw [finish]
  split
  · rfl
  · split <;> rfl

@[simp]
theorem finish_received (retval : StatusCode) :
  (rd.finish retval).received = rd.received
  := by
  rw [finish]
  split
  · rfl
  · split <;> rfl

/-- A status code that is not good makes the service result one that is not good. -/
theorem finish_serviceResult {retval : StatusCode} (h : retval ≠ .good) :
  (rd.finish retval).response.serviceResult ≠ .good
  := by
  have htooLarge : StatusCode.badResponseTooLarge ≠ .good := by decide
  rw [finish, if_neg h]
  split
  · apply htooLarge
  · apply h

/-- A message does not change the request id, and is kept. -/
theorem processServiceResponse_received (T : ResponseType η β) (rd : ResponseDescription η β)
    (received : Received) :
  (rd.processServiceResponse T received).requestId = rd.requestId ∧
    (rd.processServiceResponse T received).received = rd.received ++ [received]
  := by
  cases received with
  | error errorMessage => simp [processServiceResponse]
  | message messageType requestId message =>
      simp only [processServiceResponse]
      repeat' split
      all_goals simp

/-- Messages do not change the request id. -/
theorem foldl_requestId (T : ResponseType η β) (rd : ResponseDescription η β)
    (messages : List Received) :
  (messages.foldl (processServiceResponse T) rd).requestId = rd.requestId
  := by
  induction messages generalizing rd with
  | nil => rfl
  | cons received messages ih =>
      rw [List.foldl_cons, ih, (processServiceResponse_received T rd received).1]

/-- What a message that is not silent can do: make the result bad, be decoded as the response,
or, when it is a service fault with a good result, make the result good. -/
inductive Decides (T : ResponseType η β) (rd : ResponseDescription η β) (received : Received)
    (rd' : ResponseDescription η β) : Prop where
  | bad (hfault : ¬GoodFault T rd.requestId received)
      (hbad : rd'.response.serviceResult ≠ .good)
  | answer (hfault : ¬GoodFault T rd.requestId received) {message : List UInt8}
      (hmessage : received = .message MessageType.msg rd.requestId message)
      (hfrom : rd'.decodedFrom = some message) (hencodes : T.Encodes message rd'.response)
  | fault (hfault : GoodFault T rd.requestId received)
      (hgood : rd'.response.serviceResult = .good) (hfrom : rd'.decodedFrom = none)

/-- Only a message for the request can be a good fault. -/
theorem not_goodFault_of_ne {requestId messageType requestId' : UInt32} {message : List UInt8}
    (h : messageType ≠ MessageType.msg ∨ requestId' ≠ requestId) :
  ¬GoodFault T requestId (.message messageType requestId' message)
  := by
  rintro ⟨message', rest, header, hmessage, -⟩
  obtain ⟨htype, hrequestId, -⟩ := Received.message.inj hmessage
  cases h with
  | inl h => apply h htype
  | inr h => apply h hrequestId

/-- A good fault starts with a node id. -/
theorem not_goodFault_of_error {requestId : UInt32} {message : List UInt8} {retval : StatusCode}
    (hnodeId : NodeId.decode message = .error retval) :
  ¬GoodFault T requestId (.message MessageType.msg requestId message)
  := by
  rintro ⟨message', rest, header, hmessage, hdecode, -⟩
  obtain ⟨-, -, rfl⟩ := Received.message.inj hmessage
  rw [hnodeId] at hdecode
  cases hdecode

/-- A message for the request is a good fault by its node id and by what follows it. -/
theorem goodFault_iff {requestId : UInt32} {message rest : List UInt8} {responseId : NodeId}
    (hnodeId : NodeId.decode message = .ok (responseId, rest)) :
  GoodFault T requestId (.message MessageType.msg requestId message) ↔
    responseId = .numeric 0 serviceFaultEncodingId ∧
      serviceFaultEncodingId ≠ T.binaryEncodingId ∧
      ∃ header, T.decodeFault rest = .ok (.good, header)
  := by
  constructor
  · rintro ⟨message', rest', header, hmessage, hdecode, hne, hgood⟩
    obtain ⟨-, -, rfl⟩ := Received.message.inj hmessage
    obtain ⟨rfl, rfl⟩ := Prod.mk.inj (Except.ok.inj (hnodeId.symm.trans hdecode))
    use rfl, hne, header
  · rintro ⟨rfl, hne, header, hgood⟩
    use message, rest, header, rfl, hnodeId, hne

/-- A message for the request that is a service fault. -/
theorem decides_of_fault {message rest : List UInt8}
    (hnodeId : NodeId.decode message = .ok (.numeric 0 serviceFaultEncodingId, rest))
    (hne : serviceFaultEncodingId ≠ T.binaryEncodingId) :
  Decides T rd (.message MessageType.msg rd.requestId message)
    (rd.processServiceResponse T (.message MessageType.msg rd.requestId message))
  := by
  have hid : NodeId.numeric 0 serviceFaultEncodingId ≠ .numeric 0 T.binaryEncodingId := by
    intro heq
    apply hne (NodeId.numeric.inj heq).2
  simp only [processServiceResponse, ne_eq, not_true_eq_false, if_false, hnodeId, hid,
    not_false_eq_true, if_true]
  cases hdecode : T.decodeFault rest with
  | error retval =>
      apply Decides.bad
      · rw [goodFault_iff hnodeId, hdecode]
        rintro ⟨-, -, header, hgood⟩
        cases hgood
      · apply finish_serviceResult (T.ne_good_of_decodeFault hdecode)
  | ok decoded =>
      obtain ⟨serviceResult, header⟩ := decoded
      by_cases hgood : serviceResult = .good
      · obtain rfl := hgood
        apply Decides.fault
        · rw [goodFault_iff hnodeId, hdecode]
          use rfl, hne, header
        · rfl
        · rfl
      · apply Decides.bad
        · rw [goodFault_iff hnodeId, hdecode]
          rintro ⟨-, -, header', heq⟩
          apply hgood (Prod.mk.inj (Except.ok.inj heq)).1
        · apply hgood

/-- A message for the request that claims to be of the expected type. -/
theorem decides_of_expected {message rest : List UInt8}
    (hnodeId : NodeId.decode message = .ok (.numeric 0 T.binaryEncodingId, rest)) :
  Decides T rd (.message MessageType.msg rd.requestId message)
    (rd.processServiceResponse T (.message MessageType.msg rd.requestId message))
  := by
  have hfault : ¬GoodFault T rd.requestId (.message MessageType.msg rd.requestId message) := by
    rw [goodFault_iff hnodeId]
    rintro ⟨heq, hne, -⟩
    apply hne (NodeId.numeric.inj heq).2.symm
  simp only [processServiceResponse, ne_eq, not_true_eq_false, if_false, hnodeId]
  cases hdecode : T.decode rest with
  | error retval =>
      apply Decides.bad hfault
      apply finish_serviceResult (T.ne_good_of_decode hdecode)
  | ok response =>
      apply Decides.answer hfault rfl rfl
      use rest, hnodeId, hdecode

/-- A message for the request. -/
theorem decides_of_own (T : ResponseType η β) (rd : ResponseDescription η β)
    (message : List UInt8) :
  Decides T rd (.message MessageType.msg rd.requestId message)
    (rd.processServiceResponse T (.message MessageType.msg rd.requestId message))
  := by
  cases hnodeId : NodeId.decode message with
  | error retval =>
      apply Decides.bad (not_goodFault_of_error hnodeId)
      simp only [processServiceResponse, ne_eq, not_true_eq_false, if_false, hnodeId]
      apply finish_serviceResult (NodeId.ne_good_of_decode hnodeId)
  | ok decoded =>
      obtain ⟨responseId, rest⟩ := decoded
      by_cases hid : responseId = .numeric 0 T.binaryEncodingId
      · obtain rfl := hid
        apply decides_of_expected hnodeId
      · by_cases hfaultId : responseId = .numeric 0 serviceFaultEncodingId
        · obtain rfl := hfaultId
          apply decides_of_fault hnodeId
          intro heq
          apply hid (congrArg _ heq)
        · apply Decides.bad
          · rw [goodFault_iff hnodeId]
            rintro ⟨heq, -⟩
            contradiction
          · simp only [processServiceResponse, ne_eq, not_true_eq_false, if_false, hnodeId, hid,
              hfaultId, not_false_eq_true, if_true]
            apply finish_serviceResult (by decide)

/-- A silent message leaves the response as it is. -/
theorem processServiceResponse_of_silent {received : Received} (h : silent received = true) :
  (rd.processServiceResponse T received).response = rd.response ∧
    (rd.processServiceResponse T received).decodedFrom = rd.decodedFrom
  := by
  cases received with
  | error errorMessage =>
      have hgood : errorMessage.error = .good := by simpa [silent] using h
      simp [processServiceResponse, finish, hgood]
  | message messageType requestId message => cases h

/-- A message that is not silent decides. -/
theorem processServiceResponse_cases {received : Received} (h : silent received = false) :
  Decides T rd received (rd.processServiceResponse T received)
  := by
  cases received with
  | error errorMessage =>
      have hbad : errorMessage.error ≠ .good := by simpa [silent] using h
      apply Decides.bad
      · rintro ⟨message, rest, header, hmessage, -⟩
        cases hmessage
      · apply finish_serviceResult hbad
  | message messageType requestId message =>
      by_cases htype : messageType = MessageType.msg
      · obtain rfl := htype
        by_cases hrequestId : requestId = rd.requestId
        · obtain rfl := hrequestId
          apply decides_of_own
        · apply Decides.bad (not_goodFault_of_ne (Or.inr hrequestId))
          simp only [processServiceResponse, ne_eq, not_true_eq_false, if_false, hrequestId,
            not_false_eq_true, if_true]
          apply finish_serviceResult (by decide)
      · apply Decides.bad (not_goodFault_of_ne (Or.inl htype))
        simp only [processServiceResponse, ne_eq, htype, not_false_eq_true, if_true]
        apply finish_serviceResult (by decide)

/-- A message that is not silent decides anew: the result is the call's own answer unless the
message is a good fault. -/
theorem ownAnswer_of_not_silent {received : Received} (hsilent : silent received = false) :
  (rd.processServiceResponse T received).OwnAnswer T ↔
    ¬GoodFault T rd.requestId received
  := by
  obtain ⟨hrequestId, hreceived⟩ := processServiceResponse_received T rd received
  rw [OwnAnswer, hrequestId, hreceived]
  cases @processServiceResponse_cases _ _ T rd _ hsilent with
  | bad hfault hbad =>
      simp only [hfault, not_false_eq_true, iff_true]
      intro hgood
      contradiction
  | @answer hfault message hmessage hfrom hencodes =>
      simp only [hfault, not_false_eq_true, iff_true]
      intro _
      use message, hfrom
      constructor
      · rw [hmessage]
        simp
      · apply hencodes
  | fault hfault hgood hfrom =>
      simp only [hfault, not_true_eq_false, iff_false]
      intro hown
      obtain ⟨message, hmessage, -⟩ := hown hgood
      rw [hfrom] at hmessage
      cases hmessage

/-- A silent message leaves what was decided. -/
theorem ownAnswer_of_silent {received : Received} (hsilent : silent received = true) :
  (rd.processServiceResponse T received).OwnAnswer T ↔ rd.OwnAnswer T
  := by
  obtain ⟨hrequestId, hreceived⟩ := processServiceResponse_received T rd received
  obtain ⟨hresponse, hfrom⟩ := @processServiceResponse_of_silent _ _ T rd _ hsilent
  rw [OwnAnswer, OwnAnswer, hrequestId, hreceived, hresponse, hfrom]
  cases received with
  | error errorMessage => simp
  | message messageType requestId message => cases hsilent

/-- The last message that is not silent decides. -/
theorem ownAnswer_foldl (T : ResponseType η β) (rd : ResponseDescription η β)
    (messages : List Received) :
  (messages.foldl (processServiceResponse T) rd).OwnAnswer T ↔
    ((messages.filter (fun received => !silent received)).getLast?).elim (rd.OwnAnswer T)
      (fun received => ¬GoodFault T rd.requestId received)
  := by
  induction messages using List.reverseRecOn with
  | nil => rfl
  | append_singleton messages received ih =>
      rw [List.foldl_append, List.foldl_cons, List.foldl_nil, List.filter_append]
      cases hsilent : silent received with
      | true =>
          rw [ownAnswer_of_silent hsilent, ih]
          simp [hsilent]
      | false =>
          rw [ownAnswer_of_not_silent hsilent, foldl_requestId]
          simp [hsilent]

/-- Before any message, the result reads as good without being an answer. -/
theorem not_ownAnswer_init (requestId : UInt32) :
  ¬(init T requestId).OwnAnswer T
  := by
  intro hown
  obtain ⟨message, hmessage, -⟩ := hown rfl
  cases hmessage

/-- From before any message, the result is the call's own answer exactly when there is a message
that is not silent, and the last one is no good fault. -/
theorem ownAnswer_foldl_init (T : ResponseType η β) (requestId : UInt32)
    (messages : List Received) :
  (messages.foldl (processServiceResponse T) (init T requestId)).OwnAnswer T ↔
    ∃ received, (messages.filter (fun received => !silent received)).getLast? = some received ∧
      ¬GoodFault T requestId received
  := by
  rw [ownAnswer_foldl]
  cases (messages.filter (fun received => !silent received)).getLast? with
  | none =>
      have hnot := @not_ownAnswer_init _ _ T requestId
      simpa using hnot
  | some received => simp [init]

/-- A result that is not good is no false answer. -/
theorem ownAnswer_setServiceResult {retval : StatusCode} (h : retval ≠ .good) :
  (rd.setServiceResult retval).OwnAnswer T
  := by
  intro hgood
  contradiction

end ResponseDescription

end

/-! ### The call -/

/-- The state of a client, as far as a call changes it. -/
inductive ClientState where
  | ready
  | connected
  | faulted
  | errored
deriving DecidableEq

/-- A client on an open channel. -/
structure Client where
  channel : SecureChannel
  requestId : UInt32
  requestHandle : UInt32
  state : ClientState

section

variable {η : Type u} {β : Type v} (T : ResponseType η β)

/-- `__ZUTH_Client_Service`, after `renew`, the renewal of the channel, and with `send`, which
sends the request under a request id. -/
def service (renew : Client → StatusCode × Client)
    (send : SecureChannel → UInt32 → StatusCode × SecureChannel) (fuel : Nat)
    (receptions : List Reception) (client : Client) :
    Option (ResponseDescription η β × Client) :=
  match renew client with
  | (retval, client) =>
    if retval ≠ .good then
      some ((ResponseDescription.init T client.requestId).setServiceResult retval,
        { client with state := .errored })
    else
      let requestId := client.requestId + 1
      let rd := ResponseDescription.init T requestId
      match send client.channel requestId with
      | (retval, channel) =>
        let client := { client with
          channel := channel
          requestId := requestId
          requestHandle := client.requestHandle + 1 }
        if retval ≠ .good then
          some (rd.setServiceResult
              (if retval = .badEncodingLimitsExceeded then .badRequestTooLarge else retval),
            { client with state := .faulted })
        else
          (receiveResponse T fuel receptions channel rd).map
            (fun (rd, channel) => (rd, { client with channel := channel }))

/-- The renewal or the sending fails, or the wait ends with the deadline or with an error, or the
first buffer that completes a message completes one that is not silent, and the last such one is
not a service fault for the request with a good result. -/
def Decided (renew : Client → StatusCode × Client)
    (send : SecureChannel → UInt32 → StatusCode × SecureChannel) (fuel : Nat)
    (receptions : List Reception) (client : Client) : Prop :=
  (renew client).1 ≠ .good ∨
    let requestId := (renew client).2.requestId + 1
    let sent := send (renew client).2.channel requestId
    sent.1 ≠ .good ∨
      ∀ messages channel, verdict fuel receptions sent.2 = some (.ok messages, channel) →
        ∃ received, (messages.filter (fun received => !silent received)).getLast? =
          some received ∧ ¬GoodFault T requestId received

/-- What is received for a request is its own answer exactly when the wait ends with an error, or
the last message that is not silent, of the first buffer that completes a message, exists and is not
a good fault. -/
theorem ownAnswer_receiveResponse {fuel : Nat} {receptions : List Reception}
    {channel channel' : SecureChannel} {requestId : UInt32} {rd : ResponseDescription η β}
    (h : receiveResponse T fuel receptions channel (.init T requestId) = some (rd, channel')) :
  rd.OwnAnswer T ↔
    ∀ messages channel', verdict fuel receptions channel = some (.ok messages, channel') →
      ∃ received, (messages.filter (fun received => !silent received)).getLast? =
        some received ∧ ¬GoodFault T requestId received
  := by
  rw [receiveResponse_eq T fuel receptions channel rfl, Option.map_eq_some_iff] at h
  obtain ⟨⟨outcome, channel''⟩, hverdict, heq⟩ := h
  obtain ⟨rfl, -⟩ := Prod.mk.inj heq
  rw [hverdict]
  cases outcome with
  | error retval =>
      constructor
      · rintro - messages channel' hok
        cases hok
      · intro _
        apply ResponseDescription.ownAnswer_setServiceResult
        apply ne_good_of_verdict hverdict
  | ok messages =>
      have hdecide := ResponseDescription.ownAnswer_foldl_init T requestId messages
      constructor
      · rintro hown messages' channel' hok
        obtain ⟨heq', -⟩ := Prod.mk.inj (Option.some.inj hok)
        obtain rfl := Except.ok.inj heq'
        apply hdecide.mp hown
      · intro hall
        apply hdecide.mpr
        apply hall messages channel'' rfl

/-- A call that returns a good result returns its own answer exactly when the last message that is
not silent, of the first buffer that completes a message, exists and is not a good fault, or the
call fails before. -/
theorem ownAnswer_iff {renew : Client → StatusCode × Client}
    {send : SecureChannel → UInt32 → StatusCode × SecureChannel} {fuel : Nat}
    {receptions : List Reception} {client client' : Client} {rd : ResponseDescription η β}
    (h : service T renew send fuel receptions client = some (rd, client')) :
  rd.OwnAnswer T ↔ Decided T renew send fuel receptions client
  := by
  rw [service] at h
  rw [Decided]
  cases hrenew : renew client with
  | mk retval renewed =>
      rw [hrenew] at h
      dsimp only at h ⊢
      split at h
      · rename_i hbad
        obtain ⟨rfl, -⟩ := Prod.mk.inj (Option.some.inj h)
        constructor
        · intro _
          left
          apply hbad
        · intro _
          apply ResponseDescription.ownAnswer_setServiceResult hbad
      · rename_i hrenewed
        cases hsend : send renewed.channel (renewed.requestId + 1) with
        | mk retval' channel =>
            rw [hsend] at h
            dsimp only at h ⊢
            split at h
            · rename_i hbad
              obtain ⟨rfl, -⟩ := Prod.mk.inj (Option.some.inj h)
              have htooLarge : StatusCode.badRequestTooLarge ≠ .good := by decide
              constructor
              · intro _
                right
                left
                apply hbad
              · intro _
                apply ResponseDescription.ownAnswer_setServiceResult
                split
                · apply htooLarge
                · apply hbad
            · rename_i hsent
              obtain ⟨⟨rd', channel'⟩, hreceive, heq⟩ := Option.map_eq_some_iff.mp h
              obtain ⟨rfl, -⟩ := Prod.mk.inj heq
              simp only [hrenewed, hsent, false_or]
              apply ownAnswer_receiveResponse T hreceive

end

/-! ### Error code zero and a good fault -/

/-- The fields of a response header other than the service result, when it carries no
diagnostics, no strings and no additional header. -/
structure PlainHeader where
  timestamp : List UInt8
  requestHandle : UInt32
deriving DecidableEq

/-- How such a header ends. -/
def plainEnd : List UInt8 := [0, 0xff, 0xff, 0xff, 0xff, 0, 0, 0]

/-- Such a header is decoded; any other is refused. -/
def decodePlainHeader (bytes : List UInt8) : Except StatusCode (StatusCode × PlainHeader) :=
  let decoded := do
    let (requestHandle, rest) ← decodeUInt32 (bytes.drop 8)
    let (serviceResult, rest) ← decodeUInt32 rest
    if rest = plainEnd then some (serviceResult, PlainHeader.mk (bytes.take 8) requestHandle)
    else none
  decoded.elim (.error .badDecodingError) .ok

theorem ne_good_of_decodePlainHeader {bytes : List UInt8} {retval : StatusCode}
    (h : decodePlainHeader bytes = .error retval) :
  retval ≠ .good
  := by
  simp only [decodePlainHeader] at h
  generalize (do
    let (requestHandle, rest) ← decodeUInt32 (bytes.drop 8)
    let (serviceResult, rest) ← decodeUInt32 rest
    if rest = plainEnd then some (serviceResult, PlainHeader.mk (bytes.take 8) requestHandle)
    else none) = decoded at h
  cases decoded with
  | none =>
      obtain rfl := Except.error.inj h
      decide
  | some a => cases h

/-- `CloseSessionResponse`, which has no body. -/
def closeSessionResponse : ResponseType PlainHeader Unit where
  binaryEncodingId := 476
  headerInit := ⟨[0, 0, 0, 0, 0, 0, 0, 0], 0⟩
  bodyInit := ()
  decode bytes := (decodePlainHeader bytes).map (fun (serviceResult, header) =>
    ⟨serviceResult, header, ()⟩)
  decodeFault := decodePlainHeader
  ne_good_of_decode := by
    intro bytes retval h
    cases hdecode : decodePlainHeader bytes with
    | error retval' =>
        rw [hdecode] at h
        obtain rfl := Except.error.inj h
        apply ne_good_of_decodePlainHeader hdecode
    | ok decoded =>
        rw [hdecode] at h
        cases h
  ne_good_of_decodeFault := ne_good_of_decodePlainHeader

/-- A reply in one chunk, on channel `1` under token `1`, with a response header only. -/
def plainReply (sequenceNumber requestId encodingId : UInt32) (serviceResult : StatusCode) :
    List UInt8 :=
  let header : SecureConversationMessageHeader :=
    ⟨⟨MessageType.msg + ChunkType.final, 52⟩, 1⟩
  header.encode ++ encodeUInt32 1 ++ (SequenceHeader.mk sequenceNumber requestId).encode ++
    NodeId.encodeNumeric 0 encodingId ++ [0, 0, 0, 0, 0, 0, 0, 0] ++ encodeUInt32 requestId ++
    encodeUInt32 serviceResult ++ plainEnd

/-- An error message with error code `0` and no reason. -/
def errorZero : List UInt8 :=
  encodeUInt32 (MessageType.err + ChunkType.final) ++ encodeUInt32 16 ++ encodeUInt32 0 ++
    encodeNullString

/-- A client whose channel needs no renewal. -/
def client : Client where
  channel := { SecureChannel.init with
    securityToken := ⟨1, 1, 0, 3600000⟩
    receiveSequenceNumber := 1
    sendSequenceNumber := 1 }
  requestId := 1
  requestHandle := 0
  state := .connected

/-- The client makes a call whose request is sent in one chunk. -/
def call (receptions : List Reception) :
    Option (ResponseDescription PlainHeader Unit × Client) :=
  service closeSessionResponse (fun client => (.good, client))
    (fun channel _ =>
      (.good, { channel with sendSequenceNumber := channel.sendSequenceNumber + 1 }))
    2 receptions client

/-- A call that receives an error message with error code `0`, and a call that receives a service
fault with a good result, return a good result that is not their own answer. -/
theorem good_without_answer :
  (∃ rd client, call [⟨true, .good, errorZero⟩] = some (rd, client) ∧
      rd.response.serviceResult = .good ∧ ¬rd.OwnAnswer closeSessionResponse) ∧
    ∃ rd client, call [⟨true, .good, plainReply 2 2 serviceFaultEncodingId .good⟩] =
      some (rd, client) ∧ rd.response.serviceResult = .good ∧
      ¬rd.OwnAnswer closeSessionResponse
  := by
  constructor
  · refine ⟨_, _, rfl, rfl, ?_⟩
    intro hown
    obtain ⟨message, hmessage, -⟩ := hown rfl
    cases hmessage
  · refine ⟨_, _, rfl, rfl, ?_⟩
    intro hown
    obtain ⟨message, hmessage, -⟩ := hown rfl
    cases hmessage

/-- A call that receives its answer and, in the same buffer, an error message with error code `0`
returns its own answer. -/
theorem ownAnswer_iff_answered :
  ∃ rd client', call [⟨true, .good, plainReply 2 2 476 .good ++ errorZero⟩] =
      some (rd, client') ∧ rd.response.serviceResult = .good ∧
    (rd.OwnAnswer closeSessionResponse ↔
      Decided closeSessionResponse (fun client => (.good, client))
        (fun channel _ =>
          (.good, { channel with sendSequenceNumber := channel.sendSequenceNumber + 1 }))
        2 [⟨true, .good, plainReply 2 2 476 .good ++ errorZero⟩] client)
  := by
  refine ⟨_, _, rfl, rfl, ?_⟩
  apply ownAnswer_iff closeSessionResponse rfl

end Service
