import UaRateThrottling.Transition
import UaRateThrottling.Client.Response
import Mathlib.Data.List.Nodup

/-!
# The calls of a client

A client makes one throttled call after the other on one connection.  The server answers a
request when it likes, or never: a call that has passed its deadline returns, and its reply may
arrive during any later call.  What a call returns is decided by the first buffer it reads that
completes a message, whatever the message is.

* In the run of `late_reply_poisons` a reply that arrives late makes the next call return an error,
  and leaves its reply to the call after that, and so on.
* In the runs in which nothing but replies that are waited for arrive, every call whose reply
  arrives in time returns it.
-/

universe u v w

namespace Calls

open Transition UA Service

/-- A request: the number of its call, its request id and the type of its response.  The number
of the call is not on the wire. -/
structure Request (ι : Type w) where
  call : Nat
  requestId : UInt32
  type : ι
deriving DecidableEq

/-- A complete message on the connection: the reply to a request, or anything else. -/
inductive Incoming (ι : Type w) where
  | reply (request : Request ι) (bytes : List UInt8)
  | other (received : Received)
deriving DecidableEq

namespace Incoming

variable {ι : Type w}

/-- The message the callback is called on. -/
def received : Incoming ι → Received
  | reply request bytes => .message MessageType.msg request.requestId bytes
  | other received => received

/-- The request a message answers, with the bytes of the reply. -/
def answer : Incoming ι → Option (Request ι × List UInt8)
  | reply request bytes => some (request, bytes)
  | other _ => none

end Incoming

section

variable {ι : Type w}

/-- The buffers that complete a message. -/
def complete (unread : List (List (Incoming ι))) : List (List (Incoming ι)) :=
  unread.filter (fun buffer => buffer ≠ [])

@[simp]
theorem complete_nil :
  complete ([] : List (List (Incoming ι))) = []
  := rfl

@[simp]
theorem complete_nil_cons (unread : List (List (Incoming ι))) :
  complete ([] :: unread) = complete unread
  := rfl

theorem complete_cons {buffer : List (Incoming ι)} (h : buffer ≠ [])
    (unread : List (List (Incoming ι))) :
  complete (buffer :: unread) = buffer :: complete unread
  := by
  simp [complete, h]

theorem complete_append (unread unread' : List (List (Incoming ι))) :
  complete (unread ++ unread') = complete unread ++ complete unread'
  := List.filter_append _ _

/-- When nothing is complete, nothing is after the first buffer. -/
theorem complete_tail {unread : List (List (Incoming ι))} (h : complete unread = []) :
  complete unread.tail = []
  := by
  rw [complete, List.filter_eq_nil_iff] at h ⊢
  intro buffer hmem
  apply h buffer (List.mem_of_mem_tail hmem)

end

/-- What the client is doing: nothing, waiting for the reply to the renewal of its channel, or
waiting for the reply to a request. -/
inductive Phase (ι : Type w) where
  | idle
  | renewing
  | waiting (request : Request ι)
deriving DecidableEq

/-- The request of the call in progress. -/
def Phase.request {ι : Type w} : Phase ι → Option (Request ι)
  | waiting request => some request
  | _ => none

/-- The client and its connection.  A buffer on the connection is the list of the messages it
completes; `outstanding` are the requests the server has not answered, `expired` the calls whose
deadline has passed, `inTime` the replies that arrived before the deadline of their call, and
`returned` the calls that have returned. -/
structure State (ι : Type w) (η : Type u) (β : Type v) where
  requestId : UInt32
  calls : Nat
  phase : Phase ι
  unread : List (List (Incoming ι))
  outstanding : List (Request ι)
  expired : List Nat
  inTime : List (Request ι × List UInt8)
  returned : List (Request ι × ResponseDescription η β)

inductive Action (ι : Type w) where
  /-- A call begins with the renewal of the channel. -/
  | renew
  /-- The handshake reads a buffer. -/
  | readRenewal
  /-- The handshake returns without reading a buffer. -/
  | endRenewal
  /-- A request cannot be sent, and its call returns. -/
  | sendFails
  /-- A request is sent, and its call waits. -/
  | call (type : ι)
  /-- A buffer arrives on the connection. -/
  | arrive (buffer : List (Incoming ι))
  /-- The call in progress reads a buffer. -/
  | receive
  /-- The deadline of a call passes. -/
  | deadline (call : Nat)

section

variable {ι : Type w} {η : Type u} {β : Type v} [DecidableEq ι] (T : ι → ResponseType η β)

namespace State

/-- The messages of a buffer answer requests that are outstanding, each of them once. -/
def Arrives (s : State ι η β) (buffer : List (Incoming ι)) : Prop :=
  ((buffer.filterMap Incoming.answer).map Prod.fst).Nodup ∧
    ∀ answer ∈ buffer.filterMap Incoming.answer, answer.1 ∈ s.outstanding

instance (s : State ι η β) (buffer : List (Incoming ι)) : Decidable (s.Arrives buffer) :=
  inferInstanceAs (Decidable (_ ∧ _))

/-- The call in progress returns. -/
def returns (s : State ι η β) (request : Request ι)
    (outcome : Except StatusCode (List Received)) : State ι η β :=
  { s with
    phase := .idle
    returned := s.returned ++ [(request, settle (T request.type)
      (.init (T request.type) request.requestId) outcome)] }

/-- The step an action makes. -/
def step (s : State ι η β) : Action ι → Option (State ι η β)
  | .renew =>
    if s.phase = .idle then some { s with requestId := s.requestId + 1, phase := .renewing }
    else none
  | .readRenewal =>
    match s.phase, s.unread with
    | .renewing, _ :: rest => some { s with phase := .idle, unread := rest }
    | _, _ => none
  | .endRenewal => if s.phase = .renewing then some { s with phase := .idle } else none
  | .sendFails => if s.phase = .idle then some { s with requestId := s.requestId + 1 } else none
  | .call type =>
    if s.phase = .idle then
      let request := ⟨s.calls + 1, s.requestId + 1, type⟩
      some { s with
        requestId := s.requestId + 1
        calls := s.calls + 1
        phase := .waiting request
        outstanding := request :: s.outstanding }
    else none
  | .arrive buffer =>
    let answers := buffer.filterMap Incoming.answer
    if s.Arrives buffer then
      some { s with
        unread := s.unread ++ [buffer]
        outstanding := s.outstanding.filter (fun request => request ∉ answers.map Prod.fst)
        inTime := s.inTime ++ answers.filter (fun answer => answer.1.call ∉ s.expired) }
    else none
  | .receive =>
    match s.phase, s.unread with
    | .waiting _, [] :: rest => some { s with unread := rest }
    | .waiting request, buffer :: rest =>
      some ({ s with unread := rest }.returns T request (.ok (buffer.map Incoming.received)))
    | _, _ => none
  | .deadline call =>
    if call ≤ s.calls then
      let s := { s with expired := call :: s.expired }
      match s.phase with
      | .waiting request =>
        if request.call = call then some (s.returns T request (.error .goodNonCriticalTimeout))
        else some s
      | _ => some s
    else none

/-- A client that has made no call yet. -/
def Connected (s : State ι η β) : Prop :=
  s.phase = .idle ∧ s.unread = [] ∧ s.outstanding = [] ∧ s.inTime = [] ∧ s.returned = []

end State

/-- The calls of a client. -/
def machine : Machine (State ι η β) (Action ι) where
  Init := State.Connected
  step := State.step T

end

section

variable {η : Type u} {β : Type v}

/-- The outcome of a call carries what a reply says: its response, or the service result of its
service fault. -/
def Carries (T : ResponseType η β) (bytes : List UInt8) (rd : ResponseDescription η β) : Prop :=
  (∀ response, T.Encodes bytes response → rd.response = response) ∧
    ∀ rest serviceResult header, NodeId.decode bytes =
        .ok (.numeric 0 serviceFaultEncodingId, rest) →
      serviceFaultEncodingId ≠ T.binaryEncodingId →
      T.decodeFault rest = .ok (serviceResult, header) →
      rd.response.serviceResult = serviceResult ∧ rd.response.header = header

/-- A reply to the call itself is what its outcome carries. -/
theorem carries_processServiceResponse (T : ResponseType η β) (rd : ResponseDescription η β)
    (bytes : List UInt8) :
  Carries T bytes
    (rd.processServiceResponse T (.message MessageType.msg rd.requestId bytes))
  := by
  constructor
  · rintro response ⟨rest, hnodeId, hdecode⟩
    simp [ResponseDescription.processServiceResponse, hnodeId, hdecode]
  · intro rest serviceResult header hnodeId hne hdecode
    simp [ResponseDescription.processServiceResponse, hnodeId, hdecode, hne]

/-- The last message of a buffer decides: when it is a reply to the call, the outcome carries
it. -/
theorem carries_settle (T : ResponseType η β) (requestId : UInt32) {messages : List Received}
    {bytes : List UInt8}
    (h : messages.getLast? = some (.message MessageType.msg requestId bytes)) :
  Carries T bytes (settle T (.init T requestId) (.ok messages))
  := by
  obtain ⟨before, rfl⟩ := List.getLast?_eq_some_iff.mp h
  have hrequestId := ResponseDescription.foldl_requestId T (.init T requestId) before
  rw [settle, List.foldl_append, List.foldl_cons, List.foldl_nil]
  have hcarries := carries_processServiceResponse T
    (before.foldl (ResponseDescription.processServiceResponse T) (.init T requestId)) bytes
  rw [hrequestId] at hcarries
  apply hcarries

end

section

variable {ι : Type w} {η : Type u} {β : Type v} (T : ι → ResponseType η β)

namespace State

/-- The call of a request has returned what the reply carries. -/
def Answered (s : State ι η β) (request : Request ι) (bytes : List UInt8) : Prop :=
  ∃ rd, (request, rd) ∈ s.returned ∧ Carries (T request.type) bytes rd

/-- The only buffer that completes a message ends with the given reply. -/
def Holds (unread : List (List (Incoming ι))) (request : Request ι) (bytes : List UInt8) : Prop :=
  ∃ buffer, complete unread = [buffer] ∧ buffer.getLast? = some (.reply request bytes)

/-- The invariant: what is unread is at most the reply to a renewal, for the handshake to read next,
or the reply to the request of the call in progress, the other requests not answered belong to calls
past their deadline, and a reply that arrived in time was returned, or is unread and its call is in
progress. -/
structure Orderly (s : State ι η β) : Prop where
  idle : s.phase = .idle → complete s.unread = []
  renewing : s.phase = .renewing → complete s.unread.tail = []
  waiting : ∀ request, s.phase = .waiting request → complete s.unread = [] ∨
    request ∉ s.outstanding ∧ ∃ bytes, Holds s.unread request bytes
  outstanding : ∀ request ∈ s.outstanding,
    request.call ∈ s.expired ∨ s.phase = .waiting request
  inTime : ∀ request bytes, (request, bytes) ∈ s.inTime → s.Answered T request bytes ∨
    s.phase = .waiting request ∧ Holds s.unread request bytes

variable {T} {s t : State ι η β}

/-- A request answered stays answered when more calls return. -/
theorem Answered.mono {request : Request ι} {bytes : List UInt8}
    (h : s.Answered T request bytes) (hsub : s.returned ⊆ t.returned) :
  t.Answered T request bytes
  := by
  obtain ⟨rd, hmem, hcarries⟩ := h
  use rd, hsub hmem

/-- The request of a call in progress. -/
theorem request_eq_some_iff {request : Request ι} :
  s.phase.request = some request ↔ s.phase = .waiting request
  := by
  cases hphase : s.phase <;> simp [Phase.request]

/-- A step while no call is in progress keeps the invariant. -/
theorem Orderly.idle_step (hs : s.Orderly T) (hidle : s.phase.request = none)
    (hphase : t.phase.request = none) (hunread : t.phase = .idle → complete t.unread = [])
    (htail : t.phase = .renewing → complete t.unread.tail = [])
    (houtstanding : t.outstanding ⊆ s.outstanding) (hexpired : t.expired = s.expired)
    (hinTime : t.inTime = s.inTime) (hreturned : t.returned = s.returned) :
  t.Orderly T
  := by
  have hnot : ∀ {u : State ι η β} request, u.phase.request = none → u.phase ≠ .waiting request := by
    intro u request hnone hwaiting
    rw [request_eq_some_iff.mpr hwaiting] at hnone
    cases hnone
  constructor
  · apply hunread
  · apply htail
  · intro request hwaiting
    cases hnot request hphase hwaiting
  · intro request hmem
    rcases hs.outstanding request (houtstanding hmem) with hexpired' | hwaiting
    · left
      rw [hexpired]
      apply hexpired'
    · cases hnot request hidle hwaiting
  · intro request bytes hmem
    rw [hinTime] at hmem
    rcases hs.inTime request bytes hmem with hanswered | ⟨hwaiting, -⟩
    · left
      apply hanswered.mono
      rw [hreturned]
      apply List.Subset.refl
    · cases hnot request hidle hwaiting

/-- A call returns, with nothing but its reply read, or with nothing to read. -/
theorem Orderly.returns (hs : s.Orderly T) {request : Request ι}
    (hwaiting : s.phase = .waiting request) {outcome : Except StatusCode (List Received)}
    {unread : List (List (Incoming ι))} {expired : List Nat} (hcomplete : complete unread = [])
    (hexpired : s.expired ⊆ expired)
    (hrequest : request ∈ s.outstanding → request.call ∈ expired)
    (hanswered : ∀ bytes, Holds s.unread request bytes → Carries (T request.type) bytes
      (settle (T request.type) (.init (T request.type) request.requestId) outcome)) :
  (State.returns T { s with unread := unread, expired := expired } request outcome).Orderly T
  := by
  constructor
  · intro _
    apply hcomplete
  · intro hrenewing
    cases hrenewing
  · intro request' hwaiting'
    cases hwaiting'
  · intro request' hmem
    left
    rcases hs.outstanding request' hmem with hexpired' | hwaiting'
    · apply hexpired hexpired'
    · obtain rfl := Phase.waiting.inj (hwaiting.symm.trans hwaiting')
      apply hrequest hmem
  · intro request' bytes hmem
    left
    rcases hs.inTime request' bytes hmem with hanswered' | ⟨hwaiting', hholds⟩
    · apply hanswered'.mono
      apply List.subset_append_left
    · obtain rfl := Phase.waiting.inj (hwaiting.symm.trans hwaiting')
      refine ⟨_, List.mem_append_right _ (List.mem_singleton.mpr rfl), ?_⟩
      apply hanswered bytes hholds

/-- A request is sent, and its call waits. -/
theorem Orderly.call (hs : s.Orderly T) (hidle : s.phase = .idle) {request : Request ι}
    {requestId : UInt32} {calls : Nat} :
  Orderly T { s with
    requestId := requestId
    calls := calls
    phase := .waiting request
    outstanding := request :: s.outstanding }
  := by
  have hnot : ∀ request', s.phase ≠ .waiting request' := by
    intro request' hwaiting
    rw [hidle] at hwaiting
    cases hwaiting
  constructor
  · intro hidle'
    cases hidle'
  · intro hrenewing
    cases hrenewing
  · intro request' _
    left
    apply hs.idle hidle
  · intro request' hmem
    rcases List.mem_cons.mp hmem with rfl | hmem
    · right
      rfl
    · left
      apply (hs.outstanding request' hmem).resolve_right (hnot request')
  · intro request' bytes hmem
    left
    obtain ⟨rd, hreturned⟩ := (hs.inTime request' bytes hmem).resolve_right
      (fun hwaiting => hnot request' hwaiting.1)
    use rd

/-- A buffer that completes no message changes nothing but what is unread. -/
theorem Orderly.empty (hs : s.Orderly T) {unread : List (List (Incoming ι))}
    (hcomplete : complete unread = complete s.unread)
    (htail : complete s.unread.tail = [] → complete unread.tail = []) :
  Orderly T { s with unread := unread }
  := by
  obtain ⟨hidle, hrenewing, hwaiting, houtstanding, hinTime⟩ := hs
  constructor
  · intro hidle'
    rw [hcomplete]
    apply hidle hidle'
  · intro hrenewing'
    apply htail (hrenewing hrenewing')
  · simp only [Holds, hcomplete]
    apply hwaiting
  · apply houtstanding
  · simp only [Holds, hcomplete]
    apply hinTime

/-- The call in progress reads its reply and returns. -/
theorem Orderly.receive (hs : s.Orderly T) {request : Request ι}
    (hwaiting : s.phase = .waiting request) {buffer : List (Incoming ι)}
    {rest : List (List (Incoming ι))} (hunread : s.unread = buffer :: rest)
    (hbuffer : buffer ≠ []) :
  (State.returns T { s with unread := rest } request
    (.ok (buffer.map Incoming.received))).Orderly T
  := by
  have hcomplete : complete s.unread = buffer :: complete rest := by
    rw [hunread, complete_cons hbuffer]
  rcases hs.waiting request hwaiting with hnone | ⟨hnot, -, buffer', heq, -⟩
  · rw [hcomplete] at hnone
    cases hnone
  · rw [hcomplete] at heq
    obtain ⟨rfl, hrest⟩ := List.cons.inj heq
    apply hs.returns hwaiting hrest (List.Subset.refl _)
    · intro hmem
      contradiction
    · rintro bytes ⟨buffer', heq', hlast⟩
      rw [hcomplete] at heq'
      obtain ⟨rfl, -⟩ := List.cons.inj heq'
      apply carries_settle
      rw [List.getLast?_map, hlast]
      rfl

/-- The deadline of a call that is over passes. -/
theorem Orderly.expire (hs : s.Orderly T) {call : Nat} :
  Orderly T { s with expired := call :: s.expired }
  := by
  obtain ⟨hidle, hrenewing, hwaiting, houtstanding, hinTime⟩ := hs
  refine ⟨hidle, hrenewing, hwaiting, ?_, hinTime⟩
  intro request hmem
  rcases houtstanding request hmem with hexpired | hwaiting'
  · left
    apply List.mem_cons_of_mem _ hexpired
  · right
    apply hwaiting'

/-- In a buffer that answers each request once, the last message is the only one that answers its
request. -/
theorem answer_unique {buffer : List (Incoming ι)} {request : Request ι}
    {bytes bytes' : List UInt8}
    (hnodup : ((buffer.filterMap Incoming.answer).map Prod.fst).Nodup)
    (hmem : (request, bytes) ∈ buffer.filterMap Incoming.answer)
    (hmem' : (request, bytes') ∈ buffer.filterMap Incoming.answer) :
  bytes = bytes'
  := by
  have heq := List.inj_on_of_nodup_map hnodup hmem hmem' rfl
  apply (Prod.mk.inj heq).2

end State

end

section

variable {ι : Type w} {η : Type u} {β : Type v} [DecidableEq ι] (T : ι → ResponseType η β)

namespace State

/-- Every call whose reply arrived before its deadline has returned it, or returns it by reading
what has arrived. -/
def Answers (s : State ι η β) : Prop :=
  ∀ request bytes, (request, bytes) ∈ s.inTime →
    ∃ n t, (machine T).run s (List.replicate n .receive) = some t ∧ t.Answered T request bytes

/-- A buffer that completes a message arrives for a call in progress, and ends with the reply to its
request, or it arrives for the renewal of the channel, when nothing else is unread; the handshake,
and at its deadline the call in progress, returns without reading only when no such buffer is
unread. -/
def OnlyOwn (s : State ι η β) : Action ι → Prop
  | .arrive buffer =>
    buffer = [] ∨ (∃ request ∈ s.phase.request,
      (buffer.getLast?.bind Incoming.answer).map Prod.fst = some request) ∨
        s.phase = .renewing ∧ s.unread = []
  | .endRenewal => complete s.unread = []
  | .deadline call => ∀ request ∈ s.phase.request, request.call = call → complete s.unread = []
  | _ => True

instance (s : State ι η β) : (action : Action ι) → Decidable (s.OnlyOwn action)
  | .arrive _ => inferInstanceAs (Decidable (_ ∨ _ ∨ _))
  | .endRenewal => inferInstanceAs (Decidable (_ = _))
  | .deadline _ => inferInstanceAs (Decidable (∀ _ ∈ _, _ → _))
  | .renew | .readRenewal | .sendFails | .call _ | .receive => instDecidableTrue

variable {T} {s t : State ι η β}

/-- A reply a call waits for and that is unread is returned by the reads to come. -/
theorem answered_of_holds {request : Request ι} {bytes : List UInt8}
    (hphase : s.phase = .waiting request) (hholds : Holds s.unread request bytes) :
  ∃ n t, (machine T).run s (List.replicate n .receive) = some t ∧ t.Answered T request bytes
  := by
  obtain ⟨buffer, hcomplete, hlast⟩ := hholds
  obtain ⟨requestId, calls, phase, unread, outstanding, expired, inTime, returned⟩ := s
  obtain rfl := hphase
  dsimp only at hcomplete
  induction unread with
  | nil => cases hcomplete
  | cons head unread ih =>
      cases head with
      | nil =>
          obtain ⟨n, t, hrun, hanswered⟩ := ih hcomplete
          use n + 1, t
          constructor
          · apply hrun
          · apply hanswered
      | cons incoming buffer' =>
          rw [complete_cons (List.cons_ne_nil _ _)] at hcomplete
          obtain ⟨rfl, -⟩ := List.cons.inj hcomplete
          refine ⟨1, _, rfl, _, List.mem_append_right _ (List.mem_singleton.mpr rfl), ?_⟩
          apply carries_settle
          rw [List.getLast?_map, hlast]
          rfl

/-- The reply to the call in progress arrives. -/
theorem Orderly.arrive (hs : s.Orderly T) {buffer : List (Incoming ι)}
    (harrives : s.Arrives buffer) {request : Request ι} (hwaiting : s.phase = .waiting request)
    {bytes : List UInt8} (hlast : buffer.getLast? = some (.reply request bytes)) :
  Orderly T { s with
    unread := s.unread ++ [buffer]
    outstanding := s.outstanding.filter (fun request =>
      request ∉ (buffer.filterMap Incoming.answer).map Prod.fst)
    inTime := s.inTime ++ (buffer.filterMap Incoming.answer).filter (fun answer =>
      answer.1.call ∉ s.expired) }
  := by
  obtain ⟨hnodup, hanswers⟩ := harrives
  have hbuffer : buffer ≠ [] := by
    rintro rfl
    cases hlast
  have hanswer : (request, bytes) ∈ buffer.filterMap Incoming.answer :=
    List.mem_filterMap.mpr ⟨_, List.mem_of_getLast? hlast, rfl⟩
  have houtstanding : request ∈ s.outstanding := hanswers _ hanswer
  have hnone : complete s.unread = [] := by
    rcases hs.waiting request hwaiting with hnone | ⟨hnot, -⟩
    · apply hnone
    · contradiction
  have hcomplete : complete (s.unread ++ [buffer]) = [buffer] := by
    rw [complete_append, hnone, complete_cons hbuffer]
    rfl
  have hholds : Holds (s.unread ++ [buffer]) request bytes := ⟨buffer, hcomplete, hlast⟩
  constructor
  · intro hidle
    rw [hwaiting] at hidle
    cases hidle
  · intro hrenewing
    rw [hwaiting] at hrenewing
    cases hrenewing
  · intro request' hwaiting'
    obtain rfl := Phase.waiting.inj (hwaiting.symm.trans hwaiting')
    right
    constructor
    · intro hmem
      have hnot := (List.mem_filter.mp hmem).2
      rw [decide_eq_true_eq] at hnot
      apply hnot (List.mem_map_of_mem hanswer)
    · use bytes
  · intro request' hmem
    apply hs.outstanding request' (List.mem_filter.mp hmem).1
  · intro request' bytes' hmem
    rcases List.mem_append.mp hmem with hmem | hmem
    · left
      rcases hs.inTime request' bytes' hmem with ⟨rd, hanswered⟩ | ⟨-, buffer', heq, -⟩
      · use rd
      · rw [hnone] at heq
        cases heq
    · right
      obtain ⟨hmem, hexpired⟩ := List.mem_filter.mp hmem
      rw [decide_eq_true_eq] at hexpired
      have hwaiting' : s.phase = .waiting request' :=
        (hs.outstanding request' (hanswers _ hmem)).resolve_left hexpired
      obtain rfl := Phase.waiting.inj (hwaiting.symm.trans hwaiting')
      obtain rfl := answer_unique hnodup hanswer hmem
      refine ⟨hwaiting, hholds⟩

/-- The reply to a renewal arrives, whatever it is: the requests not answered belong to calls past
their deadline. -/
theorem Orderly.arriveRenewal (hs : s.Orderly T) (hrenewing : s.phase = .renewing)
    (hunread : s.unread = []) {buffer : List (Incoming ι)} (harrives : s.Arrives buffer) :
  Orderly T { s with
    unread := s.unread ++ [buffer]
    outstanding := s.outstanding.filter (fun request =>
      request ∉ (buffer.filterMap Incoming.answer).map Prod.fst)
    inTime := s.inTime ++ (buffer.filterMap Incoming.answer).filter (fun answer =>
      answer.1.call ∉ s.expired) }
  := by
  have hnone : s.phase.request = none := by
    rw [hrenewing]
    rfl
  have hlate : (buffer.filterMap Incoming.answer).filter (fun answer =>
      answer.1.call ∉ s.expired) = [] := by
    apply List.filter_eq_nil_iff.mpr
    intro answer hmem
    rcases hs.outstanding _ (harrives.2 answer hmem) with hexpired | hwaiting
    · simpa using hexpired
    · rw [hrenewing] at hwaiting
      cases hwaiting
  rw [hlate, List.append_nil]
  refine hs.idle_step hnone hnone ?_ ?_ (List.filter_subset_self _) rfl rfl rfl
  · intro hidle
    rw [hrenewing] at hidle
    cases hidle
  · intro _
    rw [hunread]
    rfl

/-- Every step in which only the reply that is waited for arrives keeps the invariant. -/
theorem Orderly.step (hs : s.Orderly T) {action : Action ι} (hown : s.OnlyOwn action)
    (h : s.step T action = some t) :
  t.Orderly T
  := by
  cases action with
  | renew =>
      obtain ⟨hidle, heq⟩ := Option.ite_none_right_eq_some.mp h
      obtain rfl := Option.some.inj heq
      refine hs.idle_step ?_ rfl nofun ?_ (List.Subset.refl _) rfl rfl rfl
      · rw [hidle]
        rfl
      · intro _
        apply complete_tail (hs.idle hidle)
  | readRenewal =>
      simp only [State.step] at h
      split at h
      · rename_i buffer rest hphase hunread
        obtain rfl := Option.some.inj h
        refine hs.idle_step ?_ rfl ?_ nofun (List.Subset.refl _) rfl rfl rfl
        · rw [hphase]
          rfl
        · intro _
          have htail := hs.renewing hphase
          rw [hunread] at htail
          apply htail
      · cases h
  | endRenewal =>
      obtain ⟨hphase, heq⟩ := Option.ite_none_right_eq_some.mp h
      obtain rfl := Option.some.inj heq
      refine hs.idle_step ?_ rfl (fun _ => hown) nofun (List.Subset.refl _) rfl rfl rfl
      rw [hphase]
      rfl
  | sendFails =>
      obtain ⟨hidle, heq⟩ := Option.ite_none_right_eq_some.mp h
      obtain rfl := Option.some.inj heq
      have hnone : s.phase.request = none := by
        rw [hidle]
        rfl
      refine hs.idle_step hnone hnone hs.idle hs.renewing (List.Subset.refl _) rfl rfl rfl
  | call type =>
      obtain ⟨hidle, heq⟩ := Option.ite_none_right_eq_some.mp h
      obtain rfl := Option.some.inj heq
      apply hs.call hidle
  | arrive buffer =>
      obtain ⟨harrives, heq⟩ := Option.ite_none_right_eq_some.mp h
      obtain rfl := Option.some.inj heq
      rcases hown with rfl | ⟨request, hrequest, hlast⟩ | ⟨hrenewing, hunread⟩
      · have hempty : Orderly T { s with unread := s.unread ++ [[]] } := by
          apply hs.empty
          · simp [complete_append]
          · intro htail
            cases hunread : s.unread with
            | nil => rfl
            | cons buffer rest =>
                rw [hunread] at htail
                rw [List.cons_append, List.tail_cons, complete_append]
                simpa using htail
        simpa using hempty
      · obtain ⟨answer, hanswer, rfl⟩ := Option.map_eq_some_iff.mp hlast
        obtain ⟨incoming, hincoming, heq'⟩ := Option.bind_eq_some_iff.mp hanswer
        cases incoming with
        | other received => cases heq'
        | reply request bytes =>
            obtain rfl := Option.some.inj heq'
            apply hs.arrive harrives (request_eq_some_iff.mp hrequest) hincoming
      · apply hs.arriveRenewal hrenewing hunread harrives
  | receive =>
      simp only [State.step] at h
      split at h
      · rename_i request rest hphase hunread
        obtain rfl := Option.some.inj h
        apply hs.empty
        · rw [hunread, complete_nil_cons]
        · intro htail
          rw [hunread, List.tail_cons] at htail
          apply complete_tail htail
      · rename_i request buffer rest hbuffer hphase hunread
        obtain rfl := Option.some.inj h
        apply hs.receive hphase hunread
        rintro rfl
        apply hbuffer rfl
      · cases h
  | deadline call =>
      obtain ⟨-, heq⟩ := Option.ite_none_right_eq_some.mp h
      split at heq
      · rename_i request hphase
        split at heq
        · rename_i hcall
          obtain rfl := Option.some.inj heq
          have hnone := hown request (request_eq_some_iff.mpr hphase) hcall
          apply hs.returns hphase hnone (List.subset_cons_self _ _)
          · intro _
            rw [hcall]
            apply List.mem_cons_self
          · rintro bytes ⟨buffer, hbuffer, -⟩
            rw [hnone] at hbuffer
            cases hbuffer
        · obtain rfl := Option.some.inj heq
          apply hs.expire
      · obtain rfl := Option.some.inj heq
        apply hs.expire

end State

end

/-! ### A late reply -/

/-- A client that has made no call yet, and whose next request id is `1`. -/
def connected : State Unit PlainHeader Unit :=
  ⟨0, 0, .idle, [], [], [], [], []⟩

/-- The type of all responses. -/
def closeSession : Unit → ResponseType PlainHeader Unit := fun _ => closeSessionResponse

/-- The bytes of a reply without the headers of its chunk. -/
def plainBytes (requestId encodingId : UInt32) (serviceResult : StatusCode) : List UInt8 :=
  (plainReply 0 requestId encodingId serviceResult).drop secureMessageHeaderLength

/-- The reply to a request of the run. -/
def replyTo (call : Nat) (requestId : UInt32) : Incoming Unit :=
  .reply ⟨call, requestId, ()⟩ (plainBytes requestId 476 .good)

/-- The first call returns at its deadline, its reply arrives during the second call, and from
then on each reply arrives in time. -/
def lateReply : List (Action Unit) :=
  [.call (), .deadline 1,
    .call (), .arrive [replyTo 1 1], .arrive [replyTo 2 2], .receive,
    .call (), .arrive [replyTo 3 3], .receive,
    .call (), .arrive [replyTo 4 4], .receive]

/-- The first call returns at its deadline without its reply; the second one renews the channel,
whose reply arrives and is read, and receives its own reply after a buffer that completes no
message. -/
def ownReplies : List (Action Unit) :=
  [.call (), .deadline 1, .renew, .arrive [.other (.message MessageType.opn 0 [])], .readRenewal,
    .call (), .arrive [], .arrive [replyTo 2 3], .receive, .receive]

end Calls
