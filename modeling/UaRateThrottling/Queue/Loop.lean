import UaRateThrottling.Transition
import UaRateThrottling.Queue.TaskOrder

/-!
# The queue loop

The queue node a server reads its tasks from, and the server's cycle over it: a fetch lists
the children and sets a watch, the tasks listed are executed in order, and the next creation
or deletion fires the watch, whose event leads to the next fetch.

* `Queue` is the queue node at ZooKeeper.
* `Loop` is the server's side of the session: the fetches on their way, whether the watch is
  set, the completions and events on their way back, and what the completion thread does.
  Completions and events are delivered one at a time, in ZooKeeper's order.
* `queueMachine` is one server with its queue and any number of clients creating tasks.
-/

namespace Zuth

open Transition

/-! ### The queue node -/

/-- A queue node whose children hold data of type `δ`: its sequence counter and its children,
in the order of their creation. -/
structure Queue (δ : Type) where
  counter : Nat
  children : List (Name × δ)

namespace Queue

variable {δ : Type}

/-- The names of the children. -/
def names (queue : Queue δ) : List Name := queue.children.map Prod.fst

/-- `zoo_create` with `ZOO_SEQUENCE`: the new child is named by the counter. -/
def create (queue : Queue δ) (data : δ) : Queue δ where
  counter := queue.counter + 1
  children := queue.children ++ [(taskName queue.counter, data)]

/-- `zoo_get`: the data of the child with the given name. -/
def get (queue : Queue δ) (task : Name) : Option δ :=
  (queue.children.find? (fun child => child.1 = task)).map Prod.snd

/-- `zoo_delete`: the child with the given name is removed. -/
def delete (queue : Queue δ) (task : Name) : Queue δ :=
  { queue with children := queue.children.eraseP (fun child => child.1 = task) }

end Queue

/-! ### The server's side -/

/-- What reaches the completion thread: the completion of a fetch, with the names listed or
with an error, or the event of the watch. -/
inductive Delivery where
  | children (names : List Name)
  | failure
  | childEvent
deriving DecidableEq

/-- What the completion thread does: nothing, waiting in the watcher for the service level,
or going through the tasks of a listing.  Of the task in hand, `loaded` has read the document,
and `executed` has only the deletion before it. -/
inductive Phase (τ : Type) where
  | idle
  | handling
  | processing (tasks : List Name)
  | loaded (task : Name) (document : τ) (tasks : List Name)
  | executed (task : Name) (tasks : List Name)
  | crashed
deriving DecidableEq

/-- The server's side of its ZooKeeper session. -/
structure Loop (τ : Type) where
  running : Bool
  requests : Nat
  watch : Bool
  inbox : List Delivery
  phase : Phase τ
deriving DecidableEq

/-- The steps of ZooKeeper and of the completion thread in a server's session. -/
inductive LoopAction where
  /-- ZooKeeper lists the children and sets the watch. -/
  | serve (names : List Name)
  /-- ZooKeeper answers a fetch with an error. -/
  | serveFailure
  /-- The next completion or event is delivered. -/
  | deliver
  /-- The watcher reads the service level. -/
  | readValue (value : Int)
  /-- `zuth_executeRequest` reads the task with `zoo_get`, which fails unless `ok`. -/
  | get (ok : Bool)
  /-- The document is handed to `UA_SecureChannel_processChunks`, which returns. -/
  | handOver
  /-- The task is deleted with `zoo_delete`, which fails unless `ok`. -/
  | delete (ok : Bool)
  /-- `zuth_processTasks` returns. -/
  | finish
deriving DecidableEq

namespace Loop

variable {δ τ : Type}

/-- The session before the first fetch. -/
def init : Loop τ where
  running := true
  requests := 0
  watch := false
  inbox := []
  phase := .idle

/-- `zoo_aget_children` with a watch. -/
def fetch (l : Loop τ) : Loop τ := { l with requests := l.requests + 1 }

/-- A child of the queue was created or deleted: the watch fires once. -/
def notify (l : Loop τ) : Loop τ :=
  if l.watch then { l with watch := false, inbox := l.inbox ++ [.childEvent] } else l

/-- A firing watch does not change what the completion thread does. -/
@[simp]
theorem notify_phase (l : Loop τ) :
  l.notify.phase = l.phase
  := by
  rw [notify]
  split <;> rfl

/-- After a change of the queue the watch is not set. -/
@[simp]
theorem notify_watch (l : Loop τ) :
  l.notify.watch = false
  := by
  rw [notify]
  split
  · rfl
  · simpa using ‹¬l.watch = true›

/-- The completion thread takes what is delivered next: `zuth_processTasks` for the completion
of a fetch, `zkUA_queueWatcher` for an event. -/
def deliver (l : Loop τ) : Option (Loop τ) :=
  match l.phase, l.inbox with
  | .idle, .childEvent :: inbox => some { l with inbox := inbox, phase := .handling }
  | .idle, .failure :: inbox => some { l with inbox := inbox, running := false }
  | .idle, .children names :: inbox =>
    match sortTasks names with
    | some tasks => some { l with inbox := inbox, phase := .processing tasks }
    | none => some { l with inbox := inbox, phase := .crashed }
  | _, _ => none

/-- The step an action makes in a session over the given queue, where `load` turns the data of
a task into its document. -/
def step (load : δ → Option τ) (queue : Queue δ) (l : Loop τ) : LoopAction → Option (Loop τ)
  | .serve names =>
    if 0 < l.requests ∧ names.isPerm queue.names then
      some { l with
        requests := l.requests - 1
        watch := true
        inbox := l.inbox ++ [.children names] }
    else none
  | .serveFailure =>
    if 0 < l.requests then
      some { l with requests := l.requests - 1, inbox := l.inbox ++ [.failure] }
    else none
  | .deliver => l.deliver
  | .readValue value =>
    match l.phase with
    | .handling => if value < 200 then some l else some { l with phase := .idle }.fetch
    | _ => none
  | .get ok =>
    match l.phase with
    | .processing (task :: tasks) =>
      match (if ok then (queue.get task).bind load else none) with
      | some document => some { l with phase := .loaded task document tasks }
      | none => some { l with phase := .processing tasks }
    | _ => none
  | .handOver =>
    match l.phase with
    | .loaded task _ tasks => some { l with phase := .executed task tasks }
    | _ => none
  | .delete ok =>
    match l.phase with
    | .executed task tasks =>
      if ok ∧ (queue.get task).isNone then none
      else some { l with phase := .processing tasks }
    | _ => none
  | .finish =>
    match l.phase with
    | .processing [] => some { l with phase := .idle }
    | _ => none

/-- Before the first fetch the session makes no step. -/
theorem init_step (load : δ → Option τ) (queue : Queue δ) (action : LoopAction) :
  (init : Loop τ).step load queue action = none
  := by
  cases action <;> simp [step, init, deliver]

/-- A document is in hand only when it was before, or is read from the queue now. -/
theorem loaded_of_step {load : δ → Option τ} {queue : Queue δ} {l l' : Loop τ}
    {action : LoopAction} (h : l.step load queue action = some l') {task : Name}
    {document : τ} {tasks : List Name} (hl' : l'.phase = .loaded task document tasks) :
  l.phase = .loaded task document tasks ∧ action ≠ .handOver ∨
    (queue.get task).bind load = some document ∧ action = .get true
  := by
  obtain ⟨r, requests, w, inbox, phase⟩ := l
  cases action with
  | serve names =>
      simp only [step, Option.ite_none_right_eq_some, Option.some.injEq] at h
      obtain ⟨-, rfl⟩ := h
      left
      use hl'
      simp
  | serveFailure =>
      simp only [step, Option.ite_none_right_eq_some, Option.some.injEq] at h
      obtain ⟨-, rfl⟩ := h
      left
      use hl'
      simp
  | deliver =>
      simp only [step, deliver] at h
      split at h
      · obtain rfl := Option.some.inj h
        cases hl'
      · obtain rfl := Option.some.inj h
        cases hl'
      · split at h
        · obtain rfl := Option.some.inj h
          cases hl'
        · obtain rfl := Option.some.inj h
          cases hl'
      · cases h
  | readValue value =>
      cases phase with
      | handling =>
          simp only [step] at h
          split at h
          · obtain rfl := Option.some.inj h
            cases hl'
          · obtain rfl := Option.some.inj h
            cases hl'
      | _ => cases h
  | get ok =>
      match phase with
      | .processing (current :: rest) =>
          simp only [step] at h
          split at h
          · rename_i document' hdocument
            obtain rfl := Option.some.inj h
            obtain ⟨rfl, rfl, rfl⟩ := Phase.loaded.inj hl'
            cases ok with
            | true =>
                right
                use hdocument
            | false => cases hdocument
          · obtain rfl := Option.some.inj h
            cases hl'
      | .idle | .handling | .processing [] | .loaded .. | .executed .. | .crashed => cases h
  | handOver =>
      cases phase with
      | loaded current document' rest =>
          obtain rfl := Option.some.inj h
          cases hl'
      | _ => cases h
  | delete ok =>
      cases phase with
      | executed current rest =>
          simp only [step, Option.ite_none_left_eq_some, Option.some.injEq] at h
          obtain ⟨-, rfl⟩ := h
          cases hl'
      | _ => cases h
  | finish =>
      match phase with
      | .processing [] =>
          obtain rfl := Option.some.inj h
          cases hl'
      | .idle | .handling | .processing (_ :: _) | .loaded .. | .executed .. | .crashed => cases h

/-- A document stays in hand until it is handed over. -/
theorem loaded_step {load : δ → Option τ} {queue : Queue δ} {l l' : Loop τ}
    {action : LoopAction} (h : l.step load queue action = some l') {task : Name}
    {document : τ} {tasks : List Name} (hl : l.phase = .loaded task document tasks)
    (haction : action ≠ .handOver) :
  l'.phase = .loaded task document tasks
  := by
  obtain ⟨r, requests, w, inbox, phase⟩ := l
  obtain rfl := hl
  cases action with
  | serve names =>
      simp only [step, Option.ite_none_right_eq_some, Option.some.injEq] at h
      obtain ⟨-, rfl⟩ := h
      rfl
  | serveFailure =>
      simp only [step, Option.ite_none_right_eq_some, Option.some.injEq] at h
      obtain ⟨-, rfl⟩ := h
      rfl
  | handOver => contradiction
  | _ => cases h

/-- The task an action removes from the queue. -/
def deleted (l : Loop τ) : LoopAction → Option Name
  | .delete true =>
    match l.phase with
    | .executed task _ => some task
    | _ => none
  | _ => none

/-- Only the task whose deletion is next is removed. -/
theorem deleted_eq_some {l : Loop τ} {action : LoopAction} {task : Name}
    (h : l.deleted action = some task) :
  action = .delete true ∧ ∃ tasks, l.phase = .executed task tasks
  := by
  obtain ⟨r, requests, w, inbox, phase⟩ := l
  cases action with
  | delete ok =>
      cases ok with
      | true =>
          cases phase with
          | executed current tasks =>
              obtain rfl := Option.some.inj h
              use rfl, tasks
          | _ => cases h
      | false => cases h
  | _ => cases h

/-- The task an action attempts: `zuth_executeRequest` is called for it. -/
def attempted (l : Loop τ) : LoopAction → List Name
  | .get _ =>
    match l.phase with
    | .processing (task :: _) => [task]
    | _ => []
  | _ => []

/-- The task an action hands to `UA_SecureChannel_processChunks`. -/
def handedOver (l : Loop τ) : LoopAction → List Name
  | .handOver =>
    match l.phase with
    | .loaded task _ _ => [task]
    | _ => []
  | _ => []

end Loop

/-! ### One server and its clients -/

/-- One server with its queue.  The names created, attempted and handed over are recorded in
order, and whether a fetch has failed. -/
structure QueueState (δ τ : Type) where
  queue : Queue δ
  loop : Loop τ
  booted : Bool
  failed : Bool
  created : List Name
  attempted : List Name
  handed : List Name

/-- The steps of one server with its queue: a client creates a task, the server issues its
first fetch, the process is interrupted, or the session makes a step. -/
inductive QueueAction (δ : Type) where
  | create (data : δ)
  | boot
  | interrupt
  | loop (action : LoopAction)

variable {δ τ : Type}

/-- The names are those of increasing values of the counter below the present one. -/
def Numbered (counter : Nat) (names : List Name) : Prop :=
  ∃ numbers : List Nat, names = numbers.map taskName ∧ numbers.Pairwise (· < ·) ∧
    ∀ n ∈ numbers, n < counter

/-- The counter of a queue node is a signed 32-bit number; a run in which it overflows is not
considered. -/
def counterLimit : Nat := 2147483648

/-- The step of one server with its queue. -/
def QueueState.step (load : δ → Option τ) (s : QueueState δ τ) :
    QueueAction δ → Option (QueueState δ τ)
  | .create data =>
    if s.queue.counter < counterLimit then
      some { s with
        queue := s.queue.create data
        loop := s.loop.notify
        created := s.created ++ [taskName s.queue.counter] }
    else none
  | .boot => if s.booted then none else some { s with loop := s.loop.fetch, booted := true }
  | .interrupt => some { s with loop := { s.loop with running := false } }
  | .loop action =>
    (s.loop.step load s.queue action).map (fun loop =>
      { s with
        queue := (s.loop.deleted action).elim s.queue s.queue.delete
        loop := if (s.loop.deleted action).isSome then loop.notify else loop
        failed := s.failed || action == .serveFailure
        attempted := s.attempted ++ s.loop.attempted action
        handed := s.handed ++ s.loop.handedOver action })

/-- One server with its queue, which may start with tasks of earlier runs on it. -/
def queueMachine (load : δ → Option τ) : Machine (QueueState δ τ) (QueueAction δ) where
  Init s :=
    Numbered s.queue.counter s.queue.names ∧ s.queue.counter ≤ counterLimit ∧
      s.loop = .init ∧ s.booted = false ∧ s.failed = false ∧ s.created = s.queue.names ∧
        s.attempted = [] ∧ s.handed = []
  step := QueueState.step load

/-- The state a run starts in when the queue is empty. -/
def QueueState.initial : QueueState δ τ where
  queue := { counter := 0, children := [] }
  loop := .init
  booted := false
  failed := false
  created := []
  attempted := []
  handed := []

theorem init_initial (load : δ → Option τ) :
  (queueMachine load).Init .initial
  := by
  use ⟨[], rfl, .nil, by simp⟩
  simp [QueueState.initial, counterLimit, Queue.names]

end Zuth
