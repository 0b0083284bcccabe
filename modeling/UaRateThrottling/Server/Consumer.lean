import Mathlib.Logic.Function.Basic
import UaRateThrottling.Queue.Loop

/-!
# The consumer of a queue

Any number of server processes of one group and endpoint start up over the same queue.  Each
creates the queue node and the ephemeral node that announces it as active, and then fetches the
tasks.  A create that fails sets `running` to false and prints that the process exits, but the
start-up goes on: the process fetches and executes tasks before its main loop looks at the
flag.

When no create fails, the processes that fetch, execute and delete tasks are those that have
announced themselves as active, and there is at most one of them at a time.
-/

namespace Consumer

open Transition Zuth

/-- The outcome of a `zoo_create`: `ZOK`, `ZNODEEXISTS`, or any other error. -/
inductive CreateResult where
  | ok
  | nodeExists
  | error
deriving DecidableEq

/-- How far a process is: `init_ZUTH_Server` has created nothing, the queue node, or the active
node; it has issued its first fetch; or the process has ended. -/
inductive Stage where
  | started
  | queueCreated
  | activeCreated
  | fetching
  | ended
deriving DecidableEq

/-- A server process, with the outcomes of its creates. -/
structure Process (τ : Type) where
  stage : Stage
  queueResult : Option CreateResult
  activeResult : Option CreateResult
  loop : Loop τ

/-- A process before its start-up. -/
def Process.init {τ : Type} : Process τ where
  stage := .started
  queueResult := none
  activeResult := none
  loop := .init

/-- What a process does with the queue. -/
inductive Consumption where
  | fetch
  | execute (task : Name)
  | delete (task : Name)
deriving DecidableEq

/-- The queue, the active node with the process that created it, the processes, and the record
of what they did with the queue. -/
structure Group (δ τ : Type) where
  queueExists : Bool
  queue : Queue δ
  active : Option Nat
  processes : Nat → Process τ
  log : List (Nat × Consumption)

inductive Action (δ : Type) where
  /-- A client creates a task. -/
  | createTask (data : δ)
  /-- A process creates the queue node. -/
  | createQueue (p : Nat) (result : CreateResult)
  /-- A process creates the active node. -/
  | createActive (p : Nat) (result : CreateResult)
  /-- A process issues its first fetch. -/
  | firstFetch (p : Nat)
  /-- A process is interrupted. -/
  | interrupt (p : Nat)
  /-- A process ends, for whatever reason, and its session with it. -/
  | exit (p : Nat)
  /-- A step of the session of a process. -/
  | loop (p : Nat) (action : LoopAction)

variable {δ τ : Type}

namespace Group

/-- Process `p` is changed to `process`. -/
def setProcess (s : Group δ τ) (p : Nat) (process : Process τ) : Group δ τ :=
  { s with processes := Function.update s.processes p process }

/-- Every session is told of a change of the queue. -/
def notifyAll (s : Group δ τ) : Group δ τ :=
  { s with processes := fun p =>
      { s.processes p with loop := (s.processes p).loop.notify } }

/-- What a step of the session of a process does with the queue. -/
def consumption (l l' : Loop τ) (action : LoopAction) : List Consumption :=
  (if l.requests < l'.requests then [.fetch] else []) ++
    (l.handedOver action).map .execute ++ (l.deleted action).toList.map .delete

/-- Whether ZooKeeper lists the children, for which the queue node has to exist. -/
def isServe : LoopAction → Bool
  | .serve _ => true
  | _ => false

/-- The step an action makes. -/
def step (load : δ → Option τ) (s : Group δ τ) : Action δ → Option (Group δ τ)
  | .createTask data =>
    if s.queueExists then some { s with queue := s.queue.create data }.notifyAll else none
  | .createQueue p result =>
    let process := s.processes p
    if process.stage = .started ∧ (result = .ok → s.queueExists = false) ∧
        (result = .nodeExists → s.queueExists = true) then
      let s' : Group δ τ := { s with queueExists := s.queueExists || result == .ok }
      some (s'.setProcess p { process with
        stage := .queueCreated
        queueResult := some result
        loop := { process.loop with
          running := process.loop.running && result != .error } })
    else none
  | .createActive p result =>
    let process := s.processes p
    if process.stage = .queueCreated ∧ (result = .ok → s.active = none) ∧
        (result = .nodeExists → s.active ≠ none) then
      let s' : Group δ τ := { s with active := if result = .ok then some p else s.active }
      some (s'.setProcess p { process with
        stage := .activeCreated
        activeResult := some result
        loop := { process.loop with running := process.loop.running && result == .ok } })
    else none
  | .firstFetch p =>
    let process := s.processes p
    if process.stage = .activeCreated then
      let s' : Group δ τ := { s with log := s.log ++ [(p, .fetch)] }
      some (s'.setProcess p { process with stage := .fetching, loop := process.loop.fetch })
    else none
  | .interrupt p =>
    let process := s.processes p
    some (s.setProcess p { process with loop := { process.loop with running := false } })
  | .exit p =>
    let s' : Group δ τ := { s with active := if s.active = some p then none else s.active }
    some (s'.setProcess p { s.processes p with stage := .ended })
  | .loop p action =>
    let process := s.processes p
    if process.stage = .fetching ∧ (isServe action = true → s.queueExists = true) then
      (process.loop.step load s.queue action).map (fun loop =>
        let s' : Group δ τ := { s with
          log := s.log ++ (consumption process.loop loop action).map (fun e => (p, e)) }
        let s' := s'.setProcess p { process with loop := loop }
        match process.loop.deleted action with
        | none => s'
        | some task => { s' with queue := s.queue.delete task }.notifyAll)
    else none

/-- No process, no queue. -/
def initial : Group δ τ where
  queueExists := false
  queue := { counter := 0, children := [] }
  active := none
  processes := fun _ => .init
  log := []

end Group

/-- The processes of a group over their queue, which may be left over from earlier processes. -/
def machine (load : δ → Option τ) : Machine (Group δ τ) (Action δ) where
  Init s := s.active = none ∧ s.log = [] ∧ ∀ p, s.processes p = .init
  step := Group.step load

namespace Group

/-- Only a process that has created its active node fetches, executes or deletes tasks, and a
process that failed to create its queue node executes and deletes none. -/
def SingleConsumer (s : Group δ τ) : Prop :=
  ∀ p e, (p, e) ∈ s.log → (s.processes p).activeResult = some .ok ∧
    (e ≠ .fetch → (s.processes p).queueResult ≠ some .error)

/-- No create fails, except that the queue node may exist. -/
def CreatesSucceed (_ : Group δ τ) : Action δ → Prop
  | .createQueue _ result => result ≠ .error
  | .createActive _ result => result = .ok
  | _ => True

instance (s : Group δ τ) : (action : Action δ) → Decidable (s.CreatesSucceed action)
  | .createQueue _ _ => inferInstanceAs (Decidable (_ ≠ _))
  | .createActive _ _ => inferInstanceAs (Decidable (_ = _))
  | .createTask _ | .firstFetch _ | .interrupt _ | .exit _ | .loop _ _ => instDecidableTrue

/-- A process whose creates have not failed: from the creation of the active node on the node
is its own. -/
structure Announced (active : Option Nat) (p : Nat) (process : Process τ) : Prop where
  queueResult : process.queueResult ≠ some .error
  activeResult : process.stage = .activeCreated ∨ process.stage = .fetching →
    process.activeResult = some .ok ∧ active = some p

/-- The invariant of the consumers: all processes are announced, and those that did something
with the queue have created their active node. -/
structure ConsumersAnnounced (s : Group δ τ) : Prop where
  processes : ∀ p, Announced s.active p (s.processes p)
  log : ∀ p e, (p, e) ∈ s.log → (s.processes p).activeResult = some .ok

@[simp]
theorem setProcess_self (s : Group δ τ) (p : Nat) (process : Process τ) :
  (s.setProcess p process).processes p = process
  := Function.update_self ..

theorem setProcess_of_ne (s : Group δ τ) {p q : Nat} (h : q ≠ p) (process : Process τ) :
  (s.setProcess p process).processes q = s.processes q
  := Function.update_of_ne h ..

/-- A process stays announced as long as an active node of its own stays. -/
theorem Announced.mono {active active' : Option Nat} {p : Nat} {process : Process τ}
    (h : Announced active p process) (hkeep : active = some p → active' = some p) :
  Announced active' p process
  := by
  use h.queueResult
  intro hstage
  obtain ⟨hok, hp⟩ := h.activeResult hstage
  use hok, hkeep hp

/-- A change of one process keeps the invariant when the process stays announced and keeps or
gets its active node, and what it did with the queue it did after creating the node. -/
theorem ConsumersAnnounced.setProcess {s : Group δ τ} (hs : s.ConsumersAnnounced) {p : Nat}
    {process : Process τ} {active : Option Nat} {log : List (Nat × Consumption)}
    (queueExists : Bool) (queue : Queue δ) (hprocess : Announced active p process)
    (hactive : ∀ q, q ≠ p → s.active = some q → active = some q)
    (hresult : (s.processes p).activeResult = some .ok → process.activeResult = some .ok)
    (hlog : ∀ q e, (q, e) ∈ log → (q, e) ∈ s.log ∨ q = p ∧ process.activeResult = some .ok) :
  ConsumersAnnounced (setProcess
    ⟨queueExists, queue, active, s.processes, log⟩ p process)
  := by
  constructor
  · intro q
    by_cases hq : q = p
    · subst hq
      rw [setProcess_self]
      apply hprocess
    · rw [setProcess_of_ne _ hq]
      apply (hs.processes q).mono (hactive q hq)
  · intro q e he
    by_cases hq : q = p
    · subst hq
      rw [setProcess_self]
      rcases hlog q e he with hold | ⟨-, hok⟩
      · apply hresult (hs.log q e hold)
      · apply hok
    · rw [setProcess_of_ne _ hq]
      rcases hlog q e he with hold | ⟨heq, -⟩
      · apply hs.log q e hold
      · contradiction

/-- So does a change of a process that does nothing with the queue. -/
theorem ConsumersAnnounced.setProcess_quiet {s : Group δ τ} (hs : s.ConsumersAnnounced) {p : Nat}
    {process : Process τ} {active : Option Nat} (queueExists : Bool) (queue : Queue δ)
    (hprocess : Announced active p process)
    (hactive : ∀ q, q ≠ p → s.active = some q → active = some q)
    (hresult : (s.processes p).activeResult = some .ok → process.activeResult = some .ok) :
  ConsumersAnnounced (Group.setProcess
    ⟨queueExists, queue, active, s.processes, s.log⟩ p process)
  := by
  apply hs.setProcess queueExists queue hprocess hactive hresult
  intro q e he
  left
  apply he

/-- And so does one of an announced process that does something with it. -/
theorem ConsumersAnnounced.setProcess_consumes {s : Group δ τ} (hs : s.ConsumersAnnounced)
    {p : Nat} {process : Process τ} (queueExists : Bool) (queue : Queue δ)
    (consumed : List Consumption) (hprocess : Announced s.active p process)
    (hok : process.activeResult = some .ok) :
  ConsumersAnnounced (Group.setProcess
    ⟨queueExists, queue, s.active, s.processes, s.log ++ consumed.map (fun e => (p, e))⟩ p process)
  := by
  apply hs.setProcess queueExists queue hprocess
  · intro q _
    apply id
  · intro _
    apply hok
  · intro q e he
    rcases List.mem_append.mp he with hold | hnew
    · left
      apply hold
    · right
      obtain ⟨_, -, heq⟩ := List.mem_map.mp hnew
      use (congrArg Prod.fst heq).symm

/-- Telling the sessions of a change of the queue keeps the invariant. -/
theorem ConsumersAnnounced.notifyAll {s : Group δ τ} (hs : s.ConsumersAnnounced) :
  s.notifyAll.ConsumersAnnounced
  := by
  constructor
  · intro p
    obtain ⟨hqueue, hactive⟩ := hs.processes p
    use hqueue, hactive
  · apply hs.log

/-- A step of the session of a process that has fetched keeps the invariant, also when it does
something with the queue. -/
theorem ConsumersAnnounced.consume {s : Group δ τ} (hs : s.ConsumersAnnounced) {p : Nat}
    (hstage : (s.processes p).stage = .fetching) (loop : Loop τ) (consumed : List Consumption) :
  ConsumersAnnounced (Group.setProcess { s with
      log := s.log ++ consumed.map (fun e => (p, e)) } p { s.processes p with loop := loop })
  := by
  obtain ⟨hqueue, hactive⟩ := hs.processes p
  apply hs.setProcess_consumes
  · exact ⟨hqueue, hactive⟩
  · apply (hactive (Or.inr hstage)).1

/-- Every step in which no create fails keeps the invariant. -/
theorem ConsumersAnnounced.step {load : δ → Option τ} {s t : Group δ τ} {action : Action δ}
    (hs : s.ConsumersAnnounced) (hsucceed : s.CreatesSucceed action)
    (h : s.step load action = some t) :
  t.ConsumersAnnounced
  := by
  cases action with
  | createTask data =>
      simp only [Group.step, Option.ite_none_right_eq_some, Option.some.injEq] at h
      obtain ⟨-, rfl⟩ := h
      apply ConsumersAnnounced.notifyAll
      use hs.processes, hs.log
  | createQueue p result =>
      simp only [Group.step, Option.ite_none_right_eq_some, Option.some.injEq] at h
      obtain ⟨-, rfl⟩ := h
      apply hs.setProcess_quiet
      · constructor
        · simpa [CreatesSucceed] using hsucceed
        · simp
      · intro q _
        apply id
      · apply id
  | createActive p result =>
      simp only [Group.step, Option.ite_none_right_eq_some, Option.some.injEq] at h
      obtain ⟨⟨hstage, hnone, -⟩, rfl⟩ := h
      obtain rfl := hsucceed
      apply hs.setProcess_quiet
      · constructor
        · apply (hs.processes p).queueResult
        · simp
      · -- the node did not exist, so that it was no other process's
        intro q _ hq
        rw [hnone rfl] at hq
        cases hq
      · intro _
        rfl
  | firstFetch p =>
      simp only [Group.step, Option.ite_none_right_eq_some, Option.some.injEq] at h
      obtain ⟨hstage, rfl⟩ := h
      obtain ⟨hqueue, hactive⟩ := hs.processes p
      obtain ⟨hok, hp⟩ := hactive (Or.inl hstage)
      apply hs.setProcess_consumes _ _ [_]
      · exact ⟨hqueue, fun _ => ⟨hok, hp⟩⟩
      · apply hok
  | interrupt p =>
      obtain rfl := Option.some.inj h
      obtain ⟨hqueue, hactive⟩ := hs.processes p
      apply hs.setProcess_quiet
      · exact ⟨hqueue, hactive⟩
      · intro q _
        apply id
      · apply id
  | exit p =>
      obtain rfl := Option.some.inj h
      apply hs.setProcess_quiet
      · constructor
        · apply (hs.processes p).queueResult
        · simp
      · intro q hq hactive
        rw [hactive, if_neg]
        simpa using hq
      · apply id
  | loop p action =>
      simp only [Group.step, Option.ite_none_right_eq_some, Option.map_eq_some_iff] at h
      obtain ⟨⟨hstage, -⟩, loop, -, rfl⟩ := h
      have hset := hs.consume hstage loop (consumption (s.processes p).loop loop action)
      split
      · apply hset
      · apply ConsumersAnnounced.notifyAll
        use hset.processes, hset.log

/-- With the invariant only announced processes consume, and there is at most one of them. -/
theorem ConsumersAnnounced.singleConsumer {s : Group δ τ} (hs : s.ConsumersAnnounced) :
  s.SingleConsumer ∧ ∀ p q, (s.processes p).stage = .fetching →
    (s.processes q).stage = .fetching → p = q
  := by
  constructor
  · intro p e he
    use hs.log p e he
    intro _
    apply (hs.processes p).queueResult
  · intro p q hp hq
    have hp' := ((hs.processes p).activeResult (Or.inr hp)).2
    have hq' := ((hs.processes q).activeResult (Or.inr hq)).2
    rw [hp'] at hq'
    apply Option.some.inj hq'

end Group

/-! ### Two processes over one queue -/

/-- The second process loses the creation of the active node, and fetches and executes a task
all the same. -/
def loserConsumes : List (Action Unit) :=
  [.createQueue 0 .ok, .createActive 0 .ok, .firstFetch 0, .createTask (),
    .createQueue 1 .nodeExists, .createActive 1 .nodeExists, .firstFetch 1,
    .loop 1 (.serve [taskName 0]), .loop 1 .deliver, .loop 1 (.get true), .loop 1 .handOver]

/-- The creation of the queue node fails although the node is there, and the process executes
a task left over in it. -/
def queueCreateFails : List (Action Unit) :=
  [.createQueue 0 .ok, .createActive 0 .ok, .createTask (), .exit 0,
    .createQueue 1 .error, .createActive 1 .ok, .firstFetch 1,
    .loop 1 (.serve [taskName 0]), .loop 1 .deliver, .loop 1 (.get true), .loop 1 .handOver]

theorem init_initial (load : δ → Option τ) :
  (machine load).Init .initial
  := ⟨rfl, rfl, fun _ => rfl⟩

/-- A process that is told to exit consumes tasks. -/
theorem loser_consumes :
  (∃ s, (machine (some : Unit → Option Unit)).run .initial loserConsumes = some s ∧
      (1, .fetch) ∈ s.log ∧ (1, .execute (taskName 0)) ∈ s.log ∧
      (s.processes 1).activeResult = some .nodeExists ∧
      (s.processes 1).loop.running = false ∧ ¬s.SingleConsumer) ∧
    (∃ s, (machine (some : Unit → Option Unit)).run .initial queueCreateFails = some s ∧
      (1, .execute (taskName 0)) ∈ s.log ∧ (s.processes 1).queueResult = some .error ∧
      (s.processes 1).loop.running = false ∧ ¬s.SingleConsumer)
  := by
  refine ⟨⟨_, rfl, by decide, by decide, rfl, rfl, ?_⟩, ⟨_, rfl, by decide, rfl, rfl, ?_⟩⟩
  · intro hsingle
    have hok := (hsingle 1 .fetch (by decide)).1
    cases hok
  · intro hsingle
    apply (hsingle 1 (.execute (taskName 0)) (by decide)).2
    · simp
    · rfl

/-- In every run in which no create fails, only processes that have created their active node
consume tasks, and at most one process at a time is past its first fetch. -/
theorem singleConsumer_of_createsSucceed (load : δ → Option τ) {s : Group δ τ}
    (h : ((machine load).restrict Group.CreatesSucceed).Reachable s) :
  s.SingleConsumer ∧ ∀ p q, (s.processes p).stage = .fetching →
    (s.processes q).stage = .fetching → p = q
  := by
  apply Group.ConsumersAnnounced.singleConsumer
  apply Machine.Reachable.invariant_of_restrict _ _ h
  · rintro s ⟨hactive, hlog, hprocesses⟩
    constructor
    · intro p
      rw [hprocesses p]
      constructor <;> simp [Process.init]
    · simp [hlog]
  · intro s action t hs hsucceed hstep
    apply hs.step hsucceed hstep

/-- Two processes after one another. -/
def oneAfterAnother : List (Action Unit) :=
  [.createQueue 0 .ok, .createActive 0 .ok, .firstFetch 0, .createTask (), .exit 0,
    .createQueue 1 .nodeExists, .createActive 1 .ok, .firstFetch 1,
    .loop 1 (.serve [taskName 0]), .loop 1 .deliver, .loop 1 (.get true), .loop 1 .handOver,
    .loop 1 (.delete true)]

theorem singleConsumer_of_createsSucceed_oneAfterAnother :
  ∃ s, ((machine (some : Unit → Option Unit)).restrict Group.CreatesSucceed).run .initial
      oneAfterAnother = some s ∧ (1, .delete (taskName 0)) ∈ s.log ∧ s.SingleConsumer ∧
    ∀ p q, (s.processes p).stage = .fetching → (s.processes q).stage = .fetching → p = q
  := by
  have hrun : ∃ s, ((machine (some : Unit → Option Unit)).restrict Group.CreatesSucceed).run
      .initial oneAfterAnother = some s ∧ (1, .delete (taskName 0)) ∈ s.log := by
    refine ⟨_, rfl, by decide⟩
  obtain ⟨s, hs, hlog⟩ := hrun
  have hinit : ((machine (some : Unit → Option Unit)).restrict Group.CreatesSucceed).Reachable
      .initial := Machine.Reachable.init (init_initial some)
  use s, hs, hlog
  apply singleConsumer_of_createsSucceed some (hinit.run hs)

end Consumer
