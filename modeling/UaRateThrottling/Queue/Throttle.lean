import UaRateThrottling.Queue.Order

/-!
# The throttle

The watcher of the queue waits until the service level is high before it fetches the tasks.  It
reads the level as a number of 32 bits, of which the level is one byte, and reads the same place
again when the reading fails.  The fetch at the start waits for nothing.

`throttled_of_gateKept` says that tasks are fetched only when the level is high, in the runs in
which no tasks are listed at the start and the bytes next to the level do not lift it.
-/

namespace Zuth

open Transition

/-- What happens at the throttle: a reading of the service level, which may fail, a fetch of the
tasks, and the execution of a task. -/
inductive GateEvent where
  | reading (level : Option UInt8)
  | fetch
  | execute (task : Name)
deriving DecidableEq

/-- The levels from 200 on are healthy; where there is no level there is no health. -/
def isHealthy (level : Option UInt8) : Bool := level.any (fun level => 200 ≤ level)

/-- The service level read last since the last fetch.  In a history the latest event comes first. -/
def latestLevel : List GateEvent → Option UInt8
  | .reading (some level) :: _ => some level
  | .fetch :: _ => none
  | _ :: history => latestLevel history
  | [] => none

/-- The service level read last since the last fetch is high. -/
def Healthy (history : List GateEvent) : Prop := isHealthy (latestLevel history)

/-- The last fetch was made at a high service level. -/
def Granted : List GateEvent → Prop
  | .fetch :: history => Healthy history
  | _ :: history => Granted history
  | [] => False

/-- Tasks are executed only when they have been fetched at a high service level, read since the
fetch before, and after the first fetch there is none at a lower level. -/
def Throttled : List GateEvent → Prop
  | .execute _ :: history => Granted history ∧ Throttled history
  | .fetch :: history => (.fetch ∈ history → Healthy history) ∧ Throttled history
  | .reading _ :: history => Throttled history
  | [] => True

/-! ### The watcher -/

/-- The number of 32 bits at the place of a byte, with the three bytes next to it. -/
def int32At (level : UInt8) (beyond : UInt8 × UInt8 × UInt8) : Int32 :=
  Int32.ofNat (level.toNat + 256 * beyond.1.toNat + 65536 * beyond.2.1.toNat +
    16777216 * beyond.2.2.toNat)

/-- The value the watcher takes out of its variant: the number it was made with, until a reading has
put a byte there. -/
def valueOf (outValue : Option UInt8) (beyond : UInt8 × UInt8 × UInt8) : Int32 :=
  match outValue with
  | none => 0
  | some level => int32At level beyond

/-- One server with its queue, the variant of the watcher, and what has happened at the throttle. -/
structure ThrottleState (δ τ : Type) where
  server : QueueState δ τ
  outValue : Option UInt8
  history : List GateEvent

/-- The steps: `UA_Server_readValue` reads a service level or fails, in which case the variant keeps
what it holds; some process creates or deletes children of the queue, of any names; or anything else
happens. The bytes next to the level are any. -/
inductive ThrottleAction (δ : Type) where
  | readValue (level : Option UInt8) (beyond : UInt8 × UInt8 × UInt8)
  | change (queue : Queue δ)
  | other (action : QueueAction δ)

variable {δ τ : Type}

/-- What a step other than a reading is at the throttle. -/
def gateEvents (s : QueueState δ τ) : QueueAction δ → List GateEvent
  | .boot => [.fetch]
  | .loop action => (s.loop.attempted action).map .execute
  | _ => []

/-- The step of the server with its throttle. The variant is made anew for every event. -/
def ThrottleState.step (load : δ → Option τ) (s : ThrottleState δ τ) :
    ThrottleAction δ → Option (ThrottleState δ τ)
  | .readValue level beyond =>
    let outValue := level.or s.outValue
    let value := valueOf outValue beyond
    (s.server.step load (.loop (.readValue value.toInt))).map (fun server =>
      if value.toInt < 200 then
        { server := server, outValue := outValue, history := .reading level :: s.history }
      else
        { server := server, outValue := none, history := .fetch :: .reading level :: s.history })
  | .change queue =>
    some { s with server := { s.server with queue := queue, loop := s.server.loop.notify } }
  | .other (.loop (.readValue _)) => none
  | .other action =>
    (s.server.step load action).map (fun server =>
      { s with server := server, history := gateEvents s.server action ++ s.history })

/-- One server with its throttle, which may start with anything in its queue. -/
def throttleMachine (load : δ → Option τ) : Machine (ThrottleState δ τ) (ThrottleAction δ) where
  Init s :=
    s.server.loop = .init ∧ s.server.booted = false ∧ s.outValue = none ∧ s.history = []
  step := ThrottleState.step load

/-- The fetch at the start lists no tasks, and the watcher takes no number for high of which the
byte is not. -/
def GateKept (s : ThrottleState δ τ) : ThrottleAction δ → Prop
  | .other (.loop (.serve names)) => s.history = [.fetch] → names = []
  | .readValue level beyond =>
    200 ≤ (valueOf (level.or s.outValue) beyond).toInt → isHealthy (level.or s.outValue)
  | _ => True

instance (s : ThrottleState δ τ) : (action : ThrottleAction δ) → Decidable (GateKept s action)
  | .other (.loop (.serve names)) => inferInstanceAs (Decidable (s.history = [.fetch] → names = []))
  | .readValue level beyond =>
    inferInstanceAs (Decidable (200 ≤ (valueOf (level.or s.outValue) beyond).toInt →
      isHealthy (level.or s.outValue)))
  | .other (.loop .serveFailure) | .other (.loop .deliver) | .other (.loop (.readValue _))
  | .other (.loop (.get _)) | .other (.loop .handOver) | .other (.loop (.delete _))
  | .other (.loop .finish) | .other (.create _) | .other .boot | .other .interrupt | .change _ =>
    instDecidableTrue

/-! ### What a step does -/

/-- What a step does: the watcher goes on waiting, it fetches the tasks, the queue is changed, or
the server makes another step. -/
inductive ThrottleStep (load : δ → Option τ) (s : ThrottleState δ τ) :
    ThrottleAction δ → ThrottleState δ τ → Prop
  | wait {level : Option UInt8} {beyond : UInt8 × UInt8 × UInt8} {value : Int}
    {server : QueueState δ τ} (hvalue : value = (valueOf (level.or s.outValue) beyond).toInt)
    (h : s.server.step load (.loop (.readValue value)) = some server) (hlow : value < 200) :
    ThrottleStep load s (.readValue level beyond)
      ⟨server, level.or s.outValue, .reading level :: s.history⟩
  | fetch {level : Option UInt8} {beyond : UInt8 × UInt8 × UInt8} {value : Int}
    {server : QueueState δ τ} (hvalue : value = (valueOf (level.or s.outValue) beyond).toInt)
    (h : s.server.step load (.loop (.readValue value)) = some server) (hhigh : ¬value < 200) :
    ThrottleStep load s (.readValue level beyond)
      ⟨server, none, .fetch :: .reading level :: s.history⟩
  | change (queue : Queue δ) :
    ThrottleStep load s (.change queue)
      { s with server := { s.server with queue := queue, loop := s.server.loop.notify } }
  | other {action : QueueAction δ} {server : QueueState δ τ}
    (haction : ∀ value, action ≠ .loop (.readValue value))
    (h : s.server.step load action = some server) :
    ThrottleStep load s (.other action)
      ⟨server, s.outValue, gateEvents s.server action ++ s.history⟩

theorem throttleStep_of_step {load : δ → Option τ} {s t : ThrottleState δ τ}
    {action : ThrottleAction δ} (h : s.step load action = some t) :
  ThrottleStep load s action t
  := by
  cases action with
  | readValue level beyond =>
      obtain ⟨server, hserver, rfl⟩ := Option.map_eq_some_iff.mp h
      split
      · apply ThrottleStep.wait rfl hserver ‹_›
      · apply ThrottleStep.fetch rfl hserver ‹_›
  | change queue =>
      obtain rfl := Option.some.inj h
      apply ThrottleStep.change
  | other action =>
      by_cases haction : ∃ value, action = .loop (.readValue value)
      · obtain ⟨value, rfl⟩ := haction
        cases h
      · push Not at haction
        have hstep : (s.server.step load action).map (fun server => ({ s with
            server := server
            history := gateEvents s.server action ++ s.history } : ThrottleState δ τ)) =
              some t := by
          rw [← h, ThrottleState.step]
          intro value heq
          apply haction value heq
        obtain ⟨server, hserver, rfl⟩ := Option.map_eq_some_iff.mp hstep
        apply ThrottleStep.other haction hserver

/-! ### The invariant -/

/-- What holds of the throttle in every state: nothing happens before the first fetch, the variant
holds the level read last since the last fetch, and a fetch on its way was made at a high level,
unless it is the first one, as was the one whose tasks are still to be executed. -/
structure ThrottleKept (s : ThrottleState δ τ) : Prop where
  staged : Staged s.server
  throttled : Throttled s.history
  outValue : latestLevel s.history = s.outValue
  unstarted : s.server.booted = false → s.history = []
  fetching : 0 < s.server.loop.requests → Granted s.history ∨ s.history = [.fetch]
  listed : s.server.loop.remaining ≠ [] → Granted s.history

@[simp]
theorem notify_requests (l : Loop τ) :
  l.notify.requests = l.requests
  := by
  rw [Loop.notify]
  split <;> rfl

theorem latestLevel_reading (level : Option UInt8) (history : List GateEvent) :
  latestLevel (.reading level :: history) = level.or (latestLevel history)
  := by
  cases level with
  | none => rfl
  | some level => rfl

/-- A level is read at the throttle. -/
theorem ThrottleKept.readValue {load : δ → Option τ} {s : ThrottleState δ τ}
    {server : QueueState δ τ} (hs : ThrottleKept s) {level : Option UInt8} {value : Int}
    (h : s.server.step load (.loop (.readValue value)) = some server) :
  (value < 200 → ThrottleKept ⟨server, level.or s.outValue, .reading level :: s.history⟩) ∧
    (¬value < 200 → isHealthy (level.or s.outValue) →
      ThrottleKept ⟨server, none, .fetch :: .reading level :: s.history⟩)
  := by
  have hstaged := hs.staged.step h
  simp only [QueueState.step, Option.map_eq_some_iff] at h
  obtain ⟨l, hl, rfl⟩ := h
  have hlevel : latestLevel (.reading level :: s.history) = level.or s.outValue := by
    rw [latestLevel_reading, hs.outValue]
  have hbooted := hs.staged.booted_of_loopStep hl
  have hcycle := cycleStep_of_stage hs.staged.stage hl
  generalize s.server.loop = loop at *
  cases hcycle with
  | wait r hlow =>
      constructor
      · intro _
        constructor
        · exact hstaged
        · apply hs.throttled
        · exact hlevel
        · intro hnot
          rw [hbooted] at hnot
          cases hnot
        · intro hrequests
          cases hrequests
        · intro hremaining
          contradiction
      · intro hhigh
        contradiction
  | fetch r hhigh =>
      constructor
      · intro hlow
        contradiction
      · intro _ hhealthy
        have hgranted : Healthy (.reading level :: s.history) := by
          rw [Healthy, hlevel]
          exact hhealthy
        constructor
        · exact hstaged
        · use fun _ => hgranted
          apply hs.throttled
        · rfl
        · intro hnot
          rw [hbooted] at hnot
          cases hnot
        · intro _
          left
          exact hgranted
        · intro hremaining
          contradiction

/-- Another step of the session leaves the throttle as it is, but for the tasks executed. -/
theorem ThrottleKept.loop {load : δ → Option τ} {s : ThrottleState δ τ} (hs : ThrottleKept s)
    {action : LoopAction} {l : Loop τ}
    (haction : ∀ value, action ≠ .readValue value)
    (hlisted : ∀ names, action = .serve names → s.history = [.fetch] → names = [])
    (h : s.server.loop.step load s.server.queue action = some l) :
  Throttled (gateEvents s.server (.loop action) ++ s.history) ∧
    latestLevel (gateEvents s.server (.loop action) ++ s.history) = s.outValue ∧
    l.requests = 0 ∧
    (l.remaining ≠ [] → Granted (gateEvents s.server (.loop action) ++ s.history))
  := by
  obtain ⟨hstaged, hthrottled, houtValue, -, hfetching, hremaining⟩ := hs
  have hcycle := cycleStep_of_stage hstaged.stage h
  rw [gateEvents]
  generalize s.server.loop = loop at *
  cases hcycle with
  | serve r hperm =>
      use hthrottled, houtValue, rfl
      intro htasks
      rcases hfetching Nat.one_pos with hgranted | hfirst
      · exact hgranted
      · rw [hlisted _ rfl hfirst] at htasks
        contradiction
  | serveFailure r =>
      use hthrottled, houtValue, rfl
      intro htasks
      contradiction
  | deliverFailure r =>
      use hthrottled, houtValue, rfl
      intro htasks
      contradiction
  | deliverChildren r w hsort =>
      use hthrottled, houtValue, rfl
      intro htasks
      apply hremaining
      simpa [Loop.remaining, hsort] using htasks
  | crash r w hsort =>
      use hthrottled, houtValue, rfl
      intro htasks
      cases w <;> simp [Loop.remaining, pending] at htasks
  | deliverEvent r =>
      use hthrottled, houtValue, rfl
      intro htasks
      contradiction
  | wait r hlow => cases haction _ rfl
  | fetch r hhigh => cases haction _ rfl
  | load r w hload =>
      have hgranted := hremaining (by simp [Loop.remaining])
      exact ⟨⟨hgranted, hthrottled⟩, houtValue, rfl, fun _ => hgranted⟩
  | reject r w ok hload =>
      have hgranted := hremaining (by simp [Loop.remaining])
      exact ⟨⟨hgranted, hthrottled⟩, houtValue, rfl, fun _ => hgranted⟩
  | handOver r w =>
      use hthrottled, houtValue, rfl
      intro _
      apply hremaining
      simp [Loop.remaining]
  | delete r w ok hqueue =>
      use hthrottled, houtValue, rfl
      intro htasks
      apply hremaining htasks
  | finish r w =>
      use hthrottled, houtValue, rfl
      intro htasks
      cases w <;> simp [Loop.remaining, pending] at htasks

/-- A firing watch leaves the throttle as it is. -/
theorem ThrottleKept.notify {s : ThrottleState δ τ} (hs : ThrottleKept s) {server : QueueState δ τ}
    (hstaged : Staged server) (hbooted : server.booted = s.server.booted)
    (hloop : server.loop = s.server.loop.notify) :
  ThrottleKept { s with server := server }
  := by
  constructor
  · exact hstaged
  · apply hs.throttled
  · apply hs.outValue
  · intro hnot
    apply hs.unstarted
    rw [← hbooted, hnot]
  · intro hrequests
    apply hs.fetching
    simpa [hloop] using hrequests
  · intro hremaining
    apply hs.listed
    simpa [hloop] using hremaining

/-- The first fetch is made when nothing has happened at the throttle. -/
theorem ThrottleKept.boot {load : δ → Option τ} {s : ThrottleState δ τ} {server : QueueState δ τ}
    (hs : ThrottleKept s) (h : s.server.step load .boot = some server) :
  ThrottleKept ⟨server, s.outValue, gateEvents s.server .boot ++ s.history⟩
  := by
  have hstaged := hs.staged.step h
  simp only [QueueState.step, Option.ite_none_left_eq_some, Option.some.injEq] at h
  obtain ⟨hbooted, rfl⟩ := h
  have hnot := Bool.eq_false_of_not_eq_true hbooted
  obtain ⟨r, hr⟩ := hs.staged.unstarted hnot
  have houtValue := hs.outValue
  rw [gateEvents, hs.unstarted hnot]
  rw [hs.unstarted hnot] at houtValue
  constructor
  · exact hstaged
  · refine ⟨?_, trivial⟩
    intro hfetch
    cases hfetch
  · exact houtValue
  · intro hfalse
    cases hfalse
  · intro _
    right
    rfl
  · rw [hr]
    intro hremaining
    contradiction

/-- A step that keeps the gate keeps the invariant. -/
theorem ThrottleKept.step {load : δ → Option τ} {s t : ThrottleState δ τ}
    {action : ThrottleAction δ} (hs : ThrottleKept s) (hgate : GateKept s action)
    (h : s.step load action = some t) :
  ThrottleKept t
  := by
  cases throttleStep_of_step h with
  | wait hvalue hserver hlow => apply (hs.readValue hserver).1 hlow
  | fetch hvalue hserver hhigh =>
      apply (hs.readValue hserver).2 hhigh
      apply hgate
      omega
  | change queue => exact hs.notify (hs.staged.notify rfl rfl) rfl rfl
  | other haction hserver =>
      rename_i action server
      have hstaged := hs.staged.step hserver
      cases action with
      | create data =>
          simp only [QueueState.step, Option.ite_none_right_eq_some, Option.some.injEq] at hserver
          obtain ⟨-, rfl⟩ := hserver
          apply hs.notify hstaged rfl rfl
      | boot => apply hs.boot hserver
      | interrupt =>
          obtain rfl := Option.some.inj hserver
          constructor
          · exact hstaged
          · apply hs.throttled
          · apply hs.outValue
          · apply hs.unstarted
          · apply hs.fetching
          · apply hs.listed
      | loop action =>
          simp only [QueueState.step, Option.map_eq_some_iff] at hserver
          obtain ⟨l, hl, rfl⟩ := hserver
          obtain ⟨hthrottled, houtValue, hrequests, hlisted⟩ := hs.loop
            (fun value heq => haction value (congrArg _ heq))
            (by
              rintro names rfl hfirst
              apply hgate hfirst) hl
          constructor
          · exact hstaged
          · exact hthrottled
          · exact houtValue
          · intro hnot
            rw [hs.staged.booted_of_loopStep hl] at hnot
            cases hnot
          · intro hpositive
            dsimp only at hpositive
            split at hpositive
            · rw [notify_requests, hrequests] at hpositive
              cases hpositive
            · rw [hrequests] at hpositive
              cases hpositive
          · intro hremaining
            apply hlisted
            dsimp only at hremaining
            split at hremaining
            · rwa [Loop.remaining_notify] at hremaining
            · exact hremaining

/-- In every run in which no tasks are listed at the start and the watcher takes no number for high
of which the byte is not, tasks are fetched and executed only at a high service level. -/
theorem throttled_of_gateKept {load : δ → Option τ} {s : ThrottleState δ τ}
    (h : ((throttleMachine load).restrict GateKept).Reachable s) :
  Throttled s.history
  := by
  have hkept : ThrottleKept s := by
    apply Machine.Reachable.invariant_of_restrict _ _ h
    · rintro s ⟨hloop, hbooted, houtValue, hhistory⟩
      constructor
      · constructor
        · rw [hloop]
          apply Stage.unstarted
        · intro _
          use true, hloop
      · rw [hhistory]
        trivial
      · rw [hhistory, houtValue]
        rfl
      · intro _
        exact hhistory
      · intro hrequests
        rw [hloop] at hrequests
        cases hrequests
      · intro hremaining
        rw [hloop] at hremaining
        contradiction
    · intro s a t hs hgate hstep
      apply hs.step hgate hstep
  exact hkept.throttled

/-- The state a run starts in when the queue is empty. -/
def ThrottleState.initial : ThrottleState δ τ where
  server := .initial
  outValue := none
  history := []

theorem init_throttle (load : δ → Option τ) :
  (throttleMachine load).Init .initial
  := ⟨rfl, rfl, rfl, rfl⟩

/-- The server starts on an empty queue, and its watcher is called for the first task. -/
def firstEvent : List (ThrottleAction Unit) :=
  [.other .boot, .other (.loop (.serve [])), .other (.loop .deliver), .other (.loop .finish),
    .other (.create ()), .other (.loop .deliver)]

/-- The task is fetched and executed. -/
def execution : List (ThrottleAction Unit) :=
  [.other (.loop (.serve [taskName 0])), .other (.loop .deliver), .other (.loop (.get true))]

/-- The watcher fetches the task at a high level, after a reading that fails and a low one. -/
def afterLowLevel : List (ThrottleAction Unit) :=
  firstEvent ++ [.readValue none (0, 0, 0), .readValue (some 100) (0, 0, 0),
    .readValue (some 255) (0, 0, 0)] ++ execution

theorem throttled_of_gateKept_afterLowLevel :
  ∃ s, ((throttleMachine (some : Unit → Option Unit)).restrict GateKept).run .initial
      afterLowLevel = some s ∧ .execute (taskName 0) ∈ s.history ∧ Throttled s.history
  := by
  have hinit : ((throttleMachine (some : Unit → Option Unit)).restrict GateKept).Reachable
      .initial := Machine.Reachable.init (init_throttle some)
  have hrun : ∃ s, ((throttleMachine (some : Unit → Option Unit)).restrict GateKept).run .initial
      afterLowLevel = some s ∧ .execute (taskName 0) ∈ s.history := by
    refine ⟨_, rfl, by decide⟩
  obtain ⟨s, hs, hexecuted⟩ := hrun
  use s, hs, hexecuted
  apply throttled_of_gateKept (hinit.run hs)

/-- A task is in the queue when the server starts. -/
def leftOver : List (ThrottleAction Unit) := [.other (.create ()), .other .boot] ++ execution

/-- The service level is 10, with a byte next to it that is not zero. -/
def lifted : List (ThrottleAction Unit) :=
  firstEvent ++ [.readValue (some 10) (1, 0, 0)] ++ execution

/-- A task left over from before the start is executed although no service level has been read, and
a task is fetched and executed at the service level 10. -/
theorem not_throttled :
  (∃ s, (throttleMachine (some : Unit → Option Unit)).run .initial leftOver = some s ∧
      s.history = [.execute (taskName 0), .fetch] ∧ ¬Throttled s.history) ∧
    ∃ s, (throttleMachine (some : Unit → Option Unit)).run .initial lifted = some s ∧
      s.history = [.execute (taskName 0), .fetch, .reading (some 10), .fetch] ∧
        ¬Throttled s.history
  := by
  refine ⟨⟨_, rfl, rfl, ?_⟩, ⟨_, rfl, rfl, ?_⟩⟩
  · rintro ⟨hgranted, -⟩
    cases hgranted
  · rintro ⟨hgranted, -⟩
    cases hgranted

end Zuth
