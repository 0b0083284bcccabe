import UaRateThrottling.Queue.Cycle

/-!
# No lost wake-up

From the first fetch on, as long as no fetch fails, something is scheduled to look at the
queue: the watch is set, its event is outstanding, or a fetch is in flight.  A task that was
not attempted yet is among the tasks to be attempted when the watch is set.  A fetch that
fails stops the server.
-/

namespace Zuth

open Transition

variable {δ τ : Type}

namespace Loop

/-- The tasks of the listing that is on its way or processed that are still to be attempted. -/
def toAttempt (l : Loop τ) : List Name :=
  match l.phase with
  | .processing tasks => tasks
  | .loaded _ _ tasks => tasks
  | .executed _ tasks => tasks
  | _ =>
    match l.inbox with
    | .children names :: _ => names
    | _ => []

/-- The watch is set and the task is in the list being processed. -/
def Processes (l : Loop τ) (task : Name) : Prop :=
  l.watch = true ∧
    ((∃ tasks, l.phase = .processing tasks ∧ task ∈ tasks) ∨
      (∃ current document tasks, l.phase = .loaded current document tasks ∧ task ∈ tasks) ∨
      ∃ current tasks, l.phase = .executed current tasks ∧ task ∈ tasks)

/-- The event of the watch is pending or being handled. -/
def EventOutstanding (l : Loop τ) : Prop := .childEvent ∈ l.inbox ∨ l.phase = .handling

/-- A fetch is on its way to ZooKeeper, or its listing is on the way back. -/
def FetchInFlight (l : Loop τ) : Prop :=
  0 < l.requests ∨ ∃ names, .children names ∈ l.inbox

/-- A fetch in flight sees the task: one on its way to ZooKeeper when the task is in the queue,
one on the way back when the task was listed. -/
def FetchSees (queue : Queue δ) (l : Loop τ) (task : Name) : Prop :=
  (0 < l.requests ∧ task ∈ queue.names) ∨ ∃ names, .children names ∈ l.inbox ∧ task ∈ names

/-- Something is scheduled to look at the queue. -/
def Scheduled (l : Loop τ) : Prop :=
  l.watch = true ∨ l.EventOutstanding ∨ l.FetchInFlight

end Loop

/-- A step of the cycle after which no fetch has failed leaves something scheduled. -/
theorem CycleStep.scheduled {load : δ → Option τ} {queue : Queue δ} {l l' : Loop τ}
    {action : LoopAction} (h : CycleStep load queue l action l')
    (hfailure : .failure ∉ l.inbox) (haction : action ≠ .serveFailure) :
  l'.Scheduled ∧ .failure ∉ l'.inbox
  := by
  cases h with
  | serveFailure r => contradiction
  | deliverFailure r => simp at hfailure
  | wait r hv => simp [Loop.Scheduled, Loop.EventOutstanding]
  | fetch r hv => simp [Loop.Scheduled, Loop.FetchInFlight]
  | deliverEvent r => simp [Loop.Scheduled, Loop.EventOutstanding]
  | serve r hperm => simp [Loop.Scheduled, pending]
  | deliverChildren r w _ | crash r w _ | load r w _ | reject r w _ _ | handOver r w
  | delete r w _ _ | finish r w =>
      cases w <;> simp [Loop.Scheduled, Loop.EventOutstanding, pending]

/-- A firing watch leaves its event outstanding. -/
theorem Loop.Scheduled.notify {l : Loop τ} (h : l.Scheduled ∧ .failure ∉ l.inbox) :
  l.notify.Scheduled ∧ .failure ∉ l.notify.inbox
  := by
  rw [Loop.notify]
  split
  · simp [Loop.Scheduled, Loop.EventOutstanding, h.2]
  · apply h

/-- A step of the cycle takes at most the attempted task from the tasks to be attempted, and a
new listing holds every task of the queue. -/
theorem CycleStep.toAttempt {load : δ → Option τ} {queue : Queue δ} {l l' : Loop τ}
    {action : LoopAction} (h : CycleStep load queue l action l') (hcrash : l'.phase ≠ .crashed)
    {task : Name} (ht : task ∈ queue.names) (hattempted : task ∉ l.attempted action)
    (hl : l.watch = true → task ∈ l.toAttempt) (hw : l'.watch = true) :
  task ∈ l'.toAttempt
  := by
  cases h with
  | serve r hperm => simpa [Loop.toAttempt] using hperm.mem_iff.mpr ht
  | deliverChildren r w hsort =>
      have hmem := hl hw
      apply (perm_of_sortTasks hsort).mem_iff.mpr hmem
  | crash r w hsort => contradiction
  | load r w hdocument | reject r w ok hreject =>
      have hmem := hl hw
      simp only [Loop.toAttempt, Loop.attempted, List.mem_cons] at *
      tauto
  | handOver r w => apply hl hw
  | delete r w ok hsome => apply hl hw
  | finish r w => simpa [Loop.toAttempt] using hl hw
  | _ => cases hw

/-- The server is told to stop, or the failure that tells it is on its way. -/
def Loop.Stopping (l : Loop τ) : Prop := l.running = false ∨ .failure ∈ l.inbox

/-- Once the server is told to stop, or is to be told, it remains so. -/
theorem CycleStep.stopping {load : δ → Option τ} {queue : Queue δ} {l l' : Loop τ}
    {action : LoopAction} (h : CycleStep load queue l action l')
    (hl : action = .serveFailure ∨ l.Stopping) :
  l'.Stopping
  := by
  cases h with
  | serveFailure r =>
      right
      apply List.mem_singleton_self
  | deliverFailure r =>
      left
      rfl
  | load r w _ | reject r w _ _ | handOver r w | delete r w _ _ | finish r w =>
      simpa [Loop.Stopping] using hl
  | deliverChildren r w _ | crash r w _ => simpa [Loop.Stopping] using hl
  | _ => simpa [Loop.Stopping, pending] using hl

theorem Loop.Stopping.notify {l : Loop τ} (h : l.Stopping) :
  l.notify.Stopping
  := by
  rw [Loop.notify]
  split
  · simpa [Loop.Stopping] using h
  · apply h

/-- The names of a queue and of the listings on their way can be sorted. -/
structure Sortable (s : QueueState δ τ) : Prop where
  numbered : Numbered s.queue.counter s.queue.names
  counter_le : s.queue.counter ≤ counterLimit
  listed : ∀ names, .children names ∈ s.loop.inbox →
    ∀ task ∈ names, (taskNumber task).isSome
  alive : s.loop.phase ≠ .crashed

/-- The invariant of the wake-ups. -/
structure Awake (s : QueueState δ τ) : Prop where
  scheduled : s.booted = true → s.failed = false →
    s.loop.Scheduled ∧ .failure ∉ s.loop.inbox
  attempts : s.booted = true → s.failed = false → s.loop.watch = true →
    ∀ task ∈ s.queue.names, task ∉ s.attempted → task ∈ s.loop.toAttempt
  stopping : s.failed = true → s.loop.Stopping

/-- A child removed by its name leaves the other names in order. -/
theorem Queue.names_delete_sublist (queue : Queue δ) (task : Name) :
  (queue.delete task).names.Sublist queue.names
  := List.eraseP_sublist.map _

/-- The listings on their way are not changed by a firing watch. -/
theorem Loop.children_mem_notify {l : Loop τ} {names : List Name} :
  .children names ∈ l.notify.inbox ↔ .children names ∈ l.inbox
  := by
  rw [Loop.notify]
  split
  · simp
  · rfl

/-- A step of the cycle lists only names in the queue, and the listings on their way can be
sorted. -/
theorem CycleStep.sortable {load : δ → Option τ} {queue : Queue δ} {l l' : Loop τ}
    {action : LoopAction} (h : CycleStep load queue l action l')
    (hqueue : ∀ task ∈ queue.names, (taskNumber task).isSome)
    (hlisted : ∀ names, .children names ∈ l.inbox → ∀ task ∈ names, (taskNumber task).isSome) :
  (∀ names, .children names ∈ l'.inbox → ∀ task ∈ names, (taskNumber task).isSome) ∧
    l'.phase ≠ .crashed
  := by
  cases h with
  | @serve r names hperm =>
      constructor
      · intro names' hnames
        simp only [pending, if_true, List.mem_singleton, Delivery.children.injEq] at hnames
        obtain rfl := hnames
        intro task ht
        apply hqueue task (hperm.mem_iff.mp ht)
      · simp
  | serveFailure r => simp
  | @crash r w names hsort =>
      have hsome := sortTasks_isSome (hlisted names List.mem_cons_self)
      rw [hsort] at hsome
      cases hsome
  | deliverChildren r w hsort =>
      constructor
      · intro names hnames
        apply hlisted names (List.mem_cons_of_mem _ hnames)
      · simp
  | load r w hdocument | reject r w ok hreject | handOver r w | delete r w ok hsome
  | finish r w =>
      use hlisted
      simp
  | _ => simp

/-- The names of the tasks stay sortable. -/
theorem Sortable.step {load : δ → Option τ} {s t : QueueState δ τ} {action : QueueAction δ}
    (hs : Sortable s) (hstaged : Staged s) (h : s.step load action = some t) :
  Sortable t
  := by
  obtain ⟨hnumbered, hcounter, hlisted, halive⟩ := hs
  cases action with
  | create data =>
      simp only [QueueState.step, Option.ite_none_right_eq_some, Option.some.injEq] at h
      obtain ⟨hlt, rfl⟩ := h
      constructor
      · simpa [Queue.names, Queue.create] using hnumbered.append
      · apply hlt
      · intro names hnames
        apply hlisted names (Loop.children_mem_notify.mp hnames)
      · simpa using halive
  | boot =>
      simp only [QueueState.step, Option.ite_none_left_eq_some, Option.some.injEq] at h
      obtain ⟨-, rfl⟩ := h
      use hnumbered, hcounter, hlisted, halive
  | interrupt =>
      obtain rfl := Option.some.inj h
      use hnumbered, hcounter, hlisted, halive
  | loop action =>
      simp only [QueueState.step, Option.map_eq_some_iff] at h
      obtain ⟨l, hl, rfl⟩ := h
      have hcycle := cycleStep_of_stage hstaged.stage hl
      obtain ⟨hnames, hphase⟩ := hcycle.sortable
        (fun task ht => hnumbered.taskNumber_isSome hcounter ht) hlisted
      cases hdeleted : s.loop.deleted action with
      | none => use hnumbered, hcounter, hnames, hphase
      | some task =>
          use hnumbered.sublist (s.queue.names_delete_sublist task), hcounter
          · intro names hmem
            apply hnames names (Loop.children_mem_notify.mp hmem)
          · simpa using hphase

/-- In every reachable state the names of the tasks can be sorted. -/
theorem sortable_of_reachable {load : δ → Option τ} {s : QueueState δ τ}
    (h : (queueMachine load).Reachable s) :
  Sortable s
  := by
  apply Machine.Reachable.invariant _ _ h
  · rintro s ⟨hnumbered, hcounter, hloop, -⟩
    use hnumbered, hcounter
    · simp [hloop, Loop.init]
    · simp [hloop, Loop.init]
  · intro s action t hreach hs ha
    apply hs.step (staged_of_reachable hreach) ha

/-- The wake-ups are kept by every step. -/
theorem Awake.step {load : δ → Option τ} {s t : QueueState δ τ} {action : QueueAction δ}
    (hs : Awake s) (hstaged : Staged s) (hsortable : Sortable s)
    (h : s.step load action = some t) :
  Awake t
  := by
  have hsortable' := hsortable.step hstaged h
  obtain ⟨hscheduled, hattempts, hstopping⟩ := hs
  cases action with
  | create data =>
      simp only [QueueState.step, Option.ite_none_right_eq_some, Option.some.injEq] at h
      obtain ⟨-, rfl⟩ := h
      constructor
      · intro hb hf
        apply Loop.Scheduled.notify (hscheduled hb hf)
      · intro _ _ hw
        simp at hw
      · intro hf
        apply (hstopping hf).notify
  | boot =>
      simp only [QueueState.step, Option.ite_none_left_eq_some, Option.some.injEq] at h
      obtain ⟨hb, rfl⟩ := h
      obtain ⟨r, hr⟩ := hstaged.unstarted (by simpa using hb)
      constructor
      · intro _ _
        simp [hr, Loop.fetch, Loop.Scheduled, Loop.FetchInFlight]
      · intro _ _ hw
        simp [hr, Loop.fetch] at hw
      · apply hstopping
  | interrupt =>
      obtain rfl := Option.some.inj h
      use hscheduled, hattempts
      intro _
      left
      rfl
  | loop action =>
      simp only [QueueState.step, Option.map_eq_some_iff] at h
      obtain ⟨l, hl, rfl⟩ := h
      have hcycle := cycleStep_of_stage hstaged.stage hl
      have hstopping' : (s.failed || action == .serveFailure) = true → l.Stopping := by
        intro hf
        apply hcycle.stopping
        simp only [Bool.or_eq_true, beq_iff_eq] at hf
        tauto
      have hscheduled' : s.booted = true → (s.failed || action == .serveFailure) = false →
          l.Scheduled ∧ .failure ∉ l.inbox := by
        intro hb hf
        simp only [Bool.or_eq_false_iff, beq_eq_false_iff_ne] at hf
        apply hcycle.scheduled (hscheduled hb hf.1).2 hf.2
      cases hdeleted : s.loop.deleted action with
      | none =>
          constructor
          · apply hscheduled'
          · intro hb hf hw task ht hattempted
            simp only [Bool.or_eq_false_iff, List.mem_append, not_or] at hf hattempted
            apply hcycle.toAttempt _ ht hattempted.2 _ hw
            · simpa [hdeleted] using hsortable'.alive
            · intro hw'
              apply hattempts hb hf.1 hw' task ht hattempted.1
          · apply hstopping'
      | some task =>
          constructor
          · intro hb hf
            apply Loop.Scheduled.notify (hscheduled' hb hf)
          · intro _ _ hw
            simp at hw
          · intro hf
            apply (hstopping' hf).notify

/-- The wake-ups hold in every reachable state. -/
theorem awake_of_reachable {load : δ → Option τ} {s : QueueState δ τ}
    (h : (queueMachine load).Reachable s) :
  Awake s
  := by
  apply Machine.Reachable.invariant _ _ h
  · rintro s ⟨-, -, hloop, hbooted, hfailed, -⟩
    constructor <;> simp [hbooted, hfailed]
  · intro s action t hreach hs ha
    apply hs.step (staged_of_reachable hreach) (sortable_of_reachable hreach) ha

/-- While the watch is set, the tasks to be attempted are in the list being processed or in
the listing on its way. -/
theorem Loop.processes_or_fetchSees {l : Loop τ} (queue : Queue δ) {task : Name}
    (hw : l.watch = true) (ht : task ∈ l.toAttempt) :
  l.Processes task ∨ l.FetchSees queue task
  := by
  obtain ⟨r, requests, w, inbox, phase⟩ := l
  have hlisting : task ∈ (match inbox with
      | .children names :: _ => names
      | _ => []) → FetchSees queue (⟨r, requests, w, inbox, phase⟩ : Loop τ) task := by
    intro hmem
    rcases inbox with _ | ⟨names | _ | _, inbox⟩
    · cases hmem
    · right
      use names, List.mem_cons_self, hmem
    · cases hmem
    · cases hmem
  cases phase with
  | processing tasks =>
      left
      use hw
      left
      use tasks, rfl, ht
  | loaded current document tasks =>
      left
      use hw
      right
      left
      use current, document, tasks, rfl, ht
  | executed current tasks =>
      left
      use hw
      right
      right
      use current, tasks, rfl, ht
  | _ =>
      right
      apply hlisting ht

/-- When a listing is on its way back and the watch is not set, its event is outstanding. -/
theorem Stage.eventOutstanding {l : Loop τ} (h : Stage l) (hw : l.watch = false)
    {names : List Name} (hnames : .children names ∈ l.inbox) :
  l.EventOutstanding
  := by
  cases h with
  | fetched r w names =>
      obtain rfl := hw
      left
      simp [pending]
  | watching r w hphase => cases w <;> simp [pending] at hnames
  | _ => simp at hnames

/-- From the first fetch on, as long as no fetch has failed, something is scheduled to look at
the queue, and a task in the queue that was not attempted yet is in the list being processed
under the watch, or the event of the watch is outstanding, or a fetch in flight sees the task.
A fetch that has failed has told the server to stop, or is about to. -/
theorem no_lost_wakeup (load : δ → Option τ) {s : QueueState δ τ}
    (h : (queueMachine load).Reachable s) (hbooted : s.booted = true) :
  (s.failed = false →
    s.loop.Scheduled ∧
      ∀ task ∈ s.queue.names, task ∉ s.attempted →
        s.loop.Processes task ∨ s.loop.EventOutstanding ∨ s.loop.FetchSees s.queue task) ∧
    (s.failed = true → s.loop.Stopping) ∧ s.loop.phase ≠ .crashed
  := by
  obtain ⟨hscheduled, hattempts, hstopping⟩ := awake_of_reachable h
  refine ⟨?_, hstopping, (sortable_of_reachable h).alive⟩
  intro hfailed
  use (hscheduled hbooted hfailed).1
  intro task ht hattempted
  cases hw : s.loop.watch with
  | true =>
      have hmem := hattempts hbooted hfailed hw task ht hattempted
      rcases Loop.processes_or_fetchSees s.queue hw hmem with hp | hsees
      · left
        apply hp
      · right
        right
        apply hsees
  | false =>
      right
      rcases (hscheduled hbooted hfailed).1 with hwatch | hevent | hrequests | ⟨names, hnames⟩
      · rw [hw] at hwatch
        cases hwatch
      · left
        apply hevent
      · right
        left
        use hrequests, ht
      · left
        apply (staged_of_reachable h).stage.eventOutstanding hw hnames

/-- A run in which a second task is created while the first one is executed. -/
def createdMeanwhile : List (QueueAction Unit) :=
  [.create (), .boot, .loop (.serve [taskName 0]), .loop .deliver, .loop (.get true), .create ()]

theorem no_lost_wakeup_createdMeanwhile :
  ∃ s, (queueMachine (some : Unit → Option Unit)).run .initial createdMeanwhile = some s ∧
    taskName 1 ∈ s.queue.names ∧ taskName 1 ∉ s.attempted ∧
      (s.loop.Processes (taskName 1) ∨ s.loop.EventOutstanding ∨
        s.loop.FetchSees s.queue (taskName 1))
  := by
  have hinit : (queueMachine (some : Unit → Option Unit)).Init .initial := init_initial some
  have hrun : ∃ s, (queueMachine (some : Unit → Option Unit)).run .initial createdMeanwhile
      = some s ∧ s.booted = true ∧ s.failed = false ∧ s.queue.names = [taskName 0, taskName 1] ∧
        s.attempted = [taskName 0] := by
    apply Exists.intro
    refine ⟨rfl, rfl, rfl, rfl, rfl⟩
  obtain ⟨s, hs, hbooted, hfailed, hnames, hattempted⟩ := hrun
  have hmem : taskName 1 ∈ s.queue.names := by
    rw [hnames]
    simp
  have hnot : taskName 1 ∉ s.attempted := by
    rw [hattempted]
    decide
  have hawake := no_lost_wakeup some ((Machine.Reachable.init hinit).run hs) hbooted
  use s, hs, hmem, hnot
  apply (hawake.1 hfailed).2 _ hmem hnot

end Zuth
