import UaRateThrottling.Queue.Cycle

/-!
# In-order execution

As long as all calls of ZooKeeper succeed and all documents are well formed, the tasks handed
over are, over the whole run, a part of the tasks created, each at most once and in the order
of creation.  The invariant `Ordered` ties the queue to the cycle: the children are the task
being deleted, the tasks of the present listing still to be handed over, in their order, and
the tasks created since.
-/

namespace Zuth

open Transition

variable {δ τ : Type}

/-- All calls of ZooKeeper succeed. -/
def CallsSucceed (_ : QueueState δ τ) : QueueAction δ → Prop
  | .loop .serveFailure => False
  | .loop (.get ok) => ok = true
  | .loop (.delete ok) => ok = true
  | _ => True

instance (s : QueueState δ τ) : (action : QueueAction δ) → Decidable (CallsSucceed s action)
  | .loop .serveFailure => instDecidableFalse
  | .loop (.get ok) => inferInstanceAs (Decidable (ok = true))
  | .loop (.delete ok) => inferInstanceAs (Decidable (ok = true))
  | .loop (.serve _) | .loop .deliver | .loop (.readValue _) | .loop .handOver | .loop .finish
  | .create _ | .boot | .interrupt => instDecidableTrue

namespace Loop

/-- The tasks of the listing that is on its way or processed that are still to be handed
over. -/
def remaining (l : Loop τ) : List Name :=
  match l.phase with
  | .processing tasks => tasks
  | .loaded task _ tasks => task :: tasks
  | .executed _ tasks => tasks
  | _ =>
    match l.inbox with
    | .children names :: _ => (sortTasks names).getD []
    | _ => []

/-- The task handed over whose deletion is next. -/
def toDelete (l : Loop τ) : List Name :=
  match l.phase with
  | .executed task _ => [task]
  | _ => []

@[simp]
theorem remaining_notify (l : Loop τ) :
  l.notify.remaining = l.remaining
  := by
  obtain ⟨r, n, w, inbox, phase⟩ := l
  cases w with
  | false => rfl
  | true => cases phase <;> rcases inbox with _ | ⟨⟨⟩, _⟩ <;> rfl

@[simp]
theorem toDelete_notify (l : Loop τ) :
  l.notify.toDelete = l.toDelete
  := by
  rw [toDelete, notify_phase]
  rfl

end Loop

/-- The invariant of in-order execution: the children of the queue are the task being deleted,
the tasks of the present listing still to be handed over, and newer ones; together with the
tasks handed over they are in the order of creation. -/
structure OrderedWith (queue : Queue δ) (toDelete remaining handed created : List Name) :
    Prop where
  numbered : Numbered queue.counter created
  counter_le : queue.counter ≤ counterLimit
  ordered : ∃ newer, queue.names = toDelete ++ (remaining ++ newer) ∧
    (handed ++ (remaining ++ newer)).Sublist created

/-- The invariant of in-order execution, of a state. -/
def Ordered (s : QueueState δ τ) : Prop :=
  OrderedWith s.queue s.loop.toDelete s.loop.remaining s.handed s.created

section

variable {queue : Queue δ} {task : Name} {toDelete tasks remaining handed created : List Name}

/-- A child is found in the queue by its name. -/
theorem Queue.get_isSome (h : task ∈ queue.names) :
  (queue.get task).isSome
  := by
  obtain ⟨child, hchild, rfl⟩ := List.mem_map.mp h
  simp only [get, Option.isSome_map, List.find?_isSome, decide_eq_true_eq]
  use child, hchild

/-- A child is removed from the front of the queue by its name. -/
theorem Queue.names_delete (h : queue.names = task :: tasks) :
  (queue.delete task).names = tasks
  := by
  obtain ⟨counter, children⟩ := queue
  cases children with
  | nil => cases h
  | cons child children =>
      obtain ⟨rfl, rfl⟩ := List.cons.inj h
      simp [names, delete]

/-- The creation of a task keeps the order: it is the newest one. -/
theorem OrderedWith.create (hs : OrderedWith queue toDelete remaining handed created)
    (data : δ) (hcounter : queue.counter < counterLimit) :
  OrderedWith (queue.create data) toDelete remaining handed
    (created ++ [taskName queue.counter])
  := by
  obtain ⟨hnumbered, -, newer, hnames, hsub⟩ := hs
  use hnumbered.append, hcounter, newer ++ [taskName queue.counter]
  constructor
  · have hcreate : (queue.create data).names = queue.names ++ [taskName queue.counter] := by
      simp [Queue.names, Queue.create]
    simp only [hcreate, hnames, List.append_assoc]
  · rw [← List.append_assoc, ← List.append_assoc]
    apply List.Sublist.append_right
    simpa only [List.append_assoc] using hsub

/-- A listing of the queue is sorted into the order of creation, and all of it is still to be
handed over. -/
theorem OrderedWith.serve (hs : OrderedWith queue [] [] handed created) {names : List Name}
    (hperm : names.Perm queue.names) :
  OrderedWith queue [] ((sortTasks names).getD []) handed created
  := by
  obtain ⟨hnumbered, hcounter, newer, hnames, hsub⟩ := hs
  rw [List.nil_append, List.nil_append] at hnames
  rw [List.nil_append, ← hnames] at hsub
  have hsort : sortTasks names = some queue.names := by
    apply Numbered.sortTasks_eq _ hcounter hperm
    apply hnumbered.sublist
    apply (List.sublist_append_right _ _).trans hsub
  use hnumbered, hcounter, []
  simp only [hsort, Option.getD_some, List.nil_append, List.append_nil, true_and]
  apply hsub

/-- The task in hand is in the queue. -/
theorem OrderedWith.mem_names (hs : OrderedWith queue [] (task :: tasks) handed created) :
  task ∈ queue.names
  := by
  obtain ⟨-, -, newer, hnames, -⟩ := hs
  simp [hnames]

/-- The task in hand is handed over, with its deletion next. -/
theorem OrderedWith.handOver (hs : OrderedWith queue [] (task :: tasks) handed created) :
  OrderedWith queue [task] tasks (handed ++ [task]) created
  := by
  obtain ⟨hnumbered, hcounter, newer, hnames, hsub⟩ := hs
  use hnumbered, hcounter, newer, hnames
  simpa only [List.append_assoc, List.cons_append, List.nil_append] using hsub

/-- The task handed over is deleted. -/
theorem OrderedWith.delete (hs : OrderedWith queue [task] remaining handed created) :
  OrderedWith (queue.delete task) [] remaining handed created
  := by
  obtain ⟨hnumbered, hcounter, newer, hnames, hsub⟩ := hs
  use hnumbered, hcounter, newer, Queue.names_delete hnames, hsub

end

/-- A step of the session in which all calls succeed keeps the order. -/
theorem Ordered.loop {load : δ → Option τ} (hload : ∀ data, (load data).isSome)
    {s t : QueueState δ τ} {action : LoopAction} (hs : Ordered s) (hstaged : Staged s)
    (hok : CallsSucceed s (.loop action)) (h : s.step load (.loop action) = some t) :
  Ordered t
  := by
  simp only [QueueState.step, Option.map_eq_some_iff] at h
  obtain ⟨l, hl, rfl⟩ := h
  have hcycle := cycleStep_of_stage hstaged.stage hl
  obtain ⟨queue, loop, booted, failed, created, attempted, handed⟩ := s
  simp only [Ordered, Loop.handedOver, Loop.deleted] at hs hcycle ⊢
  cases hcycle with
  | serve r hperm => simpa [Loop.remaining, Loop.toDelete] using hs.serve hperm
  | serveFailure r => cases hok
  | deliverChildren r w hsort =>
      simpa [Loop.remaining, Loop.toDelete, hsort] using hs
  | crash r w hsort =>
      -- the sorting never fails, but the order does not depend on it
      cases w <;> simpa [Loop.remaining, Loop.toDelete, hsort, pending] using hs
  | reject r w ok hreject =>
      obtain rfl := hok
      obtain ⟨data, hdata⟩ := Option.isSome_iff_exists.mp (Queue.get_isSome hs.mem_names)
      have hsome := hload data
      rw [← Option.bind_some data load, ← hdata, hreject rfl] at hsome
      cases hsome
  | handOver r w => simpa [Loop.remaining, Loop.toDelete] using hs.handOver
  | delete r w ok hsome =>
      obtain rfl := hok
      simpa [Loop.remaining, Loop.toDelete] using hs.delete
  | finish r w => cases w <;> simpa [Loop.remaining, Loop.toDelete, pending] using hs
  | _ => simpa [Loop.remaining, Loop.toDelete, pending] using hs

/-- Every step in which all calls succeed keeps the order. -/
theorem Ordered.step {load : δ → Option τ} (hload : ∀ data, (load data).isSome)
    {s t : QueueState δ τ} {action : QueueAction δ} (hs : Ordered s) (hstaged : Staged s)
    (hok : CallsSucceed s action) (h : s.step load action = some t) :
  Ordered t
  := by
  cases action with
  | create data =>
      simp only [QueueState.step, Option.ite_none_right_eq_some, Option.some.injEq] at h
      obtain ⟨hcounter, rfl⟩ := h
      simpa [Ordered] using OrderedWith.create hs data hcounter
  | boot =>
      simp only [QueueState.step, Option.ite_none_left_eq_some, Option.some.injEq] at h
      obtain ⟨-, rfl⟩ := h
      apply hs
  | interrupt =>
      obtain rfl := Option.some.inj h
      apply hs
  | loop action => apply hs.loop hload hstaged hok h

/-- In every reachable state the order is kept, as long as all calls succeed and all documents
are well formed. -/
theorem ordered_of_reachable {load : δ → Option τ} (hload : ∀ data, (load data).isSome)
    {s : QueueState δ τ} (h : ((queueMachine load).restrict CallsSucceed).Reachable s) :
  Ordered s
  := by
  apply Machine.Reachable.invariant _ _ h
  · rintro s ⟨hnumbered, hcounter, hloop, -, -, hcreated, -, hhanded⟩
    rw [Ordered, hloop, hcreated, hhanded]
    use hnumbered, hcounter, s.queue.names
    simp [Loop.toDelete, Loop.remaining, Loop.init]
  · intro s action t hreach hs hstep
    obtain ⟨hok, hstep'⟩ := Machine.restrict_step_iff.mp hstep
    have hstaged := staged_of_reachable (Machine.Reachable.of_restrict hreach)
    apply hs.step hload hstaged hok hstep'

/-- In every run in which all calls of ZooKeeper succeed and all documents are well formed, no
task is handed over twice, and the tasks are handed over in the order of their creation. -/
theorem handed_in_order (load : δ → Option τ) (hload : ∀ data, (load data).isSome)
    {s : QueueState δ τ} (h : ((queueMachine load).restrict CallsSucceed).Reachable s) :
  s.handed.Nodup ∧ s.handed.Sublist s.created ∧ s.created.Nodup
  := by
  obtain ⟨hnumbered, hcounter, newer, -, hsub⟩ := ordered_of_reachable hload h
  have hhanded := (List.sublist_append_left _ _).trans hsub
  have hnodup := hnumbered.nodup hcounter
  use hnodup.sublist hhanded, hhanded

/-- A run in which the first listing is in reverse order and a third task is created while the
first two are executed, so that the watch fires. -/
def twoBatches : List (QueueAction Unit) :=
  [.create (), .create (), .boot, .loop (.serve [taskName 1, taskName 0]), .loop .deliver,
    .loop (.get true), .loop .handOver, .create (), .loop (.delete true), .loop (.get true),
    .loop .handOver, .loop (.delete true), .loop .finish, .loop .deliver,
    .loop (.readValue 255), .loop (.serve [taskName 2]), .loop .deliver, .loop (.get true),
    .loop .handOver]

theorem handed_in_order_twoBatches :
  ∃ s, ((queueMachine (some : Unit → Option Unit)).restrict CallsSucceed).Reachable s ∧
    s.handed = [taskName 0, taskName 1, taskName 2] ∧
    (s.handed.Nodup ∧ s.handed.Sublist s.created ∧ s.created.Nodup)
  := by
  have hinit : ((queueMachine (some : Unit → Option Unit)).restrict CallsSucceed).Init .initial :=
    init_initial some
  have hrun : ∃ s, ((queueMachine (some : Unit → Option Unit)).restrict CallsSucceed).run .initial
      twoBatches = some s ∧ s.handed = [taskName 0, taskName 1, taskName 2] := by
    apply Exists.intro
    constructor <;> rfl
  obtain ⟨s, hs, hhanded⟩ := hrun
  have hreach := (Machine.Reachable.init hinit).run hs
  use s, hreach, hhanded
  apply handed_in_order some (fun _ => rfl) hreach

end Zuth
