import UaRateThrottling.Queue.Loop

/-!
# The stages of the cycle

At any moment a started session is in one of few stages: a fetch is on its way to ZooKeeper,
its listing is on the way back, a listing is processed or the thread idles under a watch that
is set or has fired, or the watcher waits for the service level.  `Stage` lists them, `CycleStep`
says once what a step can do in each of them, and `staged_of_reachable` that no other stage is
ever reached.
-/

namespace Zuth

open Transition

variable {δ τ : Type}

/-- What is on the way while a watch is set, respectively after it has fired. -/
def pending (watch : Bool) : List Delivery := if watch then [] else [.childEvent]

/-- The stages of a session.  While a listing is on its way or processed, or the thread idles,
the watch is set or its event is pending. -/
inductive Stage : Loop τ → Prop
  | unstarted (r : Bool) : Stage ⟨r, 0, false, [], .idle⟩
  | fetching (r : Bool) : Stage ⟨r, 1, false, [], .idle⟩
  | fetched (r w : Bool) (names : List Name) :
    Stage ⟨r, 0, w, .children names :: pending w, .idle⟩
  | watching (r w : Bool) {phase : Phase τ} (h : phase ≠ .handling) :
    Stage ⟨r, 0, w, pending w, phase⟩
  | handling (r : Bool) : Stage ⟨r, 0, false, [], .handling⟩
  | failing (r : Bool) : Stage ⟨r, 0, false, [.failure], .idle⟩

/-- What a step can do in each stage. -/
inductive CycleStep (load : δ → Option τ) (queue : Queue δ) :
    Loop τ → LoopAction → Loop τ → Prop
  | serve (r : Bool) {names : List Name} (h : names.Perm queue.names) :
    CycleStep load queue ⟨r, 1, false, [], .idle⟩ (.serve names)
      ⟨r, 0, true, .children names :: pending true, .idle⟩
  | serveFailure (r : Bool) :
    CycleStep load queue ⟨r, 1, false, [], .idle⟩ .serveFailure
      ⟨r, 0, false, [.failure], .idle⟩
  | deliverFailure (r : Bool) :
    CycleStep load queue ⟨r, 0, false, [.failure], .idle⟩ .deliver
      ⟨false, 0, false, [], .idle⟩
  | deliverChildren (r w : Bool) {names tasks : List Name} (h : sortTasks names = some tasks) :
    CycleStep load queue ⟨r, 0, w, .children names :: pending w, .idle⟩ .deliver
      ⟨r, 0, w, pending w, .processing tasks⟩
  | crash (r w : Bool) {names : List Name} (h : sortTasks names = none) :
    CycleStep load queue ⟨r, 0, w, .children names :: pending w, .idle⟩ .deliver
      ⟨r, 0, w, pending w, .crashed⟩
  | deliverEvent (r : Bool) :
    CycleStep load queue ⟨r, 0, false, pending false, .idle⟩ .deliver
      ⟨r, 0, false, [], .handling⟩
  | wait (r : Bool) {value : Int} (h : value < 200) :
    CycleStep load queue ⟨r, 0, false, [], .handling⟩ (.readValue value)
      ⟨r, 0, false, [], .handling⟩
  | fetch (r : Bool) {value : Int} (h : ¬value < 200) :
    CycleStep load queue ⟨r, 0, false, [], .handling⟩ (.readValue value)
      ⟨r, 1, false, [], .idle⟩
  | load (r w : Bool) {task : Name} {tasks : List Name} {document : τ}
      (h : (queue.get task).bind load = some document) :
    CycleStep load queue ⟨r, 0, w, pending w, .processing (task :: tasks)⟩ (.get true)
      ⟨r, 0, w, pending w, .loaded task document tasks⟩
  | reject (r w ok : Bool) {task : Name} {tasks : List Name}
      (h : ok = true → (queue.get task).bind load = none) :
    CycleStep load queue ⟨r, 0, w, pending w, .processing (task :: tasks)⟩ (.get ok)
      ⟨r, 0, w, pending w, .processing tasks⟩
  | handOver (r w : Bool) {task : Name} {tasks : List Name} {document : τ} :
    CycleStep load queue ⟨r, 0, w, pending w, .loaded task document tasks⟩ .handOver
      ⟨r, 0, w, pending w, .executed task tasks⟩
  | delete (r w ok : Bool) {task : Name} {tasks : List Name}
      (h : ok = true → (queue.get task).isSome) :
    CycleStep load queue ⟨r, 0, w, pending w, .executed task tasks⟩ (.delete ok)
      ⟨r, 0, w, pending w, .processing tasks⟩
  | finish (r w : Bool) :
    CycleStep load queue ⟨r, 0, w, pending w, .processing []⟩ .finish
      ⟨r, 0, w, pending w, .idle⟩

/-- While a listing is processed, or the thread idles under the watch, the listed steps are
all there are. -/
theorem cycleStep_of_watching {load : δ → Option τ} {queue : Queue δ} {r w : Bool}
    {phase : Phase τ} {l' : Loop τ} {action : LoopAction} (hphase : phase ≠ .handling)
    (h : Loop.step load queue ⟨r, 0, w, pending w, phase⟩ action = some l') :
  CycleStep load queue ⟨r, 0, w, pending w, phase⟩ action l'
  := by
  cases action with
  | serve names => simp [Loop.step] at h
  | serveFailure => simp [Loop.step] at h
  | deliver =>
      cases phase with
      | idle =>
          cases w with
          | true => simp [Loop.step, Loop.deliver, pending] at h
          | false =>
              obtain rfl := Option.some.inj h
              apply CycleStep.deliverEvent
      | _ => simp [Loop.step, Loop.deliver] at h
  | readValue value =>
      cases phase with
      | handling => contradiction
      | _ => simp [Loop.step] at h
  | get ok =>
      cases phase with
      | processing tasks =>
          cases tasks with
          | nil => simp [Loop.step] at h
          | cons task tasks =>
              simp only [Loop.step] at h
              split at h
              · rename_i document hdocument
                obtain rfl := Option.some.inj h
                cases ok with
                | true => apply CycleStep.load r w hdocument
                | false => cases hdocument
              · rename_i hnone
                obtain rfl := Option.some.inj h
                apply CycleStep.reject r w ok
                intro hok
                rw [if_pos hok] at hnone
                apply hnone
      | _ => simp [Loop.step] at h
  | handOver =>
      cases phase with
      | loaded task document tasks =>
          obtain rfl := Option.some.inj h
          apply CycleStep.handOver
      | _ => simp [Loop.step] at h
  | delete ok =>
      cases phase with
      | executed task tasks =>
          simp only [Loop.step, Option.ite_none_left_eq_some] at h
          obtain ⟨hok, hl'⟩ := h
          obtain rfl := Option.some.inj hl'
          apply CycleStep.delete r w ok
          intro ht
          rw [← Option.not_isNone]
          simpa [ht, Option.isSome_iff_ne_none] using hok
      | _ => simp [Loop.step] at h
  | finish =>
      cases phase with
      | processing tasks =>
          cases tasks with
          | nil =>
              obtain rfl := Option.some.inj h
              apply CycleStep.finish
          | cons task tasks => simp [Loop.step] at h
      | _ => simp [Loop.step] at h

/-- In a stage of the cycle the listed steps are all there are. -/
theorem cycleStep_of_stage {load : δ → Option τ} {queue : Queue δ} {l l' : Loop τ}
    {action : LoopAction} (hl : Stage l) (h : l.step load queue action = some l') :
  CycleStep load queue l action l'
  := by
  cases hl with
  | unstarted r => cases action <;> simp [Loop.step, Loop.deliver] at h
  | fetching r =>
      cases action with
      | serve names =>
          simp only [Loop.step, List.isPerm_iff, Option.ite_none_right_eq_some] at h
          obtain ⟨⟨-, hperm⟩, hl'⟩ := h
          obtain rfl := Option.some.inj hl'
          apply CycleStep.serve r hperm
      | serveFailure =>
          obtain rfl := Option.some.inj h
          apply CycleStep.serveFailure
      | _ => simp [Loop.step, Loop.deliver] at h
  | fetched r w names =>
      cases action with
      | deliver =>
          simp only [Loop.step, Loop.deliver] at h
          split at h
          · rename_i tasks hsort
            obtain rfl := Option.some.inj h
            apply CycleStep.deliverChildren r w hsort
          · rename_i hsort
            obtain rfl := Option.some.inj h
            apply CycleStep.crash r w hsort
      | _ => simp [Loop.step] at h
  | watching r w hphase => apply cycleStep_of_watching hphase h
  | handling r =>
      cases action with
      | readValue value =>
          by_cases hv : value < 200
          · simp only [Loop.step, hv, if_true, Option.some.injEq] at h
            obtain rfl := h
            apply CycleStep.wait r hv
          · simp only [Loop.step, hv, if_false, Option.some.injEq] at h
            obtain rfl := h
            apply CycleStep.fetch r hv
      | _ => simp [Loop.step, Loop.deliver] at h
  | failing r =>
      cases action with
      | deliver =>
          obtain rfl := Option.some.inj h
          apply CycleStep.deliverFailure
      | _ => simp [Loop.step] at h

/-- A step of the cycle leads to a stage of the cycle. -/
theorem CycleStep.stage {load : δ → Option τ} {queue : Queue δ} {l l' : Loop τ}
    {action : LoopAction} (h : CycleStep load queue l action l') :
  Stage l'
  := by
  cases h with
  | serve r h => apply Stage.fetched
  | serveFailure r => apply Stage.failing
  | deliverFailure r => apply Stage.unstarted
  | deliverEvent r => apply Stage.handling
  | wait r h => apply Stage.handling
  | fetch r h => apply Stage.fetching
  | _ =>
      apply Stage.watching
      simp

/-- A firing watch leads from a stage of the cycle to a stage of the cycle. -/
theorem Stage.notify {l : Loop τ} (h : Stage l) :
  Stage l.notify
  := by
  cases h with
  | unstarted r => apply Stage.unstarted
  | fetching r => apply Stage.fetching
  | fetched r w names =>
      cases w with
      | true => apply Stage.fetched r false
      | false => apply Stage.fetched r false
  | watching r w hphase =>
      cases w with
      | true => apply Stage.watching r false hphase
      | false => apply Stage.watching r false hphase
  | handling r => apply Stage.handling
  | failing r => apply Stage.failing

/-- A session is in a stage of the cycle, interrupted or not. -/
theorem Stage.interrupt {l : Loop τ} (h : Stage l) :
  Stage { l with running := false }
  := by
  cases h with
  | unstarted r => apply Stage.unstarted
  | fetching r => apply Stage.fetching
  | fetched r w names => apply Stage.fetched
  | watching r w hphase => apply Stage.watching false w hphase
  | handling r => apply Stage.handling
  | failing r => apply Stage.failing

/-- What holds of the session of a server in every reachable state: it is in a stage of the
cycle, and before the first fetch nothing happens in it. -/
structure Staged (s : QueueState δ τ) : Prop where
  stage : Stage s.loop
  unstarted : s.booted = false → ∃ r, s.loop = ⟨r, 0, false, [], .idle⟩

/-- The session makes no step before the first fetch. -/
theorem Staged.booted_of_loopStep {load : δ → Option τ} {s : QueueState δ τ} (hs : Staged s)
    {action : LoopAction} {l : Loop τ} (h : s.loop.step load s.queue action = some l) :
  s.booted = true
  := by
  by_contra hnot
  obtain ⟨r, hr⟩ := hs.unstarted (Bool.eq_false_of_not_eq_true hnot)
  rw [hr] at h
  cases action <;> simp [Loop.step, Loop.deliver] at h

/-- A firing watch keeps the session in a stage of the cycle. -/
theorem Staged.notify {s t : QueueState δ τ} (hs : Staged s) (hbooted : t.booted = s.booted)
    (hloop : t.loop = s.loop.notify) :
  Staged t
  := by
  constructor
  · rw [hloop]
    apply hs.stage.notify
  · intro hb
    rw [hbooted] at hb
    obtain ⟨r, hr⟩ := hs.unstarted hb
    use r
    simp [hloop, hr, Loop.notify]

/-- Every step keeps the session in a stage of the cycle. -/
theorem Staged.step {load : δ → Option τ} {s t : QueueState δ τ} {action : QueueAction δ}
    (hs : Staged s) (h : s.step load action = some t) :
  Staged t
  := by
  cases action with
  | create data =>
      simp only [QueueState.step, Option.ite_none_right_eq_some, Option.some.injEq] at h
      obtain ⟨-, rfl⟩ := h
      exact hs.notify rfl rfl
  | boot =>
      simp only [QueueState.step, Option.ite_none_left_eq_some, Option.some.injEq] at h
      obtain ⟨hb, rfl⟩ := h
      obtain ⟨r, hr⟩ := hs.unstarted (by simpa using hb)
      constructor
      · simp only [hr, Loop.fetch]
        apply Stage.fetching
      · simp
  | interrupt =>
      obtain rfl := Option.some.inj h
      constructor
      · apply hs.stage.interrupt
      · intro hb
        obtain ⟨r, hr⟩ := hs.unstarted hb
        use false
        simp [hr]
  | loop action =>
      simp only [QueueState.step, Option.map_eq_some_iff] at h
      obtain ⟨l, hl, rfl⟩ := h
      have hcycle := cycleStep_of_stage hs.stage hl
      constructor
      · simp only
        split
        · apply hcycle.stage.notify
        · apply hcycle.stage
      · intro hb
        rw [hs.booted_of_loopStep hl] at hb
        cases hb

/-- In every reachable state the session is in a stage of the cycle. -/
theorem staged_of_reachable {load : δ → Option τ} {s : QueueState δ τ}
    (h : (queueMachine load).Reachable s) :
  Staged s
  := by
  apply Machine.Reachable.invariant _ _ h
  · rintro s ⟨-, -, hloop, -⟩
    constructor
    · rw [hloop]
      apply Stage.unstarted
    · intro _
      use true, hloop
  · intro s a t _ hs ha
    apply hs.step ha

/-! ### The names of the tasks -/

/-- The name made at the counter comes after the names made before. -/
theorem Numbered.append {counter : Nat} {names : List Name} (h : Numbered counter names) :
  Numbered (counter + 1) (names ++ [taskName counter])
  := by
  obtain ⟨numbers, rfl, hpairwise, hlt⟩ := h
  use numbers ++ [counter]
  constructor
  · simp
  · constructor
    · rw [List.pairwise_append]
      use hpairwise, List.pairwise_singleton _ _
      simpa using hlt
    · intro n hn
      rcases List.mem_append.mp hn with hn | hn
      · have := hlt n hn
        omega
      · rw [List.mem_singleton] at hn
        omega

/-- Names left out leave the others in order. -/
theorem Numbered.sublist {counter : Nat} {names names' : List Name} (h : Numbered counter names)
    (hsub : names'.Sublist names) :
  Numbered counter names'
  := by
  obtain ⟨numbers, rfl, hpairwise, hlt⟩ := h
  obtain ⟨numbers', hnumbers, rfl⟩ := List.sublist_map_iff.mp hsub
  use numbers', rfl, hpairwise.sublist hnumbers
  intro n hn
  apply hlt n (hnumbers.subset hn)

/-- The names made at the counter have their numbers read back. -/
theorem Numbered.taskNumber_isSome {counter : Nat} {names : List Name}
    (h : Numbered counter names) (hcounter : counter ≤ counterLimit) {task : Name}
    (ht : task ∈ names) :
  (taskNumber task).isSome
  := by
  obtain ⟨numbers, rfl, -, hlt⟩ := h
  obtain ⟨n, hn, rfl⟩ := List.mem_map.mp ht
  have := hlt n hn
  rw [taskNumber_taskName (by simp only [counterLimit] at hcounter; omega)]
  rfl

/-- The numbers of the names made at the counter increase. -/
theorem Numbered.pairwise_taskNumber {counter : Nat} {names : List Name}
    (h : Numbered counter names) (hcounter : counter ≤ counterLimit) :
  names.Pairwise (fun a b => (taskNumber a).getD 0 < (taskNumber b).getD 0)
  := by
  obtain ⟨numbers, rfl, hpairwise, hlt⟩ := h
  rw [List.pairwise_map]
  apply hpairwise.imp_of_mem
  intro m n hm hn hmn
  have hm' := hlt m hm
  have hn' := hlt n hn
  simp only [counterLimit] at hcounter
  rw [taskNumber_taskName (by omega), taskNumber_taskName (by omega)]
  simpa using hmn

/-- No two tasks have one name. -/
theorem Numbered.nodup {counter : Nat} {names : List Name} (h : Numbered counter names)
    (hcounter : counter ≤ counterLimit) :
  names.Nodup
  := by
  apply (h.pairwise_taskNumber hcounter).imp
  intro a b hab heq
  rw [heq] at hab
  omega

/-- The server sorts a listing of the tasks into the order of their creation. -/
theorem Numbered.sortTasks_eq {counter : Nat} {names sorted : List Name}
    (h : Numbered counter sorted) (hcounter : counter ≤ counterLimit)
    (hperm : names.Perm sorted) :
  sortTasks names = some sorted
  := by
  apply Zuth.sortTasks_eq hperm
  · intro task ht
    apply h.taskNumber_isSome hcounter ht
  · apply h.pairwise_taskNumber hcounter

end Zuth
