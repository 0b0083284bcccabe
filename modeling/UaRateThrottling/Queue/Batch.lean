import UaRateThrottling.Queue.Execution
import UaRateThrottling.Queue.TaskOrder
import UaRateThrottling.Channel.Created
import UaRateThrottling.Channel.Envelope
import Mathlib.Algebra.Order.BigOperators.Group.List
import Mathlib.Algebra.Order.Group.Nat

/-!
# A batch of tasks

Anybody may put nodes into the queue, so that a listing has any names and the nodes hold any bytes.
`processTasks` sorts the names and executes them one after the other, and what it calls on the way
is given what it has read.

`runsThrough_iff` says for which batches every task is executed and deleted.  A node that is no task
ends the process, or is left where it is, to be listed again the next time.
-/

universe u

namespace Batch

open UA Zuth

/-- The value of a member of a document, as far as it is read. -/
inductive JsonValue where
  | integer (i : Int)
  | string (s : List UInt8)
  | other
deriving DecidableEq

/-- What `zuth_processTasks` uses that is not its own: `json_loads` and `json_object_get`, which is
null also when the root is no object, `g_base64_decode`, `zoo_get`, which may fail, `zoo_delete`,
and the services of the server. -/
structure Environment (Document : Type) (σ : Type u) where
  jsonLoads : List UInt8 → Option Document
  jsonObjectGet : Document → List UInt8 → Option JsonValue
  base64Decode : List UInt8 → List UInt8
  zooGet : List UInt8 → Option (List UInt8)
  zooDelete : List UInt8 → Int
  services : Services σ

/-- A string in a document is no longer than the text of the document, and no more bytes are decoded
than there are symbols. -/
structure Environment.Documented {Document : Type} {σ : Type u} (env : Environment Document σ) :
    Prop where
  length_string : ∀ {text : List UInt8} {jsonRoot : Document} {key s : List UInt8},
    env.jsonLoads text = some jsonRoot →
      env.jsonObjectGet jsonRoot key = some (.string s) → s.length ≤ text.length
  length_decode : ∀ symbols, (env.base64Decode symbols).length ≤ symbols.length

/-! ### Reading a task -/

/-- The buffer a task is read into, which is full of zeros.  When the read fails it stays so. -/
def taskBuffer : Option (List UInt8) → List UInt8
  | none => List.replicate bufferLength 0
  | some data => data.take bufferLength ++ List.replicate (bufferLength - data.length) 0

/-- `json_integer_value`, which is zero when there is no integer. -/
def jsonIntegerValue : Option JsonValue → Int
  | some (.integer i) => i
  | _ => 0

/-- `json_string_value`, which is null when there is no string. -/
def jsonStringValue : JsonValue → Option (List UInt8)
  | .string s => some s
  | _ => none

section

variable {Document : Type} {σ : Type u} (env : Environment Document σ)

/-- The part of `zuth_executeRequest` before the channel is looked up: the id of the channel and the
chunk.  It gives up when there is no document or no `dst`.  The `offset` of the document is
overwritten by the decoder, and the request id is not used. -/
def readTask (stringRequest : List UInt8) : Except Fault (Option (UInt32 × List UInt8)) :=
  let buffer := taskBuffer (env.zooGet stringRequest)
  if 0 ∉ buffer then .error .overread
  else
    match env.jsonLoads (buffer.takeWhile (· ≠ 0)) with
    | none => .ok none
    | some jsonRoot =>
      match env.jsonObjectGet jsonRoot (ascii "dst") with
      | none => .ok none
      | some jString =>
        match jsonStringValue jString with
        | none => .error .nullBase64
        | some conv =>
          .ok (some (UInt32.ofInt
            (jsonIntegerValue (env.jsonObjectGet jsonRoot (ascii "channelId"))),
            env.base64Decode conv))

/-- The execution of a task begins: its channel is there, and nothing has gone wrong. -/
def begin (server : UaServer σ) : Execution σ := ⟨server, false, none⟩

/-- The server when the loop over the chunk has ended: the channel is what it has become, unless it
has been freed. -/
def Execution.finish (e : Execution σ) (channelId : UInt32) (channel : SecureChannel) :
    UaServer σ :=
  if e.freed then e.server
  else { e.server with
    secureChannelManager := e.server.secureChannelManager.update
      (SecureChannelManager.hasId channelId) (fun _ => channel) }

/-- `zuth_executeRequest`: what becomes of the server, and whether the task is deleted. -/
def executeRequest (fuel : Nat) (stringRequest : List UInt8) (server : UaServer σ) :
    Except Fault (UaServer σ × Bool) :=
  match readTask env stringRequest with
  | .error fault => .error fault
  | .ok none => .ok (server, false)
  | .ok (some (channelId, dst)) =>
    match server.secureChannelManager.get channelId with
    | none => .error .nullChannel
    | some channel =>
      match executeChunk env.services dst fuel 0 (begin server) channel with
      | .error fault => .error fault
      | .ok (e, channel) => .ok (e.finish channelId channel, env.zooDelete stringRequest = ZOK)

/-! ### A batch -/

/-- The buffers of `taskIdCmp` hold what follows `task-` in a name, with its terminator. -/
def FitsBuffer (tId : Name) : Prop :=
  ∀ taskId, extractTaskId tId = some taskId → taskId.length < bufferLength

instance (tId : Name) : Decidable (FitsBuffer tId) :=
  match h : extractTaskId tId with
  | none => .isTrue (by
      intro taskId htaskId
      rw [h] at htaskId
      cases htaskId)
  | some taskId =>
    if hlt : taskId.length < bufferLength then .isTrue (by
      intro taskId' htaskId
      rw [h] at htaskId
      obtain rfl := Option.some.inj htaskId
      exact hlt)
    else .isFalse (fun hfits => hlt (hfits taskId h))

/-- The call of `qsort`.  From two names on, every name is compared with some other. -/
def sortBatch (names : List Name) : Except Fault (List Name) :=
  match sortTasks names with
  | none => .error .nullString
  | some tasks =>
    if 2 ≤ names.length ∧ ∃ tId ∈ names, ¬FitsBuffer tId then .error .overflow else .ok tasks

/-- The path of a child of the queue. -/
def childPath (queuePath : List UInt8) (tId : Name) : List UInt8 := queuePath ++ 47 :: tId

/-- The path of a child as `zuth_processTasks` prints it. -/
def pathToTask (queuePath : List UInt8) (tId : Name) : List UInt8 :=
  snprintf bufferLength (childPath queuePath tId)

/-- The loop of `zuth_processTasks`: what becomes of the server, the paths of the tasks executed,
and whether they are deleted. -/
def executeTasks (fuel : Nat) (queuePath : List UInt8) :
    List Name → UaServer σ → Except Fault (UaServer σ × List (List UInt8 × Bool))
  | [], server => .ok (server, [])
  | tId :: tasks, server =>
    match executeRequest env fuel (pathToTask queuePath tId) server with
    | .error fault => .error fault
    | .ok (server, deleted) =>
      match executeTasks fuel queuePath tasks server with
      | .error fault => .error fault
      | .ok (server, executed) => .ok (server, (pathToTask queuePath tId, deleted) :: executed)

/-- `zuth_processTasks` on the children listed. -/
def processTasks (fuel : Nat) (queuePath : List UInt8) (names : List Name) (server : UaServer σ) :
    Except Fault (UaServer σ × List (List UInt8 × Bool)) :=
  match sortBatch names with
  | .error fault => .error fault
  | .ok tasks => executeTasks env fuel queuePath tasks server

/-- The batch is gone through to its end, every child is attempted once, and those attempted are
deleted. -/
def RunsThrough (queuePath : List UInt8) (names : List Name) (server : UaServer σ) : Prop :=
  ∃ fuel server' executed, processTasks env fuel queuePath names server = .ok (server', executed) ∧
    executed.Perm (names.map (fun tId => (childPath queuePath tId, true)))

/-- A node holds a task of the given channel with the given chunk: a document that ends in the
buffer, with the chunk in base64. -/
structure HoldsTask (path : List UInt8) (channelId : UInt32) (dst : List UInt8) : Prop where
  terminated : 0 ∈ taskBuffer (env.zooGet path)
  document : ∃ jsonRoot conv,
    env.jsonLoads ((taskBuffer (env.zooGet path)).takeWhile (· ≠ 0)) = some jsonRoot ∧
      env.jsonObjectGet jsonRoot (ascii "dst") = some (.string conv) ∧
        channelId =
          UInt32.ofInt (jsonIntegerValue (env.jsonObjectGet jsonRoot (ascii "channelId"))) ∧
          dst = env.base64Decode conv

/-- A node can be executed and deleted: it holds a task of a channel of the server, the loop over
whose chunk comes neither to an empty OPN nor to a place where something goes wrong, and the
deletion succeeds. -/
def Executable (path : List UInt8) (server : UaServer σ) : Prop :=
  env.zooDelete path = ZOK ∧ ∃ channelId dst channel, HoldsTask env path channelId dst ∧
    server.secureChannelManager.get channelId = some channel ∧
      ∀ offset e channel',
        SecureChannel.Comes (processSecureChannelMessage env.services) dst 0 (begin server) channel
          offset e channel' →
        ¬SecureChannel.EmptyOpnAt dst offset channel' ∧ SafeAt dst offset e channel'

/-- The children can be executed and deleted one after the other. -/
def AllExecutable (queuePath : List UInt8) : List Name → UaServer σ → Prop
  | [], _ => True
  | tId :: tasks, server =>
    Executable env (childPath queuePath tId) server ∧
      ∀ fuel server', executeRequest env fuel (childPath queuePath tId) server =
        .ok (server', true) → AllExecutable queuePath tasks server'

/-- The names can be sorted and printed: two or more of them contain `task-`, and no buffer is too
small for them. -/
structure Printable (queuePath : List UInt8) (names : List Name) : Prop where
  numbered : 2 ≤ names.length → ∀ tId ∈ names, (taskNumber tId).isSome ∧ FitsBuffer tId
  fits : ∀ tId ∈ names, (childPath queuePath tId).length < bufferLength

/-! ### Sorting and printing -/

theorem sortBatch_eq_ok_iff {names tasks : List Name} :
  sortBatch names = .ok tasks ↔
    sortTasks names = some tasks ∧ (2 ≤ names.length → ∀ tId ∈ names, FitsBuffer tId)
  := by
  rw [sortBatch]
  cases hsort : sortTasks names with
  | none => simp
  | some tasks' =>
      by_cases hoverflow : 2 ≤ names.length ∧ ∃ tId ∈ names, ¬FitsBuffer tId
      · dsimp only
        rw [if_pos hoverflow]
        constructor
        · intro h
          cases h
        · rintro ⟨-, hfits⟩
          obtain ⟨tId, hmem, hnot⟩ := hoverflow.2
          cases hnot (hfits hoverflow.1 tId hmem)
      · dsimp only
        rw [if_neg hoverflow, Except.ok.injEq, Option.some.injEq]
        constructor
        · intro h
          use h
          intro hlength tId hmem
          by_contra hnot
          apply hoverflow ⟨hlength, tId, hmem, hnot⟩
        · apply And.left

/-- The names can be sorted exactly when there are fewer than two, or all have numbers that fit the
buffers. -/
theorem exists_sortBatch_iff {names : List Name} :
  (∃ tasks, sortBatch names = .ok tasks) ↔
    (2 ≤ names.length → ∀ tId ∈ names, (taskNumber tId).isSome ∧ FitsBuffer tId)
  := by
  have hsort : (∃ tasks, sortTasks names = some tasks) ↔
      (2 ≤ names.length → ∀ tId ∈ names, (taskNumber tId).isSome) := by
    constructor
    · rintro ⟨tasks, h⟩ hlength tId hmem
      rw [sortTasks, Option.ite_none_left_eq_some] at h
      by_contra hnone
      apply h.1 ⟨hlength, List.any_eq_true.mpr ⟨tId, hmem, _⟩⟩
      rw [Option.isNone_iff_eq_none]
      apply Option.not_isSome_iff_eq_none.mp hnone
    · intro h
      rw [sortTasks, if_neg]
      · exact ⟨_, rfl⟩
      · rintro ⟨hlength, hany⟩
        obtain ⟨tId, hmem, hnone⟩ := List.any_eq_true.mp hany
        rw [← Option.not_isSome, h hlength tId hmem] at hnone
        cases hnone
  simp only [sortBatch_eq_ok_iff, exists_and_right, hsort]
  grind

/-- Paths that are cut off are shorter than those they are cut off from. -/
theorem not_perm_of_cut {queuePath : List UInt8} {names tasks : List Name}
    (hperm : tasks.Perm names)
    (h : (tasks.map (pathToTask queuePath)).Perm (names.map (childPath queuePath))) :
  ∀ tId ∈ names, (childPath queuePath tId).length < bufferLength
  := by
  by_contra hcut
  push Not at hcut
  obtain ⟨tId, hmem, hlong⟩ := hcut
  have hle : ∀ tId ∈ names,
      (pathToTask queuePath tId).length ≤ (childPath queuePath tId).length := by
    intro tId _
    rw [pathToTask, snprintf, List.length_take]
    apply Nat.min_le_right
  have hlt : (pathToTask queuePath tId).length < (childPath queuePath tId).length := by
    rw [pathToTask, snprintf, List.length_take]
    have : 0 < bufferLength := by decide
    omega
  have hsum := (((hperm.map (pathToTask queuePath)).symm.trans h).map List.length).sum_nat
  rw [List.map_map, List.map_map] at hsum
  have := List.sum_lt_sum (l := names) _ _ hle ⟨tId, hmem, hlt⟩
  simp only [Function.comp_def] at hsum
  omega

/-! ### Executing a task -/

theorem readTask_eq_ok_iff {path : List UInt8} {channelId : UInt32} {dst : List UInt8} :
  readTask env path = .ok (some (channelId, dst)) ↔ HoldsTask env path channelId dst
  := by
  constructor
  · intro h
    simp only [readTask] at h
    split at h
    · cases h
    · rename_i hterminated
      split at h
      · cases h
      · rename_i jsonRoot hloads
        split at h
        · cases h
        · rename_i jString hdst
          split at h
          · cases h
          · rename_i conv hconv
            simp only [Except.ok.injEq, Option.some.injEq, Prod.mk.injEq] at h
            use not_not.mp hterminated
            cases jString with
            | string s =>
                obtain rfl := Option.some.inj hconv
                exact ⟨jsonRoot, _, hloads, hdst, h.1.symm, h.2.symm⟩
            | integer i => cases hconv
            | other => cases hconv
  · rintro ⟨hterminated, jsonRoot, conv, hloads, hdst, rfl, rfl⟩
    simp only [readTask, hterminated, not_true_eq_false, if_false, hloads, hdst, jsonStringValue]

theorem length_taskBuffer (data : Option (List UInt8)) :
  (taskBuffer data).length = bufferLength
  := by
  cases data with
  | none => rw [taskBuffer, List.length_replicate]
  | some data =>
      rw [taskBuffer, List.length_append, List.length_take, List.length_replicate]
      omega

/-- A chunk is no longer than the buffer its document was read into, so that it is not too long for
the loop over it. -/
theorem HoldsTask.length_lt {env : Environment Document σ} (hdoc : env.Documented)
    {path : List UInt8} {channelId : UInt32} {dst : List UInt8}
    (h : HoldsTask env path channelId dst) :
  dst.length < 2 ^ 63
  := by
  obtain ⟨jsonRoot, conv, hloads, hdst, -, rfl⟩ := h.document
  have hstring := hdoc.length_string hloads hdst
  have hdecode := hdoc.length_decode conv
  have htext := (List.takeWhile_sublist (fun c : UInt8 => decide (c ≠ 0))
    (l := taskBuffer (env.zooGet path))).length_le
  rw [length_taskBuffer, bufferLength] at htext
  omega

/-- A task is executed and deleted exactly when its node can be. -/
theorem executes_iff {env : Environment Document σ} (hdoc : env.Documented) {path : List UInt8}
    {server : UaServer σ} :
  (∃ fuel server', executeRequest env fuel path server = .ok (server', true)) ↔
    Executable env path server
  := by
  constructor
  · rintro ⟨fuel, server', h⟩
    rw [executeRequest] at h
    split at h
    · cases h
    · cases h
    · rename_i channelId dst hread
      split at h
      · cases h
      · rename_i channel hchannel
        split at h
        · cases h
        · rename_i e channel' hexecute
          simp only [Except.ok.injEq, Prod.mk.injEq, decide_eq_true_eq] at h
          have hholds := (readTask_eq_ok_iff env).mp hread
          have hlength := hholds.length_lt hdoc
          use h.2, channelId, dst, channel, hholds, hchannel
          apply (executeChunk_iff hlength rfl channel).mp ⟨fuel, (e, channel'), hexecute⟩
  · rintro ⟨hdelete, channelId, dst, channel, hholds, hchannel, hsafe⟩
    have hlength := hholds.length_lt hdoc
    obtain ⟨fuel, ⟨e, channel'⟩, hexecute⟩ := (executeChunk_iff hlength rfl channel).mpr hsafe
    use fuel, e.finish channelId channel'
    rw [executeRequest, (readTask_eq_ok_iff env).mpr hholds]
    simp only [hchannel, hexecute, hdelete, decide_true]

/-- More fuel does not change what becomes of a task. -/
theorem executeRequest_mono {fuel fuel' : Nat} (hle : fuel ≤ fuel') {path : List UInt8}
    {server : UaServer σ} {outcome : UaServer σ × Bool}
    (h : executeRequest env fuel path server = .ok outcome) :
  executeRequest env fuel' path server = .ok outcome
  := by
  rw [executeRequest] at h ⊢
  split at h
  · cases h
  · exact h
  · rename_i channelId dst hread
    split at h
    · cases h
    · rename_i channel hchannel
      split at h
      · cases h
      · rename_i e channel' hexecute
        rw [executeChunk_mono hle rfl hexecute]
        exact h

/-- A node without a document or without `dst` is left where it is. -/
theorem executeRequest_of_none {path : List UInt8} (h : readTask env path = .ok none) (fuel : Nat)
    (server : UaServer σ) :
  executeRequest env fuel path server = .ok (server, false)
  := by
  rw [executeRequest, h]

theorem executeRequest_of_error {path : List UInt8} {fault : Fault}
    (h : readTask env path = .error fault) (fuel : Nat) (server : UaServer σ) :
  executeRequest env fuel path server = .error fault
  := by
  rw [executeRequest, h]

/-- A task of a channel the server does not have ends the process. -/
theorem executeRequest_of_noChannel {path : List UInt8} {channelId : UInt32} {dst : List UInt8}
    (h : readTask env path = .ok (some (channelId, dst))) {server : UaServer σ}
    (hchannel : server.secureChannelManager.get channelId = none) (fuel : Nat) :
  executeRequest env fuel path server = .error .nullChannel
  := by
  rw [executeRequest, h]
  simp only [hchannel]

/-! ### Executing a batch -/

/-- A batch of one task. -/
theorem processTasks_singleton {queuePath : List UInt8} {tId : Name} (fuel : Nat)
    (server : UaServer σ) :
  processTasks env fuel queuePath [tId] server =
    (executeRequest env fuel (pathToTask queuePath tId) server).map
      (fun outcome => (outcome.1, [(pathToTask queuePath tId, outcome.2)]))
  := by
  have hsort : sortBatch [tId] = .ok [tId] := rfl
  rw [processTasks, hsort]
  simp only [executeTasks]
  cases executeRequest env fuel (pathToTask queuePath tId) server with
  | error fault => rfl
  | ok outcome => rfl

theorem executeTasks_mono {fuel fuel' : Nat} (hle : fuel ≤ fuel') {queuePath : List UInt8}
    {tasks : List Name} {server : UaServer σ} {outcome : UaServer σ × List (List UInt8 × Bool)}
    (h : executeTasks env fuel queuePath tasks server = .ok outcome) :
  executeTasks env fuel' queuePath tasks server = .ok outcome
  := by
  induction tasks generalizing server outcome with
  | nil => exact h
  | cons tId tasks ih =>
      rw [executeTasks] at h ⊢
      split at h
      · cases h
      · rename_i server' deleted hexecute
        split at h
        · cases h
        · rename_i server'' executed hrest
          rw [executeRequest_mono env hle hexecute]
          simp only [ih hrest]
          exact h

/-- The tasks executed are those given, one after the other. -/
theorem paths_executeTasks {fuel : Nat} {queuePath : List UInt8} {tasks : List Name}
    {server server' : UaServer σ} {executed : List (List UInt8 × Bool)}
    (h : executeTasks env fuel queuePath tasks server = .ok (server', executed)) :
  executed.map Prod.fst = tasks.map (pathToTask queuePath)
  := by
  induction tasks generalizing server executed with
  | nil =>
      simp only [executeTasks, Except.ok.injEq, Prod.mk.injEq] at h
      rw [← h.2]
      rfl
  | cons tId tasks ih =>
      rw [executeTasks] at h
      split at h
      · cases h
      · split at h
        · cases h
        · rename_i hrest
          simp only [Except.ok.injEq, Prod.mk.injEq] at h
          rw [← h.2, List.map_cons, List.map_cons, ih (h.1 ▸ hrest)]

/-- All tasks are executed and deleted exactly when their nodes can be, one after the other. -/
theorem executesAll_iff {env : Environment Document σ} (hdoc : env.Documented)
    {queuePath : List UInt8} {tasks : List Name} {server : UaServer σ}
    (hfits : ∀ tId ∈ tasks, (childPath queuePath tId).length < bufferLength) :
  (∃ fuel server' executed, executeTasks env fuel queuePath tasks server = .ok (server', executed) ∧
      ∀ task ∈ executed, task.2 = true) ↔
    AllExecutable env queuePath tasks server
  := by
  induction tasks generalizing server with
  | nil =>
      constructor
      · intro _
        trivial
      · intro _
        exact ⟨0, server, [], rfl, by simp⟩
  | cons tId tasks ih =>
      have hpath : pathToTask queuePath tId = childPath queuePath tId :=
        snprintf_of_lt (hfits tId List.mem_cons_self)
      have ih' := fun server => @ih server (fun tId' h => hfits tId' (List.mem_cons_of_mem tId h))
      rw [AllExecutable, ← executes_iff hdoc]
      constructor
      · rintro ⟨fuel, server', executed, hexecute, hdeleted⟩
        rw [executeTasks, hpath] at hexecute
        split at hexecute
        · cases hexecute
        · rename_i server₁ deleted hfirst
          split at hexecute
          · cases hexecute
          · rename_i server₂ rest hrest
            simp only [Except.ok.injEq, Prod.mk.injEq] at hexecute
            obtain ⟨rfl, rfl⟩ := hexecute
            have htrue : deleted = true := hdeleted _ List.mem_cons_self
            rw [htrue] at hfirst
            use ⟨fuel, server₁, hfirst⟩
            intro fuel' server₁' hfirst'
            -- the outcome does not depend on the fuel
            have hmax := executeRequest_mono env (Nat.le_max_left fuel fuel') hfirst
            rw [executeRequest_mono env (Nat.le_max_right fuel fuel') hfirst'] at hmax
            obtain ⟨rfl, -⟩ := Prod.mk.inj (Except.ok.inj hmax)
            apply (ih' _).mp
            exact ⟨fuel, _, rest, hrest, fun task h => hdeleted task (List.mem_cons_of_mem _ h)⟩
      · rintro ⟨⟨fuel, server₁, hfirst⟩, hrest⟩
        obtain ⟨fuel', server₂, executed, hrest, hdeleted⟩ :=
          (ih' _).mpr (hrest fuel server₁ hfirst)
        use max fuel fuel', server₂, (childPath queuePath tId, true) :: executed
        rw [executeTasks, hpath, executeRequest_mono env (Nat.le_max_left _ _) hfirst]
        simp only [executeTasks_mono env (Nat.le_max_right _ _) hrest]
        use trivial
        intro task h
        rcases List.mem_cons.mp h with rfl | h
        · rfl
        · apply hdeleted task h

end

/-! ### A queue to read from -/

/-- The value of a member read by the JSON library documents are written with. -/
def JsonValue.ofValue : Json.Value → JsonValue
  | .integer n => .integer n
  | .string s => .string s

/-- A queue with the given nodes, read with the libraries documents are written with.  The services
keep the messages they get. -/
def referenceEnvironment (nodes : List (List UInt8 × List UInt8)) :
    Environment Json.Object (List Received) where
  jsonLoads := Json.load
  jsonObjectGet := fun jsonRoot key => (Json.get jsonRoot key).map JsonValue.ofValue
  base64Decode := referenceLibraries.base64Decode
  zooGet := fun path => nodes.lookup path
  zooDelete := fun path => if (nodes.lookup path).isSome then ZOK else -101
  services := {
    processOPN := fun server _ channel message =>
      ({ server with
        application := server.application ++ [.message MessageType.opn 0 message] }, some channel)
    processMSG := fun server channel requestId message =>
      ({ server with
        application := server.application ++ [.message MessageType.msg requestId message] },
        channel)
    removeSessionPointers := fun _ application => application }

theorem documented_referenceEnvironment (nodes : List (List UInt8 × List UInt8)) :
  (referenceEnvironment nodes).Documented
  := by
  constructor
  · intro text jsonRoot key s hloads hget
    obtain ⟨v, hv, hs⟩ := Option.map_eq_some_iff.mp hget
    cases v with
    | integer n => cases hs
    | string s' =>
        obtain rfl := JsonValue.string.inj hs
        apply Json.length_le_of_load hloads hv
  · intro symbols
    change ((Base64.decode symbols).getD []).length ≤ symbols.length
    cases hdecode : Base64.decode symbols with
    | none => apply Nat.zero_le
    | some bytes => apply Base64.length_decode_le hdecode

/-- A server with one channel, on which the client has used one sequence number. -/
def oneChannel : UaServer (List Received) where
  secureChannelManager := {
    channels := [{ SecureChannel.init with
      securityToken := ⟨1, 1, 0, 3600000⟩
      connection := some ⟨5, .standard, .standard⟩
      receiveSequenceNumber := 1 }]
    lastChannelId := 2
    lastTokenId := 2
    currentChannelCount := 1
    config := .standard }
  attached := [(5, 1)]
  application := []

/-- The path of a queue. -/
def queue : List UInt8 := ascii "/queue"

/-- The queue with one task, whose node holds the given bytes. -/
def oneNode (data : List UInt8) : Environment Json.Object (List Received) :=
  referenceEnvironment [(childPath queue (taskName 0), data)]

/-- What a client stores that sends a request on the channel. -/
def storedRequest (sequenceNumber : UInt32) : List UInt8 :=
  taskData referenceLibraries (chunkTask { SecureChannel.init with
    securityToken := ⟨1, 1, 0, 3600000⟩ } sequenceNumber (MessageType.msg + ChunkType.final)
      sequenceNumber (NodeId.encodeNumeric 0 631))

/-- What somebody stores who puts a CLO message and a request into one task. -/
def storedClose : List UInt8 :=
  let client : SecureChannel := { SecureChannel.init with securityToken := ⟨1, 1, 0, 3600000⟩ }
  let close := (chunkTask client 2 (MessageType.clo + ChunkType.final) 2
    (NodeId.encodeNumeric 0 452)).dst
  let request := (chunkTask client 3 (MessageType.msg + ChunkType.final) 3
    (NodeId.encodeNumeric 0 631)).dst
  taskData referenceLibraries ⟨1, 3, close ++ request, (close ++ request).length⟩

/-- The queue with two requests. -/
def twoRequests : Environment Json.Object (List Received) :=
  referenceEnvironment [(childPath queue (taskName 0), storedRequest 2),
    (childPath queue (taskName 1), storedRequest 3)]

end Batch
