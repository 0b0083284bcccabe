import UaRateThrottling.Base64
import UaRateThrottling.CString
import UaRateThrottling.Json
import UaRateThrottling.Channel.RoundTrip

/-!
# The document of a task

A client stores a chunk as a JSON document: the channel, the request, the bytes in base64 and
their number. The server reads the document into a buffer of fixed size and decodes it.

jansson, glib and ZooKeeper are not part of the repository. `Libraries` is what is used of them
and `Libraries.Documented` what their documentation says.
-/

namespace Zuth

open UA

/-- What is used of other libraries: `json_dumps` with `JSON_INDENT(1)`, `json_loads` with
`JSON_DISABLE_EOF_CHECK`, `g_base64_encode`, `g_base64_decode`, and what `zoo_get` makes of a
buffer, given the data of the node. -/
structure Libraries where
  jsonDumps : Json.Object → List UInt8
  jsonLoads : List UInt8 → Option Json.Object
  base64Encode : List UInt8 → List UInt8
  base64Decode : List UInt8 → List UInt8
  zooGet : List UInt8 → List UInt8 → List UInt8

/-- The libraries do what their documentation says. A document is read back, as far as its members
go, whatever follows it, but not without its end; it holds no zero byte, and its members are
indented on lines of their own. Base64 is undone, in four symbols for every three bytes.
`zoo_get` copies the data as far as the buffer goes and leaves the rest of the buffer alone. -/
structure Libraries.Documented (lib : Libraries) : Prop where
  loads_dumps : ∀ {o : Json.Object}, Json.Plain o → ∀ rest : List UInt8,
    ∃ o', lib.jsonLoads (lib.jsonDumps o ++ rest) = some o' ∧
      ∀ key, Json.get o' key = Json.get o key
  loads_incomplete : ∀ {o : Json.Object}, Json.Plain o → ∀ {s : List UInt8},
    s <+: lib.jsonDumps o → s ≠ lib.jsonDumps o → lib.jsonLoads s = none
  dumps_ne_zero : ∀ {o : Json.Object}, Json.Plain o → ∀ c ∈ lib.jsonDumps o, c ≠ 0
  length_dumps : ∀ {o : Json.Object}, Json.Plain o → o ≠ [] →
    (lib.jsonDumps o).length = Json.size o
  decode_encode : ∀ bytes, lib.base64Decode (lib.base64Encode bytes) = bytes
  length_encode : ∀ bytes, (lib.base64Encode bytes).length = 4 * ((bytes.length + 2) / 3)
  isSymbol_encode : ∀ bytes, ∀ c ∈ lib.base64Encode bytes, Base64.IsSymbol c
  zooGet_eq : ∀ data buffer,
    lib.zooGet data buffer = data.take buffer.length ++ buffer.drop data.length

/-! ### The document -/

/-- The JSON object `ZUTH_SecureChannel_sendChunk` puts a task into. -/
def jsonRequest (lib : Libraries) (task : Task) : Json.Object :=
  [(ascii "channelId", .integer task.channelId.toNat),
    (ascii "requestId", .integer task.requestId.toNat),
    (ascii "dst", .string (lib.base64Encode task.dst)),
    (ascii "offset", .integer task.offset)]

/-- The data of the task's node, as far as `strlen` goes. -/
def taskData (lib : Libraries) (task : Task) : List UInt8 :=
  (lib.jsonDumps (jsonRequest lib task)).takeWhile (· ≠ 0)

/-- The length of the buffer a task is read into. -/
def bufferLength : Nat := 65535

/-- `json_integer_value`: zero unless there is an integer. -/
def integerValue : Option Json.Value → Nat
  | some (.integer n) => n
  | _ => 0

/-- `json_string_value`: a null pointer unless there is a string. -/
def stringValue : Option Json.Value → Option (List UInt8)
  | some (.string s) => some s
  | _ => none

/-- What `zuth_executeRequest` reads of a task: `dst` is null when the member is no string. -/
structure Request where
  channelId : UInt32
  requestId : UInt32
  dst : Option (List UInt8)
  offset : Nat
deriving DecidableEq

/-- The string in the buffer a task is read into. It ends at the first zero byte, which may be one
of those `beyond` the buffer. -/
def taskString (lib : Libraries) (data beyond : List UInt8) : List UInt8 :=
  (lib.zooGet data (List.replicate bufferLength 0) ++ beyond).takeWhile (· ≠ 0)

/-- The part of `zuth_executeRequest` that reads the task. -/
def readRequest (lib : Libraries) (data beyond : List UInt8) : Option Request :=
  match lib.jsonLoads (taskString lib data beyond) with
  | none => none
  | some jsonRoot =>
    let offset := integerValue (Json.get jsonRoot (ascii "offset"))
    match Json.get jsonRoot (ascii "dst") with
    | none => none
    | some jString =>
      some {
        channelId := UInt32.ofNat (integerValue (Json.get jsonRoot (ascii "channelId")))
        requestId := UInt32.ofNat (integerValue (Json.get jsonRoot (ascii "requestId")))
        dst := (stringValue (some jString)).map lib.base64Decode
        offset := offset }

/-- The task is read back to its channel and its chunk, whatever is in memory after the
buffer. -/
def ReadsBack (lib : Libraries) (task : Task) : Prop :=
  ∀ beyond, ∃ request, readRequest lib (taskData lib task) beyond = some request ∧
    request.channelId = task.channelId ∧ request.dst = some task.dst

/-- How long the document of a task is. -/
def documentLength (task : Task) : Nat :=
  59 + (Decimal.numeral task.channelId.toNat).length +
    (Decimal.numeral task.requestId.toNat).length + 4 * ((task.dst.length + 2) / 3) +
    (Decimal.numeral task.offset).length

/-- A base64 text needs no escapes. -/
theorem isPlain_of_isSymbol {c : UInt8} (h : Base64.IsSymbol c) :
  Json.isPlain c
  := by
  have := Base64.printable_of_isSymbol h
  simp [Json.isPlain, this]

/-- The document of a task holds nothing that is escaped. -/
theorem plain_jsonRequest {lib : Libraries} (hlib : lib.Documented) {task : Task}
    (h : task.offset < 2 ^ 63) :
  Json.Plain (jsonRequest lib task)
  := by
  constructor
  · simp only [jsonRequest, List.map_cons, List.map_nil]
    decide
  · have hkeys : ∀ key ∈ [ascii "channelId", ascii "requestId", ascii "dst", ascii "offset"],
        ∀ c ∈ key, Json.isPlain c := by
      decide +kernel
    intro m hm
    apply hkeys
    simp only [jsonRequest, List.mem_cons, List.not_mem_nil, or_false] at hm
    rcases hm with rfl | rfl | rfl | rfl <;> simp
  · intro m hm
    simp only [jsonRequest, List.mem_cons, List.not_mem_nil, or_false] at hm
    rcases hm with rfl | rfl | rfl | rfl
    · apply Nat.lt_trans task.channelId.toNat_lt (by decide)
    · apply Nat.lt_trans task.requestId.toNat_lt (by decide)
    · intro c hc
      apply isPlain_of_isSymbol (hlib.isSymbol_encode task.dst c hc)
    · exact h

/-- The whole document is stored. -/
theorem taskData_eq {lib : Libraries} (hlib : lib.Documented) {task : Task}
    (h : task.offset < 2 ^ 63) :
  taskData lib task = lib.jsonDumps (jsonRequest lib task)
  := by
  apply takeWhile_ne_zero
  intro hmem
  apply hlib.dumps_ne_zero (plain_jsonRequest hlib h) 0 hmem rfl

theorem length_taskData {lib : Libraries} (hlib : lib.Documented) {task : Task}
    (h : task.offset < 2 ^ 63) :
  (taskData lib task).length = documentLength task
  := by
  have hchannelId : (ascii "channelId").length = 9 := rfl
  have hrequestId : (ascii "requestId").length = 9 := rfl
  have hdst : (ascii "dst").length = 3 := rfl
  have hoffset : (ascii "offset").length = 6 := rfl
  rw [taskData_eq hlib h, hlib.length_dumps (plain_jsonRequest hlib h) (by simp [jsonRequest])]
  simp only [Json.size, jsonRequest, List.map_cons, List.map_nil, List.sum_cons, List.sum_nil,
    Json.Value.size, hchannelId, hrequestId, hdst, hoffset, hlib.length_encode, documentLength]
  omega

/-! ### Reading -/

/-- Data that fit the buffer are in front of the string, which ends no earlier. -/
theorem taskString_of_le {lib : Libraries} (hlib : lib.Documented) {data : List UInt8}
    (hzero : ∀ c ∈ data, c ≠ 0) (h : data.length ≤ bufferLength) (beyond : List UInt8) :
  ∃ rest, taskString lib data beyond = data ++ rest
  := by
  rw [taskString, hlib.zooGet_eq, List.length_replicate, List.take_of_length_le h,
    List.append_assoc, List.takeWhile_append_of_pos (by simpa using hzero)]
  exact ⟨_, rfl⟩

/-- Of data that do not fit the buffer, the string ends with the buffer, when a zero byte
follows. -/
theorem taskString_of_lt {lib : Libraries} (hlib : lib.Documented) {data : List UInt8}
    (hzero : ∀ c ∈ data, c ≠ 0) (h : bufferLength < data.length) :
  taskString lib data [0] = data.take bufferLength
  := by
  have hzero' : ∀ c ∈ data.take bufferLength, decide (c ≠ 0) := by
    intro c hc
    simp [hzero c (List.mem_of_mem_take hc)]
  rw [taskString, hlib.zooGet_eq, List.length_replicate, List.drop_of_length_le, List.append_nil,
    List.takeWhile_append_of_pos hzero', List.takeWhile_cons_of_neg (by decide), List.append_nil]
  rw [List.length_replicate]
  omega

/-- A task whose document fits the buffer is read back. -/
theorem readsBack_of_le {lib : Libraries} (hlib : lib.Documented) {task : Task}
    (hoffset : task.offset < 2 ^ 63) (h : documentLength task ≤ bufferLength) :
  ReadsBack lib task
  := by
  have hplain := plain_jsonRequest hlib hoffset
  have hdata := taskData_eq hlib hoffset
  intro beyond
  rw [← length_taskData hlib hoffset, hdata] at h
  obtain ⟨rest, hrest⟩ := taskString_of_le hlib (hlib.dumps_ne_zero hplain) h beyond
  obtain ⟨jsonRoot, hloads, hget⟩ := hlib.loads_dumps hplain rest
  have hchannelId : Json.get jsonRoot (ascii "channelId") =
      some (.integer task.channelId.toNat) := hget _
  have hdst : Json.get jsonRoot (ascii "dst") = some (.string (lib.base64Encode task.dst)) :=
    hget _
  rw [hdata, readRequest, hrest, hloads]
  simp [hchannelId, hdst, integerValue, stringValue, hlib.decode_encode]

/-- A task whose document does not fit the buffer is not read. -/
theorem readRequest_of_lt {lib : Libraries} (hlib : lib.Documented) {task : Task}
    (hoffset : task.offset < 2 ^ 63) (h : bufferLength < documentLength task) :
  readRequest lib (taskData lib task) [0] = none
  := by
  have hplain := plain_jsonRequest hlib hoffset
  have hdata := taskData_eq hlib hoffset
  rw [← length_taskData hlib hoffset, hdata] at h
  have hne : (lib.jsonDumps (jsonRequest lib task)).take bufferLength ≠
      lib.jsonDumps (jsonRequest lib task) := by
    intro heq
    have := congrArg List.length heq
    rw [List.length_take] at this
    omega
  have hloads := hlib.loads_incomplete hplain (List.take_prefix _ _) hne
  rw [hdata, readRequest, taskString_of_lt hlib (hlib.dumps_ne_zero hplain) h, hloads]

theorem not_readsBack_of_lt {lib : Libraries} (hlib : lib.Documented) {task : Task}
    (hoffset : task.offset < 2 ^ 63) (h : bufferLength < documentLength task) :
  ¬ReadsBack lib task
  := by
  intro hreads
  obtain ⟨request, hrequest, -⟩ := hreads [0]
  rw [readRequest_of_lt hlib hoffset h] at hrequest
  cases hrequest

/-- A chunk of at most the size of the send buffer is read back from its document exactly when
the document fits the buffer it is read into. -/
theorem readsBack_iff {lib : Libraries} (hlib : lib.Documented) {connection : Connection}
    (channelId requestId : UInt32) {chunk : List UInt8}
    (h : chunk.length ≤ connection.localConf.sendBufferSize.toNat) :
  ReadsBack lib ⟨channelId, requestId, chunk, chunk.length⟩ ↔
    documentLength ⟨channelId, requestId, chunk, chunk.length⟩ ≤ bufferLength
  := by
  have hoffset : chunk.length < 2 ^ 63 := by
    have := connection.localConf.sendBufferSize.toNat_lt
    omega
  constructor
  · intro hreads
    by_contra hlength
    apply not_readsBack_of_lt hlib hoffset (Nat.not_le.mp hlength) hreads
  · apply readsBack_of_le hlib hoffset

/-! ### How long a chunk may be -/

/-- The number in the document of a chunk is that of its bytes. -/
theorem offset_chunkTask (channel : SecureChannel) (requestId t n : UInt32)
    (payload : List UInt8) :
  (chunkTask channel requestId t n payload).offset =
    (chunkTask channel requestId t n payload).dst.length
  := by
  rw [chunkTask, length_encodeChunk]

/-- A numeral has a digit at least. -/
theorem one_le_length_numeral (n : Nat) :
  1 ≤ (Decimal.numeral n).length
  := by
  apply List.length_pos_of_ne_nil (Decimal.numeral_ne_nil n)

/-- The numeral of a 32-bit number has ten digits at most. -/
theorem length_numeral_toNat_le (n : UInt32) :
  (Decimal.numeral n.toNat).length ≤ 10
  := by
  apply (Decimal.length_numeral_le_iff (by decide)).mpr
  apply Nat.lt_trans n.toNat_lt (by decide)

/-- Up to this many bytes the document fits the buffer, whatever the channel and the request. -/
def safeLength : Nat := 49086

/-- From this many bytes on the document does not fit, whatever the channel and the request. -/
def unsafeLength : Nat := 49102

theorem documentLength_le {task : Task} (hoffset : task.offset = task.dst.length)
    (h : task.dst.length ≤ safeLength) :
  documentLength task ≤ bufferLength
  := by
  have hdigits : (Decimal.numeral task.offset).length ≤ 5 := by
    apply (Decimal.length_numeral_le_iff (by decide)).mpr
    rw [hoffset]
    apply Nat.lt_of_le_of_lt h (by decide)
  have hchannelId := length_numeral_toNat_le task.channelId
  have hrequestId := length_numeral_toNat_le task.requestId
  simp only [documentLength, bufferLength, safeLength] at h ⊢
  omega

theorem lt_documentLength {task : Task} (hoffset : task.offset = task.dst.length)
    (h : unsafeLength ≤ task.dst.length) :
  bufferLength < documentLength task
  := by
  have hdigits : 5 ≤ (Decimal.numeral task.offset).length := by
    apply Nat.lt_of_not_le
    rw [Decimal.length_numeral_le_iff (by decide), hoffset, Nat.not_lt]
    apply Nat.le_trans (by decide) h
  have hchannelId := one_le_length_numeral task.channelId.toNat
  have hrequestId := one_le_length_numeral task.requestId.toNat
  simp only [documentLength, bufferLength, unsafeLength] at h ⊢
  omega

/-- A chunk of at most `safeLength` bytes is read back. -/
theorem readsBack_of_le_safeLength {lib : Libraries} (hlib : lib.Documented) {task : Task}
    (hoffset : task.offset = task.dst.length) (h : task.dst.length ≤ safeLength) :
  ReadsBack lib task
  := by
  apply readsBack_of_le hlib _ (documentLength_le hoffset h)
  rw [hoffset]
  apply Nat.lt_of_le_of_lt h (by decide)

/-! ### Executing the tasks of the queue -/

/-- `zuth_executeRequest` on the document of a task, with what is in memory after its buffer.  A
task that is not read is left alone. -/
def executeRequest (lib : Libraries) (fuel : Nat) (task : Task) (beyond : List UInt8)
    (receivers : UInt32 → Option Receiver) : Option (UInt32 → Option Receiver) :=
  match readRequest lib (taskData lib task) beyond with
  | none => some receivers
  | some request => do
    let receiver ← receivers request.channelId
    let dst ← request.dst
    let receiver ← receiver.feed fuel dst
    some (Function.update receivers request.channelId (some receiver))

/-- `zuth_executeRequest` on one task after the other, each with what is in memory after its
buffer. -/
def executeTasks (lib : Libraries) (fuel : Nat) : List (Task × List UInt8) →
    (UInt32 → Option Receiver) → Option (UInt32 → Option Receiver)
  | [], receivers => some receivers
  | (task, beyond) :: tasks, receivers =>
    (executeRequest lib fuel task beyond receivers).bind (executeTasks lib fuel tasks)

/-- When the tasks are read back, their chunks are fed to the channels. -/
theorem executeTasks_eq {lib : Libraries} (fuel : Nat) {tasks : List (Task × List UInt8)}
    (h : ∀ task ∈ tasks, ReadsBack lib task.1) (receivers : UInt32 → Option Receiver) :
  executeTasks lib fuel tasks receivers = feedChannels fuel (tasks.map Prod.fst) receivers
  := by
  induction tasks generalizing receivers with
  | nil => rfl
  | cons task tasks ih =>
      obtain ⟨task, beyond⟩ := task
      obtain ⟨request, hrequest, hchannelId, hdst⟩ := h _ List.mem_cons_self beyond
      rw [executeTasks, executeRequest, hrequest, List.map_cons, feedChannels]
      dsimp only
      rw [hchannelId, hdst]
      cases receivers task.channelId with
      | none => rfl
      | some receiver =>
          rw [Option.bind_some]
          cases hfeed : receiver.feed fuel task.dst with
          | none => simp [hfeed]
          | some receiver' =>
              simp only [Option.bind_eq_bind, Option.bind_some, hfeed]
              apply ih (fun t ht => h t (List.mem_cons_of_mem _ ht))

/-! ### Libraries to read with -/

/-- A JSON library, base64 and a node, as they are documented. -/
def referenceLibraries : Libraries where
  jsonDumps := Json.dump
  jsonLoads := Json.load
  base64Encode := Base64.encode
  base64Decode := fun symbols => (Base64.decode symbols).getD []
  zooGet := fun data buffer => data.take buffer.length ++ buffer.drop data.length

theorem documented_referenceLibraries :
  referenceLibraries.Documented
  := by
  constructor
  · intro o ho rest
    exact ⟨o, Json.load_dump_append ho rest, fun _ => rfl⟩
  · intro o ho s hs hne
    apply Json.load_eq_none_of_part ho hs hne
  · intro o ho c hc
    apply Json.ne_zero_of_mem_dump ho hc
  · intro o ho hne
    apply Json.length_dump hne
  · intro bytes
    simp [referenceLibraries, Base64.decode_encode]
  · apply Base64.length_encode
  · intro bytes c hc
    apply Base64.isSymbol_of_mem_encode hc
  · intro data buffer
    rfl

/-- A small chunk is read back. -/
theorem readsBack_iff_small :
  ReadsBack referenceLibraries ⟨1, 2, [77, 83, 71, 70], 4⟩
  := by
  apply (@readsBack_iff _ documented_referenceLibraries ⟨5, .standard, .standard⟩ 1 2
    [77, 83, 71, 70] (by decide)).mpr
  decide

/-- The task of a message that goes on, with as many bytes in the chunk as the buffer takes. -/
def fullTask : Task :=
  chunkTask { SecureChannel.init with securityToken := ⟨1, 1, 0, 3600000⟩ } 1
    (MessageType.msg + ChunkType.intermediate) 52
    (List.replicate (payloadSpace ⟨5, .standard, .standard⟩) 0)

/-- The chunk is no longer than the send buffer, and it is not read back. -/
theorem fullTask_not_readsBack :
  fullTask.dst.length = ConnectionConfig.standard.sendBufferSize.toNat ∧
    fullTask.offset = fullTask.dst.length ∧ ¬ReadsBack referenceLibraries fullTask
  := by
  have hlength : fullTask.dst.length = 65535 := by
    rw [fullTask, chunkTask, length_encodeChunk, List.length_replicate]
    rfl
  have hoffset : fullTask.offset = fullTask.dst.length := by
    rw [fullTask, offset_chunkTask]
  use hlength, hoffset
  have hlong : bufferLength < documentLength fullTask := by
    apply lt_documentLength hoffset
    rw [hlength]
    decide
  have hsmall : fullTask.offset < 2 ^ 63 := by
    rw [hoffset, hlength]
    decide
  apply not_readsBack_of_lt documented_referenceLibraries hsmall hlong

end Zuth
