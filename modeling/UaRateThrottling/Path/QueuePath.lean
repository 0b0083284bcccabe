import UaRateThrottling.CString
import UaRateThrottling.Decimal
import UaRateThrottling.Hex
import UaRateThrottling.Path.Tree
import UaRateThrottling.Path.UrlEncode

/-!
# The paths of a queue

The queue of a server is a node below the queue node of its redundancy group, named by the encoded
endpoint URL of the server. The server makes the path twice, once to create the node and once to
watch it, and a client makes it from the URL it is connected to.

`queueAddressing` says that they are the same, and that the queues of different groups or endpoints
have nothing to do with each other.
-/

namespace Zuth

/-! ### The group -/

/-- `UA_Guid`, with the eight bytes of `data4`. -/
structure Guid where
  data1 : UInt32
  data2 : UInt16
  data3 : UInt16
  data4 : Vector UInt8 8
deriving DecidableEq

/-- `%02X` of each byte. -/
def hexBytes (bytes : List UInt8) : List UInt8 := bytes.flatMap (fun b => Hex.numeral 2 b.toNat)

/-- `UA_PRINTF_GUID_FORMAT` with `UA_PRINTF_GUID_DATA`. -/
def printGuid (guid : Guid) : List UInt8 :=
  [123] ++ Hex.numeral 8 guid.data1.toNat ++ [45] ++ Hex.numeral 4 guid.data2.toNat ++ [45] ++
    Hex.numeral 4 guid.data3.toNat ++ [45] ++ hexBytes (guid.data4.toList.take 2) ++ [45] ++
    hexBytes (guid.data4.toList.drop 2) ++ [125]

/-- The group path in `zkUA_zkGroupGuidPath` after `zkUA_setGroupGuidPath`. -/
def groupGuidPath (groupGuid : List UInt8) : List UInt8 :=
  snprintf 1024 (snprintf 65535 (ascii "/Servers/" ++ groupGuid))

/-- The path in `zkUA_zkServerQueuePath` after `zkUA_setQueuePath`. -/
def queuePath (groupGuid : List UInt8) : List UInt8 :=
  snprintf 1024 (snprintf 65535 (groupGuidPath groupGuid ++ ascii "/Queue"))

/-- `zkUA_getActivePath` -/
def activePath (groupGuid : List UInt8) : List UInt8 :=
  snprintf 65535 (groupGuidPath groupGuid ++ ascii "/Active")

/-- `zkUA_setServerQueuePath` -/
def setServerQueuePath (groupGuid endpointURL : List UInt8) : List UInt8 :=
  let urlString := snprintf 65535 (endpointURL.takeWhile (· ≠ 0))
  snprintf 65535 (queuePath groupGuid ++ ascii "/" ++ urlEncode urlString)

/-- `zkUA_encodeServerQueuePath` -/
def encodeServerQueuePath (groupGuid endpointURL : List UInt8) : List UInt8 :=
  snprintf 65535 (setServerQueuePath groupGuid endpointURL ++ ascii "/task-")

/-! ### The endpoint -/

/-- What of `zkUA_Config` names a queue: the group, and the host and the port of the endpoint,
whose URL is shorter than 256 bytes. -/
structure Config where
  guid : Guid
  hostname : List UInt8
  uaPort : UInt64
  terminated : 0 ∉ hostname
  short : (ascii "opc.tcp://" ++ hostname ++ ascii ":" ++
    Decimal.numeral uaPort.toNat).length < 256

namespace Config

variable (config config' : Config)

/-- The URL the server and the client print, `opc.tcp://<host>:<port>`. -/
def url : List UInt8 :=
  ascii "opc.tcp://" ++ config.hostname ++ ascii ":" ++ Decimal.numeral config.uaPort.toNat

/-- `groupGuid` -/
def groupGuid : List UInt8 := snprintf 65535 (printGuid config.guid)

/-- `serverUri`, and the client's `serverDst`. -/
def serverUri : List UInt8 := snprintf 65535 config.url

/-- `UA_String_fromChars` of the URL: `endpointURL` of the server, and the URL a client is
connected to. -/
def endpointURL : List UInt8 := config.serverUri.takeWhile (· ≠ 0)

/-- `serverTaskPath`, the node the server creates. -/
def serverTaskPath : List UInt8 :=
  snprintf 65535 (queuePath config.groupGuid ++ ascii "/" ++ urlEncode config.serverUri)

/-- `serverActivePath`, the node that announces the server. -/
def serverActivePath : List UInt8 :=
  snprintf 65535 (activePath config.groupGuid ++ ascii "/" ++ urlEncode config.serverUri)

/-- `serverQueuePath`, the path the server watches and puts before the names of the children. -/
def serverQueuePath : List UInt8 := setServerQueuePath config.groupGuid config.endpointURL

/-- `taskPath` of a client, before the number of the task. -/
def taskPath : List UInt8 := encodeServerQueuePath config.groupGuid config.endpointURL

end Config

/-! ### Printing -/

theorem length_hexBytes (bytes : List UInt8) :
  (hexBytes bytes).length = 2 * bytes.length
  := by
  induction bytes with
  | nil => rfl
  | cons b bytes ih =>
      rw [hexBytes] at ih ⊢
      rw [List.flatMap_cons, List.length_append, ih, Hex.length_numeral, List.length_cons]
      omega

theorem hexBytes_inj {bytes bytes' : List UInt8} :
  hexBytes bytes = hexBytes bytes' ↔ bytes = bytes'
  := by
  constructor
  · intro h
    induction bytes generalizing bytes' with
    | nil =>
        cases bytes' with
        | nil => rfl
        | cons b' bytes' =>
            have := congrArg List.length h
            simp [length_hexBytes] at this
    | cons b bytes ih =>
        cases bytes' with
        | nil =>
            have := congrArg List.length h
            simp [length_hexBytes] at this
        | cons b' bytes' =>
            rw [hexBytes, hexBytes, List.flatMap_cons, List.flatMap_cons] at h
            obtain ⟨hb, hbytes⟩ := List.append_inj h (by simp)
            have hb' := (Hex.numeral_inj b.toNat_lt b'.toNat_lt).mp hb
            rw [UInt8.toNat_inj.mp hb', ih hbytes]
  · rintro rfl
    rfl

/-- A printed GUID has 38 characters. -/
theorem length_printGuid (guid : Guid) :
  (printGuid guid).length = 38
  := by
  simp [printGuid, length_hexBytes]

/-- Different GUIDs are printed differently. -/
theorem printGuid_inj {guid guid' : Guid} :
  printGuid guid = printGuid guid' ↔ guid = guid'
  := by
  constructor
  · intro h
    obtain ⟨h, -⟩ := List.append_inj' h rfl
    obtain ⟨h, hlast⟩ := List.append_inj' h (by simp [length_hexBytes])
    obtain ⟨h, -⟩ := List.append_inj' h rfl
    obtain ⟨h, hfirst⟩ := List.append_inj' h (by simp [length_hexBytes])
    obtain ⟨h, -⟩ := List.append_inj' h rfl
    obtain ⟨h, h3⟩ := List.append_inj' h (by simp)
    obtain ⟨h, -⟩ := List.append_inj' h rfl
    obtain ⟨h, h2⟩ := List.append_inj' h (by simp)
    obtain ⟨h, -⟩ := List.append_inj' h rfl
    obtain ⟨-, h1⟩ := List.append_inj' h (by simp)
    have hdata1 := UInt32.toNat_inj.mp
      ((Hex.numeral_inj guid.data1.toNat_lt guid'.data1.toNat_lt).mp h1)
    have hdata2 := UInt16.toNat_inj.mp
      ((Hex.numeral_inj guid.data2.toNat_lt guid'.data2.toNat_lt).mp h2)
    have hdata3 := UInt16.toNat_inj.mp
      ((Hex.numeral_inj guid.data3.toNat_lt guid'.data3.toNat_lt).mp h3)
    have hdata4 : guid.data4.toList = guid'.data4.toList := by
      rw [← List.take_append_drop 2 guid.data4.toList, hexBytes_inj.mp hfirst,
        hexBytes_inj.mp hlast, List.take_append_drop]
    obtain ⟨d1, d2, d3, d4⟩ := guid
    obtain rfl : d1 = guid'.data1 := hdata1
    obtain rfl : d2 = guid'.data2 := hdata2
    obtain rfl : d3 = guid'.data3 := hdata3
    obtain rfl : d4 = guid'.data4 := Vector.toList_inj.mp hdata4
    rfl
  · rintro rfl
    rfl

/-- There is no `/` in a printed GUID. -/
theorem slash_notMem_printGuid (guid : Guid) :
  47 ∉ printGuid guid
  := by
  have hbytes : ∀ bytes, 47 ∉ hexBytes bytes := by
    intro bytes hmem
    obtain ⟨b, -, hb⟩ := List.mem_flatMap.mp hmem
    apply Hex.ne_of_mem_numeral hb rfl
  simp only [printGuid, List.mem_append, not_or]
  refine ⟨⟨⟨⟨⟨⟨⟨⟨⟨⟨?_, ?_⟩, ?_⟩, ?_⟩, ?_⟩, ?_⟩, ?_⟩, ?_⟩, ?_⟩, ?_⟩, ?_⟩
  all_goals first
    | apply hbytes
    | decide
    | intro hmem
      apply Hex.ne_of_mem_numeral hmem rfl

/-! ### The paths, written out -/

/-- The group path is not cut off. -/
theorem groupGuidPath_eq (guid : Guid) :
  groupGuidPath (printGuid guid) = ascii "/Servers/" ++ printGuid guid
  := by
  have hlength : (ascii "/Servers/" ++ printGuid guid).length = 47 := by
    rw [List.length_append, length_printGuid]
    rfl
  rw [groupGuidPath, snprintf_of_lt (s := ascii "/Servers/" ++ printGuid guid),
    snprintf_of_lt] <;> omega

theorem length_groupGuidPath (guid : Guid) :
  (groupGuidPath (printGuid guid)).length = 47
  := by
  rw [groupGuidPath_eq, List.length_append, length_printGuid]
  rfl

theorem queuePath_eq (guid : Guid) :
  queuePath (printGuid guid) = groupGuidPath (printGuid guid) ++ ascii "/Queue"
  := by
  have hlength : (groupGuidPath (printGuid guid) ++ ascii "/Queue").length = 53 := by
    rw [List.length_append, length_groupGuidPath]
    rfl
  rw [queuePath, snprintf_of_lt (s := groupGuidPath (printGuid guid) ++ ascii "/Queue"),
    snprintf_of_lt] <;> omega

theorem activePath_eq (guid : Guid) :
  activePath (printGuid guid) = groupGuidPath (printGuid guid) ++ ascii "/Active"
  := by
  have hlength : (groupGuidPath (printGuid guid) ++ ascii "/Active").length = 54 := by
    rw [List.length_append, length_groupGuidPath]
    rfl
  rw [activePath, snprintf_of_lt]
  omega

namespace Config

variable {config config' : Config}

/-- There is no terminator in a URL. -/
theorem not_mem_url (config : Config) :
  0 ∉ config.url
  := by
  intro hmem
  simp only [url, List.mem_append] at hmem
  rcases hmem with ((hmem | hmem) | hmem) | hmem
  · revert hmem
    decide
  · apply config.terminated hmem
  · revert hmem
    decide
  · cases Decimal.isDigit_of_mem_numeral hmem

theorem groupGuid_eq (config : Config) :
  config.groupGuid = printGuid config.guid
  := by
  rw [groupGuid, snprintf_of_lt]
  rw [length_printGuid]
  decide

/-- The URL is printed whole, and taken over whole. -/
theorem serverUri_eq (config : Config) :
  config.serverUri = config.url ∧ config.endpointURL = config.url
  := by
  have huri : config.serverUri = config.url :=
    snprintf_of_lt (Nat.lt_trans config.short (by decide))
  use huri
  rw [endpointURL, huri, takeWhile_ne_zero config.not_mem_url]

/-- A path with the encoded URL of an endpoint is not cut off. -/
theorem snprintf_urlEncode (config : Config) {path suffix : List UInt8} (hpath : path.length ≤ 54)
    (hsuffix : suffix.length ≤ 6) :
  snprintf 65535 (path ++ ascii "/" ++ urlEncode config.url ++ suffix) =
    path ++ ascii "/" ++ urlEncode config.url ++ suffix
  := by
  have hencode := length_urlEncode_le config.url
  have hshort : config.url.length < 256 := config.short
  have hslash : (ascii "/").length = 1 := rfl
  apply snprintf_of_lt
  rw [List.length_append, List.length_append, List.length_append]
  omega

theorem length_queuePath_le (guid : Guid) :
  (queuePath (printGuid guid)).length ≤ 54
  := by
  rw [queuePath_eq, List.length_append, length_groupGuidPath]
  decide

/-- The path a server watches is the encoded URL below the queue node of the group. -/
theorem serverQueuePath_eq (config : Config) :
  config.serverQueuePath =
    queuePath (printGuid config.guid) ++ ascii "/" ++ urlEncode config.url
  := by
  have hprint := @config.snprintf_urlEncode _ [] (length_queuePath_le config.guid) (by decide)
  rw [List.append_nil] at hprint
  obtain ⟨huri, hurl⟩ := config.serverUri_eq
  rw [serverUri] at huri
  rw [serverQueuePath, setServerQueuePath, groupGuid_eq, hurl,
    takeWhile_ne_zero config.not_mem_url, huri, hprint]

/-- The node a server creates is the one it watches. -/
theorem serverTaskPath_eq (config : Config) :
  config.serverTaskPath = config.serverQueuePath
  := by
  have hprint := @config.snprintf_urlEncode _ [] (length_queuePath_le config.guid) (by decide)
  rw [List.append_nil] at hprint
  rw [serverTaskPath, groupGuid_eq, config.serverUri_eq.1, hprint, serverQueuePath_eq]

/-- A client puts its tasks below the path the server watches. -/
theorem taskPath_eq (config : Config) :
  config.taskPath = config.serverQueuePath ++ ascii "/task-"
  := by
  have hprint := @config.snprintf_urlEncode _ (ascii "/task-") (length_queuePath_le config.guid)
    (by decide)
  rw [← serverQueuePath_eq] at hprint
  rw [taskPath, encodeServerQueuePath, ← serverQueuePath, hprint]

theorem serverActivePath_eq (config : Config) :
  config.serverActivePath =
    activePath (printGuid config.guid) ++ ascii "/" ++ urlEncode config.url
  := by
  have hlength : (activePath (printGuid config.guid)).length ≤ 54 := by
    rw [activePath_eq, List.length_append, length_groupGuidPath]
    decide
  have hprint := @config.snprintf_urlEncode _ [] hlength (by decide)
  rw [List.append_nil] at hprint
  rw [serverActivePath, groupGuid_eq, config.serverUri_eq.1, hprint]

/-! ### Queues apart -/

/-- The paths of two queues, and what follows them, agree only for one group. -/
theorem guid_eq_of_append {s s' : List UInt8}
    (h : queuePath (printGuid config.guid) ++ s = queuePath (printGuid config'.guid) ++ s') :
  config.guid = config'.guid ∧ s = s'
  := by
  rw [queuePath_eq, queuePath_eq, groupGuidPath_eq, groupGuidPath_eq] at h
  obtain ⟨hpath, hrest⟩ := List.append_inj h (by simp [length_printGuid])
  obtain ⟨hgroup, -⟩ := List.append_inj' hpath rfl
  obtain ⟨-, hguid⟩ := List.append_inj hgroup rfl
  use printGuid_inj.mp hguid, hrest

/-- There is no `/` in the encoded URL. -/
theorem slash_notMem_urlEncode (config : Config) :
  47 ∉ urlEncode config.url
  := by
  intro hmem
  apply ((escaped_urlEncode config.url).ne hmem).1 rfl

/-- Two servers watch the same path only when group and URL are the same. -/
theorem serverQueuePath_inj :
  config.serverQueuePath = config'.serverQueuePath ↔
    config.guid = config'.guid ∧ config.url = config'.url
  := by
  rw [serverQueuePath_eq, serverQueuePath_eq, List.append_assoc, List.append_assoc]
  constructor
  · intro h
    obtain ⟨hguid, hrest⟩ := guid_eq_of_append h
    use hguid
    apply (urlEncode_inj config.not_mem_url config'.not_mem_url).mp
    apply List.append_cancel_left hrest
  · rintro ⟨hguid, hurl⟩
    rw [hguid, hurl]

/-- No queue is above another one. -/
theorem not_prefix_serverQueuePath (config config' : Config) :
  ¬config.serverQueuePath ++ [47] <+: config'.serverQueuePath
  := by
  rintro ⟨rest, h⟩
  rw [serverQueuePath_eq, serverQueuePath_eq, List.append_assoc, List.append_assoc,
    List.append_assoc, List.append_assoc] at h
  obtain ⟨-, hrest⟩ := guid_eq_of_append h
  apply config'.slash_notMem_urlEncode
  rw [← List.append_cancel_left hrest]
  simp

/-- No queue is an announcement of a server. -/
theorem serverQueuePath_ne_serverActivePath (config config' : Config) :
  config.serverQueuePath ≠ config'.serverActivePath
  := by
  rw [serverQueuePath_eq, serverActivePath_eq, queuePath_eq, activePath_eq]
  intro h
  rw [List.append_assoc, List.append_assoc, List.append_assoc, List.append_assoc] at h
  obtain ⟨-, hrest⟩ := List.append_inj h (by rw [length_groupGuidPath, length_groupGuidPath])
  have hq : (ascii "/Queue" ++ (ascii "/" ++ urlEncode config.url))[1]? = some 81 := rfl
  rw [hrest] at hq
  cases hq

/-- A task is a child of the queue its client puts it into. -/
theorem parent_taskPath (config : Config) {number : List UInt8} (h : 47 ∉ number) :
  parent (config.taskPath ++ number) = config.serverQueuePath
  := by
  have hname : 47 ∉ ascii "task-" ++ number := by
    intro hmem
    rcases List.mem_append.mp hmem with hmem | hmem
    · revert hmem
      decide
    · apply h hmem
  rw [taskPath_eq, List.append_assoc]
  apply parent_append config.serverQueuePath hname

end Config

/-- The node a server creates, the path it watches and the path its clients put tasks below are
one, the paths of the queues of different groups or endpoints are not above each other, so that no
task is a child of both, and no queue is an announcement of a server. -/
theorem queueAddressing :
  (∀ server client : Config, client.guid = server.guid → client.url = server.url →
      server.serverTaskPath = server.serverQueuePath ∧
      client.taskPath = server.serverQueuePath ++ ascii "/task-") ∧
    (∀ config config' : Config, config.guid ≠ config'.guid ∨ config.url ≠ config'.url →
      ¬IsAbove config.serverQueuePath config'.serverQueuePath ∧
      ∀ number, 47 ∉ number →
        parent (config.taskPath ++ number) ≠ config'.serverQueuePath) ∧
    ∀ config config' : Config, config.serverQueuePath ≠ config'.serverActivePath
  := by
  have hapart : ∀ {config config' : Config},
      config.guid ≠ config'.guid ∨ config.url ≠ config'.url →
      config.serverQueuePath ≠ config'.serverQueuePath := by
    intro config config' hne heq
    obtain ⟨hguid, hurl⟩ := Config.serverQueuePath_inj.mp heq
    cases hne with
    | inl hne => apply hne hguid
    | inr hne => apply hne hurl
  refine ⟨?_, ?_, ?_⟩
  · intro server client hguid hurl
    use server.serverTaskPath_eq
    rw [client.taskPath_eq, Config.serverQueuePath_inj.mpr ⟨hguid, hurl⟩]
  · intro config config' hne
    constructor
    · rintro (heq | hprefix)
      · apply hapart hne heq
      · apply Config.not_prefix_serverQueuePath config config' hprefix
    · intro number hnumber
      rw [config.parent_taskPath hnumber]
      apply hapart hne
  · apply Config.serverQueuePath_ne_serverActivePath

/-- A configuration of the first group, with the given host. -/
def sampleConfig (hostname : String) (terminated : 0 ∉ ascii hostname)
    (short : (ascii "opc.tcp://" ++ ascii hostname ++ ascii ":" ++
      Decimal.numeral 16664).length < 256) : Config where
  guid := ⟨0x1234abcd, 0x12ab, 0xcd34, #v[1, 2, 3, 4, 5, 6, 7, 255]⟩
  hostname := ascii hostname
  uaPort := 16664
  terminated := terminated
  short := short

theorem queueAddressing_twoHosts :
  ∃ config config' : Config, config.url ≠ config'.url ∧
    config.taskPath = config.serverQueuePath ++ ascii "/task-" ∧
    ¬IsAbove config.serverQueuePath config'.serverQueuePath
  := by
  let config := sampleConfig "host" (by decide) (by decide)
  let config' := sampleConfig "h/st" (by decide) (by decide)
  have hne : config.url ≠ config'.url := by decide
  refine ⟨config, config', hne, ?_, ?_⟩
  · apply (queueAddressing.1 config config rfl rfl).2
  · apply (queueAddressing.2.1 config config' (Or.inr hne)).1

end Zuth
