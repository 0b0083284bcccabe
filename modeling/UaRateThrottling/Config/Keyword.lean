import UaRateThrottling.Config.ReadConfFile
import Mathlib.Data.List.Find

/-!
# The keywords of the configuration

Every field of the configuration has a keyword, a meaning of its values, and an initial value. No
keyword begins with another one, so that the order in which the reader compares them does not
matter: the first word of a pair belongs to one field, or to none.

`readConfFile_spec` says that a field has the meaning of the value in the last pair whose first word
begins with its keyword, and that the pairs are those of the lines as long as no line without value
has another one behind it.
-/

namespace Zuth

/-- The keywords, one for each field. -/
inductive Keyword
  | hostname
  | portNumber
  | groupGUID
  | redundancyType
  | state
  | availabilityPriority
  | username
  | password
  | serverId
  | zooKeeperQuorum
deriving DecidableEq

namespace Keyword

/-- The keyword as it is written. -/
def name : Keyword → List UInt8
  | hostname => ascii "Hostname"
  | portNumber => ascii "PortNumber"
  | groupGUID => ascii "GroupGUID"
  | redundancyType => ascii "RedundancyType"
  | state => ascii "State"
  | availabilityPriority => ascii "AvailabilityPriority"
  | username => ascii "Username"
  | password => ascii "Password"
  | serverId => ascii "ServerId"
  | zooKeeperQuorum => ascii "ZooKeeperQuorum"

/-- The type of the field. -/
abbrev Field : Keyword → Type
  | portNumber | redundancyType | state => Int
  | groupGUID => Guid
  | availabilityPriority => Bool
  | hostname | username | password | serverId | zooKeeperQuorum => List UInt8

instance : (k : Keyword) → DecidableEq k.Field
  | portNumber | redundancyType | state => inferInstanceAs (DecidableEq Int)
  | groupGUID => inferInstanceAs (DecidableEq Guid)
  | availabilityPriority => inferInstanceAs (DecidableEq Bool)
  | hostname | username | password | serverId | zooKeeperQuorum =>
      inferInstanceAs (DecidableEq (List UInt8))

/-- The keywords in the order of the comparisons. -/
def all : List Keyword :=
  [hostname, portNumber, groupGUID, redundancyType, state, availabilityPriority, username,
    password, serverId, zooKeeperQuorum]

/-- The keyword that is found first when a word is compared with them. -/
def ofWord (argument : List UInt8) : Option Keyword :=
  all.find? (fun k => startsWith argument k.name)

/-- What a value means. -/
def meaning : (k : Keyword) → List UInt8 → k.Field
  | portNumber => strtoll
  | redundancyType => readRedundancyType
  | state => readState
  | groupGUID => readGuid
  | availabilityPriority => readAvailabilityPriority
  | hostname | username | password | serverId | zooKeeperQuorum => readString

end Keyword

namespace ZkUAConfig

/-- The field of a keyword. -/
def get (config : ZkUAConfig) : (k : Keyword) → k.Field
  | .hostname => config.hostname
  | .portNumber => config.uaPort
  | .groupGUID => config.guid
  | .redundancyType => config.rSupport
  | .state => config.state
  | .availabilityPriority => config.aPriority
  | .username => config.username
  | .password => config.password
  | .serverId => config.serverId
  | .zooKeeperQuorum => config.zooKeeperQuorum

/-- The configuration with another value of one field. -/
def set (config : ZkUAConfig) : (k : Keyword) → k.Field → ZkUAConfig
  | .hostname, x => { config with hostname := x }
  | .portNumber, x => { config with uaPort := x }
  | .groupGUID, x => { config with guid := x }
  | .redundancyType, x => { config with rSupport := x }
  | .state, x => { config with state := x }
  | .availabilityPriority, x => { config with aPriority := x }
  | .username, x => { config with username := x }
  | .password, x => { config with password := x }
  | .serverId, x => { config with serverId := x }
  | .zooKeeperQuorum, x => { config with zooKeeperQuorum := x }

@[simp]
theorem get_set (config : ZkUAConfig) (k : Keyword) (x : k.Field) :
  (config.set k x).get k = x
  := by
  cases k <;> rfl

theorem get_set_of_ne (config : ZkUAConfig) {k k' : Keyword} (x : k.Field) (h : k' ≠ k) :
  (config.set k x).get k' = config.get k'
  := by
  cases k <;> cases k' <;> first | rfl | exact absurd rfl h

end ZkUAConfig

/-- The value in the last pair whose first word begins with the keyword. -/
def lastValue (k : Keyword) (es : List (List UInt8 × List UInt8)) : Option (List UInt8) :=
  (es.reverse.find? (fun entry => startsWith entry.1 k.name)).map Prod.snd

/-! ### The grammar of lines -/

/-- The words of a line. -/
abbrev lineWords (line : List UInt8) : List (List UInt8) := Words.words isSpace line

/-- The keywords of the lines with their values, every line read on its own. -/
def lineEntries (text : List UInt8) : List (List UInt8 × List UInt8) :=
  (text.splitOn 10).flatMap (fun line => Words.pairs (lineWords line))

/-- Lines of a keyword and a value. A line without value has only blank lines behind it. -/
def Complete : List (List UInt8) → Prop
  | [] => True
  | line :: lines => (lineWords line).length ≤ 2 ∧
      ((lineWords line).length = 1 → ∀ l ∈ lines, lineWords l = []) ∧ Complete lines

/-- The kinds of redundancy and their numbers. -/
def redundancyTypes : List (List UInt8 × Int) :=
  [(ascii "standalone", 0), (ascii "cold", 1), (ascii "warm", 2), (ascii "hot", 3),
    (ascii "transparent", 4), (ascii "hot+", 5)]

/-- The number of exactly the kinds of redundancy. -/
def redundancyNumber (value : List UInt8) : Int :=
  ((redundancyTypes.find? (fun t => t.1 = value)).map Prod.snd).getD (-1)

/-- What a value means when kinds of redundancy are taken literally. -/
def Keyword.literal : (k : Keyword) → List UInt8 → k.Field
  | redundancyType => redundancyNumber
  | k => k.meaning

/-- What the last line of exactly the keyword says about its field. -/
def Keyword.ofLines (k : Keyword) (text : List UInt8) : k.Field :=
  ((lineEntries text).reverse.find? (fun entry => entry.1 = k.name)).elim (initialConfig.get k)
    (fun entry => k.literal entry.2)

/-- The text is read line by line, and keywords and kinds of redundancy are taken literally. -/
def ByLines (text : List UInt8) : Prop :=
  ∃ config, readConfFile text = some config ∧ ∀ k : Keyword, config.get k = k.ofLines text

/-- A text of lines with a keyword and at most one value that is not read line by line. -/
def Misread (text : List UInt8) : Prop :=
  (∀ line ∈ text.splitOn 10, (lineWords line).length ≤ 2) ∧ ¬ ByLines text

/-- The kind of redundancy a value begins with determines the number, apart from `hot+`. -/
def RedundancySupport (value : List UInt8) (rSupport : Int) : Prop :=
  (∀ t ∈ redundancyTypes, startsWith value t.1 → ¬ startsWith value (ascii "hot+") →
    rSupport = t.2) ∧
  ((∀ t ∈ redundancyTypes, ¬ startsWith value t.1) → rSupport = -1)

/-! ### One assignment -/

theorem startsWith_iff {line pre : List UInt8} :
  startsWith line pre = true ↔ pre <+: line
  := List.isPrefixOf_iff_prefix

theorem startsWith_self (line : List UInt8) :
  startsWith line line
  := startsWith_iff.mpr List.prefix_rfl

/-- No keyword begins with another one. -/
theorem Keyword.eq_of_prefix {k k' : Keyword} (h : k.name <+: k'.name) :
  k = k'
  := by
  revert h
  cases k <;> cases k' <;> decide

/-- A word begins with one keyword at most. -/
theorem Keyword.unique {k k' : Keyword} {argument : List UInt8} (h : startsWith argument k.name)
    (h' : startsWith argument k'.name) :
  k = k'
  := by
  rw [startsWith_iff] at h h'
  rcases List.prefix_or_prefix_of_prefix h h' with hpre | hpre
  · apply Keyword.eq_of_prefix hpre
  · exact (Keyword.eq_of_prefix hpre).symm

/-- The keyword that is found is the one the word begins with. -/
theorem Keyword.ofWord_eq_some_iff {argument : List UInt8} {k : Keyword} :
  Keyword.ofWord argument = some k ↔ startsWith argument k.name
  := by
  have hfound : ∀ k, Keyword.ofWord argument = some k → startsWith argument k.name := by
    intro k h
    rw [Keyword.ofWord] at h
    have hk := List.find?_some h
    apply hk
  constructor
  · apply hfound
  · intro h
    have hmem : k ∈ Keyword.all := by cases k <;> decide
    cases hfind : Keyword.ofWord argument with
    | none => exact absurd h (List.find?_eq_none.mp hfind k hmem)
    | some k' => rw [Keyword.unique (hfound k' hfind) h]

theorem elim_find?_cons {α β : Type} (p : α → Bool) (a : α) (as : List α) (b : β) (f : α → β) :
  ((a :: as).find? p).elim b f = if p a then f a else (as.find? p).elim b f
  := by
  by_cases h : p a
  · rw [List.find?_cons_of_pos h, if_pos h, Option.elim_some]
  · rw [List.find?_cons_of_neg h, if_neg h]

/-- An assignment is made to the field whose keyword is found. -/
theorem assign_eq (config : ZkUAConfig) (argument argValue : List UInt8) :
  assign config argument argValue =
    (Keyword.ofWord argument).elim config (fun k => config.set k (k.meaning argValue))
  := by
  rw [Keyword.ofWord, Keyword.all]
  -- one comparison after the other
  iterate 10 rw [elim_find?_cons]
  rfl

/-- An assignment gives the value to the field whose keyword the first word begins with. -/
theorem get_assign (config : ZkUAConfig) (argument argValue : List UInt8) (k : Keyword) :
  (assign config argument argValue).get k =
    if startsWith argument k.name then k.meaning argValue else config.get k
  := by
  rw [assign_eq]
  split
  · rename_i h
    rw [Keyword.ofWord_eq_some_iff.mpr h]
    apply config.get_set
  · rename_i h
    cases hword : Keyword.ofWord argument with
    | none => rfl
    | some k' =>
        apply config.get_set_of_ne
        rintro rfl
        exact h (Keyword.ofWord_eq_some_iff.mp hword)

/-! ### All assignments -/

/-- After the assignments a field has the meaning of the last value for its keyword. -/
theorem get_foldl_assign (config : ZkUAConfig) (es : List (List UInt8 × List UInt8))
    (k : Keyword) :
  (es.foldl (fun config entry => assign config entry.1 entry.2) config).get k =
    (lastValue k es).elim (config.get k) k.meaning
  := by
  induction es using List.reverseRecOn with
  | nil => rfl
  | append_singleton es entry ih =>
      rw [List.foldl_append, List.foldl_cons, List.foldl_nil, get_assign, ih, lastValue, lastValue,
        List.reverse_append, List.reverse_singleton, List.singleton_append]
      by_cases h : startsWith entry.1 k.name
      · rw [if_pos h, List.find?_cons_of_pos]
        · rfl
        · apply h
      · rw [if_neg h, List.find?_cons_of_neg]
        apply h

/-! ### Lines -/

/-- Up to the last value the words of lines are paired line by line. -/
theorem pairs_flatMap {lines : List (List UInt8)} (h : Complete lines) :
  Words.pairs (lines.flatMap lineWords)
    = lines.flatMap (fun line => Words.pairs (lineWords line))
  := by
  induction lines with
  | nil => rfl
  | cons line lines ih =>
      obtain ⟨hlength, hlast, hlines⟩ := h
      rw [List.flatMap_cons, List.flatMap_cons]
      by_cases hone : (lineWords line).length = 1
      · -- nothing follows a line without value
        have hnil : lines.flatMap lineWords = [] := List.flatMap_eq_nil_iff.mpr (hlast hone)
        have hpairs : lines.flatMap (fun line => Words.pairs (lineWords line)) = [] := by
          rw [← ih hlines, hnil]
          rfl
        rw [hnil, hpairs, List.append_nil, List.append_nil]
      · rw [Words.pairs_append (by omega), ih hlines]

/-- The pairs of words are those of the lines. -/
theorem entries_eq_lineEntries {text : List UInt8} (h : Complete (text.splitOn 10)) :
  entries text = lineEntries text
  := by
  have hblank : isSpace 10 := by decide
  have hwords := Words.words_intercalate hblank (text.splitOn 10)
  rw [List.intercalate_splitOn] at hwords
  rw [entries, lineEntries, hwords, pairs_flatMap h]

/-! ### The kinds of redundancy -/

theorem readRedundancyType_spec (value : List UInt8) :
  RedundancySupport value (readRedundancyType value)
  := by
  simp only [RedundancySupport, redundancyTypes, List.forall_mem_cons, List.not_mem_nil,
    false_implies, implies_true, and_true]
  constructor
  · refine ⟨?_, ?_, ?_, ?_, ?_, fun hpre hnot => absurd hpre hnot⟩
    all_goals
      intro hpre _
      obtain ⟨rest, rfl⟩ := startsWith_iff.mp hpre
      rfl
  · rintro ⟨hstandalone, hcold, hwarm, hhot, htransparent, hplus⟩
    rw [readRedundancyType, if_neg hstandalone, if_neg hcold, if_neg hwarm, if_neg hhot,
      if_neg htransparent, if_neg hplus]

/-- Values that extend no kind of redundancy are taken literally. -/
theorem readRedundancyType_eq {value : List UInt8}
    (h : ∀ t ∈ redundancyTypes, startsWith value t.1 → value = t.1) :
  readRedundancyType value = redundancyNumber value
  := by
  by_cases hkind : ∃ t ∈ redundancyTypes, startsWith value t.1
  · obtain ⟨t, ht, hpre⟩ := hkind
    obtain rfl := h t ht hpre
    have hall : ∀ t ∈ redundancyTypes,
        readRedundancyType t.1 = redundancyNumber t.1 ∨ t.1 = ascii "hot+" := by decide
    rcases hall t ht with hnumber | hplus
    · apply hnumber
    · -- the one with the plus extends the one without
      have hhot := h (ascii "hot", 3) (by decide) (by rw [hplus]; decide)
      rw [hplus] at hhot
      exact absurd hhot (by decide)
  · have hnone : ∀ t ∈ redundancyTypes, ¬ startsWith value t.1 := by
      intro t ht hpre
      apply hkind ⟨t, ht, hpre⟩
    rw [(readRedundancyType_spec value).2 hnone, redundancyNumber, List.find?_eq_none.mpr]
    · rfl
    · intro t ht heq
      apply hnone t ht
      rw [of_decide_eq_true heq]
      apply startsWith_self

/-! ### The reader -/

/-- Fields are determined by the last pair of words whose first word begins with their keyword. -/
theorem readConfFile_spec {text : List UInt8}
    (hfit : Fitting (Words.words isSpace text)) :
  ∃ config, readConfFile text = some config ∧
    (∀ k : Keyword, config.get k =
      (lastValue k (entries text)).elim (initialConfig.get k) k.meaning) ∧
    (∀ value, lastValue .redundancyType (entries text) = some value →
      RedundancySupport value config.rSupport) ∧
    (Complete (text.splitOn 10) → entries text = lineEntries text)
  := by
  have hget := get_foldl_assign initialConfig (entries text)
  refine ⟨_, (readConfFile_eq text).trans (if_pos hfit), hget, ?_, entries_eq_lineEntries⟩
  intro value hvalue
  have hsupport := hget .redundancyType
  rw [hvalue, ZkUAConfig.get] at hsupport
  rw [hsupport]
  apply readRedundancyType_spec

theorem readConfFile_spec_cold :
  ∃ config, readConfFile (ascii "Hostname a\nRedundancyType cold\nServerId\n") = some config ∧
    config.hostname = ascii "a" ∧ config.rSupport = 1 ∧ config.serverId = []
  := by
  obtain ⟨config, hread, hget, -⟩ :=
    @readConfFile_spec (ascii "Hostname a\nRedundancyType cold\nServerId\n") (by decide)
  exact ⟨config, hread, (hget .hostname).trans (by decide),
    (hget .redundancyType).trans (by decide), (hget .serverId).trans (by decide)⟩

/-- A text of complete lines without extended keywords and kinds of redundancy is read line by
line. -/
theorem byLines_of_complete {text : List UInt8}
    (hfit : Fitting (Words.words isSpace text))
    (hcomplete : Complete (text.splitOn 10))
    (hkeyword : ∀ entry ∈ entries text, ∀ k : Keyword, startsWith entry.1 k.name →
      entry.1 = k.name)
    (hvalue : ∀ entry ∈ entries text, entry.1 = Keyword.redundancyType.name →
      ∀ t ∈ redundancyTypes, startsWith entry.2 t.1 → entry.2 = t.1) :
  ByLines text
  := by
  refine ⟨_, (readConfFile_eq text).trans (if_pos hfit), ?_⟩
  intro k
  have hsame : ∀ entry ∈ (entries text).reverse,
      startsWith entry.1 k.name = decide (entry.1 = k.name) := by
    intro entry hentry
    rw [Bool.eq_iff_iff, decide_eq_true_eq]
    constructor
    · apply hkeyword entry (List.mem_reverse.mp hentry)
    · intro h
      rw [h]
      apply startsWith_self
  rw [get_foldl_assign, Keyword.ofLines, ← entries_eq_lineEntries hcomplete, lastValue,
    List.find?_congr hsame]
  cases hfind : (entries text).reverse.find? (fun entry => entry.1 = k.name) with
  | none => rfl
  | some entry =>
      have hmem := List.mem_reverse.mp (List.mem_of_find?_eq_some hfind)
      have hkey := List.find?_some hfind
      rw [decide_eq_true_eq] at hkey
      cases k <;> first | rfl | apply readRedundancyType_eq (hvalue entry hmem hkey)

/-- A text is misread when one field is not what its lines say. -/
theorem misread_of_get {text : List UInt8} (k : Keyword)
    (hlines : ∀ line ∈ text.splitOn 10, (lineWords line).length ≤ 2)
    (hget : (readConfFile text).map (fun config => config.get k) ≠ some (k.ofLines text)) :
  Misread text
  := by
  use hlines
  rintro ⟨config, hread, hfield⟩
  apply hget
  rw [hread, Option.map_some, hfield]

/-- A line of one word that does not fit its buffer is not read. -/
theorem misread_replicate {n : Nat} (hn : 65535 ≤ n) :
  Misread (List.replicate n 97)
  := by
  have hbyte : ∀ c ∈ List.replicate n (97 : UInt8), c = 97 := by
    intro c hc
    exact List.eq_of_mem_replicate hc
  have hne : List.replicate n (97 : UInt8) ≠ [] := by
    rw [ne_eq, List.replicate_eq_nil_iff]
    omega
  have hword : Words.words isSpace (List.replicate n 97) = [List.replicate n 97] := by
    apply Words.words_singleton hne
    intro c hc
    rw [hbyte c hc]
    decide
  constructor
  · rw [List.splitOn_eq_singleton, List.forall_mem_singleton, lineWords, hword]
    · exact Nat.le_succ 1
    · intro h
      exact absurd (hbyte 10 h) (by decide)
  · rintro ⟨config, hread, -⟩
    rw [readConfFile_eq, if_neg] at hread
    · cases hread
    · rw [hword, fitting_cons, List.length_replicate]
      omega

/-- A keyword with something behind it is taken for the keyword, a line without value takes its
value from the next one, kinds of redundancy with something behind them are taken for the kind, also
the one that ends in a plus, and a word may not fit its buffer. -/
theorem misread_texts :
  Misread (ascii "HostnameX a\n") ∧ Misread (ascii "Username\nPassword p\n") ∧
    Misread (ascii "RedundancyType coldest\n") ∧ Misread (ascii "RedundancyType hot+\n") ∧
    Misread (List.replicate 65535 97)
  := by
  refine ⟨?_, ?_, ?_, ?_, ?_⟩
  · apply misread_of_get .hostname <;> decide
  · apply misread_of_get .username <;> decide
  · apply misread_of_get .redundancyType <;> decide
  · apply misread_of_get .redundancyType <;> decide
  · apply misread_replicate
    decide

end Zuth
