import UaRateThrottling.Path.QueuePath
import UaRateThrottling.Words

/-!
# The configuration reader

The reader takes two words at a time from the file, a keyword and its value, until only blanks are
left. Keywords and values are told apart by the prefixes they begin with, in a fixed order. A value
is missing only at the end of the file: what ends a line is a blank like any other.
-/

namespace Zuth

/-- `zkUA_Config`, the strings without their terminators. -/
structure ZkUAConfig where
  uaPort : Int
  rSupport : Int
  state : Int
  aPriority : Bool
  hostname : List UInt8
  username : List UInt8
  password : List UInt8
  serverId : List UInt8
  zooKeeperQuorum : List UInt8
  guid : Guid
deriving DecidableEq

/-- The configuration before the first word is read. -/
def initialConfig : ZkUAConfig where
  uaPort := 0
  rSupport := -1
  state := -1
  aPriority := false
  hostname := []
  username := []
  password := []
  serverId := []
  zooKeeperQuorum := []
  guid := ⟨0, 0, 0, Vector.replicate 8 0⟩

/-- `zkUA_startsWith` -/
def startsWith (line pre : List UInt8) : Bool := pre.isPrefixOf line

/-! ### The group GUID -/

/-- `length` characters of the value, copied to a buffer of their own. Behind the value there are
only zeros, which end a number. -/
def slice (argValue : List UInt8) (offset length : Nat) : List UInt8 :=
  (argValue.drop offset).take length

/-- The bytes of `data4`, read from the offset on, with one step over the dash. -/
def readData4 (argValue : List UInt8) : Nat → Nat → List UInt8
  | 0, _ => []
  | dCnt + 1, offset =>
      let offset := if offset = 23 then offset + 1 else offset
      UInt8.ofNat (strtoul (slice argValue offset 2)) :: readData4 argValue dCnt (offset + 2)

theorem length_readData4 (argValue : List UInt8) (dCnt offset : Nat) :
  (readData4 argValue dCnt offset).length = dCnt
  := by
  induction dCnt generalizing offset with
  | zero => rfl
  | succ dCnt ih => rw [readData4, List.length_cons, ih]

/-- The GUID of a value, cut at fixed offsets. -/
def readGuid (argValue : List UInt8) : Guid where
  data1 := UInt32.ofNat (strtoul (slice argValue 0 8))
  data2 := UInt16.ofNat (strtoul (slice argValue (8 + 1) 4))
  data3 := UInt16.ofNat (strtoul (slice argValue 14 4))
  data4 := ⟨(readData4 argValue 8 19).toArray, length_readData4 argValue 8 19⟩

/-! ### The values -/

/-- A string of the configuration. -/
def readString (argValue : List UInt8) : List UInt8 := argValue.takeWhile (· ≠ 0)

/-- `rSupport` of a value. -/
def readRedundancyType (argValue : List UInt8) : Int :=
  if startsWith argValue (ascii "standalone") then 0
  else if startsWith argValue (ascii "cold") then 1
  else if startsWith argValue (ascii "warm") then 2
  else if startsWith argValue (ascii "hot") then 3
  else if startsWith argValue (ascii "transparent") then 4
  else if startsWith argValue (ascii "hot+") then 5
  else -1

/-- `state` of a value. -/
def readState (argValue : List UInt8) : Int :=
  if startsWith argValue (ascii "active") then 1 else 0

/-- `aPriority` of a value. -/
def readAvailabilityPriority (argValue : List UInt8) : Bool :=
  startsWith argValue (ascii "true")

/-! ### The loop -/

/-- The assignment of a value to the field of a keyword. -/
def assign (config : ZkUAConfig) (argument argValue : List UInt8) : ZkUAConfig :=
  if startsWith argument (ascii "Hostname") then
    { config with hostname := readString argValue }
  else if startsWith argument (ascii "PortNumber") then
    -- `strtol`, as `long` has the range of `long long`
    { config with uaPort := strtoll argValue }
  else if startsWith argument (ascii "GroupGUID") then
    { config with guid := readGuid argValue }
  else if startsWith argument (ascii "RedundancyType") then
    { config with rSupport := readRedundancyType argValue }
  else if startsWith argument (ascii "State") then
    { config with state := readState argValue }
  else if startsWith argument (ascii "AvailabilityPriority") then
    { config with aPriority := readAvailabilityPriority argValue }
  else if startsWith argument (ascii "Username") then
    { config with username := readString argValue }
  else if startsWith argument (ascii "Password") then
    { config with password := readString argValue }
  else if startsWith argument (ascii "ServerId") then
    { config with serverId := readString argValue }
  else if startsWith argument (ascii "ZooKeeperQuorum") then
    { config with zooKeeperQuorum := readString argValue }
  else config

/-- What a call of `fscanf` takes from the file. -/
structure Scan where
  argument : List UInt8
  argValue : List UInt8
  rest : List UInt8

/-- `%s` after blanks, and what is left behind it. -/
def scanWord (text : List UInt8) : List UInt8 × List UInt8 :=
  ((text.dropWhile isSpace).takeWhile (fun c => !isSpace c),
    (text.dropWhile isSpace).dropWhile (fun c => !isSpace c))

/-- `fscanf(confFile, "%s %s\n", argument, argValue)` with both buffers empty before. -/
def fscanf (text : List UInt8) : Scan :=
  let (argument, text) := scanWord text
  let (argValue, text) := scanWord text
  { argument, argValue, rest := text.dropWhile isSpace }

/-- The loop until the end of the file. A word that leaves no place for its terminator is written
over the end of its buffer, and what the reader does then is undefined. -/
def readLoop : Nat → List UInt8 → ZkUAConfig → Option ZkUAConfig
  | 0, _, _ => none
  | fuel + 1, text, config =>
      let scan := fscanf text
      if scan.argument.length < 65535 ∧ scan.argValue.length < 65535 then
        let config := assign config scan.argument scan.argValue
        if scan.rest = [] then some config else readLoop fuel scan.rest config
      else none

/-- `zkUA_readConfFile` on the text of the file. Every call of `fscanf` but the last takes
characters from it. -/
def readConfFile (text : List UInt8) : Option ZkUAConfig :=
  readLoop (text.length + 1) text initialConfig

/-! ### The words that are read -/

/-- The pairs of words of a text. -/
def entries (text : List UInt8) : List (List UInt8 × List UInt8) :=
  Words.pairs (Words.words isSpace text)

theorem scanWord_of_nil {text : List UInt8} (h : Words.words isSpace text = []) :
  scanWord text = ([], [])
  := by
  rw [scanWord, Words.dropWhile_eq_nil_iff.mpr h]
  rfl

/-- A scan takes the first word and leaves the others. -/
theorem scanWord_of_cons {text w : List UInt8} {ws : List (List UInt8)}
    (h : Words.words isSpace text = w :: ws) :
  (scanWord text).1 = w ∧ Words.words isSpace (scanWord text).2 = ws ∧
    (scanWord text).2.length < text.length
  := by
  have hle := (List.dropWhile_suffix (l := text) isSpace).length_le
  cases hdrop : text.dropWhile isSpace with
  | nil =>
      rw [Words.dropWhile_eq_nil_iff.mp hdrop] at h
      cases h
  | cons c rest =>
      have hc : isSpace c = false := Words.blank_of_dropWhile hdrop
      rw [← Words.words_dropWhile, hdrop, Words.words_takeWhile hc] at h
      obtain ⟨hw, hws⟩ := List.cons.inj h
      have hrest : (c :: rest).dropWhile (fun c => !isSpace c)
          = rest.dropWhile (fun c => !isSpace c) := by
        rw [List.dropWhile_cons_of_pos]
        simp [hc]
      have hlt := (List.dropWhile_suffix (l := rest) (fun c => !isSpace c)).length_le
      rw [scanWord, hdrop]
      use hw, hws
      rw [hdrop, List.length_cons] at hle
      rw [hrest]
      apply lt_of_le_of_lt hlt
      omega

theorem fscanf_of_nil {text : List UInt8} (h : Words.words isSpace text = []) :
  fscanf text = { argument := [], argValue := [], rest := [] }
  := by
  have hscan := scanWord_of_nil h
  have hnil : scanWord [] = ([], []) := rfl
  simp only [fscanf, hscan, hnil, List.dropWhile_nil]

/-- The last word of an odd number is read without a value. -/
theorem fscanf_of_singleton {text w : List UInt8} (h : Words.words isSpace text = [w]) :
  fscanf text = { argument := w, argValue := [], rest := [] }
  := by
  obtain ⟨hw, hws, -⟩ := scanWord_of_cons h
  have hscan := scanWord_of_nil hws
  simp only [fscanf, hscan, hw, List.dropWhile_nil]

/-- Two words are read as a keyword and its value, whatever blanks are between them. -/
theorem fscanf_of_cons {text w v : List UInt8} {ws : List (List UInt8)}
    (h : Words.words isSpace text = w :: v :: ws) :
  (fscanf text).argument = w ∧ (fscanf text).argValue = v ∧
    Words.words isSpace (fscanf text).rest = ws ∧ (fscanf text).rest.length < text.length ∧
    ((fscanf text).rest = [] ↔ ws = [])
  := by
  obtain ⟨hw, hws, hlt⟩ := scanWord_of_cons h
  obtain ⟨hv, hvs, hlt'⟩ := scanWord_of_cons hws
  have hle := (List.dropWhile_suffix (l := (scanWord (scanWord text).2).2) isSpace).length_le
  have hrest : (fscanf text).rest = (scanWord (scanWord text).2).2.dropWhile isSpace := rfl
  refine ⟨hw, hv, ?_, ?_, ?_⟩
  · rw [hrest, Words.words_dropWhile, hvs]
  · rw [hrest]
    omega
  · rw [hrest, Words.dropWhile_eq_nil_iff, hvs]

theorem assign_nil (config : ZkUAConfig) (argValue : List UInt8) :
  assign config [] argValue = config
  := rfl

/-- The words fit the buffers they are read to. -/
def Fitting (ws : List (List UInt8)) : Prop := ∀ w ∈ ws, w.length < 65535

instance (ws : List (List UInt8)) : Decidable (Fitting ws) :=
  inferInstanceAs (Decidable (∀ w ∈ ws, w.length < 65535))

theorem fitting_cons {w : List UInt8} {ws : List (List UInt8)} :
  Fitting (w :: ws) ↔ w.length < 65535 ∧ Fitting ws
  := List.forall_mem_cons

/-- The loop makes the assignments of the pairs of words, if all words fit the buffers. -/
theorem readLoop_eq {fuel : Nat} {text : List UInt8} (config : ZkUAConfig)
    (hfuel : text.length < fuel) :
  readLoop fuel text config =
    if Fitting (Words.words isSpace text) then
      some ((entries text).foldl (fun config entry => assign config entry.1 entry.2) config)
    else none
  := by
  induction fuel generalizing text config with
  | zero => omega
  | succ fuel ih =>
      rw [entries]
      cases hwords : Words.words isSpace text with
      | nil => simp [readLoop, fscanf_of_nil hwords, assign_nil, Words.pairs, Fitting]
      | cons w ws =>
          cases ws with
          | nil => simp [readLoop, fscanf_of_singleton hwords, Words.pairs, Fitting]
          | cons v ws =>
              obtain ⟨hargument, hargValue, hrest, hlt, hend⟩ := fscanf_of_cons hwords
              rw [readLoop]
              dsimp only
              rw [hargument, hargValue]
              by_cases hfit : w.length < 65535 ∧ v.length < 65535
              · simp only [fitting_cons, hfit, true_and, and_self, if_true, Words.pairs,
                  List.foldl_cons]
                by_cases hws : ws = []
                · rw [if_pos (hend.mpr hws), hws]
                  rfl
                · rw [if_neg (fun h => hws (hend.mp h)), ih _ (by omega), entries, hrest]
              · rw [if_neg hfit, if_neg]
                rw [fitting_cons, fitting_cons]
                rintro ⟨hw, hv, -⟩
                apply hfit ⟨hw, hv⟩

/-- A text is read exactly when its words fit the buffers, and gives the configuration that its
pairs of words assign. -/
theorem readConfFile_eq (text : List UInt8) :
  readConfFile text =
    if Fitting (Words.words isSpace text) then
      some ((entries text).foldl (fun config entry => assign config entry.1 entry.2)
        initialConfig)
    else none
  := readLoop_eq initialConfig (by omega)

end Zuth
