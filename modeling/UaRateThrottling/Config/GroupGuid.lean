import UaRateThrottling.Config.Keyword

/-!
# The group GUID of a configuration

The reader cuts the value of the group GUID at fixed offsets, with a step over the last dash, and
converts every piece on its own. The server and the client print the GUID again and make the path
of their group from it.

For a value in canonical form the pieces are its groups of digits. So it is printed as it was
written, with upper-case letters, and two configurations name the same group exactly when their
values differ in the case of letters at most.
-/

namespace Zuth

/-- The text of the group GUID that `init_ZUTH_Server` and `init_UA_client` print. -/
def ZkUAConfig.groupGuid (config : ZkUAConfig) : List UInt8 :=
  snprintf 65535 (printGuid config.guid)

/-- A number of hexadecimal digits of either case. -/
structure Digits (w : Nat) where
  chars : List UInt8
  length_eq : chars.length = w
  isDigit : ∀ c ∈ chars, Hex.isDigit c

/-- A GUID in canonical form. -/
structure CanonicalGuid where
  group1 : Digits 8
  group2 : Digits 4
  group3 : Digits 4
  group4 : Digits 4
  group5 : Digits 12

/-- The characters of a GUID in canonical form. -/
def CanonicalGuid.text (g : CanonicalGuid) : List UInt8 :=
  g.group1.chars ++ [45] ++ g.group2.chars ++ [45] ++ g.group3.chars ++ [45] ++
    g.group4.chars ++ [45] ++ g.group5.chars

/-! ### One piece -/

/-- The piece between what comes before and after it. -/
theorem slice_append (before s after : List UInt8) :
  slice (before ++ s ++ after) before.length s.length = s
  := by
  rw [slice, List.append_assoc, List.drop_left, List.take_left]

/-- Digits that fill a field are read to it and printed as upper-case digits. -/
theorem numeral_strtoul {s : List UInt8} {w bits : Nat} (hlength : s.length = w)
    (hdigit : ∀ c ∈ s, Hex.isDigit c) (hw : w ≤ 16) (hbits : 2 ^ bits = 16 ^ w) :
  Hex.numeral w (strtoul s % 2 ^ bits) = s.map Hex.upper
  := by
  subst hlength
  have hlt := Hex.value_map_upper_lt hdigit
  rw [strtoul_of_digits hdigit hw, hbits, Nat.mod_eq_of_lt hlt, Hex.numeral_value hdigit]

/-! ### The bytes of `data4` -/

theorem exists_pair {s : List UInt8} (h : 2 ≤ s.length) :
  ∃ a b t, s = a :: b :: t
  := by
  cases s with
  | nil => cases h
  | cons a s =>
      cases s with
      | nil => exact absurd h (by simp)
      | cons b t => exact ⟨a, b, t, rfl⟩

/-- Bytes are read two digits at a time, as long as the dash is not among them. -/
theorem hexBytes_readData4 {dCnt : Nat} (before s after : List UInt8)
    (hlength : s.length = 2 * dCnt) (hdigit : ∀ c ∈ s, Hex.isDigit c)
    (hdash : before.length + 2 * dCnt ≤ 23 ∨ 23 < before.length) :
  hexBytes (readData4 (before ++ s ++ after) dCnt before.length) = s.map Hex.upper
  := by
  induction dCnt generalizing before s with
  | zero =>
      rw [List.length_eq_zero_iff.mp hlength]
      rfl
  | succ dCnt ih =>
      obtain ⟨a, b, s, rfl⟩ := exists_pair (s := s) (by omega)
      have hpair : ∀ c ∈ [a, b], Hex.isDigit c := by
        intro c hc
        apply hdigit c
        apply List.mem_append_left s hc
      have hslice : slice (before ++ (a :: b :: s) ++ after) before.length 2 = [a, b] := by
        have h := slice_append before [a, b] (s ++ after)
        simpa using h
      have hbyte : Hex.numeral 2 (UInt8.ofNat (strtoul [a, b])).toNat = [a, b].map Hex.upper := by
        rw [UInt8.toNat_ofNat']
        apply @numeral_strtoul _ 2 8 rfl hpair (by decide) (by decide)
      rw [List.length_cons, List.length_cons] at hlength
      have hbytes := ih (before ++ [a, b]) s (by omega) (fun c hc => hdigit c (by simp [hc]))
        (by simp only [List.length_append, List.length_cons, List.length_nil]; omega)
      have happend : before ++ [a, b] ++ s = before ++ (a :: b :: s) := by simp
      rw [happend, List.length_append, List.length_cons, List.length_singleton] at hbytes
      rw [readData4, if_neg (by omega), hslice, hexBytes, List.flatMap_cons, hbyte]
      rw [hexBytes] at hbytes
      rw [hbytes]
      rfl

/-! ### The GUID -/

namespace CanonicalGuid

variable (g : CanonicalGuid)

theorem slice_group1 :
  slice g.text 0 8 = g.group1.chars
  := by
  have h := slice_append [] g.group1.chars
    ([45] ++ g.group2.chars ++ [45] ++ g.group3.chars ++ [45] ++ g.group4.chars ++ [45] ++
      g.group5.chars)
  rw [g.group1.length_eq] at h
  simpa [text] using h

theorem slice_group2 :
  slice g.text (8 + 1) 4 = g.group2.chars
  := by
  have h := slice_append (g.group1.chars ++ [45]) g.group2.chars
    ([45] ++ g.group3.chars ++ [45] ++ g.group4.chars ++ [45] ++ g.group5.chars)
  rw [List.length_append, g.group1.length_eq, g.group2.length_eq] at h
  simpa [text] using h

theorem slice_group3 :
  slice g.text 14 4 = g.group3.chars
  := by
  have h := slice_append (g.group1.chars ++ [45] ++ g.group2.chars ++ [45]) g.group3.chars
    ([45] ++ g.group4.chars ++ [45] ++ g.group5.chars)
  simp only [List.length_append, g.group1.length_eq, g.group2.length_eq, g.group3.length_eq] at h
  simpa [text] using h

/-- The bytes before the last dash and those behind it. -/
theorem readData4_text :
  hexBytes (readData4 g.text 2 19) = g.group4.chars.map Hex.upper ∧
    hexBytes (readData4 g.text 6 24) = g.group5.chars.map Hex.upper
  := by
  constructor
  · have h := @hexBytes_readData4 2
      (g.group1.chars ++ [45] ++ g.group2.chars ++ [45] ++ g.group3.chars ++ [45])
      g.group4.chars ([45] ++ g.group5.chars) g.group4.length_eq g.group4.isDigit
    simp only [List.length_append, g.group1.length_eq, g.group2.length_eq,
      g.group3.length_eq] at h
    simpa [text] using h
  · have h := @hexBytes_readData4 6
      (g.group1.chars ++ [45] ++ g.group2.chars ++ [45] ++ g.group3.chars ++ [45] ++
        g.group4.chars ++ [45])
      g.group5.chars [] g.group5.length_eq g.group5.isDigit
    simp only [List.length_append, g.group1.length_eq, g.group2.length_eq, g.group3.length_eq,
      g.group4.length_eq] at h
    simpa [text] using h

/-- A GUID in canonical form is printed as it was written, with upper-case letters. -/
theorem printGuid_readGuid :
  printGuid (readGuid g.text) = [123] ++ g.text.map Hex.upper ++ [125]
  := by
  have hdata4 : (readGuid g.text).data4.toList = readData4 g.text 2 19 ++ readData4 g.text 6 24 :=
    rfl
  have htake : (readGuid g.text).data4.toList.take 2 = readData4 g.text 2 19 := by
    rw [hdata4, List.take_left' (length_readData4 ..)]
  have hdrop : (readGuid g.text).data4.toList.drop 2 = readData4 g.text 6 24 := by
    rw [hdata4, List.drop_left' (length_readData4 ..)]
  have hdata1 : Hex.numeral 8 (readGuid g.text).data1.toNat = g.group1.chars.map Hex.upper := by
    rw [readGuid, slice_group1, UInt32.toNat_ofNat']
    apply numeral_strtoul g.group1.length_eq g.group1.isDigit (by decide) (by decide)
  have hdata2 : Hex.numeral 4 (readGuid g.text).data2.toNat = g.group2.chars.map Hex.upper := by
    rw [readGuid, slice_group2, UInt16.toNat_ofNat']
    apply numeral_strtoul g.group2.length_eq g.group2.isDigit (by decide) (by decide)
  have hdata3 : Hex.numeral 4 (readGuid g.text).data3.toNat = g.group3.chars.map Hex.upper := by
    rw [readGuid, slice_group3, UInt16.toNat_ofNat']
    apply numeral_strtoul g.group3.length_eq g.group3.isDigit (by decide) (by decide)
  rw [printGuid, hdata1, hdata2, hdata3, htake, hdrop, g.readData4_text.1, g.readData4_text.2, text]
  simp only [List.map_append, List.append_assoc]
  rfl

end CanonicalGuid

/-! ### The configuration -/

/-- The groups of two configurations are the same exactly when the values are, up to the case of
letters. -/
theorem groupGuidPath_eq_iff {config config' : ZkUAConfig} {g g' : CanonicalGuid}
    (h : config.guid = readGuid g.text) (h' : config'.guid = readGuid g'.text) :
  groupGuidPath config.groupGuid = groupGuidPath config'.groupGuid ↔
    g.text.map Hex.upper = g'.text.map Hex.upper
  := by
  have hgroupGuid : ∀ config : ZkUAConfig, config.groupGuid = printGuid config.guid := by
    intro config
    rw [ZkUAConfig.groupGuid, snprintf_of_lt]
    rw [length_printGuid]
    decide
  rw [hgroupGuid, hgroupGuid, groupGuidPath_eq, groupGuidPath_eq, List.append_cancel_left_eq, h, h',
    g.printGuid_readGuid, g'.printGuid_readGuid, List.append_cancel_right_eq,
    List.append_cancel_left_eq]

/-- A group GUID in canonical form survives the configuration, and two configurations have the same
group path exactly when their GUIDs are the same up to the case of letters. -/
theorem groupGuid_survives {text text' : List UInt8} {g g' : CanonicalGuid}
    (hfit : Fitting (Words.words isSpace text)) (hfit' : Fitting (Words.words isSpace text'))
    (hvalue : lastValue .groupGUID (entries text) = some g.text)
    (hvalue' : lastValue .groupGUID (entries text') = some g'.text) :
  ∃ config config', readConfFile text = some config ∧ readConfFile text' = some config' ∧
    printGuid config.guid = [123] ++ g.text.map Hex.upper ++ [125] ∧
    (groupGuidPath config.groupGuid = groupGuidPath config'.groupGuid ↔
      g.text.map Hex.upper = g'.text.map Hex.upper)
  := by
  have hread : ∀ {text : List UInt8} {g : CanonicalGuid}, Fitting (Words.words isSpace text) →
      lastValue .groupGUID (entries text) = some g.text →
      ∃ config, readConfFile text = some config ∧ config.guid = readGuid g.text := by
    intro text g hfit hvalue
    refine ⟨_, (readConfFile_eq text).trans (if_pos hfit), ?_⟩
    have hguid := get_foldl_assign initialConfig (entries text) .groupGUID
    rw [hvalue] at hguid
    apply hguid
  obtain ⟨config, hconfig, hguid⟩ := hread hfit hvalue
  obtain ⟨config', hconfig', hguid'⟩ := hread hfit' hvalue'
  refine ⟨config, config', hconfig, hconfig', ?_, groupGuidPath_eq_iff hguid hguid'⟩
  rw [hguid, g.printGuid_readGuid]

/-- The same GUID with letters of either case. -/
theorem groupGuid_survives_case :
  ∃ config config',
    readConfFile (ascii "GroupGUID 8f9a1b2c-3D4e-5f60-7182-93a4b5c6d7e8\n") = some config ∧
    readConfFile (ascii "State on\nGroupGUID 8F9A1B2C-3D4E-5f60-7182-93a4b5c6d7e8") = some config' ∧
    printGuid config.guid = [123] ++ ascii "8F9A1B2C-3D4E-5F60-7182-93A4B5C6D7E8" ++ [125] ∧
    groupGuidPath config.groupGuid = groupGuidPath config'.groupGuid
  := by
  obtain ⟨config, config', hread, hread', hprint, hpath⟩ := @groupGuid_survives
    (ascii "GroupGUID 8f9a1b2c-3D4e-5f60-7182-93a4b5c6d7e8\n")
    (ascii "State on\nGroupGUID 8F9A1B2C-3D4E-5f60-7182-93a4b5c6d7e8")
    { group1 := ⟨ascii "8f9a1b2c", rfl, List.all_eq_true.mp (by decide)⟩
      group2 := ⟨ascii "3D4e", rfl, List.all_eq_true.mp (by decide)⟩
      group3 := ⟨ascii "5f60", rfl, List.all_eq_true.mp (by decide)⟩
      group4 := ⟨ascii "7182", rfl, List.all_eq_true.mp (by decide)⟩
      group5 := ⟨ascii "93a4b5c6d7e8", rfl, List.all_eq_true.mp (by decide)⟩ }
    { group1 := ⟨ascii "8F9A1B2C", rfl, List.all_eq_true.mp (by decide)⟩
      group2 := ⟨ascii "3D4E", rfl, List.all_eq_true.mp (by decide)⟩
      group3 := ⟨ascii "5f60", rfl, List.all_eq_true.mp (by decide)⟩
      group4 := ⟨ascii "7182", rfl, List.all_eq_true.mp (by decide)⟩
      group5 := ⟨ascii "93a4b5c6d7e8", rfl, List.all_eq_true.mp (by decide)⟩ }
    (by decide) (by decide) (by decide) (by decide)
  exact ⟨config, config', hread, hread', hprint.trans (by decide), hpath.mpr (by decide)⟩

end Zuth
