import UaRateThrottling.CString

/-!
# URL encoding

`zk_urlEncode.c`: the bytes of an endpoint URL that are not allowed in the name of a ZooKeeper
node are escaped. A `char` is signed, so that the bytes from `0x80` on are negative when they are
shifted and put together again.

`urlDecode_urlEncode` says that the encoding is undone, and that it makes one component of a path.
-/

namespace Zuth

/-! ### Characters -/

/-- `isdigit`, in the C locale. -/
def isDigitChar (ch : Int8) : Bool := 48 ≤ ch && ch ≤ 57

/-- `isalnum`, in the C locale: no negative character is one. -/
def isAlnumChar (ch : Int8) : Bool :=
  isDigitChar ch || (65 ≤ ch && ch ≤ 90) || (97 ≤ ch && ch ≤ 122)

/-- `tolower`, in the C locale. -/
def toLowerChar (ch : Int8) : Int8 := if 65 ≤ ch && ch ≤ 90 then ch + 32 else ch

/-- `from_hex` -/
def fromHex (ch : Int8) : Int8 :=
  if isDigitChar ch then ch - 48 else toLowerChar ch - 97 + 10

/-- `to_hex` -/
def toHex (code : Int8) : Int8 :=
  let digit := code &&& 15
  if digit < 10 then digit + 48 else digit + 87

/-- The characters that are not escaped: letters, digits, `-`, `_`, `.` and `~`. -/
def isUnreserved (ch : Int8) : Bool :=
  isAlnumChar ch || ch == 45 || ch == 95 || ch == 46 || ch == 126

/-- The digits `to_hex` writes. -/
def isLowerHexDigit (ch : Int8) : Bool := isDigitChar ch || (97 ≤ ch && ch ≤ 102)

theorem isLowerHexDigit_toHex (code : Int8) :
  isLowerHexDigit (toHex code)
  := by
  have : ∀ c : BitVec 8, isLowerHexDigit (toHex (Int8.ofBitVec c)) := by decide +kernel
  apply this code.toBitVec

/-- A character is put together from its two digits, also when it is negative. -/
theorem fromHex_shiftLeft_or (ch : Int8) :
  fromHex (toHex (ch >>> 4)) <<< 4 ||| fromHex (toHex (ch &&& 15)) = ch
  := by
  have : ∀ c : BitVec 8,
      fromHex (toHex (Int8.ofBitVec c >>> 4)) <<< 4 ||| fromHex (toHex (Int8.ofBitVec c &&& 15)) =
        Int8.ofBitVec c := by
    decide +kernel
  apply this ch.toBitVec

/-- A digit is not escaped. -/
theorem isUnreserved_of_isLowerHexDigit {ch : Int8} (h : isLowerHexDigit ch) :
  isUnreserved ch
  := by
  have : ∀ c : BitVec 8, isLowerHexDigit (Int8.ofBitVec c) → isUnreserved (Int8.ofBitVec c) := by
    decide +kernel
  apply this ch.toBitVec h

/-! ### Encoding and decoding -/

/-- What `zkUA_url_encode` writes for a character. -/
def encodeChar (c : UInt8) : List UInt8 :=
  let ch := c.toInt8
  if isUnreserved ch then [c]
  else if ch = 32 then [43]
  else [37, (toHex (ch >>> 4)).toUInt8, (toHex (ch &&& 15)).toUInt8]

/-- `zkUA_url_encode`, of the string up to its terminator. -/
def urlEncode (str : List UInt8) : List UInt8 := (str.takeWhile (· ≠ 0)).flatMap encodeChar

/-- What `zkUA_url_decode` writes for the characters of a string. -/
def decodeChars : List UInt8 → List UInt8
  | [] => []
  | c :: str =>
    if c = 37 then
      match str with
      | a :: b :: str => (fromHex a.toInt8 <<< 4 ||| fromHex b.toInt8).toUInt8 :: decodeChars str
      | str => decodeChars str
    else if c = 43 then 32 :: decodeChars str
    else c :: decodeChars str

/-- `zkUA_url_decode`, of the string up to its terminator. -/
def urlDecode (str : List UInt8) : List UInt8 := decodeChars (str.takeWhile (· ≠ 0))

/-- A string in which every `%` is followed by two lower-case hexadecimal digits, and that
otherwise consists of `+` and of characters that are not escaped. -/
inductive Escaped : List UInt8 → Prop where
  | nil : Escaped []
  | unreserved {c : UInt8} {str : List UInt8} (hc : isUnreserved c.toInt8) (h : Escaped str) :
      Escaped (c :: str)
  | space {str : List UInt8} (h : Escaped str) : Escaped (43 :: str)
  | escape {a b : UInt8} {str : List UInt8} (ha : isLowerHexDigit a.toInt8)
      (hb : isLowerHexDigit b.toInt8) (h : Escaped str) : Escaped (37 :: a :: b :: str)

/-- There is no `/`, no blank and no terminator in an escaped string. -/
theorem Escaped.ne {str : List UInt8} (h : Escaped str) {c : UInt8} (hc : c ∈ str) :
  c ≠ 47 ∧ c ≠ 32 ∧ c ≠ 0
  := by
  have hunreserved : ∀ {d : UInt8}, isUnreserved d.toInt8 → d ≠ 47 ∧ d ≠ 32 ∧ d ≠ 0 := by
    intro d hd
    refine ⟨?_, ?_, ?_⟩ <;> rintro rfl <;> cases hd
  induction h with
  | nil => cases hc
  | @unreserved d str hd h ih =>
      rcases List.mem_cons.mp hc with rfl | hc
      · apply hunreserved hd
      · apply ih hc
  | @space str h ih =>
      rcases List.mem_cons.mp hc with rfl | hc
      · decide
      · apply ih hc
  | @escape a b str ha hb h ih =>
      simp only [List.mem_cons] at hc
      rcases hc with rfl | rfl | rfl | hc
      · decide
      · apply hunreserved (isUnreserved_of_isLowerHexDigit ha)
      · apply hunreserved (isUnreserved_of_isLowerHexDigit hb)
      · apply ih hc

/-- A character that is no `%` is decoded by itself. -/
theorem decodeChars_cons {c : UInt8} (hc : c ≠ 37) (str : List UInt8) :
  decodeChars (c :: str) = (if c = 43 then 32 else c) :: decodeChars str
  := by
  rw [decodeChars.eq_def]
  simp only [hc, if_false]
  split <;> rfl

/-- A character is decoded from what is written for it. -/
theorem decodeChars_encodeChar (c : UInt8) (str : List UInt8) :
  decodeChars (encodeChar c ++ str) = c :: decodeChars str
  := by
  simp only [encodeChar]
  split
  · rename_i hc
    have hpercent : c ≠ 37 := by
      rintro rfl
      cases hc
    have hplus : c ≠ 43 := by
      rintro rfl
      cases hc
    rw [List.singleton_append, decodeChars_cons hpercent, if_neg hplus]
  · split
    · rename_i hspace
      have hc : c = 32 := by
        rw [← UInt8.toUInt8_toInt8 c, hspace]
        rfl
      rw [hc, List.singleton_append, decodeChars_cons (by decide)]
      rfl
    · have happend := fromHex_shiftLeft_or c.toInt8
      simp only [List.cons_append, List.nil_append, decodeChars, if_true, Int8.toInt8_toUInt8,
        happend, UInt8.toUInt8_toInt8]

theorem decodeChars_flatMap (str : List UInt8) :
  decodeChars (str.flatMap encodeChar) = str
  := by
  induction str with
  | nil => rfl
  | cons c str ih => rw [List.flatMap_cons, decodeChars_encodeChar, ih]

theorem escaped_flatMap (str : List UInt8) :
  Escaped (str.flatMap encodeChar)
  := by
  induction str with
  | nil => apply Escaped.nil
  | cons c str ih =>
      rw [List.flatMap_cons]
      simp only [encodeChar]
      split
      · rename_i hc
        apply Escaped.unreserved hc ih
      · split
        · apply Escaped.space ih
        · apply Escaped.escape _ _ ih
          · rw [Int8.toInt8_toUInt8]
            apply isLowerHexDigit_toHex
          · rw [Int8.toInt8_toUInt8]
            apply isLowerHexDigit_toHex

/-- An encoded string has no terminator in it. -/
theorem takeWhile_flatMap (str : List UInt8) :
  (str.flatMap encodeChar).takeWhile (· ≠ 0) = str.flatMap encodeChar
  := by
  apply takeWhile_ne_zero
  intro hmem
  apply ((escaped_flatMap str).ne hmem).2.2 rfl

theorem length_encodeChar_le (c : UInt8) :
  (encodeChar c).length ≤ 3
  := by
  simp only [encodeChar]
  split
  · simp
  · split <;> simp

theorem length_flatMap_le (str : List UInt8) :
  (str.flatMap encodeChar).length ≤ 3 * str.length
  := by
  induction str with
  | nil => simp
  | cons c str ih =>
      have := length_encodeChar_le c
      rw [List.flatMap_cons, List.length_append, List.length_cons]
      omega

theorem length_decodeChars_le (str : List UInt8) :
  (decodeChars str).length ≤ str.length
  := by
  fun_induction decodeChars str with
  | case1 => simp
  | case2 a b str ih =>
      simp only [List.length_cons] at ih ⊢
      omega
  | case3 str hshort ih =>
      rw [List.length_cons]
      omega
  | case4 str hc ih =>
      simp only [List.length_cons] at ih ⊢
      omega
  | case5 c str hc hc' ih =>
      simp only [List.length_cons] at ih ⊢
      omega

/-- Encoding makes a string at most three times as long. -/
theorem length_urlEncode_le (str : List UInt8) :
  (urlEncode str).length ≤ 3 * str.length
  := by
  have hflatMap := length_flatMap_le (str.takeWhile (· ≠ 0))
  have htakeWhile := (List.takeWhile_prefix (l := str) (· ≠ 0)).length_le
  rw [urlEncode]
  omega

theorem escaped_urlEncode (str : List UInt8) :
  Escaped (urlEncode str)
  := escaped_flatMap _

/-- Different strings have different encodings. -/
theorem urlEncode_inj {str str' : List UInt8} (h : 0 ∉ str) (h' : 0 ∉ str') :
  urlEncode str = urlEncode str' ↔ str = str'
  := by
  constructor
  · intro heq
    have hdecode := congrArg decodeChars heq
    rwa [urlEncode, urlEncode, decodeChars_flatMap, decodeChars_flatMap, takeWhile_ne_zero h,
      takeWhile_ne_zero h'] at hdecode
  · rintro rfl
    rfl

/-- Decoding makes no string longer. -/
theorem length_urlDecode_le (str : List UInt8) :
  (urlDecode str).length ≤ str.length
  := by
  apply Nat.le_trans (length_decodeChars_le _)
  apply (List.takeWhile_prefix _).length_le

/-- A string is read back from its encoding, and the encoding is one component of a path, of at
most three times the length. -/
theorem urlDecode_urlEncode {str : List UInt8} (h : 0 ∉ str) :
  urlDecode (urlEncode str) = str ∧ Escaped (urlEncode str) ∧
    (∀ c ∈ urlEncode str, c ≠ 47 ∧ c ≠ 32) ∧ (urlEncode str).length ≤ 3 * str.length ∧
    ∀ t, (urlDecode t).length ≤ t.length
  := by
  have hdecode : urlDecode (urlEncode str) = str := by
    rw [urlEncode, takeWhile_ne_zero h, urlDecode, takeWhile_flatMap, decodeChars_flatMap]
  use hdecode, escaped_urlEncode str
  constructor
  · intro c hc
    obtain ⟨hslash, hspace, -⟩ := (escaped_urlEncode str).ne hc
    use hslash, hspace
  · use length_urlEncode_le str
    apply length_urlDecode_le

theorem urlDecode_urlEncode_allKinds :
  urlEncode [97, 47, 195, 32, 37, 43] =
      [97, 37, 50, 102, 37, 99, 51, 43, 37, 50, 53, 37, 50, 98] ∧
    urlDecode (urlEncode [97, 47, 195, 32, 37, 43]) = [97, 47, 195, 32, 37, 43]
  := by
  use by decide
  apply (@urlDecode_urlEncode [97, 47, 195, 32, 37, 43] (by decide)).1

end Zuth
