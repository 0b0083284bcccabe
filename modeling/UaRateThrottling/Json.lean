import UaRateThrottling.Decimal

/-!
# JSON documents

Objects whose members are integers and strings of printable characters, as a text with one
member to a line, and a parser for them.

A parser that accepts a text accepts it also when more text follows, and leaves that alone
(`Extends`). So what it reads to the end of a text is not read from a part of the text
(`run_eq_none_of_part`): a document of which the end is missing is no document.
-/

namespace Json

/-! ### Documents -/

/-- The value of a member. -/
inductive Value where
  | integer (n : Nat)
  | string (s : List UInt8)
deriving DecidableEq

/-- An object, member by member. -/
abbrev Object := List (List UInt8 × Value)

/-- The characters a string holds as they are. -/
def isPlain (c : UInt8) : Bool := 32 ≤ c && c ≤ 126 && c ≠ 34 && c ≠ 92

/-- The integers have 63 bits, and no character of a string is escaped. -/
def Value.Plain : Value → Prop
  | .integer n => n < 2 ^ 63
  | .string s => ∀ c ∈ s, isPlain c

/-- The keys are different, and keys and values are plain. -/
structure Plain (o : Object) : Prop where
  nodup : (o.map Prod.fst).Nodup
  keys : ∀ m ∈ o, ∀ c ∈ m.1, isPlain c
  values : ∀ m ∈ o, m.2.Plain

/-- The value of the member with the given key. -/
def get (o : Object) (key : List UInt8) : Option Value := o.lookup key

/-! ### The text of a document -/

/-- The text of a value. -/
def dumpValue : Value → List UInt8
  | .integer n => Decimal.numeral n
  | .string s => 34 :: (s ++ [34])

/-- The text of a member: its key and its value. -/
def dumpMember (m : List UInt8 × Value) : List UInt8 :=
  34 :: (m.1 ++ 34 :: 58 :: 32 :: dumpValue m.2)

/-- The members of an object after the first one, and its end. -/
def dumpRest : Object → List UInt8
  | [] => [10, 125]
  | m :: o => 44 :: 10 :: 32 :: (dumpMember m ++ dumpRest o)

/-- The text of an object. -/
def dump : Object → List UInt8
  | [] => [123, 125]
  | m :: o => 123 :: 10 :: 32 :: (dumpMember m ++ dumpRest o)

/-- How long the text of a value is. -/
def Value.size : Value → Nat
  | .integer n => (Decimal.numeral n).length
  | .string s => s.length + 2

/-- How long the text of an object with members is. -/
def size (o : Object) : Nat := 2 + (o.map (fun m => m.1.length + m.2.size + 7)).sum

@[simp]
theorem length_dumpValue (v : Value) :
  (dumpValue v).length = v.size
  := by
  cases v with
  | integer n => rfl
  | string s => simp [dumpValue, Value.size]

@[simp]
theorem length_dumpMember (m : List UInt8 × Value) :
  (dumpMember m).length = m.1.length + m.2.size + 4
  := by
  simp only [dumpMember, List.length_cons, List.length_append, length_dumpValue]
  omega

theorem dumpMember_eq (m : List UInt8 × Value) :
  dumpMember m = 34 :: (dumpMember m).tail
  := rfl

theorem length_dumpRest (o : Object) :
  (dumpRest o).length = size o
  := by
  induction o with
  | nil => rfl
  | cons m o ih =>
      simp only [dumpRest, List.length_cons, List.length_append, length_dumpMember, ih, size,
        List.map_cons, List.sum_cons]
      omega

theorem dump_eq {o : Object} (h : o ≠ []) :
  dump o = 123 :: (dumpRest o).tail
  := by
  cases o with
  | nil => contradiction
  | cons m o => rfl

theorem length_dump {o : Object} (h : o ≠ []) :
  (dump o).length = size o
  := by
  have hpos : 0 < size o := by
    rw [size]
    omega
  rw [dump_eq h, List.length_cons, List.length_tail, length_dumpRest]
  omega

/-- No byte of the text of a plain value is zero. -/
theorem ne_zero_of_mem_dumpValue {v : Value} (h : v.Plain) {c : UInt8} (hc : c ∈ dumpValue v) :
  c ≠ 0
  := by
  cases v with
  | integer n =>
      have := Decimal.isDigit_of_mem_numeral hc
      rintro rfl
      cases this
  | string s =>
      simp only [dumpValue, List.mem_cons, List.mem_append, List.not_mem_nil, or_false] at hc
      rintro rfl
      rcases hc with hc | hc | hc
      · cases hc
      · cases h 0 hc
      · cases hc

/-- No byte of the text of a plain member is zero. -/
theorem ne_zero_of_mem_dumpMember {m : List UInt8 × Value} (hkey : ∀ c ∈ m.1, isPlain c)
    (hvalue : m.2.Plain) {c : UInt8} (hc : c ∈ dumpMember m) :
  c ≠ 0
  := by
  simp only [dumpMember, List.mem_cons, List.mem_append] at hc
  rintro rfl
  rcases hc with hc | hc | hc | hc | hc | hc
  · cases hc
  · cases hkey 0 hc
  · cases hc
  · cases hc
  · cases hc
  · apply ne_zero_of_mem_dumpValue hvalue hc rfl

theorem Plain.tail {m : List UInt8 × Value} {o : Object} (h : Plain (m :: o)) :
  Plain o
  := by
  constructor
  · apply (List.nodup_cons.mp h.nodup).2
  · intro m' hm'
    apply h.keys m' (List.mem_cons_of_mem m hm')
  · intro m' hm'
    apply h.values m' (List.mem_cons_of_mem m hm')

theorem ne_zero_of_mem_dumpRest {o : Object} (h : Plain o) {c : UInt8} (hc : c ∈ dumpRest o) :
  c ≠ 0
  := by
  induction o with
  | nil =>
      rintro rfl
      simp [dumpRest] at hc
  | cons m o ih =>
      have hmember := ne_zero_of_mem_dumpMember (c := c) (h.keys m (by simp)) (h.values m (by simp))
      simp only [dumpRest, List.mem_cons, List.mem_append] at hc
      grind [h.tail]

/-- No byte of the text of a plain object is zero. -/
theorem ne_zero_of_mem_dump {o : Object} (h : Plain o) {c : UInt8} (hc : c ∈ dump o) :
  c ≠ 0
  := by
  by_cases ho : o = []
  · rintro rfl
    rw [ho] at hc
    simp [dump] at hc
  · rw [dump_eq ho] at hc
    rcases List.mem_cons.mp hc with rfl | hc
    · decide
    · apply ne_zero_of_mem_dumpRest h (List.mem_of_mem_tail hc)

/-! ### Parsers -/

/-- A parser takes what it reads off the front of a text. -/
abbrev Parser (α : Type) := StateT (List UInt8) Option α

section Extends

variable {α β : Type}

/-- What `p` reads, `q` reads as well, and it leaves alone what follows. -/
def Extends (p q : Parser α) : Prop :=
  ∀ (s : List UInt8) (x : α) (r t : List UInt8),
    p.run s = some (x, r) → q.run (s ++ t) = some (x, r ++ t)

theorem extends_pure (x : α) :
  Extends (pure x) (pure x)
  := by
  intro s y r t h
  obtain ⟨rfl, rfl⟩ := Prod.mk.inj (Option.some.inj h)
  rfl

theorem extends_failure (q : Parser α) :
  Extends failure q
  := by
  intro s y r t h
  cases h

theorem Extends.bind {p p' : Parser α} {q q' : α → Parser β} (hp : Extends p p')
    (hq : ∀ x, Extends (q x) (q' x)) :
  Extends (p >>= q) (p' >>= q')
  := by
  intro s y r t h
  rw [StateT.run_bind] at h ⊢
  obtain ⟨⟨x, r'⟩, hx, hy⟩ := Option.bind_eq_some_iff.mp h
  rw [hp s x r' t hx]
  apply hq x r' y r t hy

theorem Extends.ite {c : Prop} [Decidable c] {p p' q q' : Parser α} (hp : Extends p p')
    (hq : Extends q q') :
  Extends (if c then p else q) (if c then p' else q')
  := by
  split
  · exact hp
  · exact hq

/-- What is read to the end of a text is not read from a part of the text. -/
theorem Extends.run_eq_none_of_part {p q : Parser α} (h : Extends p q) {s u : List UInt8} {x : α}
    (hs : q.run s = some (x, [])) (hu : u <+: s) (hne : u ≠ s) :
  p.run u = none
  := by
  obtain ⟨t, rfl⟩ := hu
  cases hp : p.run u with
  | none => rfl
  | some y =>
      obtain ⟨y, r⟩ := y
      rw [h u y r t hp, Option.some.injEq, Prod.mk.injEq, List.append_eq_nil_iff] at hs
      simp [hs.2.2] at hne

end Extends

/-! ### The parser of documents -/

/-- The bytes between the parts of a document. -/
def isSpace (c : UInt8) : Bool := c == 32 || c == 10 || c == 13 || c == 9

/-- The next byte that is no space. -/
def next : Parser UInt8
  | [] => none
  | c :: s => if isSpace c then next s else some (c, s)

/-- The given byte is next. -/
def expect (c : UInt8) : Parser Unit := do
  if (← next) = c then pure () else failure

/-- The characters before a quote. -/
def parseString : Parser (List UInt8)
  | [] => none
  | c :: s =>
    if c = 34 then some ([], s)
    else if isPlain c then (parseString s).map (fun (v, r) => (c :: v, r))
    else none

/-- The integer of which the first digit is given. Something follows an integer. -/
def parseInteger (c : UInt8) : Parser Nat := fun s =>
  match Decimal.span (c :: s) with
  | (_, []) => none
  | (digits, r) => some (Decimal.value digits, r)

/-- The value of a member. -/
def parseValue : Parser Value := do
  let c ← next
  if c = 34 then return .string (← parseString)
  else if Decimal.isDigit c then return .integer (← parseInteger c)
  else failure

/-- A member, after the quote before its key. -/
def parseMember : Parser (List UInt8 × Value) := do
  let key ← parseString
  expect 58
  return (key, ← parseValue)

/-- The members after the first one, and the end of the object. -/
def parseRest : Nat → Parser Object
  | 0 => failure
  | fuel + 1 => do
    let c ← next
    if c = 125 then return []
    else if c = 44 then
      expect 34
      let m ← parseMember
      return m :: (← parseRest fuel)
    else failure

/-- An object. -/
def parseObject (fuel : Nat) : Parser Object := do
  expect 123
  let c ← next
  if c = 125 then return []
  else if c = 34 then
    let m ← parseMember
    return m :: (← parseRest fuel)
  else failure

/-- The object at the front of a text. -/
def load (s : List UInt8) : Option Object := ((parseObject s.length).run s).map Prod.fst

/-- A byte that is no space is next. -/
theorem run_next {c : UInt8} (hc : isSpace c = false) (s : List UInt8) :
  next.run (c :: s) = some (c, s)
  := by
  rw [StateT.run, next, hc]
  rfl

/-- A space is passed over. -/
theorem run_next_space {c : UInt8} (hc : isSpace c) (s : List UInt8) :
  next.run (c :: s) = next.run s
  := by
  rw [StateT.run, next, hc]
  rfl

theorem run_expect {c : UInt8} (hc : isSpace c = false) (s : List UInt8) :
  (expect c).run (c :: s) = some ((), s)
  := by
  rw [expect, StateT.run_bind, run_next hc]
  simp

theorem run_expect_space {c d : UInt8} (hd : isSpace d) (s : List UInt8) :
  (expect c).run (d :: s) = (expect c).run s
  := by
  rw [expect, StateT.run_bind, StateT.run_bind, run_next_space hd]

/-- The characters of a plain string are read up to the quote. -/
theorem run_parseString {v : List UInt8} (hv : ∀ c ∈ v, isPlain c) (s : List UInt8) :
  parseString.run (v ++ 34 :: s) = some (v, s)
  := by
  induction v with
  | nil => rfl
  | cons c v ih =>
      have hc : c ≠ 34 := by
        rintro rfl
        cases hv 34 (by simp)
      have := ih (fun d hd => hv d (List.mem_cons_of_mem c hd))
      rw [StateT.run] at this ⊢
      rw [List.cons_append, parseString, if_neg hc, if_pos (hv c (by simp)), this]
      rfl

/-- A digit is no space and no quote. -/
theorem isSpace_eq_false_of_isDigit {c : UInt8} (h : Decimal.isDigit c) :
  isSpace c = false ∧ c ≠ 34
  := by
  simp only [Decimal.isDigit, isSpace] at h ⊢
  grind

/-- The digits of an integer are read up to the byte that is no digit. -/
theorem run_parseInteger {n : Nat} {d : UInt8} {ds : List UInt8}
    (hn : Decimal.numeral n = d :: ds) {c : UInt8} (hc : Decimal.isDigit c = false)
    (s : List UInt8) :
  (parseInteger d).run (ds ++ c :: s) = some (n, c :: s)
  := by
  have hspan : Decimal.span (d :: (ds ++ c :: s)) = (Decimal.numeral n, c :: s) := by
    rw [← List.cons_append, ← hn]
    apply Decimal.span_append
    · intro d hd
      apply Decimal.isDigit_of_mem_numeral hd
    · rintro c' hc'
      obtain rfl := Option.some.inj hc'
      exact hc
  simp only [StateT.run, parseInteger, hspan, Decimal.value_numeral]

/-- A plain value is read when a byte follows that is no digit. -/
theorem run_parseValue {v : Value} (hv : v.Plain) {c : UInt8} (hc : Decimal.isDigit c = false)
    (s : List UInt8) :
  parseValue.run (32 :: (dumpValue v ++ c :: s)) = some (v, c :: s)
  := by
  rw [parseValue, StateT.run_bind, run_next_space rfl]
  cases v with
  | integer n =>
      obtain ⟨d, ds, hn⟩ := List.exists_cons_of_ne_nil (Decimal.numeral_ne_nil n)
      have hd : Decimal.isDigit d := by
        apply Decimal.isDigit_of_mem_numeral (n := n)
        simp [hn]
      obtain ⟨hspace, hquote⟩ := isSpace_eq_false_of_isDigit hd
      rw [dumpValue, hn, List.cons_append, run_next hspace]
      simp [hquote, hd, run_parseInteger hn hc]
  | string v =>
      rw [dumpValue, List.cons_append, List.append_assoc, run_next rfl]
      simp [run_parseString hv]

theorem run_parseMember {m : List UInt8 × Value} (hkey : ∀ c ∈ m.1, isPlain c) (hvalue : m.2.Plain)
    {c : UInt8} (hc : Decimal.isDigit c = false) (s : List UInt8) :
  parseMember.run (m.1 ++ 34 :: 58 :: 32 :: (dumpValue m.2 ++ c :: s)) = some (m, c :: s)
  := by
  rw [parseMember, StateT.run_bind, run_parseString hkey]
  simp [run_expect (c := 58) rfl, run_parseValue hvalue hc]

/-- What follows a member starts with no digit. -/
theorem dumpRest_append (o : Object) (s : List UInt8) :
  ∃ c r, dumpRest o ++ s = c :: r ∧ Decimal.isDigit c = false
  := by
  cases o with
  | nil => exact ⟨10, 125 :: s, rfl, rfl⟩
  | cons m o => exact ⟨44, _, rfl, rfl⟩

/-- A member and what follows it are read, once its first quote is. -/
theorem run_members {m : List UInt8 × Value} {o : Object} (h : Plain (m :: o)) {fuel : Nat}
    {s : List UInt8} (ih : (parseRest fuel).run (dumpRest o ++ s) = some (o, s)) :
  (do
    let m ← parseMember
    return m :: (← parseRest fuel) : Parser Object).run
      ((dumpMember m).tail ++ (dumpRest o ++ s)) = some (m :: o, s)
  := by
  obtain ⟨c, r, hr, hc⟩ := dumpRest_append o s
  have hmember := run_parseMember (h.keys m (by simp)) (h.values m (by simp)) hc r
  rw [hr] at ih
  rw [dumpMember, List.tail_cons, List.append_assoc, hr, StateT.run_bind]
  simp only [List.cons_append, hmember]
  simp [ih]

/-- The members of a plain object and its end are read. -/
theorem run_parseRest {o : Object} (h : Plain o) {fuel : Nat} (hfuel : o.length < fuel)
    (s : List UInt8) :
  (parseRest fuel).run (dumpRest o ++ s) = some (o, s)
  := by
  induction o generalizing fuel with
  | nil =>
      obtain ⟨fuel, rfl⟩ := Nat.exists_eq_succ_of_ne_zero (Nat.ne_zero_of_lt hfuel)
      rw [parseRest, StateT.run_bind, dumpRest, List.cons_append, run_next_space rfl,
        List.cons_append, run_next rfl]
      rfl
  | cons m o ih =>
      obtain ⟨fuel, rfl⟩ := Nat.exists_eq_succ_of_ne_zero (Nat.ne_zero_of_lt hfuel)
      have hmembers := run_members h (ih h.tail (Nat.succ_lt_succ_iff.mp hfuel))
      rw [parseRest, StateT.run_bind, dumpRest, List.cons_append, run_next rfl]
      simp only [Option.bind_eq_bind, Option.bind_some, if_neg (by decide : ¬(44 : UInt8) = 125),
        if_true, List.cons_append, List.append_assoc]
      rw [StateT.run_bind, run_expect_space rfl, run_expect_space rfl, dumpMember_eq,
        List.cons_append, run_expect rfl]
      exact hmembers

/-- A plain object is read. -/
theorem run_parseObject {o : Object} (h : Plain o) {fuel : Nat} (hfuel : o.length ≤ fuel)
    (s : List UInt8) :
  (parseObject fuel).run (dump o ++ s) = some (o, s)
  := by
  rw [parseObject, StateT.run_bind]
  cases o with
  | nil =>
      rw [dump, List.cons_append, run_expect rfl]
      simp [run_next (c := 125) rfl]
  | cons m o =>
      have hmembers := run_members h (run_parseRest h.tail hfuel s)
      rw [dump, List.cons_append, run_expect rfl]
      simp only [Option.bind_eq_bind, Option.bind_some, List.cons_append, List.append_assoc]
      rw [StateT.run_bind, run_next_space rfl, run_next_space rfl, dumpMember_eq,
        List.cons_append, run_next rfl]
      exact hmembers

theorem extends_next :
  Extends next next
  := by
  intro s x r t h
  induction s with
  | nil => cases h
  | cons c s ih =>
      simp only [StateT.run, List.cons_append, next] at h ih ⊢
      split at h
      · rename_i hc
        rw [if_pos hc]
        apply ih h
      · rename_i hc
        obtain ⟨rfl, rfl⟩ := Prod.mk.inj (Option.some.inj h)
        rw [if_neg hc]

theorem extends_expect (c : UInt8) :
  Extends (expect c) (expect c)
  := by
  apply extends_next.bind
  intro c'
  apply Extends.ite (extends_pure _) (extends_failure _)

theorem extends_parseString :
  Extends parseString parseString
  := by
  intro s x r t h
  induction s generalizing x with
  | nil => cases h
  | cons c s ih =>
      simp only [StateT.run, List.cons_append, parseString] at h ih ⊢
      split_ifs at h ⊢
      · obtain ⟨rfl, rfl⟩ := Prod.mk.inj (Option.some.inj h)
        rfl
      · obtain ⟨⟨v, r'⟩, hv, heq⟩ := Option.map_eq_some_iff.mp h
        obtain ⟨rfl, rfl⟩ := Prod.mk.inj heq
        rw [ih v hv, Option.map_some]

theorem extends_parseInteger (c : UInt8) :
  Extends (parseInteger c) (parseInteger c)
  := by
  intro s x r t h
  simp only [StateT.run, parseInteger] at h ⊢
  split at h
  · cases h
  · rename_i digits r' hne hspan
    obtain ⟨rfl, rfl⟩ := Prod.mk.inj (Option.some.inj h)
    have hr : (Decimal.span (c :: s)).2 ≠ [] := by
      rw [hspan]
      apply hne
    rw [← List.cons_append, Decimal.span_append_of_ne_nil t hr, hspan]
    split
    · rename_i heq
      simp only [Prod.mk.injEq, List.append_eq_nil_iff] at heq
      cases hne heq.2.1
    · rename_i heq
      obtain ⟨rfl, rfl⟩ := Prod.mk.inj heq
      rfl

theorem extends_parseValue :
  Extends parseValue parseValue
  := by
  apply extends_next.bind
  intro c
  apply Extends.ite
  · apply extends_parseString.bind
    intro v
    apply extends_pure
  · apply Extends.ite
    · apply (extends_parseInteger c).bind
      intro n
      apply extends_pure
    · apply (extends_failure _)

theorem extends_parseMember :
  Extends parseMember parseMember
  := by
  apply extends_parseString.bind
  intro key
  apply (extends_expect 58).bind
  intro _
  apply extends_parseValue.bind
  intro v
  apply extends_pure

theorem extends_parseRest {fuel fuel' : Nat} (h : fuel ≤ fuel') :
  Extends (parseRest fuel) (parseRest fuel')
  := by
  induction fuel generalizing fuel' with
  | zero => apply extends_failure
  | succ fuel ih =>
      obtain ⟨fuel', rfl⟩ := Nat.exists_eq_succ_of_ne_zero (Nat.ne_zero_of_lt h)
      apply extends_next.bind
      intro c
      apply Extends.ite (extends_pure _)
      apply Extends.ite _ (extends_failure _)
      apply (extends_expect 34).bind
      intro _
      apply extends_parseMember.bind
      intro m
      apply (ih (Nat.succ_le_succ_iff.mp h)).bind
      intro o
      apply extends_pure

theorem extends_parseObject {fuel fuel' : Nat} (h : fuel ≤ fuel') :
  Extends (parseObject fuel) (parseObject fuel')
  := by
  apply (extends_expect 123).bind
  intro _
  apply extends_next.bind
  intro c
  apply Extends.ite (extends_pure _)
  apply Extends.ite _ (extends_failure _)
  apply extends_parseMember.bind
  intro m
  apply (extends_parseRest h).bind
  intro o
  apply extends_pure

/-! ### Reading what is written -/

theorem length_le_size (o : Object) :
  o.length ≤ size o
  := by
  induction o with
  | nil => simp
  | cons m o ih =>
      simp only [size, List.length_cons, List.map_cons, List.sum_cons] at ih ⊢
      omega

/-- There are no more members than bytes. -/
theorem length_le_length_dump (o : Object) :
  o.length ≤ (dump o).length
  := by
  by_cases ho : o = []
  · simp [ho]
  · rw [length_dump ho]
    apply length_le_size

/-- A plain object is read back, whatever follows its text. -/
theorem load_dump_append {o : Object} (h : Plain o) (s : List UInt8) :
  load (dump o ++ s) = some o
  := by
  have hfuel : o.length ≤ (dump o ++ s).length := by
    rw [List.length_append]
    have := length_le_length_dump o
    omega
  rw [load, run_parseObject h hfuel]
  rfl

/-- A document of which the end is missing is not read. -/
theorem load_eq_none_of_part {o : Object} (h : Plain o) {s : List UInt8} (hs : s <+: dump o)
    (hne : s ≠ dump o) :
  load s = none
  := by
  have hall : (parseObject (dump o).length).run (dump o) = some (o, []) := by
    have := run_parseObject h (length_le_length_dump o) []
    rwa [List.append_nil] at this
  rw [load, (extends_parseObject hs.length_le).run_eq_none_of_part hall hs hne]
  rfl

/-! ### The length of what is read -/

section

variable {α β : Type}

/-- What `p` reads is no longer, measured by `size`, than what it takes off the text, but for
`extra` bytes read before. -/
def Bounded (extra : Nat) (size : α → Nat) (p : Parser α) : Prop :=
  ∀ (s : List UInt8) (x : α) (r : List UInt8),
    p.run s = some (x, r) → size x + r.length ≤ extra + s.length

theorem bounded_pure {extra : Nat} {size : α → Nat} {x : α} (h : size x ≤ extra) :
  Bounded extra size (pure x)
  := by
  intro s y r hrun
  obtain ⟨rfl, rfl⟩ := Prod.mk.inj (Option.some.inj hrun)
  omega

theorem bounded_failure (extra : Nat) (size : α → Nat) :
  Bounded extra size failure
  := by
  intro s x r h
  cases h

theorem Bounded.bind {extra : Nat} {size : α → Nat} {size' : β → Nat} {p : Parser α}
    {q : α → Parser β} (hp : Bounded extra size p)
    (hq : ∀ x, Bounded (size x) size' (q x)) :
  Bounded extra size' (p >>= q)
  := by
  intro s y r h
  rw [StateT.run_bind] at h
  obtain ⟨⟨x, r'⟩, hx, hy⟩ := Option.bind_eq_some_iff.mp h
  have := hp s x r' hx
  have := hq x r' y r hy
  omega

theorem Bounded.ite {extra : Nat} {size : α → Nat} {c : Prop} [Decidable c] {p q : Parser α}
    (hp : Bounded extra size p) (hq : Bounded extra size q) :
  Bounded extra size (if c then p else q)
  := by
  split
  · exact hp
  · exact hq

/-- What has been read before may be counted as well. -/
theorem Bounded.add {extra : Nat} {size : α → Nat} {p : Parser α} (h : Bounded 0 size p) :
  Bounded extra (fun x => extra + size x) p
  := by
  intro s x r hrun
  have := h s x r hrun
  dsimp only
  omega

end

/-- The length of the string, where there is one. -/
def Value.stringLength : Value → Nat
  | .integer _ => 0
  | .string s => s.length

/-- The length of all strings in an object together. -/
def stringLength (o : Object) : Nat := (o.map (fun m => m.2.stringLength)).sum

theorem stringLength_cons (m : List UInt8 × Value) (o : Object) :
  stringLength (m :: o) = m.2.stringLength + stringLength o
  := by
  rw [stringLength, List.map_cons, List.sum_cons]
  rfl

theorem bounded_next :
  Bounded 0 (fun _ => 0) next
  := by
  intro s x r h
  induction s with
  | nil => cases h
  | cons c s ih =>
      simp only [StateT.run, next] at h ih ⊢
      rw [List.length_cons]
      split at h
      · have := ih h
        omega
      · obtain ⟨rfl, rfl⟩ := Prod.mk.inj (Option.some.inj h)
        omega

theorem bounded_expect (c : UInt8) :
  Bounded 0 (fun _ => 0) (expect c)
  := by
  apply bounded_next.bind
  intro c'
  apply Bounded.ite _ (bounded_failure _ _)
  apply bounded_pure
  apply Nat.le_refl

theorem bounded_parseString :
  Bounded 0 List.length parseString
  := by
  intro s x r h
  induction s generalizing x with
  | nil => cases h
  | cons c s ih =>
      simp only [StateT.run, parseString] at h ih
      rw [List.length_cons]
      split_ifs at h
      · obtain ⟨rfl, rfl⟩ := Prod.mk.inj (Option.some.inj h)
        rw [List.length_nil]
        omega
      · obtain ⟨⟨v, r'⟩, hv, heq⟩ := Option.map_eq_some_iff.mp h
        obtain ⟨rfl, rfl⟩ := Prod.mk.inj heq
        have := ih v hv
        simp only [List.length_cons] at this ⊢
        omega

theorem bounded_parseInteger {c : UInt8} (hc : Decimal.isDigit c) :
  Bounded 0 (fun _ => 0) (parseInteger c)
  := by
  intro s x r h
  simp only [StateT.run, parseInteger] at h
  split at h
  · cases h
  · rename_i digits r' hne hspan
    obtain ⟨-, rfl⟩ := Prod.mk.inj (Option.some.inj h)
    -- the first digit was read before
    have hdrop : (c :: s).dropWhile Decimal.isDigit = r' := congrArg Prod.snd hspan
    rw [List.dropWhile_cons_of_pos hc] at hdrop
    have := (List.dropWhile_sublist Decimal.isDigit (l := s)).length_le
    rw [hdrop] at this
    simpa using this

theorem bounded_parseValue :
  Bounded 0 Value.stringLength parseValue
  := by
  apply bounded_next.bind
  intro c
  apply Bounded.ite
  · apply bounded_parseString.bind
    intro v
    apply bounded_pure (Nat.le_refl _)
  · split
    · apply (bounded_parseInteger ‹_›).bind
      intro n
      apply bounded_pure (Nat.le_refl _)
    · apply bounded_failure

theorem bounded_parseMember :
  Bounded 0 (fun m => m.2.stringLength) parseMember
  := by
  have hkey : Bounded 0 (fun _ => 0) parseString := by
    intro s x r h
    have := bounded_parseString s x r h
    dsimp only
    omega
  apply hkey.bind
  intro key
  apply (bounded_expect 58).bind
  intro _
  apply bounded_parseValue.bind
  intro v
  apply bounded_pure (Nat.le_refl _)

theorem bounded_parseRest (fuel : Nat) :
  Bounded 0 stringLength (parseRest fuel)
  := by
  induction fuel with
  | zero => apply bounded_failure
  | succ fuel ih =>
      apply bounded_next.bind
      intro c
      apply Bounded.ite
      · apply bounded_pure
        apply Nat.le_refl
      apply Bounded.ite _ (bounded_failure _ _)
      apply (bounded_expect 34).bind
      intro _
      apply bounded_parseMember.bind
      intro m
      apply ih.add.bind
      intro o
      apply bounded_pure (Nat.le_of_eq (stringLength_cons m o))

theorem bounded_parseObject (fuel : Nat) :
  Bounded 0 stringLength (parseObject fuel)
  := by
  apply (bounded_expect 123).bind
  intro _
  apply bounded_next.bind
  intro c
  apply Bounded.ite
  · apply bounded_pure
    apply Nat.le_refl
  apply Bounded.ite _ (bounded_failure _ _)
  apply bounded_parseMember.bind
  intro m
  apply (bounded_parseRest fuel).add.bind
  intro o
  apply bounded_pure (Nat.le_of_eq (stringLength_cons m o))

/-- A string in an object is no longer than all of them. -/
theorem length_le_stringLength {o : Object} {key v : List UInt8}
    (h : get o key = some (.string v)) :
  v.length ≤ stringLength o
  := by
  obtain ⟨o₁, o₂, rfl, -⟩ := List.lookup_eq_some_iff.mp h
  rw [stringLength, List.map_append, List.sum_append, List.map_cons, List.sum_cons]
  have : (key, Value.string v).2.stringLength = v.length := rfl
  omega

/-- A string in a document is no longer than its text. -/
theorem length_le_of_load {s : List UInt8} {o : Object} (hload : load s = some o)
    {key v : List UInt8} (h : get o key = some (.string v)) :
  v.length ≤ s.length
  := by
  obtain ⟨⟨o', r⟩, hrun, rfl⟩ := Option.map_eq_some_iff.mp hload
  have := bounded_parseObject s.length s o' r hrun
  have := length_le_stringLength h
  dsimp only at this
  omega

end Json
