import UaRateThrottling.Channel.Basic

/-!
# Encoders

A value is encoded by following its structure.  When a number does not fit into the buffer, its
encoder reports `BadEncodingLimitsExceeded`, and a structure or an array around it goes back to
where the member began, has the buffer exchanged for a new one, and encodes the member again.  The
content of a string or of an array of numbers is copied as far as there is room, and exchanges the
buffer itself.  A value of a builtin type joins the status codes of its parts by `|=` and goes on
after an error.

An encoder runs over any kind of buffers, given by what writing, exchanging and going back do.
`runEncoder_follows` compares the runs over two kinds.
-/

namespace UA

/-! ### Runs of code -/

/-- What comes of so many steps of code: it is still running, what it does is undefined, or it
returns. -/
inductive Run (α : Type) where
  | running
  | undefined
  | returns (retval : StatusCode) (state : α)
deriving DecidableEq

namespace Run

variable {α β γ δ : Type}

/-- What follows on what is returned. -/
def bind (run : Run α) (next : StatusCode → α → Run β) : Run β :=
  match run with
  | .running => .running
  | .undefined => .undefined
  | .returns retval state => next retval state

/-- The state returned is seen as another one. -/
def map (f : α → β) (run : Run α) : Run β :=
  run.bind (fun retval state => .returns retval (f state))

/-- What has been returned, if anything. -/
def returned : Run α → Option (StatusCode × α)
  | .returns retval state => some (retval, state)
  | _ => none

/-- The second run does what the first one does, as far as that is defined, and ends in a state
related to its state. -/
def Follows (R : α → β → Prop) : Run α → Run β → Prop
  | .running, run => run = .running
  | .undefined, _ => True
  | .returns retval state, run => ∃ state', run = .returns retval state' ∧ R state state'

/-- Each of two runs does what the other one does. -/
def Agree (R : α → β → Prop) : Run α → Run β → Prop
  | .running, .running => True
  | .undefined, .undefined => True
  | .returns retval a, .returns retval' b => retval = retval' ∧ R a b
  | _, _ => False

variable {R : α → β → Prop} {S : γ → δ → Prop}

theorem Agree.follows {run : Run α} {run' : Run β} (h : Agree R run run') :
  Follows R run run'
  := by
  cases run with
  | running =>
      cases run' with
      | running => rfl
      | undefined => cases h
      | returns _ _ => cases h
  | undefined => trivial
  | returns retval a =>
      cases run' with
      | running => cases h
      | undefined => cases h
      | returns retval' b =>
          obtain ⟨rfl, hab⟩ := h
          exact ⟨b, rfl, hab⟩

theorem Agree.symm {run : Run α} {run' : Run β} (h : Agree R run run') :
  Agree (fun b a => R a b) run' run
  := by
  cases run <;> cases run' <;> simp_all [Agree]

theorem Follows.returns {retval : StatusCode} {a : α} {b : β} (h : R a b) :
  Follows R (.returns retval a) (.returns retval b)
  := ⟨b, rfl, h⟩

/-- Runs that follow each other go on so. -/
theorem Follows.bind {run : Run α} {run' : Run β} (h : Follows R run run')
    {next : StatusCode → α → Run γ} {next' : StatusCode → β → Run δ}
    (hnext : ∀ retval a b, R a b → Follows S (next retval a) (next' retval b)) :
  Follows S (run.bind next) (run'.bind next')
  := by
  cases run with
  | running =>
      obtain rfl : run' = .running := h
      rfl
  | undefined => trivial
  | returns retval a =>
      obtain ⟨b, rfl, hab⟩ := h
      apply hnext retval a b hab

theorem running_ne_undefined :
  (running : Run α) ≠ undefined
  := by
  intro h
  cases h

theorem returns_ne_undefined {retval : StatusCode} {state : α} :
  returns retval state ≠ undefined
  := by
  intro h
  cases h

/-- A run that follows a defined one is defined. -/
theorem Follows.ne_undefined {run : Run α} {run' : Run β} (h : Follows R run run')
    (hdefined : run ≠ .undefined) :
  run' ≠ .undefined
  := by
  cases run with
  | running =>
      rw [show run' = .running from h]
      apply running_ne_undefined
  | undefined => cases hdefined rfl
  | returns retval a =>
      obtain ⟨b, rfl, -⟩ := h
      apply returns_ne_undefined

/-- The second run is the first one with more steps: it is the same, unless the first one is still
running. -/
def Within (run run' : Run α) : Prop := run = .running ∨ run' = run

theorem Within.bind {run run' : Run α} (h : Within run run')
    {next next' : StatusCode → α → Run β}
    (hnext : ∀ retval a, Within (next retval a) (next' retval a)) :
  Within (run.bind next) (run'.bind next')
  := by
  rcases h with rfl | rfl
  · left
    rfl
  · cases run' with
    | running =>
        left
        rfl
    | undefined =>
        right
        rfl
    | returns retval a => apply hnext retval a

/-- What a run returns has come of what it has gone on from. -/
theorem bind_eq_returns {run : Run α} {next : StatusCode → α → Run β} {retval : StatusCode}
    {b : β} (h : run.bind next = .returns retval b) :
  ∃ retval' a, run = .returns retval' a ∧ next retval' a = .returns retval b
  := by
  cases run with
  | running => cases h
  | undefined => cases h
  | returns retval' a => exact ⟨retval', a, rfl, h⟩

end Run

/-! ### Encoders -/

/-- How a value is encoded. -/
inductive Encoder where
  /-- A number, which is written when there is room for it. -/
  | number (bytes : List UInt8)
  /-- The memory of an array, copied by whole elements. -/
  | content (elements : List (List UInt8))
  /-- An error that the encoder reports of the value. -/
  | error (retval : StatusCode)
  /-- Two parts of a value of a builtin type: the second one is encoded whatever becomes of the
  first. -/
  | both (first second : Encoder)
  /-- Two parts of which the second is left out after an error. -/
  | andThen (first second : Encoder)
  /-- A member of a structure or an element of an array. -/
  | member (encoder : Encoder)
  /-- Parts after which the encoder reports `BadEncodingError`, whatever has become of them. -/
  | abandon (encoder : Encoder)

/-- The bytes of the encoding. -/
def Encoder.bytes : Encoder → List UInt8
  | .number bytes => bytes
  | .content elements => elements.flatten
  | .error _ => []
  | .both first second => first.bytes ++ second.bytes
  | .andThen first second => first.bytes ++ second.bytes
  | .member encoder => encoder.bytes
  | .abandon encoder => encoder.bytes

/-- Buffers to encode into: what becomes of writing some bytes, of `exchangeBuffer`, and of going
back to the position in an earlier state. -/
structure Buffers (σ : Type) where
  write : List UInt8 → σ → Run σ
  exchange : σ → Run σ
  goBack : σ → σ → Run σ

/-- An encoder at work, for so many steps. -/
def runEncoder {σ : Type} (buffers : Buffers σ) : Nat → Encoder → σ → Run σ
  | 0, _, _ => .running
  | _ + 1, .number bytes, state => buffers.write bytes state
  | _ + 1, .content [], state => .returns .good state
  | fuel + 1, .content (element :: elements), state =>
    (buffers.write element state).bind fun retval state =>
      if retval = .good then runEncoder buffers fuel (.content elements) state
      else
        (buffers.exchange state).bind fun retval state =>
          if retval = .good then runEncoder buffers fuel (.content (element :: elements)) state
          else .returns retval state
  | _ + 1, .error retval, state => .returns retval state
  | fuel + 1, .both first second, state =>
    (runEncoder buffers fuel first state).bind fun retval state =>
      (runEncoder buffers fuel second state).bind fun retval' state =>
        .returns (retval ||| retval') state
  | fuel + 1, .andThen first second, state =>
    (runEncoder buffers fuel first state).bind fun retval state =>
      if retval = .good then runEncoder buffers fuel second state else .returns retval state
  | fuel + 1, .member encoder, oldpos =>
    (runEncoder buffers fuel encoder oldpos).bind fun retval state =>
      if retval = .badEncodingLimitsExceeded then
        (buffers.goBack oldpos state).bind fun _ state =>
          (buffers.exchange state).bind fun retval state =>
            if retval = .good then runEncoder buffers fuel (.member encoder) state
            else .returns retval state
      else .returns retval state
  | fuel + 1, .abandon encoder, state =>
    (runEncoder buffers fuel encoder state).bind fun _ state => .returns .badEncodingError state

/-- One kind of buffers does what another one does, as far as that is defined. -/
structure Buffers.Follow {σ τ : Type} (R : σ → τ → Prop) (buffers : Buffers σ)
    (buffers' : Buffers τ) : Prop where
  write : ∀ bytes s t, R s t → (buffers.write bytes s).Follows R (buffers'.write bytes t)
  exchange : ∀ s t, R s t → (buffers.exchange s).Follows R (buffers'.exchange t)
  goBack : ∀ s₀ t₀, R s₀ t₀ → ∀ s t, R s t →
    (buffers.goBack s₀ s).Follows R (buffers'.goBack t₀ t)

/-- Then encoders do the same over both. -/
theorem runEncoder_follows {σ τ : Type} {R : σ → τ → Prop} {buffers : Buffers σ}
    {buffers' : Buffers τ} (h : Buffers.Follow R buffers buffers') (fuel : Nat)
    (encoder : Encoder) (s : σ) (t : τ) (hst : R s t) :
  (runEncoder buffers fuel encoder s).Follows R (runEncoder buffers' fuel encoder t)
  := by
  induction fuel generalizing encoder s t with
  | zero => rfl
  | succ fuel ih =>
      -- what follows on an exchange
      have hexchange : ∀ encoder s t, R s t →
          ((buffers.exchange s).bind fun retval s =>
            if retval = .good then runEncoder buffers fuel encoder s
            else .returns retval s).Follows R
          ((buffers'.exchange t).bind fun retval t =>
            if retval = .good then runEncoder buffers' fuel encoder t else .returns retval t) := by
        intro encoder s t hst
        apply (h.exchange s t hst).bind
        intro retval s t hst
        split
        · apply ih encoder s t hst
        · apply Run.Follows.returns hst
      cases encoder with
      | number bytes => apply h.write bytes s t hst
      | content elements =>
          cases elements with
          | nil => apply Run.Follows.returns hst
          | cons element elements =>
              apply (h.write element s t hst).bind
              intro retval s t hst
              split
              · apply ih _ s t hst
              · apply hexchange _ s t hst
      | error retval => apply Run.Follows.returns hst
      | both first second =>
          apply (ih first s t hst).bind
          intro retval s t hst
          apply (ih second s t hst).bind
          intro retval' s t hst
          apply Run.Follows.returns hst
      | andThen first second =>
          apply (ih first s t hst).bind
          intro retval s t hst
          split
          · apply ih second s t hst
          · apply Run.Follows.returns hst
      | member encoder =>
          apply (ih encoder s t hst).bind
          intro retval s' t' hst'
          split
          · apply (h.goBack s t hst s' t' hst').bind
            intro _ s t hst
            apply hexchange _ s t hst
          · apply Run.Follows.returns hst'
      | abandon encoder =>
          apply (ih encoder s t hst).bind
          intro _ s t hst
          apply Run.Follows.returns hst

/-- With more steps an encoder does the same. -/
theorem runEncoder_within {σ : Type} (buffers : Buffers σ) (fuel : Nat) (encoder : Encoder)
    (s : σ) :
  (runEncoder buffers fuel encoder s).Within (runEncoder buffers (fuel + 1) encoder s)
  := by
  induction fuel generalizing encoder s with
  | zero =>
      left
      rfl
  | succ fuel ih =>
      have hsame : ∀ run : Run σ, run.Within run := fun _ => .inr rfl
      -- what follows on an exchange
      have hexchange : ∀ encoder s,
          ((buffers.exchange s).bind fun retval s =>
            if retval = .good then runEncoder buffers fuel encoder s else .returns retval s).Within
          ((buffers.exchange s).bind fun retval s =>
            if retval = .good then runEncoder buffers (fuel + 1) encoder s
            else .returns retval s) := by
        intro encoder s
        apply (hsame _).bind
        intro retval s
        split
        · apply ih encoder s
        · apply hsame
      cases encoder with
      | number bytes => apply hsame
      | content elements =>
          cases elements with
          | nil => apply hsame
          | cons element elements =>
              apply (hsame (buffers.write element s)).bind
              intro retval s
              split
              · apply ih _ s
              · apply hexchange _ s
      | error retval => apply hsame
      | both first second =>
          apply (ih first s).bind
          intro retval s
          apply (ih second s).bind
          intro retval' s
          apply hsame
      | andThen first second =>
          apply (ih first s).bind
          intro retval s
          split
          · apply ih second s
          · apply hsame
      | member encoder =>
          apply (ih encoder s).bind
          intro retval s'
          split
          · apply (hsame (buffers.goBack s s')).bind
            intro _ s
            apply hexchange _ s
          · apply hsame
      | abandon encoder =>
          apply (ih encoder s).bind
          intro _ s
          apply hsame

/-- What an encoder returns it returns with more steps as well. -/
theorem runEncoder_of_le {σ : Type} {buffers : Buffers σ} {fuel fuel' : Nat} (hle : fuel ≤ fuel')
    {encoder : Encoder} {s s' : σ} {retval : StatusCode}
    (h : runEncoder buffers fuel encoder s = .returns retval s') :
  runEncoder buffers fuel' encoder s = .returns retval s'
  := by
  induction hle with
  | refl => apply h
  | step _ ih =>
      rcases runEncoder_within buffers _ encoder s with hrunning | hsame
      · rw [ih] at hrunning
        cases hrunning
      · rw [hsame, ih]

end UA
