import Mathlib.Tactic.Common
import Mathlib.Algebra.Order.Ring.Nat

/-!
# Transition machines

A machine has initial states and a partial step function: in a state an action either
cannot be taken or leads to one state, so that all nondeterminism lies in the choice of the
actions. A state is reachable when a sequence of actions leads to it from an initial state.

* What holds initially and is kept by every step holds in every reachable state.
* A machine restricted to a condition takes only the steps that meet the condition; what it
  reaches is what the machine reaches in the runs whose steps all meet it.
-/

universe u v

namespace Transition

/-- A machine over the states `σ` and the actions `α`. -/
structure Machine (σ : Type u) (α : Type v) where
  /-- The states a run starts in. -/
  Init : σ → Prop
  /-- The state an action leads to, when it can be taken. -/
  step : σ → α → Option σ

namespace Machine

variable {σ : Type u} {α : Type v} (M : Machine σ α)

/-- The states the runs of the machine reach. -/
inductive Reachable : σ → Prop
  | init {s : σ} : M.Init s → Reachable s
  | step {s t : σ} {a : α} : Reachable s → M.step s a = some t → Reachable t

/-- The state a sequence of actions leads to, when each can be taken in turn. -/
def run : σ → List α → Option σ
  | s, [] => some s
  | s, a :: acts => (M.step s a).bind (fun t => run t acts)

variable {M}

/-- What a run reaches from a reachable state is reachable. -/
theorem Reachable.run {s t : σ} (hs : M.Reachable s) {acts : List α}
    (h : M.run s acts = some t) :
  M.Reachable t
  := by
  induction acts generalizing s with
  | nil =>
      obtain rfl := Option.some.inj h
      apply hs
  | cons a acts ih =>
      obtain ⟨u, hu, hrun⟩ := Option.bind_eq_some_iff.mp h
      apply ih (Reachable.step hs hu) hrun

/-- What holds initially and is kept by every step holds in every reachable state. -/
theorem Reachable.invariant {P : σ → Prop} (hinit : ∀ s, M.Init s → P s)
    (hstep : ∀ s a t, M.Reachable s → P s → M.step s a = some t → P t) {s : σ}
    (h : M.Reachable s) :
  P s
  := by
  induction h with
  | init hs => apply hinit _ hs
  | step hs ha ih => apply hstep _ _ _ hs ih ha

/-! ### Restriction -/

/-- The machine that takes only the steps meeting the condition `G`. -/
def restrict (M : Machine σ α) (G : σ → α → Prop) [∀ s a, Decidable (G s a)] : Machine σ α where
  Init := M.Init
  step s a := if G s a then M.step s a else none

variable {G : σ → α → Prop} [∀ s a, Decidable (G s a)]

/-- A step of the restricted machine is a step of the machine that meets the condition. -/
theorem restrict_step_iff {s t : σ} {a : α} :
  (M.restrict G).step s a = some t ↔ G s a ∧ M.step s a = some t
  := by
  by_cases h : G s a
  · simp [restrict, h]
  · simp [restrict, h]

/-- What the restricted machine reaches is reachable. -/
theorem Reachable.of_restrict {s : σ} (h : (M.restrict G).Reachable s) :
  M.Reachable s
  := by
  induction h with
  | init hs => apply Reachable.init (M := M) hs
  | step _ ha ih => apply Reachable.step ih (restrict_step_iff.mp ha).2

/-- What holds initially and is kept by every step meeting the condition holds in every
state the restricted machine reaches. -/
theorem Reachable.invariant_of_restrict {P : σ → Prop} (hinit : ∀ s, M.Init s → P s)
    (hstep : ∀ s a t, P s → G s a → M.step s a = some t → P t) {s : σ}
    (h : (M.restrict G).Reachable s) :
  P s
  := by
  apply Reachable.invariant (M := M.restrict G) hinit _ h
  intro s a t _ hs ha
  obtain ⟨hG, hstep'⟩ := restrict_step_iff.mp ha
  apply hstep s a t hs hG hstep'

end Machine

end Transition
