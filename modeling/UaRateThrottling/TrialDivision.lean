import Mathlib.Data.Nat.Prime.Basic
import Mathlib.Data.Nat.Sqrt
import Mathlib.Tactic.Common

/-!
# Trial division

An odd number is prime when no odd number from three up to its square root divides it.  The search
for a divisor is by computation, so `decide` proves a number prime.
-/

namespace TrialDivision

/-- None of the numbers `m`, `m + 2`, … up to the square root divides `p`; so many are tried at
most. -/
def noDivisorFrom (p : Nat) : Nat → Nat → Bool
  | 0, _ => false
  | fuel + 1, m =>
    bif Nat.ble (m * m) p then
      bif Nat.beq (p % m) 0 then false else noDivisorFrom p fuel (m + 2)
    else true

theorem not_dvd_of_noDivisorFrom {p fuel m : Nat} (hm : m % 2 = 1) (h : noDivisorFrom p fuel m)
    {d : Nat} (hd : m ≤ d) (hodd : d % 2 = 1) (hsqrt : d * d ≤ p) :
  ¬ d ∣ p
  := by
  induction fuel generalizing m with
  | zero => cases h
  | succ fuel ih =>
      have hble : Nat.ble (m * m) p = true := by
        rw [Nat.ble_eq]
        exact le_trans (Nat.mul_self_le_mul_self hd) hsqrt
      rw [noDivisorFrom, hble, cond_true] at h
      cases hdvd : Nat.beq (p % m) 0 with
      | true =>
          rw [hdvd] at h
          cases h
      | false =>
          rw [hdvd, cond_false] at h
          rcases Nat.eq_or_lt_of_le hd with rfl | hlt
          · rw [Nat.dvd_iff_mod_eq_zero]
            exact Nat.ne_of_beq_eq_false hdvd
          · apply ih _ h
            · omega
            · omega

/-- The number is odd and has no divisor; so many are tried at most. -/
def isPrime (fuel p : Nat) : Bool := Nat.ble 2 p && Nat.beq (p % 2) 1 && noDivisorFrom p fuel 3

theorem prime_of_isPrime (fuel : Nat) {p : Nat} (h : isPrime fuel p) :
  p.Prime
  := by
  rw [isPrime, Bool.and_eq_true, Bool.and_eq_true, Nat.ble_eq, Nat.beq_eq] at h
  obtain ⟨⟨htwo, hodd⟩, hnone⟩ := h
  rw [Nat.prime_def_le_sqrt]
  use htwo
  intro d hd hsqrt hdvd
  have hdodd : d % 2 = 1 := by
    obtain ⟨q, rfl⟩ := hdvd
    exact (Nat.odd_mul.mp (Nat.odd_iff.mpr hodd)).1 |> Nat.odd_iff.mp
  exact not_dvd_of_noDivisorFrom rfl hnone (by omega) hdodd (Nat.le_sqrt.mp hsqrt) hdvd

end TrialDivision
