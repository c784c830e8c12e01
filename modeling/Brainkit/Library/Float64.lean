import Mathlib.Algebra.Group.Int.Defs
import Mathlib.Algebra.Group.Nat.Defs
import Mathlib.Data.Int.Basic

set_option autoImplicit false

-- Integers read as 64-bit floating-point numbers: round to nearest, ties to even, with 53 significant bits.
namespace Float64

def unit (magnitude : Nat) : Nat := 2 ^ (Nat.log2 magnitude + 1 - 53)

def roundMagnitude (magnitude : Nat) : Nat :=
  let quotient := magnitude / unit magnitude
  let remainder := magnitude % unit magnitude
  if remainder * 2 < unit magnitude ∨ (remainder * 2 = unit magnitude ∧ quotient % 2 = 0) then
    quotient * unit magnitude
  else (quotient + 1) * unit magnitude

def round (value : Int) : Int :=
  if 0 ≤ value then (roundMagnitude value.natAbs : Int) else -(roundMagnitude value.natAbs : Int)

def Exact (value : Int) : Prop := unit value.natAbs ∣ value.natAbs

instance (value : Int) : Decidable (Exact value) := inferInstanceAs (Decidable (_ ∣ _))

theorem unit_pos (magnitude : Nat) : 0 < unit magnitude := Nat.two_pow_pos _

theorem unit_dvd_round (magnitude : Nat) : unit magnitude ∣ roundMagnitude magnitude := by
  unfold roundMagnitude
  dsimp only
  split <;> exact Nat.dvd_mul_left _ _

theorem round_magnitude_fixed_iff (magnitude : Nat) :
    roundMagnitude magnitude = magnitude ↔ unit magnitude ∣ magnitude := by
  constructor
  · intro fixed
    have divides := unit_dvd_round magnitude
    rwa [fixed] at divides
  · intro divides
    have remainder : magnitude % unit magnitude = 0 := Nat.mod_eq_zero_of_dvd divides
    have small : magnitude % unit magnitude * 2 < unit magnitude := by
      rw [remainder, Nat.zero_mul]
      exact unit_pos magnitude
    simp only [roundMagnitude, small, true_or, if_true]
    exact Nat.div_mul_cancel divides

theorem round_fixed_iff (value : Int) : round value = value ↔ Exact value := by
  rw [Exact, ← round_magnitude_fixed_iff, round]
  by_cases sign : 0 ≤ value
  · rw [if_pos sign]
    omega
  · rw [if_neg sign]
    omega

end Float64
