import Mathlib.Algebra.Order.Ring.Int
import Brainkit.Plugins.Manager

set_option autoImplicit false

-- The delay of watchProcess before a restart, a duration in nanoseconds.
namespace Brainkit.Plugins.Backoff

def second : BitVec 64 := 1000000000

-- restarts is never negative: it counts from 0 at each start. The shift is one of an int64.
def backoff (restarts : Nat) : BitVec 64 :=
  let backoff := (1#64 <<< restarts) * second
  if (30 * second).slt backoff then 30 * second else backoff

def Admitted (maxRestarts : Int) (restarts : Nat) : Prop := (restarts + 1 : Int) ≤ maxRestarts

structure WellPaced (maxRestarts : Int) : Prop where
  least : ∀ restarts, Admitted maxRestarts restarts → second.toInt ≤ (backoff restarts).toInt
  most : ∀ restarts, Admitted maxRestarts restarts → (backoff restarts).toInt ≤ (30 * second).toInt
  grows : ∀ restarts later, restarts ≤ later → Admitted maxRestarts later → (backoff restarts).toInt ≤ (backoff later).toInt

theorem backoff_exact : ∀ restarts < 34, (backoff restarts).toInt = min (2 ^ restarts * second.toInt) (30 * second).toInt := by
  decide +kernel

theorem backoff_negative : (backoff 34).toInt < 0 := by decide +kernel

theorem second_positive : 0 < second.toInt := by decide +kernel

theorem admitted_below {maxRestarts : Int} (few : maxRestarts ≤ 34) {restarts : Nat} (admitted : Admitted maxRestarts restarts) :
    restarts < 34 := by
  unfold Admitted at admitted
  omega

theorem wellPaced_few {maxRestarts : Int} (few : maxRestarts ≤ 34) : WellPaced maxRestarts where
  least restarts admitted := by
    rw [backoff_exact restarts (admitted_below few admitted)]
    refine le_min ?_ (by decide +kernel)
    have grown : (1 : Int) ≤ 2 ^ restarts := one_le_pow₀ (by decide)
    calc second.toInt = 1 * second.toInt := (one_mul _).symm
      _ ≤ 2 ^ restarts * second.toInt := mul_le_mul_of_nonneg_right grown second_positive.le
  most restarts admitted := by
    rw [backoff_exact restarts (admitted_below few admitted)]
    exact min_le_right _ _
  grows restarts later ordered admitted := by
    have below := admitted_below few admitted
    rw [backoff_exact restarts (Nat.lt_of_le_of_lt ordered below), backoff_exact later below]
    have grown : (2 : Int) ^ restarts ≤ 2 ^ later := pow_le_pow_right₀ (by decide) ordered
    exact min_le_min (mul_le_mul_of_nonneg_right grown second_positive.le) le_rfl

theorem wellPaced_iff (maxRestarts : Int) : WellPaced maxRestarts ↔ maxRestarts ≤ 34 := by
  constructor
  · intro paced
    by_contra many
    have admitted : Admitted maxRestarts 34 := by
      unfold Admitted
      omega
    have positive := lt_of_lt_of_le second_positive (paced.least 34 admitted)
    exact lt_asymm positive backoff_negative
  · exact wellPaced_few

theorem backoff_unpaced : ¬ WellPaced 35 := fun paced =>
  lt_asymm (lt_of_lt_of_le second_positive (paced.least 34 (by unfold Admitted; decide))) backoff_negative

end Brainkit.Plugins.Backoff
