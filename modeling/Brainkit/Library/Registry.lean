import Mathlib.Logic.Function.Basic

set_option autoImplicit false

universe u v

-- A table under keys of things that live and die: everything that lives is what the table holds under its key.
namespace Registry

open Function (update)

def Tracked {κ : Type u} {ι : Type v} (table : κ → Option ι) (key : ι → κ) (live : ι → Prop) : Prop :=
  ∀ i, live i → table (key i) = some i

section

variable {κ : Type u} {ι : Type v} {table : κ → Option ι} {key keyNext : ι → κ} {live liveNext : ι → Prop}

theorem tracked_fewer (tracked : Tracked table key live) (fewer : ∀ i, liveNext i → live i) :
    Tracked table key liveNext :=
  fun i lives => tracked i (fewer i lives)

theorem tracked_absent (tracked : Tracked table key live) (k : κ) (absent : table k = none) (i : ι) (here : key i = k) :
    ¬ live i := by
  intro lives
  have listed := tracked i lives
  rw [here, absent] at listed
  cases listed

variable [DecidableEq κ]

theorem tracked_drop_iff (tracked : Tracked table key live) (k : κ) (keyed : ∀ i, table k = some i → key i = k) :
    Tracked (update table k none) key live ↔ ∀ i, table k = some i → ¬ live i := by
  constructor
  · intro after i listed lives
    have held := after i lives
    rw [keyed i listed, Function.update_self] at held
    cases held
  · intro dead i lives
    have other : key i ≠ k := by
      rintro rfl
      exact dead i (tracked i lives) lives
    rw [Function.update_of_ne other]
    exact tracked i lives

theorem tracked_put_iff (tracked : Tracked table key live) (i : ι) (fresh : ¬ live i)
    (same : ∀ j, j ≠ i → keyNext j = key j) (others : ∀ j, j ≠ i → (liveNext j ↔ live j)) :
    Tracked (update table (keyNext i) (some i)) keyNext liveNext ↔ ∀ j, live j → key j ≠ keyNext i := by
  have apart : ∀ j, live j → j ≠ i := by
    rintro j lives rfl
    exact fresh lives
  constructor
  · intro after j lives here
    have held := after j ((others j (apart j lives)).mpr lives)
    rw [same j (apart j lives), here, Function.update_self, Option.some.injEq] at held
    exact apart j lives held.symm
  · intro free j lives
    by_cases this : j = i
    · rw [this, Function.update_self]
    · have before := (others j this).mp lives
      rw [same j this, Function.update_of_ne (free j before)]
      exact tracked j before

end

end Registry
