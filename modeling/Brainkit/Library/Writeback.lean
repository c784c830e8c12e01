import Mathlib.Logic.Basic

set_option autoImplicit false

universe u v

namespace Writeback

def Follows {κ : Type u} {ω : Type v} (agrees : κ → Prop) (owed : ω → κ → Prop) : Prop :=
  ∀ key, agrees key ∨ ∃ w, owed w key

section

variable {κ : Type u} {ω : Type v} {agrees agreesNext : κ → Prop} {owed owedNext : ω → κ → Prop}

theorem settled (follows : Follows agrees owed) (key : κ) (nobody : ∀ w, ¬ owed w key) : agrees key := by
  rcases follows key with agreed | ⟨w, owes⟩
  · exact agreed
  · exact absurd owes (nobody w)

-- A step may change what agrees only where it leaves a debt, and may pay a debt only where that leaves agreement or
-- another debt.
theorem follows_step (follows : Follows agrees owed)
    (changed : ∀ key, agrees key → agreesNext key ∨ ∃ w, owedNext w key)
    (paid : ∀ w key, owed w key → agreesNext key ∨ ∃ other, owedNext other key) : Follows agreesNext owedNext := by
  intro key
  rcases follows key with agreed | ⟨w, owes⟩
  · exact changed key agreed
  · exact paid w key owes

end

end Writeback
