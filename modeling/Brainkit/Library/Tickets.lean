import Mathlib.Data.List.Nodup

set_option autoImplicit false

universe u v

structure Tickets (κ : Type u) (ι : Type v) where
  held : κ → Option ι
  issued : ι → Prop
  spent : List ι

namespace Tickets

variable {κ : Type u} {ι : Type v}

structure Step (a : Tickets κ ι) (issues : κ → ι → Prop) (spends : Option ι) (b : Tickets κ ι) : Prop where
  origin : ∀ k t, b.held k = some t → a.held k = some t ∨ issues k t
  fresh : ∀ k t, issues k t → ¬ a.issued t
  single : ∀ k t j u, issues k t → issues j u → j = k
  recorded : ∀ k t, issues k t → b.issued t
  lasting : ∀ t, a.issued t → b.issued t
  given : ∀ t, spends = some t → ∃ k, a.held k = some t ∧ b.held k = none
  spent : b.spent = a.spent ++ spends.toList

structure Exclusive (a : Tickets κ ι) : Prop where
  once : a.spent.Nodup
  unspent : ∀ k t, a.held k = some t → t ∉ a.spent
  alone : ∀ k j t, a.held k = some t → a.held j = some t → j = k
  spentIssued : ∀ t ∈ a.spent, a.issued t
  heldIssued : ∀ k t, a.held k = some t → a.issued t

theorem empty_exclusive (a : Tickets κ ι) (held : ∀ k, a.held k = none) (spent : a.spent = []) : Exclusive a := by
  have nobody : ∀ k t, a.held k ≠ some t := fun k t holds => nomatch (held k).symm.trans holds
  refine ⟨spent ▸ List.nodup_nil, fun k t holds => absurd holds (nobody k t), fun k _ t holds => absurd holds (nobody k t),
    fun t done => ?_, fun k t holds => absurd holds (nobody k t)⟩
  rw [spent] at done
  cases done

section

variable {a b : Tickets κ ι} {issues : κ → ι → Prop} {spends : Option ι}

theorem spent_nodup (exclusive : Exclusive a) (step : Step a issues spends b) : b.spent.Nodup := by
  rw [step.spent]
  cases spending : spends with
  | none => simpa using exclusive.once
  | some t =>
      obtain ⟨k, holds, -⟩ := step.given t spending
      have unspent := exclusive.unspent k t holds
      simpa [List.nodup_append] using ⟨exclusive.once, fun u done same => unspent (same ▸ done)⟩

theorem held_unspent (exclusive : Exclusive a) (step : Step a issues spends b) (k : κ) (t : ι) (holds : b.held k = some t) :
    t ∉ b.spent := by
  rw [step.spent, List.mem_append, not_or, Option.mem_toList]
  refine ⟨fun done => ?_, fun spending => ?_⟩
  · rcases step.origin k t holds with before | issued
    · exact exclusive.unspent k t before done
    · exact step.fresh k t issued (exclusive.spentIssued t done)
  · obtain ⟨j, held, gone⟩ := step.given t spending
    rcases step.origin k t holds with before | issued
    · obtain rfl := exclusive.alone k j t before held
      rw [gone] at holds
      cases holds
    · exact step.fresh k t issued (exclusive.heldIssued j t held)

theorem held_alone (exclusive : Exclusive a) (step : Step a issues spends b) (k j : κ) (t : ι)
    (holds : b.held k = some t) (also : b.held j = some t) : j = k := by
  rcases step.origin k t holds with before | issued
  · rcases step.origin j t also with before' | issued'
    · exact exclusive.alone k j t before before'
    · exact absurd (exclusive.heldIssued k t before) (step.fresh j t issued')
  · rcases step.origin j t also with before' | issued'
    · exact absurd (exclusive.heldIssued j t before') (step.fresh k t issued)
    · exact step.single k t j t issued issued'

theorem spent_issued (exclusive : Exclusive a) (step : Step a issues spends b) (t : ι) (done : t ∈ b.spent) :
    b.issued t := by
  rw [step.spent, List.mem_append, Option.mem_toList] at done
  refine step.lasting t ?_
  rcases done with before | spending
  · exact exclusive.spentIssued t before
  · obtain ⟨k, holds, -⟩ := step.given t spending
    exact exclusive.heldIssued k t holds

theorem held_issued (exclusive : Exclusive a) (step : Step a issues spends b) (k : κ) (t : ι) (holds : b.held k = some t) :
    b.issued t := by
  rcases step.origin k t holds with before | issued
  · exact step.lasting t (exclusive.heldIssued k t before)
  · exact step.recorded k t issued

theorem exclusive_step (exclusive : Exclusive a) (step : Step a issues spends b) : Exclusive b :=
  ⟨spent_nodup exclusive step, held_unspent exclusive step, held_alone exclusive step, spent_issued exclusive step,
    held_issued exclusive step⟩

end

end Tickets
