import Mathlib.Data.Set.Card

set_option autoImplicit false

universe u

namespace Headcount

open Function (update)

def Counts {ι : Type u} (inside : ι → Bool) (count : Nat) : Prop := {k | inside k = true}.encard = count

section

variable {ι : Type u} {inside : ι → Bool} {count : Nat}

theorem counts_nobody : Counts (fun _ : ι => false) 0 := by
  simp [Counts]

theorem counts_zero_iff : Counts inside 0 ↔ ∀ k, inside k = false := by
  simp [Counts, Set.eq_empty_iff_forall_notMem]

section

variable [DecidableEq ι]

theorem counts_enter (counts : Counts inside count) (k : ι) (absent : inside k = false) :
    Counts (update inside k true) (count + 1) := by
  have members : {j | update inside k true j = true} = insert k {j | inside j = true} := by
    ext j
    by_cases same : j = k <;> simp [same]
  have outside : k ∉ {j | inside j = true} := by simp [absent]
  rw [Counts, members, Set.encard_insert_of_notMem outside, counts, Nat.cast_add, Nat.cast_one]

theorem counts_leave (counts : Counts inside count) (k : ι) (present : inside k = true) :
    Counts (update inside k false) (count - 1) := by
  have members : {j | update inside k false j = true} = {j | inside j = true} \ {k} := by
    ext j
    by_cases same : j = k <;> simp [same]
  have member : k ∈ {j | inside j = true} := present
  rw [Counts, members, Set.encard_sdiff_singleton_of_mem member, counts]
  rfl

end

theorem counts_pos (counts : Counts inside count) (k : ι) (present : inside k = true) : 0 < count := by
  by_contra none
  obtain rfl : count = 0 := by omega
  exact Bool.false_ne_true ((counts_zero_iff.mp counts k).symm.trans present)

end

end Headcount
