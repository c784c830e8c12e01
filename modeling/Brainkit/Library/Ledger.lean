import Mathlib.Algebra.BigOperators.Intervals
import Mathlib.Algebra.Order.BigOperators.Group.Finset

set_option autoImplicit false

universe u

-- What the accounts below a bound hold together.
namespace Ledger

def total {M : Type u} [AddCommMonoid M] (accounts : Nat) (holds : Nat → M) : M := ∑ a ∈ Finset.range accounts, holds a

section

variable {M : Type u} [AddCommMonoid M] {accounts : Nat} {before after : Nat → M}

theorem total_congr (same : ∀ a, a < accounts → after a = before a) : total accounts after = total accounts before :=
  Finset.sum_congr rfl fun a member => same a (Finset.mem_range.mp member)

theorem total_open (same : ∀ a, a < accounts → after a = before a) (empty : after accounts = 0) :
    total (accounts + 1) after = total accounts before := by
  rw [total, Finset.sum_range_succ, empty, add_zero]
  exact total_congr same

theorem total_add (a : Nat) (x : M) (within : a < accounts) (others : ∀ b, b ≠ a → after b = before b)
    (own : after a = before a + x) : total accounts after = total accounts before + x := by
  have member := Finset.mem_range.mpr within
  have rest : ∑ b ∈ (Finset.range accounts).erase a, after b = ∑ b ∈ (Finset.range accounts).erase a, before b :=
    Finset.sum_congr rfl fun b other => others b (Finset.ne_of_mem_erase other)
  rw [total, total, ← Finset.sum_erase_add _ after member, ← Finset.sum_erase_add _ before member, rest, own, add_assoc]

end

theorem total_le {M : Type u} [AddCommMonoid M] [PartialOrder M] [IsOrderedAddMonoid M] {accounts : Nat}
    {before after : Nat → M} (fewer : ∀ a, a < accounts → after a ≤ before a) :
    total accounts after ≤ total accounts before :=
  Finset.sum_le_sum fun a member => fewer a (Finset.mem_range.mp member)

theorem mem_total {α : Type u} {accounts : Nat} {holds : Nat → Multiset α} {x : α} :
    x ∈ total accounts holds ↔ ∃ a, a < accounts ∧ x ∈ holds a := by
  simp only [total, Multiset.mem_sum, Finset.mem_range]

end Ledger
