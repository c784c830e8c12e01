import Mathlib.Logic.Function.Basic

set_option autoImplicit false

universe u v w x y

-- Users that need something and providers that serve it, both under keys. Nobody counts how many use a provider.
namespace Provision

open Function (update)

def Backed {ι : Type u} {κ : Type v} {ρ : Type w} {β : Type x} (users : ι → Option ρ) (providers : κ → Option β)
    (serves : β → ρ → Prop) : Prop :=
  ∀ i r, users i = some r → ∃ k b, providers k = some b ∧ serves b r

def Exclusive {κ : Type v} {ρ : Type w} {β : Type x} (providers : κ → Option β) (serves : β → ρ → Prop) : Prop :=
  ∀ k j b c r, providers k = some b → providers j = some c → serves b r → serves c r → k = j

section

variable {ι : Type u} {κ : Type v} {ρ : Type w} {β : Type x} {users : ι → Option ρ} {providers next : κ → Option β}
  {serves : β → ρ → Prop}

theorem backed_fewer {fewer : ι → Option ρ} (backed : Backed users providers serves)
    (before : ∀ i r, fewer i = some r → users i = some r) : Backed fewer providers serves :=
  fun i r uses => backed i r (before i r uses)

theorem backed_more (backed : Backed users providers serves) (more : ∀ k b, providers k = some b → next k = some b) :
    Backed users next serves := by
  intro i r uses
  obtain ⟨k, b, provides, served⟩ := backed i r uses
  exact ⟨k, b, more k b provides, served⟩

theorem backed_set_iff [DecidableEq ι] (backed : Backed users providers serves) (i : ι) (use : Option ρ) :
    Backed (update users i use) providers serves ↔ ∀ r, use = some r → ∃ k b, providers k = some b ∧ serves b r := by
  constructor
  · intro after r same
    exact after i r ((Function.update_self i use users).trans same)
  · intro served j r uses
    by_cases here : j = i
    · rw [here, Function.update_self] at uses
      exact served r uses
    · rw [Function.update_of_ne here] at uses
      exact backed j r uses

theorem backed_close_iff [DecidableEq κ] (backed : Backed users providers serves) (exclusive : Exclusive providers serves) (k : κ) :
    Backed users (update providers k none) serves ↔ ∀ b, providers k = some b → ∀ i r, users i = some r → ¬ serves b r := by
  constructor
  · intro after b provides i r uses served
    obtain ⟨j, c, still, also⟩ := after i r uses
    by_cases here : j = k
    · rw [here, Function.update_self] at still
      cases still
    · rw [Function.update_of_ne here] at still
      exact here (exclusive j k c b r still provides also served)
  · intro unused i r uses
    obtain ⟨j, c, provides, served⟩ := backed i r uses
    have other : j ≠ k := by
      rintro rfl
      exact unused c provides i r uses served
    exact ⟨j, c, (Function.update_of_ne other none providers).trans provides, served⟩

theorem exclusive_finer {σ : Type y} {finer : β → σ → Prop} (exclusive : Exclusive providers serves) (of : σ → ρ)
    (less : ∀ b s, finer b s → serves b (of s)) : Exclusive providers finer :=
  fun k j b c s first second served also => exclusive k j b c (of s) first second (less b s served) (less c s also)

theorem exclusive_close [DecidableEq κ] (exclusive : Exclusive providers serves) (k : κ) :
    Exclusive (update providers k none) serves := by
  have before {j : κ} {b : β} (still : update providers k none j = some b) : providers j = some b := by
    by_cases here : j = k
    · rw [here, Function.update_self] at still
      cases still
    · rwa [Function.update_of_ne here] at still
  exact fun j l b c r first second => exclusive j l b c r (before first) (before second)

theorem exclusive_open [DecidableEq κ] (exclusive : Exclusive providers serves) (k : κ) (b : β)
    (new : ∀ j c r, providers j = some c → serves b r → ¬ serves c r) : Exclusive (update providers k (some b)) serves := by
  intro j l c d r first second served also
  by_cases left : j = k
  · by_cases right : l = k
    · exact left.trans right.symm
    · rw [left, Function.update_self, Option.some.injEq] at first
      rw [Function.update_of_ne right] at second
      exact absurd also (new l d r second (first ▸ served))
  · rw [Function.update_of_ne left] at first
    by_cases right : l = k
    · rw [right, Function.update_self, Option.some.injEq] at second
      exact absurd served (new j c r first (second ▸ also))
    · rw [Function.update_of_ne right] at second
      exact exclusive j l c d r first second served also

end

end Provision
