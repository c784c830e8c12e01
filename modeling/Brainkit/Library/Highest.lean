import Mathlib.Data.List.Nodup
import Mathlib.Order.Lattice

set_option autoImplicit false

universe u v

-- One scan of a list for the item with the highest key. Of the items that share it, the first one met is kept.
namespace Highest

variable {α : Type u} {κ : Type v} [LinearOrder κ]

def scan (key : α → κ) : Option α → List α → Option α
  | best, [] => best
  | none, item :: rest => scan key (some item) rest
  | some best, item :: rest => scan key (if key best < key item then some item else some best) rest

variable (key : α → κ)

theorem scan_highest (items : List α) (best : α) :
    ∃ top, scan key (some best) items = some top ∧ (top = best ∨ top ∈ items) ∧ key best ≤ key top ∧
      ∀ item ∈ items, key item ≤ key top := by
  induction items generalizing best with
  | nil => exact ⟨best, rfl, .inl rfl, le_refl _, nofun⟩
  | cons item rest ih =>
      rw [scan]
      by_cases higher : key best < key item
      · obtain ⟨top, found, place, least, most⟩ := ih item
        rw [if_pos higher]
        refine ⟨top, found, ?_, le_trans (le_of_lt higher) least, fun other member => ?_⟩
        · exact .inr (place.elim (fun same => same ▸ List.mem_cons_self) (List.mem_cons_of_mem item))
        · cases List.mem_cons.mp member with
          | inl same => exact same ▸ least
          | inr later => exact most other later
      · obtain ⟨top, found, place, least, most⟩ := ih best
        rw [if_neg higher]
        refine ⟨top, found, place.imp_right (List.mem_cons_of_mem item), least, fun other member => ?_⟩
        cases List.mem_cons.mp member with
        | inl same => exact same ▸ le_trans (le_of_not_gt higher) least
        | inr later => exact most other later

theorem scan_none (items : List α) (nonempty : items ≠ []) :
    ∃ top ∈ items, scan key none items = some top ∧ ∀ item ∈ items, key item ≤ key top := by
  cases items with
  | nil => exact absurd rfl nonempty
  | cons item rest =>
      obtain ⟨top, found, place, least, most⟩ := scan_highest key rest item
      refine ⟨top, ?_, found, fun other member => ?_⟩
      · exact place.elim (fun same => same ▸ List.mem_cons_self) (List.mem_cons_of_mem item)
      · cases List.mem_cons.mp member with
        | inl same => exact same ▸ least
        | inr later => exact most other later

variable {key}

theorem scan_keeps (items : List α) (best : α) (most : ∀ item ∈ items, key item ≤ key best) :
    scan key (some best) items = some best := by
  induction items with
  | nil => rfl
  | cons item rest ih =>
      rw [scan, if_neg (not_lt_of_ge (most item List.mem_cons_self))]
      exact ih fun other member => most other (List.mem_cons_of_mem item member)

theorem scan_top {items : List α} {top : α} (member : top ∈ items) (above : ∀ item ∈ items, item ≠ top → key item < key top)
    {order : List α} (perm : order.Perm items) : scan key none order = some top := by
  obtain ⟨found, place, same, most⟩ := scan_none key order fun empty =>
    List.not_mem_nil (empty ▸ perm.mem_iff.mpr member)
  rw [same]
  by_contra other
  have lower := above found (perm.mem_iff.mp place) fun equal => other (congrArg some equal)
  exact absurd (most top (perm.mem_iff.mpr member)) (not_le_of_gt lower)

end Highest
