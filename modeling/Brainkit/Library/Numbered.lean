import Mathlib.Data.List.Basic
import Mathlib.Data.List.Induction

set_option autoImplicit false

universe u

-- Lists whose entries carry their own position.
variable {α : Type u} {number : α → Nat}

def Numbered (number : α → Nat) (entries : List α) : Prop := entries.map number = List.range entries.length

namespace Numbered

theorem nil : Numbered number [] := rfl

theorem concat_iff (entries : List α) (entry : α) :
    Numbered number (entries ++ [entry]) ↔ Numbered number entries ∧ number entry = entries.length := by
  rw [Numbered, List.map_append, List.length_append, List.length_singleton, List.range_succ, List.map_singleton]
  constructor
  · intro same
    obtain ⟨front, back⟩ := List.append_inj same (by simp)
    exact ⟨front, List.singleton_inj.mp back⟩
  · intro ⟨front, back⟩
    rw [front, back]

theorem of_prefix {front entries : List α} (numbered : Numbered number entries) (start : front <+: entries) :
    Numbered number front := by
  obtain ⟨rest, rfl⟩ := start
  have same := congrArg (List.take front.length) numbered
  rwa [List.map_append, List.take_left' (by simp), List.take_range, List.length_append,
    Nat.min_eq_left (Nat.le_add_right _ _)] at same

theorem number_lt {entries : List α} (numbered : Numbered number entries) {entry : α} (member : entry ∈ entries) :
    number entry < entries.length := by
  rw [← List.mem_range, ← numbered]
  exact List.mem_map_of_mem member

theorem filter_after {entries : List α} (numbered : Numbered number entries) (last : Nat) :
    (entries.filter fun entry => last < number entry) = entries.drop (last + 1) := by
  induction entries using List.reverseRecOn with
  | nil => rfl
  | append_singleton entries entry ih =>
      obtain ⟨front, back⟩ := (concat_iff entries entry).mp numbered
      rw [List.filter_append, ih front]
      by_cases later : last < entries.length
      · rw [List.drop_append_of_le_length later]
        simp [back, later]
      · have gone : entries.drop (last + 1) = [] := List.drop_eq_nil_of_le (by omega)
        have all : (entries ++ [entry]).drop (last + 1) = [] := List.drop_eq_nil_of_le (by simp; omega)
        simp [gone, all, back, later]

theorem length_of_last {entries : List α} (numbered : Numbered number entries) {entry : α}
    (last : entries.getLast? = some entry) : entries.length = number entry + 1 := by
  obtain ⟨front, rfl⟩ := List.getLast?_eq_some_iff.mp last
  rw [List.length_append, ((concat_iff front entry).mp numbered).2]
  rfl

end Numbered
