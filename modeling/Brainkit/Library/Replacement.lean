import Mathlib.Data.List.Chain

set_option autoImplicit false

universe u v

-- Every occurrence of a word in a text replaced from left to right by another word with the same first letter.
namespace Replacement

variable {α : Type u} [DecidableEq α]

def replaced (a : α) (word sub : List α) : List α → List α
  | [] => []
  | b :: rest =>
      b :: if a :: word <+: b :: rest then sub ++ replaced a word sub (rest.drop word.length) else replaced a word sub rest
termination_by text => text.length
decreasing_by
  all_goals simp only [List.length_cons, List.length_drop]; omega

variable {a : α} {word sub text : List α}

@[simp]
theorem replaced_nil : replaced a word sub [] = [] := by
  rw [replaced]

theorem replaced_word (text : List α) : replaced a word sub (a :: (word ++ text)) = a :: (sub ++ replaced a word sub text) := by
  rw [replaced, if_pos ⟨text, rfl⟩, List.drop_left]

theorem replaced_other {b : α} (other : ¬ a :: word <+: b :: text) :
    replaced a word sub (b :: text) = b :: replaced a word sub text := by
  rw [replaced, if_neg other]

theorem replaced_induction {w : List α} {motive : List α → Prop} (nil : motive [])
    (word : ∀ text, motive text → motive (a :: (w ++ text)))
    (other : ∀ b text, ¬ a :: w <+: b :: text → motive text → motive (b :: text)) (text : List α) : motive text := by
  induction h : text.length using Nat.strongRecOn generalizing text with
  | ind n ih =>
      subst h
      cases text with
      | nil => exact nil
      | cons b rest =>
          by_cases starts : a :: w <+: b :: rest
          · obtain ⟨tail, same⟩ := starts
            cases same
            have shorter : tail.length < (a :: (w ++ tail)).length := by grind
            exact word tail (ih tail.length shorter tail rfl)
          · exact other b rest starts (ih rest.length (by simp) rest rfl)

theorem head_replaced (text : List α) : (replaced a word sub text).head? = text.head? := by
  cases text with
  | nil => rw [replaced_nil]
  | cons b rest => rw [replaced, List.head?_cons, List.head?_cons]

theorem mem_replaced {b : α} (member : b ∈ replaced a word sub text) : b ∈ sub ∨ b ∈ text := by
  induction text using replaced_induction (a := a) (w := word) with
  | nil => simp at member
  | word text ih =>
      rw [replaced_word, List.mem_cons, List.mem_append] at member
      rcases member with rfl | inside | later
      · exact .inr List.mem_cons_self
      · exact .inl inside
      · exact (ih later).imp_right fun here => List.mem_cons_of_mem a (List.mem_append_right word here)
  | other c text other ih =>
      rw [replaced_other other, List.mem_cons] at member
      rcases member with rfl | later
      · exact .inr List.mem_cons_self
      · exact (ih later).imp_right (List.mem_cons_of_mem c)

theorem flatMap_replaced {β : Type v} {f : α → List β} (same : sub.flatMap f = word.flatMap f) :
    (replaced a word sub text).flatMap f = text.flatMap f := by
  induction text using replaced_induction (a := a) (w := word) with
  | nil => rw [replaced_nil]
  | word text ih =>
      rw [replaced_word, List.flatMap_cons, List.flatMap_append, ih, same, List.flatMap_cons, List.flatMap_append]
  | other b text other ih => rw [replaced_other other, List.flatMap_cons, ih, List.flatMap_cons]

theorem isChain_replaced {R : α → α → Prop} (fits : (a :: sub).IsChain R)
    (last : ∀ b ∈ (a :: sub).getLast?, ∀ c, R b c) (chain : text.IsChain R) : (replaced a word sub text).IsChain R := by
  induction text using replaced_induction (a := a) (w := word) with
  | nil => rw [replaced_nil]; exact .nil
  | word text ih =>
      rw [replaced_word, ← List.cons_append, List.isChain_append]
      rw [← List.cons_append, List.isChain_append] at chain
      exact ⟨fits, ih chain.2.1, fun b member c _ => last b member c⟩
  | other b text other ih =>
      rw [replaced_other other, List.isChain_cons]
      rw [List.isChain_cons] at chain
      rw [head_replaced]
      exact ⟨chain.1, ih chain.2⟩

theorem prefix_of_replaced {start : List α} (outside : a ∉ start) (starts : start <+: replaced a word sub text) :
    start <+: text := by
  induction start generalizing text with
  | nil => exact List.nil_prefix
  | cons b start ih =>
      cases text with
      | nil => rwa [replaced_nil] at starts
      | cons c text =>
          rw [replaced, List.cons_prefix_cons] at starts
          obtain ⟨rfl, starts⟩ := starts
          have other : ¬ a :: word <+: b :: text := fun here =>
            outside ((List.cons_prefix_cons.mp here).1 ▸ List.mem_cons_self)
          rw [if_neg other] at starts
          exact List.cons_prefix_cons.mpr ⟨rfl, ih (fun member => outside (List.mem_cons_of_mem b member)) starts⟩

omit [DecidableEq α] in
theorem infix_of_append {before : List α} (outside : a ∉ before) (inside : a :: word <:+: before ++ text) : a :: word <:+: text := by
  induction before with
  | nil => exact inside
  | cons b before ih =>
      rw [List.cons_append, List.infix_cons_iff] at inside
      rcases inside with starts | later
      · exact absurd ((List.cons_prefix_cons.mp starts).1 ▸ List.mem_cons_self) outside
      · exact ih (fun member => outside (List.mem_cons_of_mem b member)) later

theorem not_infix_replaced (once : a ∉ word) (outside : a ∉ sub) (apart : ∀ rest, ¬ word <+: sub ++ rest) (text : List α) :
    ¬ a :: word <:+: replaced a word sub text := by
  induction text using replaced_induction (a := a) (w := word) with
  | nil => simp
  | word text ih =>
      rw [replaced_word, List.infix_cons_iff]
      rintro (starts | later)
      · exact apart _ (List.cons_prefix_cons.mp starts).2
      · exact ih (infix_of_append outside later)
  | other b text other ih =>
      rw [replaced_other other, List.infix_cons_iff]
      rintro (starts | later)
      · obtain ⟨rfl, tail⟩ := List.cons_prefix_cons.mp starts
        exact other (List.cons_prefix_cons.mpr ⟨rfl, prefix_of_replaced once tail⟩)
      · exact ih later

end Replacement
