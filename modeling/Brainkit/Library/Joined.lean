import Mathlib.Data.List.Basic

set_option autoImplicit false

universe u

-- Names put together from parts with a separator: up to two parts that may have it inside, or any number without it.
namespace Joined

variable {α : Type u}

def parts [DecidableEq α] (first second : List α) : List (List α) := [first, second].filter (· ≠ [])

def join (sep : α) : List (List α) → List α
  | [] => []
  | [part] => part
  | part :: rest => part ++ sep :: join sep rest

theorem append_sep_eq {sep : α} {a b c d : List α} (same : a ++ sep :: b = c ++ sep :: d) :
    a = c ∧ b = d ∨ (∃ middle, c = a ++ sep :: middle ∧ b = middle ++ sep :: d) ∨
      ∃ middle, a = c ++ sep :: middle ∧ d = middle ++ sep :: b := by
  obtain ⟨more, front, back⟩ | ⟨more, front, back⟩ := List.append_eq_append_iff.mp same
  · cases more with
    | nil => exact .inl ⟨by rw [front, List.append_nil], (List.cons.inj back).2⟩
    | cons first middle =>
        obtain ⟨rfl, rest⟩ := List.cons.inj back
        exact .inr (.inl ⟨middle, front, rest⟩)
  · cases more with
    | nil => exact .inl ⟨by rw [front, List.append_nil], (List.cons.inj back).2.symm⟩
    | cons first middle =>
        obtain ⟨rfl, rest⟩ := List.cons.inj back
        exact .inr (.inr ⟨middle, front, rest⟩)

def closed (sep : α) (names : List (List α)) : List α := names.flatMap fun part => part ++ [sep]

theorem closed_cons (sep : α) (part : List α) (names : List (List α)) :
    closed sep (part :: names) = part ++ sep :: closed sep names := by
  simp [closed]

theorem prefix_append_sep {sep : α} {a b c d : List α} (outside : sep ∉ a) (outside' : sep ∉ c)
    (starts : a ++ sep :: b <+: c ++ sep :: d) : a = c ∧ b <+: d := by
  obtain ⟨more, whole⟩ := starts
  rw [List.append_assoc, List.cons_append] at whole
  obtain ⟨same, rest⟩ | ⟨middle, inside, -⟩ | ⟨middle, inside, -⟩ := append_sep_eq whole
  · exact ⟨same, more, rest⟩
  · exact absurd (by simp [inside]) outside'
  · exact absurd (by simp [inside]) outside

theorem closed_prefix_iff {sep : α} {names others : List (List α)} (outside : ∀ part ∈ names, sep ∉ part)
    (outside' : ∀ part ∈ others, sep ∉ part) : closed sep names <+: closed sep others ↔ names <+: others := by
  induction names generalizing others with
  | nil => simp [closed]
  | cons part names ih =>
      cases others with
      | nil => simp [closed]
      | cons other others =>
          rw [closed_cons, closed_cons, List.cons_prefix_cons, ← ih (fun p listed => outside p (.tail part listed))
            fun p listed => outside' p (.tail other listed)]
          constructor
          · exact prefix_append_sep (outside part List.mem_cons_self) (outside' other List.mem_cons_self)
          · rintro ⟨rfl, more, rest⟩
            exact ⟨more, by rw [← rest, List.append_assoc, List.cons_append]⟩

theorem closed_splitOnP {sep : α} (p : α → Bool) (text : List α) :
    closed sep (text.splitOnP p) = text.map (fun a => if p a then sep else a) ++ [sep] := by
  induction text with
  | nil => simp [closed, List.splitOnP_nil]
  | cons a text ih =>
      obtain ⟨part, names, split⟩ := List.exists_cons_of_ne_nil (List.splitOnP_ne_nil p text)
      rw [List.splitOnP_cons_eq_if_modifyHead, List.map_cons, List.cons_append, ← ih]
      cases p a with
      | true => simp [closed]
      | false => simp [closed, split]

theorem splitOnP_outside {p : α → Bool} {text part : List α} (listed : part ∈ text.splitOnP p) :
    ∀ a ∈ part, p a = false := by
  induction text generalizing part with
  | nil => simp [List.mem_singleton.mp listed]
  | cons a text ih =>
      obtain ⟨first, names, split⟩ := List.exists_cons_of_ne_nil (List.splitOnP_ne_nil p text)
      rw [List.splitOnP_cons_eq_if_modifyHead] at listed
      cases sort : p a with
      | true =>
          rw [if_pos sort] at listed
          rcases List.mem_cons.mp listed with rfl | later
          · simp
          · exact ih later
      | false =>
          rw [if_neg (by simp [sort]), split, List.modifyHead_cons] at listed
          rcases List.mem_cons.mp listed with rfl | later
          · intro b inside
            rcases List.mem_cons.mp inside with rfl | inside
            · exact sort
            · exact ih (by simp [split]) b inside
          · exact ih (by simp [split, later])

variable [DecidableEq α]

end Joined
