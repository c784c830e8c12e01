import Mathlib.Data.List.Basic

set_option autoImplicit false

namespace Listed

variable {α β : Type}

theorem set_some {list : List α} {place other : Nat} {x y : α} (found : (list.set place x)[other]? = some y) :
    other = place ∧ y = x ∨ list[other]? = some y := by
  by_cases same : place = other
  · subst same
    rw [List.getElem?_set, if_pos rfl] at found
    split at found
    · exact .inl ⟨rfl, (Option.some.inj found).symm⟩
    · exact nomatch found
  · rw [List.getElem?_set_ne same] at found
    exact .inr found

theorem append_some {list : List α} {place : Nat} {x y : α} (found : (list ++ [x])[place]? = some y) :
    place = list.length ∧ y = x ∨ list[place]? = some y := by
  obtain below | above := Nat.lt_or_ge place list.length
  · rw [List.getElem?_append_left below] at found
    exact .inr found
  · rw [List.getElem?_append_right above, List.getElem?_singleton] at found
    split at found
    · exact .inl ⟨by omega, (Option.some.inj found).symm⟩
    · exact nomatch found

theorem append_split {list before after : List α} {x y : α} (same : list ++ [x] = before ++ y :: after) :
    (before = list ∧ y = x ∧ after = []) ∨ ∃ rest, list = before ++ y :: rest ∧ after = rest ++ [x] := by
  obtain rfl | ⟨rest, last, rfl⟩ := List.eq_nil_or_concat after
  · obtain ⟨whole, final⟩ := List.append_inj' same rfl
    exact .inl ⟨whole.symm, (List.cons.inj final).1.symm, rfl⟩
  · rw [List.concat_eq_append, ← List.cons_append, ← List.append_assoc] at same
    obtain ⟨whole, final⟩ := List.append_inj' same rfl
    exact .inr ⟨rest, whole, by rw [List.concat_eq_append, (List.cons.inj final).1]⟩

theorem prefix_getElem? {xs ys : List α} (grown : xs <+: ys) {i : Nat} {x : α} (here : xs[i]? = some x) :
    ys[i]? = some x := by
  obtain ⟨more, rfl⟩ := grown
  rw [List.getElem?_append_left (List.getElem?_eq_some_iff.mp here).1, here]

theorem mem_take_concat (xs : List α) (x y : α) (count : Nat) (member : y ∈ (xs ++ [x]).take count) :
    y ∈ xs.take count ∨ (y = x ∧ xs.length < count) := by
  rw [List.take_append, List.mem_append] at member
  refine member.imp id fun last => ⟨List.mem_singleton.mp (List.mem_of_mem_take last), ?_⟩
  by_contra short
  rw [Nat.sub_eq_zero_of_le (Nat.le_of_not_lt short)] at last
  cases last

theorem flatMap_length_le {f g : α → List β} {list : List α} (longer : ∀ a ∈ list, (g a).length ≤ (f a).length) :
    (list.flatMap g).length ≤ (list.flatMap f).length := by
  induction list with
  | nil => exact Nat.le_refl 0
  | cons a rest ih =>
      have first := longer a List.mem_cons_self
      have later := ih fun other member => longer other (List.mem_cons_of_mem a member)
      rw [List.flatMap_cons, List.flatMap_cons, List.length_append, List.length_append]
      omega

theorem flatMap_same_iff {f g : α → List β} {list : List α} (longer : ∀ a ∈ list, (g a).length ≤ (f a).length) :
    list.flatMap f = list.flatMap g ↔ ∀ a ∈ list, f a = g a := by
  induction list with
  | nil => exact iff_of_true rfl nofun
  | cons a rest ih =>
      have first := longer a List.mem_cons_self
      have others : ∀ other ∈ rest, (g other).length ≤ (f other).length :=
        fun other member => longer other (List.mem_cons_of_mem a member)
      have later := flatMap_length_le others
      rw [List.forall_mem_cons, ← ih others, List.flatMap_cons, List.flatMap_cons]
      constructor
      · intro same
        have lengths := congrArg List.length same
        rw [List.length_append, List.length_append] at lengths
        exact List.append_inj same (by omega)
      · rintro ⟨same, after⟩
        rw [same, after]

end Listed
