import Mathlib.Data.List.Rotate

set_option autoImplicit false

universe u

-- A log of bounded size that overwrites its slots in turn: what it retains of a history, and where the slots hold it.
namespace Ring

variable {α : Type u}

def retained (capacity : Nat) (history : List α) : List α := history.drop (history.length - capacity)

def lap (capacity : Nat) (history : List α) : List α :=
  history.drop (history.length - history.length % capacity)

-- The retained records of the lap before, which the running lap has not overwritten.
def older (capacity : Nat) (history : List α) : List α :=
  (retained capacity history).take (capacity - history.length % capacity)

def slots (capacity : Nat) (history : List α) : List α :=
  if history.length < capacity then history else lap capacity history ++ older capacity history

theorem retained_short {capacity : Nat} {history : List α} (short : history.length ≤ capacity) :
    retained capacity history = history := by
  rw [retained, Nat.sub_eq_zero_of_le short, List.drop_zero]

theorem retained_length {capacity : Nat} {history : List α} (filled : capacity ≤ history.length) :
    (retained capacity history).length = capacity := by
  rw [retained, List.length_drop]
  omega

theorem lap_length {capacity : Nat} (history : List α) : (lap capacity history).length = history.length % capacity := by
  have least := Nat.mod_le history.length capacity
  rw [lap, List.length_drop]
  omega

theorem older_append_lap {capacity : Nat} (some : 0 < capacity) {history : List α} (filled : capacity ≤ history.length) :
    older capacity history ++ lap capacity history = retained capacity history := by
  have below := Nat.mod_lt history.length some
  have rest : lap capacity history = (retained capacity history).drop (capacity - history.length % capacity) := by
    rw [lap, retained, List.drop_drop]
    congr 1
    omega
  rw [older, rest, List.take_append_drop]

theorem slots_perm {capacity : Nat} (some : 0 < capacity) (history : List α) :
    (slots capacity history).Perm (retained capacity history) := by
  unfold slots
  split
  case isTrue short => rw [retained_short short.le]
  case isFalse long =>
      rw [← older_append_lap some (Nat.le_of_not_lt long)]
      exact List.perm_append_comm

theorem slots_snoc_short {capacity : Nat} {history : List α} (a : α) (short : history.length + 1 < capacity) :
    slots capacity (history ++ [a]) = history ++ [a] := by
  rw [slots, List.length_append, List.length_singleton, if_pos short]

theorem slots_filled {capacity : Nat} {history : List α} (exact : history.length = capacity) :
    slots capacity history = history := by
  unfold slots lap older
  rw [if_neg (Nat.not_lt.mpr exact.ge), exact, Nat.mod_self, retained_short exact.le]
  simp [← exact]

theorem lap_snoc {capacity : Nat} {history : List α} (a : α) (inside : history.length % capacity + 1 < capacity) :
    lap capacity (history ++ [a]) = lap capacity history ++ [a] := by
  have next : (history.length + 1) % capacity = history.length % capacity + 1 := by
    rw [Nat.add_mod, Nat.mod_eq_of_lt (a := 1) (by omega), Nat.mod_eq_of_lt inside]
  have least := Nat.mod_le history.length capacity
  rw [lap, lap, List.length_append, List.length_singleton, next, List.drop_append_of_le_length (by omega)]
  congr 2
  omega

theorem lap_snoc_last {capacity : Nat} {history : List α} (a : α) (last : history.length % capacity + 1 = capacity) :
    lap capacity (history ++ [a]) = [] := by
  have next : (history.length + 1) % capacity = 0 := by
    rw [← Nat.mod_add_mod, last, Nat.mod_self]
  rw [lap, List.length_append, List.length_singleton, next, Nat.sub_zero]
  exact List.drop_eq_nil_of_le (by simp)

theorem retained_snoc {capacity : Nat} (some : 0 < capacity) {history : List α} (a : α)
    (filled : capacity ≤ history.length) :
    retained capacity (history ++ [a]) = (retained capacity history).tail ++ [a] := by
  rw [retained, retained, List.length_append, List.length_singleton, List.drop_append_of_le_length (by omega),
    List.tail_drop]
  congr 2
  omega

theorem take_tail (l : List α) (n : Nat) : l.tail.take n = (l.take (n + 1)).tail := by
  cases l with
  | nil => rw [List.tail_nil, List.take_nil, List.take_nil, List.tail_nil]
  | cons first rest => rfl

theorem slots_snoc_filled {capacity : Nat} (some : 0 < capacity) {history : List α} (a : α)
    (filled : capacity ≤ history.length) :
    slots capacity (history ++ [a]) = (slots capacity history).set (history.length % capacity) a := by
  have below := Nat.mod_lt history.length some
  have sizes := retained_length filled
  have overwritten : (slots capacity history).set (history.length % capacity) a =
      lap capacity history ++ a :: (older capacity history).tail := by
    rw [slots, if_neg (Nat.not_lt.mpr filled), List.set_append_right _ _ (lap_length history).le, lap_length,
      Nat.sub_self]
    have full : (older capacity history).length = capacity - history.length % capacity := by
      rw [older, List.length_take, sizes]
      omega
    cases shape : older capacity history with
    | nil =>
        rw [shape] at full
        simp only [List.length_nil] at full
        omega
    | cons first rest => rfl
  have grown : ¬ (history ++ [a]).length < capacity := by
    rw [List.length_append, List.length_singleton]
    omega
  rw [overwritten, slots, if_neg grown, older, retained_snoc some a filled, List.length_append, List.length_singleton]
  by_cases inside : history.length % capacity + 1 < capacity
  · have next : (history.length + 1) % capacity = history.length % capacity + 1 := by
      rw [Nat.add_mod, Nat.mod_eq_of_lt (a := 1) (by omega), Nat.mod_eq_of_lt inside]
    rw [lap_snoc a inside, next, List.append_assoc, List.singleton_append,
      List.take_append_of_le_length (by rw [List.length_tail, sizes]; omega), take_tail, older]
    congr 4
    omega
  · have last : history.length % capacity + 1 = capacity := by omega
    have next : (history.length + 1) % capacity = 0 := by
      rw [← Nat.mod_add_mod, last, Nat.mod_self]
    have whole : lap capacity history = (retained capacity history).tail := by
      rw [lap, retained, List.tail_drop]
      congr 1
      omega
    have one : (older capacity history).tail = [] := by
      have single : capacity - history.length % capacity = 1 := by omega
      rw [older, single]
      cases retained capacity history <;> rfl
    rw [lap_snoc_last a last, next, Nat.sub_zero, List.nil_append, one, whole, List.take_of_length_le]
    rw [List.length_append, List.length_tail, sizes, List.length_singleton]
    omega

theorem slots_rotated {capacity : Nat} {first last : List α} (some : first ≠ []) (filled : first.length + last.length = capacity)
    (filler : α) :
    retained capacity (List.replicate last.length filler ++ (first ++ last)) = first ++ last ∧
      slots capacity (List.replicate last.length filler ++ (first ++ last)) = last ++ first := by
  have more : 0 < first.length := List.length_pos_of_ne_nil some
  have kept : retained capacity (List.replicate last.length filler ++ (first ++ last)) = first ++ last := by
    rw [retained, List.length_append, List.length_replicate, List.length_append, filled, Nat.add_sub_cancel]
    exact List.drop_left' List.length_replicate
  have turn : (List.replicate last.length filler ++ (first ++ last)).length % capacity = last.length := by
    rw [List.length_append, List.length_replicate, List.length_append, filled, Nat.add_mod_right]
    exact Nat.mod_eq_of_lt (by omega)
  have ends : lap capacity (List.replicate last.length filler ++ (first ++ last)) = last := by
    rw [lap, turn, ← List.append_assoc]
    apply List.drop_left'
    simp only [List.length_append, List.length_replicate]
    omega
  refine ⟨kept, ?_⟩
  rw [slots, ends, older, kept, turn, if_neg (by simp only [List.length_append, List.length_replicate]; omega), ← filled,
    Nat.add_sub_cancel, List.take_left]

end Ring
