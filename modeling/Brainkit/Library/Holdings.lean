import Mathlib.Data.List.Basic

set_option autoImplicit false

universe u v w

-- A table of entries with a key and an owner each. The first entry of a key is the one that counts.
namespace Holdings

section

variable {α : Type u} {κ : Type v} [DecidableEq κ]

-- In the place of the entry with its key, or at the end.
def put (key : α → κ) (entry : α) : List α → List α
  | [] => [entry]
  | old :: rest => if key old = key entry then entry :: rest else old :: put key entry rest

def held (key : α → κ) (k : κ) (table : List α) : Option α := table.find? fun entry => key entry = k

def drop (key : α → κ) (k : κ) (table : List α) : List α := table.eraseP fun entry => key entry = k

end

variable {α : Type u} {κ : Type v} {ω : Type w} [DecidableEq κ] [DecidableEq ω] {key : α → κ} {owner : α → ω}

def others (owner : α → ω) (who : ω) (table : List α) : List α := table.filter fun entry => owner entry ≠ who

theorem others_cons_same {who : ω} {entry : α} (table : List α) (same : owner entry = who) :
    others owner who (entry :: table) = others owner who table := by
  simp [others, same]

theorem others_cons_other {who : ω} {entry : α} (table : List α) (other : owner entry ≠ who) :
    others owner who (entry :: table) = entry :: others owner who table := by
  simp [others, other]

theorem others_cons_inj (who : ω) (entry : α) (a b : List α) :
    others owner who (entry :: a) = others owner who (entry :: b) ↔ others owner who a = others owner who b := by
  by_cases same : owner entry = who
  · rw [others_cons_same a same, others_cons_same b same]
  · rw [others_cons_other a same, others_cons_other b same, List.cons_inj_right]

theorem others_exchange_iff (who : ω) (entry old : α) (rest : List α) :
    others owner who (entry :: rest) = others owner who (old :: rest) ↔
      old = entry ∨ owner entry = who ∧ owner old = who := by
  by_cases own : owner entry = who
  · rw [others_cons_same rest own]
    by_cases before : owner old = who
    · rw [others_cons_same rest before]
      exact iff_of_true rfl (.inr ⟨own, before⟩)
    · rw [others_cons_other rest before]
      apply iff_of_false
      · intro same
        exact absurd (congrArg List.length same) (by simp)
      · intro same
        rcases same with rfl | both
        · exact before own
        · exact before both.2
  · rw [others_cons_other rest own]
    by_cases before : owner old = who
    · rw [others_cons_same rest before]
      apply iff_of_false
      · intro same
        exact absurd (congrArg List.length same) (by simp)
      · intro same
        rcases same with rfl | both
        · exact own before
        · exact own both.1
    · rw [others_cons_other rest before, List.cons.injEq]
      simp [own, eq_comm]

theorem others_put_iff (who : ω) (entry : α) (table : List α) :
    others owner who (put key entry table) = others owner who table ↔
      held key (key entry) table = some entry ∨
        owner entry = who ∧ ∀ old, held key (key entry) table = some old → owner old = who := by
  induction table with
  | nil => simp [put, held, others]
  | cons old rest ih =>
      by_cases here : key old = key entry
      · have first : held key (key entry) (old :: rest) = some old := by simp [held, here]
        rw [put, if_pos here, others_exchange_iff, first]
        simp
      · have later : held key (key entry) (old :: rest) = held key (key entry) rest := by simp [held, here]
        rw [put, if_neg here, others_cons_inj, ih, later]

theorem others_drop_iff (who : ω) (k : κ) (table : List α) :
    others owner who (drop key k table) = others owner who table ↔ ∀ old, held key k table = some old → owner old = who := by
  induction table with
  | nil => simp [drop, held]
  | cons old rest ih =>
      by_cases here : key old = k
      · have first : held key k (old :: rest) = some old := by simp [held, here]
        have gone : drop key k (old :: rest) = rest := by simp [drop, here]
        rw [gone, first]
        by_cases own : owner old = who
        · simp [others_cons_same rest own, own]
        · apply iff_of_false
          · rw [others_cons_other rest own]
            intro same
            exact absurd (congrArg List.length same) (by simp)
          · exact fun all => own (all old rfl)
      · have later : held key k (old :: rest) = held key k rest := by simp [held, here]
        have kept : drop key k (old :: rest) = old :: drop key k rest := by simp [drop, here]
        rw [kept, others_cons_inj, ih, later]

theorem others_without_iff (who gone : ω) (table : List α) :
    others owner who (others owner gone table) = others owner who table ↔
      gone = who ∨ ∀ entry ∈ table, owner entry ≠ gone := by
  by_cases own : gone = who
  · subst own
    exact iff_of_true (by simp [others, List.filter_filter]) (.inl rfl)
  · induction table with
    | nil => simp [others]
    | cons entry rest ih =>
        by_cases here : owner entry = gone
        · have elsewhere : owner entry ≠ who := fun same => own (here.symm.trans same)
          apply iff_of_false
          · rw [others_cons_same rest here, others_cons_other rest elsewhere]
            intro same
            have shorter : (others owner who (others owner gone rest)).length ≤ (others owner who rest).length := by
              rw [others, others, List.filter_comm]
              exact List.length_filter_le _ _
            rw [same, List.length_cons] at shorter
            exact absurd shorter (by omega)
          · intro either
            rcases either with same | none
            · exact own same
            · exact none entry List.mem_cons_self here
        · rw [others_cons_other rest here, others_cons_inj, ih]
          simp [here]

end Holdings
