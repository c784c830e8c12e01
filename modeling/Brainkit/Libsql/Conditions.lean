import Brainkit.Libsql.Server

set_option autoImplicit false

namespace Brainkit.Libsql

namespace BatchCondition

-- What a condition says of the steps that are over: the two functions tell which of them succeeded and which failed.
mutual

def reads (succeeded failed : Int → Bool) : BatchCondition → Bool
  | .ok step => step.any succeeded
  | .error step => step.any failed
  | .not none => true
  | .not (some cond) => !reads succeeded failed cond
  | .and conds => readsAll succeeded failed conds
  | .or conds => readsAny succeeded failed conds
  | .isAutocommit => true
  | .other => true

def readsAll (succeeded failed : Int → Bool) : List BatchCondition → Bool
  | [] => true
  | cond :: rest => reads succeeded failed cond && readsAll succeeded failed rest

def readsAny (succeeded failed : Int → Bool) : List BatchCondition → Bool
  | [] => false
  | cond :: rest => reads succeeded failed cond || readsAny succeeded failed rest

end

-- Evaluation from left to right, which stops at the first condition that decides a list, comes from one condition to
-- the other.
inductive Reaches (succeeded failed : Int → Bool) : BatchCondition → BatchCondition → Prop
  | here (cond : BatchCondition) : Reaches succeeded failed cond cond
  | not {cond inner : BatchCondition} (rest : Reaches succeeded failed cond inner) :
      Reaches succeeded failed (.not (some cond)) inner
  | and {before after : List BatchCondition} {cond inner : BatchCondition}
      (hold : ∀ c ∈ before, c.reads succeeded failed = true) (rest : Reaches succeeded failed cond inner) :
      Reaches succeeded failed (.and (before ++ cond :: after)) inner
  | or {before after : List BatchCondition} {cond inner : BatchCondition}
      (fail : ∀ c ∈ before, c.reads succeeded failed = false) (rest : Reaches succeeded failed cond inner) :
      Reaches succeeded failed (.or (before ++ cond :: after)) inner

def StepsCounted (succeeded failed : Int → Bool) (cond : BatchCondition) : Prop :=
  ∀ i : Int, Reaches succeeded failed cond (.ok (some i)) ∨ Reaches succeeded failed cond (.error (some i)) → 0 ≤ i

end BatchCondition

open BatchCondition

-- A step has an outcome of the kind when its slot is filled; a number that is no step's, or a later step's, has none.
def filled {α : Type} (slots : List (Option α)) (i : Int) : Bool := decide (0 ≤ i) && slots[i.toNat]?.join.isSome

theorem slot_filled {α : Type} (slots : List (Option α)) {i : Int} (counted : 0 ≤ i) :
    slot slots (some i) = some (filled slots i) := by
  cases i with
  | ofNat n => simp [slot, filled]
  | negSucc n => exact absurd counted (by omega)

theorem slot_negative {α : Type} (slots : List (Option α)) {i : Int} (negative : i < 0) : slot slots (some i) = none := by
  cases i with
  | ofNat n => exact absurd negative (by simp)
  | negSucc n => rfl

theorem slot_sound {α : Type} (slots : List (Option α)) (step : Option Int) {b : Bool} (read : slot slots step = some b) :
    step.any (filled slots) = b := by
  cases step with
  | none => simpa [slot] using read
  | some i =>
      by_cases counted : 0 ≤ i
      · simpa [slot_filled slots counted] using read
      · simp [slot_negative slots (Int.not_le.mp counted)] at read

section

variable {R : Type} (results : List (Option (ExecResult R))) (errors : List (Option GoText.GoString))

mutual

theorem eval_sound (cond : BatchCondition) {b : Bool} (eval : evalCondition results errors cond = some b) :
    cond.reads (filled results) (filled errors) = b := by
  cases cond with
  | ok step => exact slot_sound results step eval
  | error step => exact slot_sound errors step eval
  | not inner =>
      cases inner with
      | none => simpa [evalCondition, reads] using eval
      | some cond =>
          obtain ⟨c, inner, rfl⟩ := Option.map_eq_some_iff.mp eval
          rw [reads, eval_sound cond inner]
  | and conds => exact evalAll_sound conds eval
  | or conds => exact evalAny_sound conds eval
  | isAutocommit => simpa [evalCondition, reads] using eval
  | other => simpa [evalCondition, reads] using eval

theorem evalAll_sound (conds : List BatchCondition) {b : Bool} (eval : evalAll results errors conds = some b) :
    readsAll (filled results) (filled errors) conds = b := by
  cases conds with
  | nil => simpa [evalAll, readsAll] using eval
  | cons cond rest =>
      rw [evalAll] at eval
      split at eval
      · rename_i holds
        rw [readsAll, eval_sound cond holds, Bool.true_and]
        exact evalAll_sound rest eval
      · rename_i decided
        rw [readsAll, eval_sound cond eval]
        cases b with
        | true => exact absurd eval decided
        | false => rfl

theorem evalAny_sound (conds : List BatchCondition) {b : Bool} (eval : evalAny results errors conds = some b) :
    readsAny (filled results) (filled errors) conds = b := by
  cases conds with
  | nil => simpa [evalAny, readsAny] using eval
  | cons cond rest =>
      rw [evalAny] at eval
      split at eval
      · rename_i fails
        rw [readsAny, eval_sound cond fails, Bool.false_or]
        exact evalAny_sound rest eval
      · rename_i decided
        rw [readsAny, eval_sound cond eval]
        cases b with
        | true => rfl
        | false => exact absurd eval decided

end

theorem evalAll_none_split {conds : List BatchCondition} (panics : evalAll results errors conds = none) :
    ∃ before cond after, conds = before ++ cond :: after ∧
      (∀ c ∈ before, c.reads (filled results) (filled errors) = true) ∧ evalCondition results errors cond = none := by
  induction conds with
  | nil => simp [evalAll] at panics
  | cons cond rest ih =>
      rw [evalAll] at panics
      split at panics
      · rename_i holds
        obtain ⟨before, inner, after, rfl, hold, inside⟩ := ih panics
        refine ⟨cond :: before, inner, after, rfl, ?_, inside⟩
        intro c listed
        rcases List.mem_cons.mp listed with rfl | earlier
        · exact eval_sound results errors c holds
        · exact hold c earlier
      · exact ⟨[], cond, rest, rfl, fun _ listed => absurd listed List.not_mem_nil, panics⟩

theorem evalAny_none_split {conds : List BatchCondition} (panics : evalAny results errors conds = none) :
    ∃ before cond after, conds = before ++ cond :: after ∧
      (∀ c ∈ before, c.reads (filled results) (filled errors) = false) ∧ evalCondition results errors cond = none := by
  induction conds with
  | nil => simp [evalAny] at panics
  | cons cond rest ih =>
      rw [evalAny] at panics
      split at panics
      · rename_i fails
        obtain ⟨before, inner, after, rfl, fail, inside⟩ := ih panics
        refine ⟨cond :: before, inner, after, rfl, ?_, inside⟩
        intro c listed
        rcases List.mem_cons.mp listed with rfl | earlier
        · exact eval_sound results errors c fails
        · exact fail c earlier
      · exact ⟨[], cond, rest, rfl, fun _ listed => absurd listed List.not_mem_nil, panics⟩

theorem evalAll_none {before after : List BatchCondition} {cond : BatchCondition}
    (hold : ∀ c ∈ before, c.reads (filled results) (filled errors) = true)
    (panics : evalCondition results errors cond = none) :
    evalAll results errors (before ++ cond :: after) = none := by
  induction before with
  | nil => simp [evalAll, panics]
  | cons first before ih =>
      rw [List.cons_append, evalAll]
      cases eval : evalCondition results errors first with
      | none => rfl
      | some b =>
          have holds : b = true := by rw [← hold first List.mem_cons_self, eval_sound results errors first eval]
          subst holds
          exact ih fun c listed => hold c (List.mem_cons_of_mem first listed)

theorem evalAny_none {before after : List BatchCondition} {cond : BatchCondition}
    (fail : ∀ c ∈ before, c.reads (filled results) (filled errors) = false)
    (panics : evalCondition results errors cond = none) :
    evalAny results errors (before ++ cond :: after) = none := by
  induction before with
  | nil => simp [evalAny, panics]
  | cons first before ih =>
      rw [List.cons_append, evalAny]
      cases eval : evalCondition results errors first with
      | none => rfl
      | some b =>
          have fails : b = false := by rw [← fail first List.mem_cons_self, eval_sound results errors first eval]
          subst fails
          exact ih fun c listed => fail c (List.mem_cons_of_mem first listed)

theorem none_of_reaches {cond inner : BatchCondition} (reaches : Reaches (filled results) (filled errors) cond inner)
    (panics : evalCondition results errors inner = none) : evalCondition results errors cond = none := by
  induction reaches with
  | here cond => exact panics
  | not _ ih => rw [evalCondition, ih panics, Option.map_none]
  | and hold _ ih => exact evalAll_none results errors hold (ih panics)
  | or fail _ ih => exact evalAny_none results errors fail (ih panics)

theorem slot_none {α : Type} {slots : List (Option α)} {step : Option Int} (panics : slot slots step = none) :
    ∃ i : Int, i < 0 ∧ step = some i := by
  cases step with
  | none => simp [slot] at panics
  | some i =>
      refine ⟨i, ?_, rfl⟩
      by_contra counted
      simp [slot_filled slots (Int.not_lt.mp counted)] at panics

theorem reaches_of_none (cond : BatchCondition) (panics : evalCondition results errors cond = none) :
    ∃ i : Int, i < 0 ∧ (Reaches (filled results) (filled errors) cond (.ok (some i)) ∨
      Reaches (filled results) (filled errors) cond (.error (some i))) := by
  match cond with
  | .ok step =>
      obtain ⟨i, negative, rfl⟩ := slot_none panics
      exact ⟨i, negative, .inl (.here _)⟩
  | .error step =>
      obtain ⟨i, negative, rfl⟩ := slot_none panics
      exact ⟨i, negative, .inr (.here _)⟩
  | .not none => simp [evalCondition] at panics
  | .not (some cond) =>
      obtain ⟨i, negative, reached⟩ := reaches_of_none cond (Option.map_eq_none_iff.mp panics)
      exact ⟨i, negative, reached.imp .not .not⟩
  | .and conds =>
      obtain ⟨before, cond, after, split, hold, inside⟩ := evalAll_none_split results errors panics
      have smaller : sizeOf cond < sizeOf conds := List.sizeOf_lt_of_mem (by simp [split])
      obtain ⟨i, negative, reached⟩ := reaches_of_none cond inside
      subst split
      exact ⟨i, negative, reached.imp (.and hold) (.and hold)⟩
  | .or conds =>
      obtain ⟨before, cond, after, split, fail, inside⟩ := evalAny_none_split results errors panics
      have smaller : sizeOf cond < sizeOf conds := List.sizeOf_lt_of_mem (by simp [split])
      obtain ⟨i, negative, reached⟩ := reaches_of_none cond inside
      subst split
      exact ⟨i, negative, reached.imp (.or fail) (.or fail)⟩
  | .isAutocommit => simp [evalCondition] at panics
  | .other => simp [evalCondition] at panics
termination_by sizeOf cond

-- Only the upper bound of the step number is checked.
theorem condition_read_iff_steps_counted (cond : BatchCondition) :
    evalCondition results errors cond = some (cond.reads (filled results) (filled errors)) ↔
      cond.StepsCounted (filled results) (filled errors) := by
  constructor
  · intro read i reached
    by_contra negative
    have panics : evalCondition results errors cond = none := by
      rcases reached with ok | error
      · exact none_of_reaches results errors ok (slot_negative results (Int.not_le.mp negative))
      · exact none_of_reaches results errors error (slot_negative errors (Int.not_le.mp negative))
    simp [panics] at read
  · intro counted
    cases eval : evalCondition results errors cond with
    | none =>
        obtain ⟨i, negative, reached⟩ := reaches_of_none results errors cond eval
        exact absurd (counted i reached) (Int.not_le.mpr negative)
    | some b => rw [eval_sound results errors cond eval]

end

theorem condition_of_negative_step_unread :
    ¬ ∀ (results : List (Option (ExecResult Unit))) (errors : List (Option GoText.GoString)) (cond : BatchCondition),
      evalCondition results errors cond = some (cond.reads (filled results) (filled errors)) := by
  intro read
  exact absurd (read [some .empty, none] [none, none] (.ok (some (-1)))) (by decide)

end Brainkit.Libsql
