import Mathlib.Logic.Function.Basic

set_option autoImplicit false

universe u v

namespace Transition

-- A machine is a partial step function: none means that the action is not enabled in the state (a held lock, a full
-- channel, a thread not at that point). An interleaving is the list of the actions taken, in order.
def run {σ : Type u} {α : Type v} (step : σ → α → Option σ) : σ → List α → Option σ
  | state, [] => some state
  | state, action :: rest => (step state action).bind fun next => run step next rest

-- Every action of the run is taken in a state where the condition allows it. A disabled action ends the run, so
-- nothing is asked of the actions after it.
def Along {σ : Type u} {α : Type v} (step : σ → α → Option σ) (ok : σ → α → Prop) : σ → List α → Prop
  | _, [] => True
  | state, action :: rest => ok state action ∧ ∀ next, step state action = some next → Along step ok next rest

def Always {σ : Type u} {α : Type v} (step : σ → α → Option σ) (holds : σ → Prop) : σ → List α → Prop
  | state, [] => holds state
  | state, action :: rest => holds state ∧ ∀ next, step state action = some next → Always step holds next rest

def Reachable {σ : Type u} {α : Type v} (step : σ → α → Option σ) (start state : σ) : Prop :=
  ∃ path, run step start path = some state

-- However the machine takes its own steps, it comes to a goal: where it has not come to one, it has a step to take, and
-- from wherever such a step leads it comes to one.
inductive Inevitable {σ : Type u} {α : Type v} (step : σ → α → Option σ) (own : α → Prop) (goal : σ → Prop) :
    σ → Prop where
  | here {state : σ} (there : goal state) : Inevitable step own goal state
  | further {state : σ} (enabled : ∃ action next, own action ∧ step state action = some next)
      (leads : ∀ action next, own action → step state action = some next → Inevitable step own goal next) :
      Inevitable step own goal state

section

variable {σ : Type u} {α : Type v} {step : σ → α → Option σ} {ok : σ → α → Prop}

@[simp] theorem run_nil (state : σ) : run step state [] = some state := rfl

theorem run_cons (state : σ) (action : α) (rest : List α) :
    run step state (action :: rest) = (step state action).bind fun next => run step next rest := rfl

theorem run_cons_some {state final : σ} {action : α} {rest : List α}
    (reached : run step state (action :: rest) = some final) :
    ∃ next, step state action = some next ∧ run step next rest = some final :=
  Option.bind_eq_some_iff.mp reached

theorem run_total (enabled : ∀ state action, ∃ next, step state action = some next) (state : σ) (path : List α) :
    ∃ final, run step state path = some final := by
  induction path generalizing state with
  | nil => exact ⟨state, rfl⟩
  | cons action rest ih =>
      obtain ⟨next, taken⟩ := enabled state action
      obtain ⟨final, reached⟩ := ih next
      exact ⟨final, by rw [run_cons, taken, Option.bind_some, reached]⟩

theorem run_append (state : σ) (first second : List α) :
    run step state (first ++ second) = (run step state first).bind fun middle => run step middle second := by
  induction first generalizing state with
  | nil => rfl
  | cons action rest ih =>
      rw [List.cons_append, run_cons, run_cons, Option.bind_assoc]
      exact Option.bind_congr fun next _ => ih next

theorem run_append_some {state middle final : σ} {first second : List α}
    (toMiddle : run step state first = some middle) (toFinal : run step middle second = some final) :
    run step state (first ++ second) = some final := by
  rw [run_append, toMiddle, Option.bind_some, toFinal]

theorem reachable_run {start state final : σ} {path : List α}
    (reached : Reachable step start state) (toFinal : run step state path = some final) :
    Reachable step start final := by
  obtain ⟨before, toState⟩ := reached
  exact ⟨before ++ path, run_append_some toState toFinal⟩

theorem reachable_checked {start : σ} (path : List α) (check : σ → Bool)
    (checked : (run step start path).map check = some true) : ∃ state, Reachable step start state ∧ check state = true := by
  obtain ⟨state, reached, passes⟩ := Option.map_eq_some_iff.mp checked
  exact ⟨state, ⟨path, reached⟩, passes⟩

theorem along_cons {state next : σ} {action : α} {rest : List α} (allowed : ok state action)
    (taken : step state action = some next) (later : Along step ok next rest) : Along step ok state (action :: rest) := by
  refine ⟨allowed, fun other same => ?_⟩
  rw [taken, Option.some.injEq] at same
  exact same ▸ later

instance decidableAlong [∀ state action, Decidable (ok state action)] : ∀ state path, Decidable (Along step ok state path)
  | _, [] => isTrue trivial
  | state, action :: rest => match taken : step state action with
      | none => decidable_of_iff (ok state action) (by simp [Along, taken])
      | some next =>
          have := decidableAlong next rest
          decidable_of_iff (ok state action ∧ Along step ok next rest) (by simp [Along, taken])

end

-- The invariant rules. A property that every allowed step keeps is kept by every run of allowed steps; without a
-- condition, by every run.
section

variable {σ : Type u} {α : Type v} {step : σ → α → Option σ} {ok : σ → α → Prop} {invariant : σ → Prop}

theorem along_invariant
    (keeps : ∀ state action next, invariant state → ok state action → step state action = some next → invariant next)
    {start final : σ} {path : List α} (initial : invariant start)
    (allowed : Along step ok start path) (reached : run step start path = some final) : invariant final := by
  induction path generalizing start with
  | nil =>
      cases reached
      exact initial
  | cons action rest ih =>
      obtain ⟨next, taken, toFinal⟩ := run_cons_some reached
      exact ih (keeps start action next initial allowed.1 taken) (allowed.2 next taken) toFinal

theorem run_invariant
    (keeps : ∀ state action next, invariant state → step state action = some next → invariant next)
    {start final : σ} {path : List α} (initial : invariant start)
    (reached : run step start path = some final) : invariant final := by
  induction path generalizing start with
  | nil =>
      cases reached
      exact initial
  | cons action rest ih =>
      obtain ⟨next, taken, toFinal⟩ := run_cons_some reached
      exact ih (keeps start action next initial taken) toFinal

theorem run_history {relates : List α → σ → Prop}
    (keeps : ∀ path state action next, relates path state → step state action = some next → relates (path ++ [action]) next)
    {start final : σ} {before path : List α} (initial : relates before start)
    (reached : run step start path = some final) : relates (before ++ path) final := by
  induction path generalizing start before with
  | nil =>
      cases reached
      rwa [List.append_nil]
  | cons action rest ih =>
      obtain ⟨next, taken, toFinal⟩ := run_cons_some reached
      have further := ih (keeps before start action next initial taken) toFinal
      rwa [List.append_assoc, List.singleton_append] at further

theorem reachable_invariant
    (keeps : ∀ state action next, invariant state → step state action = some next → invariant next)
    {start final : σ} (initial : invariant start) (reached : Reachable step start final) : invariant final := by
  obtain ⟨path, toFinal⟩ := reached
  exact run_invariant keeps initial toFinal

theorem run_avoids {bad : α → Prop}
    (keeps : ∀ state action next, invariant state → step state action = some next → invariant next)
    (avoids : ∀ state action next, invariant state → step state action = some next → ¬ bad action)
    {start final : σ} {path : List α} (initial : invariant start)
    (reached : run step start path = some final) : ∀ action ∈ path, ¬ bad action := by
  induction path generalizing start with
  | nil => exact fun _ member => nomatch member
  | cons action rest ih =>
      obtain ⟨next, taken, toFinal⟩ := run_cons_some reached
      intro other member
      rcases List.mem_cons.mp member with rfl | later
      · exact avoids start other next initial taken
      · exact ih (keeps start action next initial taken) toFinal other later

theorem along_mono {allowed : σ → α → Prop} (weaker : ∀ state action, ok state action → allowed state action)
    {start : σ} {path : List α} (kept : Along step ok start path) : Along step allowed start path := by
  induction path generalizing start with
  | nil => trivial
  | cons action rest ih => exact ⟨weaker start action kept.1, fun next taken => ih (kept.2 next taken)⟩

theorem always_along
    (keeps : ∀ state action next, invariant state → ok state action → step state action = some next → invariant next)
    {start : σ} {path : List α} (initial : invariant start) (allowed : Along step ok start path) :
    Always step invariant start path := by
  induction path generalizing start with
  | nil => exact initial
  | cons action rest ih =>
      exact ⟨initial, fun next taken => ih (keeps start action next initial allowed.1 taken) (allowed.2 next taken)⟩

theorem always_invariant
    (keeps : ∀ state action next, invariant state → step state action = some next → invariant next)
    {start : σ} (initial : invariant start) (path : List α) : Always step invariant start path := by
  induction path generalizing start with
  | nil => exact initial
  | cons action rest ih => exact ⟨initial, fun next taken => ih (keeps start action next initial taken)⟩

theorem along_held
    (keeps : ∀ state action next, invariant state → ok state action → step state action = some next → invariant next)
    {start : σ} {path : List α} (initial : invariant start) (allowed : Along step ok start path) :
    Along step (fun state action => invariant state ∧ ok state action) start path := by
  induction path generalizing start with
  | nil => trivial
  | cons action rest ih =>
      exact ⟨⟨initial, allowed.1⟩, fun next taken =>
        ih (keeps start action next initial allowed.1 taken) (allowed.2 next taken)⟩

theorem always_mono {holds : σ → Prop} (weaker : ∀ state, invariant state → holds state) {start : σ} {path : List α}
    (always : Always step invariant start path) : Always step holds start path := by
  induction path generalizing start with
  | nil => exact weaker start always
  | cons action rest ih => exact ⟨weaker start always.1, fun next taken => ih (always.2 next taken)⟩

-- When the allowed steps are exactly the ones that keep a property, it holds throughout the runs of allowed steps and
-- throughout no other run. The invariant may lean on the property, as the runs are followed only while it holds.
theorem always_iff_along_held {holds : σ → Prop}
    (keeps : ∀ state action next, invariant state → holds state → holds next → step state action = some next → invariant next)
    (exactly : ∀ state action next, invariant state → holds state → step state action = some next →
      (holds next ↔ ok state action))
    {start final : σ} {path : List α} (valid : invariant start) (initial : holds start)
    (reached : run step start path = some final) : Always step holds start path ↔ Along step ok start path := by
  induction path generalizing start with
  | nil => exact iff_of_true initial trivial
  | cons action rest ih =>
      obtain ⟨next, taken, toFinal⟩ := run_cons_some reached
      have head := exactly start action next valid initial taken
      simp only [Always, Along, taken, Option.some.injEq, forall_eq', initial, true_and]
      constructor
      · intro visited
        have kept : holds next := by cases rest <;> first | exact visited | exact visited.1
        have after := keeps start action next valid initial kept taken
        exact ⟨head.mp kept, (ih after kept toFinal).mp visited⟩
      · rintro ⟨allowed, along⟩
        have kept := head.mpr allowed
        have after := keeps start action next valid initial kept taken
        exact (ih after kept toFinal).mpr along

theorem always_iff_along {holds : σ → Prop}
    (keeps : ∀ state action next, invariant state → step state action = some next → invariant next)
    (exactly : ∀ state action next, invariant state → holds state → step state action = some next →
      (holds next ↔ ok state action))
    {start final : σ} {path : List α} (valid : invariant start) (initial : holds start)
    (reached : run step start path = some final) : Always step holds start path ↔ Along step ok start path :=
  always_iff_along_held (fun state action next before _ _ taken => keeps state action next before taken) exactly valid
    initial reached

-- When breaking the condition once dooms the rest of the run, a run whose last state is not doomed has kept the
-- condition all along.
theorem along_of_final {doomed : σ → Prop}
    (keeps : ∀ state action next, invariant state → step state action = some next → invariant next)
    (breaks : ∀ state action next, invariant state → ¬ ok state action → step state action = some next → doomed next)
    (stays : ∀ state action next, invariant state → doomed state → step state action = some next → doomed next)
    {start final : σ} {path : List α} (initial : invariant start)
    (reached : run step start path = some final) (spared : ¬ doomed final) : Along step ok start path := by
  induction path generalizing start with
  | nil => trivial
  | cons action rest ih =>
      obtain ⟨next, taken, toFinal⟩ := run_cons_some reached
      have kept := keeps start action next initial taken
      refine ⟨?_, ?_⟩
      · by_contra broken
        have both : ∀ state later after, invariant state ∧ doomed state → step state later = some after →
            invariant after ∧ doomed after :=
          fun state later after holds moved =>
            ⟨keeps state later after holds.1 moved, stays state later after holds.1 holds.2 moved⟩
        exact spared (run_invariant both ⟨kept, breaks start action next initial broken taken⟩ toFinal).2
      · intro other same
        rw [taken, Option.some.injEq] at same
        exact ih (same ▸ kept) (same ▸ toFinal)

theorem inevitable_of_measure {own : α → Prop} {goal : σ → Prop} (measure : σ → Nat)
    (enabled : ∀ state, invariant state → ∃ action next, own action ∧ step state action = some next)
    (leads : ∀ state action next, invariant state → own action → step state action = some next →
      goal next ∨ invariant next ∧ measure next < measure state)
    {start : σ} (initial : invariant start) : Inevitable step own goal start := by
  induction n : measure start using Nat.strongRecOn generalizing start with
  | ind n ih =>
      subst n
      refine .further (enabled start initial) fun action next mine taken => ?_
      obtain there | ⟨kept, less⟩ := leads start action next initial mine taken
      · exact .here there
      · exact ih (measure next) less kept rfl

end

end Transition
