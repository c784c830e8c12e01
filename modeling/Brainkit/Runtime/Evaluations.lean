import Brainkit.Library.Binding
import Brainkit.Library.GoText
import Brainkit.Library.Transition
import Mathlib.Data.List.Nodup

set_option autoImplicit false

namespace Brainkit.Runtime

open Function (update)
open GoText Transition

-- The code of a returned evaluation is done, the finally block of __kitRunWithSource is not.
inductive Phase where
  | running
  | suspended
  | returned
  | settled
deriving DecidableEq

-- A call of __kitRunWithSource with its variables prev and prevNs. undefined is none.
structure Evaluation where
  source : GoString
  prev : GoString
  prevNs : Option GoString
  phase : Phase
deriving DecidableEq

-- The JS thread. running is the evaluation whose code runs, none in the event loop. waiting are the Go calls on the stack
-- that code has made to evaluate other code: the caller and the evaluation that it waits for. unsettled are the
-- evaluations that have not settled, the last one first; it is history.
structure Evaluations where
  currentSource : GoString
  deploymentNamespace : Option GoString
  evaluation : Nat → Evaluation
  started : Nat
  running : Option Nat
  waiting : List (Nat × Nat)
  unsettled : List Nat

def namespaceOf (source : GoString) : GoString :=
  let name := if (lit ".ts").isSuffixOf source then source.take (source.length - 3) else source
  lit "ts." ++ name.map fun byte => if byte = 47 then 46 else byte

namespace Evaluations

def new : Evaluations := ⟨[], none, fun _ => ⟨[], [], none, .settled⟩, 0, none, [], []⟩

def setPhase (i : Nat) (phase : Phase) (s : Evaluations) : Evaluations :=
  { s with evaluation := update s.evaluation i { s.evaluation i with phase } }

-- The code of another evaluation, which is on the stack when there is one, waits for it.
def runWithSource (source : GoString) (s : Evaluations) : Evaluations :=
  { s with
    currentSource := source
    deploymentNamespace := some (namespaceOf source)
    evaluation := update s.evaluation s.started ⟨source, s.currentSource, s.deploymentNamespace, .running⟩
    started := s.started + 1
    running := some s.started
    waiting := (s.running.map fun i => (i, s.started)).toList ++ s.waiting
    unsettled := s.started :: s.unsettled }

def restore (i : Nat) (s : Evaluations) : Evaluations :=
  { s.setPhase i .settled with
    currentSource := (s.evaluation i).prev
    deploymentNamespace := (s.evaluation i).prevNs
    unsettled := s.unsettled.erase i }

inductive Action where
  | run (source : GoString)
  | await
  | finish
  | resume (i : Nat)
  | restore (i : Nat)
  | back

def step (s : Evaluations) : Action → Option Evaluations
  | .run source => some (s.runWithSource source)
  | .await => s.running.map fun i => { s.setPhase i .suspended with running := none }
  | .finish => s.running.map fun i => { s.setPhase i .returned with running := none }
  | .resume i =>
      if s.running = none ∧ i < s.started ∧ (s.evaluation i).phase = .suspended then
        some { s.setPhase i .running with running := some i }
      else none
  | .restore i =>
      if s.running = none ∧ i < s.started ∧ (s.evaluation i).phase = .returned then some (s.restore i) else none
  | .back => match s.waiting with
      | [] => none
      | (i, j) :: rest =>
          if s.running = none ∧ (s.evaluation j).phase = .settled then some { s with running := some i, waiting := rest }
          else none

def Current (s : Evaluations) : Prop :=
  ∀ i, s.running = some i → s.currentSource = (s.evaluation i).source ∧
    s.deploymentNamespace = some (namespaceOf (s.evaluation i).source)

def Restored (s : Evaluations) : Prop :=
  (∀ i < s.started, (s.evaluation i).phase = .settled) → s.currentSource = [] ∧ s.deploymentNamespace = none

def Holds (s : Evaluations) : Prop := s.Current ∧ s.Restored

def Latest (s : Evaluations) (source : GoString) : Prop := ∀ j ∈ s.unsettled.head?, (s.evaluation j).source = source

-- Code is resumed only while the last evaluation that has not settled is of its source, and evaluations settle in the
-- order opposite to the one they have started in.
def Nested (s : Evaluations) : Action → Prop
  | .resume i => s.Latest (s.evaluation i).source
  | .back => ∀ entry ∈ s.waiting.head?, s.Latest (s.evaluation entry.1).source
  | .restore i => s.unsettled.head? = some i
  | _ => True

def scope (s : Evaluations) (i : Nat) : Binding.Scope (GoString × Option GoString) :=
  ⟨((s.evaluation i).source, some (namespaceOf (s.evaluation i).source)), ((s.evaluation i).prev, (s.evaluation i).prevNs)⟩

def stack (s : Evaluations) : List Nat := s.running.toList ++ s.waiting.map Prod.fst

structure Valid (s : Evaluations) : Prop where
  nested : Binding.Nested ([], none) (s.unsettled.map s.scope)
  bound : (s.currentSource, s.deploymentNamespace) = Binding.bound ([], none) (s.unsettled.map s.scope)
  listed : ∀ i, i ∈ s.unsettled ↔ i < s.started ∧ (s.evaluation i).phase ≠ .settled
  distinct : s.unsettled.Nodup
  latest : ∀ i, s.running = some i → s.Latest (s.evaluation i).source
  stacked : ∀ i ∈ s.stack, i < s.started ∧ (s.evaluation i).phase = .running
  once : s.stack.Nodup

variable {s : Evaluations}

theorem valid_new : new.Valid where
  nested := trivial
  bound := rfl
  listed i := iff_of_false List.not_mem_nil fun begun => absurd begun.1 (Nat.not_lt_zero i)
  distinct := List.nodup_nil
  latest := nofun
  stacked _ member := absurd member List.not_mem_nil
  once := List.nodup_nil

theorem holds (valid : s.Valid) : s.Holds := by
  constructor
  · intro i runs
    obtain ⟨begun, phase⟩ := valid.stacked i (by rw [stack, runs]; exact List.mem_cons_self)
    have member := (valid.listed i).mpr ⟨begun, by rw [phase]; exact nofun⟩
    have bound := valid.bound
    have latest := valid.latest i runs
    unfold Latest at latest
    cases open' : s.unsettled with
    | nil => exact absurd (open' ▸ member) List.not_mem_nil
    | cons j rest =>
        rw [open', List.map_cons] at bound
        rw [open'] at latest
        rw [← latest j rfl]
        exact ⟨congrArg Prod.fst bound, congrArg Prod.snd bound⟩
  · intro settled
    have bound := valid.bound
    cases open' : s.unsettled with
    | nil =>
        rw [open'] at bound
        exact ⟨congrArg Prod.fst bound, congrArg Prod.snd bound⟩
    | cons j rest =>
        obtain ⟨begun, live⟩ := (valid.listed j).mp (open' ▸ List.mem_cons_self)
        exact absurd (settled j begun) live

theorem phase_source (i j : Nat) (phase : Phase) : ((s.setPhase i phase).evaluation j).source = (s.evaluation j).source := by
  by_cases this : j = i
  · simp only [this, setPhase, Function.update_self]
  · simp only [setPhase, Function.update_of_ne this]

theorem phase_scope (i : Nat) (phase : Phase) : (s.setPhase i phase).scope = s.scope := by
  funext j
  by_cases this : j = i
  · simp only [this, scope, setPhase, Function.update_self]
  · simp only [scope, setPhase, Function.update_of_ne this]

theorem phase_listed {i : Nat} {phase : Phase} (begun : i < s.started) (live : (s.evaluation i).phase ≠ .settled)
    (alive : phase ≠ .settled) (j : Nat) :
    j < s.started ∧ ((s.setPhase i phase).evaluation j).phase ≠ .settled ↔
      j < s.started ∧ (s.evaluation j).phase ≠ .settled := by
  by_cases this : j = i
  · simp only [this, setPhase, Function.update_self]
    exact iff_of_true ⟨begun, alive⟩ ⟨begun, live⟩
  · simp only [setPhase, Function.update_of_ne this]

theorem phase_valid (valid : s.Valid) {i : Nat} (begun : i < s.started) (live : (s.evaluation i).phase ≠ .settled)
    (apart : i ∉ s.waiting.map Prod.fst) (phase : Phase) (alive : phase ≠ .settled)
    (running : Option Nat) (runs : ∀ j, running = some j → j = i ∧ phase = .running ∧ s.Latest (s.evaluation i).source) :
    ({ s.setPhase i phase with running } : Evaluations).Valid where
  nested := by
    change Binding.Nested _ (s.unsettled.map (s.setPhase i phase).scope)
    rw [phase_scope]
    exact valid.nested
  bound := by
    change _ = Binding.bound _ (s.unsettled.map (s.setPhase i phase).scope)
    rw [phase_scope]
    exact valid.bound
  listed j := (valid.listed j).trans (phase_listed begun live alive j).symm
  distinct := valid.distinct
  latest j same := by
    obtain ⟨rfl, -, latest⟩ := runs j same
    intro k head
    exact (phase_source j k phase).trans ((latest k head).trans (phase_source j j phase).symm)
  stacked j member := by
    cases List.mem_append.mp member with
    | inl here =>
        obtain ⟨rfl, rfl, -⟩ := runs j (Option.mem_toList.mp here)
        exact ⟨begun, by simp only [setPhase, Function.update_self]⟩
    | inr waits =>
        have other : j ≠ i := by
          rintro rfl
          exact apart waits
        simp only [setPhase, Function.update_of_ne other]
        exact valid.stacked j (List.mem_append_right _ waits)
  once := by
    refine List.nodup_append.mpr ⟨?_, (List.nodup_append.mp valid.once).2.1, ?_⟩
    · cases running with
      | none => exact List.nodup_nil
      | some j => exact List.nodup_singleton j
    · rintro j here k waits rfl
      obtain ⟨rfl, -⟩ := runs j (Option.mem_toList.mp here)
      exact apart waits

theorem run_valid (valid : s.Valid) (source : GoString) : (s.runWithSource source).Valid := by
  have old (j : Nat) (begun : j < s.started) : (s.runWithSource source).evaluation j = s.evaluation j :=
    Function.update_of_ne (Nat.ne_of_lt begun) _ s.evaluation
  have new : (s.runWithSource source).evaluation s.started = ⟨source, s.currentSource, s.deploymentNamespace, .running⟩ :=
    Function.update_self s.started _ s.evaluation
  have scopes : s.unsettled.map (s.runWithSource source).scope = s.unsettled.map s.scope := by
    refine List.map_congr_left fun j member => ?_
    unfold scope
    rw [old j ((valid.listed j).mp member).1]
  have stack : (s.runWithSource source).stack = s.started :: s.stack := by
    unfold Evaluations.stack runWithSource
    cases s.running <;> rfl
  have fresh : s.started ∉ s.stack := fun member => absurd (valid.stacked _ member).1 (Nat.lt_irrefl _)
  have entered := Binding.nested_enter valid.nested (source, some (namespaceOf source))
  rw [← valid.bound, ← scopes] at entered
  constructor
  · have head : (s.runWithSource source).scope s.started =
        ⟨(source, some (namespaceOf source)), (s.currentSource, s.deploymentNamespace)⟩ := by
      unfold scope
      rw [new]
    change Binding.Nested _ ((s.runWithSource source).scope s.started :: s.unsettled.map (s.runWithSource source).scope)
    rw [head]
    exact entered
  · change _ = ((s.runWithSource source).scope s.started).value
    unfold scope
    rw [new]
    rfl
  · intro j
    change j ∈ s.started :: s.unsettled ↔ j < s.started + 1 ∧ _
    rw [List.mem_cons]
    by_cases this : j = s.started
    · rw [this, new]
      exact iff_of_true (.inl rfl) ⟨Nat.lt_succ_self _, nofun⟩
    · by_cases begun : j < s.started
      · rw [old j begun, or_iff_right this, valid.listed j]
        exact and_congr_left fun _ => iff_of_true begun (Nat.lt_succ_of_lt begun)
      · exact iff_of_false (fun member => member.elim this fun later => begun ((valid.listed j).mp later).1)
          fun later => begun (Nat.lt_of_le_of_ne (Nat.le_of_lt_succ later.1) this)
  · refine List.nodup_cons.mpr ⟨fun member => ?_, valid.distinct⟩
    exact Nat.lt_irrefl _ ((valid.listed s.started).mp member).1
  · intro i same j head
    cases same
    cases head
    rfl
  · intro i member
    rw [stack, List.mem_cons] at member
    cases member with
    | inl here =>
        rw [here, new]
        exact ⟨Nat.lt_succ_self _, rfl⟩
    | inr before =>
        obtain ⟨begun, phase⟩ := valid.stacked i before
        rw [old i begun]
        exact ⟨Nat.lt_succ_of_lt begun, phase⟩
  · rw [stack]
    exact List.nodup_cons.mpr ⟨fresh, valid.once⟩

theorem restore_valid (valid : s.Valid) {i : Nat} (idle : s.running = none) (phase : (s.evaluation i).phase = .returned)
    (last : s.unsettled.head? = some i) : (s.restore i).Valid := by
  obtain ⟨rest, unsettled⟩ : ∃ rest, s.unsettled = i :: rest := by
    cases open' : s.unsettled with
    | nil =>
        rw [open'] at last
        cases last
    | cons j rest =>
        rw [open'] at last
        cases last
        exact ⟨rest, rfl⟩
  have distinct := valid.distinct
  have nested := valid.nested
  rw [unsettled] at distinct nested
  obtain ⟨gone, distinct⟩ := List.nodup_cons.mp distinct
  obtain ⟨found, nested⟩ := Binding.nested_leave nested
  have left : (s.restore i).unsettled = rest := by
    change s.unsettled.erase i = rest
    rw [unsettled, List.erase_cons_head]
  have scopes : (s.restore i).scope = s.scope := phase_scope i .settled
  have waits (j : Nat) (member : j ∈ (s.restore i).stack) : j ∈ s.stack ∧ j ≠ i := by
    refine ⟨member, ?_⟩
    rintro rfl
    have runs := (valid.stacked j member).2
    rw [phase] at runs
    cases runs
  constructor
  · rw [left, scopes]
    exact nested
  · rw [left, scopes]
    exact found
  · intro j
    rw [left]
    by_cases this : j = i
    · have settled : ((s.restore i).evaluation i).phase = .settled := by
        change ((s.setPhase i .settled).evaluation i).phase = _
        simp only [setPhase, Function.update_self]
      rw [this, settled]
      exact iff_of_false gone fun live => live.2 rfl
    · have same : (s.restore i).evaluation j = s.evaluation j := Function.update_of_ne this _ s.evaluation
      rw [same]
      refine Iff.trans ?_ (valid.listed j)
      rw [unsettled, List.mem_cons, or_iff_right this]
  · rw [left]
    exact distinct
  · exact fun j runs => by cases idle.symm.trans runs
  · intro j member
    obtain ⟨before, other⟩ := waits j member
    have same : (s.restore i).evaluation j = s.evaluation j := Function.update_of_ne other _ s.evaluation
    rw [same]
    exact valid.stacked j before
  · exact valid.once

theorem back_valid (valid : s.Valid) {i j : Nat} {rest : List (Nat × Nat)} (waiting : s.waiting = (i, j) :: rest)
    (idle : s.running = none) (latest : s.Latest (s.evaluation i).source) :
    ({ s with running := some i, waiting := rest } : Evaluations).Valid := by
  have stack : s.stack = i :: rest.map Prod.fst := by
    unfold Evaluations.stack
    rw [idle, waiting]
    rfl
  refine { valid with latest := fun k same => ?_, stacked := fun k member => ?_, once := ?_ }
  · cases same
    exact latest
  · exact valid.stacked k (stack ▸ member)
  · have once := valid.once
    rw [stack] at once
    exact once

theorem nested_keeps {next : Evaluations} (valid : s.Valid) (action : Action) (nested : s.Nested action)
    (taken : step s action = some next) : next.Valid := by
  have running {i : Nat} (runs : s.running = some i) : i ∈ s.stack ∧ i ∉ s.waiting.map Prod.fst := by
    have once := valid.once
    unfold stack at once ⊢
    rw [runs] at once ⊢
    exact ⟨List.mem_cons_self, (List.nodup_cons.mp once).1⟩
  have paused {i : Nat} (phase : (s.evaluation i).phase ≠ .running) : i ∉ s.waiting.map Prod.fst :=
    fun member => phase (valid.stacked i (List.mem_append_right _ member)).2
  cases action with
  | run source =>
      cases taken
      exact run_valid valid source
  | await =>
      obtain ⟨i, runs, rfl⟩ := Option.map_eq_some_iff.mp taken
      obtain ⟨begun, phase⟩ := valid.stacked i (running runs).1
      exact phase_valid valid begun (by simp [phase]) (running runs).2 .suspended (by rintro ⟨⟩) none (by rintro _ ⟨⟩)
  | finish =>
      obtain ⟨i, runs, rfl⟩ := Option.map_eq_some_iff.mp taken
      obtain ⟨begun, phase⟩ := valid.stacked i (running runs).1
      exact phase_valid valid begun (by simp [phase]) (running runs).2 .returned (by rintro ⟨⟩) none (by rintro _ ⟨⟩)
  | resume i =>
      obtain ⟨⟨_, begun, phase⟩, same⟩ := Option.ite_none_right_eq_some.mp taken
      cases same
      refine phase_valid valid begun (by simp [phase]) (paused (by simp [phase])) .running (by rintro ⟨⟩) (some i) fun j same => ?_
      cases same
      exact ⟨rfl, rfl, nested⟩
  | restore i =>
      obtain ⟨⟨idle, _, phase⟩, same⟩ := Option.ite_none_right_eq_some.mp taken
      cases same
      exact restore_valid valid idle phase nested
  | back =>
      dsimp only [step] at taken
      split at taken
      · cases taken
      · next i j rest waiting =>
          obtain ⟨⟨idle, _⟩, same⟩ := Option.ite_none_right_eq_some.mp taken
          cases same
          exact back_valid valid waiting idle (nested (i, j) (by rw [waiting]; rfl))

theorem nested_always {path : List Action} (nested : Along step Nested new path) : Always step Holds new path :=
  always_mono (fun _ => holds) (always_along (fun _ action _ valid ok taken => nested_keeps valid action ok taken) valid_new nested)

-- A file deploys another one while its own code runs.
theorem deploying_holds : Always step Holds new
    [.run (lit "a.ts"), .run (lit "lib/b.ts"), .await, .resume 1, .finish, .restore 1, .back, .await, .resume 0, .finish,
      .restore 0] := by
  refine nested_always ?_
  refine along_cons trivial rfl (along_cons trivial rfl (along_cons trivial rfl (along_cons ?_ rfl (along_cons trivial rfl
    (along_cons rfl rfl (along_cons ?_ rfl (along_cons trivial rfl (along_cons ?_ rfl (along_cons trivial rfl
      (along_cons rfl rfl trivial))))))))))
  · rintro j ⟨⟩
    rfl
  · rintro entry ⟨⟩ j ⟨⟩
    rfl
  · rintro j ⟨⟩
    rfl

-- Two files that await at their top level. The first one goes on under the name of the second, and when both are done the
-- source is that of the first.
theorem overlapping_mixed : ∃ s t, run step new [.run (lit "a.ts"), .await, .run (lit "b.ts"), .await, .resume 0] = some s ∧
    s.running = some 0 ∧ (s.evaluation 0).source = lit "a.ts" ∧ s.currentSource = lit "b.ts" ∧
    run step s [.finish, .restore 0, .resume 1, .finish, .restore 1] = some t ∧ t.started = 2 ∧
    (∀ i < t.started, (t.evaluation i).phase = .settled) ∧ t.currentSource = lit "a.ts" ∧
    t.deploymentNamespace = some (lit "ts.a") ∧ ¬ s.Holds ∧ ¬ t.Holds := by
  refine ⟨_, _, rfl, rfl, rfl, rfl, rfl, rfl, by decide, rfl, by decide, fun holds => ?_, fun holds => ?_⟩
  · exact absurd (holds.1 0 rfl).1 (by decide)
  · exact absurd (holds.2 (by decide)).1 (by decide)

end Evaluations

end Brainkit.Runtime
