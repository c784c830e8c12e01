import Brainkit.Library.GoText
import Brainkit.Library.Listed
import Brainkit.Library.Transition

set_option autoImplicit false

-- closejob.Job: one slot for the close operation that runs, the goroutines of the operations and the calls of Wait.
namespace Brainkit.Modules.CloseJob

open GoText Listed Transition

abbrev Result := Option GoString

inductive Phase where
  | spawned
  | called (err : Result)
  | ended (err : Result)
deriving DecidableEq

structure Run where
  phase : Phase
  calls : Nat
  closed : Bool
deriving DecidableEq

inductive Waiter where
  | selecting (done : Nat)
  | finishing (done : Nat)
  | returned (done : Nat) (err : Result)
  | cancelled (done : Nat) (err : GoString)
deriving DecidableEq

-- The fields of Job.
structure Slot where
  done : Option Nat
  err : Result
  running : Bool
deriving DecidableEq

structure Job where
  slot : Slot
  runs : List Run
  waiters : List Waiter
deriving DecidableEq

def Job.new : Job := ⟨⟨none, none, false⟩, [], []⟩

-- A running job keeps its slot, and its channel is what every other caller is given.
def start (j : Job) : Option Nat × Job :=
  if j.slot.running then (j.slot.done, j)
  else (some j.runs.length, { j with slot := ⟨some j.runs.length, none, true⟩, runs := j.runs ++ [⟨.spawned, 0, false⟩] })

def complete (id : Nat) (err : Result) (run : Run) (j : Job) : Job :=
  if j.slot.done = some id then
    { j with slot := { j.slot with err := err, running := false }, runs := j.runs.set id ⟨.ended err, run.calls, true⟩ }
  else { j with runs := j.runs.set id { run with phase := .ended err } }

def finish (done : Nat) (slot : Slot) : Result × Slot :=
  if slot.done ≠ some done then (none, slot)
  else (slot.err, if slot.running then slot else { slot with done := none, err := none })

inductive Action where
  | start
  | call (id : Nat) (err : Result)
  | complete (id : Nat)
  | wait (done : Nat)
  | observe (waiter : Nat)
  | cancel (waiter : Nat) (err : GoString)
  | finish (waiter : Nat)
deriving DecidableEq

-- A select with both channels ready may take either.
def step (j : Job) : Action → Option Job
  | .start => some (start j).2
  | .call id err => do
      let run ← j.runs[id]?
      if run.phase = .spawned then some { j with runs := j.runs.set id { run with phase := .called err, calls := run.calls + 1 } }
      else none
  | .complete id => do
      let run ← j.runs[id]?
      match run.phase with
      | .called err => some (complete id err run j)
      | _ => none
  | .wait done => if done < j.runs.length then some { j with waiters := j.waiters ++ [.selecting done] } else none
  | .observe waiter => do
      match ← j.waiters[waiter]? with
      | .selecting done =>
          let run ← j.runs[done]?
          if run.closed then some { j with waiters := j.waiters.set waiter (.finishing done) } else none
      | _ => none
  | .cancel waiter err => do
      match ← j.waiters[waiter]? with
      | .selecting done => some { j with waiters := j.waiters.set waiter (.cancelled done err) }
      | _ => none
  | .finish waiter => do
      match ← j.waiters[waiter]? with
      | .finishing done =>
          some { j with slot := (finish done j.slot).2, waiters := j.waiters.set waiter (.returned done (finish done j.slot).1) }
      | _ => none

inductive Moved (j : Job) : Action → Job → Prop
  | started : Moved j .start (start j).2
  | called {id : Nat} {run : Run} (err : Result) (present : j.runs[id]? = some run) (spawned : run.phase = .spawned) :
      Moved j (.call id err) { j with runs := j.runs.set id { run with phase := .called err, calls := run.calls + 1 } }
  | completed {id : Nat} {run : Run} {err : Result} (present : j.runs[id]? = some run) (called : run.phase = .called err) :
      Moved j (.complete id) (complete id err run j)
  | waits {done : Nat} (known : done < j.runs.length) :
      Moved j (.wait done) { j with waiters := j.waiters ++ [.selecting done] }
  | observed {waiter done : Nat} {run : Run} (selecting : j.waiters[waiter]? = some (.selecting done))
      (present : j.runs[done]? = some run) (closed : run.closed = true) :
      Moved j (.observe waiter) { j with waiters := j.waiters.set waiter (.finishing done) }
  | cancelled {waiter done : Nat} (err : GoString) (selecting : j.waiters[waiter]? = some (.selecting done)) :
      Moved j (.cancel waiter err) { j with waiters := j.waiters.set waiter (.cancelled done err) }
  | finished {waiter done : Nat} (finishing : j.waiters[waiter]? = some (.finishing done)) :
      Moved j (.finish waiter)
        { j with slot := (finish done j.slot).2, waiters := j.waiters.set waiter (.returned done (finish done j.slot).1) }

theorem step_moved {j next : Job} {action : Action} (taken : step j action = some next) : Moved j action next := by
  cases action with
  | start =>
      cases taken
      exact .started
  | call id err =>
      obtain ⟨run, present, later⟩ := Option.bind_eq_some_iff.mp taken
      split at later
      · next spawned =>
          cases later
          exact .called err present spawned
      · exact nomatch later
  | complete id =>
      obtain ⟨run, present, later⟩ := Option.bind_eq_some_iff.mp taken
      split at later
      · next err called =>
          cases later
          exact .completed present called
      · exact nomatch later
  | wait done =>
      simp only [step] at taken
      split at taken
      · next known =>
          cases taken
          exact .waits known
      · exact nomatch taken
  | observe waiter =>
      obtain ⟨place, found, later⟩ := Option.bind_eq_some_iff.mp taken
      split at later
      · next done =>
          obtain ⟨run, present, last⟩ := Option.bind_eq_some_iff.mp later
          split at last
          · next closed =>
              cases last
              exact .observed found present closed
          · exact nomatch last
      · exact nomatch later
  | cancel waiter err =>
      obtain ⟨place, found, later⟩ := Option.bind_eq_some_iff.mp taken
      split at later
      · next done =>
          cases later
          exact .cancelled err found
      · exact nomatch later
  | finish waiter =>
      obtain ⟨place, found, later⟩ := Option.bind_eq_some_iff.mp taken
      split at later
      · next done =>
          cases later
          exact .finished found
      · exact nomatch later

def Run.Sound (run : Run) : Prop :=
  match run.phase with
  | .spawned => run.calls = 0 ∧ run.closed = false
  | .called _ => run.calls = 1 ∧ run.closed = false
  | .ended _ => run.calls = 1 ∧ run.closed = true

def Ended (j : Job) (done : Nat) (err : Result) : Prop := ∃ run, j.runs[done]? = some run ∧ run.phase = .ended err

structure Valid (j : Job) : Prop where
  sound : ∀ (id : Nat) run, j.runs[id]? = some run → run.Sound
  active : ∀ (id : Nat) run, j.runs[id]? = some run → run.closed = false → j.slot.running = true ∧ j.slot.done = some id
  busy : j.slot.running = true → ∃ (id : Nat) (run : Run), j.slot.done = some id ∧ j.runs[id]? = some run ∧ run.closed = false
  stored : j.slot.running = false → ∀ id, j.slot.done = some id → Ended j id j.slot.err
  finishing : ∀ (waiter : Nat) done, j.waiters[waiter]? = some (.finishing done) → ∃ err, Ended j done err
  returned : ∀ (waiter : Nat) done err, j.waiters[waiter]? = some (.returned done err) → ∃ err, Ended j done err

theorem ended_closed {run : Run} {err : Result} (sound : run.Sound) (ended : run.phase = .ended err) : run.closed = true := by
  unfold Run.Sound at sound
  rw [ended] at sound
  exact sound.2

theorem open_of {run : Run} (sound : run.Sound) (going : ∀ err, run.phase ≠ .ended err) : run.closed = false := by
  unfold Run.Sound at sound
  split at sound
  · exact sound.2
  · exact sound.2
  · next err ended => exact absurd ended (going err)

theorem closed_ended {run : Run} (sound : run.Sound) (closed : run.closed = true) : ∃ err, run.phase = .ended err := by
  by_contra none
  have opened := open_of sound fun err ended => none ⟨err, ended⟩
  rw [closed] at opened
  exact nomatch opened

theorem ended_stays {j next : Job} {action : Action} (moved : Moved j action next) {done : Nat} {err : Result}
    (ended : Ended j done err) : Ended next done err := by
  obtain ⟨run, present, phase⟩ := ended
  have below : done < j.runs.length := (List.getElem?_eq_some_iff.mp present).1
  have other {id : Nat} {run' moved : Run} (there : j.runs[id]? = some run') (going : ∀ err, run'.phase ≠ .ended err) :
      (j.runs.set id moved)[done]? = some run := by
    have apart : id ≠ done := by
      rintro rfl
      rw [present, Option.some.injEq] at there
      exact going err (there ▸ phase)
    rw [List.getElem?_set_ne apart, present]
  cases moved with
  | started =>
      unfold start
      split
      · exact ⟨run, present, phase⟩
      · exact ⟨run, by rw [List.getElem?_append_left below, present], phase⟩
  | called err there spawned => exact ⟨run, other there (by simp [spawned]), phase⟩
  | @completed id before err there called =>
      have going : ∀ err, before.phase ≠ .ended err := by simp [called]
      unfold complete
      split
      · exact ⟨run, other there going, phase⟩
      · exact ⟨run, other there going, phase⟩
  | waits known => exact ⟨run, present, phase⟩
  | observed selecting there closed => exact ⟨run, present, phase⟩
  | cancelled err selecting => exact ⟨run, present, phase⟩
  | finished finishing => exact ⟨run, present, phase⟩

theorem finishing_moved {j next : Job} {action : Action} (moved : Moved j action next) {waiter done : Nat}
    (finishing : next.waiters[waiter]? = some (.finishing done)) :
    j.waiters[waiter]? = some (.finishing done) ∨ ∃ run, j.runs[done]? = some run ∧ run.closed = true := by
  cases moved with
  | started =>
      unfold start at finishing
      split at finishing <;> exact .inl finishing
  | called err present spawned => exact .inl finishing
  | completed present called =>
      unfold complete at finishing
      split at finishing <;> exact .inl finishing
  | waits known => exact .inl ((append_some finishing).resolve_left fun here => nomatch here.2)
  | observed selecting present closed =>
      obtain ⟨-, same⟩ | before := set_some finishing
      · cases same
        exact .inr ⟨_, present, closed⟩
      · exact .inl before
  | cancelled err selecting => exact .inl ((set_some finishing).resolve_left fun here => nomatch here.2)
  | finished before => exact .inl ((set_some finishing).resolve_left fun here => nomatch here.2)

theorem returned_moved {j next : Job} {action : Action} (moved : Moved j action next) {waiter done : Nat} {err : Result}
    (returned : next.waiters[waiter]? = some (.returned done err)) :
    j.waiters[waiter]? = some (.returned done err) ∨
      action = .finish waiter ∧ j.waiters[waiter]? = some (.finishing done) ∧ err = (finish done j.slot).1 := by
  cases moved with
  | started =>
      unfold start at returned
      split at returned <;> exact .inl returned
  | called err present spawned => exact .inl returned
  | completed present called =>
      unfold complete at returned
      split at returned <;> exact .inl returned
  | waits known => exact .inl ((append_some returned).resolve_left fun here => nomatch here.2)
  | observed selecting present closed => exact .inl ((set_some returned).resolve_left fun here => nomatch here.2)
  | cancelled err selecting => exact .inl ((set_some returned).resolve_left fun here => nomatch here.2)
  | finished finishing =>
      obtain ⟨rfl, same⟩ | before := set_some returned
      · cases same
        exact .inr ⟨rfl, finishing, rfl⟩
      · exact .inl before

theorem returned_stays {j next : Job} {action : Action} (moved : Moved j action next) {waiter done : Nat} {err : Result}
    (returned : j.waiters[waiter]? = some (.returned done err)) : next.waiters[waiter]? = some (.returned done err) := by
  have below : waiter < j.waiters.length := (List.getElem?_eq_some_iff.mp returned).1
  have other {place : Nat} {now : Waiter} {later : Waiter} (there : j.waiters[place]? = some now)
      (going : now ≠ .returned done err) : (j.waiters.set place later)[waiter]? = some (.returned done err) := by
    have apart : place ≠ waiter := by
      rintro rfl
      rw [returned, Option.some.injEq] at there
      exact going there.symm
    rw [List.getElem?_set_ne apart, returned]
  cases moved with
  | started =>
      unfold start
      split <;> exact returned
  | called err present spawned => exact returned
  | completed present called =>
      unfold complete
      split <;> exact returned
  | waits known => exact (List.getElem?_append_left below).trans returned
  | observed selecting present closed => exact other selecting nofun
  | cancelled err selecting => exact other selecting nofun
  | finished finishing => exact other finishing nofun

section

variable {j next : Job} {action : Action}

theorem moved_sound (valid : Valid j) (moved : Moved j action next) :
    ∀ (id : Nat) run, next.runs[id]? = some run → run.Sound := by
  intro id run present
  cases moved with
  | started =>
      unfold start at present
      split at present
      · exact valid.sound id run present
      · obtain ⟨-, rfl⟩ | before := append_some present
        · exact ⟨rfl, rfl⟩
        · exact valid.sound id run before
  | @called other before err there spawned =>
      obtain ⟨-, rfl⟩ | before := set_some present
      · have sound := valid.sound _ _ there
        unfold Run.Sound at sound ⊢
        rw [spawned] at sound
        exact ⟨congrArg (· + 1) sound.1, sound.2⟩
      · exact valid.sound id run before
  | @completed other before err there called =>
      have sound := valid.sound _ _ there
      have opened := open_of sound (by simp [called])
      unfold Run.Sound at sound
      rw [called] at sound
      rw [complete, if_pos (valid.active _ _ there opened).2] at present
      obtain ⟨-, rfl⟩ | before := set_some present
      · exact ⟨sound.1, rfl⟩
      · exact valid.sound id run before
  | waits known => exact valid.sound id run present
  | observed selecting there closed => exact valid.sound id run present
  | cancelled err selecting => exact valid.sound id run present
  | finished finishing => exact valid.sound id run present

theorem moved_active (valid : Valid j) (moved : Moved j action next) :
    ∀ (id : Nat) run, next.runs[id]? = some run → run.closed = false → next.slot.running = true ∧ next.slot.done = some id := by
  intro id run present opened
  cases moved with
  | started =>
      unfold start at present ⊢
      split at present
      · next running =>
          rw [if_pos running]
          exact valid.active id run present opened
      · next idle =>
          rw [if_neg idle]
          obtain ⟨rfl, -⟩ | before := append_some present
          · exact ⟨rfl, rfl⟩
          · exact absurd (valid.active id run before opened).1 idle
  | @called other before err there spawned =>
      obtain ⟨rfl, rfl⟩ | earlier := set_some present
      · exact valid.active id before there opened
      · exact valid.active id run earlier opened
  | @completed other before err there called =>
      have slot := (valid.active _ _ there (open_of (valid.sound _ _ there) (by simp [called]))).2
      rw [complete, if_pos slot] at present
      obtain ⟨rfl, rfl⟩ | earlier := set_some present
      · exact nomatch opened
      · -- Two open jobs would both be the one of the slot.
        have same := (valid.active id run earlier opened).2
        rw [slot, Option.some.injEq] at same
        subst same
        rw [List.getElem?_set, if_pos rfl, if_pos (List.getElem?_eq_some_iff.mp there).1, Option.some.injEq] at present
        rw [← present] at opened
        exact nomatch opened
  | waits known => exact valid.active id run present opened
  | observed selecting there closed => exact valid.active id run present opened
  | cancelled err selecting => exact valid.active id run present opened
  | @finished waiter done finishing =>
      have slot := valid.active id run present opened
      unfold finish
      split
      · exact slot
      · rw [if_pos slot.1]
        exact slot

theorem moved_busy (valid : Valid j) (moved : Moved j action next) (running : next.slot.running = true) :
    ∃ (id : Nat) (run : Run), next.slot.done = some id ∧ next.runs[id]? = some run ∧ run.closed = false := by
  cases moved with
  | started =>
      unfold start at running ⊢
      split
      · next before => exact valid.busy before
      · exact ⟨j.runs.length, ⟨.spawned, 0, false⟩, rfl, List.getElem?_concat_length, rfl⟩
  | @called other before err there spawned =>
      obtain ⟨id, run, slot, present, opened⟩ := valid.busy running
      have below := (List.getElem?_eq_some_iff.mp present).1
      by_cases same : other = id
      · subst same
        refine ⟨other, _, slot, List.getElem?_set_self below, ?_⟩
        rw [present, Option.some.injEq] at there
        exact there ▸ opened
      · exact ⟨id, run, slot, (List.getElem?_set_ne same).trans present, opened⟩
  | completed there called =>
      have slot := (valid.active _ _ there (open_of (valid.sound _ _ there) (by simp [called]))).2
      rw [complete, if_pos slot] at running
      exact nomatch running
  | waits known => exact valid.busy running
  | observed selecting there closed => exact valid.busy running
  | cancelled err selecting => exact valid.busy running
  | finished finishing =>
      unfold finish at running ⊢
      split
      · next other =>
          rw [if_pos other] at running
          exact valid.busy running
      · next here =>
          rw [if_neg here] at running
          split at running
          · next before =>
              rw [if_pos before]
              exact valid.busy before
          · next idle => exact absurd running idle

theorem moved_stored (valid : Valid j) (moved : Moved j action next) (idle : next.slot.running = false) :
    ∀ id, next.slot.done = some id → Ended next id next.slot.err := by
  intro id slot
  cases moved with
  | started =>
      unfold start at idle slot ⊢
      split at idle
      · next running =>
          rw [running] at idle
          exact nomatch idle
      · exact nomatch idle
  | called err there spawned => exact ended_stays (.called err there spawned) (valid.stored idle id slot)
  | @completed other before err there called =>
      have place := (valid.active _ _ there (open_of (valid.sound _ _ there) (by simp [called]))).2
      rw [complete, if_pos place] at slot ⊢
      rw [place, Option.some.injEq] at slot
      subst slot
      exact ⟨_, List.getElem?_set_self (List.getElem?_eq_some_iff.mp there).1, rfl⟩
  | waits known => exact valid.stored idle id slot
  | observed selecting there closed => exact valid.stored idle id slot
  | cancelled err selecting => exact valid.stored idle id slot
  | finished finishing =>
      unfold finish at idle slot ⊢
      split
      · next other =>
          rw [if_pos other] at idle slot
          exact valid.stored idle id slot
      · next here =>
          rw [if_neg here] at idle slot
          split at slot
          · next running =>
              rw [if_pos running, running] at idle
              exact nomatch idle
          · exact nomatch slot

theorem step_valid (valid : Valid j) (taken : step j action = some next) : Valid next := by
  have moved := step_moved taken
  refine ⟨moved_sound valid moved, moved_active valid moved, moved_busy valid moved, moved_stored valid moved, ?_, ?_⟩
  · intro waiter done finishing
    obtain before | ⟨run, present, closed⟩ := finishing_moved moved finishing
    · obtain ⟨err, ended⟩ := valid.finishing waiter done before
      exact ⟨err, ended_stays moved ended⟩
    · obtain ⟨err, ended⟩ := closed_ended (valid.sound done run present) closed
      exact ⟨err, ended_stays moved ⟨run, present, ended⟩⟩
  · intro waiter done err returned
    obtain before | ⟨-, finishing, -⟩ := returned_moved moved returned
    · obtain ⟨result, ended⟩ := valid.returned waiter done err before
      exact ⟨result, ended_stays moved ended⟩
    · obtain ⟨result, ended⟩ := valid.finishing waiter done finishing
      exact ⟨result, ended_stays moved ended⟩

theorem new_valid : Valid Job.new := by
  constructor <;> intros <;> simp_all [Job.new]

theorem finish_err (valid : Valid j) {done : Nat} {err : Result} (slot : j.slot.done = some done) (ended : Ended j done err) :
    (finish done j.slot).1 = err := by
  obtain ⟨run, present, phase⟩ := ended
  have idle : j.slot.running = false := by
    by_contra running
    obtain ⟨id, other, place, there, opened⟩ := valid.busy (by simpa using running)
    rw [slot, Option.some.injEq] at place
    subst place
    rw [present, Option.some.injEq] at there
    rw [← there, ended_closed (valid.sound done run present) phase] at opened
    exact nomatch opened
  obtain ⟨other, there, stored⟩ := valid.stored idle done slot
  rw [present, Option.some.injEq] at there
  rw [← there, phase, Phase.ended.injEq] at stored
  rw [finish, if_neg (fun apart => apart slot), stored]

end

structure Correct (j : Job) : Prop where
  once : ∀ (id : Nat) run, j.runs[id]? = some run → run.calls = if run.phase = .spawned then 0 else 1
  answered : ∀ (waiter : Nat) done err, j.waiters[waiter]? = some (.returned done err) → Ended j done err

def Kept (j : Job) : Action → Prop
  | .finish waiter => ∀ done, j.waiters[waiter]? = some (.finishing done) → j.slot.done = some done ∨ Ended j done none
  | _ => True

def Wrong (j : Job) : Prop :=
  ∃ (waiter : Nat) (done : Nat) (err : Result), j.waiters[waiter]? = some (.returned done err) ∧ ¬ Ended j done err

theorem ended_unique {j : Job} {done : Nat} {first second : Result} (one : Ended j done first) (two : Ended j done second) :
    first = second := by
  obtain ⟨run, present, phase⟩ := one
  obtain ⟨other, there, again⟩ := two
  rw [present, Option.some.injEq] at there
  rw [← there, phase, Phase.ended.injEq] at again
  exact again

theorem correct_of (j : Job) (valid : Valid j) (right : ¬ Wrong j) : Correct j := by
  refine ⟨fun id run present => ?_, fun waiter done err returned => ?_⟩
  · have sound := valid.sound id run present
    unfold Run.Sound at sound
    split at sound
    · next spawned => rw [spawned, if_pos rfl, sound.1]
    · next err called => rw [called, if_neg nofun, sound.1]
    · next err ended => rw [ended, if_neg nofun, sound.1]
  · by_contra wrong
    exact right ⟨waiter, done, err, returned, wrong⟩

theorem wrong_stays {j next : Job} {action : Action} (valid : Valid j) (wrong : Wrong j) (taken : step j action = some next) :
    Wrong next := by
  obtain ⟨waiter, done, err, returned, other⟩ := wrong
  have moved := step_moved taken
  refine ⟨waiter, done, err, returned_stays moved returned, fun ended => other ?_⟩
  obtain ⟨result, before⟩ := valid.returned waiter done err returned
  exact ended_unique (ended_stays moved before) ended ▸ before

theorem right_stays {j next : Job} {action : Action} (valid : Valid j) (right : ¬ Wrong j) (kept : Kept j action)
    (taken : step j action = some next) : ¬ Wrong next := by
  rintro ⟨waiter, done, err, returned, wrong⟩
  have moved := step_moved taken
  obtain before | ⟨rfl, finishing, rfl⟩ := returned_moved moved returned
  · exact wrong (ended_stays moved ((correct_of j valid right).answered waiter done err before))
  · obtain ⟨result, ended⟩ := valid.finishing waiter done finishing
    by_cases slot : j.slot.done = some done
    · rw [finish_err valid slot ended] at wrong
      exact wrong (ended_stays moved ended)
    · rw [finish, if_pos slot] at wrong
      exact wrong (ended_stays moved ((kept done finishing).resolve_left slot))

theorem lost_wrong {j next : Job} {action : Action} (valid : Valid j) (lost : ¬ Kept j action)
    (taken : step j action = some next) : Wrong next := by
  cases action with
  | finish waiter =>
      simp only [Kept, not_forall, not_or] at lost
      obtain ⟨done, finishing, slot, failed⟩ := lost
      have moved := step_moved taken
      have returned : next.waiters[waiter]? = some (.returned done none) := by
        cases moved with
        | finished before =>
            rw [finishing, Option.some.injEq, Waiter.finishing.injEq] at before
            subst before
            rw [finish, if_pos slot]
            exact List.getElem?_set_self (List.getElem?_eq_some_iff.mp finishing).1
      refine ⟨waiter, done, none, returned, fun ended => failed ?_⟩
      obtain ⟨result, before⟩ := valid.finishing waiter done finishing
      exact ended_unique (ended_stays moved before) ended ▸ before
  | _ => exact absurd trivial lost

theorem close_job_iff {path : List Action} {final : Job} (reached : run step .new path = some final) :
    Correct final ↔ Along step Kept .new path := by
  have valids {j action next} (before : Valid j) (taken : step j action = some next) := step_valid before taken
  constructor
  · intro correct
    refine along_of_final (fun _ _ _ => valids) (fun _ _ _ valid lost => lost_wrong valid lost)
      (fun _ _ _ valid wrong => wrong_stays valid wrong) new_valid reached ?_
    rintro ⟨waiter, done, err, returned, wrong⟩
    exact wrong (correct.answered waiter done err returned)
  · intro kept
    have right : ¬ Wrong Job.new := by
      rintro ⟨waiter, done, err, returned, -⟩
      simp [Job.new] at returned
    have keeps (j : Job) (action : Action) (next : Job) (before : Valid j ∧ ¬ Wrong j) (allowed : Kept j action)
        (taken : step j action = some next) : Valid next ∧ ¬ Wrong next :=
      ⟨valids before.1 taken, right_stays before.1 before.2 allowed taken⟩
    have both := along_invariant keeps ⟨new_valid, right⟩ kept reached
    exact correct_of final both.1 both.2

def alone : List Action := [.start, .wait 0, .call 0 (some (lit "locked")), .complete 0, .observe 0, .finish 0]

def aloneEnd : Job := ⟨⟨none, none, false⟩, [⟨.ended (some (lit "locked")), 1, true⟩], [.returned 0 (some (lit "locked"))]⟩

theorem close_job_alone : run step .new alone = some aloneEnd ∧ (Correct aloneEnd ↔ Along step Kept .new alone) :=
  ⟨rfl, close_job_iff (show run step .new alone = some aloneEnd from rfl)⟩

def both : List Action :=
  [.start, .wait 0, .wait 0, .call 0 (some (lit "locked")), .complete 0, .observe 0, .observe 1, .finish 0, .finish 1]

theorem second_waiter_nil : ∃ final, run step .new both = some final ∧ ¬ Correct final := by
  refine ⟨⟨⟨none, none, false⟩, [⟨.ended (some (lit "locked")), 1, true⟩],
    [.returned 0 (some (lit "locked")), .returned 0 none]⟩,
    rfl, fun correct => ?_⟩
  obtain ⟨ended, present, phase⟩ := correct.answered 1 0 none rfl
  cases present
  exact nomatch phase

end Brainkit.Modules.CloseJob
