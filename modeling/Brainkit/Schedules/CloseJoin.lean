import Brainkit.Library.Headcount
import Brainkit.Schedules.Armed

set_option autoImplicit false

namespace Brainkit.Schedules

open Function (update)
open Transition GoText

def FirePc.running : FirePc → Bool
  | .idle | .begun _ | .done => false
  | .admitted _ | .claiming _ | .publishing _ | .published _ | .rearming _ _ | .deleting _ | .saving _ | .reporting => true

def FirePc.checked : FirePc → Bool
  | .idle | .begun _ => false
  | .admitted _ | .claiming _ | .publishing _ | .published _ | .rearming _ _ | .deleting _ | .saving _ | .reporting
  | .done => true

inductive ClosePc where
  | idle
  | waiting
  | returned (ok : Bool)
deriving DecidableEq

inductive WaiterPc where
  | unstarted
  | waiting
  | woken
  | finished
deriving DecidableEq

-- counted says which fires are in fireWG: past fireWG.Add, and their deferred function has not run.
structure Closing where
  scheduler : Scheduler
  fireWG : Nat
  counted : Nat → Bool
  waiter : WaiterPc
  closeCall : Nat → ClosePc

def Closing.start : Closing := ⟨.start, 0, fun _ => false, .unstarted, fun _ => .idle⟩

namespace Closing

inductive Action where
  | scheduler (action : Scheduler.Action)
  | fireReturn (k : Nat)
  | closeContext (c : Nat)
  | waiterWakes
  | waiterCloses
  | closeReturns (c : Nat)
  | contextDone (c : Nat)

-- fireWG.Add(1) is in the locked section of fire that checks closed.
def act (host : Host) (action : Scheduler.Action) (s : Closing) : Option Closing :=
  match action with
  | .close => none
  | .fireAdmit k => (s.scheduler.fireAdmit k).map fun next =>
      if (next.fire k).running then { s with scheduler := next, fireWG := s.fireWG + 1, counted := update s.counted k true }
      else { s with scheduler := next }
  | other => (Scheduler.step host s.scheduler other).map fun next => { s with scheduler := next }

def fireReturn (k : Nat) (s : Closing) : Option Closing :=
  if s.scheduler.fire k = .done ∧ s.counted k then
    some { s with fireWG := s.fireWG - 1, counted := update s.counted k false }
  else none

def closeContext (c : Nat) (s : Closing) : Option Closing :=
  match s.closeCall c with
  | .idle => some { s with
      scheduler := s.scheduler.close
      waiter := if s.waiter = .unstarted then .waiting else s.waiter
      closeCall := update s.closeCall c .waiting }
  | _ => none

def waiterWakes (s : Closing) : Option Closing :=
  if s.waiter = .waiting ∧ s.fireWG = 0 then some { s with waiter := .woken } else none

def waiterCloses (s : Closing) : Option Closing :=
  if s.waiter = .woken then some { s with waiter := .finished } else none

def closeReturns (c : Nat) (s : Closing) : Option Closing :=
  if s.closeCall c = .waiting ∧ s.waiter = .finished then
    some { s with closeCall := update s.closeCall c (.returned true) }
  else none

def contextDone (c : Nat) (s : Closing) : Option Closing :=
  if s.closeCall c = .waiting then some { s with closeCall := update s.closeCall c (.returned false) } else none

def step (host : Host) (s : Closing) : Action → Option Closing
  | .scheduler action => s.act host action
  | .fireReturn k => s.fireReturn k
  | .closeContext c => s.closeContext c
  | .waiterWakes => s.waiterWakes
  | .waiterCloses => s.waiterCloses
  | .closeReturns c => s.closeReturns c
  | .contextDone c => s.contextDone c

-- The message of the schedule, and the event that reports a failed write of the next fire time.
def Action.FirePublishes : Action → Prop
  | .scheduler (.firePublish _) | .scheduler (.fireReport _) => True
  | _ => False

end Closing

namespace Scheduler

theorem closed_step (host : Host) (s next : Scheduler) (action : Action) (taken : step host s action = some next)
    (closed : s.closed = true) : next.closed = true := by
  cases moves_of_step host s next action taken with
  | adds | addsSaving | restoreAdd =>
      simp only [setCall, insert]
      split <;> exact closed
  | close => rfl
  | _ => exact closed

theorem running_set_fire (s t : Scheduler) (j k : Nat) (pc : FirePc) (same : t.fire = s.fire)
    (stays : pc.running = true → (s.fire j).running = true) (running : ((t.setFire j pc).fire k).running = true) :
    (s.fire k).running = true := by
  by_cases here : k = j
  · subst here
    simp only [setFire, Function.update_self] at running
    exact stays running
  · simpa only [setFire, Function.update_of_ne here, same] using running

theorem running_step (host : Host) (s next : Scheduler) (action : Action) (k : Nat)
    (taken : step host s action = some next) (running : (next.fire k).running = true) :
    (s.fire k).running = true ∨ action = .fireAdmit k ∧ s.closed = false := by
  cases moves_of_step host s next action taken with
  | admits j e begun opened =>
      by_cases here : k = j
      · exact .inr ⟨here ▸ rfl, opened⟩
      · simp only [setFire, Function.update_of_ne here] at running
        exact .inl running
  | timerFires j e | dismisses j e => exact .inl (running_set_fire s _ j k _ rfl (by simp [FirePc.running]) running)
  | drains j e acting | goesOn j e acting | loses j e _ acting | wins j e _ _ acting | firePublish j e acting
  | finishClosed j e _ acting | finishOneTime j e _ acting | rearms j e _ acting | replaced j e _ acting
  | timerReset j e _ acting | fireSave j _ _ acting | fireDelete j _ acting | fireReport j acting =>
      exact .inl (running_set_fire s _ j k _ rfl (by simp [acting, FirePc.running]) running)
  | adds | addsSaving | restoreAdd =>
      simp only [setCall, insert] at running
      split at running <;> exact .inl running
  | _ => exact .inl running

theorem checked_set_fire (s t : Scheduler) (j k : Nat) (pc : FirePc) (same : t.fire = s.fire)
    (stays : (s.fire j).checked = true → pc.checked = true) (checked : (s.fire k).checked = true) :
    ((t.setFire j pc).fire k).checked = true := by
  by_cases here : k = j
  · subst here
    simpa only [setFire, Function.update_self] using stays checked
  · simpa only [setFire, Function.update_of_ne here, same] using checked

theorem checked_step (host : Host) (s next : Scheduler) (action : Action) (k : Nat)
    (taken : step host s action = some next) (checked : (s.fire k).checked = true) : (next.fire k).checked = true := by
  cases moves_of_step host s next action taken with
  | timerFires j e idle => exact checked_set_fire s _ j k _ rfl (by simp [idle, FirePc.checked]) checked
  | finishOneTime j | timerReset j =>
      exact checked_set_fire s _ j k _ rfl (fun _ => by split <;> rfl) checked
  | fireSave j saved => exact checked_set_fire s _ j k _ rfl (fun _ => by cases saved <;> rfl) checked
  | admits j | dismisses j | drains j | goesOn j | loses j | wins j | firePublish j | finishClosed j | rearms j
  | replaced j | fireDelete j | fireReport j => exact checked_set_fire s _ j k _ rfl (fun _ => rfl) checked
  | adds | addsSaving | restoreAdd =>
      simp only [setCall, insert]
      split <;> exact checked
  | _ => exact checked

theorem admit_unchecked (s next : Scheduler) (k : Nat) (taken : s.fireAdmit k = some next) :
    (s.fire k).checked = false := by
  unfold fireAdmit at taken
  split at taken
  next e begun => rw [begun]; rfl
  next => cases taken

end Scheduler

namespace Closing

-- Everyone past the check is in the wait group; the waiter is there only when the scheduler is closed, and has woken
-- only when the group is empty, which nobody can join any more.
structure Joined (s : Closing) : Prop where
  counts : Headcount.Counts s.counted s.fireWG
  running : ∀ k, (s.scheduler.fire k).running = true → s.counted k = true
  checked : ∀ k, s.counted k = true → (s.scheduler.fire k).checked = true
  closed : s.waiter ≠ .unstarted → s.scheduler.closed = true
  alone : s.waiter = .woken ∨ s.waiter = .finished → ∀ k, s.counted k = false
  returned : ∀ c, s.closeCall c = .returned true → s.waiter = .finished

theorem start_joined : Joined start where
  counts := Headcount.counts_nobody
  running _ running := nomatch running
  checked _ counted := nomatch counted
  closed started := absurd rfl started
  alone _ _ := rfl
  returned _ returned := nomatch returned

inductive ActMoves (host : Host) (s : Closing) (action : Scheduler.Action) : Closing → Prop where
  | counts (k : Nat) (next : Scheduler) (called : action = .fireAdmit k) (taken : s.scheduler.step host action = some next)
      (running : (next.fire k).running = true) :
      ActMoves host s action { s with scheduler := next, fireWG := s.fireWG + 1, counted := update s.counted k true }
  | stays (next : Scheduler) (taken : s.scheduler.step host action = some next)
      (quiet : ∀ k, action = .fireAdmit k → (next.fire k).running = false) :
      ActMoves host s action { s with scheduler := next }

theorem act_moves (host : Host) (s next : Closing) (action : Scheduler.Action) (taken : s.act host action = some next) :
    ActMoves host s action next := by
  unfold act at taken
  split at taken
  next => cases taken
  next k =>
    obtain ⟨scheduler, stepped, rfl⟩ := Option.map_eq_some_iff.mp taken
    split
    next running => exact .counts k scheduler rfl stepped running
    next still =>
      refine .stays scheduler stepped fun j same => ?_
      cases same
      simpa using still
  next other _ admits =>
    obtain ⟨scheduler, stepped, rfl⟩ := Option.map_eq_some_iff.mp taken
    exact .stays scheduler stepped fun k same => absurd same (admits k)

theorem joined_act (host : Host) (s next : Closing) (action : Scheduler.Action) (joined : Joined s)
    (taken : s.act host action = some next) : Joined next := by
  cases act_moves host s next action taken with
  | counts k scheduler called stepped running =>
      subst called
      have unchecked := Scheduler.admit_unchecked s.scheduler scheduler k stepped
      have absent : s.counted k = false := by
        by_contra counted
        exact Bool.false_ne_true (unchecked.symm.trans (joined.checked k (by simpa using counted)))
      have opened : s.scheduler.closed = false := by
        rcases Scheduler.running_step host s.scheduler scheduler _ k stepped running with before | ⟨-, opened⟩
        · exact absurd (joined.running k before) (by simp [absent])
        · exact opened
      have unstarted : s.waiter = .unstarted := by
        by_contra started
        exact Bool.false_ne_true (opened.symm.trans (joined.closed started))
      refine ⟨Headcount.counts_enter joined.counts k absent, fun j runs => ?_, fun j counted => ?_,
        fun started => absurd unstarted started, fun woken => ?_, joined.returned⟩
      · by_cases same : j = k
        · simp [same]
        · simp only [Function.update_of_ne same]
          rcases Scheduler.running_step host s.scheduler scheduler _ j stepped runs with before | ⟨called, -⟩
          · exact joined.running j before
          · exact absurd (Scheduler.Action.fireAdmit.inj called).symm same
      · by_cases same : j = k
        · subst same
          cases checked : scheduler.fire j <;> first | rfl | (rw [checked] at running; cases running)
        · simp only [Function.update_of_ne same] at counted
          exact Scheduler.checked_step host s.scheduler scheduler _ j stepped (joined.checked j counted)
      · rw [unstarted] at woken
        rcases woken with no | no <;> cases no
  | stays scheduler stepped quiet =>
      refine ⟨joined.counts, fun j runs => ?_, fun j counted => ?_, fun started => ?_, joined.alone, joined.returned⟩
      · rcases Scheduler.running_step host s.scheduler scheduler action j stepped runs with before | ⟨called, -⟩
        · exact joined.running j before
        · exact absurd runs (by simp [quiet j called])
      · exact Scheduler.checked_step host s.scheduler scheduler action j stepped (joined.checked j counted)
      · exact Scheduler.closed_step host s.scheduler scheduler action stepped (joined.closed started)

theorem joined_fire_return (s next : Closing) (k : Nat) (joined : Joined s) (taken : s.fireReturn k = some next) :
    Joined next := by
  unfold fireReturn at taken
  split at taken <;> cases taken
  next ended =>
    obtain ⟨finished, counted⟩ := ended
    refine ⟨Headcount.counts_leave joined.counts k counted, fun j runs => ?_, fun j still => ?_, joined.closed,
      fun woken j => ?_, joined.returned⟩
    · have other : j ≠ k := by
        rintro rfl
        rw [finished] at runs
        cases runs
      simpa only [Function.update_of_ne other] using joined.running j runs
    · by_cases same : j = k
      · simp [same] at still
      · simp only [Function.update_of_ne same] at still
        exact joined.checked j still
    · exact absurd counted (by simp [joined.alone woken k])

theorem set_close_call (s : Closing) (c d : Nat) (pc : ClosePc) (pending : pc ≠ .returned true)
    (returned : update s.closeCall c pc d = .returned true) : s.closeCall d = .returned true := by
  by_cases same : d = c
  · rw [same, Function.update_self] at returned
    exact absurd returned pending
  · rwa [Function.update_of_ne same] at returned

theorem joined_close_context (s next : Closing) (c : Nat) (joined : Joined s) (taken : s.closeContext c = some next) :
    Joined next := by
  unfold closeContext at taken
  split at taken <;> cases taken
  next idle =>
    refine ⟨joined.counts, joined.running, joined.checked, fun _ => rfl, fun woken => ?_, fun d returned => ?_⟩
    · refine joined.alone ?_
      by_cases first : s.waiter = .unstarted
      · simp [first] at woken
      · simpa [first] using woken
    · simp [joined.returned d (set_close_call s c d .waiting (by decide) returned)]

theorem joined_waiter_wakes (s next : Closing) (joined : Joined s) (taken : s.waiterWakes = some next) :
    Joined next := by
  unfold waiterWakes at taken
  split at taken <;> cases taken
  next empty =>
    obtain ⟨waiting, zero⟩ := empty
    have nobody := Headcount.counts_zero_iff.mp (zero ▸ joined.counts)
    refine ⟨joined.counts, joined.running, joined.checked, fun _ => joined.closed (by simp [waiting]), fun _ => nobody,
      fun c returned => ?_⟩
    cases waiting.symm.trans (joined.returned c returned)

theorem joined_step (host : Host) (s : Closing) (action : Action) (next : Closing) (joined : Joined s)
    (taken : step host s action = some next) : Joined next := by
  cases action with
  | scheduler action => exact joined_act host s next action joined taken
  | fireReturn k => exact joined_fire_return s next k joined taken
  | closeContext c => exact joined_close_context s next c joined taken
  | waiterWakes => exact joined_waiter_wakes s next joined taken
  | waiterCloses =>
      simp only [step, waiterCloses] at taken
      split at taken <;> cases taken
      next woken =>
        exact ⟨joined.counts, joined.running, joined.checked, fun _ => joined.closed (by simp [woken]),
          fun _ => joined.alone (.inl woken), fun _ _ => rfl⟩
  | closeReturns c =>
      simp only [step, closeReturns] at taken
      split at taken <;> cases taken
      next ready => exact ⟨joined.counts, joined.running, joined.checked, joined.closed, joined.alone, fun _ _ => ready.2⟩
  | contextDone c =>
      simp only [step, contextDone] at taken
      split at taken <;> cases taken
      next waiting =>
        exact ⟨joined.counts, joined.running, joined.checked, joined.closed, joined.alone,
          fun d returned => joined.returned d (set_close_call s c d _ (by decide) returned)⟩

theorem returned_step (host : Host) (s : Closing) (action : Action) (next : Closing) (c : Nat)
    (returned : s.closeCall c = .returned true) (taken : step host s action = some next) :
    next.closeCall c = .returned true := by
  cases action with
  | scheduler action => cases act_moves host s next action taken <;> exact returned
  | closeContext d | closeReturns d | contextDone d =>
      simp only [step, closeContext, closeReturns, contextDone] at taken
      split at taken <;> cases taken
      next waiting =>
        have other : c ≠ d := by
          rintro rfl
          simp [returned] at waiting
        simpa [Function.update_of_ne other] using returned
  | fireReturn | waiterWakes | waiterCloses =>
      simp only [step, fireReturn, waiterWakes, waiterCloses] at taken
      split at taken <;> cases taken
      exact returned

theorem publisher_running (host : Host) (s next : Closing) (action : Action) (publishes : action.FirePublishes)
    (taken : step host s action = some next) : ∃ k, (s.scheduler.fire k).running = true := by
  cases action with
  | scheduler action =>
      cases action with
      | firePublish k | fireReport k =>
          obtain ⟨scheduler, stepped, -⟩ := Option.map_eq_some_iff.mp taken
          cases Scheduler.moves_of_step host s.scheduler scheduler _ stepped
          next acting => exact ⟨k, by rw [acting]; rfl⟩
      | _ => cases publishes
  | _ => cases publishes

theorem close_context_silences_fires (host : Host) (before after : List Action) (s final : Closing) (c : Nat)
    (reached : run (step host) start before = some s) (returned : s.closeCall c = .returned true)
    (later : run (step host) s after = some final) : ∀ action ∈ after, ¬ action.FirePublishes := by
  have joined : Joined s := run_invariant (joined_step host) start_joined reached
  have keeps : ∀ s action next, Joined s ∧ s.closeCall c = .returned true → step host s action = some next →
      Joined next ∧ next.closeCall c = .returned true :=
    fun s action next holds taken =>
      ⟨joined_step host s action next holds.1 taken, returned_step host s action next c holds.2 taken⟩
  refine run_avoids keeps ?_ ⟨joined, returned⟩ later
  · rintro s action next ⟨joined, returned⟩ taken publishes
    obtain ⟨k, runs⟩ := publisher_running host s next action publishes taken
    have counted := joined.running k runs
    exact Bool.false_ne_true ((joined.alone (.inr (joined.returned c returned)) k).symm.trans counted)

def everySecondReport : ScheduleConfig := ⟨lit "report", lit "every 1s", lit "reports", lit "null"⟩

-- One fire is publishing and another has not taken the lock when CloseContext is called.
def closeDuringFire : List Action :=
  [.scheduler (.schedule 0 Scheduler.everySecond [] 0 0), .scheduler (.add 0), .scheduler (.saveSchedule 0 true),
    .scheduler (.schedule 1 everySecondReport [] 1 0), .scheduler (.add 1), .scheduler (.saveSchedule 1 true),
    .scheduler (.timerFires 0 0), .scheduler (.timerFires 1 1), .scheduler (.fireAdmit 0),
    .scheduler (.fireDraining 0 false), .scheduler (.fireClaim 0 ⟨0, 0⟩ .claimed), .closeContext 0,
    .scheduler (.firePublish 0), .scheduler (.fireFinish 0 0), .fireReturn 0, .waiterWakes, .waiterCloses,
    .closeReturns 0]

def lateFire : List Action := [.scheduler (.fireAdmit 1)]

theorem late_fire_silenced : ∃ s final, run (step Scheduler.secondHost) start closeDuringFire = some s ∧
    s.closeCall 0 = .returned true ∧ run (step Scheduler.secondHost) s lateFire = some final ∧
    ∀ action ∈ lateFire, ¬ action.FirePublishes :=
  ⟨_, _, rfl, rfl, rfl, close_context_silences_fires Scheduler.secondHost closeDuringFire lateFire _ _ 0 rfl rfl rfl⟩

end Closing

end Brainkit.Schedules
