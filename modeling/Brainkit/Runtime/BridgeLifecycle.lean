import Brainkit.Library.Transition

set_option autoImplicit false

namespace Brainkit.Runtime

open Function (update)
open Transition

-- The entry points that lock mu. The last two raise depth, so that EvalOnJSThread takes their thread for the JS thread.
inductive EvalEntry where
  | eval
  | evalBytecode
  | evalAsync
  | processScheduledJobs

def EvalEntry.busy : EvalEntry → Bool
  | evalAsync => true
  | processScheduledJobs => true
  | _ => false

-- Who holds mu. An evaluation has not read ctx yet, or runs JavaScript with calls of EvalOnJSThread inside.
inductive BridgeMu where
  | free
  | entered (entry : EvalEntry)
  | running (entry : EvalEntry) (nested : Nat)
  | freeRuntime

-- Who holds lifecycleMu: a TryGo before its first load, or one that has not found closing set.
inductive LifecycleMu where
  | free
  | trying
  | opened
deriving DecidableEq

-- The goroutine of CloseContext, after each of its steps. In draining freeRuntime holds mu and runs the jobs that are left
-- and a script of its own, and from freeing on it has closed the context.
inductive Closer where
  | unborn
  | waiting
  | waited
  | draining
  | freeing
  | freed
  | cleared
  | stored
  | done
deriving DecidableEq

def Closer.rank : Closer → Nat
  | unborn => 0
  | waiting => 1
  | waited => 2
  | draining => 3
  | freeing => 4
  | freed => 5
  | cleared => 6
  | stored => 7
  | done => 8

inductive CloseOnce where
  | fresh
  | running (i : Nat)
  | spent
deriving DecidableEq

inductive ClosePc where
  | idle
  | entering
  | selecting
  | returned
  | timedOut
deriving DecidableEq

-- tracked is the counter of wg. alive tells that ctx is not nil, frees how often the runtime has been closed. scheduled are
-- the callbacks of EvalOnJSThread in the job queue.
structure Bridge where
  closing : Bool
  closed : Bool
  lifecycle : LifecycleMu
  tracked : Nat
  mu : BridgeMu
  alive : Bool
  frees : Nat
  scheduled : Nat
  closer : Closer
  closeOnce : CloseOnce
  close : Nat → ClosePc

namespace Bridge

def new : Bridge := ⟨false, false, .free, 0, .free, true, 0, 0, .unborn, .fresh, fun _ => .idle⟩

inductive Action where
  | tryLock
  | loadClosing
  | loadClosed
  | ended
  | interrupt
  | enter (entry : EvalEntry)
  | begin
  | nest
  | unnest
  | schedule
  | callback
  | leave
  | closeContext (i : Nat)
  | onceTake (i : Nat)
  | onceRun
  | oncePass (i : Nat)
  | advance
  | selectDone (i : Nat)
  | selectExpired (i : Nat)

-- TryGo. The goroutine is counted before the lock is released.
def loadClosing (s : Bridge) : Bridge := { s with lifecycle := if s.closing then .free else .opened }

def loadClosed (s : Bridge) : Bridge :=
  if s.closed then { s with lifecycle := .free } else { s with lifecycle := .free, tracked := s.tracked + 1 }

-- An evaluation that finds no context panics, and a run of the jobs returns.
def begin (entry : EvalEntry) (s : Bridge) : Bridge := { s with mu := if s.alive then .running entry 0 else .free }

-- A callback of EvalOnJSThread looks at closing before it evaluates.
def callback (entry : EvalEntry) (nested : Nat) (s : Bridge) : Bridge :=
  { s with scheduled := s.scheduled - 1, mu := .running entry (if s.closing then nested else nested + 1) }

def onceRun (i : Nat) (s : Bridge) : Bridge :=
  { s with closing := true, closer := .waiting, closeOnce := .spent, close := update s.close i .selecting }

def advance (s : Bridge) : Option Bridge :=
  match s.closer with
  | .waiting => if s.tracked = 0 then some { s with closer := .waited } else none
  | .waited => match s.mu with
      | .free => some { s with closer := .draining, mu := .freeRuntime }
      | _ => none
  | .draining => some { s with closer := .freeing, frees := if s.alive then s.frees + 1 else s.frees }
  | .freeing => some { s with closer := .freed, alive := false, mu := .free }
  | .freed => some { s with closer := .cleared, closing := false }
  | .cleared => some { s with closer := .stored, closed := true }
  | .stored => some { s with closer := .done }
  | .unborn => none
  | .done => none

def step (s : Bridge) : Action → Option Bridge
  | .tryLock => if s.lifecycle = .free then some { s with lifecycle := .trying } else none
  | .loadClosing => if s.lifecycle = .trying then some s.loadClosing else none
  | .loadClosed => if s.lifecycle = .opened then some s.loadClosed else none
  | .ended => if 0 < s.tracked then some { s with tracked := s.tracked - 1 } else none
  | .interrupt => if s.lifecycle = .free then some { s with closing := true } else none
  | .enter entry => match s.mu with
      | .free => some { s with mu := .entered entry }
      | _ => none
  | .begin => match s.mu with
      | .entered entry => some (s.begin entry)
      | _ => none
  | .nest => match s.mu with
      | .running entry nested => if entry.busy then some { s with mu := .running entry (nested + 1) } else none
      | _ => none
  | .unnest => match s.mu with
      | .running entry (nested + 1) => some { s with mu := .running entry nested }
      | _ => none
  | .schedule => if s.alive then some { s with scheduled := s.scheduled + 1 } else none
  | .callback => match s.mu with
      | .running entry nested => if 0 < s.scheduled then some (s.callback entry nested) else none
      | _ => none
  | .leave => match s.mu with
      | .running _ 0 => some { s with mu := .free }
      | _ => none
  | .closeContext i =>
      if s.close i = .entering ∨ s.close i = .selecting then none else some { s with close := update s.close i .entering }
  | .onceTake i => if s.close i = .entering ∧ s.closeOnce = .fresh then some { s with closeOnce := .running i } else none
  | .onceRun => match s.closeOnce with
      | .running i => if s.lifecycle = .free then some (s.onceRun i) else none
      | _ => none
  | .oncePass i =>
      if s.close i = .entering ∧ s.closeOnce = .spent then some { s with close := update s.close i .selecting } else none
  | .advance => s.advance
  | .selectDone i =>
      if s.close i = .selecting ∧ s.closer = .done then some { s with close := update s.close i .returned } else none
  | .selectExpired i => if s.close i = .selecting then some { s with close := update s.close i .timedOut } else none

def FreeBegun (s : Bridge) : Prop := Closer.freeing.rank ≤ s.closer.rank

structure Safe (s : Bridge) : Prop where
  once : s.frees ≤ 1
  freed : ∀ i, s.close i = .returned → s.frees = 1
  ended : s.FreeBegun → s.tracked = 0
  quiet : s.FreeBegun → ∀ entry nested, s.mu ≠ .running entry nested

def OutsideGap (s : Bridge) : Action → Prop
  | .loadClosed => s.closer ≠ .cleared
  | _ => True

structure Valid (s : Bridge) : Prop where
  holder : s.closer = .draining ∨ s.closer = .freeing ↔ s.mu = .freeRuntime
  running : ∀ entry nested, s.mu = .running entry nested → ¬ s.FreeBegun
  alive : s.alive = true ↔ s.closer.rank ≤ Closer.freeing.rank
  frees : s.frees = if Closer.freeing.rank ≤ s.closer.rank then 1 else 0
  closing : Closer.waiting.rank ≤ s.closer.rank → s.closer.rank ≤ Closer.freed.rank → s.closing = true
  closed : s.closed = true ↔ Closer.stored.rank ≤ s.closer.rank
  waited : s.closer = .waited ∨ s.closer = .draining → s.tracked = 0
  opened : s.lifecycle = .opened → s.closer = .unborn ∨ Closer.cleared.rank ≤ s.closer.rank
  unborn : s.closeOnce = .spent ↔ s.closer ≠ .unborn
  returned : ∀ i, s.close i = .returned → s.closer = .done

variable {s next : Bridge}

theorem valid_new : new.Valid where
  holder := by simp [new]
  running _ _ runs := nomatch runs
  alive := by decide
  frees := rfl
  closing := by decide
  closed := by decide
  waited := by decide
  opened := by decide
  unborn := by decide
  returned _ back := nomatch back

theorem loadClosing_valid (valid : s.Valid) : s.loadClosing.Valid := by
  refine { valid with opened := fun opened => ?_ }
  cases closing : s.closing with
  | true =>
      simp only [loadClosing, closing, if_true] at opened
      cases opened
  | false =>
      by_cases early : Closer.waiting.rank ≤ s.closer.rank
      · refine .inr (Nat.lt_of_not_le fun late => ?_)
        have set := valid.closing early late
        rw [closing] at set
        cases set
      · refine .inl ?_
        change s.closer = .unborn
        cases phase : s.closer with
        | unborn => rfl
        | _ => exact absurd ((congrArg (Closer.waiting.rank ≤ Closer.rank ·) phase).mpr (by decide)) early

theorem loadClosed_valid (valid : s.Valid) (opened : s.lifecycle = .opened) : s.loadClosed.Valid := by
  unfold loadClosed
  split
  · exact { valid with opened := nofun }
  · refine { valid with opened := nofun, waited := fun phase => ?_ }
    obtain unborn | late := valid.opened opened
    · rcases phase with phase | phase <;> cases unborn.symm.trans phase
    · rcases phase with phase | phase <;> exact absurd (phase ▸ late) (by decide)

theorem begin_valid (valid : s.Valid) {entry : EvalEntry} (entered : s.mu = .entered entry) : (s.begin entry).Valid := by
  have apart : ¬ (s.closer = .draining ∨ s.closer = .freeing) := fun held => by
    rw [valid.holder, entered] at held
    cases held
  unfold begin
  split
  · next alive =>
      refine { valid with holder := iff_of_false apart nofun, running := fun _ _ _ begun => apart (.inr ?_) }
      have early := valid.alive.mp alive
      change s.closer = .freeing
      unfold FreeBegun at begun
      cases phase : s.closer <;> simp [phase, Closer.rank] at begun early ⊢
  · exact { valid with holder := iff_of_false apart nofun, running := nofun }

theorem running_valid (valid : s.Valid) {entry : EvalEntry} {nested : Nat} (runs : s.mu = .running entry nested)
    (entry' : EvalEntry) (nested' : Nat) : ({ s with mu := .running entry' nested' } : Bridge).Valid where
  holder := iff_of_false (fun held => by rw [valid.holder, runs] at held; cases held) nofun
  running _ _ _ := valid.running entry nested runs
  alive := valid.alive
  frees := valid.frees
  closing := valid.closing
  closed := valid.closed
  waited := valid.waited
  opened := valid.opened
  unborn := valid.unborn
  returned := valid.returned

theorem returned_kept (valid : s.Valid) (i : Nat) (pc : ClosePc) (open' : pc ≠ .returned) (j : Nat)
    (back : update s.close i pc j = .returned) : s.closer = .done := by
  by_cases same : j = i
  · subst same
    rw [Function.update_self] at back
    exact absurd back open'
  · rw [Function.update_of_ne same] at back
    exact valid.returned j back

theorem onceRun_valid (valid : s.Valid) {i : Nat} (running : s.closeOnce = .running i) (free : s.lifecycle = .free) :
    (s.onceRun i).Valid := by
  have unborn : s.closer = .unborn := by
    by_contra born
    cases running.symm.trans (valid.unborn.mpr born)
  have back : ∀ j, update s.close i .selecting j ≠ .returned := fun j back => by
    cases unborn.symm.trans (returned_kept valid i .selecting nofun j back)
  obtain ⟨holder, running, alive, frees, closing, closed, waited, opened, unborn', returned⟩ := valid
  constructor <;> simp_all [onceRun, Closer.rank, FreeBegun]

theorem advance_valid (valid : s.Valid) (taken : s.advance = some next) : next.Valid := by
  obtain ⟨holder, running, alive, frees, closing, closed, waited, opened, unborn, returned⟩ := valid
  unfold advance at taken
  cases phase : s.closer <;> simp only [phase] at taken
  case waiting =>
    obtain ⟨none, same⟩ := Option.ite_none_right_eq_some.mp taken
    cases same
    constructor <;> simp_all [Closer.rank, FreeBegun]
  case waited =>
    split at taken
    · next free =>
        cases taken
        constructor <;> simp_all [Closer.rank, FreeBegun]
    · cases taken
  case unborn => cases taken
  case done => cases taken
  all_goals
    cases taken
    constructor <;> simp_all [Closer.rank, FreeBegun]

theorem step_valid (state : Bridge) (action : Action) (next : Bridge) (valid : state.Valid)
    (taken : step state action = some next) : next.Valid := by
  cases action with
  | tryLock =>
      obtain ⟨-, same⟩ := Option.ite_none_right_eq_some.mp taken
      cases same
      exact { valid with opened := nofun }
  | loadClosing =>
      obtain ⟨-, same⟩ := Option.ite_none_right_eq_some.mp taken
      cases same
      exact loadClosing_valid valid
  | loadClosed =>
      obtain ⟨opened, same⟩ := Option.ite_none_right_eq_some.mp taken
      cases same
      exact loadClosed_valid valid opened
  | ended =>
      obtain ⟨some', same⟩ := Option.ite_none_right_eq_some.mp taken
      cases same
      exact { valid with waited := fun phase => by rw [valid.waited phase] }
  | interrupt =>
      obtain ⟨-, same⟩ := Option.ite_none_right_eq_some.mp taken
      cases same
      exact { valid with closing := fun _ _ => rfl }
  | enter entry =>
      dsimp only [step] at taken
      split at taken
      · next free =>
          cases taken
          refine { valid with holder := iff_of_false (fun held => ?_) nofun, running := nofun }
          rw [valid.holder, free] at held
          cases held
      · cases taken
  | begin =>
      dsimp only [step] at taken
      split at taken
      · next entered =>
          cases taken
          exact begin_valid valid entered
      · cases taken
  | nest =>
      dsimp only [step] at taken
      split at taken
      · next runs =>
          obtain ⟨-, same⟩ := Option.ite_none_right_eq_some.mp taken
          cases same
          exact running_valid valid runs _ _
      · cases taken
  | unnest =>
      dsimp only [step] at taken
      split at taken
      · next runs =>
          cases taken
          exact running_valid valid runs _ _
      · cases taken
  | schedule =>
      obtain ⟨-, same⟩ := Option.ite_none_right_eq_some.mp taken
      cases same
      exact { valid with }
  | callback =>
      dsimp only [step] at taken
      split at taken
      · next runs =>
          obtain ⟨-, same⟩ := Option.ite_none_right_eq_some.mp taken
          cases same
          exact { running_valid valid runs _ _ with }
      · cases taken
  | leave =>
      dsimp only [step] at taken
      split at taken
      · next runs =>
          cases taken
          refine { valid with holder := iff_of_false (fun held => ?_) nofun, running := nofun }
          rw [valid.holder, runs] at held
          cases held
      · cases taken
  | closeContext i =>
      obtain ⟨-, same⟩ := Option.ite_none_left_eq_some.mp taken
      cases same
      exact { valid with returned := returned_kept valid i .entering nofun }
  | onceTake i =>
      obtain ⟨⟨-, fresh⟩, same⟩ := Option.ite_none_right_eq_some.mp taken
      cases same
      have unborn := valid.unborn
      rw [fresh] at unborn
      exact { valid with unborn := iff_of_false nofun fun born => nomatch unborn.mpr born }
  | onceRun =>
      dsimp only [step] at taken
      split at taken
      · next i running =>
          obtain ⟨free, same⟩ := Option.ite_none_right_eq_some.mp taken
          cases same
          exact onceRun_valid valid running free
      · cases taken
  | oncePass i =>
      obtain ⟨-, same⟩ := Option.ite_none_right_eq_some.mp taken
      cases same
      exact { valid with returned := returned_kept valid i .selecting nofun }
  | advance => exact advance_valid valid taken
  | selectDone i =>
      obtain ⟨⟨-, done⟩, same⟩ := Option.ite_none_right_eq_some.mp taken
      cases same
      exact { valid with returned := fun _ _ => done }
  | selectExpired i =>
      obtain ⟨-, same⟩ := Option.ite_none_right_eq_some.mp taken
      cases same
      exact { valid with returned := returned_kept valid i .timedOut nofun }

theorem safe_iff (valid : s.Valid) : s.Safe ↔ (s.FreeBegun → s.tracked = 0) := by
  refine ⟨Safe.ended, fun ended => ⟨?_, fun i back => ?_, ended,
    fun begun entry nested runs => valid.running entry nested runs begun⟩⟩
  · rw [valid.frees]
    split <;> decide
  · rw [valid.frees, valid.returned i back]
    rfl

theorem advance_ended (valid : s.Valid) (ended : s.FreeBegun → s.tracked = 0) (taken : s.advance = some next)
    (begun : next.FreeBegun) : next.tracked = 0 := by
  unfold advance at taken
  cases phase : s.closer <;> simp only [phase] at taken
  case waiting =>
    obtain ⟨none, same⟩ := Option.ite_none_right_eq_some.mp taken
    cases same
    exact none
  case waited =>
    split at taken
    · cases taken
      exact valid.waited (.inl phase)
    · cases taken
  case draining =>
    cases taken
    exact valid.waited (.inr phase)
  case unborn => cases taken
  case done => cases taken
  all_goals
    cases taken
    exact ended ((congrArg (Closer.freeing.rank ≤ Closer.rank ·) phase).mpr (by decide))

theorem loadClosed_ended_iff (valid : s.Valid) (ended : s.FreeBegun → s.tracked = 0) (opened : s.lifecycle = .opened) :
    (s.loadClosed.FreeBegun → s.loadClosed.tracked = 0) ↔ s.closer ≠ .cleared := by
  unfold loadClosed
  split
  · next closed =>
      have late := valid.closed.mp closed
      refine iff_of_true ended fun cleared => ?_
      rw [cleared] at late
      exact absurd late (by decide)
  · next closed =>
      have early : ¬ Closer.stored.rank ≤ s.closer.rank := fun late => closed (valid.closed.mpr late)
      constructor
      · intro none cleared
        cases none (by unfold FreeBegun; rw [cleared]; decide)
      · intro apart begun
        change Closer.freeing.rank ≤ s.closer.rank at begun
        exfalso
        obtain unborn | late := valid.opened opened
        · rw [unborn] at begun
          exact absurd begun (by decide)
        · cases phase : s.closer <;> simp [phase, Closer.rank] at early late apart

def Action.Quiet : Action → Prop
  | .loadClosed => False
  | .ended => False
  | .advance => False
  | .onceRun => False
  | _ => True

theorem quiet_kept {action : Action} (taken : step s action = some next) (quiet : action.Quiet) :
    next.closer = s.closer ∧ next.tracked = s.tracked := by
  cases action
  case loadClosed => exact quiet.elim
  case ended => exact quiet.elim
  case advance => exact quiet.elim
  case onceRun => exact quiet.elim
  all_goals
    dsimp only [step] at taken
    repeat' split at taken
    all_goals cases taken <;> exact ⟨rfl, rfl⟩

theorem step_safe_iff (state : Bridge) (action : Action) (next : Bridge) (valid : state.Valid) (safe : state.Safe)
    (taken : step state action = some next) : next.Safe ↔ state.OutsideGap action := by
  rw [safe_iff (step_valid state action next valid taken)]
  have ended := safe.ended
  cases action with
  | loadClosed =>
      obtain ⟨opened, same⟩ := Option.ite_none_right_eq_some.mp taken
      cases same
      exact loadClosed_ended_iff valid ended opened
  | ended =>
      obtain ⟨-, same⟩ := Option.ite_none_right_eq_some.mp taken
      cases same
      exact iff_of_true (fun begun => congrArg (· - 1) (ended begun)) trivial
  | advance => exact iff_of_true (advance_ended valid ended taken) trivial
  | onceRun =>
      dsimp only [step] at taken
      split at taken
      · obtain ⟨-, same⟩ := Option.ite_none_right_eq_some.mp taken
        cases same
        exact iff_of_true (fun begun => absurd begun (by change ¬ 4 ≤ 1; decide)) trivial
      · cases taken
  | _ =>
      obtain ⟨closer, tracked⟩ := quiet_kept taken trivial
      refine iff_of_true (fun begun => ?_) trivial
      unfold FreeBegun at begun
      rw [closer] at begun
      rw [tracked]
      exact ended begun

theorem safe_new : new.Safe := (safe_iff valid_new).mpr fun _ => rfl

theorem safe_always_iff {path : List Action} {final : Bridge} (finished : run step new path = some final) :
    Always step Safe new path ↔ Along step OutsideGap new path :=
  always_iff_along step_valid step_safe_iff valid_new safe_new finished

-- A close that has run to the end, and a TryGo that finds the bridge closed.
theorem late_refused : Always step Safe new
    [.closeContext 0, .onceTake 0, .onceRun, .selectExpired 0, .advance, .advance, .advance, .advance, .advance, .tryLock,
      .loadClosing, .advance, .loadClosed, .advance, .closeContext 0, .oncePass 0, .selectDone 0] := by
  refine (safe_always_iff (by rfl)).mpr ?_
  iterate 12 refine along_cons trivial rfl ?_
  refine along_cons (fun same : Closer.stored = .cleared => nomatch same) rfl ?_
  iterate 4 refine along_cons trivial rfl ?_
  trivial

-- Between the two stores a TryGo starts a goroutine, and the runtime has been freed.
theorem gap_started : ∃ s, run step new
      [.closeContext 0, .onceTake 0, .onceRun, .advance, .advance, .advance, .advance, .advance, .tryLock, .loadClosing,
        .loadClosed] = some s ∧
    s.frees = 1 ∧ s.alive = false ∧ s.tracked = 1 ∧ ¬ s.Safe := by
  refine ⟨_, rfl, rfl, rfl, rfl, fun safe => ?_⟩
  cases safe.ended (by change 4 ≤ 6; decide)

end Bridge

end Brainkit.Runtime
