import Brainkit.Library.GoText

set_option autoImplicit false

namespace Brainkit.Schedules

open Function (update)
open GoText

-- The due times of one schedule, counted from its creation.
structure Occurrence where
  creation : Nat
  number : Nat
deriving DecidableEq

-- Times and durations are nanoseconds. The expression, the source and the time of creation are read by no code below.
-- occurrence is history: which due time of the schedule nextFire stands for.
structure PersistedSchedule where
  id : GoString
  duration : Int
  topic : GoString
  payload : GoString
  nextFire : Int
  oneTime : Bool
  occurrence : Occurrence
deriving DecidableEq

def PersistedSchedule.rearmed (ps : PersistedSchedule) (now : Int) : PersistedSchedule :=
  { ps with nextFire := now + ps.duration, occurrence := ⟨ps.occurrence.creation, ps.occurrence.number + 1⟩ }

structure FireTime where
  instant : Int
  offset : Int
deriving DecidableEq

structure ScheduleConfig where
  id : GoString
  expression : GoString
  topic : GoString
  payload : GoString

-- What newScheduler is given, and time.ParseDuration.
structure Host where
  isCommand : GoString → Bool
  parseDuration : GoString → Option Int
  hasStore : Bool

def parseScheduleExpression (parseDuration : GoString → Option Int) (expr : GoString) : Option (Int × Bool) :=
  if lit "every " <+: expr then (parseDuration (expr.drop 6)).map fun d => (d, false)
  else if lit "in " <+: expr then (parseDuration (expr.drop 3)).map fun d => (d, true)
  else none

inductive ClaimResult where
  | claimed
  | lost
  | failed
deriving DecidableEq

inductive FirePc where
  | idle
  | begun (e : Nat)
  | admitted (e : Nat)
  | claiming (e : Nat)
  | publishing (e : Nat)
  | published (e : Nat)
  | rearming (e : Nat) (snapshot : PersistedSchedule)
  | deleting (id : GoString)
  | saving (ps : PersistedSchedule)
  | reporting
  | done
deriving DecidableEq

inductive CallPc where
  | idle
  | adding (e : Nat)
  | saving (ps : PersistedSchedule)
  | deleting (id : GoString)
  | reporting
  | done
deriving DecidableEq

inductive RestorePc where
  | idle
  | looping (now : Int) (rest : List PersistedSchedule)
  | catchingUp (now : Int) (ps : PersistedSchedule) (rest : List PersistedSchedule)
  | caughtUp (now : Int) (ps : PersistedSchedule) (rest : List PersistedSchedule)
  | adding (now : Int) (e : Nat) (rest : List PersistedSchedule)
deriving DecidableEq

-- Entries are numbered in the order in which add makes them; timer says whether the entry's timer is pending.
structure Scheduler where
  closed : Bool
  schedules : GoString → Option Nat
  entry : Nat → PersistedSchedule
  timer : Nat → Bool
  created : Nat
  fire : Nat → FirePc
  call : Nat → CallPc
  restore : RestorePc

def Scheduler.start : Scheduler where
  closed := false
  schedules := fun _ => none
  entry := fun _ => ⟨[], 0, [], [], 0, false, ⟨0, 0⟩⟩
  timer := fun _ => false
  created := 0
  fire := fun _ => .idle
  call := fun _ => .idle
  restore := .idle

namespace Scheduler

def setFire (s : Scheduler) (k : Nat) (pc : FirePc) : Scheduler := { s with fire := update s.fire k pc }

def setCall (s : Scheduler) (k : Nat) (pc : CallPc) : Scheduler := { s with call := update s.call k pc }

-- The two parts of add: time.AfterFunc arms the new entry, and the insert under mu registers it, replacing an entry
-- of the same id, or stops it.
def afterFunc (s : Scheduler) (ps : PersistedSchedule) : Scheduler :=
  { s with
    entry := update s.entry s.created ps
    timer := update s.timer s.created true
    created := s.created + 1 }

def insert (s : Scheduler) (e : Nat) : Scheduler :=
  if s.closed then { s with timer := update s.timer e false }
  else { s with schedules := update s.schedules (s.entry e).id (some e) }

-- uuid stands for the id that Schedule makes when none is given; creation numbers the schedule, for the history.
def schedule (host : Host) (k : Nat) (cfg : ScheduleConfig) (uuid : GoString) (creation : Nat) (now : Int)
    (s : Scheduler) : Option Scheduler :=
  match s.call k with
  | .idle =>
      if s.closed ∨ host.isCommand cfg.topic then some (s.setCall k .done)
      else match parseScheduleExpression host.parseDuration cfg.expression with
        | none => some (s.setCall k .done)
        | some (duration, oneTime) =>
            let id := if cfg.id = [] then uuid else cfg.id
            let ps := ⟨id, duration, cfg.topic, cfg.payload, now + duration, oneTime, ⟨creation, 0⟩⟩
            some ((s.afterFunc ps).setCall k (.adding s.created))
  | _ => none

def add (host : Host) (k : Nat) (s : Scheduler) : Option Scheduler :=
  match s.call k with
  | .adding e =>
      if s.closed ∨ ¬ host.hasStore then some ((s.insert e).setCall k .done)
      else some ((s.insert e).setCall k (.saving (s.entry e)))
  | _ => none

def saveSchedule (k : Nat) (saved : Bool) (s : Scheduler) : Option Scheduler :=
  match s.call k with
  | .saving _ => some (s.setCall k (if saved then .done else .reporting))
  | _ => none

def persistenceError (k : Nat) (s : Scheduler) : Option Scheduler :=
  match s.call k with
  | .reporting => some (s.setCall k .done)
  | _ => none

def unschedule (host : Host) (k : Nat) (id : GoString) (s : Scheduler) : Option Scheduler :=
  match s.call k with
  | .idle => match s.schedules id with
      | none => some (s.setCall k .done)
      | some e =>
          let removed := { s with schedules := update s.schedules id none, timer := update s.timer e false }
          some (removed.setCall k (if host.hasStore then .deleting id else .done))
  | _ => none

-- An error of DeleteSchedule is ignored, here and below.
def deleteSchedule (k : Nat) (s : Scheduler) : Option Scheduler :=
  match s.call k with
  | .deleting _ => some (s.setCall k .done)
  | _ => none

def timerFires (k e : Nat) (s : Scheduler) : Option Scheduler :=
  match s.fire k with
  | .idle => if s.timer e then some ({ s with timer := update s.timer e false }.setFire k (.begun e)) else none
  | _ => none

def current (s : Scheduler) (e : Nat) : Bool := s.schedules (s.entry e).id = some e

def fireAdmit (k : Nat) (s : Scheduler) : Option Scheduler :=
  match s.fire k with
  | .begun e => some (s.setFire k (if !s.closed && s.current e then .admitted e else .done))
  | _ => none

def fireDraining (k : Nat) (isDraining : Bool) (s : Scheduler) : Option Scheduler :=
  match s.fire k with
  | .admitted e => some (s.setFire k (if isDraining then .done else .claiming e))
  | _ => none

-- An error of ClaimScheduleFire lets the fire go on. The store is given the time of the call.
def fireClaim (host : Host) (k : Nat) (_time : FireTime) (result : ClaimResult) (s : Scheduler) : Option Scheduler :=
  match s.fire k with
  | .claiming e => some (s.setFire k (if host.hasStore ∧ result = .lost then .done else .publishing e))
  | _ => none

def firePublish (k : Nat) (s : Scheduler) : Option Scheduler :=
  match s.fire k with
  | .publishing e => some (s.setFire k (.published e))
  | _ => none

-- A one-time schedule is removed, whichever entry its id has now. A recurring one gets its next time, unless it is no
-- longer the registered one.
def fireFinish (host : Host) (k : Nat) (now : Int) (s : Scheduler) : Option Scheduler :=
  match s.fire k with
  | .published e =>
      if s.closed then some (s.setFire k .done)
      else if (s.entry e).oneTime then
        some ({ s with schedules := update s.schedules (s.entry e).id none }.setFire k
          (if host.hasStore then .deleting (s.entry e).id else .done))
      else if s.current e then
        let snapshot := (s.entry e).rearmed now
        some ({ s with entry := update s.entry e snapshot }.setFire k (.rearming e snapshot))
      else some (s.setFire k .done)
  | _ => none

def timerReset (host : Host) (k : Nat) (s : Scheduler) : Option Scheduler :=
  match s.fire k with
  | .rearming e snapshot =>
      some ({ s with timer := update s.timer e true }.setFire k (if host.hasStore then .saving snapshot else .done))
  | _ => none

def fireSave (k : Nat) (saved : Bool) (s : Scheduler) : Option Scheduler :=
  match s.fire k with
  | .saving _ => some (s.setFire k (if saved then .done else .reporting))
  | _ => none

def fireDelete (k : Nat) (s : Scheduler) : Option Scheduler :=
  match s.fire k with
  | .deleting _ => some (s.setFire k .done)
  | _ => none

def fireReport (k : Nat) (s : Scheduler) : Option Scheduler :=
  match s.fire k with
  | .reporting => some (s.setFire k .done)
  | _ => none

def restoreLoad (host : Host) (now : Int) (loaded : List PersistedSchedule) (s : Scheduler) : Option Scheduler :=
  match s.restore with
  | .idle => if host.hasStore then some { s with restore := .looping now loaded } else none
  | _ => none

-- A schedule whose time has passed is published at once, before it is added.
def restoreNext (s : Scheduler) : Option Scheduler :=
  match s.restore with
  | .looping _ [] => some { s with restore := .idle }
  | .looping now (ps :: rest) =>
      if ps.nextFire < now then some { s with restore := .catchingUp now ps rest }
      else some { s.afterFunc ps with restore := .adding now s.created rest }
  | _ => none

def restorePublish (s : Scheduler) : Option Scheduler :=
  match s.restore with
  | .catchingUp now ps rest => some { s with restore := .caughtUp now ps rest }
  | _ => none

-- The store write after a catch-up: a one-time schedule is deleted, a recurring one saved with its next time and
-- added.
def restoreWrite (s : Scheduler) : Option Scheduler :=
  match s.restore with
  | .caughtUp now ps rest =>
      if ps.oneTime then some { s with restore := .looping now rest }
      else some { s.afterFunc (ps.rearmed now) with restore := .adding now s.created rest }
  | _ => none

def restoreAdd (s : Scheduler) : Option Scheduler :=
  match s.restore with
  | .adding now e rest => some { s.insert e with restore := .looping now rest }
  | _ => none

-- CloseContext up to its wait for the running fires.
def close (s : Scheduler) : Scheduler :=
  { s with
    closed := true
    schedules := fun _ => none
    timer := fun e => if s.schedules (s.entry e).id = some e then false else s.timer e }

inductive Action where
  | schedule (k : Nat) (cfg : ScheduleConfig) (uuid : GoString) (creation : Nat) (now : Int)
  | add (k : Nat)
  | saveSchedule (k : Nat) (saved : Bool)
  | persistenceError (k : Nat)
  | unschedule (k : Nat) (id : GoString)
  | deleteSchedule (k : Nat)
  | timerFires (k e : Nat)
  | fireAdmit (k : Nat)
  | fireDraining (k : Nat) (isDraining : Bool)
  | fireClaim (k : Nat) (time : FireTime) (result : ClaimResult)
  | firePublish (k : Nat)
  | fireFinish (k : Nat) (now : Int)
  | timerReset (k : Nat)
  | fireSave (k : Nat) (saved : Bool)
  | fireDelete (k : Nat)
  | fireReport (k : Nat)
  | restoreLoad (now : Int) (loaded : List PersistedSchedule)
  | restoreNext
  | restorePublish
  | restoreWrite
  | restoreAdd
  | close

def step (host : Host) (s : Scheduler) : Action → Option Scheduler
  | .schedule k cfg uuid creation now => s.schedule host k cfg uuid creation now
  | .add k => s.add host k
  | .saveSchedule k saved => s.saveSchedule k saved
  | .persistenceError k => s.persistenceError k
  | .unschedule k id => s.unschedule host k id
  | .deleteSchedule k => s.deleteSchedule k
  | .timerFires k e => s.timerFires k e
  | .fireAdmit k => s.fireAdmit k
  | .fireDraining k isDraining => s.fireDraining k isDraining
  | .fireClaim k time result => s.fireClaim host k time result
  | .firePublish k => s.firePublish k
  | .fireFinish k now => s.fireFinish host k now
  | .timerReset k => s.timerReset host k
  | .fireSave k saved => s.fireSave k saved
  | .fireDelete k => s.fireDelete k
  | .fireReport k => s.fireReport k
  | .restoreLoad now loaded => s.restoreLoad host now loaded
  | .restoreNext => s.restoreNext
  | .restorePublish => s.restorePublish
  | .restoreWrite => s.restoreWrite
  | .restoreAdd => s.restoreAdd
  | .close => some s.close

end Scheduler

inductive Writer where
  | call (k : Nat)
  | fire (k : Nat)
deriving DecidableEq

def CallPc.owes : CallPc → Option (GoString × Option PersistedSchedule)
  | .saving ps => some (ps.id, some ps)
  | .deleting id => some (id, none)
  | .idle | .adding _ | .reporting | .done => none

def FirePc.owes : FirePc → Option (GoString × Option PersistedSchedule)
  | .rearming _ ps | .saving ps => some (ps.id, some ps)
  | .deleting id => some (id, none)
  | .idle | .begun _ | .admitted _ | .claiming _ | .publishing _ | .published _ | .reporting | .done => none

inductive Outcome where
  | scheduled (e : Nat)
  | unscheduled
deriving DecidableEq

-- A scheduler with its store between Restore and CloseContext. The rest is history: the entry that a call of Schedule
-- made, the entries whose message has been published, and what the last call to return for an id was.
structure Persisted where
  scheduler : Scheduler
  store : GoString → Option PersistedSchedule
  made : Nat → Nat
  fired : Nat → Bool
  completed : GoString → Option Outcome

def Persisted.start : Persisted := ⟨.start, fun _ => none, fun _ => 0, fun _ => false, fun _ => none⟩

namespace Persisted

-- deleted says whether a DeleteSchedule of this step succeeds; the code does not look at its error.
structure Action where
  action : Scheduler.Action
  deleted : Bool

def Action.write (a : Action) : Option (Writer × Bool) :=
  match a.action with
  | .saveSchedule k saved => some (.call k, saved)
  | .deleteSchedule k => some (.call k, a.deleted)
  | .fireSave k saved => some (.fire k, saved)
  | .fireDelete k => some (.fire k, a.deleted)
  | _ => none

def owes (s : Persisted) : Writer → Option (GoString × Option PersistedSchedule)
  | .call k => (s.scheduler.call k).owes
  | .fire k => (s.scheduler.fire k).owes

def written (s : Persisted) (a : Action) : GoString → Option PersistedSchedule :=
  match a.write with
  | some (w, true) => match s.owes w with
      | some (id, record) => update s.store id record
      | none => s.store
  | _ => s.store

def returning (s : Persisted) (k : Nat) : Option GoString :=
  match s.scheduler.call k with
  | .saving ps => some ps.id
  | .deleting id => some id
  | .reporting => some (s.scheduler.entry (s.made k)).id
  | .idle | .adding _ | .done => none

-- The call that returns with the action. An Unschedule that finds nothing returns at once.
def returns (s : Persisted) (a : Action) : Option (Nat × GoString × Outcome) :=
  match a.action with
  | .saveSchedule k true | .persistenceError k => (s.returning k).map fun id => (k, id, .scheduled (s.made k))
  | .deleteSchedule k => (s.returning k).map fun id => (k, id, .unscheduled)
  | .unschedule k id => if s.scheduler.schedules id = none then some (k, id, .unscheduled) else none
  | _ => none

def recordMade (s : Persisted) (a : Action) : Nat → Nat :=
  match a.action with
  | .schedule k _ _ _ _ => update s.made k s.scheduler.created
  | _ => s.made

def recordFired (s : Persisted) (a : Action) : Nat → Bool :=
  match a.action with
  | .firePublish k => match s.scheduler.fire k with
      | .publishing e => update s.fired e true
      | _ => s.fired
  | _ => s.fired

def recordCompleted (s : Persisted) (a : Action) : GoString → Option Outcome :=
  match s.returns a with
  | some (_, id, outcome) => update s.completed id (some outcome)
  | none => s.completed

def Action.ofCalls (a : Action) : Bool :=
  match a.action with
  | .restoreLoad _ _ | .restoreNext | .restorePublish | .restoreWrite | .restoreAdd | .close => false
  | _ => true

def step (host : Host) (s : Persisted) (a : Action) : Option Persisted :=
  if a.ofCalls then (Scheduler.step host s.scheduler a.action).map fun next =>
    { scheduler := next
      store := s.written a
      made := s.recordMade a
      fired := s.recordFired a
      completed := s.recordCompleted a }
  else none

def live (s : Persisted) (id : GoString) : Option PersistedSchedule :=
  (s.scheduler.schedules id).map s.scheduler.entry

-- The entry that should be listed after the latest completed call: none after an Unschedule or when a one-time
-- schedule has fired.
def expected (s : Persisted) (id : GoString) : Option Nat :=
  match s.completed id with
  | some (.scheduled e) => if (s.scheduler.entry e).oneTime && s.fired e then none else some e
  | some .unscheduled | none => none

def Quiet (s : Persisted) : Prop :=
  (∀ k, s.scheduler.call k = .idle ∨ s.scheduler.call k = .done) ∧
    ∀ k, s.scheduler.fire k = .idle ∨ s.scheduler.fire k = .done

-- Where the live map stands after a call with this outcome: the entry is listed, or it was a one-time schedule and has
-- fired; and nothing is listed.
def Fits (s : Persisted) (id : GoString) : Option Outcome → Prop
  | some (.scheduled e) => s.scheduler.schedules id = some e ∨
      s.scheduler.schedules id = none ∧ (s.scheduler.entry e).oneTime = true ∧ s.fired e = true
  | some .unscheduled | none => s.scheduler.schedules id = none

-- A store write succeeds and makes the record the live one, or another write for the id is still to come. A call
-- returns when the live map is as the call left it, or another call for the id has still to return. A one-time fire
-- that finishes finds its own entry under its id or none, or a call for the id has still to return.
structure StaysTogether (s : Persisted) (a : Action) : Prop where
  writes : ∀ w ok id record, a.write = some (w, ok) → s.owes w = some (id, record) →
    ok = true ∧ record = s.live id ∨ ∃ other record, other ≠ w ∧ s.owes other = some (id, record)
  returns : ∀ k id outcome, s.returns a = some (k, id, outcome) →
    s.Fits id (some outcome) ∨ ∃ other, other ≠ k ∧ s.returning other = some id
  finishes : ∀ k now e, a.action = .fireFinish k now → s.scheduler.fire k = .published e →
    (s.scheduler.entry e).oneTime = true → s.scheduler.schedules (s.scheduler.entry e).id = some e ∨
      s.scheduler.schedules (s.scheduler.entry e).id = none ∨
      ∃ other, s.returning other = some (s.scheduler.entry e).id

structure Agrees (s : Persisted) (id : GoString) : Prop where
  store : s.store id = s.live id
  latest : s.scheduler.schedules id = s.expected id

end Persisted

end Brainkit.Schedules
