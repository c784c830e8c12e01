import Brainkit.Schedules.Armed

set_option autoImplicit false

namespace Brainkit.Schedules

open Function (update)
open Transition GoText

inductive Backend where
  | sqlite
  | postgres
deriving DecidableEq

-- The primary key of schedule_fires: the schedule and the text of the fire time, which is its 100 ms bucket with the
-- offset of the time zone.
structure FireRow where
  scheduleID : GoString
  bucket : Int
  offset : Int
deriving DecidableEq

def fireRow (scheduleID : GoString) (time : FireTime) : FireRow :=
  ⟨scheduleID, time.instant - time.instant % 100000000, time.offset⟩

-- SQLite reports whether the insert made a row. Postgres runs its insert, which does nothing on a conflict, without
-- counting rows, and hides an error.
def claimScheduleFire (backend : Backend) (fails : Bool) (scheduleID : GoString) (time : FireTime) (rows : List FireRow) :
    ClaimResult × List FireRow :=
  match backend, fails with
  | .sqlite, true => (.failed, rows)
  | .sqlite, false =>
      if fireRow scheduleID time ∈ rows then (.lost, rows) else (.claimed, fireRow scheduleID time :: rows)
  | .postgres, true => (.lost, rows)
  | .postgres, false => (.claimed, rows.insert (fireRow scheduleID time))

-- SQLite keeps the next time to the second, Postgres to the microsecond.
def Backend.stored (backend : Backend) (ps : PersistedSchedule) : PersistedSchedule :=
  match backend with
  | .sqlite => { ps with nextFire := ps.nextFire - ps.nextFire % 1000000000 }
  | .postgres => { ps with nextFire := (ps.nextFire + 500) - (ps.nextFire + 500) % 1000 }

-- The processes, the two tables they share, and the history: the number of calls of Schedule, the occurrences for
-- which a publish was tried to be allowed, each with the row that records it, and the published occurrences. A
-- restarted replica is a new process; there is no bound on their number.
structure Replicas where
  process : Nat → Scheduler
  schedules : List PersistedSchedule
  scheduleFires : List FireRow
  creations : Nat
  attempts : List (Occurrence × Option FireRow)
  published : List Occurrence

def Replicas.start : Replicas := ⟨fun _ => .start, [], [], 0, [], []⟩

namespace Replicas

-- A step of one process; fails says whether the store fails in it.
structure Action where
  process : Nat
  action : Scheduler.Action
  fails : Bool

def reads (backend : Backend) (c : Replicas) (a : Action) : Bool :=
  match a.action with
  | .schedule _ _ _ creation _ => creation = c.creations
  | .restoreLoad _ loaded => loaded = c.schedules && !a.fails
  | .saveSchedule _ saved | .fireSave _ saved => saved = !a.fails
  | .fireClaim k time result => match (c.process a.process).fire k with
      | .claiming e => result =
          (claimScheduleFire backend a.fails ((c.process a.process).entry e).id time c.scheduleFires).1
      | _ => true
  | _ => true

def saveRow (backend : Backend) (ps : PersistedSchedule) (rows : List PersistedSchedule) : List PersistedSchedule :=
  rows.filter (·.id ≠ ps.id) ++ [backend.stored ps]

def writeSchedules (backend : Backend) (s : Scheduler) (rows : List PersistedSchedule) :
    Scheduler.Action → List PersistedSchedule
  | .saveSchedule k _ => match s.call k with
      | .saving ps => saveRow backend ps rows
      | _ => rows
  | .deleteSchedule k => match s.call k with
      | .deleting id => rows.filter (·.id ≠ id)
      | _ => rows
  | .fireSave k _ => match s.fire k with
      | .saving ps => saveRow backend ps rows
      | _ => rows
  | .fireDelete k => match s.fire k with
      | .deleting id => rows.filter (·.id ≠ id)
      | _ => rows
  | .restoreWrite => match s.restore with
      | .caughtUp now ps _ => if ps.oneTime then rows.filter (·.id ≠ ps.id) else saveRow backend (ps.rearmed now) rows
      | _ => rows
  | _ => rows

def writeFires (backend : Backend) (s : Scheduler) (fails : Bool) (rows : List FireRow) : Scheduler.Action → List FireRow
  | .fireClaim k time _ => match s.fire k with
      | .claiming e => (claimScheduleFire backend fails (s.entry e).id time rows).2
      | _ => rows
  | _ => rows

-- A fire asks for its publish by the claim; it is recorded in a row only by SQLite and only without an error. A
-- catch-up asks nobody.
def attempt (backend : Backend) (s : Scheduler) (fails : Bool) : Scheduler.Action → Option (Occurrence × Option FireRow)
  | .fireClaim k time _ => match s.fire k with
      | .claiming e => match backend, fails with
          | .sqlite, true => some ((s.entry e).occurrence, none)
          | .sqlite, false => some ((s.entry e).occurrence, some (fireRow (s.entry e).id time))
          | .postgres, true => none
          | .postgres, false => some ((s.entry e).occurrence, none)
      | _ => none
  | .restoreNext => match s.restore with
      | .looping now (ps :: _) => if ps.nextFire < now then some (ps.occurrence, none) else none
      | _ => none
  | _ => none

inductive Slot where
  | fire (k : Nat)
  | catchUp
deriving DecidableEq

def owed (s : Scheduler) : Slot → Option Occurrence
  | .fire k => match s.fire k with
      | .publishing e => some (s.entry e).occurrence
      | _ => none
  | .catchUp => match s.restore with
      | .catchingUp _ ps _ => some ps.occurrence
      | _ => none

def publication (s : Scheduler) : Scheduler.Action → Option Occurrence
  | .firePublish k => owed s (.fire k)
  | .restorePublish => owed s .catchUp
  | _ => none

def isSchedule : Scheduler.Action → Bool
  | .schedule _ _ _ _ _ => true
  | _ => false

def step (backend : Backend) (host : Host) (c : Replicas) (a : Action) : Option Replicas :=
  let s := c.process a.process
  if reads backend c a then
    (Scheduler.step host s a.action).map fun next => { c with
      process := update c.process a.process next
      schedules := if a.fails then c.schedules else writeSchedules backend s c.schedules a.action
      scheduleFires := writeFires backend s a.fails c.scheduleFires a.action
      creations := if isSchedule a.action then c.creations + 1 else c.creations
      attempts := c.attempts ++ (attempt backend s a.fails a.action).toList
      published := c.published ++ (publication s a.action).toList }
  else none

end Replicas

end Brainkit.Schedules
