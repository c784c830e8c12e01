import Brainkit.Library.Rfc3339
import Brainkit.Schedules.Replicas

set_option autoImplicit false

namespace Brainkit.Schedules

open Transition GoText

-- A row of the table schedules, without the columns that the scheduler does not read. occurrence is history.
structure ScheduleRow where
  id : GoString
  duration : Int
  topic : GoString
  payload : GoString
  nextFire : GoString
  oneTime : Int
  occurrence : Occurrence
deriving DecidableEq

-- Nanoseconds of the zero Time, the first of January of the year 1.
def zeroTime : Int := -62135596800000000000

-- offset is the one of the zone that NextFire stands in, in seconds east of UTC.
def scheduleRow (sc : PersistedSchedule) (offset : Int) : ScheduleRow where
  id := sc.id
  duration := sc.duration
  topic := sc.topic
  payload := sc.payload
  nextFire := Rfc3339.format (sc.nextFire / 1000000000) offset
  oneTime := if sc.oneTime then 1 else 0
  occurrence := sc.occurrence

-- INSERT OR REPLACE
def saveSchedule (sc : PersistedSchedule) (offset : Int) (rows : List ScheduleRow) : List ScheduleRow :=
  rows.filter (·.id ≠ sc.id) ++ [scheduleRow sc offset]

-- An error of Parse is dropped, with which its result is the zero Time.
def loadSchedule (row : ScheduleRow) : PersistedSchedule where
  id := row.id
  duration := row.duration
  topic := row.topic
  payload := row.payload
  nextFire := (Rfc3339.parse row.nextFire).getD zeroTime
  oneTime := decide (row.oneTime ≠ 0)
  occurrence := row.occurrence

def loadSchedules (rows : List ScheduleRow) : List PersistedSchedule := rows.map loadSchedule

theorem load_save (sc : PersistedSchedule) (offset : Int) (rows : List ScheduleRow) (loaded : PersistedSchedule)
    (mem : loaded ∈ loadSchedules (saveSchedule sc offset rows)) (own : loaded.id = sc.id) :
    loaded = loadSchedule (scheduleRow sc offset) := by
  obtain ⟨row, stored, rfl⟩ := List.mem_map.mp mem
  rcases List.mem_append.mp stored with other | new
  · have kept := (List.mem_filter.mp other).2
    exact absurd own (of_decide_eq_true kept)
  · rw [List.mem_singleton.mp new]

theorem saved_loaded (sc : PersistedSchedule) (offset : Int) (rows : List ScheduleRow) :
    loadSchedule (scheduleRow sc offset) ∈ loadSchedules (saveSchedule sc offset rows) :=
  List.mem_map_of_mem (List.mem_append_right _ (List.mem_singleton_self _))

theorem loaded_time (sc : PersistedSchedule) (offset : Int) (fits : Rfc3339.Expressible (sc.nextFire / 1000000000) offset) :
    (loadSchedule (scheduleRow sc offset)).nextFire = 1000000000 * (sc.nextFire / 1000000000 + offset.tmod 60) := by
  have read := Rfc3339.parse_format (sc.nextFire / 1000000000) offset
  rw [if_pos fits] at read
  simp only [loadSchedule, scheduleRow, read, Option.getD_some]

theorem loaded_zero (sc : PersistedSchedule) (offset : Int) (strange : ¬ Rfc3339.Expressible (sc.nextFire / 1000000000) offset) :
    (loadSchedule (scheduleRow sc offset)).nextFire = zeroTime := by
  have read := Rfc3339.parse_format (sc.nextFire / 1000000000) offset
  rw [if_neg strange] at read
  simp only [loadSchedule, scheduleRow, read, Option.getD_none]

namespace Scheduler

def Action.isLoad : Action → Bool
  | .restoreLoad _ _ => true
  | _ => false

def Restoring (host : Host) (now : Int) (rows : List ScheduleRow) (s : Scheduler) : Prop :=
  ∃ (before first : Scheduler) (path : List Action), before.restoreLoad host now (loadSchedules rows) = some first ∧
    Along (step host) (fun _ action => action.isLoad = false) first path ∧ run (step host) first path = some s

def Within (now : Int) (loaded : List PersistedSchedule) : RestorePc → Prop
  | .idle => True
  | .looping read rest => read = now ∧ rest ⊆ loaded
  | .catchingUp read ps rest => read = now ∧ rest ⊆ loaded ∧ ps ∈ loaded ∧ ps.nextFire < now
  | .caughtUp read _ rest => read = now ∧ rest ⊆ loaded
  | .adding read _ rest => read = now ∧ rest ⊆ loaded

theorem within_step (host : Host) (now : Int) (loaded : List PersistedSchedule) (s : Scheduler) (action : Action)
    (next : Scheduler) (within : Within now loaded s.restore) (other : action.isLoad = false)
    (taken : step host s action = some next) : Within now loaded next.restore := by
  cases moves_of_step host s next action taken with
  | restoreLoad => cases other
  | restoreEnd => trivial
  | misses read ps rest looping missed =>
      rw [looping] at within
      obtain ⟨rfl, known⟩ := within
      exact ⟨rfl, (List.cons_subset.mp known).2, (List.cons_subset.mp known).1, missed⟩
  | restores read ps rest looping =>
      rw [looping] at within
      exact ⟨within.1, (List.cons_subset.mp within.2).2⟩
  | restorePublish read ps rest catching =>
      rw [catching] at within
      exact ⟨within.1, within.2.1⟩
  | drops read ps rest caughtUp | restoresNext read ps rest caughtUp =>
      rw [caughtUp] at within
      exact within
  | restoreAdd read e rest adding =>
      rw [adding] at within
      exact within
  | adds | addsSaving =>
      simp only [setCall, insert]
      split <;> exact within
  | _ => exact within

theorem restoring_within (host : Host) (now : Int) (rows : List ScheduleRow) (s : Scheduler)
    (restoring : Restoring host now rows s) : Within now (loadSchedules rows) s.restore := by
  obtain ⟨before, first, path, loads, others, reached⟩ := restoring
  refine @along_invariant _ _ _ _ (fun s : Scheduler => Within now (loadSchedules rows) s.restore)
    (within_step host now (loadSchedules rows)) _ _ _ ?_ others reached
  unfold Scheduler.restoreLoad at loads
  split at loads
  · split at loads
    · cases loads
      exact ⟨rfl, List.Subset.refl _⟩
    · cases loads
  · cases loads

theorem restoring_catches_up (host : Host) (stored : host.hasStore = true) (now : Int) (rows : List ScheduleRow)
    (ps : PersistedSchedule) (rest : List PersistedSchedule) (loads : loadSchedules rows = ps :: rest)
    (missed : ps.nextFire < now) : ∃ s, Restoring host now rows s ∧ s.restore = .catchingUp now ps rest := by
  refine ⟨{ start with restore := .catchingUp now ps rest },
    ⟨start, { start with restore := .looping now (ps :: rest) }, [.restoreNext], ?_, ⟨rfl, fun _ _ => trivial⟩, ?_⟩, rfl⟩
  · simp [Scheduler.restoreLoad, start, stored, loads]
  · simp [run, step, Scheduler.restoreNext, missed]

end Scheduler

-- What is loaded of a saved schedule is not before what was saved, and no Restore from there catches the schedule up
-- before its time.
structure RoundTrip (sc : PersistedSchedule) (offset : Int) (rows : List ScheduleRow) : Prop where
  notEarlier : ∀ loaded ∈ loadSchedules (saveSchedule sc offset rows), loaded.id = sc.id → sc.nextFire ≤ loaded.nextFire
  catchesUp : ∀ (host : Host) (now : Int) (s : Scheduler) (ps : PersistedSchedule) (rest : List PersistedSchedule),
    Scheduler.Restoring host now (saveSchedule sc offset rows) s → s.restore = .catchingUp now ps rest → ps.id = sc.id →
      sc.nextFire ≤ now

theorem round_trip_loaded (sc : PersistedSchedule) (offset : Int) (rows : List ScheduleRow) :
    RoundTrip sc offset rows ↔ sc.nextFire ≤ (loadSchedule (scheduleRow sc offset)).nextFire := by
  constructor
  · intro trip
    exact trip.notEarlier _ (saved_loaded sc offset rows) rfl
  · intro later
    refine ⟨fun loaded mem own => ?_, fun host now s ps rest restoring catching own => ?_⟩
    · rwa [load_save sc offset rows loaded mem own]
    · have within := Scheduler.restoring_within host now _ s restoring
      rw [catching] at within
      obtain ⟨-, -, mem, missed⟩ := within
      rw [load_save sc offset rows ps mem own] at missed
      exact Int.le_of_lt (Int.lt_of_le_of_lt later missed)

-- An offset with seconds is written without them, so that the time read is later to the east and earlier to the west.
theorem stored_time_iff (sc : PersistedSchedule) (offset : Int) (rows : List ScheduleRow) :
    RoundTrip sc offset rows ↔
      if Rfc3339.Expressible (sc.nextFire / 1000000000) offset then
        0 < offset.tmod 60 ∨ offset.tmod 60 = 0 ∧ sc.nextFire % 1000000000 = 0
      else sc.nextFire ≤ zeroTime := by
  rw [round_trip_loaded]
  split_ifs with fits
  · rw [loaded_time sc offset fits]
    omega
  · rw [loaded_zero sc offset fits]

def halfPast : PersistedSchedule := ⟨lit "once", 3600000000000, lit "topic", [], 1767225600500000000, true, ⟨0, 0⟩⟩

def storing : Host := ⟨fun _ => false, fun _ => none, true⟩

-- A Restore a quarter of a second before the time has it caught up.
theorem half_second_lost : ¬ RoundTrip halfPast 0 [] ∧ ∃ s ps, s.restore = .catchingUp 1767225600250000000 ps [] ∧
    Scheduler.Restoring storing 1767225600250000000 (saveSchedule halfPast 0 []) s ∧ ps.id = halfPast.id ∧
      1767225600250000000 < halfPast.nextFire := by
  have fits : Rfc3339.Expressible (halfPast.nextFire / 1000000000) 0 := by decide
  have early : (loadSchedule (scheduleRow halfPast 0)).nextFire < 1767225600250000000 := by
    rw [loaded_time halfPast 0 fits]
    decide
  obtain ⟨s, restoring, catching⟩ := Scheduler.restoring_catches_up storing rfl 1767225600250000000
    (saveSchedule halfPast 0 []) (loadSchedule (scheduleRow halfPast 0)) [] rfl early
  refine ⟨fun trip => ?_, s, _, catching, restoring, rfl, by decide⟩
  exact absurd (trip.catchesUp storing _ s _ [] restoring catching rfl) (by decide)

end Brainkit.Schedules
