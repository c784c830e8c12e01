import Brainkit.Schedules.Scheduler

set_option autoImplicit false

namespace Brainkit.Schedules

open Function (update)
open GoText

def ScheduleConfig.persisted (cfg : ScheduleConfig) (uuid : GoString) (creation : Nat) (now duration : Int)
    (oneTime : Bool) : PersistedSchedule :=
  ⟨if cfg.id = [] then uuid else cfg.id, duration, cfg.topic, cfg.payload, now + duration, oneTime, ⟨creation, 0⟩⟩

namespace Scheduler

inductive Moves (host : Host) (s : Scheduler) : Action → Scheduler → Prop where
  | refused (k : Nat) (cfg : ScheduleConfig) (uuid : GoString) (creation : Nat) (now : Int) (idle : s.call k = .idle)
      (why : s.closed = true ∨ host.isCommand cfg.topic = true ∨
        parseScheduleExpression host.parseDuration cfg.expression = none) :
      Moves host s (.schedule k cfg uuid creation now) (s.setCall k .done)
  | schedules (k : Nat) (cfg : ScheduleConfig) (uuid : GoString) (creation : Nat) (now duration : Int) (oneTime : Bool)
      (idle : s.call k = .idle) (opened : s.closed = false) (allowed : host.isCommand cfg.topic = false)
      (parsed : parseScheduleExpression host.parseDuration cfg.expression = some (duration, oneTime)) :
      Moves host s (.schedule k cfg uuid creation now)
        ((s.afterFunc (cfg.persisted uuid creation now duration oneTime)).setCall k (.adding s.created))
  | adds (k e : Nat) (adding : s.call k = .adding e) (unsaved : s.closed = true ∨ ¬ host.hasStore = true) :
      Moves host s (.add k) ((s.insert e).setCall k .done)
  | addsSaving (k e : Nat) (adding : s.call k = .adding e) (saved : ¬ (s.closed = true ∨ ¬ host.hasStore = true)) :
      Moves host s (.add k) ((s.insert e).setCall k (.saving (s.entry e)))
  | saveSchedule (k : Nat) (saved : Bool) (ps : PersistedSchedule) (saving : s.call k = .saving ps) :
      Moves host s (.saveSchedule k saved) (s.setCall k (if saved then .done else .reporting))
  | persistenceError (k : Nat) (reporting : s.call k = .reporting) :
      Moves host s (.persistenceError k) (s.setCall k .done)
  | unknown (k : Nat) (id : GoString) (idle : s.call k = .idle) (absent : s.schedules id = none) :
      Moves host s (.unschedule k id) (s.setCall k .done)
  | unschedules (k : Nat) (id : GoString) (e : Nat) (idle : s.call k = .idle) (listed : s.schedules id = some e) :
      Moves host s (.unschedule k id)
        ({ s with schedules := update s.schedules id none, timer := update s.timer e false }.setCall k
          (if host.hasStore then .deleting id else .done))
  | deleteSchedule (k : Nat) (id : GoString) (deleting : s.call k = .deleting id) :
      Moves host s (.deleteSchedule k) (s.setCall k .done)
  | timerFires (k e : Nat) (idle : s.fire k = .idle) (pending : s.timer e = true) :
      Moves host s (.timerFires k e) ({ s with timer := update s.timer e false }.setFire k (.begun e))
  | admits (k e : Nat) (begun : s.fire k = .begun e) (opened : s.closed = false) (listed : s.current e = true) :
      Moves host s (.fireAdmit k) (s.setFire k (.admitted e))
  | dismisses (k e : Nat) (begun : s.fire k = .begun e) (why : s.closed = true ∨ s.current e = false) :
      Moves host s (.fireAdmit k) (s.setFire k .done)
  | drains (k e : Nat) (admitted : s.fire k = .admitted e) : Moves host s (.fireDraining k true) (s.setFire k .done)
  | goesOn (k e : Nat) (admitted : s.fire k = .admitted e) :
      Moves host s (.fireDraining k false) (s.setFire k (.claiming e))
  | loses (k e : Nat) (time : FireTime) (claiming : s.fire k = .claiming e) (stored : host.hasStore = true) :
      Moves host s (.fireClaim k time .lost) (s.setFire k .done)
  | wins (k e : Nat) (time : FireTime) (result : ClaimResult) (claiming : s.fire k = .claiming e)
      (won : ¬ (host.hasStore = true ∧ result = .lost)) :
      Moves host s (.fireClaim k time result) (s.setFire k (.publishing e))
  | firePublish (k e : Nat) (publishing : s.fire k = .publishing e) :
      Moves host s (.firePublish k) (s.setFire k (.published e))
  | finishClosed (k e : Nat) (now : Int) (published : s.fire k = .published e) (closed : s.closed = true) :
      Moves host s (.fireFinish k now) (s.setFire k .done)
  | finishOneTime (k e : Nat) (now : Int) (published : s.fire k = .published e) (opened : s.closed = false)
      (oneTime : (s.entry e).oneTime = true) :
      Moves host s (.fireFinish k now)
        ({ s with schedules := update s.schedules (s.entry e).id none }.setFire k
          (if host.hasStore then .deleting (s.entry e).id else .done))
  | rearms (k e : Nat) (now : Int) (published : s.fire k = .published e) (opened : s.closed = false)
      (recurring : (s.entry e).oneTime = false) (listed : s.current e = true) :
      Moves host s (.fireFinish k now)
        ({ s with entry := update s.entry e ((s.entry e).rearmed now) }.setFire k (.rearming e ((s.entry e).rearmed now)))
  | replaced (k e : Nat) (now : Int) (published : s.fire k = .published e) (opened : s.closed = false)
      (recurring : (s.entry e).oneTime = false) (unlisted : s.current e = false) :
      Moves host s (.fireFinish k now) (s.setFire k .done)
  | timerReset (k e : Nat) (snapshot : PersistedSchedule) (rearming : s.fire k = .rearming e snapshot) :
      Moves host s (.timerReset k)
        ({ s with timer := update s.timer e true }.setFire k (if host.hasStore then .saving snapshot else .done))
  | fireSave (k : Nat) (saved : Bool) (ps : PersistedSchedule) (saving : s.fire k = .saving ps) :
      Moves host s (.fireSave k saved) (s.setFire k (if saved then .done else .reporting))
  | fireDelete (k : Nat) (id : GoString) (deleting : s.fire k = .deleting id) :
      Moves host s (.fireDelete k) (s.setFire k .done)
  | fireReport (k : Nat) (reporting : s.fire k = .reporting) : Moves host s (.fireReport k) (s.setFire k .done)
  | restoreLoad (now : Int) (loaded : List PersistedSchedule) (idle : s.restore = .idle) (stored : host.hasStore = true) :
      Moves host s (.restoreLoad now loaded) { s with restore := .looping now loaded }
  | restoreEnd (now : Int) (looping : s.restore = .looping now []) : Moves host s .restoreNext { s with restore := .idle }
  | misses (now : Int) (ps : PersistedSchedule) (rest : List PersistedSchedule)
      (looping : s.restore = .looping now (ps :: rest)) (missed : ps.nextFire < now) :
      Moves host s .restoreNext { s with restore := .catchingUp now ps rest }
  | restores (now : Int) (ps : PersistedSchedule) (rest : List PersistedSchedule)
      (looping : s.restore = .looping now (ps :: rest)) (ahead : ¬ ps.nextFire < now) :
      Moves host s .restoreNext { s.afterFunc ps with restore := .adding now s.created rest }
  | restorePublish (now : Int) (ps : PersistedSchedule) (rest : List PersistedSchedule)
      (catching : s.restore = .catchingUp now ps rest) :
      Moves host s .restorePublish { s with restore := .caughtUp now ps rest }
  | drops (now : Int) (ps : PersistedSchedule) (rest : List PersistedSchedule)
      (caughtUp : s.restore = .caughtUp now ps rest) (oneTime : ps.oneTime = true) :
      Moves host s .restoreWrite { s with restore := .looping now rest }
  | restoresNext (now : Int) (ps : PersistedSchedule) (rest : List PersistedSchedule)
      (caughtUp : s.restore = .caughtUp now ps rest) (recurring : ps.oneTime = false) :
      Moves host s .restoreWrite { s.afterFunc (ps.rearmed now) with restore := .adding now s.created rest }
  | restoreAdd (now : Int) (e : Nat) (rest : List PersistedSchedule) (adding : s.restore = .adding now e rest) :
      Moves host s .restoreAdd { s.insert e with restore := .looping now rest }
  | close : Moves host s .close s.close

theorem schedule_moves (host : Host) (s next : Scheduler) (k : Nat) (cfg : ScheduleConfig) (uuid : GoString)
    (creation : Nat) (now : Int) (taken : s.schedule host k cfg uuid creation now = some next) :
    Moves host s (.schedule k cfg uuid creation now) next := by
  unfold schedule at taken
  split at taken
  next idle =>
    split at taken
    next why =>
      cases taken
      exact .refused k cfg uuid creation now idle (why.imp id .inl)
    next fine =>
      simp only [not_or, Bool.not_eq_true] at fine
      split at taken <;> cases taken
      next unparsed => exact .refused k cfg uuid creation now idle (.inr (.inr unparsed))
      next duration oneTime parsed =>
        exact .schedules k cfg uuid creation now duration oneTime idle fine.1 fine.2 parsed
  next => cases taken

theorem claim_moves (host : Host) (s next : Scheduler) (k : Nat) (time : FireTime) (result : ClaimResult)
    (taken : s.fireClaim host k time result = some next) : Moves host s (.fireClaim k time result) next := by
  unfold fireClaim at taken
  split at taken <;> cases taken
  next e claiming =>
    by_cases lost : host.hasStore = true ∧ result = .lost
    · rw [if_pos lost]
      obtain ⟨stored, rfl⟩ := lost
      exact .loses k e time claiming stored
    · rw [if_neg lost]
      exact .wins k e time result claiming lost

theorem finish_moves (host : Host) (s next : Scheduler) (k : Nat) (now : Int)
    (taken : s.fireFinish host k now = some next) : Moves host s (.fireFinish k now) next := by
  unfold fireFinish at taken
  split at taken
  next e published =>
    split at taken
    next closed =>
      cases taken
      exact .finishClosed k e now published closed
    next opened =>
      rw [Bool.not_eq_true] at opened
      split at taken
      next oneTime =>
        cases taken
        exact .finishOneTime k e now published opened oneTime
      next recurring =>
        rw [Bool.not_eq_true] at recurring
        split at taken <;> cases taken
        next listed => exact .rearms k e now published opened recurring listed
        next unlisted => exact .replaced k e now published opened recurring (by simpa using unlisted)
  next => cases taken

theorem moves_of_step (host : Host) (s next : Scheduler) (action : Action) (taken : step host s action = some next) :
    Moves host s action next := by
  cases action with
  | schedule k cfg uuid creation now => exact schedule_moves host s next k cfg uuid creation now taken
  | add k =>
      simp only [step, add] at taken
      repeat' split at taken
      all_goals cases taken
      next e adding unsaved => exact .adds k e adding unsaved
      next e adding saved => exact .addsSaving k e adding saved
  | saveSchedule k saved =>
      simp only [step, Scheduler.saveSchedule] at taken
      split at taken <;> cases taken
      next ps saving => exact .saveSchedule k saved ps saving
  | persistenceError k =>
      simp only [step, Scheduler.persistenceError] at taken
      split at taken <;> cases taken
      next reporting => exact .persistenceError k reporting
  | unschedule k id =>
      simp only [step, unschedule] at taken
      split at taken
      next idle =>
        split at taken <;> cases taken
        next absent => exact .unknown k id idle absent
        next e listed => exact .unschedules k id e idle listed
      next => cases taken
  | deleteSchedule k =>
      simp only [step, Scheduler.deleteSchedule] at taken
      split at taken <;> cases taken
      next id deleting => exact .deleteSchedule k id deleting
  | timerFires k e =>
      simp only [step, Scheduler.timerFires] at taken
      repeat' split at taken
      all_goals cases taken
      next idle pending => exact .timerFires k e idle pending
  | fireAdmit k =>
      simp only [step, fireAdmit] at taken
      split at taken <;> cases taken
      next e begun =>
        cases admitted : (!s.closed && s.current e) with
        | true =>
            simp only [Bool.and_eq_true, Bool.not_eq_true'] at admitted
            exact .admits k e begun admitted.1 admitted.2
        | false =>
            simp only [Bool.and_eq_false_iff, Bool.not_eq_false'] at admitted
            exact .dismisses k e begun admitted
  | fireDraining k isDraining =>
      simp only [step, fireDraining] at taken
      split at taken <;> cases taken
      next e admitted =>
        cases isDraining with
        | true => exact .drains k e admitted
        | false => exact .goesOn k e admitted
  | fireClaim k time result => exact claim_moves host s next k time result taken
  | firePublish k =>
      simp only [step, Scheduler.firePublish] at taken
      split at taken <;> cases taken
      next e publishing => exact .firePublish k e publishing
  | fireFinish k now => exact finish_moves host s next k now taken
  | timerReset k =>
      simp only [step, Scheduler.timerReset] at taken
      split at taken <;> cases taken
      next e snapshot rearming => exact .timerReset k e snapshot rearming
  | fireSave k saved =>
      simp only [step, Scheduler.fireSave] at taken
      split at taken <;> cases taken
      next ps saving => exact .fireSave k saved ps saving
  | fireDelete k =>
      simp only [step, Scheduler.fireDelete] at taken
      split at taken <;> cases taken
      next id deleting => exact .fireDelete k id deleting
  | fireReport k =>
      simp only [step, Scheduler.fireReport] at taken
      split at taken <;> cases taken
      next reporting => exact .fireReport k reporting
  | restoreLoad now loaded =>
      simp only [step, Scheduler.restoreLoad] at taken
      repeat' split at taken
      all_goals cases taken
      next idle stored => exact .restoreLoad now loaded idle stored
  | restoreNext =>
      simp only [step, restoreNext] at taken
      repeat' split at taken
      all_goals cases taken
      next now looping => exact .restoreEnd now looping
      next now ps rest looping missed => exact .misses now ps rest looping missed
      next now ps rest looping ahead => exact .restores now ps rest looping ahead
  | restorePublish =>
      simp only [step, Scheduler.restorePublish] at taken
      split at taken <;> cases taken
      next now ps rest catching => exact .restorePublish now ps rest catching
  | restoreWrite =>
      simp only [step, restoreWrite] at taken
      repeat' split at taken
      all_goals cases taken
      next now ps rest caughtUp oneTime => exact .drops now ps rest caughtUp oneTime
      next now ps rest caughtUp recurring => exact .restoresNext now ps rest caughtUp (by simpa using recurring)
  | restoreAdd =>
      simp only [step, Scheduler.restoreAdd] at taken
      split at taken <;> cases taken
      next now e rest adding => exact .restoreAdd now e rest adding
  | close =>
      cases taken
      exact .close

end Scheduler

end Brainkit.Schedules
