import Brainkit.Library.Tickets
import Brainkit.Schedules.Replicas

set_option autoImplicit false

namespace Brainkit.Schedules

open Function (update)
open Transition GoText

namespace Scheduler

inductive FireMoves (host : Host) (s : Scheduler) (action : Action) (next : Scheduler) (k : Nat) : Prop where
  | stays (same : next.fire k = s.fire k)
  | claims (e : Nat) (time : FireTime) (result : ClaimResult) (called : action = .fireClaim k time result)
      (claiming : s.fire k = .claiming e) (won : ¬ (host.hasStore = true ∧ result = .lost))
      (publishing : next.fire k = .publishing e)
  | publishes (e : Nat) (called : action = .firePublish k) (publishing : s.fire k = .publishing e)
      (published : next.fire k = .published e)
  | elsewhere (before : ∀ e, s.fire k ≠ .publishing e) (after : ∀ e, next.fire k ≠ .publishing e)

theorem fire_moves_set (host : Host) (s t : Scheduler) (action : Action) (j k : Nat) (pc : FirePc)
    (same : t.fire = s.fire) (before : ∀ e, s.fire j ≠ .publishing e) (after : ∀ e, pc ≠ .publishing e) :
    FireMoves host s action (t.setFire j pc) k := by
  by_cases here : k = j
  · subst here
    exact .elsewhere before (by simpa [setFire] using after)
  · exact .stays (by simp [setFire, Function.update_of_ne here, same])

theorem fire_moves (host : Host) (s next : Scheduler) (action : Action) (k : Nat)
    (taken : step host s action = some next) : FireMoves host s action next k := by
  cases moves_of_step host s next action taken with
  | timerFires j e idle => exact fire_moves_set host s _ _ j k _ rfl (by simp [idle]) (by simp)
  | admits j e begun | dismisses j e begun => exact fire_moves_set host s s _ j k _ rfl (by simp [begun]) (by simp)
  | drains j e admitted | goesOn j e admitted =>
      exact fire_moves_set host s s _ j k _ rfl (by simp [admitted]) (by simp)
  | loses j e time claiming => exact fire_moves_set host s s _ j k _ rfl (by simp [claiming]) (by simp)
  | wins j e time result claiming won =>
      by_cases here : k = j
      · subst here
        exact .claims e time result rfl claiming won (by simp [setFire])
      · exact .stays (by simp [setFire, Function.update_of_ne here])
  | firePublish j e publishing =>
      by_cases here : k = j
      · subst here
        exact .publishes e rfl publishing (by simp [setFire])
      · exact .stays (by simp [setFire, Function.update_of_ne here])
  | finishClosed j e now published | replaced j e now published =>
      exact fire_moves_set host s s _ j k _ rfl (by simp [published]) (by simp)
  | finishOneTime j e now published =>
      exact fire_moves_set host s _ _ j k _ rfl (by simp [published]) (by intro e; split <;> simp)
  | rearms j e now published => exact fire_moves_set host s _ _ j k _ rfl (by simp [published]) (by simp)
  | timerReset j e snapshot rearming =>
      exact fire_moves_set host s _ _ j k _ rfl (by simp [rearming]) (by intro e; split <;> simp)
  | fireSave j saved ps saving =>
      exact fire_moves_set host s s _ j k _ rfl (by simp [saving]) (by intro e; split <;> simp)
  | fireDelete j id deleting => exact fire_moves_set host s s _ j k _ rfl (by simp [deleting]) (by simp)
  | fireReport j reporting => exact fire_moves_set host s s _ j k _ rfl (by simp [reporting]) (by simp)
  | adds | addsSaving | restoreAdd =>
      refine .stays ?_
      simp only [setCall, insert]
      split <;> rfl
  | _ => exact .stays rfl

theorem after_func_entry (s : Scheduler) (ps : PersistedSchedule) (e : Nat) :
    (s.afterFunc ps).entry e = s.entry e ∨ e = s.created := by
  by_cases fresh : e = s.created
  · exact .inr fresh
  · exact .inl (Function.update_of_ne fresh _ _)

theorem entry_moves (host : Host) (s next : Scheduler) (action : Action) (e : Nat)
    (taken : step host s action = some next) :
    next.entry e = s.entry e ∨ e = s.created ∨ ∃ k, s.fire k = .published e := by
  cases moves_of_step host s next action taken with
  | schedules | restores | restoresNext => exact (after_func_entry s _ e).imp id .inl
  | rearms j other now published =>
      by_cases same : e = other
      · exact .inr (.inr ⟨j, same ▸ published⟩)
      · exact .inl (Function.update_of_ne same _ _)
  | adds | addsSaving | restoreAdd =>
      refine .inl ?_
      simp only [setCall, insert]
      split <;> rfl
  | _ => exact .inl rfl

inductive RestoreMoves (s : Scheduler) (action : Action) (next : Scheduler) : Prop where
  | stays (same : next.restore = s.restore)
  | misses (now : Int) (ps : PersistedSchedule) (rest : List PersistedSchedule) (called : action = .restoreNext)
      (looping : s.restore = .looping now (ps :: rest)) (missed : ps.nextFire < now)
      (catching : next.restore = .catchingUp now ps rest)
  | publishes (called : action = .restorePublish) (after : ∀ now ps rest, next.restore ≠ .catchingUp now ps rest)
  | elsewhere (before : ∀ now ps rest, s.restore ≠ .catchingUp now ps rest)
      (after : ∀ now ps rest, next.restore ≠ .catchingUp now ps rest)

theorem restore_moves (host : Host) (s next : Scheduler) (action : Action) (taken : step host s action = some next) :
    RestoreMoves s action next := by
  cases moves_of_step host s next action taken with
  | restoreLoad now loaded idle => exact .elsewhere (by simp [idle]) (by simp)
  | restoreEnd now looping => exact .elsewhere (by simp [looping]) (by simp)
  | misses now ps rest looping missed => exact .misses now ps rest rfl looping missed rfl
  | restores now ps rest looping => exact .elsewhere (by simp [looping]) (by simp)
  | restorePublish => exact .publishes rfl (by simp)
  | drops now ps rest caughtUp | restoresNext now ps rest caughtUp => exact .elsewhere (by simp [caughtUp]) (by simp)
  | restoreAdd now e rest adding => exact .elsewhere (by simp [adding]) (by simp)
  | adds | addsSaving =>
      refine .stays ?_
      simp only [setCall, insert]
      split <;> rfl
  | _ => exact .stays rfl

end Scheduler

namespace Replicas

inductive Grants (host : Host) (s : Scheduler) : Scheduler.Action → Slot → Occurrence → Prop where
  | claim (k e : Nat) (time : FireTime) (result : ClaimResult) (claiming : s.fire k = .claiming e)
      (won : ¬ (host.hasStore = true ∧ result = .lost)) :
      Grants host s (.fireClaim k time result) (.fire k) (s.entry e).occurrence
  | missed (now : Int) (ps : PersistedSchedule) (rest : List PersistedSchedule)
      (looping : s.restore = .looping now (ps :: rest)) (missed : ps.nextFire < now) :
      Grants host s .restoreNext .catchUp ps.occurrence

inductive OwedMoves (host : Host) (s : Scheduler) (action : Scheduler.Action) (next : Scheduler) (slot : Slot) : Prop where
  | keeps (same : owed next slot = owed s slot)
  | grants (o : Occurrence) (granted : Grants host s action slot o) (owes : owed next slot = some o)
  | clears (gone : owed next slot = none)

theorem owed_fire_some (s : Scheduler) (k : Nat) (o : Occurrence) (owes : owed s (.fire k) = some o) :
    ∃ e, s.fire k = .publishing e ∧ (s.entry e).occurrence = o := by
  simp only [owed] at owes
  split at owes
  next e publishing => exact ⟨e, publishing, Option.some.inj owes⟩
  next => cases owes

theorem owed_fire_none (s : Scheduler) (k : Nat) (other : ∀ e, s.fire k ≠ .publishing e) : owed s (.fire k) = none := by
  cases owes : owed s (.fire k) with
  | none => rfl
  | some o =>
      obtain ⟨e, publishing, -⟩ := owed_fire_some s k o owes
      exact absurd publishing (other e)

theorem owed_catch_up_none (s : Scheduler) (other : ∀ now ps rest, s.restore ≠ .catchingUp now ps rest) :
    owed s .catchUp = none := by
  simp only [owed]

theorem publishing_entry (host : Host) (s next : Scheduler) (action : Scheduler.Action) (k e : Nat)
    (sound : Scheduler.Sound s) (taken : Scheduler.step host s action = some next) (publishing : s.fire k = .publishing e) :
    next.entry e = s.entry e := by
  have acts : s.arming.active k = some e := by simp [Scheduler.arming, publishing, FirePc.entry]
  obtain ⟨known, -, only⟩ := sound.valid.acting k e acts
  rcases Scheduler.entry_moves host s next action e taken with same | fresh | ⟨j, published⟩
  · exact same
  · exact absurd fresh (Nat.ne_of_lt known)
  · obtain rfl := only j (by simp [Scheduler.arming, published, FirePc.entry])
    rw [publishing] at published
    cases published

theorem owed_moves (host : Host) (s next : Scheduler) (action : Scheduler.Action) (slot : Slot)
    (sound : Scheduler.Sound s) (taken : Scheduler.step host s action = some next) : OwedMoves host s action next slot := by
  cases slot with
  | fire k =>
      cases Scheduler.fire_moves host s next action k taken with
      | stays same =>
          refine .keeps ?_
          cases publishing : s.fire k with
          | publishing e =>
              have entry := publishing_entry host s next action k e sound taken publishing
              simp [owed, same, publishing, entry]
          | _ => simp [owed, same, publishing]
      | claims e time result called claiming won publishing =>
          subst called
          have entry : next.entry = s.entry := by
            simp only [Scheduler.step, Scheduler.fireClaim, claiming] at taken
            cases taken
            rfl
          exact .grants _ (.claim k e time result claiming won) (by simp [owed, publishing, entry])
      | publishes e called publishing published => exact .clears (by simp [owed, published])
      | elsewhere before after => exact .clears (owed_fire_none next k after)
  | catchUp =>
      cases Scheduler.restore_moves host s next action taken with
      | stays same => exact .keeps (by simp [owed, same])
      | misses now ps rest called looping missed catching =>
          subst called
          exact .grants _ (.missed now ps rest looping missed) (by simp [owed, catching])
      | publishes called after => exact .clears (owed_catch_up_none next after)
      | elsewhere before after => exact .clears (owed_catch_up_none next after)

theorem publication_clears (host : Host) (s next : Scheduler) (action : Scheduler.Action) (o : Occurrence)
    (taken : Scheduler.step host s action = some next) (published : publication s action = some o) :
    ∃ slot, owed s slot = some o ∧ owed next slot = none := by
  cases action with
  | firePublish k =>
      refine ⟨.fire k, published, ?_⟩
      cases Scheduler.moves_of_step host s next _ taken with
      | firePublish _ e publishing => exact owed_fire_none _ k (by simp [Scheduler.setFire])
  | restorePublish =>
      refine ⟨.catchUp, published, ?_⟩
      cases Scheduler.moves_of_step host s next _ taken with
      | restorePublish now ps rest catching => exact owed_catch_up_none _ (by simp)
  | _ => cases published

theorem grant_attempt (backend : Backend) (host : Host) (c : Replicas) (a : Action) (slot : Slot) (o : Occurrence)
    (stored : host.hasStore = true) (read : reads backend c a = true)
    (granted : Grants host (c.process a.process) a.action slot o) :
    ∃ row, attempt backend (c.process a.process) a.fails a.action = some (o, row) ∧
      ∀ r, row = some r → r ∉ c.scheduleFires := by
  obtain ⟨p, action, fails⟩ := a
  cases granted with
  | claim k e time result claiming won =>
      simp only [reads, claiming, decide_eq_true_eq] at read
      simp only [attempt, claiming]
      cases backend <;> cases fails
      case sqlite.false =>
        refine ⟨_, rfl, ?_⟩
        rintro _ ⟨⟩ taken
        exact won ⟨stored, by simp [read, claimScheduleFire, taken]⟩
      case sqlite.true => exact ⟨none, rfl, fun _ no => nomatch no⟩
      case postgres.false => exact ⟨none, rfl, fun _ no => nomatch no⟩
      case postgres.true => exact absurd ⟨stored, read⟩ won
  | missed now ps rest looping missed =>
      exact ⟨none, by simp [attempt, looping, missed], fun _ no => nomatch no⟩

theorem attempt_stored (backend : Backend) (s : Scheduler) (fails : Bool) (action : Scheduler.Action) (o : Occurrence)
    (row : FireRow) (rows : List FireRow) (asked : attempt backend s fails action = some (o, some row)) :
    row ∈ writeFires backend s fails rows action := by
  cases action with
  | fireClaim k time result =>
      simp only [attempt] at asked
      split at asked
      next e claiming =>
        cases backend <;> cases fails <;> cases asked
        simp only [writeFires, claiming, claimScheduleFire]
        split
        · assumption
        · exact List.mem_cons_self
      next => cases asked
  | restoreNext =>
      simp only [attempt] at asked
      repeat' split at asked
      all_goals cases asked
  | _ => cases asked

theorem write_fires_keeps (backend : Backend) (s : Scheduler) (fails : Bool) (action : Scheduler.Action) (row : FireRow)
    (rows : List FireRow) (present : row ∈ rows) : row ∈ writeFires backend s fails rows action := by
  cases action with
  | fireClaim k time result =>
      simp only [writeFires]
      split
      · cases backend <;> cases fails <;> simp only [claimScheduleFire]
        · split
          · exact present
          · exact List.mem_cons_of_mem _ present
        · exact present
        · exact List.mem_insert_of_mem present
        · exact present
      · exact present
  | _ => exact present

-- Every claim of an occurrence asks for the row of the earlier ones, and an attempt that no row records is the only
-- one on its occurrence. On Postgres no row records a claim.
def ClaimsAgree (backend : Backend) (c : Replicas) (a : Action) : Prop :=
  match attempt backend (c.process a.process) a.fails a.action with
  | none => True
  | some (o, row) => ∀ earlier ∈ c.attempts, earlier.1 = o → row.isSome = true ∧ earlier.2 = row

instance (backend : Backend) (c : Replicas) (a : Action) : Decidable (ClaimsAgree backend c a) := by
  unfold ClaimsAgree
  split <;> infer_instance

def tickets (c : Replicas) : Tickets (Nat × Slot) Occurrence where
  held point := owed (c.process point.1) point.2
  issued o := ∃ row, (o, row) ∈ c.attempts
  spent := c.published

def Recorded (c : Replicas) : Prop := ∀ o row, (o, some row) ∈ c.attempts → row ∈ c.scheduleFires

structure Consistent (c : Replicas) : Prop where
  sound : ∀ p, Scheduler.Sound (c.process p)
  exclusive : c.tickets.Exclusive
  recorded : Recorded c

theorem grant_unattempted (backend : Backend) (host : Host) (c : Replicas) (a : Action) (slot : Slot) (o : Occurrence)
    (recorded : Recorded c) (stored : host.hasStore = true) (agree : ClaimsAgree backend c a)
    (read : reads backend c a = true) (granted : Grants host (c.process a.process) a.action slot o) :
    ∀ row, (o, row) ∉ c.attempts := by
  intro earlier attempted
  obtain ⟨row, asked, fresh⟩ := grant_attempt backend host c a slot o stored read granted
  rw [ClaimsAgree, asked] at agree
  obtain ⟨some_row, rfl⟩ := agree (o, earlier) attempted rfl
  obtain ⟨r, rfl⟩ := Option.isSome_iff_exists.mp some_row
  exact fresh r rfl (recorded o r attempted)

theorem grants_slot (host : Host) (s : Scheduler) (action : Scheduler.Action) (slot other : Slot) (o o' : Occurrence)
    (first : Grants host s action slot o) (second : Grants host s action other o') : other = slot := by
  cases first <;> cases second <;> rfl

theorem step_some (backend : Backend) (host : Host) (c next : Replicas) (a : Action)
    (taken : step backend host c a = some next) : reads backend c a = true ∧
      ∃ s, Scheduler.step host (c.process a.process) a.action = some s ∧
        next.process = update c.process a.process s ∧
        next.scheduleFires = writeFires backend (c.process a.process) a.fails c.scheduleFires a.action ∧
        next.attempts = c.attempts ++ (attempt backend (c.process a.process) a.fails a.action).toList ∧
        next.published = c.published ++ (publication (c.process a.process) a.action).toList := by
  unfold step at taken
  split at taken
  next read =>
    obtain ⟨s, moved, rfl⟩ := Option.map_eq_some_iff.mp taken
    exact ⟨read, s, moved, rfl, rfl, rfl, rfl⟩
  next => cases taken

theorem owed_origin (host : Host) (c : Replicas) (a : Action) (s : Scheduler) (sound : Scheduler.Sound (c.process a.process))
    (taken : Scheduler.step host (c.process a.process) a.action = some s) (p : Nat) (slot : Slot) (o : Occurrence)
    (owes : owed (update c.process a.process s p) slot = some o) :
    owed (c.process p) slot = some o ∨ p = a.process ∧ Grants host (c.process a.process) a.action slot o := by
  by_cases here : p = a.process
  · subst here
    rw [Function.update_self] at owes
    cases owed_moves host _ s a.action slot sound taken with
    | keeps same => exact .inl (same ▸ owes)
    | grants o' granted owes' =>
        obtain rfl := Option.some.inj (owes'.symm.trans owes)
        exact .inr ⟨rfl, granted⟩
    | clears gone =>
        rw [gone] at owes
        cases owes
  · exact .inl (by rwa [Function.update_of_ne here] at owes)

theorem tickets_step (backend : Backend) (host : Host) (c next : Replicas) (a : Action) (consistent : Consistent c)
    (stored : host.hasStore = true) (agree : ClaimsAgree backend c a) (taken : step backend host c a = some next) :
    c.tickets.Step (fun point o => point.1 = a.process ∧ Grants host (c.process a.process) a.action point.2 o)
      (publication (c.process a.process) a.action) next.tickets := by
  obtain ⟨read, s, moved, process, -, attempts, published⟩ := step_some backend host c next a taken
  refine ⟨fun point o owes => ?_, fun point o granted attempted => ?_, fun point o other o' first second => ?_,
    fun point o granted => ?_, fun o attempted => ?_, fun o done => ?_, published⟩
  · simp only [tickets, process] at owes
    exact owed_origin host c a s (consistent.sound a.process) moved point.1 point.2 o owes
  · obtain ⟨row, asked⟩ := attempted
    exact grant_unattempted backend host c a point.2 o consistent.recorded stored agree read granted.2 row asked
  · exact Prod.ext (second.1.trans first.1.symm) (grants_slot host _ a.action point.2 other.2 o o' first.2 second.2)
  · obtain ⟨row, asked, -⟩ := grant_attempt backend host c a point.2 o stored read granted.2
    exact ⟨row, by rw [attempts, asked]; exact List.mem_append_right _ (Option.mem_toList.mpr rfl)⟩
  · obtain ⟨row, before⟩ := attempted
    exact ⟨row, by rw [attempts]; exact List.mem_append_left _ before⟩
  · obtain ⟨slot, owes, gone⟩ := publication_clears host _ s a.action o moved done
    exact ⟨(a.process, slot), owes, by simpa [tickets, process] using gone⟩

theorem recorded_step (backend : Backend) (host : Host) (c next : Replicas) (a : Action) (recorded : Recorded c)
    (taken : step backend host c a = some next) : Recorded next := by
  obtain ⟨-, s, -, -, fires, attempts, -⟩ := step_some backend host c next a taken
  intro o row attempted
  rw [attempts, List.mem_append] at attempted
  rw [fires]
  rcases attempted with before | now
  · exact write_fires_keeps backend _ a.fails a.action row _ (recorded o row before)
  · exact attempt_stored backend _ a.fails a.action o row _ (Option.mem_toList.mp now)

theorem consistent_step (backend : Backend) (host : Host) (stored : host.hasStore = true) (c : Replicas) (a : Action)
    (next : Replicas) (consistent : Consistent c) (agree : ClaimsAgree backend c a)
    (taken : step backend host c a = some next) : Consistent next := by
  refine ⟨fun p => ?_, ?_, recorded_step backend host c next a consistent.recorded taken⟩
  · obtain ⟨-, s, moved, process, -⟩ := step_some backend host c next a taken
    rw [process]
    by_cases here : p = a.process
    · rw [here, Function.update_self]
      exact Scheduler.sound_step host _ a.action s (consistent.sound a.process) moved
    · rw [Function.update_of_ne here]
      exact consistent.sound p
  · exact Tickets.exclusive_step consistent.exclusive (tickets_step backend host c next a consistent stored agree taken)

theorem start_consistent : Consistent start := by
  refine ⟨fun _ => Scheduler.start_sound, Tickets.empty_exclusive _ (fun point => ?_) rfl, fun o row attempted => nomatch attempted⟩
  obtain ⟨p, slot⟩ := point
  cases slot <;> rfl

theorem published_once (backend : Backend) (host : Host) (stored : host.hasStore = true) (path : List Action) (c : Replicas)
    (agree : Along (step backend host) (ClaimsAgree backend) start path)
    (reached : run (step backend host) start path = some c) : c.published.Nodup :=
  (along_invariant (consistent_step backend host stored) start_consistent agree reached).exclusive.once

def ticking (oneTime : Bool) : PersistedSchedule :=
  ⟨lit "tick", 1000000000, lit "clock", lit "null", 1000000000, oneTime, ⟨0, 0⟩⟩

def fires (p : Nat) (time : FireTime) (result : ClaimResult) : List Action :=
  [⟨p, .timerFires 0 0, false⟩, ⟨p, .fireAdmit 0, false⟩, ⟨p, .fireDraining 0 false, false⟩,
    ⟨p, .fireClaim 0 time result, false⟩]

-- One replica makes a schedule and a second one loads it; then the timers of both fire, and each of them asks the
-- store.
def bothFire (first second : FireTime) (result : ClaimResult) : List Action :=
  [⟨0, .schedule 0 Scheduler.everySecond [] 0 0, false⟩, ⟨0, .add 0, false⟩, ⟨0, .saveSchedule 0 true, false⟩,
    ⟨1, .restoreLoad 0 [ticking false], false⟩, ⟨1, .restoreNext, false⟩, ⟨1, .restoreAdd, false⟩] ++
    fires 0 first .claimed ++ [⟨0, .firePublish 0, false⟩] ++ fires 1 second result

theorem same_bucket_publishes_once : ∃ c, run (step .sqlite Scheduler.secondHost) start
    (bothFire ⟨1000000000, 0⟩ ⟨1080000000, 0⟩ .lost) = some c ∧ c.published = [⟨0, 0⟩] ∧ c.published.Nodup := by
  refine ⟨_, rfl, rfl, published_once .sqlite Scheduler.secondHost rfl
    (bothFire ⟨1000000000, 0⟩ ⟨1080000000, 0⟩ .lost) _ ?_ rfl⟩
  decide

-- Postgres grants the same fire to both replicas; SQLite does so when a bucket ends between the two instants, here
-- one nanosecond apart.
theorem occurrence_published_twice :
    (∃ c, run (step .postgres Scheduler.secondHost) start
      (bothFire ⟨1000000000, 0⟩ ⟨1000000000, 0⟩ .claimed ++ [⟨1, .firePublish 0, false⟩]) = some c ∧
        ¬ c.published.Nodup) ∧
    ∃ c, run (step .sqlite Scheduler.secondHost) start
      (bothFire ⟨1099999999, 0⟩ ⟨1100000000, 0⟩ .claimed ++ [⟨1, .firePublish 0, false⟩]) = some c ∧
        ¬ c.published.Nodup :=
  ⟨⟨_, rfl, by decide⟩, ⟨_, rfl, by decide⟩⟩

end Replicas

end Brainkit.Schedules
