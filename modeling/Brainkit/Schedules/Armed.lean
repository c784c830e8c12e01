import Brainkit.Library.Arming
import Brainkit.Library.Transition
import Brainkit.Schedules.SchedulerMoves

set_option autoImplicit false

namespace Brainkit.Schedules

open Function (update)
open Transition GoText

def FirePc.entry : FirePc → Option Nat
  | .begun e | .admitted e | .claiming e | .publishing e | .published e | .rearming e _ => some e
  | .idle | .deleting _ | .saving _ | .reporting | .done => none

namespace Scheduler

def arming (s : Scheduler) : Arming GoString where
  closed := s.closed
  registry := s.schedules
  key e := (s.entry e).id
  timer := s.timer
  created := s.created
  active k := (s.fire k).entry

def Armed (s : Scheduler) : Prop := s.arming.Armed

-- The timer of an entry that add is about to insert has not run off and fired in vain; and no fire finds the kit
-- draining, or its claim lost, while its entry is listed.
def StaysArmed (host : Host) (s : Scheduler) : Action → Prop
  | .add k => ∀ e, s.call k = .adding e → s.closed = false →
      s.timer e = true ∨ ∃ j, (s.fire j).entry = some e
  | .restoreAdd => ∀ now e rest, s.restore = .adding now e rest → s.closed = false →
      s.timer e = true ∨ ∃ j, (s.fire j).entry = some e
  | .fireDraining k isDraining => isDraining = true → ∀ e, s.fire k = .admitted e → s.closed = false → s.current e = false
  | .fireClaim k _ result => host.hasStore = true → result = .lost →
      ∀ e, s.fire k = .claiming e → s.closed = false → s.current e = false
  | _ => True

theorem arming_set_fire (s : Scheduler) (k : Nat) (pc : FirePc) :
    (s.setFire k pc).arming = { s.arming with active := update s.arming.active k pc.entry } := by
  have active : (fun j => (update s.fire k pc j).entry) = update (fun j => (s.fire j).entry) k pc.entry := by
    funext j
    by_cases same : j = k
    · simp [same]
    · simp [Function.update_of_ne same]
  simp only [arming, setFire, active]

theorem arming_keeps_fire (s : Scheduler) (k : Nat) (pc : FirePc) (same : pc.entry = (s.fire k).entry) :
    (s.setFire k pc).arming = s.arming := by
  rw [arming_set_fire, same]
  exact congrArg (fun active => { s.arming with active := active }) (Function.update_eq_self k s.arming.active)

theorem arming_after_func (s : Scheduler) (ps : PersistedSchedule) :
    (s.afterFunc ps).arming = { s.arming with
      key := update s.arming.key s.created ps.id
      timer := update s.timer s.created true
      created := s.created + 1 } := by
  have key : (fun e => (update s.entry s.created ps e).id) = update (fun e => (s.entry e).id) s.created ps.id := by
    funext e
    by_cases same : e = s.created
    · simp [same]
    · simp [Function.update_of_ne same]
  simp only [arming, afterFunc, key]

theorem arming_rearmed (s : Scheduler) (e : Nat) (now : Int) :
    ({ s with entry := update s.entry e ((s.entry e).rearmed now) } : Scheduler).arming = s.arming := by
  have key : (fun other => (update s.entry e ((s.entry e).rearmed now) other).id) = fun other => (s.entry other).id := by
    funext other
    by_cases same : other = e
    · simp [same, PersistedSchedule.rearmed]
    · simp [Function.update_of_ne same]
  simp only [arming, key]

-- One step of the scheduler as a step of its registry, with the exact meaning of the condition there.
inductive ArmMoves (host : Host) (s : Scheduler) (action : Action) (next : Scheduler) : Prop where
  | quiet (free : StaysArmed host s action) (quiet : Arming.Quiet s.arming next.arming)
  | inserts (e : Nat) (known : e < s.created) (opened : s.closed = false) (same : next.arming = s.arming.inserted e)
      (exactly : StaysArmed host s action ↔ s.timer e = true ∨ ∃ j, (s.fire j).entry = some e)
  | ends (k e : Nat) (acting : (s.fire k).entry = some e) (same : next.arming = s.arming.ended k)
      (exactly : StaysArmed host s action ↔ (s.closed = false → s.schedules (s.entry e).id ≠ some e))

structure Known (s : Scheduler) : Prop where
  calls : ∀ k e, s.call k = .adding e → e < s.created
  restore : ∀ now e rest, s.restore = .adding now e rest → e < s.created

theorem insert_moves (host : Host) (s next : Scheduler) (action : Action) (e : Nat) (known : e < s.created)
    (same : next.arming = (s.insert e).arming)
    (exactly : StaysArmed host s action ↔ (s.closed = false → s.timer e = true ∨ ∃ j, (s.fire j).entry = some e)) :
    ArmMoves host s action next := by
  unfold insert at same
  split at same
  next closed =>
    refine .quiet (exactly.mpr fun opened => absurd (closed.symm.trans opened) (by decide)) ?_
    rw [same]
    exact .stops e closed
  next unclosed =>
    have opened : s.closed = false := by simpa using unclosed
    exact .inserts e known opened same (exactly.trans ⟨fun held => held opened, fun held _ => held⟩)

theorem end_moves (host : Host) (s : Scheduler) (action : Action) (k e : Nat) (pc : FirePc)
    (acting : (s.fire k).entry = some e) (ended : pc.entry = none)
    (exactly : StaysArmed host s action ↔ (s.closed = false → s.schedules (s.entry e).id ≠ some e)) :
    ArmMoves host s action (s.setFire k pc) := by
  refine .ends k e acting ?_ exactly
  rw [arming_set_fire, ended]
  rfl

theorem keep_moves (host : Host) (s : Scheduler) (action : Action) (k : Nat) (pc : FirePc)
    (free : StaysArmed host s action) (same : pc.entry = (s.fire k).entry) : ArmMoves host s action (s.setFire k pc) := by
  refine .quiet free ?_
  rw [arming_keeps_fire s k pc same]
  exact .stays

theorem not_current_iff (s : Scheduler) (e : Nat) : s.current e = false ↔ s.schedules (s.entry e).id ≠ some e := by
  simp [current]

theorem call_moves (host : Host) (s next : Scheduler) (action : Action) (free : StaysArmed host s action)
    (same : next.arming = s.arming) : ArmMoves host s action next :=
  .quiet free (same ▸ .stays)

theorem create_moves (host : Host) (s next : Scheduler) (action : Action) (ps : PersistedSchedule)
    (free : StaysArmed host s action) (same : next.arming = (s.afterFunc ps).arming) : ArmMoves host s action next := by
  refine .quiet free ?_
  rw [same, arming_after_func]
  exact .creates ps.id

theorem add_exactly (host : Host) (s : Scheduler) (k e : Nat) (adding : s.call k = .adding e) :
    StaysArmed host s (.add k) ↔ (s.closed = false → s.timer e = true ∨ ∃ j, (s.fire j).entry = some e) := by
  simp only [StaysArmed, adding, CallPc.adding.injEq, forall_eq']

theorem restore_add_exactly (host : Host) (s : Scheduler) (now : Int) (e : Nat) (rest : List PersistedSchedule)
    (adding : s.restore = .adding now e rest) :
    StaysArmed host s .restoreAdd ↔ (s.closed = false → s.timer e = true ∨ ∃ j, (s.fire j).entry = some e) := by
  simp only [StaysArmed, adding, RestorePc.adding.injEq, and_imp]
  exact ⟨fun held => held now e rest rfl rfl rfl, by rintro held _ _ _ rfl rfl rfl; exact held⟩

theorem idle_end_moves (host : Host) (s : Scheduler) (action : Action) (k e : Nat) (acting : (s.fire k).entry = some e)
    (free : StaysArmed host s action) (why : s.closed = true ∨ s.current e = false) :
    ArmMoves host s action (s.setFire k .done) := by
  refine end_moves host s action k e .done acting rfl (iff_of_true free fun opened => ?_)
  rcases why with closed | gone
  · exact absurd (closed.symm.trans opened) (by decide)
  · exact (not_current_iff s e).mp gone

theorem one_time_moves (host : Host) (s : Scheduler) (action : Action) (k e : Nat) (pc : FirePc)
    (acting : (s.fire k).entry = some e) (ended : pc.entry = none) (free : StaysArmed host s action) :
    ArmMoves host s action ({ s with schedules := update s.schedules (s.entry e).id none }.setFire k pc) := by
  refine .quiet free ?_
  rw [arming_set_fire, ended]
  exact .unlists k e acting

theorem reset_moves (host : Host) (s : Scheduler) (action : Action) (k e : Nat) (pc : FirePc)
    (acting : (s.fire k).entry = some e) (ended : pc.entry = none) (free : StaysArmed host s action) :
    ArmMoves host s action ({ s with timer := update s.timer e true }.setFire k pc) := by
  refine .quiet free ?_
  rw [arming_set_fire, ended]
  exact .rearms k e acting

theorem arm_moves (host : Host) (s next : Scheduler) (action : Action) (known : Known s) (valid : s.arming.Valid)
    (taken : step host s action = some next) : ArmMoves host s action next := by
  cases moves_of_step host s next action taken with
  | schedules | restores | restoresNext => exact create_moves host s _ _ _ trivial rfl
  | adds k e adding | addsSaving k e adding =>
      exact insert_moves host s _ _ e (known.calls k e adding) rfl (add_exactly host s k e adding)
  | restoreAdd now e rest adding =>
      exact insert_moves host s _ _ e (known.restore now e rest adding) rfl (restore_add_exactly host s now e rest adding)
  | unschedules k id e idle listed =>
      obtain rfl : (s.entry e).id = id := valid.keyed id e listed
      exact .quiet trivial (.removes e listed)
  | timerFires k e idle pending =>
      refine .quiet trivial ?_
      rw [arming_set_fire]
      exact .fires k e pending (by simp only [arming, idle, FirePc.entry])
  | admits k e begun => exact keep_moves host s _ k _ trivial (by rw [begun]; rfl)
  | dismisses k e begun why => exact idle_end_moves host s _ k e (by rw [begun]; rfl) trivial why
  | drains k e admitted =>
      refine end_moves host s _ k e _ (by rw [admitted]; rfl) rfl ?_
      simp only [StaysArmed, admitted, FirePc.admitted.injEq, forall_eq', true_imp_iff, not_current_iff]
  | goesOn k e admitted => exact keep_moves host s _ k _ (fun no => nomatch no) (by rw [admitted]; rfl)
  | loses k e time claiming stored =>
      refine end_moves host s _ k e _ (by rw [claiming]; rfl) rfl ?_
      simp only [StaysArmed, claiming, FirePc.claiming.injEq, forall_eq', stored, true_imp_iff, not_current_iff]
  | wins k e time result claiming won =>
      exact keep_moves host s _ k _ (fun stored gone => absurd ⟨stored, gone⟩ won) (by rw [claiming]; rfl)
  | firePublish k e publishing => exact keep_moves host s _ k _ trivial (by rw [publishing]; rfl)
  | finishClosed k e now published closed =>
      exact idle_end_moves host s _ k e (by rw [published]; rfl) trivial (.inl closed)
  | finishOneTime k e now published =>
      exact one_time_moves host s _ k e _ (by rw [published]; rfl) (by split <;> rfl) trivial
  | rearms k e now published =>
      refine .quiet trivial ?_
      rw [arming_keeps_fire _ k _ (by simp [published, FirePc.entry]), arming_rearmed]
      exact .stays
  | replaced k e now published opened recurring unlisted =>
      exact idle_end_moves host s _ k e (by rw [published]; rfl) trivial (.inr unlisted)
  | timerReset k e snapshot rearming =>
      exact reset_moves host s _ k e _ (by rw [rearming]; rfl) (by split <;> rfl) trivial
  | fireSave k saved ps saving => exact keep_moves host s _ k _ trivial (by cases saved <;> simp [saving, FirePc.entry])
  | fireDelete k id deleting => exact keep_moves host s _ k _ trivial (by rw [deleting]; rfl)
  | fireReport k reporting => exact keep_moves host s _ k _ trivial (by rw [reporting]; rfl)
  | close => exact .quiet trivial .closes
  | _ => exact call_moves host s _ _ trivial rfl

structure Makes (s next : Scheduler) : Prop where
  created : s.created ≤ next.created
  calls : ∀ k e, next.call k = .adding e → s.call k = .adding e ∨ e < next.created
  restore : ∀ now e rest, next.restore = .adding now e rest → s.restore = .adding now e rest ∨ e < next.created

theorem makes_set_call (s : Scheduler) (k : Nat) (pc : CallPc) (safe : ∀ e, pc = .adding e → e < s.created) :
    Makes s (s.setCall k pc) := by
  refine ⟨Nat.le_refl _, fun j e adding => ?_, fun _ _ _ adding => .inl adding⟩
  by_cases same : j = k
  · simp only [setCall, same, Function.update_self] at adding
    exact .inr (safe e adding)
  · simp only [setCall, Function.update_of_ne same] at adding
    exact .inl adding

theorem makes_trans (s middle next : Scheduler) (first : Makes s middle) (second : Makes middle next) : Makes s next := by
  refine ⟨Nat.le_trans first.created second.created, fun k e adding => ?_, fun now e rest adding => ?_⟩
  · rcases second.calls k e adding with before | made
    · exact (first.calls k e before).imp id fun made => Nat.lt_of_lt_of_le made second.created
    · exact .inr made
  · rcases second.restore now e rest adding with before | made
    · exact (first.restore now e rest before).imp id fun made => Nat.lt_of_lt_of_le made second.created
    · exact .inr made

theorem makes_same (s next : Scheduler) (created : next.created = s.created) (call : next.call = s.call)
    (restore : next.restore = s.restore) : Makes s next :=
  ⟨Nat.le_of_eq created.symm, fun _ _ adding => .inl (call ▸ adding), fun _ _ _ adding => .inl (restore ▸ adding)⟩

theorem makes_restore (s next : Scheduler) (created : s.created ≤ next.created) (call : next.call = s.call)
    (safe : ∀ now e rest, next.restore = .adding now e rest → e < next.created) : Makes s next :=
  ⟨created, fun _ _ adding => .inl (call ▸ adding), fun now e rest adding => .inr (safe now e rest adding)⟩

theorem makes_insert (s : Scheduler) (e : Nat) : Makes s (s.insert e) := by
  unfold insert
  split <;> exact makes_same s _ rfl rfl rfl

theorem makes_after_func (s : Scheduler) (ps : PersistedSchedule) : Makes s (s.afterFunc ps) :=
  ⟨Nat.le_succ _, fun _ _ adding => .inl adding, fun _ _ _ adding => .inl adding⟩

theorem makes_step (host : Host) (s next : Scheduler) (action : Action) (taken : step host s action = some next) :
    Makes s next := by
  cases moves_of_step host s next action taken with
  | schedules k =>
      refine makes_trans s _ _ (makes_after_func s _) (makes_set_call _ k _ fun e adding => ?_)
      obtain rfl := CallPc.adding.inj adding
      exact Nat.lt_succ_self _
  | adds k e adding | addsSaving k e adding =>
      exact makes_trans s _ _ (makes_insert s e) (makes_set_call _ k _ fun _ no => nomatch no)
  | unschedules k id e =>
      refine makes_trans s _ _ ?_ (makes_set_call _ k _ fun _ no => by split at no <;> cases no)
      exact makes_same s _ rfl rfl rfl
  | saveSchedule k saved => exact makes_set_call s k _ fun _ no => by cases saved <;> cases no
  | refused k | persistenceError k | unknown k | deleteSchedule k => exact makes_set_call s k _ fun _ no => nomatch no
  | restores | restoresNext =>
      refine makes_restore s _ (Nat.le_succ _) rfl fun now e rest adding => ?_
      obtain ⟨-, rfl, -⟩ := RestorePc.adding.inj adding
      exact Nat.lt_succ_self _
  | restoreAdd now e =>
      exact makes_trans s _ _ (makes_insert s e) (makes_restore _ _ (Nat.le_refl _) rfl fun _ _ _ no => nomatch no)
  | restoreLoad | restoreEnd | misses | restorePublish | drops =>
      exact makes_restore s _ (Nat.le_refl _) rfl fun _ _ _ no => nomatch no
  | _ => exact makes_same s _ rfl rfl rfl

theorem known_step (host : Host) (s next : Scheduler) (action : Action) (known : Known s)
    (taken : step host s action = some next) : Known next := by
  have makes := makes_step host s next action taken
  refine ⟨fun k e adding => ?_, fun now e rest adding => ?_⟩
  · exact (makes.calls k e adding).elim (fun before => Nat.lt_of_lt_of_le (known.calls k e before) makes.created) id
  · exact (makes.restore now e rest adding).elim
      (fun before => Nat.lt_of_lt_of_le (known.restore now e rest before) makes.created) id

structure Sound (s : Scheduler) : Prop where
  known : Known s
  valid : s.arming.Valid

theorem start_sound : Sound start := by
  refine ⟨⟨fun _ _ no => (nomatch no), fun _ _ _ no => nomatch no⟩, ⟨?_, ?_, ?_, ?_⟩⟩
  · exact fun _ _ no => nomatch no
  · exact fun _ _ no => nomatch no
  · exact fun _ no => nomatch no
  · exact fun _ _ no => nomatch no

theorem sound_step (host : Host) (s : Scheduler) (action : Action) (next : Scheduler) (sound : Sound s)
    (taken : step host s action = some next) : Sound next := by
  refine ⟨known_step host s next action sound.known taken, Arming.step_valid s.arming next.arming sound.valid ?_⟩
  cases arm_moves host s next action sound.known sound.valid taken with
  | quiet free quiet => exact .quiet _ quiet
  | inserts e known opened same => exact same ▸ .inserts e known opened
  | ends k e acting same => exact same ▸ .ends k e acting

theorem armed_step_iff (host : Host) (s : Scheduler) (action : Action) (next : Scheduler) (sound : Sound s)
    (armed : Armed s) (taken : step host s action = some next) : Armed next ↔ StaysArmed host s action := by
  cases arm_moves host s next action sound.known sound.valid taken with
  | quiet free quiet => exact iff_of_true (Arming.quiet_armed _ _ sound.valid armed quiet) free
  | inserts e known opened same exactly =>
      rw [Armed, same, exactly]
      exact Arming.inserted_armed_iff s.arming e armed opened
  | ends k e acting same exactly =>
      rw [Armed, same, exactly]
      exact Arming.ended_armed_iff s.arming k e sound.valid armed acting

theorem scheduler_armed_iff (host : Host) (path : List Action) (s : Scheduler)
    (reached : run (step host) start path = some s) :
    Always (step host) Armed start path ↔ Along (step host) (StaysArmed host) start path :=
  always_iff_along (sound_step host) (armed_step_iff host) start_sound (fun _ _ _ no => nomatch no) reached

def secondHost : Host where
  isCommand _ := false
  parseDuration text := if text = lit "1s" then some 1000000000 else none
  hasStore := true

def everySecond : ScheduleConfig := ⟨lit "tick", lit "every 1s", lit "clock", lit "null"⟩

def firstFire : List Action :=
  [.schedule 0 everySecond [] 0 0, .add 0, .saveSchedule 0 true, .timerFires 0 0, .fireAdmit 0, .fireDraining 0 false]

theorem first_fire_armed : Always (step secondHost) Armed start firstFire := by
  apply (scheduler_armed_iff secondHost firstFire _ rfl).mpr
  apply along_cons trivial rfl
  refine along_cons (fun e adding _ => ?_) rfl ?_
  · obtain rfl : 0 = e := CallPc.adding.inj adding
    exact .inl rfl
  apply along_cons trivial rfl
  apply along_cons trivial rfl
  apply along_cons trivial rfl
  exact along_cons (fun no => nomatch no) rfl trivial

-- Another replica has claimed the fire: this one returns before it arms the timer, and its entry stays listed for
-- good.
theorem lost_claim_leaves_dead_entry : ∃ s, Reachable (step secondHost) start s ∧ s.closed = false ∧
    s.schedules (lit "tick") = some 0 ∧ s.timer 0 = false ∧ (∀ k, (s.fire k).entry ≠ some 0) ∧ ¬ Armed s := by
  refine ⟨_, ⟨firstFire ++ [.fireClaim 0 ⟨0, 0⟩ .lost], rfl⟩, rfl, rfl, rfl, ?_⟩
  have idle : ∀ k, ((update (update (update (update (fun _ => FirePc.idle) 0 (.begun 0)) 0 (.admitted 0)) 0 (.claiming 0))
      0 .done) k).entry ≠ some 0 := by
    intro k
    cases k <;> simp [FirePc.entry]
  refine ⟨idle, fun armed => ?_⟩
  rcases armed rfl (lit "tick") 0 rfl with pending | ⟨k, acts⟩
  · cases pending
  · exact idle k acts

theorem fires_alone (host : Host) (path : List Action) (s : Scheduler) (reached : run (step host) start path = some s)
    (k e : Nat) (acts : (s.fire k).entry = some e) :
    s.timer e = false ∧ (∀ j, (s.fire j).entry = some e → j = k) ∧ e < s.created := by
  have sound : Sound s := run_invariant (sound_step host) start_sound reached
  obtain ⟨known, off, only⟩ := sound.valid.acting k e acts
  exact ⟨off, only, known⟩

theorem first_fire_alone : ∃ s, run (step secondHost) start firstFire = some s ∧
    ∀ j, (s.fire j).entry = some 0 → j = 0 :=
  ⟨_, rfl, (fires_alone secondHost firstFire _ rfl 0 0 rfl).2.1⟩

end Scheduler

end Brainkit.Schedules
