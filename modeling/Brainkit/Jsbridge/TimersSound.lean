import Brainkit.Jsbridge.Timers

set_option autoImplicit false

namespace Brainkit.Jsbridge.Scheduling

open Function (update)
open Transition (run Along)

@[simp] theorem id_inj {k j : Nat} : Key.id k = Key.id j ↔ k = j := by simp only [Key.id, Key.number.injEq, Int.ofNat_inj]

namespace Timers

structure Timeout.Valid (unit : Nat) (s : Timers) (k : Nat) : Prop where
  exact : Exact unit (s.timer k).delay
  unborn : (s.timer k).phase ≠ .unborn ↔ 0 < k ∧ k ≤ s.nextId
  started : (s.timer k).phase ≠ .unborn → (s.timer k).start ≤ s.now
  ready : (s.timer k).phase = .pending → 0 < (s.timer k).delay → s.cleared (.id k) = false → s.cbs (.id k) = some k
  stopped : (s.timer k).phase = .pending → s.ownCleared k = true → s.cleared (.id k) = true
  marked : s.cleared (.id k) = true → s.Active k ∧ s.ownCleared k = true
  fresh : (s.timer k).phase = .pending → (s.timer k).calls = []
  once : (s.timer k).calls.length ≤ 1
  elapsed : ∀ c ∈ (s.timer k).calls, (s.timer k).start + (s.timer k).delay ≤ c.time ∧ c.afterClear = false
  called : (s.timer k).phase = .running → (s.timer k).calls ≠ []
  undisturbed : (s.timer k).phase = .ended → (s.timer k).owner = .timeout → (s.timer k).cleared = false →
    (s.timer k).calls ≠ []
  running : (s.timer k).phase = .running ↔ s.running = some ⟨k, k⟩
  ticks : ∀ j, (s.timer k).phase = .pending → (s.timer k).owner = .tick j → (s.interval j).cleared = false →
    s.intervals (.id j) = some k
  born : ∀ j, (s.timer k).phase ≠ .unborn → (s.timer k).owner = .tick j → 0 < j ∧ j ≤ s.intervalId

structure Valid (unit : Nat) (s : Timers) : Prop where
  timeout : ∀ k, Timeout.Valid unit s k
  small : s.nextId < 2 ^ 31
  job : ∀ job, s.running = some job → job = ⟨job.timer, job.timer⟩
  marks : ∀ key, s.cleared key = true → ∃ k, key = .id k
  callbacks : ∀ key m, s.cbs key = some m → key = .id m ∧ s.Active m ∧ 0 < (s.timer m).delay
  entries : ∀ key k, s.intervals key = some k → ∃ j, key = .id j ∧ 0 < j ∧ j ≤ s.intervalId ∧
    (s.timer k).owner = .tick j ∧ s.Active k ∧ (s.interval j).cleared = false
  ticking : ∀ j, 0 < j → j ≤ s.intervalId → (s.interval j).cleared = false → s.intervals (.id j) ≠ none
  exact : ∀ j, Exact unit (s.interval j).delay

structure Steady (unit : Nat) (s : Timers) : Prop where
  valid : s.Valid unit
  current : ∀ k j, (s.timer k).phase = .running → (s.timer k).owner = .tick j → (s.interval j).cleared = false →
    s.intervals (.id j) = some k

variable {unit : Nat} {s t : Timers} {k j : Nat}

theorem toInt32_small {n : Int} (low : 0 ≤ n) (high : n < 2 ^ 31) : toInt32 n = n := by
  unfold toInt32
  rw [Int.bmod_def]
  have whole : n % ((2 ^ 32 : Nat) : Int) = n := Int.emod_eq_of_lt low (by omega)
  rw [whole]
  split <;> omega

theorem due_exact (exact : Exact unit (s.timer k).delay) (goSide : s.goSide k = true) :
    s.due unit k = (s.timer k).start + (s.timer k).delay := by
  have later : 0 < (s.timer k).delay := of_decide_eq_true goSide
  rcases exact with early | ⟨whole, high⟩
  · omega
  · rw [due, toInt32_small (Int.ediv_nonneg (Int.le_of_lt later) (Int.natCast_nonneg unit)) high, Int.ediv_mul_cancel whole]

structure Kept (s t : Timers) (k : Nat) : Prop where
  timer : t.timer k = s.timer k
  mark : t.cleared (.id k) = s.cleared (.id k)
  callback : t.cbs (.id k) = s.cbs (.id k)
  running : t.running = some ⟨k, k⟩ ↔ s.running = some ⟨k, k⟩
  number : k ≤ t.nextId ↔ k ≤ s.nextId
  now : s.now ≤ t.now
  intervalId : s.intervalId ≤ t.intervalId
  interval : ∀ j, (s.timer k).owner = .tick j → (s.timer k).phase = .pending →
    (t.interval j).cleared = (s.interval j).cleared ∧ t.intervals (.id j) = s.intervals (.id j)
  clears : ∀ j, (s.timer k).owner = .tick j → s.Active k → (s.interval j).cleared = true → (t.interval j).cleared = true

theorem Kept.active (kept : Kept s t k) : t.Active k ↔ s.Active k := by
  unfold Active
  rw [kept.timer]

theorem Kept.pending_ownCleared (kept : Kept s t k) (pending : (s.timer k).phase = .pending) :
    t.ownCleared k = s.ownCleared k := by
  unfold Timers.ownCleared
  rw [kept.timer]
  split
  next => rfl
  next j owner => exact (kept.interval j owner pending).1

theorem Kept.ownCleared (kept : Kept s t k) (active : s.Active k) (own : s.ownCleared k = true) : t.ownCleared k = true := by
  unfold Timers.ownCleared at own ⊢
  rw [kept.timer]
  split at own
  next owner => simpa [owner] using own
  next j owner => simpa [owner] using kept.clears j owner active own

theorem Kept.valid (kept : Kept s t k) (valid : Timeout.Valid unit s k) : Timeout.Valid unit t k where
  exact := kept.timer ▸ valid.exact
  unborn := by rw [kept.timer, kept.number]; exact valid.unborn
  started := by
    rw [kept.timer]
    exact fun born => Int.le_trans (valid.started born) kept.now
  ready := by rw [kept.timer, kept.mark, kept.callback]; exact valid.ready
  stopped := by
    rw [kept.timer, kept.mark]
    intro pending stopped
    exact valid.stopped pending (kept.pending_ownCleared pending ▸ stopped)
  marked := by
    rw [kept.mark, kept.active]
    intro mark
    obtain ⟨active, own⟩ := valid.marked mark
    exact ⟨active, kept.ownCleared active own⟩
  fresh := by rw [kept.timer]; exact valid.fresh
  once := by rw [kept.timer]; exact valid.once
  elapsed := by rw [kept.timer]; exact valid.elapsed
  called := by rw [kept.timer]; exact valid.called
  undisturbed := by rw [kept.timer]; exact valid.undisturbed
  running := by rw [kept.timer, kept.running]; exact valid.running
  ticks := by
    rw [kept.timer]
    intro j pending owner live
    obtain ⟨same, entry⟩ := kept.interval j owner pending
    rw [entry]
    exact valid.ticks j pending owner (same ▸ live)
  born := by
    rw [kept.timer]
    intro j born owner
    exact ⟨(valid.born j born owner).1, Nat.le_trans (valid.born j born owner).2 kept.intervalId⟩

theorem Valid.next_unborn (valid : s.Valid unit) : (s.timer (s.nextId + 1)).phase = .unborn := by
  by_contra born
  have within := (valid.timeout (s.nextId + 1)).unborn.mp born
  omega

theorem Valid.unmarked (valid : s.Valid unit) (idle : ¬ s.Active k) : s.cleared (.id k) = false := by
  by_contra mark
  exact idle ((valid.timeout k).marked (Bool.not_eq_false _ ▸ mark)).1

theorem Valid.next_idle (valid : s.Valid unit) : ¬ s.Active (s.nextId + 1) := by
  unfold Active
  rw [valid.next_unborn]
  simp

theorem fresh_timeout {owner : Owner} {delay : Int} (timer : t.timer k = ⟨owner, t.now, delay, .pending, false, []⟩)
    (exact : Exact unit delay) (number : 0 < k ∧ k ≤ t.nextId) (mark : t.cleared (.id k) = false)
    (callback : 0 < delay → t.cbs (.id k) = some k) (idle : t.running ≠ some ⟨k, k⟩)
    (live : ∀ j, owner = .tick j → (t.interval j).cleared = false ∧ t.intervals (.id j) = some k ∧
      0 < j ∧ j ≤ t.intervalId) :
    Timeout.Valid unit t k where
  exact := by rwa [timer]
  unborn := by simp [timer, number]
  started := by simp [timer]
  ready := by simpa [timer] using fun later _ => callback later
  stopped := by
    intro _ own
    unfold ownCleared at own
    rw [timer] at own
    cases owner with
    | timeout => cases own
    | tick j => exact absurd ((live j rfl).1.symm.trans own) Bool.false_ne_true
  marked := by simp [mark]
  fresh := by simp [timer]
  once := by simp [timer]
  elapsed := by simp [timer]
  called := by simp [timer]
  undisturbed := by simp [timer]
  running := by simp [timer, idle]
  ticks := by
    rw [timer]
    exact fun j _ tick _ => (live j tick).2.1
  born := by
    rw [timer]
    exact fun j _ tick => (live j tick).2.2

theorem elapse_valid (valid : s.Valid unit) (time : Nat) : ({ s with now := s.now + time } : Timers).Valid unit where
  timeout := by
    intro k
    have kept : Kept s { s with now := s.now + time } k :=
      ⟨rfl, rfl, rfl, Iff.rfl, Iff.rfl, Int.le_add_of_nonneg_right (Int.natCast_nonneg time), Nat.le_refl _,
        fun _ _ _ => ⟨rfl, rfl⟩, fun _ _ _ own => own⟩
    exact kept.valid (valid.timeout k)
  small := valid.small
  job := valid.job
  marks := valid.marks
  callbacks := valid.callbacks
  entries := valid.entries
  ticking := valid.ticking
  exact := valid.exact

theorem setTimeout_other {owner : Owner} {delay : Int} (other : k ≠ s.nextId + 1) : Kept s (s.setTimeout owner delay) k := by
  refine ⟨Function.update_of_ne other .., rfl, ?_, Iff.rfl, ?_, Int.le_refl _, Nat.le_refl _, fun _ _ _ => ⟨rfl, rfl⟩,
    fun _ _ _ own => own⟩
  · unfold setTimeout
    split
    next => exact Function.update_of_ne (by simpa using other) ..
    next => rfl
  · show k ≤ s.nextId + 1 ↔ k ≤ s.nextId
    omega

theorem setTimeout_timer {owner : Owner} {delay : Int} :
    (s.setTimeout owner delay).timer (s.nextId + 1) = ⟨owner, s.now, delay, .pending, false, []⟩ :=
  Function.update_self ..

theorem setTimeout_callback {owner : Owner} {delay : Int} (later : 0 < delay) :
    (s.setTimeout owner delay).cbs (.id (s.nextId + 1)) = some (s.nextId + 1) := by
  simp [setTimeout, later]

theorem setTimeout_callbacks {owner : Owner} {delay : Int} (valid : s.Valid unit) {key : Key} {m : Nat}
    (found : (s.setTimeout owner delay).cbs key = some m) :
    key = .id m ∧ (s.setTimeout owner delay).Active m ∧ 0 < ((s.setTimeout owner delay).timer m).delay := by
  by_cases new : 0 < delay ∧ key = .id (s.nextId + 1)
  · obtain ⟨later, rfl⟩ := new
    obtain rfl := Option.some.inj ((setTimeout_callback later).symm.trans found)
    rw [Active, setTimeout_timer]
    exact ⟨rfl, .inl rfl, later⟩
  · have old : s.cbs key = some m := by
      unfold setTimeout at found
      split at found
      next later =>
        have apart : key ≠ .id (s.nextId + 1) := fun same => new ⟨later, same⟩
        simpa [Function.update_of_ne apart] using found
      next => exact found
    obtain ⟨same, active, later⟩ := valid.callbacks key m old
    have kept : Kept s (s.setTimeout owner delay) m := setTimeout_other fun new => valid.next_idle (new ▸ active)
    exact ⟨same, kept.active.mpr active, by rwa [kept.timer]⟩

theorem setTimeout_valid {delay : Int} (valid : s.Valid unit) (exact : Exact unit delay) (small : s.nextId + 1 < 2 ^ 31) :
    (s.setTimeout .timeout delay).Valid unit where
  timeout := by
    intro k
    by_cases new : k = s.nextId + 1
    · subst new
      refine fresh_timeout setTimeout_timer exact ⟨Nat.succ_pos _, Nat.le_refl _⟩ (valid.unmarked valid.next_idle)
        setTimeout_callback (fun running => ?_) nofun
      exact valid.next_idle (.inr ((valid.timeout _).running.mpr running))
    · exact (setTimeout_other new).valid (valid.timeout k)
  small := small
  job := valid.job
  marks := valid.marks
  callbacks := fun _ _ found => setTimeout_callbacks valid found
  entries := by
    intro key k found
    obtain ⟨j, same, low, high, owner, active, live⟩ := valid.entries key k found
    have kept : Kept s (s.setTimeout .timeout delay) k := setTimeout_other fun new => valid.next_idle (new ▸ active)
    exact ⟨j, same, low, high, by rwa [kept.timer], kept.active.mpr active, live⟩
  ticking := valid.ticking
  exact := valid.exact

theorem Valid.no_ticks (valid : s.Valid unit) (new : s.intervalId < j) (born : (s.timer k).phase ≠ .unborn) :
    (s.timer k).owner ≠ .tick j := by
  intro owner
  have within := ((valid.timeout k).born j born owner).2
  omega

theorem active_born (active : s.Active k) : (s.timer k).phase ≠ .unborn := by
  rcases active with pending | running
  · simp [pending]
  · simp [running]

theorem setInterval_other {delay : Int} (valid : s.Valid unit) (other : k ≠ s.nextId + 1) :
    Kept s (s.setInterval delay) k := by
  have kept : Kept s (s.setTimeout (.tick (s.intervalId + 1)) delay) k := setTimeout_other other
  have older : ∀ j, (s.timer k).owner = .tick j → s.Active k → j ≠ s.intervalId + 1 := by
    rintro j owner active rfl
    exact valid.no_ticks (Nat.lt_succ_self _) (active_born active) owner
  have interval : ∀ j, j ≠ s.intervalId + 1 → (s.setInterval delay).interval j = s.interval j :=
    fun j apart => Function.update_of_ne apart ..
  refine ⟨kept.timer, kept.mark, kept.callback, kept.running, kept.number, kept.now, Nat.le_succ _, ?_, ?_⟩
  · intro j owner pending
    have apart := older j owner (.inl pending)
    exact ⟨by rw [interval j apart], Function.update_of_ne (by simpa using apart) ..⟩
  · intro j owner active own
    rwa [interval j (older j owner active)]

theorem setInterval_valid {delay : Int} (valid : s.Valid unit) (exact : Exact unit delay)
    (small : s.nextId + 1 < 2 ^ 31) : (s.setInterval delay).Valid unit where
  timeout := by
    intro k
    by_cases new : k = s.nextId + 1
    · subst new
      have callback : 0 < delay → (s.setTimeout (.tick (s.intervalId + 1)) delay).cbs (.id (s.nextId + 1)) =
          some (s.nextId + 1) := setTimeout_callback
      refine fresh_timeout setTimeout_timer exact ⟨Nat.succ_pos _, Nat.le_refl _⟩ (valid.unmarked valid.next_idle)
        callback (fun running => ?_) ?_
      · exact valid.next_idle (.inr ((valid.timeout _).running.mpr running))
      · intro j same
        obtain rfl := Owner.tick.inj same
        simp [setInterval]
    · exact (setInterval_other valid new).valid (valid.timeout k)
  small := small
  job := valid.job
  marks := valid.marks
  callbacks := fun _ _ found => setTimeout_callbacks valid found
  entries := by
    intro key k found
    by_cases new : key = .id (s.intervalId + 1)
    · subst new
      obtain rfl : s.nextId + 1 = k := by simpa [setInterval] using found
      have timer : (s.setInterval delay).timer (s.nextId + 1) =
          ⟨.tick (s.intervalId + 1), s.now, delay, .pending, false, []⟩ := setTimeout_timer
      refine ⟨s.intervalId + 1, rfl, Nat.succ_pos _, Nat.le_refl _, by rw [timer], .inl (by rw [timer]), ?_⟩
      simp [setInterval]
    · have old : s.intervals key = some k := by simpa [setInterval, Function.update_of_ne new] using found
      obtain ⟨j, same, low, high, owner, active, live⟩ := valid.entries key k old
      have kept : Kept s (s.setInterval delay) k := setInterval_other valid fun new => valid.next_idle (new ▸ active)
      refine ⟨j, same, low, Nat.le_succ_of_le high, by rwa [kept.timer], kept.active.mpr active, ?_⟩
      have apart : j ≠ s.intervalId + 1 := by omega
      simpa [setInterval, Function.update_of_ne apart] using live
  ticking := by
    intro j low high live
    by_cases new : j = s.intervalId + 1
    · subst new
      simp [setInterval]
    · have high : j ≤ s.intervalId + 1 := high
      have apart : Key.id j ≠ .id (s.intervalId + 1) := by simpa using new
      have live : (update s.interval (s.intervalId + 1) ⟨delay, false⟩ j).cleared = false := live
      rw [Function.update_of_ne new] at live
      simpa [setInterval, Function.update_of_ne apart] using valid.ticking j low (by omega) live
  exact := by
    intro j
    show Exact unit (update s.interval _ _ j).delay
    by_cases new : j = s.intervalId + 1
    · simpa [new] using exact
    · rw [Function.update_of_ne new]
      exact valid.exact j

theorem clearKey_other (other : k ≠ j) : Kept s (s.clearKey (.id j)) k :=
  ⟨rfl, Function.update_of_ne (by simpa using other) .., Function.update_of_ne (by simpa using other) .., Iff.rfl, Iff.rfl,
    Int.le_refl _, Nat.le_refl _, fun _ _ _ => ⟨rfl, rfl⟩, fun _ _ _ own => own⟩

theorem clearKey_callbacks (valid : s.Valid unit) {key : Key} {m : Nat} (found : (s.clearKey (.id j)).cbs key = some m) :
    m ≠ j ∧ s.cbs key = some m := by
  have found : update s.cbs (.id j) none key = some m := found
  by_cases here : key = .id j
  · simp [here] at found
  · rw [Function.update_of_ne here] at found
    exact ⟨fun same => here (same ▸ (valid.callbacks key m found).1), found⟩

theorem marked_timeout (valid : Timeout.Valid unit s k) (timer : (t.timer k).calls = (s.timer k).calls ∧
      (t.timer k).phase = (s.timer k).phase ∧ (t.timer k).start = (s.timer k).start ∧ (t.timer k).delay = (s.timer k).delay ∧
      (t.timer k).owner = (s.timer k).owner) (active : s.Active k) (mark : t.cleared (.id k) = true)
    (own : t.ownCleared k = true) (now : t.now = s.now) (number : t.nextId = s.nextId)
    (running : t.running = s.running) (intervalId : t.intervalId = s.intervalId) : Timeout.Valid unit t k := by
  obtain ⟨calls, phase, start, delay, owner⟩ := timer
  have activeNext : t.Active k := by
    unfold Active
    rwa [phase]
  refine ⟨by rw [delay]; exact valid.exact, by rw [phase, number]; exact valid.unborn,
    by rw [phase, start, now]; exact valid.started, fun _ _ unmarked => absurd (mark.symm.trans unmarked) Bool.false_ne_true.symm,
    fun _ _ => mark, fun _ => ⟨activeNext, own⟩, by rw [phase, calls]; exact valid.fresh, by rw [calls]; exact valid.once,
    by rw [calls, start, delay]; exact valid.elapsed, by rw [phase, calls]; exact valid.called, ?_,
    by rw [phase, running]; exact valid.running, ?_, by rw [phase, owner, intervalId]; exact valid.born⟩
  · intro ended
    rw [phase] at ended
    rcases active with pending | running
    · cases pending.symm.trans ended
    · cases running.symm.trans ended
  · intro j _ tick live
    unfold ownCleared at own
    rw [tick] at own
    exact absurd (live.symm.trans own) Bool.false_ne_true

theorem clearTimeout_valid (valid : s.Valid unit) (owner : (s.timer k).owner = .timeout) (active : s.Active k) :
    (s.clearTimeout (.timeout k)).Valid unit := by
  have other : ∀ m, m ≠ k → Kept s (s.clearTimeout (.timeout k)) m := by
    intro m apart
    have kept := clearKey_other (s := s) apart
    exact ⟨Function.update_of_ne apart .., kept.mark, kept.callback, Iff.rfl, Iff.rfl, Int.le_refl _, Nat.le_refl _,
      fun _ _ _ => ⟨rfl, rfl⟩, fun _ _ _ own => own⟩
  have timer : (s.clearTimeout (.timeout k)).timer k = { s.timer k with cleared := true } := Function.update_self ..
  have activeIff : ∀ m, s.Active m → (s.clearTimeout (.timeout k)).Active m := by
    intro m active
    by_cases same : m = k
    · subst same
      unfold Active
      rwa [timer]
    · exact (other m same).active.mpr active
  refine ⟨?_, valid.small, valid.job, ?_, ?_, ?_, valid.ticking, valid.exact⟩
  · intro m
    by_cases same : m = k
    · subst same
      have own : (s.clearTimeout (.timeout m)).ownCleared m = true := by
        unfold ownCleared
        rw [timer]
        simp [owner]
      exact marked_timeout (valid.timeout m) (by simp [timer]) active (Function.update_self ..) own rfl rfl rfl rfl
    · exact (other m same).valid (valid.timeout m)
  · intro key mark
    have mark : update s.cleared (.id k) true key = true := mark
    by_cases here : key = .id k
    · exact ⟨k, here⟩
    · rw [Function.update_of_ne here] at mark
      exact valid.marks key mark
  · intro key m found
    obtain ⟨apart, found⟩ := clearKey_callbacks valid found
    obtain ⟨same, active, later⟩ := valid.callbacks key m found
    exact ⟨same, activeIff m active, by rwa [(other m apart).timer]⟩
  · intro key m found
    obtain ⟨j, same, low, high, tick, active, live⟩ := valid.entries key m found
    have apart : m ≠ k := by
      rintro rfl
      cases owner.symm.trans tick
    exact ⟨j, same, low, high, by rwa [(other m apart).timer], activeIff m active, live⟩

theorem markInterval_valid (valid : s.Valid unit) (missing : s.intervals (.id j) = none) :
    (s.markInterval j).Valid unit := by
  have interval : ∀ i, (s.intervals (.id i) = none → (s.interval i).cleared = true) →
      ((s.markInterval j).interval i).cleared = (s.interval i).cleared := by
    intro i gone
    show (update s.interval j _ i).cleared = _
    by_cases same : i = j
    · subst same
      rw [Function.update_self, gone missing]
    · rw [Function.update_of_ne same]
  have kept : ∀ k, Kept s (s.markInterval j) k := by
    intro k
    refine ⟨rfl, rfl, rfl, Iff.rfl, Iff.rfl, Int.le_refl _, Nat.le_refl _, fun i owner pending => ⟨?_, rfl⟩, ?_⟩
    · refine interval i fun gone => ?_
      by_contra live
      have live : (s.interval i).cleared = false := Bool.eq_false_iff.mpr live
      cases gone.symm.trans ((valid.timeout k).ticks i pending owner live)
    · intro i _ _ own
      rwa [interval i fun _ => own]
  refine ⟨fun k => (kept k).valid (valid.timeout k), valid.small, valid.job, valid.marks, ?_, ?_, ?_, ?_⟩
  · intro key m found
    obtain ⟨same, active, later⟩ := valid.callbacks key m found
    exact ⟨same, active, later⟩
  · intro key m found
    obtain ⟨i, same, low, high, owner, active, live⟩ := valid.entries key m found
    refine ⟨i, same, low, high, owner, active, (interval i fun gone => ?_).trans live⟩
    cases gone.symm.trans (same ▸ found)
  · intro i low high live
    have apart : i ≠ j := by
      rintro rfl
      simp [markInterval] at live
    have live : (update s.interval j _ i).cleared = false := live
    rw [Function.update_of_ne apart] at live
    exact valid.ticking i low high live
  · intro i
    show Exact unit (update s.interval j _ i).delay
    by_cases same : i = j
    · subst same
      rw [Function.update_self]
      exact valid.exact i
    · rw [Function.update_of_ne same]
      exact valid.exact i

theorem clearEntry_missing {key : Key} (missing : s.intervals key = none) : s.clearEntry key = s := by
  unfold clearEntry
  rw [missing]

theorem clearEntry_found {key : Key} (found : s.intervals key = some k) :
    s.clearEntry key = { s.clearKey (.id k) with intervals := update s.intervals key none } := by
  unfold clearEntry
  rw [found]

def endInterval (j k : Nat) (s : Timers) : Timers :=
  ({ s.clearKey (.id k) with intervals := update s.intervals (.id j) none } : Timers).markInterval j

theorem clearInterval_found (found : s.intervals (.id j) = some k) :
    s.clearInterval (.interval j) = s.endInterval j k := by
  show (s.clearEntry (.id j)).markInterval j = _
  rw [clearEntry_found found]
  rfl

theorem endInterval_other (valid : s.Valid unit) (found : s.intervals (.id j) = some k)
    (live : (s.interval j).cleared = false) {m : Nat} (apart : m ≠ k) : Kept s (s.endInterval j k) m := by
  have kept := clearKey_other (s := s) apart
  refine ⟨rfl, kept.mark, kept.callback, Iff.rfl, Iff.rfl, Int.le_refl _, Nat.le_refl _, fun i tick pending => ?_, ?_⟩
  · -- No other timer of the interval is pending.
    have other : i ≠ j := by
      rintro rfl
      exact apart (Option.some.inj (((valid.timeout m).ticks i pending tick live).symm.trans found))
    have entry : (s.endInterval j k).intervals (.id i) = s.intervals (.id i) :=
      Function.update_of_ne (by simpa using other) ..
    exact ⟨congrArg Interval.cleared (Function.update_of_ne other ..), entry⟩
  · intro i _ _ own
    show (update s.interval j _ i).cleared = true
    by_cases same : i = j
    · simp [same]
    · rwa [Function.update_of_ne same]

theorem endInterval_valid (valid : s.Valid unit) (found : s.intervals (.id j) = some k) : (s.endInterval j k).Valid unit := by
  obtain ⟨i, same, -, -, owner, active, live⟩ := valid.entries _ _ found
  obtain rfl := id_inj.mp same
  have cleared : ((s.endInterval j k).interval j).cleared = true := by simp [endInterval, markInterval]
  have interval : ∀ i, i ≠ j → (s.endInterval j k).interval i = s.interval i := fun i apart => Function.update_of_ne apart ..
  refine ⟨?_, valid.small, valid.job, ?_, ?_, ?_, ?_, ?_⟩
  · intro m
    by_cases same : m = k
    · subst same
      have own : (s.endInterval j m).ownCleared m = true := by
        have timer : (s.endInterval j m).timer m = s.timer m := rfl
        unfold ownCleared
        rw [timer, owner]
        exact cleared
      exact marked_timeout (valid.timeout m) ⟨rfl, rfl, rfl, rfl, rfl⟩ active (Function.update_self ..) own rfl rfl rfl rfl
    · exact (endInterval_other valid found live same).valid (valid.timeout m)
  · intro key mark
    have mark : update s.cleared (.id k) true key = true := mark
    by_cases here : key = .id k
    · exact ⟨k, here⟩
    · rw [Function.update_of_ne here] at mark
      exact valid.marks key mark
  · intro key m listed
    obtain ⟨-, listed⟩ := clearKey_callbacks valid listed
    exact valid.callbacks key m listed
  · intro key m listed
    have listed : update s.intervals (.id j) none key = some m := listed
    have here : key ≠ .id j := by
      rintro rfl
      simp at listed
    rw [Function.update_of_ne here] at listed
    obtain ⟨i, same, low, high, tick, active, live⟩ := valid.entries key m listed
    have apart : i ≠ j := fun same' => here (same' ▸ same)
    exact ⟨i, same, low, high, tick, active, by rwa [interval i apart]⟩
  · intro i low high live
    have apart : i ≠ j := by
      rintro rfl
      exact absurd (live.symm.trans cleared) Bool.false_ne_true
    rw [interval i apart] at live
    have entry : (s.endInterval j k).intervals (.id i) = s.intervals (.id i) :=
      Function.update_of_ne (by simpa using apart) ..
    rw [entry]
    exact valid.ticking i low high live
  · intro i
    by_cases same : i = j
    · subst same
      have delay : ((s.endInterval i k).interval i).delay = (s.interval i).delay := by simp [endInterval, markInterval, clearKey]
      rw [delay]
      exact valid.exact i
    · rw [interval i same]
      exact valid.exact i

theorem over_timeout (valid : Timeout.Valid unit s k) (timer : t.timer k = { s.timer k with phase := .ended })
    (born : (s.timer k).phase ≠ .unborn) (mark : t.cleared (.id k) = false) (idle : t.running = none)
    (called : (s.timer k).owner = .timeout → (s.timer k).cleared = false → (s.timer k).calls ≠ []) (now : t.now = s.now)
    (number : t.nextId = s.nextId) (intervalId : t.intervalId = s.intervalId) : Timeout.Valid unit t k where
  exact := by rw [timer]; exact valid.exact
  unborn := by
    rw [timer, number]
    exact ⟨fun _ => valid.unborn.mp born, nofun⟩
  started := by
    rw [timer, now]
    exact fun _ => valid.started born
  ready := by simp [timer]
  stopped := by simp [timer]
  marked := by simp [mark]
  fresh := by simp [timer]
  once := by rw [timer]; exact valid.once
  elapsed := by rw [timer]; exact valid.elapsed
  called := by simp [timer]
  undisturbed := by
    rw [timer]
    exact fun _ => called
  running := by simp [timer, idle]
  ticks := by simp [timer]
  born := by
    rw [timer, intervalId]
    exact fun j _ => valid.born j born

theorem ended_valid (valid : s.Valid unit) (active : s.Active k) (idle : s.running = none ∨ s.running = some ⟨k, k⟩)
    (called : (s.timer k).owner = .timeout → (s.timer k).cleared = false → (s.timer k).calls ≠ [])
    (unlisted : ∀ key, s.intervals key ≠ some k) {cleared : Key → Bool} {cbs : Key → Option Nat}
    (marks : cleared = update s.cleared (.id k) false)
    (callbacks : ∀ key m, cbs key = some m ↔ m ≠ k ∧ s.cbs key = some m) :
    ({ s.setPhase k .ended with cleared := cleared, cbs := cbs, running := none } : Timers).Valid unit := by
  have timer : (s.setPhase k .ended).timer k = { s.timer k with phase := .ended } := Function.update_self ..
  have other : ∀ m, m ≠ k → Kept s { s.setPhase k .ended with cleared := cleared, cbs := cbs, running := none } m := by
    intro m apart
    refine ⟨Function.update_of_ne apart .., ?_, ?_, ?_, Iff.rfl, Int.le_refl _, Nat.le_refl _, fun _ _ _ => ⟨rfl, rfl⟩,
      fun _ _ _ own => own⟩
    · exact marks ▸ Function.update_of_ne (by simpa using apart) ..
    · refine Option.ext fun n => (callbacks (.id m) n).trans ⟨And.right, fun found => ⟨?_, found⟩⟩
      rintro rfl
      exact apart (id_inj.mp (valid.callbacks _ _ found).1)
    · rcases idle with none | mine
      · simp [none]
      · simp [mine, Ne.symm apart]
  have born := active_born active
  refine ⟨?_, valid.small, nofun, ?_, ?_, ?_, valid.ticking, valid.exact⟩
  · intro m
    by_cases same : m = k
    · subst same
      exact over_timeout (valid.timeout m) timer born (marks ▸ Function.update_self ..) rfl called rfl rfl rfl
    · exact (other m same).valid (valid.timeout m)
  · intro key mark
    have mark : update s.cleared (.id k) false key = true := marks ▸ mark
    by_cases here : key = .id k
    · exact ⟨k, here⟩
    · rw [Function.update_of_ne here] at mark
      exact valid.marks key mark
  · intro key m found
    obtain ⟨apart, found⟩ := (callbacks key m).mp found
    obtain ⟨same, active, later⟩ := valid.callbacks key m found
    exact ⟨same, (other m apart).active.mpr active, by rwa [(other m apart).timer]⟩
  · intro key m found
    obtain ⟨j, same, low, high, tick, active, live⟩ := valid.entries key m found
    have apart : m ≠ k := fun same => unlisted key (same ▸ found)
    exact ⟨j, same, low, high, by rwa [(other m apart).timer], (other m apart).active.mpr active, live⟩

theorem goSide_callbacks (valid : s.Valid unit) {key : Key} {m : Nat} :
    update s.cbs (.id k) none key = some m ↔ m ≠ k ∧ s.cbs key = some m := by
  by_cases here : key = .id k
  · subst here
    rw [Function.update_self]
    refine ⟨nofun, fun ⟨apart, found⟩ => absurd (id_inj.mp (valid.callbacks _ _ found).1).symm apart⟩
  · rw [Function.update_of_ne here]
    refine ⟨fun found => ⟨?_, found⟩, And.right⟩
    rintro rfl
    exact here (valid.callbacks _ _ found).1

theorem microtask_callbacks (valid : s.Valid unit) (side : s.goSide k = false) {key : Key} {m : Nat} :
    s.cbs key = some m ↔ m ≠ k ∧ s.cbs key = some m := by
  refine ⟨fun found => ⟨?_, found⟩, And.right⟩
  rintro rfl
  have later := (valid.callbacks _ _ found).2.2
  simp [goSide, later] at side

theorem active_small (valid : s.Valid unit) (active : s.Active k) : toInt32 k = k := by
  have number := (valid.timeout k).unborn.mp (active_born active)
  have small := valid.small
  exact toInt32_small (Int.natCast_nonneg k) (by omega)

theorem finish_valid (valid : s.Valid unit) (active : s.Active k) (idle : s.running = none ∨ s.running = some ⟨k, k⟩)
    (called : (s.timer k).owner = .timeout → (s.timer k).cleared = false → (s.timer k).calls ≠ [])
    (unlisted : ∀ key, s.intervals key ≠ some k) : (s.finish k (s.goSide k)).Valid unit := by
  have small : Key.number (toInt32 k) = .id k := by rw [active_small valid active]; rfl
  unfold finish
  cases side : s.goSide k with
  | true =>
      simp only [if_true, small]
      exact ended_valid valid active idle called unlisted rfl fun _ _ => goSide_callbacks valid
  | false =>
      simp only [Bool.false_eq_true, if_false]
      exact ended_valid valid active idle called unlisted rfl fun _ _ => microtask_callbacks valid side

theorem throws_valid (valid : s.Valid unit) (running : s.running = some ⟨k, k⟩) (user : (s.timer k).owner = .timeout)
    (side : s.goSide k = false) (unmarked : s.cleared (.id k) = false) :
    ({ s.setPhase k .ended with running := none } : Timers).Valid unit := by
  have phase := (valid.timeout k).running.mpr running
  have same : update s.cleared (.id k) false = s.cleared := by rw [← unmarked, Function.update_eq_self]
  refine ended_valid valid (.inr phase) (.inr running) (fun _ _ => (valid.timeout k).called phase) ?_ same.symm
    fun _ _ => microtask_callbacks valid side
  intro key found
  obtain ⟨j, -, -, -, tick, -⟩ := valid.entries key k found
  cases user.symm.trans tick

theorem call_timer : (s.call k k).timer k =
    { s.timer k with phase := .running, calls := (s.timer k).calls ++ [⟨s.now, s.ownCleared k⟩] } := by
  simp [call, setPhase, ownCleared]

theorem call_valid (valid : s.Valid unit) (pending : (s.timer k).phase = .pending) (idle : s.running = none)
    (uncleared : s.ownCleared k = false) (elapsed : (s.timer k).start + (s.timer k).delay ≤ s.now) :
    (s.call k k).Valid unit := by
  have old := valid.timeout k
  have timer : (s.call k k).timer k = { s.timer k with phase := .running, calls := [⟨s.now, false⟩] } := by
    rw [call_timer, uncleared, old.fresh pending]
    rfl
  have other : ∀ m, m ≠ k → Kept s (s.call k k) m := by
    intro m apart
    refine ⟨?_, rfl, rfl, ?_, Iff.rfl, Int.le_refl _, Nat.le_refl _, fun _ _ _ => ⟨rfl, rfl⟩, fun _ _ _ own => own⟩
    · simp [call, setPhase, Function.update_of_ne apart]
    · simp [call, idle, Ne.symm apart]
  have activeIff : ∀ m, s.Active m → (s.call k k).Active m := by
    intro m active
    by_cases same : m = k
    · subst same
      exact .inr (by rw [timer])
    · exact (other m same).active.mpr active
  have born : (s.timer k).phase ≠ .unborn := by simp [pending]
  refine ⟨?_, valid.small, ?_, valid.marks, ?_, ?_, valid.ticking, valid.exact⟩
  · intro m
    by_cases same : m = k
    · subst same
      refine ⟨by rw [timer]; exact old.exact, by rw [timer]; exact ⟨fun _ => old.unborn.mp born, nofun⟩,
        by rw [timer]; exact fun _ => old.started born, by simp [timer], by simp [timer], ?_, by simp [timer], by simp [timer],
        ?_, by simp [timer], by simp [timer], ⟨fun _ => rfl, fun _ => by rw [timer]⟩, by simp [timer],
        by rw [timer]; exact fun j _ => old.born j born⟩
      · intro mark
        exact absurd (uncleared.symm.trans (old.marked mark).2) Bool.false_ne_true
      · simpa [timer] using elapsed
    · exact (other m same).valid (valid.timeout m)
  · intro job running
    obtain rfl := Option.some.inj running
    rfl
  · intro key m found
    obtain ⟨same, active, later⟩ := valid.callbacks key m found
    refine ⟨same, activeIff m active, ?_⟩
    by_cases here : m = k
    · subst here
      rwa [timer]
    · rwa [(other m here).timer]
  · intro key m found
    obtain ⟨j, same, low, high, tick, active, live⟩ := valid.entries key m found
    refine ⟨j, same, low, high, ?_, activeIff m active, live⟩
    by_cases here : m = k
    · subst here
      rwa [timer]
    · rwa [(other m here).timer]

theorem enter_valid (valid : s.Valid unit) (pending : (s.timer k).phase = .pending) (idle : s.running = none)
    (unmarked : s.cleared (.id k) = false) (elapsed : (s.timer k).start + (s.timer k).delay ≤ s.now) (side : Bool) :
    (s.enter k k side).Valid unit := by
  have old := valid.timeout k
  have uncleared : s.ownCleared k = false := by
    by_contra own
    exact absurd (unmarked.symm.trans (old.stopped pending (by simpa using own))) Bool.false_ne_true
  have called := call_valid valid pending idle uncleared elapsed
  unfold enter
  split
  next => exact called
  next j tick =>
    have live : (s.interval j).cleared = false := by simpa [ownCleared, tick] using uncleared
    rw [if_neg (by simp [old.ticks j pending tick live])]
    exact called

theorem dropped_valid (valid : s.Valid unit) (pending : (s.timer k).phase = .pending) (idle : s.running = none)
    (mark : s.cleared (.id k) = true) : (s.finish k (s.goSide k)).Valid unit := by
  have own := ((valid.timeout k).marked mark).2
  refine finish_valid valid (.inl pending) (.inl idle) ?_ ?_
  · intro user uncleared
    simp [ownCleared, user, uncleared] at own
  · intro key found
    obtain ⟨j, -, -, -, tick, -, live⟩ := valid.entries key k found
    simp [ownCleared, tick, live] at own

theorem comesBack_valid (valid : s.Valid unit) (pending : (s.timer k).phase = .pending) (idle : s.running = none)
    (due : s.goSide k = true → s.due unit k ≤ s.now) : (s.comesBack k).Valid unit := by
  have old := valid.timeout k
  have small : Key.number (toInt32 k) = .id k := by rw [active_small valid (.inl pending)]; rfl
  unfold comesBack
  rw [small]
  cases side : s.goSide k with
  | true =>
      have later : 0 < (s.timer k).delay := of_decide_eq_true side
      rw [if_pos rfl]
      cases mark : s.cleared (.id k) with
      | true =>
          have dropped := dropped_valid valid pending idle mark
          rwa [side] at dropped
      | false =>
          rw [if_neg Bool.false_ne_true, old.ready pending later mark]
          exact enter_valid valid pending idle mark (due_exact old.exact side ▸ due side) true
  | false =>
      have soon : ¬ 0 < (s.timer k).delay := of_decide_eq_false side
      rw [if_neg Bool.false_ne_true]
      cases mark : s.cleared (.id k) with
      | true =>
          have dropped := dropped_valid valid pending idle mark
          rwa [side] at dropped
      | false =>
          have started := old.started (by simp [pending])
          exact enter_valid valid pending idle mark (by omega) false

theorem rearm_valid (valid : s.Valid unit) {i : Nat} (low : 0 < i) (high : i ≤ s.intervalId)
    (live : (s.interval i).cleared = false) (alone : ∀ m, (s.timer m).owner = .tick i → (s.timer m).phase ≠ .pending)
    (small : s.nextId + 1 < 2 ^ 31) :
    ({ s.setTimeout (.tick i) (s.interval i).delay with
      intervals := update s.intervals (.id i) (some (s.nextId + 1)) } : Timers).Valid unit := by
  have other : ∀ m, m ≠ s.nextId + 1 → Kept s { s.setTimeout (.tick i) (s.interval i).delay with
      intervals := update s.intervals (.id i) (some (s.nextId + 1)) } m := by
    intro m apart
    have kept : Kept s (s.setTimeout (.tick i) (s.interval i).delay) m := setTimeout_other apart
    refine ⟨kept.timer, kept.mark, kept.callback, kept.running, kept.number, kept.now, Nat.le_refl _, ?_,
      fun _ _ _ own => own⟩
    intro j owner pending
    have apart : j ≠ i := by
      rintro rfl
      exact alone m owner pending
    exact ⟨rfl, Function.update_of_ne (by simpa using apart) ..⟩
  have timer : (s.setTimeout (.tick i) (s.interval i).delay).timer (s.nextId + 1) =
      ⟨.tick i, s.now, (s.interval i).delay, .pending, false, []⟩ := setTimeout_timer
  refine ⟨?_, small, valid.job, valid.marks, fun _ _ found => setTimeout_callbacks valid found, ?_, ?_, valid.exact⟩
  · intro m
    by_cases new : m = s.nextId + 1
    · subst new
      have callback : 0 < (s.interval i).delay → (s.setTimeout (.tick i) (s.interval i).delay).cbs (.id (s.nextId + 1)) =
          some (s.nextId + 1) := setTimeout_callback
      refine fresh_timeout timer (valid.exact i) ⟨Nat.succ_pos _, Nat.le_refl _⟩ (valid.unmarked valid.next_idle) callback
        (fun running => ?_) ?_
      · exact valid.next_idle (.inr ((valid.timeout _).running.mpr running))
      · intro j same
        obtain rfl := Owner.tick.inj same
        exact ⟨live, Function.update_self .., low, high⟩
    · exact (other m new).valid (valid.timeout m)
  · intro key m found
    have found : update s.intervals (.id i) (some (s.nextId + 1)) key = some m := found
    by_cases here : key = .id i
    · subst here
      obtain rfl : s.nextId + 1 = m := by simpa using found
      exact ⟨i, rfl, low, high, congrArg Timeout.owner timer, .inl (congrArg Timeout.phase timer), live⟩
    · rw [Function.update_of_ne here] at found
      obtain ⟨j, same, low, high, owner, active, live⟩ := valid.entries key m found
      have kept := other m fun new => valid.next_idle (new ▸ active)
      exact ⟨j, same, low, high, by rwa [kept.timer], kept.active.mpr active, live⟩
  · intro j low high live
    show update s.intervals (.id i) (some (s.nextId + 1)) (.id j) ≠ none
    by_cases same : j = i
    · simp [same]
    · rw [Function.update_of_ne (by simpa using same)]
      exact valid.ticking j low high live

theorem returns_valid (steady : s.Steady unit) (running : s.running = some ⟨k, k⟩)
    (small : ∀ i, (s.timer k).owner = .tick i → s.intervals (.id i) ≠ none → s.nextId + 1 < 2 ^ 31) :
    ((s.rearm k).finish k (s.goSide k)).Valid unit := by
  have valid := steady.valid
  have phase := (valid.timeout k).running.mpr running
  have unlisted : ∀ t : Timers, t.Valid unit → t.timer k = s.timer k →
      (∀ i, (s.timer k).owner = .tick i → t.intervals (.id i) ≠ some k) → ∀ key, t.intervals key ≠ some k := by
    intro t valid timer gone key found
    obtain ⟨j, rfl, -, -, tick, -⟩ := valid.entries key k found
    exact gone j (timer ▸ tick) found
  unfold rearm
  split
  next user =>
    refine finish_valid valid (.inr phase) (.inr running) (fun _ _ => (valid.timeout k).called phase) ?_
    exact unlisted s valid rfl fun i tick => by cases user.symm.trans tick
  next i owner =>
    split
    next gone =>
      refine finish_valid valid (.inr phase) (.inr running) (fun user => by cases owner.symm.trans user) ?_
      refine unlisted s valid rfl fun j tick => ?_
      obtain rfl := Owner.tick.inj (owner.symm.trans tick)
      simp [gone]
    next listed =>
      obtain ⟨next, found⟩ := Option.ne_none_iff_exists'.mp listed
      obtain ⟨j, same, low, high, -, -, live⟩ := valid.entries _ _ found
      obtain rfl := id_inj.mp same
      have mine := steady.current k i phase owner live
      -- The running timeout is the one of the interval, so that none of it is pending.
      have alone : ∀ m, (s.timer m).owner = .tick i → (s.timer m).phase ≠ .pending := by
        intro m tick pending
        obtain rfl := Option.some.inj (((valid.timeout m).ticks i pending tick live).symm.trans mine)
        cases phase.symm.trans pending
      have armed := rearm_valid valid low high live alone (small i owner listed)
      have apart : k ≠ s.nextId + 1 := fun new => valid.next_idle (new ▸ .inr phase)
      have kept : Kept s (s.setTimeout (.tick i) (s.interval i).delay) k := setTimeout_other apart
      have side : goSide { s.setTimeout (.tick i) (s.interval i).delay with
          intervals := update s.intervals (.id i) (some (s.nextId + 1)) } k = s.goSide k := by
        unfold goSide
        rw [show Timers.timer { s.setTimeout (.tick i) (s.interval i).delay with
          intervals := update s.intervals (.id i) (some (s.nextId + 1)) } k = s.timer k from kept.timer]
      rw [← side]
      refine finish_valid armed (kept.active.mpr (.inr phase)) (.inr (kept.running.mpr running))
        (fun user => ?_) (unlisted _ armed kept.timer fun j tick => ?_)
      · have user : ((s.setTimeout (.tick i) (s.interval i).delay).timer k).owner = .timeout := user
        rw [kept.timer, owner] at user
        cases user
      · obtain rfl := Owner.tick.inj (owner.symm.trans tick)
        simpa using Ne.symm apart

theorem idle_steady (valid : s.Valid unit) (idle : s.running = none) : s.Steady unit where
  valid := valid
  current := by
    intro k j running
    cases idle.symm.trans ((valid.timeout k).running.mp running)

theorem steady_kept (steady : s.Steady unit) (valid : t.Valid unit) (kept : ∀ k j, (t.timer k).phase = .running →
    (t.timer k).owner = .tick j → (t.interval j).cleared = false → (s.timer k).phase = .running ∧
      (s.timer k).owner = .tick j ∧ (s.interval j).cleared = false ∧ t.intervals (.id j) = s.intervals (.id j)) :
    t.Steady unit where
  valid := valid
  current := by
    intro k j running owner live
    obtain ⟨running, owner, live, entry⟩ := kept k j running owner live
    rw [entry]
    exact steady.current k j running owner live

theorem setTimeout_steady {delay : Int} (steady : s.Steady unit) (exact : Exact unit delay)
    (small : s.nextId + 1 < 2 ^ 31) : (s.setTimeout .timeout delay).Steady unit := by
  refine steady_kept steady (setTimeout_valid steady.valid exact small) fun k j running owner live => ?_
  by_cases new : k = s.nextId + 1
  · rw [new, setTimeout_timer] at running
    cases running
  · have kept : Kept s (s.setTimeout .timeout delay) k := setTimeout_other new
    rw [kept.timer] at running owner
    exact ⟨running, owner, live, rfl⟩

theorem setInterval_steady {delay : Int} (steady : s.Steady unit) (exact : Exact unit delay)
    (small : s.nextId + 1 < 2 ^ 31) : (s.setInterval delay).Steady unit := by
  have valid := steady.valid
  refine steady_kept steady (setInterval_valid valid exact small) fun k j running owner live => ?_
  by_cases new : k = s.nextId + 1
  · have timer : (s.setInterval delay).timer (s.nextId + 1) =
        ⟨.tick (s.intervalId + 1), s.now, delay, .pending, false, []⟩ := setTimeout_timer
    rw [new, timer] at running
    cases running
  · have kept : Kept s (s.setInterval delay) k := setInterval_other valid new
    rw [kept.timer] at running owner
    have apart : j ≠ s.intervalId + 1 := by
      rintro rfl
      exact valid.no_ticks (Nat.lt_succ_self _) (by simp [running]) owner
    have interval : (s.setInterval delay).interval j = s.interval j := Function.update_of_ne apart ..
    exact ⟨running, owner, interval ▸ live, Function.update_of_ne (by simpa using apart) ..⟩

theorem clearTimeout_steady (steady : s.Steady unit) (owner : (s.timer k).owner = .timeout) (active : s.Active k) :
    (s.clearTimeout (.timeout k)).Steady unit := by
  refine steady_kept steady (clearTimeout_valid steady.valid owner active) fun m j running tick live => ?_
  have timer : (s.clearTimeout (.timeout k)).timer = update s.timer k { s.timer k with cleared := true } := rfl
  rw [timer] at running tick
  by_cases same : m = k
  · subst same
    rw [Function.update_self] at running tick
    exact ⟨running, tick, live, rfl⟩
  · rw [Function.update_of_ne same] at running tick
    exact ⟨running, tick, live, rfl⟩

theorem markInterval_steady (steady : s.Steady unit) (missing : s.intervals (.id j) = none) :
    (s.markInterval j).Steady unit := by
  refine steady_kept steady (markInterval_valid steady.valid missing) fun m i running tick live => ?_
  have live : (update s.interval j { s.interval j with cleared := true } i).cleared = false := live
  have apart : i ≠ j := by
    rintro rfl
    simp at live
  rw [Function.update_of_ne apart] at live
  exact ⟨running, tick, live, rfl⟩

theorem endInterval_steady (steady : s.Steady unit) (found : s.intervals (.id j) = some k) :
    (s.endInterval j k).Steady unit := by
  refine steady_kept steady (endInterval_valid steady.valid found) fun m i running tick live => ?_
  have live : (update s.interval j { s.interval j with cleared := true } i).cleared = false := live
  have apart : i ≠ j := by
    rintro rfl
    simp at live
  rw [Function.update_of_ne apart] at live
  exact ⟨running, tick, live, Function.update_of_ne (by simpa using apart) ..⟩

theorem clearInterval_steady {h : Handle} (steady : s.Steady unit) (own : (∃ j, h = .interval j) ∨ s.intervals h.key = none) :
    (s.clearInterval h).Steady unit := by
  cases found : s.intervals h.key with
  | none =>
      have same : s.clearEntry h.key = s := clearEntry_missing found
      cases h with
      | timeout k =>
          show (s.clearEntry _).Steady unit
          rwa [same]
      | interval j =>
          show ((s.clearEntry _).markInterval j).Steady unit
          rw [same]
          exact markInterval_steady steady found
      | unknown key =>
          show (s.clearEntry _).Steady unit
          rwa [same]
  | some k =>
      obtain ⟨j, rfl⟩ := own.resolve_right (by simp [found])
      rw [clearInterval_found found]
      exact endInterval_steady steady found

theorem enter_cases {m : Nat} {side : Bool} : (s.enter k m side).running = none ∨ s.enter k m side = s.call k m := by
  unfold enter
  split
  next => exact .inr rfl
  next =>
    split
    next => exact .inl rfl
    next => exact .inr rfl

theorem comesBack_cases (valid : s.Valid unit) (pending : (s.timer k).phase = .pending) :
    (s.comesBack k).running = none ∨ s.comesBack k = s.call k k := by
  have small : Key.number (toInt32 k) = .id k := by rw [active_small valid (.inl pending)]; rfl
  unfold comesBack
  rw [small]
  split
  next =>
    split
    next => exact .inl rfl
    next =>
      split
      next => exact .inl rfl
      next m found =>
        obtain rfl := id_inj.mp (valid.callbacks _ _ found).1
        exact enter_cases
  next =>
    split
    next => exact .inl rfl
    next => exact enter_cases

theorem comesBack_steady (steady : s.Steady unit) (pending : (s.timer k).phase = .pending) (idle : s.running = none)
    (due : s.goSide k = true → s.due unit k ≤ s.now) : (s.comesBack k).Steady unit := by
  have valid := comesBack_valid steady.valid pending idle due
  rcases comesBack_cases steady.valid pending with none | called
  · exact idle_steady valid none
  · rw [called] at valid ⊢
    refine ⟨valid, fun m j running owner live => ?_⟩
    have mine : some (Job.mk k k) = some ⟨m, m⟩ := (valid.timeout m).running.mp running
    obtain ⟨rfl, -⟩ := Job.mk.inj (Option.some.inj mine)
    rw [call_timer] at owner
    exact (steady.valid.timeout k).ticks j pending owner live

theorem step_steady {action : Action} {next : Timers} (steady : s.Steady unit) (ok : Ok unit s action)
    (taken : step unit s action = some next) : next.Steady unit := by
  have valid := steady.valid
  cases action with
  | elapse time => exact Option.some.inj taken ▸ ⟨elapse_valid valid time, steady.current⟩
  | setTimeout delay => exact Option.some.inj taken ▸ setTimeout_steady steady ok.1 ok.2
  | clearTimeout h =>
      obtain ⟨k, rfl, owner, active⟩ := ok
      exact Option.some.inj taken ▸ clearTimeout_steady steady owner active
  | setInterval delay => exact Option.some.inj taken ▸ setInterval_steady steady ok.1 ok.2
  | clearInterval h => exact Option.some.inj taken ▸ clearInterval_steady steady ok
  | comesBack k =>
      simp only [step] at taken
      split at taken
      next ready => exact Option.some.inj taken ▸ comesBack_steady steady ready.1 ready.2.1 ready.2.2
      next => cases taken
  | returns =>
      obtain ⟨job, running, rfl⟩ := Option.map_eq_some_iff.mp taken
      obtain ⟨k, rfl⟩ : ∃ k, job = ⟨k, k⟩ := ⟨job.timer, valid.job job running⟩
      exact idle_steady (returns_valid steady running fun i owner listed => ok _ i running owner listed) rfl
  | throws =>
      obtain ⟨job, running, rfl⟩ := Option.map_eq_some_iff.mp taken
      obtain ⟨k, rfl⟩ : ∃ k, job = ⟨k, k⟩ := ⟨job.timer, valid.job job running⟩
      obtain ⟨user, side, unmarked⟩ := ok _ running
      exact idle_steady (throws_valid valid running user side unmarked) rfl

theorem new_steady (unit : Nat) : new.Steady unit := by
  refine ⟨⟨fun k => ?_, by decide, nofun, nofun, nofun, nofun, fun j low high => ?_, fun _ => .inl (Int.le_refl _)⟩, nofun⟩
  · constructor <;> simp [new, Active, Exact]
    omega
  · exact absurd high (Nat.not_le.mpr low)

theorem valid_law (valid : s.Valid unit) : s.Law where
  once := fun k => (valid.timeout k).once
  elapsed := fun k c member => ((valid.timeout k).elapsed c member).1
  uncleared := fun k c member => ((valid.timeout k).elapsed c member).2
  undisturbed := fun k owner ended uncleared => (valid.timeout k).undisturbed ended owner uncleared
  ticking := by
    intro j low high live
    obtain ⟨k, found⟩ := Option.ne_none_iff_exists'.mp (valid.ticking j low high live)
    obtain ⟨i, same, -, -, owner, active, -⟩ := valid.entries _ _ found
    obtain rfl := id_inj.mp same
    exact ⟨k, found, owner, active⟩
  marks := by
    intro key mark
    obtain ⟨k, rfl⟩ := valid.marks key mark
    exact ⟨k, rfl, ((valid.timeout k).marked mark).1⟩
  callbacks := fun key m found => ⟨(valid.callbacks key m found).1, (valid.callbacks key m found).2.1⟩
  entries := by
    intro key k found
    obtain ⟨j, same, -, -, owner, active, -⟩ := valid.entries key k found
    exact ⟨j, same, owner, active⟩

theorem timers_law {path : List Action} {s : Timers} (allowed : Along (step unit) (Ok unit) new path)
    (reached : run (step unit) new path = some s) : s.Law :=
  valid_law (Transition.along_invariant (fun _ _ _ steady ok taken => step_steady steady ok taken) (new_steady unit) allowed
    reached).valid

def mixedRun : List Action :=
  [.setTimeout 5, .setTimeout 0, .setInterval 10, .comesBack 2, .returns, .clearTimeout (.timeout 1), .elapse 10,
    .comesBack 1, .comesBack 3, .returns, .clearInterval (.interval 1), .elapse 10, .comesBack 4]

theorem mixedRun_law : ∃ s, run (step 1) new mixedRun = some s ∧ (s.timer 2).calls = [⟨0, false⟩] ∧
    (s.timer 3).calls = [⟨10, false⟩] ∧ (s.timer 1).calls = [] ∧ (s.timer 4).calls = [] ∧ s.Law := by
  have along : Along (step 1) (Ok 1) new mixedRun := by
    apply Transition.along_cons (by exact ⟨.inr ⟨⟨5, rfl⟩, by decide⟩, by decide⟩) rfl
    apply Transition.along_cons (by exact ⟨.inl (by decide), by decide⟩) rfl
    apply Transition.along_cons (by exact ⟨.inr ⟨⟨10, rfl⟩, by decide⟩, by decide⟩) rfl
    apply Transition.along_cons trivial rfl
    refine Transition.along_cons (fun job j running tick _ => ?_) rfl ?_
    · cases running
      cases tick
    apply Transition.along_cons (by exact ⟨1, rfl, rfl, .inl rfl⟩) rfl
    apply Transition.along_cons trivial rfl
    apply Transition.along_cons trivial rfl
    apply Transition.along_cons trivial rfl
    apply Transition.along_cons (fun _ _ _ _ _ => by decide) rfl
    apply Transition.along_cons (.inl ⟨1, rfl⟩) rfl
    apply Transition.along_cons trivial rfl
    exact Transition.along_cons trivial rfl trivial
  exact ⟨_, rfl, rfl, rfl, rfl, rfl, timers_law along rfl⟩

-- A clear of a timer that has fired, a clear by the number of an interval, a delay of 2^31 ms, and a callback that throws.
def firedRun : List Action := [.setTimeout 0, .comesBack 1, .returns, .clearTimeout (.timeout 1)]

def confusedRun : List Action :=
  [.setTimeout 5, .setInterval 10, .clearTimeout (.interval 1), .elapse 5, .comesBack 1]

def longRun : List Action := [.setTimeout (2 ^ 31), .comesBack 1]

def thrownRun : List Action := [.setTimeout 5, .elapse 5, .comesBack 1, .throws]

theorem timers_confused :
    (∃ s, run (step 1) new firedRun = some s ∧ s.cleared (.id 1) = true ∧ (s.timer 1).phase = .ended) ∧
    (∃ s, run (step 1) new confusedRun = some s ∧ (s.timer 1).phase = .ended ∧ (s.timer 1).cleared = false ∧
      (s.timer 1).calls = []) ∧
    (∃ s, run (step 1) new longRun = some s ∧ (s.timer 1).delay = 2 ^ 31 ∧ (s.timer 1).calls = [⟨0, false⟩]) ∧
    (∃ s, run (step 1) new thrownRun = some s ∧ s.cbs (.id 1) = some 1 ∧ (s.timer 1).phase = .ended) ∧
    ¬ ∀ path s, run (step 1) new path = some s → s.Law := by
  refine ⟨⟨_, rfl, rfl, rfl⟩, ⟨_, rfl, rfl, rfl, rfl⟩, ⟨_, rfl, rfl, rfl⟩, ⟨_, rfl, rfl, rfl⟩, fun law => ?_⟩
  exact (law confusedRun _ rfl).undisturbed 1 rfl rfl rfl rfl

end Timers

end Brainkit.Jsbridge.Scheduling
