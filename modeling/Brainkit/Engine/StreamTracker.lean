import Brainkit.Library.GoText
import Brainkit.Library.Registry
import Brainkit.Library.Transition

set_option autoImplicit false

namespace Brainkit.Engine

open Function (update)
open Transition GoText

inductive HeartbeatPc where
  | unstarted
  | looping
  | leaving
  | removed
deriving DecidableEq

-- Heartbeats are numbered in the order in which they are started. active holds their cancel functions; cancelled says
-- whether the context of a heartbeat is done. stopped is history: the last call for the topic was a StopHeartbeat, or a
-- CloseAll came after the last StartHeartbeat.
structure StreamTracker where
  active : GoString → Option Nat
  replyTo : Nat → GoString
  pc : Nat → HeartbeatPc
  cancelled : Nat → Bool
  created : Nat
  shutdown : Bool
  stopped : GoString → Bool

def StreamTracker.start : StreamTracker where
  active := fun _ => none
  replyTo := fun _ => []
  pc := fun _ => .unstarted
  cancelled := fun _ => false
  created := 0
  shutdown := false
  stopped := fun _ => false

namespace StreamTracker

def startHeartbeat (replyTo : GoString) (st : StreamTracker) : StreamTracker :=
  match st.active replyTo with
  | some _ => { st with stopped := update st.stopped replyTo false }
  | none => { st with
      active := update st.active replyTo (some st.created)
      replyTo := update st.replyTo st.created replyTo
      pc := update st.pc st.created .looping
      cancelled := update st.cancelled st.created st.shutdown
      created := st.created + 1
      stopped := update st.stopped replyTo false }

def stopHeartbeat (replyTo : GoString) (st : StreamTracker) : StreamTracker :=
  match st.active replyTo with
  | some n => { st with
      active := update st.active replyTo none
      cancelled := update st.cancelled n true
      stopped := update st.stopped replyTo true }
  | none => { st with stopped := update st.stopped replyTo true }

def closeAll (st : StreamTracker) : StreamTracker :=
  { st with
    active := fun _ => none
    cancelled := fun n => if st.active (st.replyTo n) = some n then true else st.cancelled n
    stopped := fun _ => true }

def expire (n : Nat) (st : StreamTracker) : Option StreamTracker :=
  if n < st.created then some { st with cancelled := update st.cancelled n true } else none

def cancelShutdown (st : StreamTracker) : StreamTracker :=
  { st with shutdown := true, cancelled := fun _ => true }

def leave (n : Nat) (st : StreamTracker) : Option StreamTracker :=
  if st.pc n = .looping ∧ st.cancelled n then some { st with pc := update st.pc n .leaving } else none

def removeSelf (n : Nat) (st : StreamTracker) : Option StreamTracker :=
  if st.pc n = .leaving then
    some { st with active := update st.active (st.replyTo n) none, pc := update st.pc n .removed }
  else none

inductive Action where
  | startHeartbeat (replyTo : GoString)
  | stopHeartbeat (replyTo : GoString)
  | closeAll
  | expire (n : Nat)
  | cancelShutdown
  | leave (n : Nat)
  | removeSelf (n : Nat)

def step (st : StreamTracker) : Action → Option StreamTracker
  | .startHeartbeat replyTo => some (st.startHeartbeat replyTo)
  | .stopHeartbeat replyTo => some (st.stopHeartbeat replyTo)
  | .closeAll => some st.closeAll
  | .expire n => st.expire n
  | .cancelShutdown => some st.cancelShutdown
  | .leave n => st.leave n
  | .removeSelf n => st.removeSelf n

def Uncancelled (st : StreamTracker) (n : Nat) : Prop := n < st.created ∧ st.cancelled n = false

-- A heartbeat that is not cancelled is the one recorded under its topic, so there is at most one; and after a stop with
-- no later start there is none.
structure Recorded (st : StreamTracker) : Prop where
  tracked : Registry.Tracked st.active st.replyTo st.Uncancelled
  stopped : ∀ n, st.stopped (st.replyTo n) = true → ¬ st.Uncancelled n

-- A goroutine that removes its topic from the table finds no other heartbeat there, or a cancelled one.
def OwnRemoval (st : StreamTracker) : Action → Prop
  | .removeSelf n => ∀ m, st.active (st.replyTo n) = some m → st.cancelled m = true
  | _ => True

structure Sound (st : StreamTracker) : Prop where
  keyed : ∀ replyTo n, st.active replyTo = some n → st.replyTo n = replyTo
  known : ∀ replyTo n, st.active replyTo = some n → n < st.created
  leaving : ∀ n, st.pc n = .leaving → st.cancelled n = true

theorem start_sound : Sound start where
  keyed _ _ listed := nomatch listed
  known _ _ listed := nomatch listed
  leaving _ leaving := nomatch leaving

theorem start_recorded : Recorded start where
  tracked _ lives := absurd lives.1 (Nat.not_lt_zero _)
  stopped _ stopped := nomatch stopped

theorem sound_start (st : StreamTracker) (replyTo : GoString) (sound : Sound st) : Sound (st.startHeartbeat replyTo) := by
  unfold startHeartbeat
  cases active : st.active replyTo with
  | some n => exact ⟨sound.keyed, sound.known, sound.leaving⟩
  | none =>
      refine ⟨fun other n listed => ?_, fun other n listed => ?_, fun n leaving => ?_⟩
      · by_cases same : other = replyTo
        · subst same
          simp only [Function.update_self, Option.some.injEq] at listed
          simp [← listed]
        · simp only [Function.update_of_ne same] at listed
          have older := sound.known other n listed
          simpa only [Function.update_of_ne (Nat.ne_of_lt older)] using sound.keyed other n listed
      · by_cases same : other = replyTo
        · subst same
          simp only [Function.update_self, Option.some.injEq] at listed
          simp [← listed]
        · simp only [Function.update_of_ne same] at listed
          exact Nat.lt_succ_of_lt (sound.known other n listed)
      · by_cases fresh : n = st.created
        · simp [fresh] at leaving
        · simp only [Function.update_of_ne fresh] at leaving ⊢
          exact sound.leaving n leaving

theorem cancel_grows (st : StreamTracker) (n m : Nat) (cancelled : st.cancelled m = true) :
    update st.cancelled n true m = true := by
  by_cases same : m = n
  · simp [same]
  · simpa [Function.update_of_ne same] using cancelled

theorem cleared_listed (st : StreamTracker) (cleared replyTo : GoString) (n : Nat)
    (listed : update st.active cleared none replyTo = some n) : st.active replyTo = some n := by
  by_cases same : replyTo = cleared
  · simp [same] at listed
  · rwa [Function.update_of_ne same] at listed

theorem sound_step (st : StreamTracker) (action : Action) (next : StreamTracker) (sound : Sound st)
    (taken : step st action = some next) : Sound next := by
  cases action with
  | startHeartbeat replyTo =>
      cases taken
      exact sound_start st replyTo sound
  | stopHeartbeat replyTo =>
      cases taken
      unfold stopHeartbeat
      cases st.active replyTo with
      | none => exact ⟨sound.keyed, sound.known, sound.leaving⟩
      | some m =>
          exact ⟨fun other n listed => sound.keyed other n (cleared_listed st replyTo other n listed),
            fun other n listed => sound.known other n (cleared_listed st replyTo other n listed),
            fun n leaving => cancel_grows st m n (sound.leaving n leaving)⟩
  | closeAll =>
      cases taken
      refine ⟨fun _ _ no => (nomatch no), fun _ _ no => (nomatch no), fun n leaving => ?_⟩
      have cancelled := sound.leaving n leaving
      simp only [closeAll, cancelled, ite_self]
  | expire m =>
      simp only [step, expire] at taken
      split at taken <;> cases taken
      exact ⟨sound.keyed, sound.known, fun n leaving => cancel_grows st m n (sound.leaving n leaving)⟩
  | cancelShutdown =>
      cases taken
      exact ⟨sound.keyed, sound.known, fun _ _ => rfl⟩
  | leave m =>
      simp only [step, leave] at taken
      split at taken <;> cases taken
      next ready =>
        refine ⟨sound.keyed, sound.known, fun n leaving => ?_⟩
        by_cases same : n = m
        · exact same ▸ ready.2
        · simp only [Function.update_of_ne same] at leaving
          exact sound.leaving n leaving
  | removeSelf m =>
      simp only [step, removeSelf] at taken
      split at taken <;> cases taken
      next ready =>
        refine ⟨fun other n listed => sound.keyed other n (cleared_listed st _ other n listed),
          fun other n listed => sound.known other n (cleared_listed st _ other n listed), fun n leaving => ?_⟩
        by_cases same : n = m
        · simp [same] at leaving
        · simp only [Function.update_of_ne same] at leaving
          exact sound.leaving n leaving

theorem recorded_start (st : StreamTracker) (replyTo : GoString) (recorded : Recorded st) :
    Recorded (st.startHeartbeat replyTo) := by
  unfold startHeartbeat
  cases active : st.active replyTo with
  | some n =>
      refine ⟨recorded.tracked, fun m stopped => ?_⟩
      by_cases same : st.replyTo m = replyTo
      · simp [same] at stopped
      · simp only [Function.update_of_ne same] at stopped
        exact recorded.stopped m stopped
  | none =>
      have older : ∀ m, m ≠ st.created → m < st.created + 1 → m < st.created := fun m _ _ => by omega
      refine ⟨fun m lives => ?_, fun m stopped lives => ?_⟩
      · obtain ⟨bound, spared⟩ := lives
        by_cases fresh : m = st.created
        · simp [fresh]
        · simp only [Function.update_of_ne fresh] at spared ⊢
          have before : st.Uncancelled m := ⟨older m fresh bound, spared⟩
          have apart : st.replyTo m ≠ replyTo := fun here =>
            Registry.tracked_absent recorded.tracked replyTo active m here before
          rw [Function.update_of_ne apart]
          exact recorded.tracked m before
      · obtain ⟨bound, spared⟩ := lives
        by_cases fresh : m = st.created
        · simp [fresh] at stopped
        · simp only [Function.update_of_ne fresh] at spared stopped
          have apart : st.replyTo m ≠ replyTo := by
            intro here
            simp [here] at stopped
          rw [Function.update_of_ne apart] at stopped
          exact recorded.stopped m stopped ⟨older m fresh bound, spared⟩

theorem recorded_stop (st : StreamTracker) (replyTo : GoString) (recorded : Recorded st) :
    Recorded (st.stopHeartbeat replyTo) := by
  have stays : ∀ m, update st.stopped replyTo true (st.replyTo m) = true → st.replyTo m ≠ replyTo → ¬ st.Uncancelled m := by
    intro m stopped apart
    rw [Function.update_of_ne apart] at stopped
    exact recorded.stopped m stopped
  unfold stopHeartbeat
  cases active : st.active replyTo with
  | none =>
      refine ⟨recorded.tracked, fun m stopped lives => ?_⟩
      by_cases here : st.replyTo m = replyTo
      · exact Registry.tracked_absent recorded.tracked replyTo active m here lives
      · exact stays m stopped here lives
  | some n =>
      have spared : ∀ m, (m < st.created ∧ update st.cancelled n true m = false) → st.Uncancelled m ∧ m ≠ n := by
        rintro m ⟨bound, spared⟩
        by_cases same : m = n
        · simp [same] at spared
        · rw [Function.update_of_ne same] at spared
          exact ⟨⟨bound, spared⟩, same⟩
      have apart : ∀ m, st.Uncancelled m → m ≠ n → st.replyTo m ≠ replyTo := by
        intro m lives other here
        have listed := recorded.tracked m lives
        rw [here, active] at listed
        exact other (Option.some.inj listed).symm
      refine ⟨fun m lives => ?_, fun m stopped lives => ?_⟩
      · obtain ⟨before, other⟩ := spared m lives
        simp only [Function.update_of_ne (apart m before other)]
        exact recorded.tracked m before
      · obtain ⟨before, other⟩ := spared m lives
        exact stays m stopped (apart m before other) before

theorem recorded_fewer (st next : StreamTracker) (recorded : Recorded st) (active : next.active = st.active)
    (replyTo : next.replyTo = st.replyTo) (stopped : next.stopped = st.stopped)
    (fewer : ∀ n, next.Uncancelled n → st.Uncancelled n) : Recorded next := by
  refine ⟨?_, fun n halted lives => ?_⟩
  · rw [active, replyTo]
    exact Registry.tracked_fewer recorded.tracked fewer
  · rw [stopped, replyTo] at halted
    exact recorded.stopped n halted (fewer n lives)

theorem recorded_close (st : StreamTracker) (recorded : Recorded st) : Recorded st.closeAll := by
  have dead : ∀ n, ¬ st.closeAll.Uncancelled n := by
    rintro n ⟨bound, spared⟩
    simp only [closeAll] at spared
    split at spared
    next => cases spared
    next unlisted => exact unlisted (recorded.tracked n ⟨bound, spared⟩)
  exact ⟨fun n lives => absurd lives (dead n), fun n _ => dead n⟩

theorem recorded_remove_iff (st : StreamTracker) (n : Nat) (sound : Sound st) (recorded : Recorded st) :
    Recorded { st with active := update st.active (st.replyTo n) none, pc := update st.pc n .removed } ↔
      OwnRemoval st (.removeSelf n) := by
  have drop := Registry.tracked_drop_iff recorded.tracked (st.replyTo n) (fun m listed => sound.keyed _ m listed)
  have meaning : OwnRemoval st (.removeSelf n) ↔ ∀ m, st.active (st.replyTo n) = some m → ¬ st.Uncancelled m := by
    constructor
    · intro own m listed lives
      exact Bool.false_ne_true (lives.2.symm.trans (own m listed))
    · intro dead m listed
      by_contra spared
      exact dead m listed ⟨sound.known _ m listed, by simpa using spared⟩
  rw [meaning, ← drop]
  exact ⟨fun after => after.tracked, fun tracked => ⟨tracked, recorded.stopped⟩⟩

theorem recorded_step_iff (st : StreamTracker) (action : Action) (next : StreamTracker) (sound : Sound st)
    (recorded : Recorded st) (taken : step st action = some next) : Recorded next ↔ OwnRemoval st action := by
  cases action with
  | startHeartbeat replyTo =>
      cases taken
      exact iff_of_true (recorded_start st replyTo recorded) trivial
  | stopHeartbeat replyTo =>
      cases taken
      exact iff_of_true (recorded_stop st replyTo recorded) trivial
  | closeAll =>
      cases taken
      exact iff_of_true (recorded_close st recorded) trivial
  | expire m =>
      simp only [step, expire] at taken
      split at taken <;> cases taken
      refine iff_of_true (recorded_fewer st _ recorded rfl rfl rfl fun n lives => ⟨lives.1, ?_⟩) trivial
      by_contra cancelled
      have grown := cancel_grows st m n (by simpa using cancelled)
      exact Bool.false_ne_true (lives.2.symm.trans grown)
  | cancelShutdown =>
      cases taken
      exact iff_of_true (recorded_fewer st _ recorded rfl rfl rfl fun n lives => nomatch lives.2) trivial
  | leave m =>
      simp only [step, leave] at taken
      split at taken <;> cases taken
      exact iff_of_true (recorded_fewer st _ recorded rfl rfl rfl fun n lives => lives) trivial
  | removeSelf m =>
      simp only [step, removeSelf] at taken
      split at taken <;> cases taken
      exact recorded_remove_iff st m sound recorded

theorem heartbeats_recorded_iff (path : List Action) (st : StreamTracker) (reached : run step start path = some st) :
    Always step Recorded start path ↔ Along step OwnRemoval start path :=
  always_iff_along sound_step recorded_step_iff start_sound start_recorded reached

-- A stream is stopped and started again before the goroutine of its first heartbeat has run its deferred delete: the
-- second heartbeat is no longer recorded, a third one runs beside it, and StopHeartbeat misses the second.
theorem restarted_heartbeat_forgotten : ∃ st next, Reachable step start st ∧
    st.Uncancelled 1 ∧ st.Uncancelled 2 ∧ st.replyTo 1 = lit "inbox" ∧ st.replyTo 2 = lit "inbox" ∧
    step st (.stopHeartbeat (lit "inbox")) = some next ∧ next.stopped (lit "inbox") = true ∧ next.Uncancelled 1 := by
  refine ⟨_, _, ⟨[.startHeartbeat (lit "inbox"), .stopHeartbeat (lit "inbox"), .startHeartbeat (lit "inbox"), .leave 0,
    .removeSelf 0, .startHeartbeat (lit "inbox")], rfl⟩, ⟨by decide, rfl⟩, ⟨by decide, rfl⟩, rfl, rfl, rfl, rfl,
    ⟨by decide, rfl⟩⟩

def streamTwice : List Action :=
  [.startHeartbeat (lit "inbox"), .stopHeartbeat (lit "inbox"), .leave 0, .removeSelf 0, .startHeartbeat (lit "inbox"),
    .expire 1, .leave 1, .removeSelf 1, .closeAll]

theorem stream_twice_recorded : Always step Recorded start streamTwice := by
  apply (heartbeats_recorded_iff streamTwice _ rfl).mpr
  apply along_cons trivial rfl
  apply along_cons trivial rfl
  apply along_cons trivial rfl
  apply along_cons (fun _ no => nomatch no) rfl
  apply along_cons trivial rfl
  apply along_cons trivial rfl
  apply along_cons trivial rfl
  refine along_cons (fun _ removed => ?_) rfl (along_cons trivial rfl trivial)
  cases removed
  rfl

end StreamTracker

end Brainkit.Engine
