import Brainkit.Library.Registry
import Brainkit.Library.Transition
import Brainkit.Plugins.ManagerCalls

set_option autoImplicit false

namespace Brainkit.Plugins

open Function (update)
open Transition GoText

def StartPc.inFlight : StartPc → Bool
  | .handshaking | .ready | .aborting => true
  | _ => false

namespace Manager

def Live (m : Manager) (p : Nat) : Prop := m.alive p = true ∧ m.killed p = false

def Started (m : Manager) (p : Nat) : Prop := m.Live p ∧ (m.call p).inFlight = false

instance (m : Manager) (p : Nat) : Decidable (m.Live p) :=
  inferInstanceAs (Decidable (m.alive p = true ∧ m.killed p = false))

instance (m : Manager) (p : Nat) : Decidable (m.Started p) :=
  inferInstanceAs (Decidable (m.Live p ∧ (m.call p).inFlight = false))

structure Tracks (m : Manager) : Prop where
  tracked : Registry.Tracked m.plugins m.name m.Started
  stopped : ∀ a, m.stopAll a = .returned → ∀ p, ¬ m.Started p

def NameFree (m : Manager) : Action → Prop
  | .insert p => m.call p = .ready → m.stopping = false → ∀ q, m.plugins (m.name p) = some q → ¬ m.Live q
  | _ => True

instance (m : Manager) (name : GoString) : Decidable (∀ q, m.plugins name = some q → ¬ m.Live q) :=
  match listed : m.plugins name with
  | none => isTrue fun _ no => nomatch no
  | some q => decidable_of_iff (¬ m.Live q) (by simp)

instance (m : Manager) (action : Action) : Decidable (NameFree m action) :=
  match action with
  | .insert p => inferInstanceAs (Decidable (m.call p = .ready → m.stopping = false →
      ∀ q, m.plugins (m.name p) = some q → ¬ m.Live q))
  | .start _ | .failStart _ | .spawn _ | .ready _ | .abandon _ | .abort _ | .exit _ | .watchProcess _ | .elapse _
  | .wake _ | .shutdownSignal | .lookup _ | .mark _ | .stopDone _ | .stopKill _ | .checkDone _ | .removePluginIfSame _
  | .beginStopAll _ | .nextStop _ _ | .stopReturned _ => isTrue trivial

theorem started_before (m : Manager) (action : Action) (next : Manager) (called : Called m) (moves : Moves m action next)
    (p : Nat) (started : next.Started p) (other : action ≠ .insert p) : m.Started p := by
  have revived : ∀ q, ¬ (update m.killed q true q = false) := fun q no => by simp at no
  obtain ⟨⟨alive, spared⟩, landed⟩ := started
  cases moves with
  | start cfg =>
      have same : p ≠ m.created := Nat.ne_of_lt (alive_created m p called alive)
      simp only [startPlugin, Function.update_of_ne same] at landed
      exact ⟨⟨alive, spared⟩, landed⟩
  | failStart q here =>
      by_cases same : p = q
      · have dead := called.unborn p (.inr (same ▸ here))
        exact absurd (dead.symm.trans alive) Bool.false_ne_true
      · simp only [Function.update_of_ne same] at landed
        exact ⟨⟨alive, spared⟩, landed⟩
  | spawn q here =>
      by_cases same : p = q
      · simp [same, StartPc.inFlight] at landed
      · simp only [Function.update_of_ne same] at landed alive
        exact ⟨⟨alive, spared⟩, landed⟩
  | ready q here =>
      by_cases same : p = q
      · simp [same, StartPc.inFlight] at landed
      · simp only [Function.update_of_ne same] at landed
        exact ⟨⟨alive, spared⟩, landed⟩
  | abandon q here =>
      by_cases same : p = q
      · exact absurd spared (same ▸ revived p)
      · simp only [Function.update_of_ne same] at landed spared
        exact ⟨⟨alive, spared⟩, landed⟩
  | refuse q here stopping =>
      by_cases same : p = q
      · simp [same, StartPc.inFlight] at landed
      · simp only [Function.update_of_ne same] at landed
        exact ⟨⟨alive, spared⟩, landed⟩
  | insert q here stopping =>
      have apart : p ≠ q := by
        rintro rfl
        exact other rfl
      simp only [Function.update_of_ne apart] at landed
      exact ⟨⟨alive, spared⟩, landed⟩
  | abort q here =>
      by_cases same : p = q
      · exact absurd spared (same ▸ revived p)
      · simp only [Function.update_of_ne same] at landed spared
        exact ⟨⟨alive, spared⟩, landed⟩
  | exit q living =>
      by_cases same : p = q
      · simp [same] at alive
      · simp only [Function.update_of_ne same] at alive
        exact ⟨⟨alive, spared⟩, landed⟩
  | restart q here =>
      have same : p ≠ m.created := Nat.ne_of_lt (alive_created m p called alive)
      simp only [startPlugin, Function.update_of_ne same] at landed
      exact ⟨⟨alive, spared⟩, landed⟩
  | stopKill s q here =>
      by_cases same : p = q
      · exact absurd spared (same ▸ revived p)
      · simp only [Function.update_of_ne same] at spared
        exact ⟨⟨alive, spared⟩, landed⟩
  | _ => exact ⟨⟨alive, spared⟩, landed⟩

def Ahead (m : Manager) (a p : Nat) : Prop :=
  p ∈ (m.stopAll a).rest ∨ ∃ s, (m.stopAll a).current = some s ∧ (m.stop s).begun = some p

structure Swept (m : Manager) : Prop where
  free : ∀ s, m.stops ≤ s → m.stop s = .idle
  removing : ∀ s p, m.stop s = .removing p → m.watch p = .finished
  stopping : ∀ a, m.stopAll a ≠ .idle → m.stopping = true
  ahead : ∀ a p, m.stopAll a ≠ .idle → m.Started p → m.plugins (m.name p) = some p → m.Ahead a p

theorem initial_swept : Swept initial := by
  constructor <;> simp [initial]

theorem started_old (m : Manager) (p : Nat) (called : Called m) (started : m.Started p) : p ≠ m.created :=
  Nat.ne_of_lt (alive_created m p called started.1.1)

theorem listed_before (m : Manager) (action : Action) (next : Manager) (called : Called m) (moves : Moves m action next)
    (p : Nat) (started : m.Started p) (listed : next.plugins (next.name p) = some p) (other : action ≠ .insert p) :
    m.plugins (m.name p) = some p := by
  have old := started_old m p called started
  cases moves with
  | start cfg =>
      rw [name_start m _ _ _ p old] at listed
      exact listed
  | restart q here =>
      rw [← name_start m (m.config q) (m.restarts q + 1) (some q) p old]
      exact listed
  | insert q here stopping =>
      by_cases same : m.name p = m.name q
      · simp only [name] at listed same
        simp only [same, Function.update_self, Option.some.injEq] at listed
        exact absurd rfl (listed ▸ other)
      · simp only [name] at listed same ⊢
        rwa [Function.update_of_ne same] at listed
  | remove s q here same =>
      by_cases this : m.name p = m.name q
      · simp only [name] at listed this
        simp [this] at listed
      · simp only [name] at listed this ⊢
        rwa [Function.update_of_ne this] at listed
  | _ => exact listed

theorem stopping_step (m : Manager) (action : Action) (next : Manager) (moves : Moves m action next)
    (stopping : ∀ a, m.stopAll a ≠ .idle → m.stopping = true) (a : Nat) (swept : next.stopAll a ≠ .idle) :
    next.stopping = true := by
  cases moves with
  | beginStopAll b here => rfl
  | nextStop b p rest here member => exact stopping b (by rw [here]; exact fun no => nomatch no)
  | stopReturned b s rest here returned => exact stopping b (by rw [here]; exact fun no => nomatch no)
  | allStopped b here => exact stopping b (by rw [here]; exact fun no => nomatch no)
  | _ => exact stopping a swept

theorem begun_step (m : Manager) (action : Action) (next : Manager) (called : Called m) (swept : Swept m)
    (moves : Moves m action next) (s p : Nat) (before : m.Started p) (after : next.Started p)
    (begun : (m.stop s).begun = some p) : (next.stop s).begun = some p := by
  cases stop_step m action next moves s with
  | same stop stops => rwa [stop]
  | begins q fresh stops holding =>
      rw [swept.free s (by omega)] at begun
      cases begun
  | moved busy stops removing goesOn target =>
      rcases goesOn p begun with same | finished | killed
      · exact same
      · have dead := called.gone p (by rw [finished]; rfl)
        exact absurd (dead.symm.trans before.1.1) Bool.false_ne_true
      · exact absurd (after.1.2.symm.trans killed) Bool.false_ne_true

theorem swept_insert (m : Manager) (next : Manager) (swept : Swept m) (p a : Nat) (moves : Moves m (.insert p) next)
    (sweeping : next.stopAll a ≠ .idle) : ¬ next.Started p := by
  intro started
  cases moves with
  | refuse p here stopping =>
      have landed := started.2
      simp [StartPc.inFlight] at landed
  | insert p here running => exact Bool.false_ne_true (running.symm.trans (swept.stopping a sweeping))

theorem ahead_step (m : Manager) (action : Action) (next : Manager) (called : Called m) (swept : Swept m)
    (moves : Moves m action next) (a p : Nat) (sweeping : next.stopAll a ≠ .idle) (after : next.Started p)
    (listed : next.plugins (next.name p) = some p) : next.Ahead a p := by
  have other : action ≠ .insert p := by
    rintro rfl
    exact swept_insert m next swept p a moves sweeping after
  have before := started_before m action next called moves p after other
  have listedBefore := listed_before m action next called moves p before listed other
  have ahead : m.stopAll a ≠ .idle → m.Ahead a p := fun running => swept.ahead a p running before listedBefore
  have keeps : ∀ s, (m.stop s).begun = some p → (next.stop s).begun = some p :=
    fun s => begun_step m action next called swept moves s p before after
  have elsewhere : next.stopAll a = m.stopAll a → next.Ahead a p := by
    intro same
    rw [same] at sweeping
    rw [Ahead, same]
    rcases ahead sweeping with waits | ⟨s, current, begun⟩
    · exact .inl waits
    · exact .inr ⟨s, current, keeps s begun⟩
  cases moves with
  | beginStopAll b here =>
      by_cases same : a = b
      · have bound : p < m.created := alive_created m p called before.1.1
        subst same
        refine .inl ?_
        simp only [Function.update_self, StopAllPc.rest, List.mem_filter, List.mem_range, decide_eq_true_eq]
        exact ⟨bound, listedBefore⟩
      · exact elsewhere (Function.update_of_ne same _ _)
  | nextStop b q rest here member =>
      by_cases same : a = b
      · subst same
        by_cases this : p = q
        · exact .inr ⟨m.stops, by simp [StopAllPc.current], by simp [beginStop, this, StopPc.begun]⟩
        · have waits : p ∈ rest := by
            rcases ahead (by rw [here]; exact fun no => nomatch no) with waits | ⟨s, current, _⟩
            · rwa [here] at waits
            · rw [here] at current
              cases current
          refine .inl ?_
          simp only [Function.update_self, StopAllPc.rest]
          exact (List.mem_erase_of_ne this).mpr waits
      · exact elsewhere (Function.update_of_ne same _ _)
  | stopReturned b s rest here returned =>
      by_cases same : a = b
      · subst same
        refine .inl ?_
        simp only [Function.update_self, StopAllPc.rest]
        rcases ahead (by rw [here]; exact fun no => nomatch no) with waits | ⟨t, current, begun⟩
        · rwa [here] at waits
        · rw [here] at current
          cases current
          rw [returned] at begun
          cases begun
      · exact elsewhere (Function.update_of_ne same _ _)
  | allStopped b here =>
      by_cases same : a = b
      · subst same
        rcases ahead (by rw [here]; exact fun no => nomatch no) with waits | ⟨s, current, _⟩
        · rw [here] at waits
          cases waits
        · rw [here] at current
          cases current
      · exact elsewhere (Function.update_of_ne same _ _)
  | _ => exact elsewhere rfl

theorem swept_step (m : Manager) (action : Action) (next : Manager) (called : Called m) (swept : Swept m)
    (moves : Moves m action next) : Swept next where
  free := free_step m action next moves swept.free
  removing := removing_step m action next called moves swept.removing
  stopping := stopping_step m action next moves swept.stopping
  ahead := ahead_step m action next called swept moves

theorem tracked_insert_iff (m next : Manager) (p : Nat) (called : Called m)
    (tracked : Registry.Tracked m.plugins m.name m.Started) (here : m.call p = .ready)
    (plugins : next.plugins = update m.plugins (m.name p) (some p)) (config : next.config = m.config)
    (call : next.call = update m.call p (.returned true)) (alive : next.alive = m.alive) (killed : next.killed = m.killed) :
    Registry.Tracked next.plugins next.name next.Started ↔ ∀ q, m.plugins (m.name p) = some q → ¬ m.Live q := by
  have name : next.name = m.name := by
    funext q
    rw [name, name, config]
  have fresh : ¬ m.Started p := by
    intro started
    have landed := started.2
    rw [here] at landed
    cases landed
  have others : ∀ q, q ≠ p → (next.Started q ↔ m.Started q) := by
    intro q other
    rw [Started, Started, Live, Live, alive, killed, call, Function.update_of_ne other]
  have put := Registry.tracked_put_iff tracked p fresh (fun q _ => congrFun name q) others
  rw [plugins, ← congrFun name p, put, congrFun name p]
  constructor
  · intro apart q listed live
    obtain ⟨named, returned⟩ := called.entry _ q listed
    exact apart q ⟨live, by rw [returned]; rfl⟩ named
  · intro free q started named
    exact free q (named ▸ tracked q started) started.1

theorem tracked_step_iff (m : Manager) (action : Action) (next : Manager) (called : Called m) (swept : Swept m)
    (moves : Moves m action next) (tracked : Registry.Tracked m.plugins m.name m.Started) :
    Registry.Tracked next.plugins next.name next.Started ↔ NameFree m action := by
  have fewer : (∀ p, action ≠ .insert p) → next.plugins = m.plugins → next.name = m.name →
      Registry.Tracked next.plugins next.name next.Started := by
    intro other plugins name
    rw [plugins, name]
    exact Registry.tracked_fewer tracked fun p started => started_before m action next called moves p started (other p)
  have begins : ∀ cfg count restarter, (∀ p, next.Started p → m.Started p) → next.plugins = m.plugins →
      next.name = (m.startPlugin cfg count restarter).name → Registry.Tracked next.plugins next.name next.Started := by
    intro cfg count restarter before plugins name p started
    rw [plugins, name, name_start m cfg count restarter p (started_old m p called (before p started))]
    exact tracked p (before p started)
  have before : (∀ p, action ≠ .insert p) → ∀ p, next.Started p → m.Started p :=
    fun other p started => started_before m action next called moves p started (other p)
  cases moves with
  | start cfg => exact iff_of_true (begins (pluginDefaults cfg) 0 none (before fun _ no => nomatch no) rfl rfl) trivial
  | restart p here =>
      exact iff_of_true (begins (m.config p) (m.restarts p + 1) (some p) (before fun _ no => nomatch no) rfl rfl) trivial
  | refuse p here stopping =>
      refine iff_of_true (Registry.tracked_fewer tracked fun q started => ?_) fun _ running => ?_
      · have other : q ≠ p := by
          rintro rfl
          have landed := started.2
          simp [StartPc.inFlight] at landed
        obtain ⟨live, landed⟩ := started
        simp only [Function.update_of_ne other] at landed
        exact ⟨live, landed⟩
      · exact absurd (running.symm.trans stopping) Bool.false_ne_true
  | insert p here running =>
      refine Iff.trans (tracked_insert_iff m _ p called tracked here rfl rfl rfl rfl rfl) ?_
      exact ⟨fun free _ _ => free, fun free => free here running⟩
  | remove s p here same =>
      refine iff_of_true ?_ trivial
      refine (Registry.tracked_drop_iff tracked (m.name p) fun q listed => (called.entry _ q listed).1).mpr ?_
      intro q listed started
      rw [same, Option.some.injEq] at listed
      have dead := called.gone p (by rw [swept.removing s p here]; rfl)
      exact Bool.false_ne_true (dead.symm.trans (listed ▸ started.1.1))
  | _ => exact iff_of_true (fewer (fun _ no => nomatch no) rfl rfl) trivial

theorem tracks_iff (m : Manager) (swept : Swept m) : Tracks m ↔ Registry.Tracked m.plugins m.name m.Started := by
  constructor
  · exact fun tracks => tracks.tracked
  · intro tracked
    refine ⟨tracked, fun a returned p started => ?_⟩
    rcases swept.ahead a p (by rw [returned]; exact fun no => nomatch no) started (tracked p started) with waits | current
    · rw [returned] at waits
      cases waits
    · obtain ⟨s, current, _⟩ := current
      rw [returned] at current
      cases current

theorem processes_tracked_iff (path : List Action) (m : Manager) (reached : run step initial path = some m) :
    Always step Tracks initial path ↔ Along step NameFree initial path := by
  have keeps : ∀ state action next, Called state ∧ Swept state → step state action = some next →
      Called next ∧ Swept next := by
    intro state action next ⟨called, swept⟩ taken
    have moves := moves_of_step state action next taken
    exact ⟨called_step state action next called moves, swept_step state action next called swept moves⟩
  have exactly : ∀ state action next, Called state ∧ Swept state → Tracks state → step state action = some next →
      (Tracks next ↔ NameFree state action) := by
    intro state action next ⟨called, swept⟩ tracks taken
    have moves := moves_of_step state action next taken
    rw [tracks_iff next (swept_step state action next called swept moves)]
    exact tracked_step_iff state action next called swept moves tracks.tracked
  refine always_iff_along keeps exactly ⟨initial_called, initial_swept⟩ ((tracks_iff initial initial_swept).mpr ?_) reached
  exact fun p started => nomatch started.1.1

def echo : PluginConfig := ⟨lit "echo", true, 5⟩

def startEcho (p : Nat) : List Action := [.start echo, .spawn p, .ready p, .insert p]

def stopAllOf (p : Nat) : List Action :=
  [.beginStopAll 0, .nextStop 0 p, .mark 0, .exit p, .watchProcess p, .watchProcess p, .stopDone 0, .checkDone 0,
    .removePluginIfSame 0, .stopReturned 0, .stopReturned 0]

-- StartPlugin of a name that is running: the first process is no longer in the map, and the stopAll that returns leaves it
-- alive.
theorem second_start_orphans : ∃ m, Reachable step initial m ∧ m.Started 0 ∧ m.plugins (lit "echo") = none ∧
    m.stopAll 0 = .returned := by
  obtain ⟨m, reached, checked⟩ := reachable_checked (startEcho 0 ++ startEcho 1 ++ stopAllOf 1)
    (fun m => m.Started 0 ∧ m.plugins (lit "echo") = none ∧ m.stopAll 0 = .returned)
    (show (run step initial (startEcho 0 ++ startEcho 1 ++ stopAllOf 1)).map _ = some true by decide +kernel)
  exact ⟨m, reached, of_decide_eq_true checked⟩

def crashAndStop : List Action :=
  startEcho 0 ++
    ([.exit 0, .watchProcess 0, .watchProcess 0, .watchProcess 0, .watchProcess 0, .elapse 0, .watchProcess 0,
      .watchProcess 0, .watchProcess 0, .spawn 1, .ready 1, .insert 1, .watchProcess 0, .watchProcess 0,
      .watchProcess 0] : List Action) ++
    stopAllOf 1

theorem crash_and_stop_tracked : Always step Tracks initial crashAndStop := by
  obtain ⟨m, reached⟩ := Option.isSome_iff_exists.mp (show (run step initial crashAndStop).isSome = true by decide +kernel)
  exact (processes_tracked_iff crashAndStop m reached).mpr (by decide +kernel)

end Manager

end Brainkit.Plugins
