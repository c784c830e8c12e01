import Brainkit.Library.Transition
import Brainkit.Plugins.Manager

set_option autoImplicit false

namespace Brainkit.Plugins

open Function (update)
open Transition

def StartPc.underway : StartPc → Bool
  | .spawning | .handshaking | .ready | .aborting => true
  | .idle | .returned _ => false

namespace Manager

def Needs (m : Manager) (p : Nat) : Prop := (m.call p).underway = true ∨ m.call p = .returned true ∧ m.alive p = true

instance (m : Manager) (p : Nat) : Decidable (m.Needs p) := inferInstanceAs (Decidable (_ ∨ _))

end Manager

-- The manager with its websocket server. A server is the number it was created with. ensured is what ensureWSServer
-- has given to a start to put into the environment of its process, createdWSServer the variable of that start. shut is
-- history: closeWSServer has taken the server.
structure Shared where
  manager : Manager
  wsServer : Option Nat
  servers : Nat
  ensured : Nat → Option Nat
  createdWSServer : Nat → Option Nat
  shut : Bool

namespace Shared

def new : Shared := ⟨.initial, none, 0, fun _ => none, fun _ => none, false⟩

def ensureWSServer (p : Nat) (opens : Bool) (s : Shared) : Shared :=
  match s.wsServer with
  | some w => { s with ensured := update s.ensured p (some w), createdWSServer := update s.createdWSServer p none }
  | none =>
      if opens then { s with
        wsServer := some s.servers
        servers := s.servers + 1
        ensured := update s.ensured p (some s.servers)
        createdWSServer := update s.createdWSServer p (some s.servers) }
      else { s with ensured := update s.ensured p none, createdWSServer := update s.createdWSServer p none }

def closeCreatedWSServer (p : Nat) (s : Shared) : Shared :=
  match s.createdWSServer p with
  | none => s
  | some w => if s.wsServer = some w then { s with wsServer := none } else s

-- What a step of the manager goes with: a start that is not refused ensures the server in the locked section that
-- checks stopping, and the three ways to fail end with cleanupStartupFailure.
def follow (action : Manager.Action) (opens : Bool) (before : Manager) (s : Shared) : Shared :=
  match action with
  | .failStart p | .abandon p | .abort p => s.closeCreatedWSServer p
  | _ =>
      if before.created < s.manager.created ∧ s.manager.call before.created = .spawning then
        s.ensureWSServer before.created opens
      else s

inductive Action where
  | plugin (action : Manager.Action) (opens : Bool)
  | closeWSServer

def hasURL (action : Manager.Action) (s : Shared) : Bool :=
  match action with
  | .spawn p => (s.ensured p).isSome
  | _ => true

-- The process needs the URL. CloseContext of the module comes to closeWSServer after stopAll.
def step (s : Shared) : Action → Option Shared
  | .plugin action opens =>
      if s.hasURL action then
        (s.manager.step action).map fun next => follow action opens s.manager { s with manager := next }
      else none
  | .closeWSServer => if s.manager.stopping then some { s with wsServer := none, shut := true } else none

def Served (s : Shared) : Prop := s.shut = true ∨ ∀ p w, s.manager.Needs p → s.ensured p = some w → s.wsServer = some w

def failing : Action → Option Nat
  | .plugin (.failStart p) _ | .plugin (.abandon p) _ | .plugin (.abort p) _ => some p
  | _ => none

-- A start that created the shared server does not fail while another plugin that was given it is starting or running.
def Alone (s : Shared) (action : Action) : Prop :=
  s.shut = true ∨ ∀ p w, failing action = some p → s.createdWSServer p = some w → s.wsServer = some w →
    ∀ q, q ≠ p → s.manager.Needs q → s.ensured q ≠ some w

end Shared

namespace Manager

theorem needs_start (m : Manager) (cfg : PluginConfig) (count : Nat) (restarter : Option Nat) (p : Nat)
    (needs : (m.startPlugin cfg count restarter).Needs p) :
    m.Needs p ∨ p = m.created ∧ (m.startPlugin cfg count restarter).call p = .spawning := by
  by_cases new : p = m.created
  · subst new
    refine .inr ⟨rfl, ?_⟩
    simp only [Needs, startPlugin, Function.update_self] at needs ⊢
    cases stopping : m.stopping with
    | false => rfl
    | true => simp [stopping, StartPc.underway] at needs
  · simp only [Needs, startPlugin, Function.update_of_ne new] at needs
    exact .inl needs

theorem needs_call (m : Manager) {next : Manager} {p q : Nat} {now pc : StartPc} (needs : next.Needs p)
    (here : m.call q = now) (begun : now.underway = true) (call : next.call = update m.call q pc)
    (alive : p ≠ q → next.alive p = m.alive p) : m.Needs p := by
  by_cases same : p = q
  · exact .inl (by rwa [same, here])
  · rw [Needs, call, Function.update_of_ne same, alive same] at needs
    exact needs

theorem needs_before (m : Manager) (action : Action) (next : Manager) (moves : Moves m action next) (p : Nat)
    (needs : next.Needs p) : m.Needs p ∨ p = m.created ∧ next.created = m.created + 1 ∧ next.call p = .spawning := by
  cases moves with
  | start cfg =>
      rcases needs_start m _ 0 none p needs with before | ⟨new, spawning⟩
      · exact .inl before
      · exact .inr ⟨new, rfl, spawning⟩
  | restart q here =>
      rcases needs_start m (m.config q) (m.restarts q + 1) (some q) p needs with before | ⟨new, spawning⟩
      · exact .inl before
      · exact .inr ⟨new, rfl, spawning⟩
  | failStart q here => exact .inl (needs_call m needs here rfl rfl fun _ => rfl)
  | spawn q here => exact .inl (needs_call m needs here rfl rfl fun apart => Function.update_of_ne apart true m.alive)
  | ready q here => exact .inl (needs_call m needs here rfl rfl fun _ => rfl)
  | abandon q here => exact .inl (needs_call m needs here rfl rfl fun _ => rfl)
  | refuse q here stopping => exact .inl (needs_call m needs here rfl rfl fun _ => rfl)
  | insert q here stopping => exact .inl (needs_call m needs here rfl rfl fun _ => rfl)
  | abort q here => exact .inl (needs_call m needs here rfl rfl fun _ => rfl)
  | exit q living =>
      refine .inl (needs.imp_right fun ⟨returned, alive⟩ => ⟨returned, ?_⟩)
      by_cases same : p = q
      · exact same ▸ living
      · exact (Function.update_of_ne same false m.alive).symm.trans alive
  | _ => exact .inl needs

theorem needs_failed (m next : Manager) (p q : Nat) (call : next.call = update m.call p (.returned false))
    (alive : next.alive = m.alive) : next.Needs q ↔ q ≠ p ∧ m.Needs q := by
  by_cases same : q = p
  · simp [Needs, call, same, StartPc.underway]
  · rw [Needs, call, Function.update_of_ne same, alive]
    exact (and_iff_right same).symm

end Manager

namespace Shared

theorem failing_moves {s : Shared} {action : Manager.Action} {next : Manager} {p : Nat} {opens : Bool}
    (fails : failing (.plugin action opens) = some p) (taken : s.manager.step action = some next) :
    follow action opens s.manager { s with manager := next } = closeCreatedWSServer p { s with manager := next } ∧
      next.call = update s.manager.call p (.returned false) ∧ next.alive = s.manager.alive := by
  have moves := Manager.moves_of_step s.manager action next taken
  cases moves with
  | failStart q here | abandon q here | abort q here =>
      cases fails
      exact ⟨rfl, rfl, rfl⟩
  | _ => cases fails

theorem follow_other {s : Shared} {action : Manager.Action} {opens : Bool} {before : Manager}
    (succeeds : failing (.plugin action opens) = none) :
    follow action opens before s =
      if before.created < s.manager.created ∧ s.manager.call before.created = .spawning then
        s.ensureWSServer before.created opens
      else s := by
  cases action with
  | failStart p | abandon p | abort p => cases succeeds
  | _ => rfl

theorem ensure_kept (p : Nat) (opens : Bool) (s : Shared) :
    (s.ensureWSServer p opens).manager = s.manager ∧ (s.ensureWSServer p opens).shut = s.shut := by
  unfold ensureWSServer
  split
  · exact ⟨rfl, rfl⟩
  · split <;> exact ⟨rfl, rfl⟩

theorem close_kept (p : Nat) (s : Shared) :
    (s.closeCreatedWSServer p).manager = s.manager ∧ (s.closeCreatedWSServer p).shut = s.shut := by
  unfold closeCreatedWSServer
  split
  · exact ⟨rfl, rfl⟩
  · split <;> exact ⟨rfl, rfl⟩

theorem follow_kept (action : Manager.Action) (opens : Bool) (before : Manager) (s : Shared) :
    (follow action opens before s).manager = s.manager ∧ (follow action opens before s).shut = s.shut := by
  cases fails : failing (.plugin action opens) with
  | none =>
      rw [follow_other fails]
      split
      · exact ensure_kept _ opens s
      · exact ⟨rfl, rfl⟩
  | some p =>
      cases action with
      | failStart q | abandon q | abort q => exact close_kept q s
      | _ => cases fails

theorem ensure_cases (p : Nat) (opens : Bool) (s : Shared) :
    (s.wsServer ≠ none → (s.ensureWSServer p opens).wsServer = s.wsServer) ∧
      (∀ w, (s.ensureWSServer p opens).ensured p = some w → (s.ensureWSServer p opens).wsServer = some w) ∧
      ∀ q, q ≠ p → (s.ensureWSServer p opens).ensured q = s.ensured q := by
  unfold ensureWSServer
  cases shared : s.wsServer with
  | some w => simp +contextual
  | none =>
      cases opens with
      | true => simp +contextual
      | false => simp +contextual

theorem close_served_iff {s : Shared} {next : Manager} {p : Nat} (served : s.Served)
    (call : next.call = update s.manager.call p (.returned false)) (alive : next.alive = s.manager.alive) :
    (closeCreatedWSServer p { s with manager := next }).Served ↔
      (s.shut = true ∨ ∀ w, s.createdWSServer p = some w → s.wsServer = some w →
        ∀ q, q ≠ p → s.manager.Needs q → s.ensured q ≠ some w) := by
  have others (q : Nat) : next.Needs q ↔ q ≠ p ∧ s.manager.Needs q := Manager.needs_failed s.manager next p q call alive
  by_cases shut : s.shut = true
  · exact iff_of_true (.inl ((close_kept p _).2.trans shut)) (.inl shut)
  · have current := served.resolve_left shut
    have stays (apart : ∀ w, s.createdWSServer p = some w → s.wsServer ≠ some w) :
        closeCreatedWSServer p { s with manager := next } = { s with manager := next } := by
      unfold closeCreatedWSServer
      split
      · rfl
      · next w created => exact if_neg (apart w created)
    by_cases own : ∃ w, s.createdWSServer p = some w ∧ s.wsServer = some w
    · obtain ⟨w, created, shared⟩ := own
      have gone : closeCreatedWSServer p { s with manager := next } = { s with manager := next, wsServer := none } := by
        unfold closeCreatedWSServer
        simp [created, shared]
      rw [gone]
      simp only [Served, shut, Bool.false_eq_true, false_or, others]
      constructor
      · intro unneeded w' created' _ q apart needs given
        cases unneeded q w' ⟨apart, needs⟩ given
      · intro alone q w' ⟨apart, needs⟩ given
        have same := current q w' needs given
        exact absurd given (alone w' (by rw [created, ← shared, same]) same q apart needs)
    · have apart (w : Nat) (created : s.createdWSServer p = some w) : s.wsServer ≠ some w := fun shared =>
        own ⟨w, created, shared⟩
      rw [stays apart]
      refine iff_of_true (.inr fun q w needs given => ?_) (.inr fun w created shared => absurd shared (apart w created))
      exact current q w ((others q).mp needs).2 given

theorem served_step_iff {s next : Shared} {action : Action} (served : s.Served) (taken : s.step action = some next) :
    next.Served ↔ s.Alone action := by
  cases action with
  | closeWSServer =>
      obtain ⟨-, same⟩ := Option.ite_none_right_eq_some.mp taken
      cases same
      exact iff_of_true (.inl rfl) (.inr fun _ _ fails => nomatch fails)
  | plugin action opens =>
      obtain ⟨-, moved⟩ := Option.ite_none_right_eq_some.mp taken
      obtain ⟨m, stepped, rfl⟩ := Option.map_eq_some_iff.mp moved
      cases fails : failing (.plugin action opens) with
      | some p =>
          obtain ⟨followed, call, alive⟩ := failing_moves fails stepped
          rw [followed, close_served_iff served call alive]
          refine or_congr_right ⟨fun alone q w own => ?_, fun alone w => alone p w fails⟩
          cases fails.symm.trans own
          exact alone w
      | none =>
          refine iff_of_true ?_ (.inr fun p w own => nomatch own.symm.trans fails)
          have moves := Manager.moves_of_step s.manager action m stepped
          by_cases shut : s.shut = true
          · exact .inl ((follow_kept action opens s.manager _).2.trans shut)
          · have current := served.resolve_left shut
            rw [follow_other fails]
            right
            split_ifs with starts
            · obtain ⟨kept, given, others⟩ := ensure_cases s.manager.created opens { s with manager := m }
              intro q w needs ensured
              by_cases new : q = s.manager.created
              · exact given w (new ▸ ensured)
              · rw [(ensure_kept _ opens _).1] at needs
                have before := (Manager.needs_before s.manager action m moves q needs).resolve_right fun made => new made.1
                have shared := current q w before ((others q new).symm.trans ensured)
                exact (kept (by simp [shared])).trans shared
            · intro q w needs ensured
              rcases Manager.needs_before s.manager action m moves q needs with before | ⟨new, created, spawning⟩
              · exact current q w before ensured
              · exact absurd ⟨by simp [created], new ▸ spawning⟩ starts

theorem server_spared_iff_creators_fail_alone {path : List Action} {final : Shared} (reached : run step new path = some final) :
    Always step Served new path ↔ Along step Alone new path := by
  have initial : new.Served := .inr fun p w _ given => nomatch given
  have keeps (s : Shared) (action : Action) (next : Shared) (_ : True) (_ : s.step action = some next) : True := trivial
  exact always_iff_along keeps (fun s action next _ served taken => served_step_iff served taken) trivial initial reached

def plugin (name : String) : PluginConfig := ⟨GoText.lit name, false, 0⟩

def bothStart : List Action :=
  [.plugin (.start (plugin "weather")) true, .plugin (.start (plugin "search")) true, .plugin (.spawn 0) true,
    .plugin (.spawn 1) true, .plugin (.ready 1) true, .plugin (.insert 1) true]

theorem second_running : ∃ final, run step new (bothStart ++ [.plugin (.ready 0) true]) = some final ∧
    (Always step Served new (bothStart ++ [.plugin (.ready 0) true]) ↔
      Along step Alone new (bothStart ++ [.plugin (.ready 0) true])) := by
  have runs : (run step new (bothStart ++ [.plugin (.ready 0) true])).isSome = true := by decide +kernel
  obtain ⟨final, reached⟩ := Option.isSome_iff_exists.mp runs
  exact ⟨final, reached, server_spared_iff_creators_fail_alone reached⟩

-- The first is not ready in time.
theorem late_start_closes_shared_server : ¬ ∀ path final, run step new path = some final → final.Served := by
  intro served
  have closed : (run step new (bothStart ++ [.plugin (.abandon 0) true])).map (fun s =>
      !s.shut && decide (s.manager.Needs 1) && decide (s.ensured 1 = some 0) && decide (s.wsServer = none)) = some true := by
    decide +kernel
  obtain ⟨final, reached, lost⟩ := Option.map_eq_some_iff.mp closed
  simp only [Bool.and_eq_true, Bool.not_eq_true', decide_eq_true_eq] at lost
  obtain ⟨⟨⟨open', needs⟩, given⟩, gone⟩ := lost
  rcases served _ final reached with shut | current
  · exact absurd (open'.symm.trans shut) Bool.false_ne_true
  · cases gone.symm.trans (current 1 0 needs given)

end Shared

end Brainkit.Plugins
