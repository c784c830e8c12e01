import Brainkit.Library.Transition
import Brainkit.Plugins.ManagerCalls

set_option autoImplicit false

namespace Brainkit.Plugins

open Function (update)
open Transition GoText

def WatchPc.resuming : WatchPc → Bool
  | .backoff | .elapsed | .unmarked | .restarting => true
  | _ => false

def WatchPc.leaving : WatchPc → Bool
  | .restarted | .cleared | .halting | .stoppingNext _ => true
  | _ => false

def WatchPc.spent : WatchPc → Bool
  | .starting _ | .finished => true
  | pc => pc.leaving

namespace Manager

def isRunning (m : Manager) (name : GoString) : Bool := (m.plugins name).isSome

-- A stopPlugin on the process, or a stopAll that has it in its snapshot, has still to drop the entry or to see that the
-- watcher is not done.
def StopAhead (m : Manager) (p : Nat) : Prop :=
  (∃ s, (m.stop s).target = some p) ∨ ∃ a, p ∈ (m.stopAll a).rest

-- A process that is reported is alive, or its watcher is not done with it, or it is being stopped.
structure Reports (m : Manager) : Prop where
  running : ∀ name, m.isRunning name = true →
    ∃ p, m.plugins name = some p ∧ (m.alive p = true ∨ m.watch p ≠ .finished ∨ m.StopAhead p)
  limit : ∀ name p, m.latest name = some p → m.automatic name ≤ (m.config p).maxRestarts.toNat

def givesUp (m : Manager) (p : Nat) : Bool :=
  match m.watch p with
  | .exited | .elapsed => m.marked p
  | .spared | .unmarked => m.stopping
  | .crashed => !m.mayRestart p
  | .starting n => m.call n = .returned false
  | _ => false

-- A watcher gives up only on a process that has left the map or is being stopped, and a restarted process takes the place
-- of the one it restarts.
def Settled (m : Manager) : Action → Prop
  | .insert p => m.call p = .ready → m.stopping = false →
      ∀ q, m.restartedBy p = some q → m.latest (m.name p) = some q
  | .watchProcess p => m.givesUp p = true → m.plugins (m.name p) = some p → m.StopAhead p
  | .wake p => m.plugins (m.name p) = some p → m.StopAhead p
  | _ => True

structure Chained (m : Manager) : Prop where
  entry : ∀ name p, m.plugins name = some p → m.latest name = some p
  latest : ∀ name p, m.latest name = some p → m.name p = name ∧ m.call p = .returned true
  within : ∀ p, m.restarts p ≤ (m.config p).maxRestarts.toNat
  resuming : ∀ p, (m.watch p).resuming = true → m.mayRestart p = true
  restarter : ∀ n q, m.restartedBy n = some q → n < m.created ∧ m.call q = .returned true ∧ m.name n = m.name q ∧
    m.restarts n = m.restarts q + 1
  first : ∀ n, m.restartedBy n = none → m.restarts n = 0
  child : ∀ q n, m.watch q = .starting n → m.restartedBy n = some q
  replaced : ∀ n q, m.restartedBy n = some q → m.call n = .returned true → m.latest (m.name q) ≠ some q
  left : ∀ q, (m.watch q).leaving = true → m.latest (m.name q) ≠ some q

theorem initial_chained : Chained initial := by
  constructor <;> simp [initial, WatchPc.resuming, WatchPc.leaving]

inductive WatchMoves (m : Manager) (action : Action) (next : Manager) (q : Nat) : Prop where
  | same (watch : next.watch q = m.watch q)
  | inserted (watch : next.watch q = .waiting)
  | turned (taken : action = .watchProcess q) (turn : m.watchTurn q = some (next.watch q))
  | restarts (here : m.watch q = .restarting) (watch : next.watch q = .starting m.created)
      (child : next.restartedBy m.created = some q)
  | halts (s : Nat) (here : m.watch q = .halting) (watch : next.watch q = .stoppingNext s ∨ next.watch q = .finished)
  | elapses (here : m.watch q = .backoff) (watch : next.watch q = .elapsed)
  | wakes (taken : action = .wake q) (watch : next.watch q = .finished)

theorem watch_step (m : Manager) (action : Action) (next : Manager) (moves : Moves m action next) (q : Nat) :
    WatchMoves m action next q := by
  have elsewhere : ∀ p pc, q ≠ p → update m.watch p pc q = m.watch q := fun p pc other => Function.update_of_ne other _ _
  cases moves with
  | insert p here running =>
      by_cases this : q = p
      · exact .inserted (by simp [this])
      · exact .same (elsewhere p _ this)
  | turn p pc turn =>
      by_cases this : q = p
      · subst this
        exact .turned rfl (by simpa only [Function.update_self] using turn)
      · exact .same (elsewhere p _ this)
  | restart p here =>
      by_cases this : q = p
      · subst this
        exact .restarts here (Function.update_self _ _ _) (Function.update_self _ _ _)
      · exact .same (elsewhere p _ this)
  | halt p found here listed other =>
      by_cases this : q = p
      · subst this
        exact .halts m.stops here (.inl (Function.update_self _ _ _))
      · exact .same (elsewhere p _ this)
  | halted p here =>
      by_cases this : q = p
      · subst this
        exact .halts m.stops here (.inr (Function.update_self _ _ _))
      · exact .same (elsewhere p _ this)
  | elapse p here =>
      by_cases this : q = p
      · subst this
        exact .elapses here (Function.update_self _ _ _)
      · exact .same (elsewhere p _ this)
  | wake p here =>
      by_cases this : q = p
      · subst this
        exact .wakes rfl (Function.update_self _ _ _)
      · exact .same (elsewhere p _ this)
  | _ => exact .same rfl

theorem turn_resuming (m : Manager) (q : Nat) (pc : WatchPc) (turn : m.watchTurn q = some pc) (resuming : pc.resuming = true) :
    (m.watch q).resuming = true ∨ m.mayRestart q = true := by
  cases here : m.watch q with
  | backoff | elapsed | unmarked | restarting => exact .inl rfl
  | crashed =>
      simp only [watchTurn, here, Option.some.injEq] at turn
      subst turn
      split at resuming
      next may => exact .inr may
      next => cases resuming
  | waiting | exited | spared | restarted | cleared | stoppingNext s =>
      simp only [watchTurn, here] at turn
      split at turn <;> cases turn <;> cases resuming
  | starting n =>
      simp only [watchTurn, here] at turn
      split at turn <;> cases turn <;> cases resuming
  | idle | halting | finished => simp [watchTurn, here] at turn

theorem turn_leaving (m : Manager) (q : Nat) (pc : WatchPc) (turn : m.watchTurn q = some pc) (leaving : pc.leaving = true) :
    (m.watch q).leaving = true ∨ ∃ n, m.watch q = .starting n ∧ m.call n = .returned true := by
  cases here : m.watch q with
  | restarted | cleared | halting | stoppingNext s => exact .inl rfl
  | starting n =>
      simp only [watchTurn, here] at turn
      split at turn
      next returned => exact .inr ⟨n, rfl, returned⟩
      next =>
        cases turn
        cases leaving
      next => cases turn
  | waiting | exited | spared | crashed | elapsed | unmarked =>
      simp only [watchTurn, here] at turn
      split at turn <;> cases turn <;> cases leaving
  | idle | backoff | restarting | finished => simp [watchTurn, here] at turn

theorem turn_starting (m : Manager) (q n : Nat) : m.watchTurn q ≠ some (.starting n) := by
  intro turn
  cases here : m.watch q <;> simp only [watchTurn, here] at turn <;> first | cases turn | split at turn <;> cases turn

theorem data_stays (m : Manager) (action : Action) (next : Manager) (moves : Moves m action next) (p : Nat)
    (old : p ≠ m.created) : next.config p = m.config p ∧ next.restarts p = m.restarts p ∧
      next.restartedBy p = m.restartedBy p := by
  cases moves with
  | start cfg => simp only [startPlugin, Function.update_of_ne old, and_self]
  | restart q here => simp only [startPlugin, Function.update_of_ne old, and_self]
  | _ => exact ⟨rfl, rfl, rfl⟩

theorem returned_stays (m : Manager) (action : Action) (next : Manager) (called : Called m) (moves : Moves m action next)
    (p : Nat) (ok : Bool) (returned : m.call p = .returned ok) : next.call p = .returned ok := by
  have elsewhere : ∀ q pc, m.call q ≠ .returned ok → update m.call q pc p = .returned ok := by
    intro q pc busy
    have other : p ≠ q := by
      rintro rfl
      exact busy returned
    rwa [Function.update_of_ne other]
  have begins := elsewhere m.created (if m.stopping then .returned false else .spawning)
    (by rw [called.fresh m.created (Nat.le_refl _)]; exact fun no => nomatch no)
  cases moves with
  | start cfg => exact begins
  | restart q here => exact begins
  | failStart q here => exact elsewhere q _ (by rw [here]; exact fun no => nomatch no)
  | spawn q here => exact elsewhere q _ (by rw [here]; exact fun no => nomatch no)
  | ready q here => exact elsewhere q _ (by rw [here]; exact fun no => nomatch no)
  | abandon q here => exact elsewhere q _ (by rw [here]; exact fun no => nomatch no)
  | refuse q here stopping => exact elsewhere q _ (by rw [here]; exact fun no => nomatch no)
  | insert q here running => exact elsewhere q _ (by rw [here]; exact fun no => nomatch no)
  | abort q here => exact elsewhere q _ (by rw [here]; exact fun no => nomatch no)
  | _ => exact returned

theorem returned_old (m : Manager) (p : Nat) (ok : Bool) (called : Called m) (returned : m.call p = .returned ok) :
    p ≠ m.created := by
  rintro rfl
  rw [called.fresh m.created (Nat.le_refl _)] at returned
  cases returned

theorem latest_before (m : Manager) (action : Action) (next : Manager) (moves : Moves m action next) (q : Nat)
    (name : GoString) (returned : m.call q = .returned true) (latest : next.latest name = some q) :
    m.latest name = some q := by
  cases moves with
  | insert p here running =>
      by_cases same : name = m.name p
      · simp only [same, Function.update_self, Option.some.injEq] at latest
        rw [latest, returned] at here
        cases here
      · simpa only [Function.update_of_ne same] using latest
  | _ => exact latest

theorem entry_step (m : Manager) (action : Action) (next : Manager) (moves : Moves m action next)
    (entry : ∀ name p, m.plugins name = some p → m.latest name = some p) (name : GoString) (p : Nat)
    (listed : next.plugins name = some p) : next.latest name = some p := by
  cases moves with
  | insert q here running =>
      by_cases same : name = m.name q
      · simpa only [same, Function.update_self] using listed
      · simp only [Function.update_of_ne same] at listed ⊢
        exact entry name p listed
  | remove s q here same =>
      by_cases this : name = m.name q
      · simp [this] at listed
      · simp only [Function.update_of_ne this] at listed
        exact entry name p listed
  | _ => exact entry name p listed

theorem chained_latest (m : Manager) (action : Action) (next : Manager) (called : Called m) (chained : Chained m)
    (moves : Moves m action next) (name : GoString) (p : Nat) (latest : next.latest name = some p) :
    next.name p = name ∧ next.call p = .returned true := by
  have keeps : m.latest name = some p → next.name p = name ∧ next.call p = .returned true := by
    intro before
    obtain ⟨named, returned⟩ := chained.latest name p before
    have old := returned_old m p true called returned
    refine ⟨?_, returned_stays m action next called moves p true returned⟩
    rw [Manager.name, (data_stays m action next moves p old).1]
    exact named
  cases moves with
  | insert q here running =>
      by_cases same : name = m.name q
      · simp only [same, Function.update_self, Option.some.injEq] at latest
        exact ⟨latest ▸ same.symm, latest ▸ Function.update_self _ _ _⟩
      · simp only [Function.update_of_ne same] at latest
        exact keeps latest
  | _ => exact keeps latest

theorem chained_within (m : Manager) (action : Action) (next : Manager) (chained : Chained m) (moves : Moves m action next)
    (p : Nat) : next.restarts p ≤ (next.config p).maxRestarts.toNat := by
  by_cases old : p = m.created
  · cases moves with
    | start cfg => simp [startPlugin, old]
    | restart q here =>
        have may := chained.resuming q (by rw [here]; rfl)
        simp only [mayRestart, Bool.and_eq_true, decide_eq_true_eq] at may
        simp only [startPlugin, old, Function.update_self]
        omega
    | _ => exact chained.within p
  · obtain ⟨config, restarts, _⟩ := data_stays m action next moves p old
    rw [config, restarts]
    exact chained.within p

theorem chained_first (m : Manager) (action : Action) (next : Manager) (chained : Chained m) (moves : Moves m action next)
    (n : Nat) (first : next.restartedBy n = none) : next.restarts n = 0 := by
  by_cases old : n = m.created
  · cases moves with
    | start cfg => simp [startPlugin, old]
    | restart q here => simp [startPlugin, old] at first
    | _ => exact chained.first n first
  · obtain ⟨_, restarts, restartedBy⟩ := data_stays m action next moves n old
    rw [restarts]
    exact chained.first n (restartedBy ▸ first)

theorem created_grows (m : Manager) (action : Action) (next : Manager) (moves : Moves m action next) :
    m.created ≤ next.created := by
  cases moves with
  | start cfg => exact Nat.le_succ _
  | restart q here => exact Nat.le_succ _
  | _ => exact Nat.le_refl _

theorem chained_restarter (m : Manager) (action : Action) (next : Manager) (called : Called m) (chained : Chained m)
    (moves : Moves m action next) (n q : Nat) (origin : next.restartedBy n = some q) :
    n < next.created ∧ next.call q = .returned true ∧ next.name n = next.name q ∧ next.restarts n = next.restarts q + 1 := by
  have parent : m.call q = .returned true → next.call q = .returned true ∧ next.name q = m.name q ∧
      next.restarts q = m.restarts q := by
    intro returned
    obtain ⟨config, restarts, _⟩ := data_stays m action next moves q (returned_old m q true called returned)
    refine ⟨returned_stays m action next called moves q true returned, ?_, restarts⟩
    rw [Manager.name, config]
    rfl
  have before : m.restartedBy n = some q → n ≠ m.created → n < next.created ∧ next.call q = .returned true ∧
      next.name n = next.name q ∧ next.restarts n = next.restarts q + 1 := by
    intro was old
    obtain ⟨bound, returned, name, restarts⟩ := chained.restarter n q was
    obtain ⟨config, same, _⟩ := data_stays m action next moves n old
    obtain ⟨returnedNext, nameNext, restartsNext⟩ := parent returned
    refine ⟨Nat.lt_of_lt_of_le bound (created_grows m action next moves), returnedNext, ?_, ?_⟩
    · rw [nameNext, ← name, Manager.name, config]
      rfl
    · rw [same, restartsNext, restarts]
  by_cases old : n = m.created
  · cases moves with
    | start cfg => simp [startPlugin, old] at origin
    | restart p here =>
        simp only [startPlugin, old, Function.update_self, Option.some.injEq] at origin
        subst origin
        have returned := called.watched p (by rw [here]; rintro ⟨⟩)
        have apart := returned_old m p true called returned
        refine ⟨by simp [startPlugin, old], ?_, ?_, ?_⟩
        · simpa only [startPlugin, Function.update_of_ne apart] using returned
        · simp [startPlugin, Manager.name, old, Function.update_of_ne apart]
        · simp [startPlugin, old, Function.update_of_ne apart]
    | _ =>
        have bound := (chained.restarter n q origin).1
        exact absurd bound (by omega)
  · exact before ((data_stays m action next moves n old).2.2 ▸ origin) old

theorem watching_old (m : Manager) (q : Nat) (called : Called m) (watching : m.watch q ≠ .idle) : q ≠ m.created :=
  returned_old m q true called (called.watched q watching)

theorem chained_resuming (m : Manager) (action : Action) (next : Manager) (called : Called m) (chained : Chained m)
    (moves : Moves m action next) (q : Nat) (resuming : (next.watch q).resuming = true) : next.mayRestart q = true := by
  have may : m.watch q ≠ .idle → m.mayRestart q = true → next.mayRestart q = true := by
    intro watching before
    obtain ⟨config, restarts, _⟩ := data_stays m action next moves q (watching_old m q called watching)
    rw [mayRestart, config, restarts]
    exact before
  have goesOn : (m.watch q).resuming = true → next.mayRestart q = true := by
    intro before
    refine may ?_ (chained.resuming q before)
    intro idle
    rw [idle] at before
    cases before
  cases watch_step m action next moves q with
  | same watch => exact goesOn (watch ▸ resuming)
  | inserted watch =>
      rw [watch] at resuming
      cases resuming
  | turned taken turn =>
      rcases turn_resuming m q _ turn resuming with before | decided
      · exact goesOn before
      · refine may ?_ decided
        intro idle
        simp [watchTurn, idle] at turn
  | restarts here watch child =>
      rw [watch] at resuming
      cases resuming
  | halts s here watch =>
      rcases watch with watch | watch
      · rw [watch] at resuming
        cases resuming
      · rw [watch] at resuming
        cases resuming
  | elapses here watch => exact goesOn (by rw [here]; rfl)
  | wakes taken watch =>
      rw [watch] at resuming
      cases resuming

theorem chained_child (m : Manager) (action : Action) (next : Manager) (chained : Chained m) (moves : Moves m action next)
    (q n : Nat) (starting : next.watch q = .starting n) : next.restartedBy n = some q := by
  cases watch_step m action next moves q with
  | same watch =>
      have before := chained.child q n (watch ▸ starting)
      rw [(data_stays m action next moves n (Nat.ne_of_lt (chained.restarter n q before).1)).2.2]
      exact before
  | inserted watch =>
      rw [watch] at starting
      cases starting
  | turned taken turn => exact absurd (starting ▸ turn) (turn_starting m q n)
  | restarts here watch child =>
      rw [watch, WatchPc.starting.injEq] at starting
      exact starting ▸ child
  | halts s here watch =>
      rcases watch with watch | watch
      · rw [watch] at starting
        cases starting
      · rw [watch] at starting
        cases starting
  | elapses here watch =>
      rw [watch] at starting
      cases starting
  | wakes taken watch =>
      rw [watch] at starting
      cases starting

theorem returned_before (m : Manager) (action : Action) (next : Manager) (moves : Moves m action next) (n : Nat)
    (returned : next.call n = .returned true) : m.call n = .returned true ∨
      m.call n = .ready ∧ next.latest = update m.latest (m.name n) (some n) := by
  have elsewhere : ∀ p pc, pc ≠ .returned true → update m.call p pc n = .returned true → m.call n = .returned true := by
    intro p pc other landed
    by_cases same : n = p
    · rw [same, Function.update_self] at landed
      exact absurd landed other
    · rwa [Function.update_of_ne same] at landed
  have begins : (if m.stopping then StartPc.returned false else .spawning) ≠ .returned true := by
    cases m.stopping <;> exact fun no => nomatch no
  cases moves with
  | start cfg => exact .inl (elsewhere m.created _ begins returned)
  | restart p here => exact .inl (elsewhere m.created _ begins returned)
  | failStart p here => exact .inl (elsewhere p (.returned false) (fun no => nomatch no) returned)
  | spawn p here => exact .inl (elsewhere p .handshaking (fun no => nomatch no) returned)
  | ready p here => exact .inl (elsewhere p .ready (fun no => nomatch no) returned)
  | abandon p here => exact .inl (elsewhere p (.returned false) (fun no => nomatch no) returned)
  | refuse p here stopping => exact .inl (elsewhere p .aborting (fun no => nomatch no) returned)
  | insert p here running =>
      by_cases same : n = p
      · exact .inr ⟨same ▸ here, same ▸ rfl⟩
      · exact .inl (by simpa only [Function.update_of_ne same] using returned)
  | abort p here => exact .inl (elsewhere p (.returned false) (fun no => nomatch no) returned)
  | _ => exact .inl returned

theorem chained_replaced (m : Manager) (action : Action) (next : Manager) (called : Called m) (chained : Chained m)
    (moves : Moves m action next) (n q : Nat) (origin : next.restartedBy n = some q)
    (returned : next.call n = .returned true) : next.latest (next.name q) ≠ some q := by
  intro latest
  have old : n ≠ m.created := by
    rcases returned_before m action next moves n returned with before | ⟨ready, _⟩
    · exact returned_old m n true called before
    · rintro rfl
      rw [called.fresh m.created (Nat.le_refl _)] at ready
      cases ready
  have before : m.restartedBy n = some q := (data_stays m action next moves n old).2.2 ▸ origin
  obtain ⟨_, parent, name, _⟩ := chained.restarter n q before
  have nameNext : next.name q = m.name q := by
    rw [Manager.name, (data_stays m action next moves q (returned_old m q true called parent)).1]
    rfl
  rw [nameNext] at latest
  rcases returned_before m action next moves n returned with landed | ⟨ready, put⟩
  · exact chained.replaced n q before landed (latest_before m action next moves q _ parent latest)
  · rw [put, name, Function.update_self, Option.some.injEq] at latest
    rw [latest, parent] at ready
    cases ready

theorem chained_left (m : Manager) (action : Action) (next : Manager) (called : Called m) (chained : Chained m)
    (moves : Moves m action next) (q : Nat) (leaving : (next.watch q).leaving = true) :
    next.latest (next.name q) ≠ some q := by
  have keeps : m.watch q ≠ .idle → m.latest (m.name q) ≠ some q → next.latest (next.name q) ≠ some q := by
    intro watching gone latest
    have returned := called.watched q watching
    have name : next.name q = m.name q := by
      rw [Manager.name, (data_stays m action next moves q (returned_old m q true called returned)).1]
      rfl
    rw [name] at latest
    exact gone (latest_before m action next moves q _ returned latest)
  have goesOn : (m.watch q).leaving = true → next.latest (next.name q) ≠ some q := by
    intro before
    refine keeps ?_ (chained.left q before)
    intro idle
    rw [idle] at before
    cases before
  cases watch_step m action next moves q with
  | same watch => exact goesOn (watch ▸ leaving)
  | inserted watch =>
      rw [watch] at leaving
      cases leaving
  | turned taken turn =>
      rcases turn_leaving m q _ turn leaving with before | ⟨n, starting, returned⟩
      · exact goesOn before
      · exact keeps (by rw [starting]; rintro ⟨⟩)
          (chained.replaced n q (chained.child q n starting) returned)
  | restarts here watch child =>
      rw [watch] at leaving
      cases leaving
  | halts s here watch => exact goesOn (by rw [here]; rfl)
  | elapses here watch =>
      rw [watch] at leaving
      cases leaving
  | wakes taken watch =>
      rw [watch] at leaving
      cases leaving

theorem chained_step (m : Manager) (action : Action) (next : Manager) (called : Called m) (chained : Chained m)
    (moves : Moves m action next) : Chained next where
  entry := entry_step m action next moves chained.entry
  latest := chained_latest m action next called chained moves
  within := chained_within m action next chained moves
  resuming := chained_resuming m action next called chained moves
  restarter := chained_restarter m action next called chained moves
  first := chained_first m action next chained moves
  child := chained_child m action next chained moves
  replaced := chained_replaced m action next called chained moves
  left := chained_left m action next called chained moves

def Counted (m : Manager) : Prop := ∀ name p, m.latest name = some p → m.automatic name = m.restarts p

theorem counted_step (m : Manager) (action : Action) (next : Manager) (called : Called m) (chained : Chained m)
    (counted : Counted m) (settled : Settled m action) (moves : Moves m action next) : Counted next := by
  intro name p latest
  have keeps : m.latest name = some p → m.automatic name = next.restarts p := by
    intro before
    have old := returned_old m p true called (chained.latest name p before).2
    rw [(data_stays m action next moves p old).2.1]
    exact counted name p before
  cases moves with
  | insert q here running =>
      by_cases same : name = m.name q
      · simp only [same, Function.update_self, Option.some.injEq] at latest ⊢
        subst latest
        cases origin : m.restartedBy q with
        | none =>
            rw [chained.first q origin]
            rfl
        | some parent =>
            have last := settled here running parent origin
            rw [(chained.restarter q parent origin).2.2.2, ← counted _ parent last]
            rfl
      · simp only [Function.update_of_ne same] at latest ⊢
        exact keeps latest
  | _ => exact keeps latest

theorem turn_spent (m : Manager) (q : Nat) (pc : WatchPc) (turn : m.watchTurn q = some pc) (spent : (m.watch q).spent = true) :
    pc.spent = true := by
  cases here : m.watch q with
  | starting n | restarted | cleared | stoppingNext s =>
      simp only [watchTurn, here] at turn
      split at turn <;> cases turn <;> rfl
  | halting | finished => simp [watchTurn, here] at turn
  | _ =>
      rw [here] at spent
      cases spent

theorem spent_stays (m : Manager) (action : Action) (next : Manager) (moves : Moves m action next) (q : Nat)
    (returned : m.call q = .returned true) (spent : (m.watch q).spent = true) : (next.watch q).spent = true := by
  have kept : ∀ p pc, (q = p → pc.spent = true) → (update m.watch p pc q).spent = true := by
    intro p pc own
    by_cases this : q = p
    · rw [this, Function.update_self]
      exact own this
    · rwa [Function.update_of_ne this]
  cases moves with
  | insert p here running =>
      refine kept p _ fun same => ?_
      rw [← same, returned] at here
      cases here
  | turn p pc turn => exact kept p pc fun same => turn_spent m p pc turn (same ▸ spent)
  | restart p here | halt p found here listed other | halted p here | wake p here => exact kept p _ fun _ => rfl
  | elapse p here =>
      refine kept p _ fun same => ?_
      rw [same, here] at spent
      cases spent
  | _ => exact spent

theorem restarted_before (m : Manager) (action : Action) (next : Manager) (moves : Moves m action next) (n q : Nat)
    (origin : next.restartedBy n = some q) :
    m.restartedBy n = some q ∨ n = m.created ∧ m.watch q = .restarting ∧ (next.watch q).spent = true := by
  by_cases old : n = m.created
  · cases moves with
    | start cfg => simp [startPlugin, old] at origin
    | restart p here =>
        simp only [startPlugin, old, Function.update_self, Option.some.injEq] at origin
        subst origin
        exact .inr ⟨old, here, by simp [WatchPc.spent]⟩
    | _ => exact .inl origin
  · exact .inl ((data_stays m action next moves n old).2.2 ▸ origin)

-- A process is restarted by the watcher that it leaves behind, which is then past its restart.
structure Succeeded (m : Manager) : Prop where
  spent : ∀ n q, m.restartedBy n = some q → (m.watch q).spent = true
  once : ∀ n k q, m.restartedBy n = some q → m.restartedBy k = some q → n = k

theorem succeeded_step (m : Manager) (action : Action) (next : Manager) (chained : Chained m) (succeeded : Succeeded m)
    (moves : Moves m action next) : Succeeded next where
  spent n q origin := by
    rcases restarted_before m action next moves n q origin with before | ⟨_, _, spent⟩
    · exact spent_stays m action next moves q (chained.restarter n q before).2.1 (succeeded.spent n q before)
    · exact spent
  once n k q first second := by
    have fresh : ∀ n, m.restartedBy n = some q → m.watch q ≠ .restarting := by
      intro n before here
      have spent := succeeded.spent n q before
      rw [here] at spent
      cases spent
    rcases restarted_before m action next moves n q first with before | ⟨here, restarting, _⟩ <;>
      rcases restarted_before m action next moves k q second with earlier | ⟨also, again, _⟩
    · exact succeeded.once n k q before earlier
    · exact absurd again (fresh n before)
    · exact absurd restarting (fresh k earlier)
    · exact here.trans also.symm

theorem restarts_chained (path : List Action) (m : Manager) (reached : run step initial path = some m) :
    (∀ p, m.restarts p ≤ (m.config p).maxRestarts.toNat) ∧ (∀ n, m.restartedBy n = none → m.restarts n = 0) ∧
      (∀ n q, m.restartedBy n = some q → m.call q = .returned true ∧ m.name n = m.name q ∧
        m.restarts n = m.restarts q + 1 ∧ ∀ k, m.restartedBy k = some q → k = n) ∧
      ∀ name p, m.plugins name = some p → m.name p = name ∧ m.call p = .returned true ∧ m.latest name = some p := by
  have keeps : ∀ state action next, (Called state ∧ Chained state ∧ Succeeded state) → step state action = some next →
      Called next ∧ Chained next ∧ Succeeded next := by
    intro state action next ⟨called, chained, succeeded⟩ taken
    have moves := moves_of_step state action next taken
    exact ⟨called_step state action next called moves, chained_step state action next called chained moves,
      succeeded_step state action next chained succeeded moves⟩
  obtain ⟨_, chained, succeeded⟩ := run_invariant keeps
    ⟨initial_called, initial_chained, ⟨by simp [initial], by simp [initial]⟩⟩ reached
  refine ⟨chained.within, chained.first, fun n q origin => ?_, fun name p listed => ?_⟩
  · obtain ⟨_, returned, same, more⟩ := chained.restarter n q origin
    exact ⟨returned, same, more, fun k other => succeeded.once k n q other origin⟩
  · obtain ⟨same, returned⟩ := chained.latest name p (chained.entry name p listed)
    exact ⟨same, returned, chained.entry name p listed⟩

def startPluginNamed (cfg : PluginConfig) (p : Nat) : List Action := [.start cfg, .spawn p, .ready p, .insert p]

def crash (p : Nat) : List Action := [.exit p, .watchProcess p, .watchProcess p, .watchProcess p, .watchProcess p]

def restartAs (p n : Nat) : List Action :=
  [.elapse p, .watchProcess p, .watchProcess p, .watchProcess p, .spawn n, .ready n, .insert n]

def crashAndRestart : List Action :=
  startPluginNamed ⟨lit "echo", true, 5⟩ 0 ++ crash 0 ++ restartAs 0 1 ++
    ([.watchProcess 0, .watchProcess 0, .watchProcess 0] : List Action)

def Calm (m : Manager) : Action → Prop
  | .insert p => m.restartedBy p = none ∨ m.restartedBy p = m.latest (m.name p)
  | .watchProcess p => m.givesUp p = false
  | .wake _ => False
  | _ => True

instance (m : Manager) (action : Action) : Decidable (m.Calm action) := by
  cases action <;> unfold Calm <;> infer_instance

theorem crash_and_restart_chained : ∃ m, run step initial crashAndRestart = some m ∧ m.restarts 1 = m.restarts 0 + 1 := by
  obtain ⟨m, reached, checked⟩ : ∃ m, run step initial crashAndRestart = some m ∧ m.restartedBy 1 = some 0 := by
    refine ⟨_, rfl, ?_⟩
    decide +kernel
  exact ⟨m, reached, ((restarts_chained crashAndRestart m reached).2.2.1 1 0 checked).2.2.1⟩

end Manager

end Brainkit.Plugins
