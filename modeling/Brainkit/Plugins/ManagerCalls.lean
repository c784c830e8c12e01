import Brainkit.Plugins.Manager

set_option autoImplicit false

namespace Brainkit.Plugins

open Function (update)
open GoText

def WatchPc.past : WatchPc → Bool
  | .idle | .waiting => false
  | _ => true

def StopPc.begun : StopPc → Option Nat
  | .holding p | .waiting p => some p
  | _ => none

def StopPc.target : StopPc → Option Nat
  | .holding p | .waiting p | .checking p | .removing p => some p
  | _ => none

def StopAllPc.rest : StopAllPc → List Nat
  | .stopping rest | .waiting _ rest => rest
  | _ => []

def StopAllPc.current : StopAllPc → Option Nat
  | .waiting s _ => some s
  | _ => none

namespace Manager

structure Called (m : Manager) : Prop where
  entry : ∀ name p, m.plugins name = some p → m.name p = name ∧ m.call p = .returned true
  fresh : ∀ p, m.created ≤ p → m.call p = .idle
  unborn : ∀ p, m.call p = .idle ∨ m.call p = .spawning → m.alive p = false
  watched : ∀ p, m.watch p ≠ .idle → m.call p = .returned true
  gone : ∀ p, (m.watch p).past = true → m.alive p = false

theorem initial_called : Called initial := by
  constructor <;> simp [initial, WatchPc.past]

theorem called_same (m next : Manager) (called : Called m) (plugins : next.plugins = m.plugins)
    (created : next.created = m.created) (config : next.config = m.config) (call : next.call = m.call)
    (alive : next.alive = m.alive) (watch : next.watch = m.watch) : Called next := by
  obtain ⟨entry, fresh, unborn, watched, gone⟩ := called
  have name : next.name = m.name := by
    funext p
    rw [name, name, config]
  exact ⟨by rwa [plugins, name, call], by rwa [created, call], by rwa [call, alive], by rwa [watch, call],
    by rwa [watch, alive]⟩

theorem alive_created (m : Manager) (p : Nat) (called : Called m) (alive : m.alive p = true) : p < m.created := by
  by_contra beyond
  have dead := called.unborn p (.inl (called.fresh p (Nat.le_of_not_lt beyond)))
  exact Bool.false_ne_true (dead.symm.trans alive)

theorem called_watch (m : Manager) (p : Nat) (pc : WatchPc) (called : Called m) (watching : m.watch p ≠ .idle)
    (dead : m.alive p = false) : Called { m with watch := update m.watch p pc } := by
  refine ⟨called.entry, called.fresh, called.unborn, fun q watched => ?_, fun q past => ?_⟩
  · by_cases same : q = p
    · exact same ▸ called.watched p watching
    · simp only [Function.update_of_ne same] at watched
      exact called.watched q watched
  · by_cases same : q = p
    · exact same ▸ dead
    · simp only [Function.update_of_ne same] at past
      exact called.gone q past

theorem called_call (m next : Manager) (p : Nat) (pc : StartPc) (called : Called m) (busy : m.call p ≠ .returned true)
    (begun : m.call p ≠ .idle) (onward : pc ≠ .idle ∧ pc ≠ .spawning) (plugins : next.plugins = m.plugins)
    (created : next.created = m.created) (config : next.config = m.config) (call : next.call = update m.call p pc)
    (alive : ∀ q, q ≠ p → next.alive q = m.alive q) (watch : next.watch = m.watch) : Called next := by
  have name : next.name = m.name := by
    funext q
    rw [name, name, config]
  have idle : m.watch p = .idle := by
    by_contra watching
    exact busy (called.watched p watching)
  refine ⟨fun other q listed => ?_, fun q bound => ?_, fun q unborn => ?_, fun q watched => ?_, fun q past => ?_⟩
  · rw [plugins] at listed
    obtain ⟨named, returned⟩ := called.entry other q listed
    have apart : q ≠ p := by
      rintro rfl
      exact busy returned
    rw [name, call, Function.update_of_ne apart]
    exact ⟨named, returned⟩
  · rw [created] at bound
    have unused := called.fresh q bound
    have apart : q ≠ p := by
      rintro rfl
      exact begun unused
    rwa [call, Function.update_of_ne apart]
  · rw [call] at unborn
    by_cases same : q = p
    · rw [same, Function.update_self] at unborn
      exact (unborn.elim onward.1 onward.2).elim
    · rw [Function.update_of_ne same] at unborn
      rw [alive q same]
      exact called.unborn q unborn
  · rw [watch] at watched
    have apart : q ≠ p := by
      rintro rfl
      exact watched idle
    rw [call, Function.update_of_ne apart]
    exact called.watched q watched
  · rw [watch] at past
    have apart : q ≠ p := by
      rintro rfl
      rw [idle] at past
      cases past
    rw [alive q apart]
    exact called.gone q past

theorem called_start (m : Manager) (cfg : PluginConfig) (count : Nat) (restarter : Option Nat) (called : Called m) :
    Called (m.startPlugin cfg count restarter) := by
  have unused := called.fresh m.created (Nat.le_refl _)
  have elsewhere : ∀ q, m.call q ≠ .idle → q ≠ m.created := by
    rintro q begun rfl
    exact begun unused
  refine ⟨fun other q listed => ?_, fun q bound => ?_, fun q unborn => ?_, fun q watched => ?_, called.gone⟩
  · obtain ⟨named, returned⟩ := called.entry other q listed
    have apart : q ≠ m.created := elsewhere q (by rw [returned]; exact fun no => nomatch no)
    simp only [startPlugin, name, Function.update_of_ne apart]
    exact ⟨named, returned⟩
  · simp only [startPlugin] at bound ⊢
    rw [Function.update_of_ne (by omega)]
    exact called.fresh q (by omega)
  · simp only [startPlugin] at unborn ⊢
    by_cases same : q = m.created
    · exact called.unborn q (.inl (same ▸ unused))
    · rw [Function.update_of_ne same] at unborn
      exact called.unborn q unborn
  · have returned := called.watched q watched
    have apart : q ≠ m.created := elsewhere q (by rw [returned]; exact fun no => nomatch no)
    simpa only [startPlugin, Function.update_of_ne apart] using returned

theorem called_insert (m next : Manager) (p : Nat) (called : Called m) (here : m.call p = .ready)
    (plugins : next.plugins = update m.plugins (m.name p) (some p)) (created : next.created = m.created)
    (config : next.config = m.config) (call : next.call = update m.call p (.returned true)) (alive : next.alive = m.alive)
    (watch : next.watch = update m.watch p .waiting) : Called next := by
  have name : next.name = m.name := by
    funext q
    rw [name, name, config]
  refine ⟨fun other q listed => ?_, fun q bound => ?_, fun q unborn => ?_, fun q watched => ?_, fun q past => ?_⟩
  · rw [plugins] at listed
    rw [name, call]
    by_cases this : other = m.name p
    · rw [this, Function.update_self, Option.some.injEq] at listed
      rw [← listed, Function.update_self]
      exact ⟨this.symm, rfl⟩
    · rw [Function.update_of_ne this] at listed
      obtain ⟨named, returned⟩ := called.entry other q listed
      refine ⟨named, ?_⟩
      by_cases same : q = p
      · rw [same, Function.update_self]
      · rwa [Function.update_of_ne same]
  · rw [created] at bound
    have unused := called.fresh q bound
    have apart : q ≠ p := by
      rintro rfl
      rw [here] at unused
      cases unused
    rwa [call, Function.update_of_ne apart]
  · rw [call] at unborn
    rw [alive]
    by_cases same : q = p
    · rw [same, Function.update_self] at unborn
      rcases unborn with no | no
      · cases no
      · cases no
    · rw [Function.update_of_ne same] at unborn
      exact called.unborn q unborn
  · rw [watch] at watched
    rw [call]
    by_cases same : q = p
    · rw [same, Function.update_self]
    · rw [Function.update_of_ne same] at watched ⊢
      exact called.watched q watched
  · rw [watch] at past
    rw [alive]
    by_cases same : q = p
    · rw [same, Function.update_self] at past
      cases past
    · rw [Function.update_of_ne same] at past
      exact called.gone q past

theorem past_watching (m : Manager) (p : Nat) (past : (m.watch p).past = true) : m.watch p ≠ .idle := by
  intro idle
  rw [idle] at past
  cases past

theorem turn_dead (m : Manager) (p : Nat) (pc : WatchPc) (called : Called m) (turn : m.watchTurn p = some pc) :
    m.watch p ≠ .idle ∧ m.alive p = false := by
  cases here : m.watch p with
  | idle => simp [watchTurn, here] at turn
  | waiting =>
      refine ⟨(fun no => nomatch no), ?_⟩
      simp only [watchTurn, here] at turn
      split at turn
      next => cases turn
      next dead => simpa using dead
  | _ => exact ⟨(fun no => nomatch no), called.gone p (by rw [here]; rfl)⟩

theorem called_step (m : Manager) (action : Action) (next : Manager) (called : Called m) (moves : Moves m action next) :
    Called next := by
  have watching : ∀ p pc, m.watch p = pc → pc.past = true → m.watch p ≠ .idle ∧ m.alive p = false :=
    fun p pc here past => ⟨past_watching m p (here ▸ past), called.gone p (here ▸ past)⟩
  cases moves with
  | start cfg => exact called_start m _ 0 none called
  | failStart p here =>
      exact called_call m _ p (.returned false) called (by simp [here]) (by simp [here]) (by simp) rfl rfl rfl rfl
        (fun _ _ => rfl) rfl
  | spawn p here =>
      exact called_call m _ p .handshaking called (by simp [here]) (by simp [here]) (by simp) rfl rfl rfl rfl
        (fun q other => Function.update_of_ne other _ _) rfl
  | ready p here =>
      exact called_call m _ p .ready called (by simp [here]) (by simp [here]) (by simp) rfl rfl rfl rfl (fun _ _ => rfl) rfl
  | abandon p here =>
      exact called_call m _ p (.returned false) called (by simp [here]) (by simp [here]) (by simp) rfl rfl rfl rfl
        (fun _ _ => rfl) rfl
  | refuse p here stopping =>
      exact called_call m _ p .aborting called (by simp [here]) (by simp [here]) (by simp) rfl rfl rfl rfl
        (fun _ _ => rfl) rfl
  | insert p here stopping => exact called_insert m _ p called here rfl rfl rfl rfl rfl rfl
  | abort p here =>
      exact called_call m _ p (.returned false) called (by simp [here]) (by simp [here]) (by simp) rfl rfl rfl rfl
        (fun _ _ => rfl) rfl
  | exit p alive =>
      have fewer : ∀ q, m.alive q = false → update m.alive p false q = false := by
        intro q dead
        by_cases same : q = p
        · simp [same]
        · rwa [Function.update_of_ne same]
      exact ⟨called.entry, called.fresh, fun q unborn => fewer q (called.unborn q unborn), called.watched,
        fun q past => fewer q (called.gone q past)⟩
  | turn p pc turn =>
      obtain ⟨watched, dead⟩ := turn_dead m p pc called turn
      exact called_watch m p pc called watched dead
  | restart p here =>
      obtain ⟨watched, dead⟩ := watching p _ here rfl
      exact called_watch (m.startPlugin (m.config p) (m.restarts p + 1) (some p)) p _ (called_start m _ _ _ called) watched
        dead
  | halt p next here listed other =>
      obtain ⟨watched, dead⟩ := watching p _ here rfl
      exact called_watch (m.beginStop next) p _ (called_same m _ called rfl rfl rfl rfl rfl rfl) watched dead
  | halted p here =>
      obtain ⟨watched, dead⟩ := watching p _ here rfl
      exact called_watch m p _ called watched dead
  | elapse p here =>
      obtain ⟨watched, dead⟩ := watching p _ here rfl
      exact called_watch m p _ called watched dead
  | wake p here =>
      obtain ⟨watched, dead⟩ := watching p _ here rfl
      exact called_watch m p _ called watched dead
  | remove s p here same =>
      refine ⟨fun name q listed => ?_, called.fresh, called.unborn, called.watched, called.gone⟩
      by_cases this : name = m.name p
      · simp [this] at listed
      · simp only [Function.update_of_ne this] at listed
        exact called.entry name q listed
  | _ => exact called_same m _ called rfl rfl rfl rfl rfl rfl

theorem name_start (m : Manager) (cfg : PluginConfig) (count : Nat) (restarter : Option Nat) (p : Nat)
    (other : p ≠ m.created) : (m.startPlugin cfg count restarter).name p = m.name p := by
  simp only [startPlugin, name, Function.update_of_ne other]

theorem finished_stays (m : Manager) (action : Action) (next : Manager) (called : Called m) (moves : Moves m action next)
    (p : Nat) (finished : m.watch p = .finished) : next.watch p = .finished := by
  have elsewhere : ∀ q pc, m.watch q ≠ .finished → update m.watch q pc p = .finished := by
    intro q pc busy
    have other : p ≠ q := by
      rintro rfl
      exact busy finished
    rwa [Function.update_of_ne other]
  cases moves with
  | insert q here stopping =>
      refine elsewhere q _ fun done => ?_
      have returned := called.watched q (by rw [done]; exact fun no => nomatch no)
      rw [here] at returned
      cases returned
  | turn q pc turn =>
      refine elsewhere q _ fun done => ?_
      simp [watchTurn, done] at turn
  | restart q here => exact elsewhere q _ (by rw [here]; exact fun no => nomatch no)
  | halt q other here listed apart => exact elsewhere q _ (by rw [here]; exact fun no => nomatch no)
  | halted q here => exact elsewhere q _ (by rw [here]; exact fun no => nomatch no)
  | elapse q here => exact elsewhere q _ (by rw [here]; exact fun no => nomatch no)
  | wake q here => exact elsewhere q _ (by rw [here]; exact fun no => nomatch no)
  | _ => exact finished

inductive StopTurn (m next : Manager) (s : Nat) : Prop where
  | same (stop : next.stop s = m.stop s) (stops : m.stops ≤ next.stops)
  | begins (p : Nat) (fresh : s = m.stops) (stops : next.stops = m.stops + 1) (holding : next.stop s = .holding p)
  | moved (busy : m.stop s ≠ .idle) (stops : next.stops = m.stops)
      (removing : ∀ p, next.stop s = .removing p → m.watch p = .finished)
      (begun : ∀ p, (m.stop s).begun = some p →
        (next.stop s).begun = some p ∨ m.watch p = .finished ∨ next.killed p = true)
      (target : ∀ p, (m.stop s).target = some p →
        (next.stop s).target = some p ∨ next.watch p ≠ .finished ∨ next.plugins (m.name p) ≠ some p)

theorem stop_begins (m next : Manager) (s p : Nat) (stops : next.stops = m.stops + 1)
    (stop : next.stop = update m.stop m.stops (.holding p)) : StopTurn m next s := by
  by_cases same : s = m.stops
  · exact .begins p same stops (by rw [stop, same, Function.update_self])
  · exact .same (by rw [stop, Function.update_of_ne same]) (by omega)

theorem stop_moves (m next : Manager) (s t : Nat) (pc : StopPc) (busy : m.stop t ≠ .idle) (stops : next.stops = m.stops)
    (stop : next.stop = update m.stop t pc) (removing : ∀ p, pc = .removing p → m.watch p = .finished)
    (begun : ∀ p, (m.stop t).begun = some p → pc.begun = some p ∨ m.watch p = .finished ∨ next.killed p = true)
    (target : ∀ p, (m.stop t).target = some p →
      pc.target = some p ∨ next.watch p ≠ .finished ∨ next.plugins (m.name p) ≠ some p) : StopTurn m next s := by
  by_cases same : s = t
  · have here : next.stop s = pc := by rw [stop, same, Function.update_self]
    refine .moved (same ▸ busy) stops (by rwa [here]) ?_ ?_
    · rw [here, same]
      exact begun
    · rw [here, same]
      exact target
  · exact .same (by rw [stop, Function.update_of_ne same]) (by omega)

theorem stop_step (m : Manager) (action : Action) (next : Manager) (moves : Moves m action next) (s : Nat) :
    StopTurn m next s := by
  have begunAt : ∀ t pc p, m.stop t = pc → (m.stop t).begun = some p → pc.begun = some p := fun t pc p here => here ▸ id
  have targetAt : ∀ t pc p, m.stop t = pc → (m.stop t).target = some p → pc.target = some p := fun t pc p here => here ▸ id
  cases moves with
  | halt p other here listed apart => exact stop_begins m _ s other rfl rfl
  | lookup name p listed => exact stop_begins m _ s p rfl rfl
  | nextStop a p rest here member => exact stop_begins m _ s p rfl rfl
  | mark t p here =>
      exact stop_moves m _ s t (.waiting p) (by simp [here]) rfl rfl (fun _ no => nomatch no)
        (fun q begun => .inl (begunAt t (.holding p) q here begun)) fun q target => .inl (targetAt t (.holding p) q here target)
  | stopDone t p here finished =>
      refine stop_moves m _ s t (.checking p) (by simp [here]) rfl rfl (fun _ no => nomatch no) (fun q begun => .inr (.inl ?_))
        fun q target => .inl (targetAt t (.waiting p) q here target)
      exact Option.some.inj (begunAt t (.waiting p) q here begun) ▸ finished
  | stopKill t p here =>
      refine stop_moves m _ s t (.checking p) (by simp [here]) rfl rfl (fun _ no => nomatch no) (fun q begun => .inr (.inr ?_))
        fun q target => .inl (targetAt t (.waiting p) q here target)
      exact Option.some.inj (begunAt t (.waiting p) q here begun) ▸ Function.update_self _ _ _
  | seenDone t p here finished =>
      refine stop_moves m _ s t (.removing p) (by simp [here]) rfl rfl (fun q same => ?_)
        (fun q begun => nomatch begunAt t (.checking p) q here begun)
        fun q target => .inl (targetAt t (.checking p) q here target)
      cases same
      exact finished
  | givenUp t p here busy =>
      refine stop_moves m _ s t .returned (by simp [here]) rfl rfl (fun _ no => nomatch no)
        (fun q begun => nomatch begunAt t (.checking p) q here begun) fun q target => .inr (.inl ?_)
      exact Option.some.inj (targetAt t (.checking p) q here target) ▸ busy
  | remove t p here same =>
      refine stop_moves m _ s t .returned (by simp [here]) rfl rfl (fun _ no => nomatch no)
        (fun q begun => nomatch begunAt t (.removing p) q here begun) fun q target => .inr (.inr ?_)
      have this : p = q := Option.some.inj (targetAt t (.removing p) q here target)
      simp [this]
  | keep t p here other =>
      refine stop_moves m _ s t .returned (by simp [here]) rfl rfl (fun _ no => nomatch no)
        (fun q begun => nomatch begunAt t (.removing p) q here begun) fun q target => .inr (.inr ?_)
      exact Option.some.inj (targetAt t (.removing p) q here target) ▸ other
  | _ => exact .same rfl (Nat.le_refl _)

theorem free_step (m : Manager) (action : Action) (next : Manager) (moves : Moves m action next)
    (free : ∀ s, m.stops ≤ s → m.stop s = .idle) (s : Nat) (bound : next.stops ≤ s) : next.stop s = .idle := by
  cases stop_step m action next moves s with
  | same stop stops => exact stop.trans (free s (by omega))
  | begins p fresh stops holding => omega
  | moved busy stops removing begun target => exact absurd (free s (by omega)) busy

theorem removing_step (m : Manager) (action : Action) (next : Manager) (called : Called m) (moves : Moves m action next)
    (removing : ∀ s p, m.stop s = .removing p → m.watch p = .finished) (s p : Nat) (here : next.stop s = .removing p) :
    next.watch p = .finished := by
  apply finished_stays m action next called moves p
  cases stop_step m action next moves s with
  | same stop stops => exact removing s p (stop ▸ here)
  | begins q fresh stops holding =>
      rw [holding] at here
      cases here
  | moved busy stops finished begun target => exact finished p here

end Manager

end Brainkit.Plugins
