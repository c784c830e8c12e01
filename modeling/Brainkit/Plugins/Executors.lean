import Brainkit.Plugins.ToolRefs

set_option autoImplicit false

namespace Brainkit.Plugins

open Function (update)
open Transition GoText

namespace WSServer

def Pending (m : WSServer) (name : GoString) : Prop := ∃ k rest, m.call k = .removing rest ∧ name ∈ rest

-- What is in the registry has a reference, or its reference is about to be counted, or it is about to be unregistered.
def Referenced (m : WSServer) : Prop :=
  ∀ name c, m.tools name = some c → name ∈ m.refs.toolRefs ∨ (∃ rest, m.handler c = .counting name rest) ∨ m.Pending name

-- An open connection that is current under its name has its executors in the registry, until another one of its name
-- begins to register.
def Served (m : WSServer) : Prop :=
  ∀ c, (m.handler c).put = true → m.closed c = false → m.conns (m.plugin c) = some c →
    m.heirs (m.plugin c) ≠ [] ∨ ∀ name ∈ m.announced c, m.tools name = some c

theorem tools_before (m : WSServer) (action : Action) (next : WSServer) (moves : Moves m action next) (name : GoString)
    (c : Nat) (found : next.tools name = some c) :
    m.tools name = some c ∨ ∃ rest, next.handler c = .counting name rest := by
  cases moves with
  | registerTool d first rest here =>
      by_cases same : name = first
      · simp only [same, Function.update_self, Option.some.injEq] at found
        subst found
        exact .inr ⟨rest, by simp [same]⟩
      · simp only [Function.update_of_ne same] at found
        exact .inl found
  | unregister k first rest here =>
      by_cases same : name = first
      · simp [same] at found
      · simp only [Function.update_of_ne same] at found
        exact .inl found
  | _ => exact .inl found

theorem refs_before (m : WSServer) (action : Action) (next : WSServer) (moves : Moves m action next) (name : GoString)
    (held : name ∈ m.refs.toolRefs) : name ∈ next.refs.toolRefs ∨ next.Pending name := by
  cases moves with
  | countTool d first rest here => exact .inl (Multiset.mem_add.mpr (.inl held))
  | decrement k plugin names here =>
      by_cases still : name ∈ (m.refs.decrementPluginToolRefs plugin names).1.toolRefs
      · exact .inl still
      · exact .inr ⟨k, _, Function.update_self _ _ _, ToolRefs.decrement_removes plugin names m.refs name held still⟩
  | _ => exact .inl held

theorem counting_before (m : WSServer) (action : Action) (next : WSServer) (connected : Connected m)
    (moves : Moves m action next) (name : GoString) (c : Nat) (rest : List GoString)
    (here : m.handler c = .counting name rest) : next.handler c = .counting name rest ∨ name ∈ next.refs.toolRefs := by
  cases handler_step m action next moves c with
  | same handler => exact .inl (handler.trans here)
  | counts first left before _ counted _ =>
      rw [here] at before
      cases before
      exact .inr counted
  | accepts new _ _ =>
      have old := known_of_handler m c connected (by rw [here]; exact fun no => nomatch no)
      omega
  | returns before _ => simp [here] at before
  | registers _ _ before _ | replaces _ before _ _ _ _ | puts before _ _ _ | closes _ before _ _ | cleaned _ before _
  | cleanedOwn before _ _ | reads before _ | fails before _ _ =>
      rw [here] at before
      cases before

theorem pending_before (m : WSServer) (action : Action) (next : WSServer) (connected : Connected m)
    (moves : Moves m action next) (name : GoString) (pending : m.Pending name) : next.Pending name ∨ next.tools name = none := by
  obtain ⟨k, rest, removing, member⟩ := pending
  have elsewhere : ∀ j pc, m.call j ≠ .removing rest → update m.call j pc k = .removing rest := by
    intro j pc busy
    have other : k ≠ j := by
      rintro rfl
      exact busy removing
    rwa [Function.update_of_ne other]
  cases moves with
  | cleanup d p here first =>
      exact .inl ⟨k, rest, elsewhere (.cleanup p) _ (by rw [first]; exact fun no => nomatch no), member⟩
  | stopPlugin plugin =>
      have idle := connected.unstopped m.stops (Nat.le_refl _)
      exact .inl ⟨k, rest, elsewhere (.stop m.stops) _ (by rw [idle]; exact fun no => nomatch no), member⟩
  | stopFailed s plugin here =>
      exact .inl ⟨k, rest, elsewhere (.stop s) _ (by rw [here]; exact fun no => nomatch no), member⟩
  | listPluginRefs s plugin names here =>
      exact .inl ⟨k, rest, elsewhere (.stop s) _ (by rw [here]; exact fun no => nomatch no), member⟩
  | decrement j plugin names here =>
      exact .inl ⟨k, rest, elsewhere j _ (by rw [here]; exact fun no => nomatch no), member⟩
  | unregister j first left here =>
      by_cases this : k = j
      · subst this
        rw [here] at removing
        cases removing
        rcases List.mem_cons.mp member with rfl | later
        · exact .inr (Function.update_self _ _ _)
        · exact .inl ⟨k, left, Function.update_self _ _ _, later⟩
      · exact .inl ⟨k, rest, by simpa only [Function.update_of_ne this] using removing, member⟩
  | unregistered j here =>
      have other : k ≠ j := by
        rintro rfl
        rw [here] at removing
        cases removing
        cases member
      exact .inl ⟨k, rest, by simpa only [Function.update_of_ne other] using removing, member⟩
  | _ => exact .inl ⟨k, rest, removing, member⟩

theorem referenced_step (m : WSServer) (action : Action) (next : WSServer) (connected : Connected m)
    (referenced : Referenced m) (moves : Moves m action next) : Referenced next := by
  intro name c found
  rcases tools_before m action next moves name c found with before | counting
  · rcases referenced name c before with held | ⟨rest, counting⟩ | pending
    · exact (refs_before m action next moves name held).imp_right .inr
    · rcases counting_before m action next connected moves name c rest counting with still | held
      · exact .inr (.inl ⟨rest, still⟩)
      · exact .inl held
    · rcases pending_before m action next connected moves name pending with still | gone
      · exact .inr (.inr still)
      · rw [found] at gone
        cases gone
  · exact .inr (.inl counting)

theorem mem_heirs (m : WSServer) (plugin : GoString) (e : Nat) : e ∈ m.heirs plugin ↔
    e < m.accepted ∧ (m.handler e).registers = true ∧ m.plugin e = plugin := by
  simp only [heirs, List.mem_filter, List.mem_range, Bool.and_eq_true, decide_eq_true_eq]

theorem heir_stays (m : WSServer) (action : Action) (next : WSServer) (moves : Moves m action next) (plugin : GoString)
    (e : Nat) (heir : e ∈ m.heirs plugin) : e ∈ next.heirs plugin ∨ next.conns plugin = some e := by
  obtain ⟨known, registers, named⟩ := (mem_heirs m plugin e).mp heir
  have more : m.accepted ≤ next.accepted := by rcases accepted_step m action next moves with same | ⟨more, _⟩ <;> omega
  have stays : (next.handler e).registers = true → e ∈ next.heirs plugin := fun still =>
    (mem_heirs next plugin e).mpr ⟨by omega, still, (plugin_stays m action next moves e known).trans named⟩
  cases handler_step m action next moves e with
  | same handler => exact .inl (stays (handler ▸ registers))
  | accepts new _ _ => omega
  | registers _ _ _ handler | counts _ _ _ _ _ handler => exact .inl (stays (by rw [handler]; rfl))
  | replaces _ _ _ _ listed _ => exact .inr (named ▸ listed)
  | puts _ _ listed _ => exact .inr (named ▸ listed)
  | returns here _ => rcases here with here | ⟨here, _⟩ <;> rw [here] at registers <;> cases registers
  | closes _ here _ _ | cleaned _ here _ | cleanedOwn here _ _ | reads here _ | fails here _ _ =>
      rw [here] at registers
      cases registers

theorem executor_stays (m : WSServer) (action : Action) (next : WSServer) (sound : Sound m action)
    (moves : Moves m action next) (name : GoString) (c : Nat) (found : m.tools name = some c) :
    next.tools name = some c ∨ m.closed c = true ∨ m.heirs (m.plugin c) ≠ [] := by
  cases moves with
  | registerTool d first rest here =>
      by_cases same : name = first
      · subst same
        exact .inr (sound name (by simp [here, HandlerPc.nextTool]) c found)
      · exact .inl ((Function.update_of_ne same _ _).trans found)
  | unregister k first rest here =>
      by_cases same : name = first
      · subst same
        exact .inr (sound name (by simp [here, CallPc.nextName]) c found)
      · exact .inl ((Function.update_of_ne same _ _).trans found)
  | _ => exact .inl found

theorem served_step (m : WSServer) (action : Action) (next : WSServer) (connected : Connected m) (served : Served m)
    (sound : Sound m action) (moves : Moves m action next) : Served next := by
  intro c put opened current
  have before := open_before m action next moves c opened
  have goesOn : c < m.accepted → ∀ e ∈ m.heirs (m.plugin c), e ≠ c → next.heirs (next.plugin c) ≠ [] := by
    intro known e heir other
    have named := plugin_stays m action next moves c known
    rw [named] at current ⊢
    rcases heir_stays m action next moves (m.plugin c) e heir with still | placed
    · exact List.ne_nil_of_mem still
    · rw [current, Option.some.injEq] at placed
      exact absurd placed.symm other
  have waits : (m.handler c).put = true →
      next.heirs (next.plugin c) ≠ [] ∨ ∀ name ∈ next.announced c, next.tools name = some c := by
    intro already
    have known := put_old m c connected already
    have heirs : m.heirs (m.plugin c) ≠ [] → next.heirs (next.plugin c) ≠ [] := by
      intro some
      obtain ⟨e, heir⟩ := List.exists_mem_of_ne_nil _ some
      refine goesOn known e heir ?_
      rintro rfl
      have early := HandlerPc.put_of_registers _ ((mem_heirs m _ e).mp heir).2.1
      exact Bool.false_ne_true (early.symm.trans already)
    have listed : m.conns (m.plugin c) = some c := by
      rw [plugin_stays m action next moves c known] at current
      rcases conns_step m action next moves _ c current with was | ⟨_, registering, _⟩
      · exact was
      · rw [registering] at already
        cases already
    rcases served c already before listed with some | tools
    · exact .inl (heirs some)
    · by_cases none : m.heirs (m.plugin c) = []
      swap
      · exact .inl (heirs none)
      refine .inr fun name member => ?_
      rw [announced_stays m action next moves c known] at member
      rcases executor_stays m action next sound moves name c (tools name member) with still | closed | some
      · exact still
      · exact absurd (before.symm.trans closed) Bool.false_ne_true
      · exact absurd none some
  have arrives : m.handler c = .registering [] → action = .putConn c →
      next.heirs (next.plugin c) ≠ [] ∨ ∀ name ∈ next.announced c, next.tools name = some c := by
    intro registering taken
    have known := known_of_handler m c connected (by rw [registering]; exact fun no => nomatch no)
    have same : next.tools = m.tools := by
      subst taken
      cases moves <;> rfl
    subst taken
    rcases sound with closed | ⟨e, heir, other⟩ | tools
    · exact absurd (before.symm.trans closed) Bool.false_ne_true
    · exact .inl (goesOn known e heir other)
    · rw [announced_stays m _ next moves c known, same]
      exact .inr tools
  cases handler_step m action next moves c with
  | same handler => exact waits (handler ▸ put)
  | replaces _ here _ taken _ _ => exact arrives here taken
  | puts here taken _ _ => exact arrives here taken
  | accepts _ _ handler | registers _ _ _ handler | counts _ _ _ _ _ handler =>
      rw [handler] at put
      cases put
  | returns here _ => exact waits (by rcases here with here | ⟨here, _⟩ <;> rw [here] <;> rfl)
  | closes _ here _ _ | cleaned _ here _ | cleanedOwn here _ _ | reads here _ | fails here _ _ =>
      exact waits (by rw [here]; rfl)

theorem live_iff (m : WSServer) (c : Nat) : m.live c = true ↔ m.handler c = .reading ∧ m.closed c = false := by
  simp [live]

theorem quiet_handler (m : WSServer) (connected : Connected m) (quiet : Quiet m) (c : Nat) :
    m.handler c = .idle ∨ m.handler c = .returned ∨ m.live c = true := by
  by_cases known : c < m.accepted
  · exact .inr (quiet.1 c known)
  · exact .inl (connected.fresh c (by omega)).1

theorem quiet_call (m : WSServer) (connected : Connected m) (quiet : Quiet m) (k : Caller) :
    m.call k = .idle ∨ m.call k = .returned := by
  cases k with
  | cleanup c =>
      by_cases known : c < m.accepted
      · exact quiet.2.1 c known
      · exact .inl (connected.fresh c (by omega)).2.2.2
  | stop s =>
      by_cases known : s < m.stops
      · exact .inr (quiet.2.2 s known)
      · exact .inl (connected.unstopped s (by omega))

theorem quiet_still (m : WSServer) (connected : Connected m) (quiet : Quiet m) (c : Nat) :
    m.handler c = .idle ∨ m.handler c = .returned ∨ m.handler c = .reading :=
  (quiet_handler m connected quiet c).imp_right (Or.imp_right fun live => ((live_iff m c).mp live).1)

theorem quiet_tools (m : WSServer) (connected : Connected m) (quiet : Quiet m) (c : Nat) (known : c < m.accepted) :
    m.live c = true ∧ m.closed c = false ∧ m.connTools c = m.announced c ∨
      m.live c = false ∧ m.closed c = true ∧ m.connTools c = [] := by
  cases live : m.live c with
  | true =>
      obtain ⟨reading, opened⟩ := (live_iff m c).mp live
      have idle : m.call (.cleanup c) = .idle := by
        by_contra entered
        exact Bool.false_ne_true (opened.symm.trans (connected.entered c entered).1)
      have all := connected.kept c (by rw [reading]; exact fun no => nomatch no) idle
      rw [reading, show HandlerPc.reading.left = [] from rfl, List.append_nil] at all
      exact .inl ⟨rfl, opened, all⟩
  | false =>
      rcases quiet.1 c known with returned | lives
      · obtain ⟨closed, _, none⟩ := connected.entered c (connected.ended c (.inr returned))
        exact .inr ⟨rfl, closed, none⟩
      · exact absurd (live.symm.trans lives) Bool.false_ne_true

theorem quiet_counted (m : WSServer) (connected : Connected m) (quiet : Quiet m) (counted : Counted m) :
    m.refs.toolRefs = m.registrations := by
  have names : ∀ c, (m.call (.cleanup c)).names = [] := by
    intro c
    rcases quiet_call m connected quiet (.cleanup c) with idle | returned
    · rw [idle]
      rfl
    · rw [returned]
      rfl
  have least : m.openTools = m.registrations := by
    refine Ledger.total_congr fun c known => ?_
    rcases quiet_tools m connected quiet c known with ⟨live, opened, tools⟩ | ⟨dead, closed, _⟩
    · rw [open_holds_open m c opened, tools, if_pos live]
    · rw [open_holds_closed m c closed, if_neg (by rw [dead]; exact Bool.false_ne_true)]
  have most : Ledger.total m.accepted m.holds = m.registrations := by
    refine Ledger.total_congr fun c known => ?_
    rw [holds, names]
    rcases quiet_tools m connected quiet c known with ⟨live, _, tools⟩ | ⟨dead, _, none⟩
    · rw [tools, if_pos live, Multiset.coe_nil, add_zero]
    · rw [none, if_neg (by rw [dead]; exact Bool.false_ne_true), Multiset.coe_nil, add_zero]
  exact le_antisymm (most ▸ counted.most) (least ▸ counted.least)

theorem quiet_announced (m : WSServer) (connected : Connected m) (quiet : Quiet m) (served : Served m) (c : Nat)
    (live : m.live c = true) : ∀ name ∈ m.announced c, m.tools name = some c := by
  obtain ⟨reading, opened⟩ := (live_iff m c).mp live
  have put : (m.handler c).put = true := by
    rw [reading]
    rfl
  have current : m.conns (m.plugin c) = some c := by
    rcases connected.current c put opened with listed | ⟨d, replacing⟩
    · exact listed
    · rcases quiet_still m connected quiet d with still | still | still <;> rw [replacing] at still <;> cases still
  rcases served c put opened current with heirs | tools
  · obtain ⟨e, heir⟩ := List.exists_mem_of_ne_nil _ heirs
    have registers := ((mem_heirs m _ e).mp heir).2.1
    rcases quiet_still m connected quiet e with still | still | still <;> rw [still] at registers <;> cases registers
  · exact tools

theorem quiet_remaining (m : WSServer) (connected : Connected m) (quiet : Quiet m) (counted : Counted m)
    (referenced : Referenced m) (served : Served m) (name : GoString) (c : Nat) (found : m.tools name = some c) :
    m.live c = true ∧ name ∈ m.announced c := by
  rcases referenced name c found with held | ⟨rest, counting⟩ | ⟨k, rest, removing, _⟩
  · rw [quiet_counted m connected quiet counted, registrations, Ledger.mem_total] at held
    obtain ⟨e, _, member⟩ := held
    split at member
    next live =>
      have own := quiet_announced m connected quiet served e live name (Multiset.mem_coe.mp member)
      rw [found, Option.some.injEq] at own
      exact own ▸ ⟨live, Multiset.mem_coe.mp member⟩
    next => cases Multiset.notMem_zero _ member
  · rcases quiet_still m connected quiet c with still | still | still <;> rw [counting] at still <;> cases still
  · rcases quiet_call m connected quiet k with still | still <;> rw [removing] at still <;> cases still

theorem tools_consistent (path : List Action) (m : WSServer) (sound : Along step Sound initial path)
    (reached : run step initial path = some m) (quiet : Quiet m) : Consistent m := by
  have keeps : ∀ state action next, Connected state ∧ Counted state ∧ Referenced state ∧ Served state →
      Sound state action → step state action = some next →
      Connected next ∧ Counted next ∧ Referenced next ∧ Served next := by
    intro state action next ⟨connected, counted, referenced, served⟩ allowed taken
    have moves := moves_of_step state action next taken
    exact ⟨connected_step state action next connected moves, counted_step state action next connected counted allowed moves,
      referenced_step state action next connected referenced moves,
      served_step state action next connected served allowed moves⟩
  obtain ⟨connected, counted, referenced, served⟩ := along_invariant keeps
    ⟨initial_connected, initial_counted, by simp [Referenced, initial], by simp [Served, initial, HandlerPc.put]⟩ sound reached
  exact {
    announced := quiet_announced m connected quiet served
    remaining := quiet_remaining m connected quiet counted referenced served
    counted := fun name => by rw [quiet_counted m connected quiet counted] }

instance (m : WSServer) : Decidable m.Quiet := inferInstanceAs (Decidable (_ ∧ _ ∧ _))

instance (m : WSServer) (name : GoString) : Decidable (m.Spares name) :=
  inferInstanceAs (Decidable (∀ c ∈ m.tools name, m.closed c = true ∨ m.heirs (m.plugin c) ≠ []))

instance (m : WSServer) (action : Action) : Decidable (m.Sound action) := by
  cases action <;> unfold Sound <;> infer_instance

def echo : Manifest := ⟨lit "acme", lit "echo", lit "1.0.0", [lit "say"]⟩

def say : GoString := lit "acme/echo@1.0.0/say"

def connect (c : Nat) : List Action := [.accept echo, .registerTool c, .countTool c, .putConn c, .startReading c]

def stop (c s : Nat) : List Action :=
  [.stopPlugin (lit "echo"), .disconnect c, .listPluginRefs s [say], .decrement (.stop s), .unregister (.stop s),
    .unregister (.stop s)]

-- The plugin connects, connects again in its place, and is stopped before its connection is cleaned up; then it connects a
-- third time.
def reconnectAndStop : List Action :=
  connect 0 ++
    ([.accept echo, .registerTool 1, .countTool 1, .putConn 1, .closePrevious 1, .cleanup 1, .decrement (.cleanup 0),
      .unregister (.cleanup 0), .cleanedUp 1, .startReading 1, .readFailed 0, .cleanedUp 0, .removeConn 0] : List Action) ++
    stop 1 0 ++
    ([.readFailed 1, .cleanup 1, .decrement (.cleanup 1), .unregister (.cleanup 1), .cleanedUp 1,
      .removeConn 1] : List Action) ++
    connect 2

theorem reconnect_and_stop_consistent : ∃ m, run step initial reconnectAndStop = some m ∧ Consistent m := by
  obtain ⟨m, reached, quiet⟩ := Option.map_eq_some_iff.mp
    (show (run step initial reconnectAndStop).map (fun m => decide m.Quiet) = some true by decide +kernel)
  have sound : Along step Sound initial reconnectAndStop := by decide +kernel
  exact ⟨m, reached, tools_consistent reconnectAndStop m sound reached (of_decide_eq_true quiet)⟩

theorem connections_succeed (path : List Action) (m : WSServer) (reached : run step initial path = some m) :
    (∀ name c, m.conns name = some c → m.plugin c = name ∧ (m.handler c).put = true) ∧
      (∀ c d, (m.handler c).put = true → (m.handler d).put = true → m.closed c = false → m.closed d = false →
        m.plugin c = m.plugin d → c = d ∨ ∃ e, m.handler e = .replacing c ∨ m.handler e = .replacing d) ∧
      (∀ c, m.handler c = .removing ∨ m.handler c = .returned → m.closed c = true ∧ m.connTools c = []) ∧
      ∀ c, m.handler c ≠ .idle → m.call (.cleanup c) = .idle → m.connTools c ++ (m.handler c).left = m.announced c := by
  have connected : Connected m := run_invariant
    (fun state action next connected taken => connected_step state action next connected (moves_of_step state action next taken))
    initial_connected reached
  refine ⟨fun name c listed => (connected.conns name c listed).symm, fun c d put also opened open' same => ?_,
    fun c gone => ?_, connected.kept⟩
  · rcases connected.current c put opened with listed | ⟨e, replacing⟩
    · rcases connected.current d also open' with other | ⟨e, replacing⟩
      · rw [same, other, Option.some.injEq] at listed
        exact .inl listed.symm
      · exact .inr ⟨e, .inr replacing⟩
    · exact .inr ⟨e, .inl replacing⟩
  · obtain ⟨closed, -, none⟩ := connected.entered c (connected.ended c gone)
    exact ⟨closed, none⟩

theorem reconnected_succeeds : ∃ m, run step initial reconnectAndStop = some m ∧ m.closed 0 = true ∧ m.connTools 0 = [] :=
  ⟨_, rfl, (connections_succeed reconnectAndStop _ rfl).2.2.1 0 (.inr rfl)⟩

def stopAndReconnect : List Action :=
  connect 0 ++ stop 0 0 ++
    ([.accept echo, .registerTool 1, .countTool 1, .putConn 1, .closePrevious 1, .cleanup 1, .decrement (.cleanup 0),
      .unregister (.cleanup 0), .unregister (.cleanup 0), .cleanedUp 1, .startReading 1, .readFailed 0, .cleanedUp 0,
      .removeConn 0] : List Action)

def reconnectInCleanup : List Action :=
  connect 0 ++
    ([.disconnect 0, .readFailed 0, .cleanup 0, .decrement (.cleanup 0), .accept echo, .registerTool 1, .countTool 1,
      .unregister (.cleanup 0), .unregister (.cleanup 0), .cleanedUp 0, .removeConn 0, .putConn 1,
      .startReading 1] : List Action)

-- StopPlugin takes the references of the first connection, and the cleanup of that connection, when the second replaces
-- it, takes those of the second. And without any StopPlugin, the cleanup of the first connection unregisters the tool that
-- the second has registered since its decrement.
theorem late_cleanup_unregisters :
    (∃ m, Reachable step initial m ∧ m.Quiet ∧ m.live 1 = true ∧ say ∈ m.announced 1 ∧ m.tools say = none ∧
      m.refs.toolRefs.count say = 0 ∧ m.registrations.count say = 1) ∧
    (∃ m, Reachable step initial m ∧ m.Quiet ∧ m.live 1 = true ∧ say ∈ m.announced 1 ∧ m.tools say = none) := by
  constructor
  · obtain ⟨m, reached, checked⟩ := reachable_checked stopAndReconnect
      (fun m => m.Quiet ∧ m.live 1 = true ∧ say ∈ m.announced 1 ∧ m.tools say = none ∧
        m.refs.toolRefs.count say = 0 ∧ m.registrations.count say = 1)
      (show (run step initial stopAndReconnect).map _ = some true by decide +kernel)
    exact ⟨m, reached, of_decide_eq_true checked⟩
  · obtain ⟨m, reached, checked⟩ := reachable_checked reconnectInCleanup
      (fun m => m.Quiet ∧ m.live 1 = true ∧ say ∈ m.announced 1 ∧ m.tools say = none)
      (show (run step initial reconnectInCleanup).map _ = some true by decide +kernel)
    exact ⟨m, reached, of_decide_eq_true checked⟩

end WSServer

end Brainkit.Plugins
