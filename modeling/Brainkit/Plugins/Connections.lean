import Brainkit.Plugins.WSServer

set_option autoImplicit false

namespace Brainkit.Plugins

open Function (update)
open GoText

def HandlerPc.registers : HandlerPc → Bool
  | .registering _ | .counting _ _ => true
  | _ => false

def HandlerPc.put : HandlerPc → Bool
  | .idle | .registering _ | .counting _ _ => false
  | _ => true

def HandlerPc.left : HandlerPc → List GoString
  | .registering rest => rest
  | .counting name rest => name :: rest
  | _ => []

theorem HandlerPc.put_of_registers (pc : HandlerPc) (registers : pc.registers = true) : pc.put = false := by
  cases pc <;> first | rfl | cases registers

namespace WSServer

structure Connected (m : WSServer) : Prop where
  fresh : ∀ c, m.accepted ≤ c →
    m.handler c = .idle ∧ m.closed c = false ∧ m.connTools c = [] ∧ m.call (.cleanup c) = .idle
  unstopped : ∀ s, m.stops ≤ s → m.call (.stop s) = .idle
  started : ∀ c, c < m.accepted → m.handler c ≠ .idle
  conns : ∀ name c, m.conns name = some c → (m.handler c).put = true ∧ m.plugin c = name
  previous : ∀ c p, m.handler c = .replacing p ∨ m.handler c = .cleaning p → (m.handler p).put = true
  shut : ∀ c p, m.handler c = .cleaning p → m.closed p = true
  leaving : ∀ c, m.handler c = .leaving ∨ m.handler c = .removing → m.closed c = true
  entered : ∀ c, m.call (.cleanup c) ≠ .idle → m.closed c = true ∧ (m.handler c).put = true ∧ m.connTools c = []
  ended : ∀ c, m.handler c = .removing ∨ m.handler c = .returned → m.call (.cleanup c) ≠ .idle
  kept : ∀ c, m.handler c ≠ .idle → m.call (.cleanup c) = .idle → m.connTools c ++ (m.handler c).left = m.announced c
  current : ∀ c, (m.handler c).put = true → m.closed c = false →
    m.conns (m.plugin c) = some c ∨ ∃ d, m.handler d = .replacing c

theorem initial_connected : Connected initial := by
  constructor <;> simp [initial, HandlerPc.put]

inductive HandlerMoves (m : WSServer) (action : Action) (next : WSServer) (c : Nat) : Prop where
  | same (handler : next.handler c = m.handler c)
  | accepts (new : c = m.accepted) (more : next.accepted = m.accepted + 1)
      (handler : next.handler c = .registering (next.announced c))
  | registers (name : GoString) (rest : List GoString) (here : m.handler c = .registering (name :: rest))
      (handler : next.handler c = .counting name rest)
  | counts (name : GoString) (rest : List GoString) (here : m.handler c = .counting name rest)
      (tools : next.connTools c = m.connTools c ++ [name]) (counted : name ∈ next.refs.toolRefs)
      (handler : next.handler c = .registering rest)
  | replaces (p : Nat) (here : m.handler c = .registering []) (listed : m.conns (m.plugin c) = some p)
      (taken : action = .putConn c) (conns : next.conns (m.plugin c) = some c) (handler : next.handler c = .replacing p)
  | puts (here : m.handler c = .registering []) (taken : action = .putConn c) (conns : next.conns (m.plugin c) = some c)
      (handler : next.handler c = .greeting)
  | closes (p : Nat) (here : m.handler c = .replacing p) (closed : next.closed p = true)
      (handler : next.handler c = .cleaning p)
  | cleaned (p : Nat) (here : m.handler c = .cleaning p) (handler : next.handler c = .greeting)
  | cleanedOwn (here : m.handler c = .leaving) (through : m.call (.cleanup c) = .returned)
      (handler : next.handler c = .removing)
  | reads (here : m.handler c = .greeting) (handler : next.handler c = .reading)
  | fails (here : m.handler c = .reading) (closed : m.closed c = true) (handler : next.handler c = .leaving)
  | returns (here : m.handler c = .removing ∨ m.handler c = .greeting ∧ m.call (.cleanup c) ≠ .idle)
      (handler : next.handler c = .returned)

theorem handler_step (m : WSServer) (action : Action) (next : WSServer) (moves : Moves m action next) (c : Nat) :
    HandlerMoves m action next c := by
  have elsewhere : ∀ d pc, c ≠ d → update m.handler d pc c = m.handler c := fun d pc other => Function.update_of_ne other _ _
  cases moves with
  | accept manifest =>
      by_cases this : c = m.accepted
      · exact .accepts this rfl (by simp [accept, announced, this])
      · exact .same (elsewhere m.accepted _ this)
  | registerTool d name rest here =>
      by_cases this : c = d
      · exact .registers name rest (this ▸ here) (this ▸ Function.update_self _ _ _)
      · exact .same (elsewhere d _ this)
  | countTool d name rest here =>
      by_cases this : c = d
      · subst this
        have counted := Multiset.mem_add.mpr (.inr (Multiset.mem_singleton_self name) : name ∈ m.refs.toolRefs ∨ _)
        exact .counts name rest here (Function.update_self _ _ _) counted (Function.update_self _ _ _)
      · exact .same (elsewhere d _ this)
  | replaceConn d previous here listed =>
      by_cases this : c = d
      · subst this
        exact .replaces previous here listed rfl (Function.update_self _ _ _) (Function.update_self _ _ _)
      · exact .same (elsewhere d _ this)
  | newConn d here free =>
      by_cases this : c = d
      · subst this
        exact .puts here rfl (Function.update_self _ _ _) (Function.update_self _ _ _)
      · exact .same (elsewhere d _ this)
  | closePrevious d previous here =>
      by_cases this : c = d
      · exact .closes previous (this ▸ here) (Function.update_self _ _ _) (this ▸ Function.update_self _ _ _)
      · exact .same (elsewhere d _ this)
  | cleanedPrevious d previous here through =>
      by_cases this : c = d
      · exact .cleaned previous (this ▸ here) (this ▸ Function.update_self _ _ _)
      · exact .same (elsewhere d _ this)
  | cleanedOwn d here through =>
      by_cases this : c = d
      · exact .cleanedOwn (this ▸ here) (this ▸ through) (this ▸ Function.update_self _ _ _)
      · exact .same (elsewhere d _ this)
  | removeConn d here same =>
      by_cases this : c = d
      · exact .returns (.inl (this ▸ here)) (this ▸ Function.update_self _ _ _)
      · exact .same (elsewhere d _ this)
  | keepConn d here other =>
      by_cases this : c = d
      · exact .returns (.inl (this ▸ here)) (this ▸ Function.update_self _ _ _)
      · exact .same (elsewhere d _ this)
  | startReading d here kept =>
      by_cases this : c = d
      · exact .reads (this ▸ here) (this ▸ Function.update_self _ _ _)
      · exact .same (elsewhere d _ this)
  | startClosed d here entered =>
      by_cases this : c = d
      · exact .returns (.inr ⟨this ▸ here, this ▸ entered⟩) (this ▸ Function.update_self _ _ _)
      · exact .same (elsewhere d _ this)
  | readFailed d here closed =>
      by_cases this : c = d
      · exact .fails (this ▸ here) (this ▸ closed) (this ▸ Function.update_self _ _ _)
      · exact .same (elsewhere d _ this)
  | _ => exact .same rfl

theorem manifest_stays (m : WSServer) (action : Action) (next : WSServer) (moves : Moves m action next) (c : Nat)
    (old : c ≠ m.accepted) : next.manifest c = m.manifest c := by
  cases moves with
  | accept manifest => exact Function.update_of_ne old _ _
  | _ => rfl

theorem plugin_stays (m : WSServer) (action : Action) (next : WSServer) (moves : Moves m action next) (c : Nat)
    (old : c < m.accepted) : next.plugin c = m.plugin c := by
  rw [plugin, manifest_stays m action next moves c (by omega)]
  rfl

theorem announced_stays (m : WSServer) (action : Action) (next : WSServer) (moves : Moves m action next) (c : Nat)
    (old : c < m.accepted) : next.announced c = m.announced c := by
  rw [announced, manifest_stays m action next moves c (by omega)]
  rfl

theorem closed_stays (m : WSServer) (action : Action) (next : WSServer) (moves : Moves m action next) (c : Nat)
    (closed : m.closed c = true) : next.closed c = true := by
  have elsewhere : ∀ d, update m.closed d true c = true := by
    intro d
    by_cases this : c = d
    · rw [this, Function.update_self]
    · rw [Function.update_of_ne this, closed]
  cases moves with
  | closePrevious d previous here => exact elsewhere previous
  | disconnect d known => exact elsewhere d
  | _ => exact closed

theorem open_before (m : WSServer) (action : Action) (next : WSServer) (moves : Moves m action next) (c : Nat)
    (opened : next.closed c = false) : m.closed c = false := by
  by_contra closed
  rw [Bool.not_eq_false] at closed
  exact Bool.false_ne_true (opened.symm.trans (closed_stays m action next moves c closed))

theorem put_stays (m : WSServer) (action : Action) (next : WSServer) (moves : Moves m action next) (c : Nat)
    (connected : Connected m) (put : (m.handler c).put = true) : (next.handler c).put = true := by
  cases handler_step m action next moves c with
  | same handler => rwa [handler]
  | accepts new more handler =>
      rw [(connected.fresh c (new ▸ Nat.le_refl _)).1] at put
      cases put
  | registers _ _ here _ | counts _ _ here _ _ _ =>
      rw [here] at put
      cases put
  | replaces _ _ _ _ _ handler | puts _ _ _ handler | closes _ _ _ handler | cleaned _ _ handler
  | cleanedOwn _ _ handler | reads _ handler | fails _ _ handler | returns _ handler =>
      rw [handler]
      rfl

theorem known_of_handler (m : WSServer) (c : Nat) (connected : Connected m) (begun : m.handler c ≠ .idle) :
    c < m.accepted := by
  by_contra new
  exact begun (connected.fresh c (by omega)).1

theorem put_old (m : WSServer) (c : Nat) (connected : Connected m) (put : (m.handler c).put = true) : c < m.accepted := by
  apply known_of_handler m c connected
  intro idle
  rw [idle] at put
  cases put

theorem entered_stays (m : WSServer) (action : Action) (next : WSServer) (moves : Moves m action next) (k : Caller)
    (entered : m.call k ≠ .idle) : next.call k ≠ .idle := by
  have elsewhere : ∀ j pc, pc ≠ .idle → update m.call j pc k ≠ .idle := by
    intro j pc busy
    by_cases this : k = j
    · rwa [this, Function.update_self]
    · rwa [Function.update_of_ne this]
  cases moves with
  | cleanup d p here first => exact elsewhere (.cleanup p) _ (fun no => nomatch no)
  | stopPlugin plugin => exact elsewhere (.stop m.stops) _ (fun no => nomatch no)
  | stopFailed s plugin here => exact elsewhere (.stop s) _ (fun no => nomatch no)
  | listPluginRefs s plugin names here => exact elsewhere (.stop s) _ (fun no => nomatch no)
  | decrement j plugin names here => exact elsewhere j _ (fun no => nomatch no)
  | unregister j name rest here => exact elsewhere j _ (fun no => nomatch no)
  | unregistered j here => exact elsewhere j _ (fun no => nomatch no)
  | _ => exact entered

theorem cleanup_of_put (m : WSServer) (d p : Nat) (connected : Connected m)
    (here : m.handler d = .cleaning p ∨ m.handler d = .leaving ∧ p = d) :
    m.closed p = true ∧ (m.handler p).put = true := by
  rcases here with cleaning | ⟨leaving, rfl⟩
  · exact ⟨connected.shut d p cleaning, connected.previous d p (.inr cleaning)⟩
  · exact ⟨connected.leaving p (.inl leaving), by rw [leaving]; rfl⟩

theorem entered_step (m : WSServer) (action : Action) (next : WSServer) (connected : Connected m)
    (moves : Moves m action next) (c : Nat) (entered : next.call (.cleanup c) ≠ .idle) :
    m.call (.cleanup c) ≠ .idle ∨ m.closed c = true ∧ (m.handler c).put = true ∧ next.connTools c = [] := by
  have elsewhere : ∀ k pc, m.call k ≠ .idle → update m.call k pc (.cleanup c) ≠ .idle → m.call (.cleanup c) ≠ .idle := by
    intro k pc busy after
    by_cases this : Caller.cleanup c = k
    · rwa [this]
    · rwa [Function.update_of_ne this] at after
  cases moves with
  | cleanup d p here first =>
      by_cases this : c = p
      · subst this
        obtain ⟨closed, put⟩ := cleanup_of_put m d c connected here
        exact .inr ⟨closed, put, Function.update_self _ _ _⟩
      · have other : Caller.cleanup c ≠ .cleanup p := fun same => this (Caller.cleanup.inj same)
        exact .inl (by simpa only [Function.update_of_ne other] using entered)
  | stopPlugin plugin =>
      have other : Caller.cleanup c ≠ .stop m.stops := fun no => nomatch no
      exact .inl (by simpa only [stopPlugin, Function.update_of_ne other] using entered)
  | stopFailed s plugin here => exact .inl (elsewhere (.stop s) .returned (by rw [here]; exact fun no => nomatch no) entered)
  | listPluginRefs s plugin names here =>
      exact .inl (elsewhere (.stop s) (.taken plugin names) (by rw [here]; exact fun no => nomatch no) entered)
  | decrement k plugin names here =>
      exact .inl (elsewhere k (.removing _) (by rw [here]; exact fun no => nomatch no) entered)
  | unregister k name rest here =>
      exact .inl (elsewhere k (.removing rest) (by rw [here]; exact fun no => nomatch no) entered)
  | unregistered k here => exact .inl (elsewhere k .returned (by rw [here]; exact fun no => nomatch no) entered)
  | _ => exact .inl entered

theorem tools_step (m : WSServer) (action : Action) (next : WSServer) (moves : Moves m action next) (c : Nat) :
    next.connTools c = m.connTools c ∨ next.connTools c = [] ∧ next.call (.cleanup c) ≠ .idle ∨
      ∃ name rest, m.handler c = .counting name rest ∧ next.handler c = .registering rest ∧
        next.connTools c = m.connTools c ++ [name] := by
  cases moves with
  | countTool d name rest here =>
      by_cases this : c = d
      · subst this
        exact .inr (.inr ⟨name, rest, here, Function.update_self _ _ _, Function.update_self _ _ _⟩)
      · exact .inl (Function.update_of_ne this _ _)
  | cleanup d p here first =>
      by_cases this : c = p
      · subst this
        exact .inr (.inl ⟨Function.update_self _ _ _, by simp⟩)
      · exact .inl (Function.update_of_ne this _ _)
  | _ => exact .inl rfl

theorem closed_step (m : WSServer) (action : Action) (next : WSServer) (connected : Connected m)
    (moves : Moves m action next) (c : Nat) (new : m.accepted ≤ c) : next.closed c = false := by
  have elsewhere : ∀ d, d < m.accepted → update m.closed d true c = false := by
    intro d known
    rw [Function.update_of_ne (by omega)]
    exact (connected.fresh c new).2.1
  cases moves with
  | closePrevious d previous here =>
      exact elsewhere previous (put_old m previous connected (connected.previous d previous (.inl here)))
  | disconnect d known => exact elsewhere d known
  | _ => exact (connected.fresh c new).2.1

theorem accepted_step (m : WSServer) (action : Action) (next : WSServer) (moves : Moves m action next) :
    next.accepted = m.accepted ∨ next.accepted = m.accepted + 1 ∧ next.handler m.accepted ≠ .idle := by
  cases moves with
  | accept manifest => exact .inr ⟨rfl, by simp [accept]⟩
  | _ => exact .inl rfl

theorem idle_step (m : WSServer) (action : Action) (next : WSServer) (moves : Moves m action next) (c : Nat)
    (idle : m.handler c = .idle) : next.handler c = .idle ∨ c = m.accepted ∧ next.accepted = m.accepted + 1 := by
  cases handler_step m action next moves c with
  | same handler => exact .inl (handler.trans idle)
  | accepts new more handler => exact .inr ⟨new, more⟩
  | returns here handler => simp [idle] at here
  | registers _ _ here _ | counts _ _ here _ _ _ | replaces _ here _ _ _ _ | puts here _ _ _ | closes _ here _ _
  | cleaned _ here _ | cleanedOwn here _ _ | reads here _ | fails here _ _ =>
      rw [idle] at here
      cases here

theorem fresh_step (m : WSServer) (action : Action) (next : WSServer) (connected : Connected m)
    (moves : Moves m action next) (c : Nat) (new : next.accepted ≤ c) :
    next.handler c = .idle ∧ next.closed c = false ∧ next.connTools c = [] ∧ next.call (.cleanup c) = .idle := by
  have before : m.accepted ≤ c := by rcases accepted_step m action next moves with same | ⟨more, _⟩ <;> omega
  obtain ⟨idle, _, tools, call⟩ := connected.fresh c before
  refine ⟨?_, closed_step m action next connected moves c before, ?_, ?_⟩
  · rcases idle_step m action next moves c idle with still | ⟨rfl, more⟩
    · exact still
    · omega
  · rcases tools_step m action next moves c with same | ⟨none, _⟩ | ⟨name, rest, counting, _⟩
    · exact same.trans tools
    · exact none
    · rw [idle] at counting
      cases counting
  · by_contra entered
    rcases entered_step m action next connected moves c entered with already | ⟨_, put, _⟩
    · exact already call
    · rw [idle] at put
      cases put

theorem unstopped_step (m : WSServer) (action : Action) (next : WSServer) (connected : Connected m)
    (moves : Moves m action next) (s : Nat) (new : next.stops ≤ s) : next.call (.stop s) = .idle := by
  have elsewhere : ∀ k pc, m.stops ≤ s → m.call k ≠ .idle → update m.call k pc (.stop s) = .idle := by
    intro k pc unused busy
    have idle := connected.unstopped s unused
    have other : Caller.stop s ≠ k := by
      rintro rfl
      exact busy idle
    rwa [Function.update_of_ne other]
  cases moves with
  | cleanup d p here first =>
      have other : Caller.stop s ≠ .cleanup p := fun no => nomatch no
      simpa only [Function.update_of_ne other] using connected.unstopped s new
  | stopPlugin plugin =>
      have later : m.stops + 1 ≤ s := new
      have other : Caller.stop s ≠ .stop m.stops := fun same => absurd (Caller.stop.inj same) (by omega)
      exact (Function.update_of_ne other _ _).trans (connected.unstopped s (by omega))
  | stopFailed t plugin here => exact elsewhere (.stop t) _ new (by rw [here]; exact fun no => nomatch no)
  | listPluginRefs t plugin names here => exact elsewhere (.stop t) _ new (by rw [here]; exact fun no => nomatch no)
  | decrement k plugin names here => exact elsewhere k _ new (by rw [here]; exact fun no => nomatch no)
  | unregister k name rest here => exact elsewhere k _ new (by rw [here]; exact fun no => nomatch no)
  | unregistered k here => exact elsewhere k _ new (by rw [here]; exact fun no => nomatch no)
  | _ => exact connected.unstopped s new

theorem started_step (m : WSServer) (action : Action) (next : WSServer) (connected : Connected m)
    (moves : Moves m action next) (c : Nat) (known : c < next.accepted) : next.handler c ≠ .idle := by
  cases handler_step m action next moves c with
  | same handler =>
      rw [handler]
      rcases accepted_step m action next moves with same | ⟨more, begun⟩
      · exact connected.started c (by omega)
      · by_cases new : c = m.accepted
        · exact handler ▸ new ▸ begun
        · exact connected.started c (by omega)
  | accepts _ _ handler | registers _ _ _ handler | counts _ _ _ _ _ handler | replaces _ _ _ _ _ handler | puts _ _ _ handler
  | closes _ _ _ handler | cleaned _ _ handler | cleanedOwn _ _ handler | reads _ handler | fails _ _ handler
  | returns _ handler =>
      rw [handler]
      exact fun no => nomatch no

theorem conns_step (m : WSServer) (action : Action) (next : WSServer) (moves : Moves m action next) (name : GoString)
    (c : Nat) (listed : next.conns name = some c) :
    m.conns name = some c ∨ name = m.plugin c ∧ m.handler c = .registering [] ∧ (next.handler c).put = true := by
  have puts : ∀ d pc, m.handler d = .registering [] → update m.conns (m.plugin d) (some d) name = some c →
      HandlerPc.put pc = true →
      m.conns name = some c ∨ name = m.plugin c ∧ m.handler c = .registering [] ∧ (update m.handler d pc c).put = true := by
    intro d pc here after put
    by_cases same : name = m.plugin d
    · rw [same, Function.update_self, Option.some.injEq] at after
      subst after
      exact .inr ⟨same, here, by rwa [Function.update_self]⟩
    · rw [Function.update_of_ne same] at after
      exact .inl after
  cases moves with
  | replaceConn d previous here present => exact puts d (.replacing previous) here listed rfl
  | newConn d here free => exact puts d .greeting here listed rfl
  | removeConn d here same =>
      by_cases this : name = m.plugin d
      · simp [this] at listed
      · simp only [Function.update_of_ne this] at listed
        exact .inl listed
  | _ => exact .inl listed

theorem connected_conns (m : WSServer) (action : Action) (next : WSServer) (connected : Connected m)
    (moves : Moves m action next) (name : GoString) (c : Nat) (listed : next.conns name = some c) :
    (next.handler c).put = true ∧ next.plugin c = name := by
  rcases conns_step m action next moves name c listed with before | ⟨named, registering, put⟩
  · obtain ⟨put, same⟩ := connected.conns name c before
    exact ⟨put_stays m action next moves c connected put,
      (plugin_stays m action next moves c (put_old m c connected put)).trans same⟩
  · have old := known_of_handler m c connected (by rw [registering]; exact fun no => nomatch no)
    exact ⟨put, (plugin_stays m action next moves c old).trans named.symm⟩

theorem connected_previous (m : WSServer) (action : Action) (next : WSServer) (connected : Connected m)
    (moves : Moves m action next) (c p : Nat) (here : next.handler c = .replacing p ∨ next.handler c = .cleaning p) :
    (next.handler p).put = true := by
  apply put_stays m action next moves p connected
  cases handler_step m action next moves c with
  | same handler =>
      rw [handler] at here
      exact connected.previous c p here
  | replaces previous _ listed _ _ handler =>
      rw [handler] at here
      rcases here with replacing | no
      · cases replacing
        exact (connected.conns _ p listed).1
      · cases no
  | closes previous before _ handler =>
      rw [handler] at here
      rcases here with no | cleaning
      · cases no
      · cases cleaning
        exact connected.previous c p (.inl before)
  | accepts _ _ handler | registers _ _ _ handler | counts _ _ _ _ _ handler | puts _ _ _ handler | cleaned _ _ handler
  | cleanedOwn _ _ handler | reads _ handler | fails _ _ handler | returns _ handler =>
      rw [handler] at here
      rcases here with no | no <;> cases no

theorem connected_shut (m : WSServer) (action : Action) (next : WSServer) (connected : Connected m)
    (moves : Moves m action next) (c p : Nat) (here : next.handler c = .cleaning p) : next.closed p = true := by
  cases handler_step m action next moves c with
  | same handler => exact closed_stays m action next moves p (connected.shut c p (handler ▸ here))
  | closes previous _ closed handler =>
      rw [handler] at here
      cases here
      exact closed
  | accepts _ _ handler | registers _ _ _ handler | counts _ _ _ _ _ handler | replaces _ _ _ _ _ handler | puts _ _ _ handler
  | cleaned _ _ handler | cleanedOwn _ _ handler | reads _ handler | fails _ _ handler | returns _ handler =>
      rw [handler] at here
      cases here

theorem connected_leaving (m : WSServer) (action : Action) (next : WSServer) (connected : Connected m)
    (moves : Moves m action next) (c : Nat) (here : next.handler c = .leaving ∨ next.handler c = .removing) :
    next.closed c = true := by
  apply closed_stays m action next moves c
  cases handler_step m action next moves c with
  | same handler =>
      rw [handler] at here
      exact connected.leaving c here
  | cleanedOwn leaving _ _ => exact connected.leaving c (.inl leaving)
  | fails _ closed _ => exact closed
  | accepts _ _ handler | registers _ _ _ handler | counts _ _ _ _ _ handler | replaces _ _ _ _ _ handler | puts _ _ _ handler
  | closes _ _ _ handler | cleaned _ _ handler | reads _ handler | returns _ handler =>
      rw [handler] at here
      rcases here with no | no <;> cases no

theorem connected_entered (m : WSServer) (action : Action) (next : WSServer) (connected : Connected m)
    (moves : Moves m action next) (c : Nat) (entered : next.call (.cleanup c) ≠ .idle) :
    next.closed c = true ∧ (next.handler c).put = true ∧ next.connTools c = [] := by
  rcases entered_step m action next connected moves c entered with before | ⟨closed, put, none⟩
  · obtain ⟨closed, put, tools⟩ := connected.entered c before
    refine ⟨closed_stays m action next moves c closed, put_stays m action next moves c connected put, ?_⟩
    rcases tools_step m action next moves c with same | ⟨none, _⟩ | ⟨name, rest, counting, _⟩
    · exact same.trans tools
    · exact none
    · rw [counting] at put
      cases put
  · exact ⟨closed_stays m action next moves c closed, put_stays m action next moves c connected put, none⟩

theorem connected_ended (m : WSServer) (action : Action) (next : WSServer) (connected : Connected m)
    (moves : Moves m action next) (c : Nat) (here : next.handler c = .removing ∨ next.handler c = .returned) :
    next.call (.cleanup c) ≠ .idle := by
  apply entered_stays m action next moves (.cleanup c)
  cases handler_step m action next moves c with
  | same handler =>
      rw [handler] at here
      exact connected.ended c here
  | cleanedOwn _ through _ =>
      rw [through]
      exact fun no => nomatch no
  | returns before _ =>
      rcases before with removing | ⟨_, entered⟩
      · exact connected.ended c (.inl removing)
      · exact entered
  | accepts _ _ handler | registers _ _ _ handler | counts _ _ _ _ _ handler | replaces _ _ _ _ _ handler | puts _ _ _ handler
  | closes _ _ _ handler | cleaned _ _ handler | reads _ handler | fails _ _ handler =>
      rw [handler] at here
      rcases here with no | no <;> cases no

theorem connected_kept (m : WSServer) (action : Action) (next : WSServer) (connected : Connected m)
    (moves : Moves m action next) (c : Nat) (begun : next.handler c ≠ .idle) (idle : next.call (.cleanup c) = .idle) :
    next.connTools c ++ (next.handler c).left = next.announced c := by
  have before : m.call (.cleanup c) = .idle := by
    by_contra entered
    exact entered_stays m action next moves (.cleanup c) entered idle
  have announced : m.handler c ≠ .idle → next.announced c = m.announced c := fun known =>
    announced_stays m action next moves c (known_of_handler m c connected known)
  have tools : next.connTools c = m.connTools c ∨ ∃ name rest, m.handler c = .counting name rest ∧
      next.handler c = .registering rest := by
    rcases tools_step m action next moves c with same | ⟨_, entered⟩ | ⟨name, rest, counting, registering, _⟩
    · exact .inl same
    · exact absurd idle entered
    · exact .inr ⟨name, rest, counting, registering⟩
  have turned : (m.handler c).left = (next.handler c).left → m.handler c ≠ .idle →
      next.connTools c = m.connTools c → next.connTools c ++ (next.handler c).left = next.announced c := by
    intro left known same
    rw [same, ← left, announced known]
    exact connected.kept c known before
  cases handler_step m action next moves c with
  | same handler =>
      rw [handler] at begun
      rcases tools with same | ⟨name, rest, counting, registering⟩
      · exact turned (handler ▸ rfl) begun same
      · rw [handler, counting] at registering
        cases registering
  | accepts new more handler =>
      obtain ⟨idle, _, none, _⟩ := connected.fresh c (new ▸ Nat.le_refl _)
      rcases tools with same | ⟨name, rest, counting, _⟩
      · rw [same, none, handler]
        rfl
      · rw [idle] at counting
        cases counting
  | counts name rest here added _ handler =>
      have known : m.handler c ≠ .idle := by
        rw [here]
        exact fun no => nomatch no
      have all := connected.kept c known before
      rw [here] at all
      rw [added, handler, announced known, ← all, List.append_assoc]
      rfl
  | returns here handler =>
      have ended := connected_ended m action next connected moves c (.inr handler)
      exact absurd idle ended
  | registers _ _ here handler | replaces _ here _ _ _ handler | puts here _ _ handler | closes _ here _ handler
  | cleaned _ here handler | cleanedOwn here _ handler | reads here handler | fails here _ handler =>
      rcases tools with same | ⟨name, rest, counting, _⟩
      · exact turned (by rw [here, handler]; rfl) (by rw [here]; exact fun no => nomatch no) same
      · rw [here] at counting
        cases counting

theorem conns_stay (m : WSServer) (action : Action) (next : WSServer) (connected : Connected m)
    (moves : Moves m action next) (c : Nat) (opened : m.closed c = false) (listed : m.conns (m.plugin c) = some c) :
    next.conns (m.plugin c) = some c ∨ ∃ d, next.handler d = .replacing c := by
  cases moves with
  | replaceConn d previous here present =>
      by_cases same : m.plugin c = m.plugin d
      · rw [← same, listed, Option.some.injEq] at present
        subst present
        exact .inr ⟨d, Function.update_self _ _ _⟩
      · exact .inl ((Function.update_of_ne same _ _).trans listed)
  | newConn d here free =>
      have other : m.plugin c ≠ m.plugin d := by
        intro same
        rw [← same, listed] at free
        cases free
      exact .inl ((Function.update_of_ne other _ _).trans listed)
  | removeConn d here present =>
      have other : m.plugin c ≠ m.plugin d := by
        intro same
        rw [← same, listed, Option.some.injEq] at present
        subst present
        exact Bool.false_ne_true (opened.symm.trans (connected.leaving c (.inr here)))
      exact .inl ((Function.update_of_ne other _ _).trans listed)
  | _ => exact .inl listed

theorem replacing_stays (m : WSServer) (action : Action) (next : WSServer) (connected : Connected m)
    (moves : Moves m action next) (c d : Nat) (opened : next.closed c = false) (here : m.handler d = .replacing c) :
    next.handler d = .replacing c := by
  cases handler_step m action next moves d with
  | same handler => exact handler.trans here
  | closes p before closed _ =>
      rw [here] at before
      cases before
      exact absurd (opened.symm.trans closed) Bool.false_ne_true
  | accepts new _ _ =>
      have old := known_of_handler m d connected (by rw [here]; exact fun no => nomatch no)
      omega
  | returns before _ => simp [here] at before
  | registers _ _ before _ | counts _ _ before _ _ _ | replaces _ before _ _ _ _ | puts before _ _ _
  | cleaned _ before _ | cleanedOwn before _ _ | reads before _ | fails before _ _ =>
      rw [here] at before
      cases before

theorem connected_current (m : WSServer) (action : Action) (next : WSServer) (connected : Connected m)
    (moves : Moves m action next) (c : Nat) (put : (next.handler c).put = true) (opened : next.closed c = false) :
    next.conns (next.plugin c) = some c ∨ ∃ d, next.handler d = .replacing c := by
  have before := open_before m action next moves c opened
  have goesOn : (m.handler c).put = true → next.conns (next.plugin c) = some c ∨ ∃ d, next.handler d = .replacing c := by
    intro already
    rw [plugin_stays m action next moves c (put_old m c connected already)]
    rcases connected.current c already before with listed | ⟨d, replacing⟩
    · exact conns_stay m action next connected moves c before listed
    · exact .inr ⟨d, replacing_stays m action next connected moves c d opened replacing⟩
  have begins : m.handler c = .registering [] → next.conns (m.plugin c) = some c →
      next.conns (next.plugin c) = some c ∨ ∃ d, next.handler d = .replacing c := by
    intro registering listed
    have old := known_of_handler m c connected (by rw [registering]; exact fun no => nomatch no)
    exact .inl ((plugin_stays m action next moves c old).symm ▸ listed)
  cases handler_step m action next moves c with
  | same handler => exact goesOn (handler ▸ put)
  | replaces _ here _ _ listed _ => exact begins here listed
  | puts here _ listed _ => exact begins here listed
  | accepts _ _ handler | registers _ _ _ handler | counts _ _ _ _ _ handler =>
      rw [handler] at put
      cases put
  | returns here _ => exact goesOn (by rcases here with here | ⟨here, _⟩ <;> rw [here] <;> rfl)
  | closes _ here _ _ | cleaned _ here _ | cleanedOwn here _ _ | reads here _ | fails here _ _ =>
      exact goesOn (by rw [here]; rfl)

theorem connected_step (m : WSServer) (action : Action) (next : WSServer) (connected : Connected m)
    (moves : Moves m action next) : Connected next where
  fresh := fresh_step m action next connected moves
  unstopped := unstopped_step m action next connected moves
  started := started_step m action next connected moves
  conns := connected_conns m action next connected moves
  previous := connected_previous m action next connected moves
  shut := connected_shut m action next connected moves
  leaving := connected_leaving m action next connected moves
  entered := connected_entered m action next connected moves
  ended := connected_ended m action next connected moves
  kept := connected_kept m action next connected moves
  current := connected_current m action next connected moves

end WSServer

end Brainkit.Plugins
