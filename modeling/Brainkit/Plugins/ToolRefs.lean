import Brainkit.Library.Transition
import Brainkit.Plugins.Connections

set_option autoImplicit false

namespace Brainkit.Plugins

open Function (update)
open Transition GoText

def HandlerPc.nextTool : HandlerPc → Option GoString
  | .registering (name :: _) => some name
  | _ => none

def CallPc.names : CallPc → List GoString
  | .taken _ names => names
  | _ => []

def CallPc.nextName : CallPc → Option GoString
  | .removing (name :: _) => some name
  | _ => none

namespace WSServer

def live (m : WSServer) (c : Nat) : Bool := m.handler c = .reading && !m.closed c

def Quiet (m : WSServer) : Prop :=
  (∀ c, c < m.accepted → m.handler c = .returned ∨ m.live c = true) ∧
  (∀ c, c < m.accepted → m.call (.cleanup c) = .idle ∨ m.call (.cleanup c) = .returned) ∧
  ∀ s, s < m.stops → m.call (.stop s) = .returned

def registrations (m : WSServer) : Multiset GoString :=
  Ledger.total m.accepted fun c => if m.live c then (m.announced c : Multiset GoString) else 0

structure Consistent (m : WSServer) : Prop where
  announced : ∀ c, m.live c = true → ∀ name ∈ m.announced c, m.tools name = some c
  remaining : ∀ name c, m.tools name = some c → m.live c = true ∧ name ∈ m.announced c
  counted : ∀ name, m.refs.toolRefs.count name = m.registrations.count name

def openHolds (m : WSServer) (c : Nat) : Multiset GoString := if m.closed c then 0 else m.connTools c

def openTools (m : WSServer) : Multiset GoString := Ledger.total m.accepted m.openHolds

def heirs (m : WSServer) (plugin : GoString) : List Nat :=
  (List.range m.accepted).filter fun e => (m.handler e).registers && m.plugin e = plugin

def Spares (m : WSServer) (name : GoString) : Prop :=
  ∀ c ∈ m.tools name, m.closed c = true ∨ m.heirs (m.plugin c) ≠ []

-- A connection is put into conns with its executors in place; Register and Unregister spare the executors of the
-- connections that stay; and a decrement leaves each name the references of the open connections.
def Sound (m : WSServer) : Action → Prop
  | .registerTool c => ∀ name ∈ (m.handler c).nextTool, m.Spares name
  | .putConn c => m.closed c = true ∨ (∃ e ∈ m.heirs (m.plugin c), e ≠ c) ∨ ∀ name ∈ m.announced c, m.tools name = some c
  | .decrement k => m.openTools ≤ m.refs.toolRefs - ((m.call k).names : Multiset GoString)
  | .unregister k => ∀ name ∈ (m.call k).nextName, m.Spares name
  | _ => True

def holds (m : WSServer) (c : Nat) : Multiset GoString := (m.connTools c : Multiset GoString) + (m.call (.cleanup c)).names

structure Counted (m : WSServer) : Prop where
  least : m.openTools ≤ m.refs.toolRefs
  most : m.refs.toolRefs ≤ Ledger.total m.accepted m.holds

theorem initial_counted : Counted initial := by
  constructor <;> simp [initial, openTools, Ledger.total]

theorem open_holds_closed (m : WSServer) (c : Nat) (closed : m.closed c = true) : m.openHolds c = 0 := if_pos closed

theorem open_holds_open (m : WSServer) (c : Nat) (opened : m.closed c = false) : m.openHolds c = m.connTools c :=
  if_neg (by rw [opened]; exact Bool.false_ne_true)

theorem counted_kept (m next : WSServer) (counted : Counted m) (accepted : next.accepted = m.accepted)
    (refs : next.refs = m.refs) (tools : ∀ c, m.closed c = false → next.connTools c = m.connTools c)
    (closed : ∀ c, m.closed c = true → next.closed c = true) (holds : ∀ c, next.holds c = m.holds c) : Counted next where
  least := by
    have fewer : next.openTools ≤ m.openTools := by
      rw [openTools, openTools, accepted]
      refine Ledger.total_le fun c _ => ?_
      cases after : next.closed c with
      | true => exact (open_holds_closed next c after).symm ▸ Multiset.zero_le _
      | false =>
          have before : m.closed c = false := by
            by_contra was
            rw [Bool.not_eq_false] at was
            exact Bool.false_ne_true (after.symm.trans (closed c was))
          rw [open_holds_open next c after, open_holds_open m c before, tools c before]
    exact refs ▸ le_trans fewer counted.least
  most := by
    rw [refs, accepted, Ledger.total_congr fun c _ => holds c]
    exact counted.most

theorem counted_accept (m : WSServer) (manifest : Manifest) (connected : Connected m) (counted : Counted m) :
    Counted (m.accept manifest) := by
  obtain ⟨_, _, tools, call⟩ := connected.fresh m.accepted (Nat.le_refl _)
  constructor
  · have same : (m.accept manifest).openTools = m.openTools :=
      Ledger.total_open (fun _ _ => rfl) (by simp [openHolds, accept, tools])
    exact same ▸ counted.least
  · have same : Ledger.total (m.accepted + 1) (m.accept manifest).holds = Ledger.total m.accepted m.holds :=
      Ledger.total_open (fun _ _ => rfl) (by simp [accept, holds, tools, call, CallPc.names])
    exact same ▸ counted.most

theorem counted_count (m next : WSServer) (c : Nat) (name : GoString) (known : c < m.accepted) (counted : Counted m)
    (accepted : next.accepted = m.accepted) (closed : next.closed = m.closed) (call : next.call = m.call)
    (refs : next.refs.toolRefs = m.refs.toolRefs + {name})
    (tools : next.connTools = update m.connTools c (m.connTools c ++ [name])) : Counted next := by
  have own : (next.connTools c : Multiset GoString) = m.connTools c + {name} := by
    rw [tools, Function.update_self, ← Multiset.coe_add, Multiset.coe_singleton]
  have others : ∀ d, d ≠ c → next.connTools d = m.connTools d := fun d other => by rw [tools, Function.update_of_ne other]
  constructor
  · have more : next.openTools ≤ m.openTools + {name} := by
      rw [openTools, openTools, accepted]
      cases shut : m.closed c with
      | true =>
          refine le_trans (le_of_eq (Ledger.total_congr fun d _ => ?_)) (Multiset.le_add_right _ _)
          by_cases this : d = c
          · rw [this, open_holds_closed m c shut, open_holds_closed next c (closed ▸ shut)]
          · rw [openHolds, openHolds, closed, others d this]
      | false =>
          refine le_of_eq (Ledger.total_add c ({name} : Multiset GoString) known (fun d other => ?_) ?_)
          · rw [openHolds, openHolds, closed, others d other]
          · rw [open_holds_open m c shut, open_holds_open next c (closed ▸ shut), own]
    rw [refs]
    exact le_trans more (add_le_add_left counted.least _)
  · have more : Ledger.total m.accepted next.holds = Ledger.total m.accepted m.holds + {name} := by
      refine Ledger.total_add c ({name} : Multiset GoString) known (fun d other => ?_) ?_
      · rw [holds, holds, call, others d other]
      · rw [holds, holds, call, own, add_right_comm]
    rw [refs, accepted, more]
    exact add_le_add_left counted.most _

theorem counted_decrement (m next : WSServer) (k : Caller) (plugin : GoString) (names rest : List GoString)
    (connected : Connected m) (counted : Counted m) (here : m.call k = .taken plugin names)
    (enough : m.openTools ≤ m.refs.toolRefs - (names : Multiset GoString)) (accepted : next.accepted = m.accepted)
    (closed : next.closed = m.closed) (tools : next.connTools = m.connTools)
    (refs : next.refs.toolRefs = m.refs.toolRefs - (names : Multiset GoString))
    (call : next.call = update m.call k (.removing rest)) : Counted next := by
  have others : ∀ d, Caller.cleanup d ≠ k → next.holds d = m.holds d := by
    intro d other
    rw [holds, holds, tools, call, Function.update_of_ne other]
  constructor
  · have same : next.openTools = m.openTools := by
      rw [openTools, openTools, accepted]
      exact Ledger.total_congr fun d _ => by rw [openHolds, openHolds, closed, tools]
    rw [refs, same]
    exact enough
  · rw [refs, accepted]
    cases k with
    | stop s =>
        rw [Ledger.total_congr fun d _ => others d (fun no => nomatch no)]
        exact le_trans tsub_le_self counted.most
    | cleanup c =>
        have entered : m.call (.cleanup c) ≠ .idle := by
          rw [here]
          exact fun no => nomatch no
        have known := put_old m c connected (connected.entered c entered).2.1
        have less : Ledger.total m.accepted m.holds = Ledger.total m.accepted next.holds + (names : Multiset GoString) := by
          refine Ledger.total_add c (names : Multiset GoString) known (fun d other => ?_) ?_
          · exact (others d fun same => other (Caller.cleanup.inj same)).symm
          · rw [holds, holds, here, tools, call, Function.update_self]
            simp only [CallPc.names, Multiset.coe_nil, add_zero]
        exact tsub_le_iff_right.mpr (less ▸ counted.most)

theorem holds_of_call (m next : WSServer) (k : Caller) (pc : CallPc) (tools : next.connTools = m.connTools)
    (call : next.call = update m.call k pc) (same : pc.names = (m.call k).names ∨ ∃ s, k = .stop s) (c : Nat) :
    next.holds c = m.holds c := by
  rw [holds, holds, tools, call]
  by_cases this : Caller.cleanup c = k
  · rcases same with names | ⟨s, rfl⟩
    · rw [this, Function.update_self, names]
    · cases this
  · rw [Function.update_of_ne this]

theorem counted_step (m : WSServer) (action : Action) (next : WSServer) (connected : Connected m) (counted : Counted m)
    (sound : Sound m action) (moves : Moves m action next) : Counted next := by
  have closed := closed_stays m action next moves
  cases moves with
  | accept manifest => exact counted_accept m manifest connected counted
  | countTool c name rest here =>
      have known := known_of_handler m c connected (by rw [here]; exact fun no => nomatch no)
      exact counted_count m _ c name known counted rfl rfl rfl rfl rfl
  | cleanup d p here first =>
      have shut := (cleanup_of_put m d p connected here).1
      refine counted_kept m _ counted rfl rfl (fun c opened => ?_) closed fun c => ?_
      · have other : c ≠ p := by
          rintro rfl
          exact Bool.false_ne_true (opened.symm.trans shut)
        exact Function.update_of_ne other _ _
      · by_cases this : c = p
        · simp [holds, this, first, CallPc.names]
        · have other : Caller.cleanup c ≠ .cleanup p := fun same => this (Caller.cleanup.inj same)
          simp only [holds, Function.update_of_ne this, Function.update_of_ne other]
  | stopPlugin plugin =>
      exact counted_kept m _ counted rfl rfl (fun _ _ => rfl) closed (holds_of_call m _ (.stop m.stops) _ rfl rfl (.inr ⟨_, rfl⟩))
  | stopFailed s plugin here =>
      exact counted_kept m _ counted rfl rfl (fun _ _ => rfl) closed (holds_of_call m _ (.stop s) _ rfl rfl (.inr ⟨_, rfl⟩))
  | listPluginRefs s plugin names here =>
      exact counted_kept m _ counted rfl rfl (fun _ _ => rfl) closed (holds_of_call m _ (.stop s) _ rfl rfl (.inr ⟨_, rfl⟩))
  | decrement k plugin names here =>
      have enough : m.openTools ≤ m.refs.toolRefs - (names : Multiset GoString) := by
        simpa only [Sound, here, CallPc.names] using sound
      exact counted_decrement m _ k plugin names _ connected counted here enough rfl rfl rfl
        (ToolRefs.decrement_refs plugin names m.refs) rfl
  | unregister k name rest here =>
      exact counted_kept m _ counted rfl rfl (fun _ _ => rfl) closed (holds_of_call m _ k _ rfl rfl (.inl (by rw [here]; rfl)))
  | unregistered k here =>
      exact counted_kept m _ counted rfl rfl (fun _ _ => rfl) closed (holds_of_call m _ k _ rfl rfl (.inl (by rw [here]; rfl)))
  | _ => exact counted_kept m _ counted rfl rfl (fun _ _ => rfl) closed fun _ => rfl

end WSServer

end Brainkit.Plugins
