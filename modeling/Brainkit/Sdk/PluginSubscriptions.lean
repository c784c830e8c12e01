import Mathlib.Data.Finset.Image
import Brainkit.Library.GoText
import Brainkit.Library.Transition

set_option autoImplicit false

namespace Brainkit.Sdk.Plugin

open Function (update)
open GoText Transition

-- A call of SubscribeRaw, from its addEventSub on. In registering it has still to enter its channel in subAcks, in
-- forgetting to take it out, and in removing to run removeLocal before it returns an error. declared is a handler of On,
-- which Run registers by itself.
inductive SubscribePc where
  | idle
  | declared
  | registering
  | writing
  | waiting
  | forgetting
  | removing
  | failed
  | subscribed
  | unsubscribed
deriving DecidableEq

namespace SubscribePc

def handles : SubscribePc → Bool
  | idle | failed | unsubscribed => false
  | _ => true

def asks : SubscribePc → Bool
  | writing | waiting | forgetting => true
  | _ => false

def begun : SubscribePc → Bool
  | idle | declared | registering => false
  | _ => true

theorem begun_of_asks (pc : SubscribePc) (asks : pc.asks = true) : pc.begun = true := by
  cases pc with
  | writing | waiting | forgetting => rfl
  | _ => cases asks

end SubscribePc

-- Where readLoop is: at its Read, in dispatchSubscribeAck with the channel in hand, or in the loop over the handlers of
-- dispatchEvent.
inductive ClientLoop where
  | reading
  | sending (call : Nat) (err : Option GoString)
  | delivering (rest : List Nat)
  | returned
deriving DecidableEq

-- The frames of a call carry its number as their ID, and so do the entries of subAcks and of eventSubs. A channel of
-- subAcks holds one error or nil. accepted tells that an ack without an error was found to be the call's; snapshots are
-- the handlers that dispatchEvent has collected for each event, and delivered the calls of handlers.
structure WsClient where
  calls : Nat
  topic : Nat → GoString
  pc : Nat → SubscribePc
  eventSubs : Finset (GoString × Nat)
  subAcks : Nat → Bool
  ackCh : Nat → Option (Option GoString)
  loop : ClientLoop
  accepted : Nat → Bool
  events : Nat
  snapshots : Nat → List Nat
  delivered : List (Nat × Nat)

namespace WsClient

def new : WsClient where
  calls := 0
  topic := fun _ => []
  pc := fun _ => .idle
  eventSubs := ∅
  subAcks := fun _ => false
  ackCh := fun _ => none
  loop := .reading
  accepted := fun _ => false
  events := 0
  snapshots := fun _ => []
  delivered := []

inductive Action where
  | on (topic : GoString)
  | subscribeRaw (topic : GoString)
  | register (call : Nat)
  | write (call : Nat) (ok : Bool)
  | receiveAck (call : Nat)
  | expire (call : Nat)
  | forgetSubscribeAck (call : Nat)
  | removeLocal (call : Nat)
  | unsubscribe (call : Nat)
  | readAck (id : Nat) (err : Option GoString)
  | sendAck
  | readEvent (topic : GoString) (order : List Nat)
  | deliver
  | readFails

def addEventSub (topic : GoString) (pc : SubscribePc) (s : WsClient) : WsClient :=
  { s with
    calls := s.calls + 1
    topic := update s.topic s.calls topic
    pc := update s.pc s.calls pc
    eventSubs := insert (topic, s.calls) s.eventSubs }

def remove (n : Nat) (pc : SubscribePc) (s : WsClient) : WsClient :=
  { s with
    pc := update s.pc n pc
    eventSubs := s.eventSubs.erase (s.topic n, n) }

-- An ack that no entry is waiting for is dropped.
def dispatchSubscribeAck (id : Nat) (err : Option GoString) (s : WsClient) : WsClient :=
  if s.subAcks id then
    { s with
      subAcks := update s.subAcks id false
      loop := .sending id err
      accepted := update s.accepted id (s.accepted id || err.isNone) }
  else s

-- The range over the handlers of the topic is in any order.
def dispatchEvent (topic : GoString) (order : List Nat) (s : WsClient) : Option WsClient :=
  if order.Nodup ∧ order.toFinset = (s.eventSubs.filter (·.1 = topic)).image Prod.snd then
    some { s with
      loop := .delivering order
      events := s.events + 1
      snapshots := update s.snapshots s.events order }
  else none

-- The host may send an ack at any time, also for a call that has not written its frame, twice, or for no call at all; and
-- a context may end at any time.
def step (s : WsClient) : Action → Option WsClient
  | .on topic => some (s.addEventSub topic .declared)
  | .subscribeRaw topic => some (s.addEventSub topic .registering)
  | .register n =>
      if s.pc n = .registering then some { s with pc := update s.pc n .writing, subAcks := update s.subAcks n true } else none
  | .write n ok =>
      if s.pc n = .writing then some { s with pc := update s.pc n (if ok then .waiting else .forgetting) } else none
  | .receiveAck n => match s.pc n, s.ackCh n with
      | .waiting, some err => some { s with
          pc := update s.pc n (if err.isNone then .subscribed else .removing)
          ackCh := update s.ackCh n none }
      | _, _ => none
  | .expire n => if s.pc n = .waiting then some { s with pc := update s.pc n .forgetting } else none
  | .forgetSubscribeAck n =>
      if s.pc n = .forgetting then some { s with pc := update s.pc n .removing, subAcks := update s.subAcks n false } else none
  | .removeLocal n => if s.pc n = .removing then some (s.remove n .failed) else none
  | .unsubscribe n => if s.pc n = .subscribed then some (s.remove n .unsubscribed) else none
  | .readAck id err => if s.loop = .reading then some (s.dispatchSubscribeAck id err) else none
  | .sendAck => match s.loop with
      | .sending n err =>
          if (s.ackCh n).isNone then some { s with loop := .reading, ackCh := update s.ackCh n (some err) } else none
      | _ => none
  | .readEvent topic order => if s.loop = .reading then s.dispatchEvent topic order else none
  | .deliver => match s.loop with
      | .delivering (n :: rest) => some { s with loop := .delivering rest, delivered := s.delivered ++ [(s.events - 1, n)] }
      | .delivering [] => some { s with loop := .reading }
      | _ => none
  | .readFails => if s.loop = .reading then some { s with loop := .returned } else none

-- An entry of subAcks is that of a call that has not given up, and what is on the way to a call is the answer to its
-- entry, which is gone.
structure Valid (s : WsClient) : Prop where
  fresh : ∀ n, s.calls ≤ n → s.pc n = .idle
  entry : ∀ n, s.subAcks n = true → (s.pc n).asks = true
  sent : ∀ n err, s.loop = .sending n err →
    (s.pc n).begun = true ∧ s.subAcks n = false ∧ s.ackCh n = none ∧ (err = none → s.accepted n = true)
  answered : ∀ n err, s.ackCh n = some err →
    (s.pc n).begun = true ∧ s.subAcks n = false ∧ (err = none → s.accepted n = true)
  subscribed : ∀ n, s.pc n = .subscribed → s.accepted n = true
  listed : ∀ t n, (t, n) ∈ s.eventSubs ↔ s.topic n = t ∧ (s.pc n).handles = true

variable {s next : WsClient}

-- A call begins or goes on: it enters its channel only when no answer can be on the way, and takes an answer or leaves it.
theorem moved_valid (valid : s.Valid) (calls n : Nat) (topic : Nat → GoString) (pc : SubscribePc)
    (subs : Finset (GoString × Nat)) (acks : Bool) (ch : Option (Option GoString))
    (fresh : ∀ m, calls ≤ m → s.calls ≤ m ∧ m ≠ n)
    (listed : ∀ t m, (t, m) ∈ subs ↔ topic m = t ∧ (update s.pc n pc m).handles = true)
    (begun : (s.pc n).begun = true → pc.begun = true)
    (entry : acks = true → pc.asks = true ∧ (s.subAcks n = true ∨ (s.pc n).begun = false))
    (kept : ch = s.ackCh n ∨ ch = none) (accepted : pc = .subscribed → s.accepted n = true) :
    Valid { s with
      calls := calls
      topic := topic
      pc := update s.pc n pc
      eventSubs := subs
      subAcks := update s.subAcks n acks
      ackCh := update s.ackCh n ch } := by
  have quiet : (s.pc n).begun = true → s.subAcks n = false → acks = false := by
    intro after gone
    by_contra enters
    rcases (entry (by simpa using enters)).2 with there | before
    · exact Bool.false_ne_true (gone.symm.trans there)
    · exact Bool.false_ne_true (before.symm.trans after)
  constructor
  · intro m new
    obtain ⟨old, other⟩ := fresh m new
    simpa only [Function.update_of_ne other] using valid.fresh m old
  · intro m here
    rcases eq_or_ne m n with rfl | other
    · simp only [Function.update_self] at here ⊢
      exact (entry here).1
    · simp only [Function.update_of_ne other] at here ⊢
      exact valid.entry m here
  · intro m err sending
    obtain ⟨after, gone, empty, nil⟩ := valid.sent m err sending
    rcases eq_or_ne m n with rfl | other
    · simp only [Function.update_self]
      exact ⟨begun after, quiet after gone, kept.elim (·.trans empty) id, nil⟩
    · simp only [Function.update_of_ne other]
      exact ⟨after, gone, empty, nil⟩
  · intro m err held
    rcases eq_or_ne m n with rfl | other
    · simp only [Function.update_self] at held ⊢
      rcases kept with same | none
      · obtain ⟨after, gone, nil⟩ := valid.answered m err (same ▸ held)
        exact ⟨begun after, quiet after gone, nil⟩
      · cases none.symm.trans held
    · simp only [Function.update_of_ne other] at held ⊢
      exact valid.answered m err held
  · intro m here
    rcases eq_or_ne m n with rfl | other
    · exact accepted (by simpa only [Function.update_self] using here)
    · exact valid.subscribed m (by simpa only [Function.update_of_ne other] using here)
  · exact listed

-- A call whose handler stays in eventSubs.
theorem goes_valid (valid : s.Valid) (n : Nat) (pc : SubscribePc) (acks : Bool) (ch : Option (Option GoString))
    (busy : s.pc n ≠ .idle) (handles : pc.handles = (s.pc n).handles) (begun : pc.begun = true)
    (entry : acks = true → pc.asks = true ∧ (s.subAcks n = true ∨ (s.pc n).begun = false))
    (kept : ch = s.ackCh n ∨ ch = none) (accepted : pc = .subscribed → s.accepted n = true) :
    Valid { s with pc := update s.pc n pc, subAcks := update s.subAcks n acks, ackCh := update s.ackCh n ch } := by
  refine moved_valid valid s.calls n s.topic pc s.eventSubs acks ch (fun m new => ⟨new, ?_⟩) (fun t m => ?_)
    (fun _ => begun) entry kept accepted
  · rintro rfl
    exact busy (valid.fresh m new)
  · rw [valid.listed]
    rcases eq_or_ne m n with rfl | other
    · rw [Function.update_self, handles]
    · rw [Function.update_of_ne other]

theorem removed_valid (valid : s.Valid) (n : Nat) (pc : SubscribePc) (handled : (s.pc n).handles = true)
    (gone : (s.pc n).asks = false) (begun : pc.begun = true) (dropped : pc.handles = false) (ends : pc ≠ .subscribed) :
    (s.remove n pc).Valid := by
  have unentered : s.subAcks n = false := Bool.eq_false_iff.mpr fun entered =>
    Bool.false_ne_true (gone.symm.trans (valid.entry n entered))
  have moved := moved_valid valid s.calls n s.topic pc (s.eventSubs.erase (s.topic n, n)) (s.subAcks n) (s.ackCh n)
  rw [Function.update_eq_self, Function.update_eq_self] at moved
  refine moved (fun m new => ⟨new, ?_⟩) (fun t m => ?_) (fun _ => begun) (fun entered => ?_) (.inl rfl)
    (fun same => absurd same ends)
  · rintro rfl
    rw [valid.fresh m new] at handled
    cases handled
  · rw [Finset.mem_erase, valid.listed]
    rcases eq_or_ne m n with rfl | other
    · rw [Function.update_self, dropped]
      grind
    · simp [other]
  · exact absurd entered (Bool.eq_false_iff.mp unentered)

theorem added_valid (valid : s.Valid) (t : GoString) (pc : SubscribePc) (handles : pc.handles = true)
    (early : pc.begun = false) : (s.addEventSub t pc).Valid := by
  have idle := valid.fresh s.calls (Nat.le_refl _)
  have moved := moved_valid valid (s.calls + 1) s.calls (update s.topic s.calls t) pc (insert (t, s.calls) s.eventSubs)
    (s.subAcks s.calls) (s.ackCh s.calls)
  rw [Function.update_eq_self, Function.update_eq_self, idle] at moved
  refine moved (fun m new => ⟨Nat.le_of_succ_le new, Nat.ne_of_gt new⟩) (fun u m => ?_) (fun no => (by cases no))
    (fun entered => ?_) (.inl rfl) (fun same => ?_)
  · rw [Finset.mem_insert, valid.listed]
    rcases eq_or_ne m s.calls with rfl | other
    · have none : SubscribePc.idle.handles = false := rfl
      rw [Function.update_self, Function.update_self, handles, idle, none]
      grind
    · simp [other]
  · have asks := valid.entry s.calls entered
    rw [idle] at asks
    cases asks
  · rw [same] at early
    cases early

theorem dispatched_valid (valid : s.Valid) (id : Nat) (err : Option GoString) : (s.dispatchSubscribeAck id err).Valid := by
  unfold dispatchSubscribeAck
  split
  next waits =>
    have later {m : Nat} (already : s.accepted m = true) : update s.accepted id (s.accepted id || err.isNone) m = true := by
      rcases eq_or_ne m id with rfl | other
      · simp [already]
      · rwa [Function.update_of_ne other]
    have unanswered : s.ackCh id = none := by
      cases held : s.ackCh id with
      | none => rfl
      | some answer => exact absurd waits (Bool.eq_false_iff.mp (valid.answered id answer held).2.1)
    refine ⟨valid.fresh, fun m here => ?_, fun m answer sending => ?_, fun m answer held => ?_,
      fun m here => later (valid.subscribed m here), valid.listed⟩
    · rcases eq_or_ne m id with rfl | other
      · simp at here
      · exact valid.entry m (by simpa only [Function.update_of_ne other] using here)
    · cases sending
      exact ⟨SubscribePc.begun_of_asks _ (valid.entry id waits), Function.update_self _ _ _, unanswered,
        fun nil => by simp [nil]⟩
    · have other : m ≠ id := by
        rintro rfl
        cases unanswered.symm.trans held
      obtain ⟨after, gone, nil⟩ := valid.answered m answer held
      exact ⟨after, by simpa only [Function.update_of_ne other] using gone, fun none => later (nil none)⟩
  next => exact valid

theorem sent_valid (valid : s.Valid) (n : Nat) (err : Option GoString) (sending : s.loop = .sending n err) :
    Valid { s with loop := .reading, ackCh := update s.ackCh n (some err) } := by
  refine ⟨valid.fresh, valid.entry, fun _ _ no => (by cases no), fun m answer held => ?_, valid.subscribed, valid.listed⟩
  rcases eq_or_ne m n with rfl | other
  · obtain ⟨after, gone, -, nil⟩ := valid.sent m err sending
    simp only [Function.update_self, Option.some.injEq] at held
    exact ⟨after, gone, held ▸ nil⟩
  · exact valid.answered m answer (by simpa only [Function.update_of_ne other] using held)

theorem unsent_valid (valid : s.Valid) {loop : ClientLoop} (unsent : ∀ n err, loop ≠ .sending n err) (events : Nat)
    (snapshots : Nat → List Nat) (delivered : List (Nat × Nat)) :
    Valid { s with loop := loop, events := events, snapshots := snapshots, delivered := delivered } :=
  ⟨valid.fresh, valid.entry, fun n err sending => absurd sending (unsent n err), valid.answered, valid.subscribed,
    valid.listed⟩

theorem valid_step (s : WsClient) (action : Action) (next : WsClient) (valid : s.Valid) (taken : s.step action = some next) :
    next.Valid := by
  cases action with
  | on topic =>
      cases taken
      exact added_valid valid topic .declared rfl rfl
  | subscribeRaw topic =>
      cases taken
      exact added_valid valid topic .registering rfl rfl
  | register n =>
      obtain ⟨here, same⟩ := Option.ite_none_right_eq_some.mp taken
      cases same
      have moved := goes_valid valid n .writing true (s.ackCh n)
      rw [Function.update_eq_self, here] at moved
      exact moved (by simp) rfl rfl (fun _ => ⟨rfl, .inr rfl⟩) (.inl rfl) (by simp)
  | write n ok =>
      obtain ⟨here, same⟩ := Option.ite_none_right_eq_some.mp taken
      cases same
      have moved := goes_valid valid n (if ok then .waiting else .forgetting) (s.subAcks n) (s.ackCh n)
      rw [Function.update_eq_self, Function.update_eq_self, here] at moved
      cases ok <;> exact moved (by simp) rfl rfl (fun there => ⟨rfl, .inl there⟩) (.inl rfl) (by simp)
  | receiveAck n =>
      simp only [step] at taken
      split at taken <;> cases taken
      next err here held =>
        obtain ⟨-, gone, nil⟩ := valid.answered n err held
        have moved := goes_valid valid n (if err.isNone then .subscribed else .removing) (s.subAcks n) none
        rw [Function.update_eq_self, here, gone] at moved
        cases err with
        | none => exact moved (by simp) rfl rfl (fun no => (by cases no)) (.inr rfl) fun _ => nil rfl
        | some text => exact moved (by simp) rfl rfl (fun no => (by cases no)) (.inr rfl) (by simp)
  | expire n =>
      obtain ⟨here, same⟩ := Option.ite_none_right_eq_some.mp taken
      cases same
      have moved := goes_valid valid n .forgetting (s.subAcks n) (s.ackCh n)
      rw [Function.update_eq_self, Function.update_eq_self, here] at moved
      exact moved (by simp) rfl rfl (fun there => ⟨rfl, .inl there⟩) (.inl rfl) (by simp)
  | forgetSubscribeAck n =>
      obtain ⟨here, same⟩ := Option.ite_none_right_eq_some.mp taken
      cases same
      have moved := goes_valid valid n .removing false (s.ackCh n)
      rw [Function.update_eq_self, here] at moved
      exact moved (by simp) rfl rfl (fun no => (by cases no)) (.inl rfl) (by simp)
  | removeLocal n =>
      obtain ⟨here, same⟩ := Option.ite_none_right_eq_some.mp taken
      cases same
      exact removed_valid valid n .failed (by rw [here]; rfl) (by rw [here]; rfl) rfl rfl (by simp)
  | unsubscribe n =>
      obtain ⟨here, same⟩ := Option.ite_none_right_eq_some.mp taken
      cases same
      exact removed_valid valid n .unsubscribed (by rw [here]; rfl) (by rw [here]; rfl) rfl rfl (by simp)
  | readAck id err =>
      obtain ⟨-, same⟩ := Option.ite_none_right_eq_some.mp taken
      cases same
      exact dispatched_valid valid id err
  | sendAck =>
      simp only [step] at taken
      split at taken
      next n err sending =>
        obtain ⟨-, same⟩ := Option.ite_none_right_eq_some.mp taken
        cases same
        exact sent_valid valid n err sending
      next => cases taken
  | readEvent topic order =>
      obtain ⟨-, collected⟩ := Option.ite_none_right_eq_some.mp taken
      obtain ⟨-, same⟩ := Option.ite_none_right_eq_some.mp collected
      cases same
      exact unsent_valid valid (by simp) _ _ _
  | deliver =>
      simp only [step] at taken
      split at taken <;> cases taken
      · exact unsent_valid valid (by simp) _ _ _
      · exact unsent_valid valid (by simp) _ _ _
  | readFails =>
      obtain ⟨-, same⟩ := Option.ite_none_right_eq_some.mp taken
      cases same
      exact unsent_valid valid (by simp) _ _ _

theorem new_valid : new.Valid := by
  constructor <;> simp [new, SubscribePc.handles]

theorem subscriptions_settled (path : List Action) (s : WsClient) (reached : run step new path = some s) :
    (∀ n err, s.loop = .sending n err → s.ackCh n = none) ∧
      (∀ n, s.pc n = .subscribed → s.accepted n = true ∧ (s.topic n, n) ∈ s.eventSubs ∧ s.subAcks n = false) ∧
      (∀ n, s.pc n = .failed ∨ s.pc n = .unsubscribed → (∀ t, (t, n) ∉ s.eventSubs) ∧ s.subAcks n = false) ∧
      ∀ n, s.subAcks n = true → s.pc n = .writing ∨ s.pc n = .waiting ∨ s.pc n = .forgetting := by
  have valid : s.Valid := run_invariant valid_step new_valid reached
  have unentered {n : Nat} (past : (s.pc n).asks = false) : s.subAcks n = false :=
    Bool.eq_false_iff.mpr fun entered => Bool.false_ne_true (past.symm.trans (valid.entry n entered))
  refine ⟨fun n err sending => (valid.sent n err sending).2.2.1, fun n here => ?_, fun n gone => ?_, fun n entered => ?_⟩
  · exact ⟨valid.subscribed n here, (valid.listed _ n).mpr ⟨rfl, by rw [here]; rfl⟩, unentered (by rw [here]; rfl)⟩
  · refine ⟨fun t member => ?_, unentered (by rcases gone with here | here <;> rw [here] <;> rfl)⟩
    have handles := ((valid.listed t n).mp member).2
    rcases gone with here | here <;> rw [here] at handles <;> cases handles
  · have asks := valid.entry n entered
    cases here : s.pc n with
    | writing => exact .inl rfl
    | waiting => exact .inr (.inl rfl)
    | forgetting => exact .inr (.inr rfl)
    | _ =>
        rw [here] at asks
        cases asks

def remaining (s : WsClient) : List (Nat × Nat) :=
  match s.loop with
  | .delivering rest => rest.map (s.events - 1, ·)
  | _ => []

def Flows (s : WsClient) : Prop :=
  s.delivered ++ s.remaining = (List.range s.events).flatMap fun e => (s.snapshots e).map (e, ·)

theorem read_flows (flows : s.Flows) {topic : GoString} {order : List Nat} (idle : s.loop = .reading)
    (read : s.dispatchEvent topic order = some next) : next.Flows := by
  obtain ⟨-, same⟩ := Option.ite_none_right_eq_some.mp read
  cases same
  have before : (List.range s.events).flatMap (fun e => (update s.snapshots s.events order e).map (e, ·)) =
      (List.range s.events).flatMap fun e => (s.snapshots e).map (e, ·) := by
    refine List.flatMap_congr fun e member => ?_
    rw [Function.update_of_ne (Nat.ne_of_lt (List.mem_range.mp member))]
  rw [Flows, remaining, idle, List.append_nil] at flows
  simp only [Flows, remaining, List.range_succ, List.flatMap_append, before, flows, Nat.add_sub_cancel,
    List.flatMap_singleton, Function.update_self]

theorem flows_step (s : WsClient) (action : Action) (next : WsClient) (flows : s.Flows) (taken : s.step action = some next) :
    next.Flows := by
  have quiet {loop : ClientLoop} (idle : s.remaining = []) (still : ∀ rest, loop ≠ .delivering rest)
      (subAcks accepted : Nat → Bool) (ackCh : Nat → Option (Option GoString)) :
      Flows { s with loop := loop, subAcks := subAcks, accepted := accepted, ackCh := ackCh } := by
    rw [Flows, idle] at flows
    rw [Flows, remaining]
    split
    next rest here => exact absurd here (still rest)
    next => exact flows
  cases action with
  | on topic | subscribeRaw topic =>
      cases taken
      exact flows
  | register n | write n ok | expire n | forgetSubscribeAck n | removeLocal n | unsubscribe n =>
      obtain ⟨-, same⟩ := Option.ite_none_right_eq_some.mp taken
      cases same
      exact flows
  | receiveAck n =>
      simp only [step] at taken
      split at taken <;> cases taken
      exact flows
  | readAck id err =>
      obtain ⟨idle, same⟩ := Option.ite_none_right_eq_some.mp taken
      cases same
      unfold dispatchSubscribeAck
      split
      · exact quiet (by rw [remaining, idle]) (by simp) _ _ _
      · exact flows
  | sendAck =>
      simp only [step] at taken
      split at taken
      next n err sending =>
        obtain ⟨-, same⟩ := Option.ite_none_right_eq_some.mp taken
        cases same
        exact quiet (by rw [remaining, sending]) (by simp) _ _ _
      next => cases taken
  | readEvent topic order =>
      obtain ⟨idle, read⟩ := Option.ite_none_right_eq_some.mp taken
      exact read_flows flows idle read
  | deliver =>
      simp only [step] at taken
      split at taken <;> cases taken
      next n rest here =>
        rw [Flows, remaining, here] at flows
        rw [Flows, remaining, List.append_assoc]
        exact flows
      next here =>
        rw [Flows, remaining, here] at flows
        exact flows
  | readFails =>
      obtain ⟨idle, same⟩ := Option.ite_none_right_eq_some.mp taken
      cases same
      exact quiet (by rw [remaining, idle]) (by simp) _ _ _

theorem events_delivered (path : List Action) (s : WsClient) (reached : run step new path = some s) :
    s.delivered ++ s.remaining = ((List.range s.events).flatMap fun e => (s.snapshots e).map (e, ·)) ∧
      ∀ topic order next, s.step (.readEvent topic order) = some next → (next.snapshots s.events).Nodup ∧
        ∀ n, n ∈ next.snapshots s.events ↔ s.topic n = topic ∧ (s.pc n).handles = true := by
  have valid : s.Valid := run_invariant valid_step new_valid reached
  have flows : s.Flows := run_invariant flows_step (show new.Flows from rfl) reached
  refine ⟨flows, fun topic order next taken => ?_⟩
  obtain ⟨-, read⟩ := Option.ite_none_right_eq_some.mp taken
  obtain ⟨⟨distinct, same⟩, rfl⟩ := Option.ite_none_right_eq_some.mp read |>.imp_right Option.some.inj
  simp only [Function.update_self]
  refine ⟨distinct, fun n => ?_⟩
  rw [← List.mem_toFinset, same]
  simp [valid.listed]

-- The ack overtakes the end of the write and is sent twice.
def acknowledgedTwice : List Action :=
  [.on (lit "a"), .subscribeRaw (lit "a"), .register 1, .readAck 1 none, .write 1 true, .sendAck, .readAck 1 none,
    .receiveAck 1, .readEvent (lit "a") [1, 0], .deliver, .deliver, .deliver, .unsubscribe 1, .readEvent (lit "a") [0]]

theorem acknowledged_twice_settled : ∃ s, run step new acknowledgedTwice = some s ∧ s.subAcks 1 = false :=
  ⟨_, rfl, ((subscriptions_settled acknowledgedTwice _ rfl).2.2.1 1 (.inr rfl)).2⟩

theorem acknowledged_twice_delivered : ∃ s, run step new acknowledgedTwice = some s ∧
    s.delivered ++ s.remaining = [(0, 1), (0, 0), (1, 0)] :=
  ⟨_, rfl, (events_delivered acknowledgedTwice _ rfl).1⟩

end WsClient

end Brainkit.Sdk.Plugin
