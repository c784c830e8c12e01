import Mathlib.Data.List.AList
import Brainkit.Library.GoText
import Brainkit.Library.Transition

set_option autoImplicit false

namespace Brainkit.Discovery

open Function (update)
open GoText Transition

structure Peer where
  name : GoString
  ns : GoString
  metadata : List (GoString × GoString)
deriving DecidableEq

inductive PresenceType where
  | announce
  | leave
  | other
deriving DecidableEq

-- The presenceMessage that is published and received, less the two fields that nothing sets or reads.
structure PresenceMessage where
  type : PresenceType
  peer : Peer
deriving DecidableEq

inductive LoopKind where
  | heartbeat
  | eviction
deriving DecidableEq

-- Where one of the goroutines of Register stands. leaving has counted activeLoops down and has still to call wg.Done.
inductive LoopPc where
  | selecting
  | announcing (registration : Nat) (message : PresenceMessage)
  | leaving
deriving DecidableEq

structure Loop where
  kind : LoopKind
  ctx : Nat
  pc : LoopPc
deriving DecidableEq

structure Closing where
  self : Option (Nat × Peer)
  cancel : Option Nat
  closeDone : Nat
deriving DecidableEq

-- Where the call that holds closeMu stands. A call that waits for closeMu has done nothing yet.
inductive Call where
  | subscribing (ctx : Nat)
  | installing (ctx : Nat)
  | announcing (ctx : Nat)
  | publishing (ctx : Nat) (registration : Nat) (message : PresenceMessage)
  | launching (ctx : Nat) (kind : LoopKind)
  | cancelling (closing : Closing)
  | waiting (closing : Closing)
  | departing (closing : Closing)
  | finishing
deriving DecidableEq

-- The goroutine of closeWait: its closeDone, and whether wg.Wait has returned.
structure Waiter where
  closeDone : Nat
  passed : Bool
deriving DecidableEq

-- The calls of Register that are accepted are numbered, and self, the context, the cancel and unsub functions and what is
-- published carry the number. The closeDone channels are numbered too. wg counts loops, activeLoops those of them that
-- are not leaving. sent is history.
structure Bus where
  self : Option (Nat × Peer)
  peers : AList fun _ : GoString => Peer × Int
  closing : Bool
  closed : Bool
  unsub : Option Nat
  cancel : Option Nat
  closeWait : Bool
  closeDone : Nat
  ttl : Int
  registrations : Nat
  cancelled : Nat → Bool
  doneClosed : Nat → Bool
  call : Option Call
  loops : List Loop
  waiters : List Waiter
  sent : List (Nat × PresenceMessage)

namespace Bus

def newBus (ttl : Int) : Bus :=
  { self := none, peers := ∅, closing := false, closed := false, unsub := none, cancel := none, closeWait := false
    closeDone := 0, ttl := if ttl ≤ 0 then 30000000000 else ttl, registrations := 0, cancelled := fun _ => false
    doneClosed := fun _ => false, call := none, loops := [], waiters := [], sent := [] }

def activeLoops (s : Bus) : Nat := s.loops.countP fun loop => loop.pc ≠ .leaving

def register (self : Peer) (s : Bus) : Except GoString Bus :=
  if s.closing || (!s.closed && (s.cancel.isSome || s.unsub.isSome)) then .error (lit "discovery bus already registered")
  else .ok { s with
    self := some (s.registrations, self)
    closing := false
    closed := false
    closeWait := false
    closeDone := s.closeDone + 1
    registrations := s.registrations + 1
    call := some (.subscribing s.registrations) }

def closeContext (s : Bus) : Bus :=
  if s.closed && s.cancel.isNone && s.unsub.isNone && s.activeLoops = 0 then s
  else { s with
    closing := true
    closed := false
    closeWait := true
    waiters := if s.closeWait then s.waiters else s.waiters ++ [⟨s.closeDone, false⟩]
    call := some (.cancelling ⟨s.self, s.cancel, s.closeDone⟩) }

def announce (s : Bus) : Option (Nat × PresenceMessage) :=
  match s.self with
  | none => none
  | some (n, self) => if s.closed || s.closing then none else some (n, ⟨.announce, self⟩)

def leaveOf (self : Peer) : PresenceMessage := ⟨.leave, ⟨self.name, [], []⟩⟩

-- PublishRawGlobal publishes while it is called, or returns an error, which is dropped.
def publish (ok : Bool) (n : Nat) (message : PresenceMessage) (s : Bus) : Bus :=
  { s with sent := if ok then s.sent ++ [(n, message)] else s.sent }

def selfName (s : Bus) : GoString :=
  match s.self with
  | none => []
  | some (_, self) => self.name

-- none is a payload that does not decode.
def handleMessage (msg : Option PresenceMessage) (now : Int) (s : Bus) : Bus :=
  match msg with
  | none => s
  | some ⟨type, peer⟩ =>
      if s.closed || s.closing then s
      else match type with
        | .announce => if peer.name = s.selfName then s else { s with peers := s.peers.insert peer.name (peer, now) }
        | .leave => if peer.name = s.selfName then s else { s with peers := s.peers.erase peer.name }
        | .other => s

def evict (now : Int) (s : Bus) : Bus :=
  { s with
    peers := (s.peers.entries.filter fun entry => entry.2.2 < now - s.ttl).foldl (fun peers entry => peers.erase entry.1) s.peers }

inductive Action where
  | register (self : Peer)
  | closeContext
  | proceed (ok : Bool)
  | expire
  | tick (i : Nat) (now : Int)
  | published (i : Nat) (ok : Bool)
  | exit (i : Nat)
  | waited (i : Nat)
  | receive (msg : Option PresenceMessage) (now : Int)

def proceed (ok : Bool) (s : Bus) : Call → Option Bus
  | .subscribing n => some (if ok then { s with call := some (.installing n) }
      else { s with cancelled := update s.cancelled n true, call := none })
  | .installing n => some { s with cancel := some n, unsub := some n, call := some (.announcing n) }
  | .announcing n => some { s with call := some (match s.announce with
      | some (m, message) => .publishing n m message
      | none => .launching n .heartbeat) }
  | .publishing n m message => some { s.publish ok m message with call := some (.launching n .heartbeat) }
  | .launching n .heartbeat => some { s with
      loops := s.loops ++ [⟨.heartbeat, n, .selecting⟩], call := some (.launching n .eviction) }
  | .launching n .eviction => some { s with loops := s.loops ++ [⟨.eviction, n, .selecting⟩], call := none }
  | .cancelling c => some { s with
      cancelled := match c.cancel with
        | some n => update s.cancelled n true
        | none => s.cancelled
      call := some (.waiting c) }
  | .waiting c => if s.doneClosed c.closeDone then some { s with call := some (.departing c) } else none
  | .departing c => some { (match c.self with
      | some (n, self) => s.publish ok n (leaveOf self)
      | none => s) with call := some .finishing }
  | .finishing => some { s with cancel := none, unsub := none, closed := true, closing := false, call := none }

def expire (s : Bus) : Call → Option Bus
  | .waiting _ => some { s with closing := false, call := none }
  | _ => none

def tick (i : Nat) (now : Int) (loop : Loop) (s : Bus) : Bus :=
  match loop.kind with
  | .eviction => s.evict now
  | .heartbeat => match s.announce with
      | some (n, message) => { s with loops := s.loops.set i { loop with pc := .announcing n message } }
      | none => s

def step (s : Bus) : Action → Option Bus
  | .register self => if s.call.isNone then
      match s.register self with
      | .ok next => some next
      | .error _ => some s
    else none
  | .closeContext => if s.call.isNone then some s.closeContext else none
  | .proceed ok => s.call.bind (s.proceed ok)
  | .expire => s.call.bind s.expire
  | .tick i now => match s.loops[i]? with
      | some ⟨kind, ctx, .selecting⟩ => some (s.tick i now ⟨kind, ctx, .selecting⟩)
      | _ => none
  | .published i ok => match s.loops[i]? with
      | some ⟨kind, ctx, .announcing n message⟩ =>
          some { s.publish ok n message with loops := s.loops.set i ⟨kind, ctx, .selecting⟩ }
      | _ => none
  | .exit i => match s.loops[i]? with
      | some ⟨kind, ctx, .selecting⟩ =>
          if s.cancelled ctx then some { s with loops := s.loops.set i ⟨kind, ctx, .leaving⟩ } else none
      | some ⟨_, _, .leaving⟩ => some { s with loops := s.loops.eraseIdx i }
      | _ => none
  | .waited i => match s.waiters[i]? with
      | some ⟨d, false⟩ => if s.loops = [] then some { s with waiters := s.waiters.set i ⟨d, true⟩ } else none
      | some ⟨d, true⟩ => some { s with doneClosed := update s.doneClosed d true, waiters := s.waiters.eraseIdx i }
      | _ => none
  | .receive msg now => some (s.handleMessage msg now)

end Bus

end Brainkit.Discovery
