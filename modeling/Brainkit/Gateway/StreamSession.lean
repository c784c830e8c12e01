import Brainkit.Library.GoText

set_option autoImplicit false

namespace Brainkit.Gateway

open Function (update)
open GoText

-- A message on the replyTo topic as parseStreamEvent leaves it. done and envelope say whether the metadata of that name
-- is "true".
structure StreamEvent where
  type : GoString
  total : Int
  event : GoString
  data : GoString
  payload : GoString
  done : Bool
  envelope : Bool
deriving DecidableEq

namespace StreamEvent

def isTerminal (evt : StreamEvent) : Bool := evt.type = lit "end" || evt.type = lit "error"

def isHeartbeat (evt : StreamEvent) : Bool := evt.type = lit "heartbeat"

def closes (evt : StreamEvent) : Bool := evt.isTerminal || (evt.type = [] && evt.done)

end StreamEvent

-- What an SSE event is made of; its name and its data are functions of this. A reassembled event has no payload to
-- fall back to.
inductive Source where
  | data (evt : StreamEvent)
  | reassembled (evt : StreamEvent)
  | terminal (evt : StreamEvent)
  | synthetic (reason : GoString)
deriving DecidableEq

def Source.ends : Source → Bool
  | .data _ | .reassembled _ => false
  | .terminal _ | .synthetic _ => true

-- The id is the number behind the stream token.
structure Line where
  id : Nat
  source : Source
deriving DecidableEq

structure BufferedEvent where
  id : Nat
  line : Line
deriving DecidableEq

inductive RequestPc where
  | idle
  | publishing
  | waiting (lastSeq : Nat)
  | ready (lastSeq : Nat)
  | entering
  | writing
  | received (evt : StreamEvent)
  | reassembling (evt : StreamEvent)
  | gathered (evt next : StreamEvent)
  | sealing (evt : StreamEvent)
  | closing (evt : StreamEvent) (id : Nat)
  | capped
  | terminating
  | leaving
  | finished
deriving DecidableEq

inductive HandlerPc where
  | idle
  | sending (evt : StreamEvent)
  | exited
deriving DecidableEq

inductive CloserPc where
  | idle
  | queued
  | waiting
  | terminating
  | deleting
  | returned
deriving DecidableEq

-- terminal says also that done is closed. ctxDone says that the context of a request is done, connected that its client
-- still reads it; wire is what has been written and not read. observed and ended are history: what the client has read
-- over all its connections, and whether it has read one to its end.
structure Session where
  buffer : List BufferedEvent
  nextID : Nat
  eventCount : Nat
  terminal : Bool
  hasWriter : Bool
  eventCh : List StreamEvent
  unsub : Bool
  registered : Bool
  cancelled : Bool
  handler : HandlerPc
  closer : Nat → CloserPc
  closeMu : Option Nat
  request : Nat → RequestPc
  ctxDone : Nat → Bool
  connected : Nat → Bool
  wire : Nat → List Line
  observed : List Line
  ended : Bool

namespace Session

def newStreamSession : Session where
  buffer := []
  nextID := 0
  eventCount := 0
  terminal := false
  hasWriter := false
  eventCh := []
  unsub := true
  registered := true
  cancelled := false
  handler := .idle
  closer _ := .idle
  closeMu := none
  request := update (fun _ => .idle) 0 .publishing
  ctxDone _ := false
  connected := update (fun _ => false) 0 true
  wire _ := []
  observed := []
  ended := false

def goto (r : Nat) (pc : RequestPc) (s : Session) : Session := { s with request := update s.request r pc }

-- What is written after the client has gone is lost.
def write (r : Nat) (lines : List Line) (s : Session) : Session :=
  if s.connected r then { s with wire := update s.wire r (s.wire r ++ lines) } else s

def writeSSEEvent (r : Nat) (source : Source) (s : Session) : Session :=
  { s.write r [⟨s.nextID, source⟩] with
    buffer := s.buffer ++ [⟨s.nextID, ⟨s.nextID, source⟩⟩]
    nextID := s.nextID + 1 }

def writeDataEvent (r : Nat) (source : Source) (s : Session) : Session :=
  { s.writeSSEEvent r source with eventCount := s.eventCount + 1 }

-- Neither buffered nor counted; the caller has the id.
def writeSyntheticError (r : Nat) (id : Nat) (reason : String) (s : Session) : Session :=
  s.write r [⟨id, .synthetic (lit reason)⟩]

def published (r : Nat) (ok : Bool) (s : Session) : Option Session :=
  match s.request r with
  | .publishing =>
      if ok then some (s.goto r .entering)
      else some { s.goto r .finished with connected := update s.connected r false }
  | _ => none

def reconnect (r lastSeq : Nat) (s : Session) : Option Session :=
  match s.request r with
  | .idle =>
      if s.registered then some { s.goto r (.waiting lastSeq) with connected := update s.connected r true } else none
  | _ => none

def tick (r : Nat) (s : Session) : Option Session :=
  match s.request r with
  | .waiting lastSeq => if s.hasWriter then none else some (s.goto r (.ready lastSeq))
  | _ => none

def deadline (r : Nat) (s : Session) : Option Session :=
  match s.request r with
  | .waiting _ => some { s.goto r .finished with connected := update s.connected r false }
  | _ => none

def replayAndResume (r : Nat) (s : Session) : Option Session :=
  match s.request r with
  | .ready lastSeq =>
      let later := (s.buffer.filter fun evt => lastSeq < evt.id).map BufferedEvent.line
      some ((s.write r later).goto r (if s.terminal then .finished else .entering))
  | _ => none

def writeLoop (r : Nat) (s : Session) : Option Session :=
  match s.request r with
  | .entering => some { s.goto r .writing with hasWriter := true }
  | _ => none

def receive (r : Nat) (s : Session) : Option Session :=
  match s.request r, s.eventCh with
  | .writing, evt :: rest => some { s.goto r (.received evt) with eventCh := rest }
  | .reassembling evt, next :: rest => some { s.goto r (.gathered evt next) with eventCh := rest }
  | _, _ => none

def timeout (r : Nat) (maxDuration : Bool) (s : Session) : Option Session :=
  match s.request r with
  | .writing => some ((s.writeSyntheticError r s.nextID (if maxDuration then "max_duration" else "heartbeat_timeout")).goto r
      .terminating)
  | _ => none

def interrupted (r : Nat) (s : Session) : Option Session :=
  match s.request r with
  | .writing => if s.ctxDone r || s.terminal then some (s.goto r .leaving) else none
  | _ => none

def process (maxEvents r : Nat) (s : Session) : Option Session :=
  match s.request r with
  | .received evt =>
      if evt.isHeartbeat then some (s.goto r .writing)
      else if evt.closes then
        if evt.isTerminal then
          some (s.goto r (if 0 < evt.total ∧ s.eventCount < evt.total then .reassembling evt else .sealing evt))
        else some { s.goto r (.closing evt s.nextID) with nextID := s.nextID + 1 }
      else some ((s.writeDataEvent r (.data evt)).goto r (if maxEvents ≤ s.eventCount + 1 then .capped else .writing))
  | .gathered evt next =>
      if next.isHeartbeat || next.closes then some (s.goto r (.reassembling evt))
      else some ((s.writeDataEvent r (.reassembled next)).goto r
        (if maxEvents ≤ s.eventCount + 1 then .capped
        else if (s.eventCount + 1 : Nat) < evt.total then .reassembling evt
        else .sealing evt))
  | _ => none

def breakReassemble (r : Nat) (s : Session) : Option Session :=
  match s.request r with
  | .reassembling evt => some (s.goto r (.sealing evt))
  | _ => none

def writeTerminal (r : Nat) (s : Session) : Option Session :=
  match s.request r with
  | .sealing evt => some ((s.writeSSEEvent r (.terminal evt)).goto r .terminating)
  | .closing evt id =>
      if evt.envelope then some (goto r .terminating { s.write r [⟨id, .terminal evt⟩] with
        buffer := s.buffer ++ [⟨s.nextID - 1, ⟨id, .terminal evt⟩⟩] })
      else some ((s.writeSyntheticError r id "producer_error").goto r .terminating)
  | .capped => some ((s.writeSyntheticError r s.nextID "max_events").goto r .terminating)
  | _ => none

def terminate (r : Nat) (s : Session) : Option Session :=
  match s.request r with
  | .terminating => some { s.goto r .leaving with terminal := true }
  | _ => none

def leave (r : Nat) (s : Session) : Option Session :=
  match s.request r with
  | .leaving => some { s.goto r .finished with hasWriter := false }
  | _ => none

def read (r : Nat) (s : Session) : Option Session :=
  match s.connected r, s.wire r with
  | true, line :: rest => some { s with wire := update s.wire r rest, observed := s.observed ++ [line] }
  | _, _ => none

def disconnect (r : Nat) (s : Session) : Option Session :=
  if s.connected r then some { s with
    connected := update s.connected r false
    ctxDone := update s.ctxDone r true
    wire := update s.wire r [] }
  else none

def eof (r : Nat) (s : Session) : Option Session :=
  match s.request r, s.connected r, s.wire r with
  | .finished, true, [] => some { s with connected := update s.connected r false, ended := true }
  | _, _, _ => none

def stop (r : Nat) (s : Session) : Option Session := some { s with ctxDone := update s.ctxDone r true }

-- The goroutine of the subscription takes a message, also after it was cancelled, as long as there is one.
def deliver (evt : StreamEvent) (s : Session) : Option Session :=
  match s.handler with
  | .idle => some { s with handler := .sending evt }
  | _ => none

def send (maxEvents : Nat) (s : Session) : Option Session :=
  match s.handler with
  | .sending evt =>
      if s.eventCh.length < maxEvents then some { s with handler := .idle, eventCh := s.eventCh ++ [evt] } else none
  | _ => none

def drop (s : Session) : Option Session :=
  match s.handler with
  | .sending _ => if s.terminal then some { s with handler := .idle } else none
  | _ => none

def exit (s : Session) : Option Session :=
  match s.handler with
  | .idle => some { s with handler := .exited }
  | _ => none

def setCloser (k : Nat) (pc : CloserPc) (s : Session) : Session := { s with closer := update s.closer k pc }

def closeStreamSession (k : Nat) (s : Session) : Option Session :=
  match s.closer k with
  | .idle => if s.registered then some (s.setCloser k .queued) else none
  | _ => none

def lockClose (k : Nat) (s : Session) : Option Session :=
  match s.closer k, s.closeMu with
  | .queued, none =>
      if s.unsub then some { s.setCloser k .waiting with closeMu := some k, cancelled := true }
      else some { s.setCloser k .terminating with closeMu := some k }
  | _, _ => none

def unsubClosed (k : Nat) (s : Session) : Option Session :=
  match s.closer k, s.handler with
  | .waiting, .exited => some { s.setCloser k .terminating with unsub := false }
  | _, _ => none

def unsubExpired (k : Nat) (s : Session) : Option Session :=
  match s.closer k with
  | .waiting => some { s.setCloser k .returned with closeMu := none }
  | _ => none

def closerTerminate (k : Nat) (s : Session) : Option Session :=
  match s.closer k with
  | .terminating => some { s.setCloser k .deleting with terminal := true }
  | _ => none

def deleteSession (k : Nat) (s : Session) : Option Session :=
  match s.closer k with
  | .deleting => some { s.setCloser k .returned with registered := false, closeMu := none }
  | _ => none

inductive Action where
  | published (r : Nat) (ok : Bool)
  | reconnect (r lastSeq : Nat)
  | tick (r : Nat)
  | deadline (r : Nat)
  | replayAndResume (r : Nat)
  | writeLoop (r : Nat)
  | receive (r : Nat)
  | timeout (r : Nat) (maxDuration : Bool)
  | interrupted (r : Nat)
  | process (r : Nat)
  | breakReassemble (r : Nat)
  | writeTerminal (r : Nat)
  | terminate (r : Nat)
  | leave (r : Nat)
  | read (r : Nat)
  | disconnect (r : Nat)
  | eof (r : Nat)
  | stop (r : Nat)
  | deliver (evt : StreamEvent)
  | send
  | drop
  | exit
  | closeStreamSession (k : Nat)
  | lockClose (k : Nat)
  | unsubClosed (k : Nat)
  | unsubExpired (k : Nat)
  | closerTerminate (k : Nat)
  | deleteSession (k : Nat)

def step (maxEvents : Nat) (s : Session) : Action → Option Session
  | .published r ok => s.published r ok
  | .reconnect r lastSeq => s.reconnect r lastSeq
  | .tick r => s.tick r
  | .deadline r => s.deadline r
  | .replayAndResume r => s.replayAndResume r
  | .writeLoop r => s.writeLoop r
  | .receive r => s.receive r
  | .timeout r maxDuration => s.timeout r maxDuration
  | .interrupted r => s.interrupted r
  | .process r => s.process maxEvents r
  | .breakReassemble r => s.breakReassemble r
  | .writeTerminal r => s.writeTerminal r
  | .terminate r => s.terminate r
  | .leave r => s.leave r
  | .read r => s.read r
  | .disconnect r => s.disconnect r
  | .eof r => s.eof r
  | .stop r => s.stop r
  | .deliver evt => s.deliver evt
  | .send => s.send maxEvents
  | .drop => s.drop
  | .exit => s.exit
  | .closeStreamSession k => s.closeStreamSession k
  | .lockClose k => s.lockClose k
  | .unsubClosed k => s.unsubClosed k
  | .unsubExpired k => s.unsubExpired k
  | .closerTerminate k => s.closerTerminate k
  | .deleteSession k => s.deleteSession k

end Session

end Brainkit.Gateway
