import Brainkit.Gateway.StreamSession

set_option autoImplicit false

namespace Brainkit.Gateway.Session

open Function (update)
open GoText

def later (lastSeq : Nat) (s : Session) : List Line := (s.buffer.filter fun evt => lastSeq < evt.id).map BufferedEvent.line

def afterData (maxEvents : Nat) (s : Session) : RequestPc := if maxEvents ≤ s.eventCount + 1 then .capped else .writing

def afterGathered (maxEvents : Nat) (evt : StreamEvent) (s : Session) : RequestPc :=
  if maxEvents ≤ s.eventCount + 1 then .capped
  else if (s.eventCount + 1 : Nat) < evt.total then .reassembling evt
  else .sealing evt

inductive Moves (maxEvents : Nat) (s : Session) : Action → Session → Prop where
  | accepted (r : Nat) (before : s.request r = .publishing) : Moves maxEvents s (.published r true) (s.goto r .entering)
  | refused (r : Nat) (before : s.request r = .publishing) : Moves maxEvents s (.published r false)
      { s.goto r .finished with connected := update s.connected r false }
  | reconnect (r lastSeq : Nat) (before : s.request r = .idle) (registered : s.registered = true) :
      Moves maxEvents s (.reconnect r lastSeq) { s.goto r (.waiting lastSeq) with connected := update s.connected r true }
  | tick (r lastSeq : Nat) (before : s.request r = .waiting lastSeq) (free : s.hasWriter = false) :
      Moves maxEvents s (.tick r) (s.goto r (.ready lastSeq))
  | deadline (r lastSeq : Nat) (before : s.request r = .waiting lastSeq) : Moves maxEvents s (.deadline r)
      { s.goto r .finished with connected := update s.connected r false }
  | replay (r lastSeq : Nat) (before : s.request r = .ready lastSeq) : Moves maxEvents s (.replayAndResume r)
      ((s.write r (s.later lastSeq)).goto r (if s.terminal then .finished else .entering))
  | writeLoop (r : Nat) (before : s.request r = .entering) :
      Moves maxEvents s (.writeLoop r) { s.goto r .writing with hasWriter := true }
  | receive (r : Nat) (evt : StreamEvent) (rest : List StreamEvent) (before : s.request r = .writing)
      (head : s.eventCh = evt :: rest) : Moves maxEvents s (.receive r) { s.goto r (.received evt) with eventCh := rest }
  | gather (r : Nat) (evt next : StreamEvent) (rest : List StreamEvent) (before : s.request r = .reassembling evt)
      (head : s.eventCh = next :: rest) :
      Moves maxEvents s (.receive r) { s.goto r (.gathered evt next) with eventCh := rest }
  | timeout (r : Nat) (maxDuration : Bool) (before : s.request r = .writing) : Moves maxEvents s (.timeout r maxDuration)
      ((s.writeSyntheticError r s.nextID (if maxDuration then "max_duration" else "heartbeat_timeout")).goto r .terminating)
  | interrupted (r : Nat) (before : s.request r = .writing) (past : s.ctxDone r = true ∨ s.terminal = true) :
      Moves maxEvents s (.interrupted r) (s.goto r .leaving)
  | keepalive (r : Nat) (evt : StreamEvent) (before : s.request r = .received evt) (beats : evt.isHeartbeat = true) :
      Moves maxEvents s (.process r) (s.goto r .writing)
  | reassemble (r : Nat) (evt : StreamEvent) (before : s.request r = .received evt) (short : s.eventCount < evt.total)
      (closes : evt.closes = true) : Moves maxEvents s (.process r) (s.goto r (.reassembling evt))
  | complete (r : Nat) (evt : StreamEvent) (before : s.request r = .received evt) (whole : evt.total ≤ s.eventCount)
      (closes : evt.closes = true) : Moves maxEvents s (.process r) (s.goto r (.sealing evt))
  | close (r : Nat) (evt : StreamEvent) (before : s.request r = .received evt) (untyped : evt.isTerminal = false)
      (closes : evt.closes = true) : Moves maxEvents s (.process r) { s.goto r (.closing evt s.nextID) with nextID := s.nextID + 1 }
  | data (r : Nat) (evt : StreamEvent) (before : s.request r = .received evt) (beats : evt.isHeartbeat = false)
      (closes : evt.closes = false) :
      Moves maxEvents s (.process r) ((s.writeDataEvent r (.data evt)).goto r (s.afterData maxEvents))
  | skip (r : Nat) (evt next : StreamEvent) (before : s.request r = .gathered evt next)
      (other : (next.isHeartbeat || next.closes) = true) :
      Moves maxEvents s (.process r) (s.goto r (.reassembling evt))
  | gathered (r : Nat) (evt next : StreamEvent) (before : s.request r = .gathered evt next)
      (data : (next.isHeartbeat || next.closes) = false) :
      Moves maxEvents s (.process r) ((s.writeDataEvent r (.reassembled next)).goto r (s.afterGathered maxEvents evt))
  | breakReassemble (r : Nat) (evt : StreamEvent) (before : s.request r = .reassembling evt) :
      Moves maxEvents s (.breakReassemble r) (s.goto r (.sealing evt))
  | sealed (r : Nat) (evt : StreamEvent) (before : s.request r = .sealing evt) :
      Moves maxEvents s (.writeTerminal r) ((s.writeSSEEvent r (.terminal evt)).goto r .terminating)
  | closed (r : Nat) (evt : StreamEvent) (id : Nat) (before : s.request r = .closing evt id)
      (envelope : evt.envelope = true) : Moves maxEvents s (.writeTerminal r)
      (goto r .terminating { s.write r [⟨id, .terminal evt⟩] with
        buffer := s.buffer ++ [⟨s.nextID - 1, ⟨id, .terminal evt⟩⟩] })
  | producerError (r : Nat) (evt : StreamEvent) (id : Nat) (before : s.request r = .closing evt id)
      (bare : evt.envelope = false) : Moves maxEvents s (.writeTerminal r)
      ((s.writeSyntheticError r id "producer_error").goto r .terminating)
  | overflow (r : Nat) (before : s.request r = .capped) : Moves maxEvents s (.writeTerminal r)
      ((s.writeSyntheticError r s.nextID "max_events").goto r .terminating)
  | terminate (r : Nat) (before : s.request r = .terminating) :
      Moves maxEvents s (.terminate r) { s.goto r .leaving with terminal := true }
  | leave (r : Nat) (before : s.request r = .leaving) :
      Moves maxEvents s (.leave r) { s.goto r .finished with hasWriter := false }
  | read (r : Nat) (line : Line) (rest : List Line) (connected : s.connected r = true) (head : s.wire r = line :: rest) :
      Moves maxEvents s (.read r) { s with wire := update s.wire r rest, observed := s.observed ++ [line] }
  | disconnect (r : Nat) (connected : s.connected r = true) : Moves maxEvents s (.disconnect r) { s with
      connected := update s.connected r false
      ctxDone := update s.ctxDone r true
      wire := update s.wire r [] }
  | eof (r : Nat) (finished : s.request r = .finished) (connected : s.connected r = true) (empty : s.wire r = []) :
      Moves maxEvents s (.eof r) { s with connected := update s.connected r false, ended := true }
  | stop (r : Nat) : Moves maxEvents s (.stop r) { s with ctxDone := update s.ctxDone r true }
  | deliver (evt : StreamEvent) (idle : s.handler = .idle) : Moves maxEvents s (.deliver evt) { s with handler := .sending evt }
  | send (evt : StreamEvent) (sending : s.handler = .sending evt) (room : s.eventCh.length < maxEvents) :
      Moves maxEvents s .send { s with handler := .idle, eventCh := s.eventCh ++ [evt] }
  | drop (evt : StreamEvent) (sending : s.handler = .sending evt) (past : s.terminal = true) :
      Moves maxEvents s .drop { s with handler := .idle }
  | exit (idle : s.handler = .idle) : Moves maxEvents s .exit { s with handler := .exited }
  | closeStreamSession (k : Nat) (before : s.closer k = .idle) :
      Moves maxEvents s (.closeStreamSession k) (s.setCloser k .queued)
  | lockWait (k : Nat) (before : s.closer k = .queued) (unsub : s.unsub = true) : Moves maxEvents s (.lockClose k)
      { s.setCloser k .waiting with closeMu := some k, cancelled := true }
  | lockPass (k : Nat) (before : s.closer k = .queued) (unsub : s.unsub = false) :
      Moves maxEvents s (.lockClose k) { s.setCloser k .terminating with closeMu := some k }
  | unsubClosed (k : Nat) (before : s.closer k = .waiting) (exited : s.handler = .exited) :
      Moves maxEvents s (.unsubClosed k) { s.setCloser k .terminating with unsub := false }
  | unsubExpired (k : Nat) (before : s.closer k = .waiting) :
      Moves maxEvents s (.unsubExpired k) { s.setCloser k .returned with closeMu := none }
  | closerTerminate (k : Nat) (before : s.closer k = .terminating) :
      Moves maxEvents s (.closerTerminate k) { s.setCloser k .deleting with terminal := true }
  | deleteSession (k : Nat) (before : s.closer k = .deleting) : Moves maxEvents s (.deleteSession k)
      { s.setCloser k .returned with registered := false, closeMu := none }

theorem moves_of_process (maxEvents r : Nat) (s next : Session) (taken : s.process maxEvents r = some next) :
    Moves maxEvents s (.process r) next := by
  unfold Session.process at taken
  split at taken
  next evt before =>
    split at taken
    next beats =>
      cases taken
      exact .keepalive r evt before beats
    next beats =>
      split at taken
      next closes =>
        split at taken
        · cases taken
          split
          next both => exact .reassemble r evt before both.2 closes
          next short => exact .complete r evt before (by omega) closes
        next untyped =>
          cases taken
          exact .close r evt before (Bool.not_eq_true _ ▸ untyped) closes
      next closes =>
        cases taken
        exact .data r evt before (Bool.not_eq_true _ ▸ beats) (Bool.not_eq_true _ ▸ closes)
  next evt following before =>
    split at taken
    next other =>
      cases taken
      exact .skip r evt following before other
    next data =>
      cases taken
      exact .gathered r evt following before (Bool.not_eq_true _ ▸ data)
  next => cases taken

theorem moves_of_write_terminal (maxEvents r : Nat) (s next : Session) (taken : s.writeTerminal r = some next) :
    Moves maxEvents s (.writeTerminal r) next := by
  unfold Session.writeTerminal at taken
  split at taken
  next evt before =>
    cases taken
    exact .sealed r evt before
  next evt id before =>
    split at taken
    next envelope =>
      cases taken
      exact .closed r evt id before envelope
    next bare =>
      cases taken
      exact .producerError r evt id before (Bool.not_eq_true _ ▸ bare)
  next before =>
    cases taken
    exact .overflow r before
  next => cases taken

theorem moves_of_step (maxEvents : Nat) (s : Session) (action : Action) (next : Session)
    (taken : step maxEvents s action = some next) : Moves maxEvents s action next := by
  cases action with
  | process r => exact moves_of_process maxEvents r s next taken
  | writeTerminal r => exact moves_of_write_terminal maxEvents r s next taken
  | published r ok =>
      simp only [step, Session.published] at taken
      split at taken
      next before =>
        cases ok with
        | true =>
            cases taken
            exact .accepted r before
        | false =>
            cases taken
            exact .refused r before
      · cases taken
  | reconnect r lastSeq =>
      simp only [step, Session.reconnect] at taken
      split at taken
      next before =>
        split at taken
        next registered =>
          cases taken
          exact .reconnect r lastSeq before registered
        · cases taken
      · cases taken
  | tick r =>
      simp only [step, Session.tick] at taken
      split at taken
      next lastSeq before =>
        split at taken
        · cases taken
        next free =>
          cases taken
          exact .tick r lastSeq before (Bool.not_eq_true _ ▸ free)
      · cases taken
  | deadline r =>
      simp only [step, Session.deadline] at taken
      split at taken
      next lastSeq before =>
        cases taken
        exact .deadline r lastSeq before
      · cases taken
  | replayAndResume r =>
      simp only [step, Session.replayAndResume] at taken
      split at taken
      next lastSeq before =>
        cases taken
        exact .replay r lastSeq before
      · cases taken
  | writeLoop r =>
      simp only [step, Session.writeLoop] at taken
      split at taken
      next before =>
        cases taken
        exact .writeLoop r before
      · cases taken
  | receive r =>
      simp only [step, Session.receive] at taken
      split at taken
      next evt rest before head =>
        cases taken
        exact .receive r evt rest before head
      next evt following rest before head =>
        cases taken
        exact .gather r evt following rest before head
      · cases taken
  | timeout r maxDuration =>
      simp only [step, Session.timeout] at taken
      split at taken
      next before =>
        cases taken
        exact .timeout r maxDuration before
      · cases taken
  | interrupted r =>
      simp only [step, Session.interrupted] at taken
      split at taken
      next before =>
        split at taken
        next past =>
          cases taken
          exact .interrupted r before (by simpa using past)
        · cases taken
      · cases taken
  | breakReassemble r =>
      simp only [step, Session.breakReassemble] at taken
      split at taken
      next evt before =>
        cases taken
        exact .breakReassemble r evt before
      · cases taken
  | terminate r =>
      simp only [step, Session.terminate] at taken
      split at taken
      next before =>
        cases taken
        exact .terminate r before
      · cases taken
  | leave r =>
      simp only [step, Session.leave] at taken
      split at taken
      next before =>
        cases taken
        exact .leave r before
      · cases taken
  | read r =>
      simp only [step, Session.read] at taken
      split at taken
      next line rest connected head =>
        cases taken
        exact .read r line rest connected head
      · cases taken
  | disconnect r =>
      simp only [step, Session.disconnect] at taken
      split at taken
      next connected =>
        cases taken
        exact .disconnect r connected
      · cases taken
  | eof r =>
      simp only [step, Session.eof] at taken
      split at taken
      next finished connected empty =>
        cases taken
        exact .eof r finished connected empty
      · cases taken
  | stop r =>
      cases taken
      exact .stop r
  | deliver evt =>
      simp only [step, Session.deliver] at taken
      split at taken
      next idle =>
        cases taken
        exact .deliver evt idle
      · cases taken
  | send =>
      simp only [step, Session.send] at taken
      split at taken
      next evt sending =>
        split at taken
        next room =>
          cases taken
          exact .send evt sending room
        · cases taken
      · cases taken
  | drop =>
      simp only [step, Session.drop] at taken
      split at taken
      next evt sending =>
        split at taken
        next past =>
          cases taken
          exact .drop evt sending past
        · cases taken
      · cases taken
  | exit =>
      simp only [step, Session.exit] at taken
      split at taken
      next idle =>
        cases taken
        exact .exit idle
      · cases taken
  | closeStreamSession k =>
      simp only [step, Session.closeStreamSession] at taken
      split at taken
      next before =>
        split at taken
        · cases taken
          exact .closeStreamSession k before
        · cases taken
      · cases taken
  | lockClose k =>
      simp only [step, Session.lockClose] at taken
      split at taken
      next before _ =>
        split at taken
        next unsub =>
          cases taken
          exact .lockWait k before unsub
        next unsub =>
          cases taken
          exact .lockPass k before (Bool.not_eq_true _ ▸ unsub)
      · cases taken
  | unsubClosed k =>
      simp only [step, Session.unsubClosed] at taken
      split at taken
      next before exited =>
        cases taken
        exact .unsubClosed k before exited
      · cases taken
  | unsubExpired k =>
      simp only [step, Session.unsubExpired] at taken
      split at taken
      next before =>
        cases taken
        exact .unsubExpired k before
      · cases taken
  | closerTerminate k =>
      simp only [step, Session.closerTerminate] at taken
      split at taken
      next before =>
        cases taken
        exact .closerTerminate k before
      · cases taken
  | deleteSession k =>
      simp only [step, Session.deleteSession] at taken
      split at taken
      next before =>
        cases taken
        exact .deleteSession k before
      · cases taken

end Brainkit.Gateway.Session
