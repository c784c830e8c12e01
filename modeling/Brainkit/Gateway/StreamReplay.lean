import Brainkit.Gateway.ActiveWriter
import Brainkit.Gateway.Reassembly
import Brainkit.Library.EventStream
import Brainkit.Library.GoDecimal
import Brainkit.Library.Replay

set_option autoImplicit false

namespace Brainkit.Gateway

open Function (update)
open GoText GoDecimal Replay Transition

def RequestPc.role : RequestPc → Role
  | .idle => .idle
  | .waiting lastSeq => .queued lastSeq
  | .ready lastSeq => .primed lastSeq
  | .publishing | .entering | .writing | .received _ | .reassembling _ | .gathered _ _ | .sealing _ | .capped => .writing
  | .closing _ id => .drawn id
  | .terminating => .closing
  | .leaving => .leaving
  | .finished => .finished

def RequestPc.held : RequestPc → List StreamEvent
  | .received evt | .gathered _ evt => [evt].filter StreamEvent.isData
  | _ => []

def RequestPc.settled : RequestPc → Bool
  | .sealing _ | .closing _ _ | .terminating => true
  | _ => false

def RequestPc.awaits : RequestPc → Option StreamEvent
  | .reassembling evt | .gathered evt _ => some evt
  | _ => none

def HandlerPc.held : HandlerPc → List StreamEvent
  | .sending evt => [evt].filter StreamEvent.isData
  | _ => []

def Line.ends (line : Line) : Bool := line.source.ends

def Line.dataEvent (line : Line) : Option StreamEvent :=
  match line.source with
  | .data evt | .reassembled evt => some evt
  | .terminal _ | .synthetic _ => none

-- What the texts of a stream are made of: its token, a UUID; the data inside an envelope; and the data of an error
-- event.
structure Texts where
  token : GoString
  unwrapEnvelope : GoString → GoString
  errData : Nat → GoString → GoString
  tokenPlain : EventStream.Plain token ∧ 0 ∉ token

namespace Line

variable (t : Texts)

def lastEventId (line : Line) : GoString := formatStreamID t.token line.id

def eventName (line : Line) : GoString :=
  match line.source with
  | .data evt | .reassembled evt => evt.eventName
  | .terminal evt => if evt.isTerminal then evt.type else lit "end"
  | .synthetic _ => lit "error"

def eventData (line : Line) : GoString :=
  match line.source with
  | .data evt => evt.liveData
  | .reassembled evt => evt.data
  | .terminal evt => if evt.isTerminal then evt.data else t.unwrapEnvelope evt.payload
  | .synthetic reason => t.errData line.id reason

def text (line : Line) : GoString := sseEvent (line.lastEventId t) line.eventName (line.eventData t)

def message (line : Line) : EventStream.Message := EventStream.message (line.lastEventId t) line.eventName (line.eventData t)

-- The name and the data of the event have no line end.
def Plain (line : Line) : Prop := EventStream.Plain line.eventName ∧ EventStream.Plain (line.eventData t)

instance (line : Line) : Decidable (line.Plain t) :=
  inferInstanceAs (Decidable (EventStream.Plain line.eventName ∧ EventStream.Plain (line.eventData t)))

end Line

def frameText (t : Texts) : Option Line → GoString
  | some line => line.text t
  | none => lit ":keepalive\n\n"

namespace Session

variable {t : Texts}

def reading (s : Session) : Reading Line where
  buffer := s.buffer.map fun evt => (evt.id, evt.line)
  nextID := s.nextID
  terminal := s.terminal
  role r := (s.request r).role
  gone := s.ctxDone
  connected := s.connected
  wire := s.wire
  observed := s.observed
  ended := s.ended

-- A client reconnects when it has no connection, with the id of the last event that it has received. The buffer has not
-- overflowed, the gateway does not stop, and it closes the session only after its end.
def Fair (s : Session) : Action → Prop
  | .reconnect _ lastSeq => (∀ r, s.connected r = false) ∧ s.observed.getLast?.map Line.id = some lastSeq
  | .writeTerminal r => s.request r ≠ .capped
  | .closerTerminate _ => s.terminal = true
  | .stop _ => False
  | _ => True

-- A reconnect goes on only when no other request is between its own wait and the end of its writing. What ends the
-- stream (events is the number of data events that are delivered) names all of them, and is waited for, or comes after
-- them. An error event of the gateway, which is not put in the buffer, is written to a client who is there, and the
-- client stays until it has received it. What the client reads has its name and its data on one line each.
def Clean (t : Texts) (events : Nat) (s : Session) : Action → Prop
  | .tick _ => ∀ r, (s.request r).role.engaged = false
  | .process r => ∀ evt, s.request r = .received evt → evt.closes = true →
      (evt.isTerminal = true ∧ (events : Int) ≤ evt.total) ∨ events ≤ s.eventCount
  | .breakReassemble _ => events ≤ s.eventCount
  | .timeout r _ => s.connected r = true ∧ events ≤ s.eventCount
  | .writeTerminal r => ∀ evt id, s.request r = .closing evt id → evt.envelope = false → s.connected r = true
  | .disconnect r => ∀ line ∈ s.wire r, ∃ evt ∈ s.buffer, evt.line = line
  | .read r => ∀ line, (s.wire r).head? = some line → line.Plain t
  | _ => True

theorem reading_goto (s : Session) (r : Nat) (pc : RequestPc) : (s.goto r pc).reading = s.reading.turn r pc.role := by
  have roles : (fun q => (update s.request r pc q).role) = update (fun q => (s.request q).role) r pc.role :=
    Function.comp_update RequestPc.role s.request r pc
  simp only [reading, goto, Reading.turn, roles]

theorem reading_stay {s : Session} {r : Nat} {pc : RequestPc} (same : (s.request r).role = pc.role) :
    (s.goto r pc).reading = s.reading := by
  have still : update s.reading.role r pc.role = s.reading.role := by
    rw [← same]
    exact Function.update_eq_self r s.reading.role
  rw [reading_goto, Reading.turn, still]

theorem write_eq (s : Session) (r : Nat) (lines : List Line) :
    s.write r lines = { s with wire := if s.connected r then update s.wire r (s.wire r ++ lines) else s.wire } := by
  unfold write
  split
  · rfl
  · rfl

theorem reading_write (s : Session) (r : Nat) (lines : List Line) : (s.write r lines).reading = s.reading.write r lines := by
  rw [write_eq]
  rfl

theorem reading_write_sse (s : Session) (r : Nat) (source : Source) :
    (s.writeSSEEvent r source).reading = { s.reading.write r [⟨s.nextID, source⟩] with
      buffer := s.reading.buffer ++ [(s.nextID, ⟨s.nextID, source⟩)]
      nextID := s.nextID + 1 } := by
  rw [writeSSEEvent, write_eq]
  simp only [reading, List.map_append, List.map_singleton]
  rfl

theorem reading_later (s : Session) (lastSeq : Nat) : s.later lastSeq = s.reading.later lastSeq := by
  simp only [later, Reading.later, reading, List.filter_map, List.map_map]
  rfl

theorem request_write_sse (s : Session) (r : Nat) (source : Source) : (s.writeSSEEvent r source).request = s.request := by
  rw [writeSSEEvent, write_eq]

theorem reading_data {s : Session} {r : Nat} {pc : RequestPc} {source : Source} (before : (s.request r).role = .writing)
    (more : source.ends = false) (after : pc.role = .writing) :
    Step Line.id Line.ends s.reading ((s.writeDataEvent r source).goto r pc).reading := by
  have same : ((s.writeDataEvent r source).goto r pc).reading = (s.writeSSEEvent r source).reading := by
    apply reading_stay
    change ((s.writeSSEEvent r source).request r).role = pc.role
    rw [request_write_sse, before, after]
  rw [same, reading_write_sse]
  exact .append r (Line.mk s.nextID source) before rfl more

theorem reading_synthetic (s : Session) (r id : Nat) (reason : String) :
    ((s.writeSyntheticError r id reason).goto r .terminating).reading =
      (s.reading.write r [⟨id, .synthetic (lit reason)⟩]).turn r .closing := by
  rw [reading_goto, writeSyntheticError, reading_write]
  rfl

variable {maxEvents events : Nat}

theorem reading_step (s : Session) (action : Action) (next : Session) (fair : s.Fair action) (clean : s.Clean t events action)
    (taken : step maxEvents s action = some next) : Step Line.id Line.ends s.reading next.reading := by
  have stays {r : Nat} {before after : RequestPc} (at_before : s.request r = before) (same : before.role = after.role) :
      Step Line.id Line.ends s.reading (s.goto r after).reading := by
    rw [reading_stay (by rw [at_before, same])]
    exact .rest
  have role {r : Nat} {pc : RequestPc} (before : s.request r = pc) : s.reading.role r = pc.role :=
    congrArg RequestPc.role before
  cases moves_of_step maxEvents s action next taken with
  | accepted r before => exact stays before rfl
  | refused r before =>
      change Step _ _ s.reading { (s.goto r .finished).reading with connected := update s.connected r false }
      rw [reading_goto]
      exact .dismissed r (.inl (role before))
  | reconnect r lastSeq before =>
      change Step _ _ s.reading { (s.goto r (.waiting lastSeq)).reading with connected := update s.connected r true }
      rw [reading_goto]
      exact .reconnect r lastSeq (role before) fair.1 fair.2
  | tick r lastSeq before =>
      rw [reading_goto]
      exact .tick r lastSeq (role before) clean
  | deadline r lastSeq before =>
      change Step _ _ s.reading { (s.goto r .finished).reading with connected := update s.connected r false }
      rw [reading_goto]
      exact .dismissed r (.inr ⟨lastSeq, role before⟩)
  | replay r lastSeq before =>
      have replayed : Step Line.id Line.ends s.reading _ := .replay r lastSeq (role before)
      rw [reading_goto, reading_write, reading_later]
      by_cases terminal : s.terminal = true
      · rw [if_pos terminal]
        rwa [if_pos (show s.reading.terminal = true from terminal)] at replayed
      · rw [if_neg terminal]
        rwa [if_neg (show ¬ s.reading.terminal = true from terminal)] at replayed
  | writeLoop r before =>
      change Step _ _ s.reading (s.goto r .writing).reading
      exact stays before rfl
  | receive r evt rest before =>
      change Step _ _ s.reading (s.goto r (.received evt)).reading
      exact stays before rfl
  | gather r evt following rest before =>
      change Step _ _ s.reading (s.goto r (.gathered evt following)).reading
      exact stays before rfl
  | timeout r maxDuration before =>
      rw [reading_synthetic]
      exact .told r _ (role before) rfl rfl clean.1
  | interrupted r before past =>
      rw [reading_goto]
      exact .interrupted r (role before) past
  | keepalive r evt before => exact stays before rfl
  | reassemble r evt before => exact stays before rfl
  | complete r evt before => exact stays before rfl
  | close r evt before =>
      change Step _ _ s.reading { (s.goto r (.closing evt s.nextID)).reading with nextID := s.nextID + 1 }
      rw [reading_goto]
      exact .draw r (role before)
  | data r evt before =>
      apply reading_data (role before) rfl
      rw [afterData]
      split
      · rfl
      · rfl
  | skip r evt following before => exact stays before rfl
  | gathered r evt following before =>
      apply reading_data (role before) rfl
      rw [afterGathered]
      split
      · rfl
      · split
        · rfl
        · rfl
  | breakReassemble r evt before => exact stays before rfl
  | sealed r evt before =>
      rw [reading_goto, reading_write_sse]
      exact .sealed r (Line.mk s.nextID (.terminal evt)) (role before) rfl rfl
  | closed r evt id before =>
      rw [reading_goto, write_eq]
      simp only [reading, List.map_append, List.map_singleton]
      exact .sealedDrawn r (Line.mk id (.terminal evt)) (role before) rfl
  | producerError r evt id before bare =>
      rw [reading_synthetic]
      exact .toldDrawn r _ (role before) rfl (clean evt id before bare)
  | overflow r before => exact absurd before fair
  | terminate r before =>
      change Step _ _ s.reading { (s.goto r .leaving).reading with terminal := true }
      rw [reading_goto]
      exact .terminate r (role before)
  | leave r before =>
      change Step _ _ s.reading (s.goto r .finished).reading
      rw [reading_goto]
      exact .leave r (role before)
  | read r line rest connected head => exact .read r line rest connected head
  | disconnect r connected =>
      apply Step.disconnect r connected
      intro line member
      obtain ⟨evt, stored, same⟩ := clean line member
      rw [Reading.entries, reading, List.map_map]
      exact List.mem_map.mpr ⟨evt, stored, same⟩
  | eof r finished connected empty => exact .eof r (role finished) connected empty
  | stop r => exact fair.elim
  | closerTerminate k before =>
      have past : s.terminal = true := fair
      have same : Session.reading { s.setCloser k .deleting with terminal := true } = s.reading := by
        simp only [reading, setCloser, past]
      rw [same]
      exact .rest
  | _ => exact .rest

theorem reading_new : newStreamSession.reading = Reading.fresh 0 := by
  have roles : (fun q => (update (fun _ => RequestPc.idle) 0 .publishing q).role) = update (fun _ => Role.idle) 0 .writing :=
    Function.comp_update RequestPc.role (fun _ => RequestPc.idle) 0 .publishing
  simp only [reading, newStreamSession, Reading.fresh, roles, List.map_nil]

theorem last_event_id_plain (line : Line) : EventStream.Plain (line.lastEventId t) ∧ 0 ∉ line.lastEventId t := by
  have digits : ∀ byte ∈ decimal line.id, byte ≠ 0 ∧ byte ≠ 10 ∧ byte ≠ 13 := by
    intro byte member
    refine ⟨?_, ?_, ?_⟩
    all_goals
      rintro rfl
      have shape := decimal_plain line.id _ member
      revert shape
      decide
  have colon : EventStream.Plain (lit ":") ∧ 0 ∉ lit ":" := by decide
  obtain ⟨plain, noNul⟩ := t.tokenPlain
  constructor
  · exact EventStream.plain_append (EventStream.plain_append plain colon.1) fun byte member => (digits byte member).2
  · intro member
    rcases List.mem_append.mp member with before | digit
    · rcases List.mem_append.mp before with token | sep
      · exact noNul token
      · exact colon.2 sep
    · exact (digits 0 digit).1 rfl

theorem text_event (line : Line) :
    line.text t = EventStream.event (line.lastEventId t) line.eventName (line.eventData t) := by
  have id : lit "id: " = [105, 100] ++ [58, 32] := by decide
  have event : lit "\nevent: " = [10] ++ ([101, 118, 101, 110, 116] ++ [58, 32]) := by decide
  have data : lit "\ndata: " = [10] ++ ([100, 97, 116, 97] ++ [58, 32]) := by decide
  have blank : lit "\n\n" = [10] ++ [10] := by decide
  simp only [Line.text, sseEvent, id, event, data, blank, EventStream.event, EventStream.fieldLine, List.append_assoc]

-- What a reader of the stream dispatches: the events, whatever keepalives stand between them.
theorem read_frames {frames : List (Option Line)} (plain : ∀ line, some line ∈ frames → line.Plain t) :
    EventStream.read (frames.flatMap (frameText t)) = (frames.filterMap id).map (Line.message t) := by
  rw [EventStream.read_frames fun frame => (frame.map (Line.message t)).toList]
  · induction frames with
    | nil => rfl
    | cons frame rest ih =>
        rw [List.flatMap_cons, ih fun line member => plain line (List.mem_cons_of_mem _ member)]
        cases frame with
        | none => rfl
        | some line => rfl
  · intro frame member r ready
    cases frame with
    | none =>
        refine ⟨r.lastEventId, ?_⟩
        have comment : frameText t none = EventStream.comment (lit "keepalive") := by
          change lit ":keepalive\n\n" = _
          decide
        rw [comment, EventStream.Reader.feed_comment (by decide) ready]
        simp
    | some line =>
        have idPlain := last_event_id_plain (t := t) line
        have linePlain := plain line member
        refine ⟨line.lastEventId t, ?_⟩
        rw [frameText, text_event, EventStream.Reader.feed_event idPlain.1 idPlain.2 linePlain.1 linePlain.2 ready]
        rfl

def stored (s : Session) : List StreamEvent := s.buffer.filterMap fun evt => evt.line.dataEvent

def queued (s : Session) : List StreamEvent := s.eventCh.filter StreamEvent.isData ++ s.handler.held

def sent : Action → List StreamEvent
  | .deliver evt => [evt].filter StreamEvent.isData
  | _ => []

def delivered (path : List Action) : List StreamEvent := path.flatMap sent

-- What the client has received so far: the events of the stream with the ids in order from the first on, each once, and
-- the terminal event last. Once it has read a response to its end it has received every data event, in order, and the
-- terminal event.
structure Followed (t : Texts) (all : List StreamEvent) (s : Session) : Prop where
  heard : ∀ frames : List (Option Line), frames.filterMap id = s.observed →
    EventStream.read (frames.flatMap (frameText t)) = s.observed.map (Line.message t)
  inOrder : s.observed.map Line.id = List.range s.observed.length
  endsLast : ∀ line ∈ s.observed.dropLast, line.ends = false
  complete : s.ended = true →
    s.observed.filterMap Line.dataEvent = all ∧ ∃ line, s.observed.getLast? = some line ∧ line.ends = true

-- The data events so far are in the buffer, with one request, or on the way to one. When the end is on its way there are
-- no more of them, and while it is held back it names all of them.
structure Kept (t : Texts) (events : Nat) (seen : List StreamEvent) (s : Session) : Prop where
  count : s.eventCount = s.stored.length
  stock : ∃ r, (∀ q, q ≠ r → (s.request q).held = []) ∧ s.stored ++ (s.request r).held ++ s.queued = seen
  settled : (s.terminal = true ∨ ∃ r, (s.request r).settled = true) → events ≤ s.eventCount
  whole : ∀ r evt, (s.request r).awaits = some evt → (events : Int) ≤ evt.total ∨ events ≤ s.eventCount
  plain : ∀ line ∈ s.observed, line.Plain t

theorem held_unengaged {pc : RequestPc} (idle : pc.role.engaged = false) : pc.held = [] := by
  cases pc with
  | received evt => cases idle
  | gathered evt next => cases idle
  | _ => rfl

theorem stored_append {s next : Session} {evt : BufferedEvent} (buffer : next.buffer = s.buffer ++ [evt]) :
    next.stored = s.stored ++ evt.line.dataEvent.toList := by
  rw [stored, buffer, List.filterMap_append]
  cases data : evt.line.dataEvent with
  | none => rw [List.filterMap_cons, data]; rfl
  | some _ => rw [List.filterMap_cons, data]; rfl

section

variable {seen : List StreamEvent} {s next : Session} {r : Nat} {pc : RequestPc}

theorem stock_at {log : List Line} (logged : Logged Line.id Line.ends s.reading log) (kept : Kept t events seen s)
    (engaged : (s.request r).role.engaged = true) :
    (∀ q, q ≠ r → (s.request q).held = []) ∧ s.stored ++ (s.request r).held ++ s.queued = seen := by
  have alone (q : Nat) (other : q ≠ r) : (s.request q).held = [] := held_unengaged (logged.only engaged other)
  refine ⟨alone, ?_⟩
  obtain ⟨w, nobody, all⟩ := kept.stock
  by_cases same : r = w
  · rwa [same]
  · rwa [nobody r same, ← alone w (Ne.symm same)]

theorem stock_moved (alone : ∀ q, q ≠ r → (s.request q).held = []) (request : next.request = update s.request r pc)
    (all : next.stored ++ pc.held ++ next.queued = seen) :
    ∃ w, (∀ q, q ≠ w → (next.request q).held = []) ∧ next.stored ++ (next.request w).held ++ next.queued = seen := by
  refine ⟨r, fun q other => ?_, ?_⟩
  · rw [request, Function.update_of_ne other]
    exact alone q other
  · rwa [request, Function.update_self]

theorem stock_still (kept : Kept t events seen s) (request : next.request = update s.request r pc)
    (before : (s.request r).held = []) (after : pc.held = []) (stored : next.stored = s.stored) (queued : next.queued = s.queued) :
    ∃ w, (∀ q, q ≠ w → (next.request q).held = []) ∧ next.stored ++ (next.request w).held ++ next.queued = seen := by
  have same (q : Nat) : (next.request q).held = (s.request q).held := by
    rw [request]
    by_cases here : q = r
    · rw [here, Function.update_self, before, after]
    · rw [Function.update_of_ne here]
  obtain ⟨w, nobody, all⟩ := kept.stock
  exact ⟨w, fun q other => (same q).trans (nobody q other), by rwa [same, stored, queued]⟩

theorem kept_goes (kept : Kept t events seen s) (request : next.request = update s.request r pc)
    (stock : ∃ w, (∀ q, q ≠ w → (next.request q).held = []) ∧ next.stored ++ (next.request w).held ++ next.queued = seen)
    (count : next.eventCount = next.stored.length) (more : s.eventCount ≤ next.eventCount)
    (terminal : next.terminal = true → s.terminal = true ∨ (s.request r).settled = true) (observed : next.observed = s.observed)
    (settles : pc.settled = true → events ≤ next.eventCount)
    (awaits : ∀ evt, pc.awaits = some evt → (events : Int) ≤ evt.total ∨ events ≤ next.eventCount) :
    Kept t events seen next where
  count := count
  stock := stock
  settled := by
    rintro (past | ⟨q, settled⟩)
    · exact Nat.le_trans (kept.settled ((terminal past).imp_right fun here => ⟨r, here⟩)) more
    · rw [request] at settled
      by_cases here : q = r
      · rw [here, Function.update_self] at settled
        exact settles settled
      · rw [Function.update_of_ne here] at settled
        exact Nat.le_trans (kept.settled (.inr ⟨q, settled⟩)) more
  whole := by
    intro q evt waits
    rw [request] at waits
    by_cases here : q = r
    · rw [here, Function.update_self] at waits
      exact awaits evt waits
    · rw [Function.update_of_ne here] at waits
      exact (kept.whole q evt waits).imp_right fun enough => Nat.le_trans enough more
  plain := observed ▸ kept.plain

-- A request that takes no event out of the channel and puts no data event into the buffer.
theorem kept_still (kept : Kept t events seen s) (request : next.request = update s.request r pc)
    (before : (s.request r).held = []) (after : pc.held = []) (stored : next.stored = s.stored) (queued : next.queued = s.queued)
    (count : next.eventCount = s.eventCount) (terminal : next.terminal = true → s.terminal = true ∨ (s.request r).settled = true)
    (observed : next.observed = s.observed) (settles : pc.settled = true → events ≤ s.eventCount)
    (awaits : ∀ evt, pc.awaits = some evt → (events : Int) ≤ evt.total ∨ events ≤ s.eventCount) : Kept t events seen next :=
  kept_goes kept request (stock_still kept request before after stored queued) (by rw [count, kept.count, stored])
    (Nat.le_of_eq count.symm) terminal observed (by rwa [count]) (by rwa [count])

theorem kept_goto (kept : Kept t events seen s) (before : (s.request r).held = []) (after : pc.held = [])
    (settles : pc.settled = true → events ≤ s.eventCount)
    (awaits : ∀ evt, pc.awaits = some evt → (events : Int) ≤ evt.total ∨ events ≤ s.eventCount) :
    Kept t events seen (s.goto r pc) :=
  kept_still kept rfl before after rfl rfl rfl .inl rfl settles awaits

theorem kept_write {lines : List Line} (kept : Kept t events seen s) (before : (s.request r).held = []) (after : pc.held = [])
    (settles : pc.settled = true → events ≤ s.eventCount)
    (awaits : ∀ evt, pc.awaits = some evt → (events : Int) ≤ evt.total ∨ events ≤ s.eventCount) :
    Kept t events seen ((s.write r lines).goto r pc) := by
  rw [write_eq]
  exact kept_still kept rfl before after rfl rfl rfl .inl rfl settles awaits

theorem kept_terminal {evt : BufferedEvent} (kept : Kept t events seen s) (settled : (s.request r).settled = true)
    (before : (s.request r).held = []) (request : next.request = update s.request r .terminating)
    (buffer : next.buffer = s.buffer ++ [evt]) (none : evt.line.dataEvent = none) (queued : next.queued = s.queued)
    (count : next.eventCount = s.eventCount) (terminal : next.terminal = s.terminal) (observed : next.observed = s.observed) :
    Kept t events seen next := by
  have stored : next.stored = s.stored := by rw [stored_append buffer, none, Option.toList_none, List.append_nil]
  exact kept_still kept request before rfl stored queued count (fun past => .inl (terminal ▸ past)) observed
    (fun _ => kept.settled (.inr ⟨r, settled⟩)) nofun

theorem kept_data {source : Source} {evt : StreamEvent} {log : List Line} (logged : Logged Line.id Line.ends s.reading log)
    (kept : Kept t events seen s) (engaged : (s.request r).role.engaged = true) (held : (s.request r).held = [evt])
    (data : Line.dataEvent ⟨s.nextID, source⟩ = some evt) (after : pc.held = [])
    (settles : pc.settled = true → events ≤ s.eventCount + 1)
    (awaits : ∀ evt, pc.awaits = some evt → (events : Int) ≤ evt.total ∨ events ≤ s.eventCount + 1) :
    Kept t events seen ((s.writeDataEvent r source).goto r pc) := by
  obtain ⟨alone, all⟩ := stock_at logged kept engaged
  rw [writeDataEvent, writeSSEEvent, write_eq]
  have stored : ∀ other : Session, other.buffer = s.buffer ++ [⟨s.nextID, ⟨s.nextID, source⟩⟩] →
      other.stored = s.stored ++ [evt] := by
    intro other buffer
    rw [stored_append buffer, data]
    rfl
  refine kept_goes kept rfl (stock_moved alone rfl ?_) ?_ (Nat.le_succ _) .inl rfl settles awaits
  · rw [stored _ rfl, after, List.append_nil, ← held]
    exact all
  · rw [stored _ rfl, List.length_append, ← kept.count]
    rfl

theorem kept_receive {evt : StreamEvent} {rest : List StreamEvent} {log : List Line}
    (logged : Logged Line.id Line.ends s.reading log) (kept : Kept t events seen s)
    (engaged : (s.request r).role.engaged = true) (before : (s.request r).held = []) (head : s.eventCh = evt :: rest)
    (after : pc.held = [evt].filter StreamEvent.isData) (settles : pc.settled = true → events ≤ s.eventCount)
    (awaits : ∀ evt, pc.awaits = some evt → (events : Int) ≤ evt.total ∨ events ≤ s.eventCount) :
    Kept t events seen { s.goto r pc with eventCh := rest } := by
  obtain ⟨alone, all⟩ := stock_at logged kept engaged
  refine kept_goes kept rfl (stock_moved alone rfl ?_) kept.count (Nat.le_refl _) .inl rfl settles awaits
  have split : s.queued = [evt].filter StreamEvent.isData ++ (rest.filter StreamEvent.isData ++ s.handler.held) := by
    rw [queued, head, ← List.singleton_append, List.filter_append, List.append_assoc]
  rw [before, List.append_nil, split, ← List.append_assoc, ← after] at all
  exact all

end

theorem filter_not_data {evt : StreamEvent} (other : (evt.isHeartbeat || evt.closes) = true) :
    [evt].filter StreamEvent.isData = [] := by
  have not : evt.isData = false := by
    rw [StreamEvent.isData, ← Bool.not_or, other]
    rfl
  rw [List.filter_cons_of_neg (by rw [not]; exact Bool.false_ne_true), List.filter_nil]

theorem filter_data {evt : StreamEvent} (data : (evt.isHeartbeat || evt.closes) = false) :
    [evt].filter StreamEvent.isData = [evt] := by
  have both : evt.isData = true := by
    rw [StreamEvent.isData, ← Bool.not_or, data]
    rfl
  rw [List.filter_cons_of_pos both, List.filter_nil]

theorem kept_step {seen : List StreamEvent} {log : List Line} (s : Session) (action : Action) (next : Session)
    (logged : Logged Line.id Line.ends s.reading log) (kept : Kept t events seen s) (fair : s.Fair action)
    (clean : s.Clean t events action) (few : seen.length ≤ events) (other : ∀ evt, action ≠ .deliver evt)
    (taken : step maxEvents s action = some next) : Kept t events seen next := by
  have none {r : Nat} {pc : RequestPc} (before : s.request r = pc) (empty : pc.held = []) : (s.request r).held = [] := by
    rw [before, empty]
  have unsettled {bound : Prop} (settled : false = true) : bound := absurd settled Bool.false_ne_true
  have unasked {bound : StreamEvent → Prop} (evt : StreamEvent) (asked : Option.none = some evt) : bound evt :=
    absurd asked (Option.some_ne_none evt).symm
  have engaged {r : Nat} {pc : RequestPc} (before : s.request r = pc) (busy : pc.role.engaged = true) :
      (s.request r).role.engaged = true := by rw [before, busy]
  cases moves_of_step maxEvents s action next taken with
  | accepted r before => exact kept_goto kept (none before rfl) rfl unsettled unasked
  | refused r before | reconnect r lastSeq before | deadline r lastSeq before | writeLoop r before =>
      exact kept_still kept rfl (none before rfl) rfl rfl rfl rfl .inl rfl unsettled unasked
  | tick r lastSeq before => exact kept_goto kept (none before rfl) rfl unsettled unasked
  | replay r lastSeq before =>
      split
      · exact kept_write kept (none before rfl) rfl unsettled unasked
      · exact kept_write kept (none before rfl) rfl unsettled unasked
  | receive r evt rest before head =>
      exact kept_receive logged kept (engaged before rfl) (none before rfl) head rfl unsettled unasked
  | gather r evt following rest before head =>
      refine kept_receive logged kept (engaged before rfl) (none before rfl) head rfl unsettled fun other same => ?_
      cases same
      exact kept.whole r evt (by rw [before]; rfl)
  | timeout r maxDuration before => exact kept_write kept (none before rfl) rfl (fun _ => clean.2) unasked
  | interrupted r before => exact kept_goto kept (none before rfl) rfl unsettled unasked
  | keepalive r evt before beats =>
      exact kept_goto kept (none before (filter_not_data (by rw [beats]; rfl))) rfl unsettled unasked
  | reassemble r evt before short closes =>
      refine kept_goto kept (none before (filter_not_data (by rw [closes, Bool.or_true]))) rfl unsettled fun other same => ?_
      cases same
      exact (clean evt before closes).imp_left And.right
  | complete r evt before whole closes =>
      refine kept_goto kept (none before (filter_not_data (by rw [closes, Bool.or_true]))) rfl (fun _ => ?_) unasked
      cases clean evt before closes with
      | inl named => exact Int.ofNat_le.mp (Int.le_trans named.2 whole)
      | inr enough => exact enough
  | close r evt before untyped closes =>
      refine kept_still kept rfl (none before (filter_not_data (by rw [closes, Bool.or_true]))) rfl rfl rfl rfl .inl rfl
        (fun _ => (clean evt before closes).resolve_left fun named => ?_) unasked
      exact Bool.false_ne_true (untyped.symm.trans named.1)
  | data r evt before beats closes =>
      have held : (s.request r).held = [evt] := by
        rw [before]
        exact filter_data (by rw [beats, closes]; rfl)
      rw [afterData]
      split
      · exact kept_data logged kept (engaged before rfl) held rfl rfl unsettled unasked
      · exact kept_data logged kept (engaged before rfl) held rfl rfl unsettled unasked
  | skip r evt following before heard =>
      refine kept_goto kept (none before (filter_not_data heard)) rfl unsettled fun other same => ?_
      cases same
      exact kept.whole r evt (by rw [before]; rfl)
  | gathered r evt following before data =>
      have held : (s.request r).held = [following] := by
        rw [before]
        exact filter_data data
      have waits := kept.whole r evt (by rw [before]; rfl)
      rw [afterGathered]
      split
      · exact kept_data logged kept (engaged before rfl) held rfl rfl unsettled unasked
      · split
        · refine kept_data logged kept (engaged before rfl) held rfl rfl unsettled fun other same => ?_
          cases same
          exact waits.imp_right Nat.le_succ_of_le
        · exact kept_data logged kept (engaged before rfl) held rfl rfl (fun _ => by omega) unasked
  | breakReassemble r evt before => exact kept_goto kept (none before rfl) rfl (fun _ => clean) unasked
  | sealed r evt before =>
      rw [writeSSEEvent, write_eq]
      exact kept_terminal kept (by rw [before]; rfl) (none before rfl) rfl rfl rfl rfl rfl rfl rfl
  | closed r evt id before =>
      rw [write_eq]
      exact kept_terminal kept (by rw [before]; rfl) (none before rfl) rfl rfl rfl rfl rfl rfl rfl
  | producerError r evt id before =>
      exact kept_write kept (none before rfl) rfl (fun _ => kept.settled (.inr ⟨r, by rw [before]; rfl⟩)) unasked
  | overflow r before => exact absurd before fair
  | terminate r before =>
      exact kept_still kept rfl (none before rfl) rfl rfl rfl rfl (fun _ => .inr (by rw [before]; rfl)) rfl unsettled unasked
  | leave r before => exact kept_still kept rfl (none before rfl) rfl rfl rfl rfl .inl rfl unsettled unasked
  | read r line rest connected head =>
      refine { kept with plain := fun other member => ?_ }
      cases List.mem_append.mp member with
      | inl before => exact kept.plain other before
      | inr here =>
          rw [List.mem_singleton.mp here]
          exact clean line (by rw [head]; rfl)
  | deliver evt idle => exact absurd rfl (other evt)
  | send evt sending room =>
      have same : queued { s with handler := .idle, eventCh := s.eventCh ++ [evt] } = s.queued := by
        rw [queued, queued, sending, List.filter_append]
        exact List.append_nil _
      refine { kept with stock := ?_ }
      rw [same]
      exact kept.stock
  | drop evt sending past =>
      -- All data events are in the buffer by now, so that this is none.
      have enough := kept.settled (.inl past)
      obtain ⟨w, nobody, all⟩ := kept.stock
      have total := congrArg List.length all
      rw [List.length_append, List.length_append, ← kept.count] at total
      have empty : s.queued = [] := List.eq_nil_of_length_eq_zero (by omega)
      have same : queued { s with handler := .idle } = s.queued := by
        rw [empty, queued, (List.append_eq_nil_iff.mp empty).1]
        rfl
      exact { kept with stock := ⟨w, nobody, by rw [same]; exact all⟩ }
  | exit idle =>
      have same : queued { s with handler := .exited } = s.queued := by rw [queued, queued, idle]; rfl
      exact { kept with stock := by rw [same]; exact kept.stock }
  | closerTerminate k before => exact { kept with settled := fun _ => kept.settled (.inl fair) }
  | _ => exact { kept with }

theorem kept_deliver {seen : List StreamEvent} {s : Session} {evt : StreamEvent} (kept : Kept t events seen s)
    (idle : s.handler = .idle) : Kept t events (seen ++ sent (.deliver evt)) { s with handler := .sending evt } := by
  obtain ⟨w, nobody, all⟩ := kept.stock
  refine { kept with stock := ⟨w, nobody, ?_⟩ }
  rw [← all, queued, queued, idle]
  simp only [HandlerPc.held, sent, List.append_nil, List.append_assoc]
  rfl

-- What the client has read with the response at its end, which is all there is.
theorem followed_of_kept {s : Session} {log : List Line} {seen all : List StreamEvent}
    (logged : Logged Line.id Line.ends s.reading log) (kept : Kept t all.length seen s) (sofar : seen <+: all) :
    Followed t all s where
  heard := by
    intro frames same
    rw [read_frames, same]
    intro line member
    exact kept.plain line (same ▸ List.mem_filterMap.mpr ⟨some line, member, rfl⟩)
  inOrder := logged.observes.inOrder
  endsLast := logged.observes.endsLast
  complete := by
    intro ended
    refine ⟨?_, (logged.observes.complete ended).2⟩
    obtain ⟨whole, isSealed⟩ := logged.ended ended
    have enough : all.length ≤ s.stored.length := by
      rw [← kept.count]
      apply kept.settled
      refine isSealed.imp_right fun ⟨r, closing⟩ => ⟨r, ?_⟩
      change (s.request r).role = .closing at closing
      cases pc : s.request r with
      | terminating => rfl
      | _ =>
          rw [pc] at closing
          cases closing
    have stored : s.stored = all := by
      obtain ⟨w, -, stock⟩ := kept.stock
      have inSeen : s.stored <+: seen := ⟨(s.request w).held ++ s.queued, by rw [← List.append_assoc, stock]⟩
      exact (inSeen.trans sofar).eq_of_length_le enough
    have entries : s.reading.entries.filterMap Line.dataEvent = s.stored := by
      rw [Reading.entries, reading, List.map_map, List.filterMap_map]
      rfl
    rw [show s.observed = log from whole, ← stored, ← entries]
    cases logged.kept with
    | inl same => rw [same]
    | inr told =>
        obtain ⟨-, entry, last, same⟩ := told
        have none : entry.dataEvent = none := by
          cases source : entry.source with
          | data evt | reassembled evt =>
              rw [Line.ends, source] at last
              cases last
          | terminal evt | synthetic reason => rw [Line.dataEvent, source]
        rw [same, List.filterMap_append, List.filterMap_cons, none, List.filterMap_nil, List.append_nil]

theorem request_new {r : Nat} (other : r ≠ 0) : newStreamSession.request r = .idle := by
  simp [newStreamSession, Function.update_of_ne other]

theorem new_kept : Kept t events [] newStreamSession where
  count := rfl
  stock := by
    refine ⟨0, fun q other => ?_, rfl⟩
    rw [request_new other]
    rfl
  settled := by
    rintro (past | ⟨r, settled⟩)
    · cases past
    · by_cases first : r = 0
      · rw [first] at settled
        cases settled
      · rw [request_new first] at settled
        cases settled
  whole := by
    intro r evt waits
    by_cases first : r = 0
    · rw [first] at waits
      cases waits
    · rw [request_new first] at waits
      cases waits
  plain := nofun

theorem followed_along {all seen : List StreamEvent} {log : List Line} {path : List Action} {s : Session}
    (logged : Logged Line.id Line.ends s.reading log) (kept : Kept t all.length seen s) (rest : seen ++ delivered path = all)
    (fair : Along (step maxEvents) Fair s path) (clean : Along (step maxEvents) (Clean t all.length) s path) :
    Always (step maxEvents) (Followed t all) s path := by
  induction path generalizing s seen log with
  | nil => exact followed_of_kept logged kept ⟨_, rest⟩
  | cons action path ih =>
      refine ⟨followed_of_kept logged kept ⟨_, rest⟩, fun next taken => ?_⟩
      have rest' : seen ++ sent action ++ delivered path = all := by rw [← rest, List.append_assoc]; rfl
      obtain ⟨after, logged'⟩ := logged.step (reading_step s action next fair.1 clean.1 taken)
      refine ih logged' ?_ rest' (fair.2 next taken) (clean.2 next taken)
      by_cases delivers : ∃ evt, action = .deliver evt
      · obtain ⟨evt, rfl⟩ := delivers
        cases moves_of_step maxEvents s _ next taken with
        | deliver evt idle => exact kept_deliver kept idle
      · have other (evt : StreamEvent) : action ≠ .deliver evt := fun same => delivers ⟨evt, same⟩
        have silent : sent action = [] := by
          cases action with
          | deliver evt => exact absurd rfl (other evt)
          | _ => rfl
        rw [silent, List.append_nil]
        have few : seen.length ≤ all.length := by rw [← rest, List.length_append]; exact Nat.le_add_right _ _
        exact kept_step s action next logged kept fair.1 clean.1 few other taken

-- In every run in which the steps are clean the client follows the stream to its end.
theorem stream_followed {path : List Action} (fair : Along (step maxEvents) Fair newStreamSession path)
    (clean : Along (step maxEvents) (Clean t (delivered path).length) newStreamSession path) :
    Always (step maxEvents) (Followed t (delivered path)) newStreamSession path := by
  have logged : Logged Line.id Line.ends newStreamSession.reading [] := by
    rw [reading_new]
    exact Logged.fresh 0
  exact followed_along logged new_kept rfl fair clean

def ending (total : Int) : StreamEvent := ⟨lit "end", total, [], lit "0", [], true, false⟩

def texts : Texts := ⟨lit "s", id, fun _ reason => reason, by decide⟩

-- The end overtakes one of two events, and the client is away while it is written.
def reassembled : List Action :=
  [.published 0 true, .writeLoop 0, .deliver hello, .send, .receive 0, .process 0, .read 0, .deliver (ending 2), .send,
    .deliver hello, .send, .receive 0, .process 0, .receive 0, .process 0, .disconnect 0, .writeTerminal 0, .terminate 0,
    .leave 0, .reconnect 1 0, .tick 1, .replayAndResume 1, .read 1, .read 1, .eof 1]

theorem reassembled_followed : Always (step 10) (Followed texts (delivered reassembled)) newStreamSession reassembled := by
  have fair : Along (step 10) Fair newStreamSession reassembled := by
    iterate 16 refine along_cons trivial rfl ?_
    refine along_cons (by rintro ⟨⟩) rfl ?_
    iterate 2 refine along_cons trivial rfl ?_
    refine along_cons ⟨fun r => ?_, rfl⟩ rfl ?_
    · simp [newStreamSession, update, goto, write, writeSSEEvent, writeDataEvent]
    · iterate 5 refine along_cons trivial rfl ?_
      exact trivial
  have clean : Along (step 10) (Clean texts (delivered reassembled).length) newStreamSession reassembled := by
    have plain (line other : Line) (head : some line = some other) (plain : line.Plain texts) : other.Plain texts := by
      cases head
      exact plain
    iterate 5 refine along_cons trivial rfl ?_
    refine along_cons (fun evt before closes => ?_) rfl ?_
    · cases before
      exact absurd closes (by decide)
    refine along_cons (fun line head => plain ⟨0, .data hello⟩ line head (by decide)) rfl ?_
    iterate 5 refine along_cons trivial rfl ?_
    refine along_cons (fun evt before _ => ?_) rfl ?_
    · cases before
      exact .inl (by decide)
    refine along_cons trivial rfl ?_
    refine along_cons (fun evt before => ?_) rfl ?_
    · cases before
    have sent : ∀ line ∈ [Line.mk 1 (.reassembled hello)],
        ∃ evt ∈ [BufferedEvent.mk 0 ⟨0, .data hello⟩, ⟨1, ⟨1, .reassembled hello⟩⟩], evt.line = line := by decide
    refine along_cons sent rfl ?_
    refine along_cons (by rintro evt id ⟨⟩) rfl ?_
    iterate 3 refine along_cons trivial rfl ?_
    refine along_cons (fun r => ?_) rfl ?_
    · by_cases first : r = 0
      · subst first
        rfl
      · by_cases second : r = 1
        · subst second
          rfl
        · simp [newStreamSession, update, first, second, goto, write, writeSSEEvent, writeDataEvent, RequestPc.role, Role.engaged]
    refine along_cons trivial rfl ?_
    refine along_cons (fun line head => plain ⟨1, .reassembled hello⟩ line head (by decide)) rfl ?_
    refine along_cons (fun line head => plain ⟨2, .terminal (ending 2)⟩ line head (by decide)) rfl ?_
    exact along_cons trivial rfl trivial
  exact stream_followed fair clean

def failure : StreamEvent := ⟨[], 0, [], [], lit "1", true, false⟩

def failedAway : List Action :=
  [.published 0 true, .writeLoop 0, .deliver hello, .send, .receive 0, .process 0, .read 0, .deliver failure, .send,
    .disconnect 0, .receive 0, .process 0, .writeTerminal 0, .terminate 0, .leave 0, .reconnect 1 0, .tick 1,
    .replayAndResume 1, .eof 1]

theorem failed_away_unfollowed : ∃ s, Along (step 10) Fair newStreamSession failedAway ∧
    run (step 10) newStreamSession failedAway = some s ∧ ¬ Followed texts (delivered failedAway) s := by
  refine ⟨_, ?_, rfl, fun followed => ?_⟩
  · iterate 12 refine along_cons trivial rfl ?_
    refine along_cons (fun same => nomatch same) rfl ?_
    iterate 2 refine along_cons trivial rfl ?_
    refine along_cons ⟨fun r => ?_, rfl⟩ rfl ?_
    · simp [newStreamSession, update, goto, write, writeSSEEvent, writeDataEvent, writeSyntheticError]
    · iterate 3 refine along_cons trivial rfl ?_
      exact trivial
  · obtain ⟨_, line, last, ends⟩ := followed.complete rfl
    cases last
    cases ends

end Session

end Brainkit.Gateway
