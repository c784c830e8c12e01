import Brainkit.Library.Listed
import Brainkit.Library.Transition

set_option autoImplicit false

-- One WebSocket of the polyfill: the goroutine that dials and reads, the events that it has scheduled, and the object in
-- JavaScript. The data of a message is a number that stands for the frame.
namespace Brainkit.Jsbridge.WebSocket

open Listed Transition

inductive ReadyState where
  | connecting
  | open
  | closing
  | closed
deriving DecidableEq

def ReadyState.value : ReadyState → Nat
  | .connecting => 0
  | .open => 1
  | .closing => 2
  | .closed => 3

inductive Event where
  | open
  | message (data : Nat)
  | error
  | close
deriving DecidableEq

inductive Dialer where
  | refused
  | dialing
  | dialFailed
  | dialDeleted
  | dialReported
  | dialed
  | opened
  | reading
  | readFailed
  | readDeleted
  | ended
deriving DecidableEq

inductive Note where
  | ready (state : ReadyState)
  | fired (event : Event)
  | closeCalled
deriving DecidableEq

structure Socket where
  dialer : Dialer
  -- conns has the entry of this socket.
  registered : Bool
  -- dialCtx is over.
  cancelled : Bool
  scheduled : List Event
  -- __ws_events has the object of this socket.
  listening : Bool
  readyState : ReadyState
  log : List Note
deriving DecidableEq

-- The constructor, when the bridge takes the goroutine on and when it refuses it.
def Socket.new (accepted : Bool) : Socket where
  dialer := if accepted then .dialing else .refused
  registered := accepted
  cancelled := !accepted
  scheduled := []
  listening := true
  readyState := .connecting
  log := [.ready .connecting]

def fireWSEvent (event : Event) (next : Dialer) (s : Socket) : Socket :=
  { s with scheduled := s.scheduled ++ [event], dialer := next }

def deleteConn (next : Dialer) (s : Socket) : Socket := { s with registered := false, dialer := next }

def become (state : ReadyState) (s : Socket) : Socket := { s with readyState := state, log := s.log ++ [.ready state] }

-- The handlers' own calls of close come after the event, as calls of the script.
def fire (event : Event) (s : Socket) : Socket := { s with log := s.log ++ [.fired event] }

def on (event : Event) (s : Socket) : Socket :=
  match event with
  | .open => fire .open (become .open s)
  | .message data => fire (.message data) s
  | .error => fire .error s
  | .close => { fire .close (become .closed s) with listening := false }

def dispatch (event : Event) (s : Socket) : Socket := if s.listening then on event s else s

-- __go_ws_close. The connection is closed as well, after which the goroutine's Read fails.
def goClose (s : Socket) : Socket :=
  if s.registered then { s with registered := false, cancelled := true } else s

def close (s : Socket) : Socket :=
  let called := { s with log := s.log ++ [.closeCalled] }
  if s.readyState = .closed then called else goClose (become .closing called)

inductive Action where
  | dialSucceeds
  | dialFails
  | message (data : Nat)
  | readFails
  -- The goroutine goes on by itself.
  | proceed
  | dispatch
  | close
deriving DecidableEq

def proceed (s : Socket) : Option Socket :=
  match s.dialer with
  | .dialFailed => some (deleteConn .dialDeleted s)
  | .dialDeleted => some (if s.cancelled then { s with dialer := .dialReported } else fireWSEvent .error .dialReported s)
  | .dialReported => some (fireWSEvent .close .ended s)
  -- A connection without its entry is closed again, and nothing is scheduled.
  | .dialed => some { s with dialer := if s.registered then .opened else .ended }
  | .opened => some (fireWSEvent .open .reading s)
  | .readFailed => some (deleteConn .readDeleted s)
  | .readDeleted => some (fireWSEvent .close .ended s)
  | .refused | .dialing | .reading | .ended => none

def step (s : Socket) : Action → Option Socket
  | .dialSucceeds => if s.dialer = .dialing then some { s with dialer := .dialed } else none
  | .dialFails => if s.dialer = .dialing then some { s with dialer := .dialFailed } else none
  | .message data => if s.dialer = .reading then some (fireWSEvent (.message data) .reading s) else none
  | .readFails => if s.dialer = .reading then some { s with dialer := .readFailed } else none
  | .proceed => proceed s
  | .dispatch =>
      match s.scheduled with
      | event :: rest => some (dispatch event { s with scheduled := rest })
      | [] => none
  | .close => some (close s)

def fired (log : List Note) : List Event := log.filterMap fun note =>
  match note with
  | .fired event => some event
  | _ => none

def readies (log : List Note) : List ReadyState := log.filterMap fun note =>
  match note with
  | .ready state => some state
  | _ => none

structure WellBehaved (s : Socket) : Prop where
  forward : (readies s.log).Pairwise fun earlier later => earlier.value ≤ later.value
  openOnce : (fired s.log).count .open ≤ 1
  openBefore : ∀ before after, s.log = before ++ .fired .open :: after → .closeCalled ∉ before
  messages : ∀ before data after, s.log = before ++ .fired (.message data) :: after →
    .open ∈ fired before ∧ .close ∉ fired before
  closeOnce : (fired s.log).count .close ≤ 1
  settled : s.dialer = .refused ∨ s.dialer = .ended → s.scheduled = [] → (fired s.log).count .close = 1

-- close is called when no open event is on its way, and a dial that succeeds still finds its entry.
def Allowed (s : Socket) : Action → Prop
  | .close => s.dialer ≠ .opened ∧ .open ∉ s.scheduled
  | .proceed => s.dialer = .dialed → s.registered = true
  | _ => True

instance : ∀ (s : Socket) (action : Action), Decidable (Allowed s action)
  | s, .close => inferInstanceAs (Decidable (s.dialer ≠ .opened ∧ .open ∉ s.scheduled))
  | s, .proceed => inferInstanceAs (Decidable (s.dialer = .dialed → s.registered = true))
  | _, .dialSucceeds | _, .dialFails | _, .message _ | _, .readFails | _, .dispatch => isTrue trivial

def Body (events : List Event) : Prop := events = [] ∨ events = [.error] ∨ ∃ data : List Nat, events = .open :: data.map .message

def Sent (dialer : Dialer) (events : List Event) : Prop :=
  match dialer with
  | .reading | .readFailed | .readDeleted => ∃ data : List Nat, events = .open :: data.map .message
  | .dialReported => events = [] ∨ events = [.error]
  | .ended => ∃ body, events = body ++ [.close] ∧ Body body
  | _ => events = []

section Shapes

variable {dialer : Dialer} {before after events : List Event} {event : Event}

theorem body_split (body : Body (before ++ event :: after)) :
    (before = [] ∧ (event = .open ∨ event = .error)) ∨
      (∃ n, event = .message n) ∧ .open ∈ before ∧ .close ∉ before := by
  obtain empty | one | ⟨data, same⟩ := body
  · simp at empty
  · obtain ⟨rfl, rfl, -⟩ : before = [] ∧ event = .error ∧ after = [] := by simpa [List.append_eq_cons_iff] using one
    exact .inl ⟨rfl, .inr rfl⟩
  · cases before with
    | nil => exact .inl ⟨rfl, .inl (List.cons.inj same).1⟩
    | cons first rest =>
        have head : first = .open := (List.cons.inj same).1
        have tail : rest ++ event :: after = data.map .message := (List.cons.inj same).2
        have member {e : Event} (inside : e ∈ rest ++ event :: after) : ∃ n, e = .message n := by
          rw [tail] at inside
          obtain ⟨n, -, same⟩ := List.mem_map.mp inside
          exact ⟨n, same.symm⟩
        subst head
        refine .inr ⟨member (List.mem_append_right _ List.mem_cons_self), List.mem_cons_self, fun inside => ?_⟩
        obtain same | later := List.mem_cons.mp inside
        · exact nomatch same
        · obtain ⟨n, same⟩ := member (List.mem_append_left _ later)
          exact nomatch same

theorem sent_body (sent : Sent dialer events) :
    Body events ∨ dialer = .ended ∧ ∃ body, events = body ++ [.close] ∧ Body body := by
  unfold Sent at sent
  split at sent
  · exact .inl (.inr (.inr sent))
  · exact .inl (.inr (.inr sent))
  · exact .inl (.inr (.inr sent))
  · exact .inl (sent.elim .inl fun one => .inr (.inl one))
  · exact .inr ⟨rfl, sent⟩
  · exact .inl (.inl sent)

-- What an event of the goroutine says of the ones before it, and a close event of the goroutine and the ones after it.
def Placed (dialer : Dialer) (before : List Event) (event : Event) (after : List Event) : Prop :=
  match event with
  | .open | .error => before = []
  | .message _ => .open ∈ before ∧ .close ∉ before
  | .close => dialer = .ended ∧ after = [] ∧ .close ∉ before

theorem body_placed {rest : List Event} (body : Body (before ++ event :: rest)) : Placed dialer before event after := by
  obtain ⟨rfl, rfl | rfl⟩ | ⟨⟨n, rfl⟩, opened⟩ := body_split body
  · rfl
  · rfl
  · exact opened

theorem sent_placed (sent : Sent dialer (before ++ event :: after)) : Placed dialer before event after := by
  obtain body | ⟨ended, body, same, shape⟩ := sent_body sent
  · exact body_placed body
  · obtain ⟨rfl, rfl, rfl⟩ | ⟨rest, rfl, -⟩ := append_split same.symm
    · refine ⟨ended, rfl, fun inside => ?_⟩
      obtain ⟨first, last, rfl⟩ := List.append_of_mem inside
      obtain ⟨-, wrong | wrong⟩ | ⟨⟨n, wrong⟩, -⟩ := body_split shape <;> exact nomatch wrong
    · exact body_placed shape

theorem sent_ended (sent : Sent .ended events) : .close ∈ events := by
  obtain ⟨body, rfl, -⟩ := sent
  exact List.mem_append_right _ List.mem_cons_self

theorem count_le_one {e : Event} (alone : ∀ before after, events = before ++ e :: after → e ∉ before) : events.count e ≤ 1 := by
  by_cases inside : e ∈ events
  · obtain ⟨before, after, rfl, absent⟩ := List.eq_append_cons_of_mem inside
    have last : e ∉ after := by
      intro again
      obtain ⟨middle, rest, rfl⟩ := List.append_of_mem again
      refine alone (before ++ e :: middle) rest (by simp) (by simp)
    refine Nat.le_of_eq ?_
    rw [List.count_append, List.count_cons_self, List.count_eq_zero_of_not_mem absent, List.count_eq_zero_of_not_mem last]
  · rw [List.count_eq_zero_of_not_mem inside]
    exact Nat.zero_le 1

end Shapes

section Logs

variable {log : List Note}

@[simp] theorem fired_append (first second : List Note) : fired (first ++ second) = fired first ++ fired second :=
  List.filterMap_append

@[simp] theorem readies_append (first second : List Note) : readies (first ++ second) = readies first ++ readies second :=
  List.filterMap_append

@[simp] theorem fired_nil : fired [] = [] := rfl

@[simp] theorem fired_fired (event : Event) : fired (.fired event :: log) = event :: fired log := rfl

@[simp] theorem fired_ready (state : ReadyState) : fired (.ready state :: log) = fired log := rfl

@[simp] theorem fired_called : fired (.closeCalled :: log) = fired log := rfl

@[simp] theorem readies_nil : readies [] = [] := rfl

@[simp] theorem readies_fired (event : Event) : readies (.fired event :: log) = readies log := rfl

@[simp] theorem readies_ready (state : ReadyState) : readies (.ready state :: log) = state :: readies log := rfl

@[simp] theorem readies_called : readies (.closeCalled :: log) = readies log := rfl

theorem below_closed (state : ReadyState) : state.value ≤ ReadyState.closed.value := by cases state <;> decide

structure Orderly (log : List Note) : Prop where
  forward : (readies log).Pairwise fun earlier later => earlier.value ≤ later.value
  openBefore : ∀ before after, log = before ++ .fired .open :: after → .closeCalled ∉ before
  messages : ∀ before data after, log = before ++ .fired (.message data) :: after →
    .open ∈ fired before ∧ .close ∉ fired before

theorem orderly_append {note : Note} (orderly : Orderly log)
    (rises : ∀ state, note = .ready state → ∀ before ∈ readies log, before.value ≤ state.value)
    (opens : note = .fired .open → .closeCalled ∉ log)
    (data : ∀ n, note = .fired (.message n) → .open ∈ fired log ∧ .close ∉ fired log) : Orderly (log ++ [note]) := by
  constructor
  · rw [readies_append, List.pairwise_append]
    refine ⟨orderly.forward, ?_, fun before member state last => ?_⟩
    · cases note <;> simp
    · cases note with
      | ready now =>
          obtain rfl := List.mem_singleton.mp last
          exact rises state rfl before member
      | fired event => exact nomatch last
      | closeCalled => exact nomatch last
  · intro before after same
    obtain ⟨rfl, rfl, -⟩ | ⟨rest, whole, -⟩ := append_split same
    · exact opens rfl
    · exact orderly.openBefore before rest whole
  · intro before n after same
    obtain ⟨rfl, rfl, -⟩ | ⟨rest, whole, -⟩ := append_split same
    · exact data n rfl
    · exact orderly.messages before n rest whole

end Logs

structure Valid (s : Socket) : Prop where
  orderly : Orderly s.log
  sent : Sent s.dialer (fired s.log ++ s.scheduled)
  top : ∀ state ∈ readies s.log, state.value ≤ s.readyState.value
  present : s.dialer ≠ .refused
  listening : s.listening = true ∨ s.dialer = .ended ∧ s.scheduled = []
  closed : s.readyState = .closed → .close ∈ fired s.log
  closing : s.readyState = .closing → .closeCalled ∈ s.log
  quiet : .closeCalled ∈ s.log → .open ∉ s.scheduled ∧ s.dialer ≠ .opened ∧
    (s.dialer = .dialing ∨ s.dialer = .dialed → s.registered = false)

section Steps

variable {s next : Socket}

theorem goes_valid (valid : Valid s) (seen : next.log = s.log ∧ next.readyState = s.readyState ∧ next.listening = s.listening)
    (going : s.dialer ≠ .ended) (sent : Sent next.dialer (fired s.log ++ next.scheduled)) (present : next.dialer ≠ .refused)
    (quiet : .closeCalled ∈ s.log → .open ∉ next.scheduled ∧ next.dialer ≠ .opened ∧
      (next.dialer = .dialing ∨ next.dialer = .dialed → next.registered = false)) : Valid next := by
  obtain ⟨log, ready, listening⟩ := seen
  refine ⟨log ▸ valid.orderly, by rw [log]; exact sent, by rw [log, ready]; exact valid.top, present, ?_, ?_, ?_, ?_⟩
  · rw [listening]
    exact .inl (valid.listening.resolve_right fun past => going past.1)
  · rw [log, ready]
    exact valid.closed
  · rw [log, ready]
    exact valid.closing
  · rw [log]
    exact quiet

theorem proceed_valid (valid : Valid s) (allowed : Allowed s .proceed) (taken : proceed s = some next) : Valid next := by
  have sent := valid.sent
  have quiet := valid.quiet
  unfold proceed at taken
  split at taken
  · next phase =>
      cases taken
      rw [phase] at sent
      exact goes_valid valid ⟨rfl, rfl, rfl⟩ (by simp [phase]) sent nofun
        fun called => ⟨(quiet called).1, nofun, by simp [deleteConn]⟩
  · next phase =>
      cases taken
      rw [phase] at sent
      split
      · exact goes_valid valid ⟨rfl, rfl, rfl⟩ (by simp [phase]) (.inl sent) nofun
          fun called => ⟨(quiet called).1, nofun, by simp⟩
      · refine goes_valid valid ⟨rfl, rfl, rfl⟩ (by simp [phase]) (.inr ?_) nofun
          fun called => ⟨by simp [fireWSEvent, (quiet called).1], nofun, by simp [fireWSEvent]⟩
        rw [fireWSEvent, ← List.append_assoc, show fired s.log ++ s.scheduled = [] from sent]
        rfl
  · next phase =>
      cases taken
      rw [phase] at sent
      refine goes_valid valid ⟨rfl, rfl, rfl⟩ (by simp [phase])
        ⟨fired s.log ++ s.scheduled, (List.append_assoc _ _ _).symm, ?_⟩ nofun
        fun called => ⟨by simp [fireWSEvent, (quiet called).1], nofun, by simp [fireWSEvent]⟩
      exact sent.elim .inl fun one => .inr (.inl one)
  · next phase =>
      cases taken
      rw [phase] at sent
      have registered := allowed phase
      rw [if_pos registered]
      refine goes_valid valid ⟨rfl, rfl, rfl⟩ (by simp [phase]) sent nofun fun called => ?_
      have gone := (quiet called).2.2 (.inr phase)
      rw [registered] at gone
      exact nomatch gone
  · next phase =>
      cases taken
      rw [phase] at sent
      refine goes_valid valid ⟨rfl, rfl, rfl⟩ (by simp [phase]) ⟨[], ?_⟩ nofun fun called => absurd phase (quiet called).2.1
      rw [fireWSEvent, ← List.append_assoc, show fired s.log ++ s.scheduled = [] from sent]
      rfl
  · next phase =>
      cases taken
      rw [phase] at sent
      exact goes_valid valid ⟨rfl, rfl, rfl⟩ (by simp [phase]) sent nofun
        fun called => ⟨(quiet called).1, nofun, by simp [deleteConn]⟩
  · next phase =>
      cases taken
      rw [phase] at sent
      exact goes_valid valid ⟨rfl, rfl, rfl⟩ (by simp [phase])
        ⟨fired s.log ++ s.scheduled, (List.append_assoc _ _ _).symm, .inr (.inr sent)⟩ nofun
        fun called => ⟨by simp [fireWSEvent, (quiet called).1], nofun, by simp [fireWSEvent]⟩
  all_goals exact nomatch taken

theorem dispatch_valid (valid : Valid s) {event : Event} {rest : List Event} (queued : s.scheduled = event :: rest) :
    Valid (dispatch event { s with scheduled := rest }) := by
  have sent : Sent s.dialer (fired s.log ++ event :: rest) := queued ▸ valid.sent
  have listening : s.listening = true := valid.listening.resolve_right fun past => by
    rw [queued] at past
    exact nomatch past.2
  have quiet : .closeCalled ∈ s.log → .open ∉ event :: rest ∧ s.dialer ≠ .opened ∧
      (s.dialer = .dialing ∨ s.dialer = .dialed → s.registered = false) := queued ▸ valid.quiet
  have calm (called : .closeCalled ∈ s.log) := (quiet called).2
  have later (called : .closeCalled ∈ s.log) : .open ∉ rest := fun inside => (quiet called).1 (.tail event inside)
  have again : Sent s.dialer (fired s.log ++ [event] ++ rest) := by rwa [List.append_assoc, List.singleton_append]
  have placed := sent_placed sent
  rw [dispatch, if_pos listening]
  cases event with
  | «open» =>
      have none : fired s.log = [] := placed
      have uncalled : .closeCalled ∉ s.log := fun called => (quiet called).1 List.mem_cons_self
      have early : ∀ state ∈ readies s.log, state.value ≤ ReadyState.open.value := by
        intro state member
        have low := valid.top state member
        cases ready : s.readyState with
        | connecting => exact Nat.le_trans (ready ▸ low) (by decide)
        | «open» => exact ready ▸ low
        | closing => exact absurd (valid.closing ready) uncalled
        | closed =>
            have gone := valid.closed ready
            rw [none] at gone
            exact nomatch gone
      have ready : Orderly (s.log ++ [.ready .open]) :=
        orderly_append valid.orderly (fun _ same => by cases same; exact early) nofun nofun
      refine ⟨orderly_append ready nofun (fun _ => by simpa [become] using uncalled) nofun,
        by simpa [on, fire, become] using again, ?_,
        valid.present, .inl listening, nofun, nofun, ?_⟩
      · intro state member
        simp only [on, fire, become, readies_append, readies_ready, readies_fired, readies_nil, List.append_nil, List.mem_append,
          List.mem_singleton] at member ⊢
        rcases member with before | rfl
        · exact early state before
        · exact Nat.le_refl _
      · intro called
        simp [on, fire, become, uncalled] at called
  | message data =>
      refine ⟨orderly_append valid.orderly nofun nofun (fun n same => ?_), by simpa [on, fire] using again,
        by simpa [on, fire] using valid.top,
        valid.present, .inl listening, fun closed => ?_, fun closing => ?_, fun called => ?_⟩
      · exact placed
      · simpa [on, fire] using valid.closed closed
      · simpa [on, fire] using valid.closing closing
      · have before : .closeCalled ∈ s.log := by simpa [on, fire] using called
        exact ⟨later before, calm before⟩
  | error =>
      refine ⟨orderly_append valid.orderly nofun nofun nofun, by simpa [on, fire] using again,
        by simpa [on, fire] using valid.top,
        valid.present, .inl listening, fun closed => ?_, fun closing => ?_, fun called => ?_⟩
      · simpa [on, fire] using valid.closed closed
      · simpa [on, fire] using valid.closing closing
      · have before : .closeCalled ∈ s.log := by simpa [on, fire] using called
        exact ⟨later before, calm before⟩
  | close =>
      obtain ⟨ended, last, -⟩ : s.dialer = .ended ∧ rest = [] ∧ Event.close ∉ fired s.log := placed
      have ready : Orderly (s.log ++ [.ready .closed]) := orderly_append valid.orderly
        (fun _ same => by cases same; exact fun state _ => below_closed state) nofun nofun
      refine ⟨orderly_append ready nofun nofun nofun, by simpa [on, fire, become] using again, ?_, valid.present,
        .inr ⟨ended, last⟩, ?_, nofun, ?_⟩
      · exact fun state _ => below_closed state
      · simp [on, fire, become]
      · intro called
        have before : .closeCalled ∈ s.log := by simpa [on, fire, become] using called
        exact ⟨later before, calm before⟩

theorem close_valid (valid : Valid s) (allowed : Allowed s .close) : Valid (close s) := by
  have called : Orderly (s.log ++ [.closeCalled]) := orderly_append valid.orderly nofun nofun nofun
  unfold close
  dsimp only
  split
  · next closed =>
      have past := valid.closed closed
      obtain ⟨before, after, split⟩ := List.append_of_mem past
      have sent := valid.sent
      rw [split, List.append_assoc, List.cons_append] at sent
      obtain ⟨ended, none, -⟩ := sent_placed sent
      have last : s.scheduled = [] := (List.append_eq_nil_iff.mp none).2
      refine ⟨called, by simpa using valid.sent, by simpa using valid.top, valid.present, valid.listening,
        fun _ => by simpa using past,
        fun _ => by simp, fun _ => ⟨?_, ?_, ?_⟩⟩
      · simp [last]
      · simp [ended]
      · simp [ended]
  · next going =>
      have low : ∀ state ∈ readies s.log, state.value ≤ ReadyState.closing.value := by
        intro state member
        have top := valid.top state member
        cases ready : s.readyState with
        | connecting => exact Nat.le_trans (ready ▸ top) (by decide)
        | «open» => exact Nat.le_trans (ready ▸ top) (by decide)
        | closing => exact ready ▸ top
        | closed => exact absurd ready going
      have ready : Orderly (s.log ++ [.closeCalled] ++ [.ready .closing]) :=
        orderly_append called (fun _ same => by cases same; simpa using low) nofun nofun
      have closing : Valid (become .closing { s with log := s.log ++ [.closeCalled], registered := false }) := by
        refine ⟨ready, by simpa [become] using valid.sent, ?_, valid.present, valid.listening, nofun, fun _ => by simp [become],
          fun _ => ⟨allowed.2, allowed.1, fun _ => rfl⟩⟩
        intro state member
        simp only [become, readies_append, readies_called, readies_ready, readies_nil, List.append_nil, List.mem_append,
          List.mem_singleton] at member ⊢
        rcases member with before | rfl
        · exact low state before
        · exact Nat.le_refl _
      unfold goClose
      split
      · exact ⟨closing.orderly, closing.sent, closing.top, closing.present, closing.listening, closing.closed, closing.closing,
          closing.quiet⟩
      · next gone =>
          have same : s.registered = false := by simpa [become] using gone
          have whole : { s with log := s.log ++ [Note.closeCalled], registered := false } =
              { s with log := s.log ++ [Note.closeCalled] } := by
            rw [← same]
          rw [← whole]
          exact closing

theorem step_valid {action : Action} (valid : Valid s) (allowed : Allowed s action) (taken : step s action = some next) :
    Valid next := by
  have sent := valid.sent
  have quiet := valid.quiet
  cases action with
  | dialSucceeds =>
      simp only [step] at taken
      split at taken
      · next phase =>
          cases taken
          rw [phase] at sent
          exact goes_valid valid ⟨rfl, rfl, rfl⟩ (by simp [phase]) sent nofun
            fun called => ⟨(quiet called).1, nofun, fun _ => (quiet called).2.2 (.inl phase)⟩
      · exact nomatch taken
  | dialFails =>
      simp only [step] at taken
      split at taken
      · next phase =>
          cases taken
          rw [phase] at sent
          exact goes_valid valid ⟨rfl, rfl, rfl⟩ (by simp [phase]) sent nofun
            fun called => ⟨(quiet called).1, nofun, by simp⟩
      · exact nomatch taken
  | message n =>
      simp only [step] at taken
      split at taken
      · next phase =>
          cases taken
          rw [phase] at sent
          obtain ⟨data, same⟩ := sent
          refine goes_valid valid ⟨rfl, rfl, rfl⟩ (by simp [phase]) ⟨data ++ [n], ?_⟩ nofun
            fun called => ⟨by simp [fireWSEvent, (quiet called).1], nofun, by simp [fireWSEvent]⟩
          rw [fireWSEvent, ← List.append_assoc, same, List.map_append]
          rfl
      · exact nomatch taken
  | readFails =>
      simp only [step] at taken
      split at taken
      · next phase =>
          cases taken
          rw [phase] at sent
          exact goes_valid valid ⟨rfl, rfl, rfl⟩ (by simp [phase]) sent nofun
            fun called => ⟨(quiet called).1, nofun, by simp⟩
      · exact nomatch taken
  | proceed => exact proceed_valid valid allowed taken
  | dispatch =>
      simp only [step] at taken
      split at taken
      · next event rest queued =>
          cases taken
          exact dispatch_valid valid queued
      · exact nomatch taken
  | close =>
      cases taken
      exact close_valid valid allowed

theorem new_valid : Valid (Socket.new true) := by
  refine ⟨⟨List.pairwise_singleton _ _, fun before after same => ?_, fun before n after same => ?_⟩, rfl, fun state member => ?_,
    nofun, .inl rfl, nofun, nofun, fun called => ?_⟩
  · obtain ⟨-, wrong, -⟩ | ⟨rest, none, -⟩ := append_split (show [] ++ [_] = _ from same)
    · exact nomatch wrong
    · exact absurd none (by simp)
  · obtain ⟨-, wrong, -⟩ | ⟨rest, none, -⟩ := append_split (show [] ++ [_] = _ from same)
    · exact nomatch wrong
    · exact absurd none (by simp)
  · obtain rfl := List.mem_singleton.mp member
    exact Nat.le_refl _
  · exact nomatch List.mem_singleton.mp called

theorem valid_behaves (valid : Valid s) : WellBehaved s := by
  have split {event : Event} {before after : List Event} (same : fired s.log = before ++ event :: after) :
      Placed s.dialer before event (after ++ s.scheduled) := by
    have sent := valid.sent
    rw [same, List.append_assoc, List.cons_append] at sent
    exact sent_placed sent
  have closes : (fired s.log).count .close ≤ 1 := count_le_one fun before after same => (split same).2.2
  refine ⟨valid.orderly.forward, count_le_one fun before after same => ?_, valid.orderly.openBefore, valid.orderly.messages,
    closes,
    fun past idle => ?_⟩
  · have first : before = [] := split same
    simp [first]
  · have ended := past.resolve_left valid.present
    have sent := valid.sent
    rw [ended, idle, List.append_nil] at sent
    exact Nat.le_antisymm closes (List.count_pos_iff.mpr (sent_ended sent))

end Steps

theorem socket_behaves {accepted : Bool} {path : List Action} {final : Socket} (taken : accepted = true)
    (allowed : Along step Allowed (.new accepted) path) (reached : run step (.new accepted) path = some final) :
    WellBehaved final := by
  subst taken
  exact valid_behaves (along_invariant (fun _ _ _ => step_valid) new_valid allowed reached)

def conversation : List Action :=
  [.dialSucceeds, .proceed, .proceed, .dispatch, .message 7, .dispatch, .close, .readFails, .proceed, .proceed, .dispatch]

theorem conversation_behaves : ∃ final, run step (.new true) conversation = some final ∧ WellBehaved final := by
  have allowed : Along step Allowed (.new true) conversation := by decide
  exact ⟨_, rfl, socket_behaves rfl allowed rfl⟩

-- The open event is on its way when the script calls close.
theorem opens_after_close :
    ∃ final, run step (.new true) [.dialSucceeds, .proceed, .proceed, .close, .dispatch] = some final ∧ ¬ WellBehaved final := by
  refine ⟨_, rfl, fun behaves => ?_⟩
  have uncalled := behaves.openBefore [.ready .connecting, .closeCalled, .ready .closing, .ready .open] [] rfl
  exact absurd uncalled (by decide)

end Brainkit.Jsbridge.WebSocket
