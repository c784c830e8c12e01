import Brainkit.Library.Transition
import Brainkit.Sdk.Envelope

set_option autoImplicit false

namespace Brainkit.Runtime

open Function (update)
open GoText Sdk Transition

-- An exception that is pending in the engine, as a Go error (none for a value that is no Error), before those that
-- reading it leaves pending in turn. Nothing is pending in the empty list.
abbrev Pending := List (Option GoString)

-- The object in __pending_handler_err. A foreign one does not come through json.Unmarshal; for an unprintable one
-- JSON.stringify throws.
inductive Captured where
  | typed (code message : GoString) (details : Details)
  | foreign
  | unprintable (exception : Option GoString) (raises : Pending)

def Captured.printable : Captured → Bool
  | .unprintable _ _ => false
  | _ => true

-- What a handler throws or rejects with: the text of the exception, what reading it leaves pending, and what _capture
-- keeps of it, which is nothing without a code.
structure Thrown where
  text : Option GoString
  raises : Pending
  captured : Option Captured

-- It becomes an error, and its capture JSON, without a further exception.
def Thrown.Printable (thrown : Thrown) : Prop := thrown.raises = [] ∧ ∀ captured ∈ thrown.captured, captured.printable = true

inductive HandlerKind where
  | message
  | stream
deriving DecidableEq

-- How a call of a handler comes back: with a value, with a promise that is pending, or with an exception.
inductive Outcome where
  | returns
  | awaits
  | throws (thrown : Thrown)

-- The promise of a rejected handler has not been caught yet. That of a stream handler is caught twice. The Go call that
-- waits for a succeeded or a failed one has not read the result yet.
inductive HandlerPhase where
  | pending
  | succeeded
  | rejected (thrown : Thrown)
  | rethrown (thrown : Thrown)
  | failed (thrown : Thrown)
  | answered (thrown : Thrown)
  | done

def HandlerPhase.held : HandlerPhase → Option Captured
  | rethrown thrown => thrown.captured
  | failed thrown => thrown.captured
  | _ => none

-- The calls of handlers, one for each message, in the order in which they begin. answers are the errors that Go has
-- answered messages with, by the number of the call.
structure HandlerErrors where
  slot : Option Captured
  exception : Pending
  kind : Nat → HandlerKind
  phase : Nat → HandlerPhase
  invoked : Nat
  answers : List (Nat × GoError)

def sdkFromEnvelopeFallback (isPrint : Nat → Bool) (code message : GoString) (details : Details) (fallback : Option GoError) :
    Option GoError :=
  match fromEnvelope (envelopeErr code message details) with
  | some err => some (err.asError isPrint)
  | none => fallback

def enrichHandlerErr (isPrint : Nat → Bool) (slot : Option Captured) (fallback : Option GoError) : Option GoError :=
  match slot with
  | some (.typed code message details) =>
      if code = [] then fallback else sdkFromEnvelopeFallback isPrint code message details fallback
  | _ => fallback

-- What the probe of enrichHandlerErr leaves pending: an exception of its own, in the place of another.
def probed (slot : Option Captured) (pending : Pending) : Pending :=
  match slot with
  | some (.unprintable exception raises) => exception :: raises
  | _ => pending

-- No error for a value that is no Error and has no code.
def handlerErr (isPrint : Nat → Bool) (kind : HandlerKind) (slot : Option Captured) (text : Option GoString) : Option GoError :=
  (enrichHandlerErr isPrint slot (text.map fun text => ⟨text, none⟩)).map fun err =>
    match kind, err.brainkit with
    | .stream, none => (BrainkitError.bridgeError (lit "bus.callStream.onChunk") (some err.text)).asError isPrint
    | _, _ => err

namespace HandlerErrors

def new : HandlerErrors := ⟨none, [], fun _ => .message, fun _ => .pending, 0, []⟩

def setPhase (i : Nat) (phase : HandlerPhase) (s : HandlerErrors) : HandlerErrors := { s with phase := update s.phase i phase }

def capture (thrown : Thrown) (s : HandlerErrors) : HandlerErrors := { s with slot := thrown.captured.or s.slot }

def report (isPrint : Nat → Bool) (i : Nat) (phase : HandlerPhase) (text : Option GoString) (raises : Pending)
    (s : HandlerErrors) : HandlerErrors :=
  { s.setPhase i phase with
    slot := none
    exception := probed s.slot raises
    answers := s.answers ++ (handlerErr isPrint (s.kind i) s.slot text).toList.map fun err => (i, err) }

def answer (isPrint : Nat → Bool) (i : Nat) (thrown : Thrown) (s : HandlerErrors) : HandlerErrors :=
  s.report isPrint i (.answered thrown) thrown.text thrown.raises

-- After a promise that is fulfilled HasException is asked.
def finish (isPrint : Nat → Bool) (i : Nat) (s : HandlerErrors) : HandlerErrors :=
  match s.exception with
  | [] => s.setPhase i .done
  | text :: raises => s.report isPrint i .done text raises

-- A stream handler begins with an empty slot.
def begin (kind : HandlerKind) (s : HandlerErrors) : HandlerErrors :=
  { s with
    slot := if kind = .stream then none else s.slot
    kind := update s.kind s.invoked kind
    phase := update s.phase s.invoked .pending
    invoked := s.invoked + 1 }

-- A handler that throws before its first await: the exception of a message handler comes out of the call, and a stream
-- handler is called by an async function.
def invoke (isPrint : Nat → Bool) : HandlerKind → Outcome → HandlerErrors → HandlerErrors
  | kind, .awaits, s => s.begin kind
  | .message, .returns, s => (s.begin .message).setPhase s.invoked .done
  | .stream, .returns, s => (s.begin .stream).setPhase s.invoked .succeeded
  | .message, .throws thrown, s => ((s.begin .message).capture thrown).answer isPrint s.invoked thrown
  | .stream, .throws thrown, s => ((s.begin .stream).capture thrown).setPhase s.invoked (.failed thrown)

def settle (i : Nat) : Option Thrown → HandlerErrors → HandlerErrors
  | none, s => s.setPhase i .succeeded
  | some thrown, s => s.setPhase i (.rejected thrown)

-- Other code of the engine may leave an exception pending, or take one; and a job that fails ends the wait of Go for a
-- handler that is pending.
inductive Action where
  | invoke (kind : HandlerKind) (outcome : Outcome)
  | settle (i : Nat) (thrown : Option Thrown)
  | caught (i : Nat)
  | answer (i : Nat)
  | elsewhere (exception : Pending)
  | jobFails (i : Nat) (text : GoString)

def step (isPrint : Nat → Bool) (s : HandlerErrors) : Action → Option HandlerErrors
  | .invoke kind outcome => some (s.invoke isPrint kind outcome)
  | .settle i thrown => match s.phase i with
      | .pending => if i < s.invoked then some (s.settle i thrown) else none
      | _ => none
  | .caught i => match s.phase i with
      | .rejected thrown =>
          some ((s.capture thrown).setPhase i (if s.kind i = .message then .failed thrown else .rethrown thrown))
      | .rethrown thrown => some ((s.capture thrown).setPhase i (.failed thrown))
      | _ => none
  | .answer i => match s.phase i with
      | .failed thrown => some (s.answer isPrint i thrown)
      | .succeeded => some (s.finish isPrint i)
      | _ => none
  | .elsewhere exception => some { s with exception := exception }
  | .jobFails i text => match s.phase i with
      | .pending => if i < s.invoked then some (s.report isPrint i .done (some text) []) else none
      | _ => none

def Attributed (isPrint : Nat → Bool) (s : HandlerErrors) : Prop :=
  ∀ entry ∈ s.answers, ∃ thrown, s.phase entry.1 = .answered thrown ∧
    handlerErr isPrint (s.kind entry.1) thrown.captured thrown.text = some entry.2

def Free (s : HandlerErrors) : Prop := ∀ i, (s.phase i).held = none

def Alone (s : HandlerErrors) : Action → Prop
  | .invoke .message (.throws thrown) => s.Free ∧ thrown.Printable
  | .invoke .message _ => True
  | .invoke .stream _ => s.Free
  | .settle _ _ => True
  | .caught i => ∀ thrown, s.phase i = .rejected thrown → thrown.captured.isSome → s.Free
  | .answer i => ∀ thrown, s.phase i = .failed thrown → (thrown.captured = none → s.Free) ∧ thrown.Printable
  | .elsewhere exception => exception = []
  | .jobFails _ _ => False

structure Valid (isPrint : Nat → Bool) (s : HandlerErrors) : Prop where
  slot : ∀ i captured, (s.phase i).held = some captured → s.slot = some captured
  single : ∀ i j, (s.phase i).held ≠ none → (s.phase j).held ≠ none → i = j
  empty : s.Free → s.slot = none
  fresh : ∀ i, s.invoked ≤ i → s.phase i = .pending
  quiet : s.exception = []
  attributed : s.Attributed isPrint

variable {s next : HandlerErrors} {isPrint : Nat → Bool}

theorem valid_new : new.Valid isPrint where
  slot _ _ holds := nomatch holds
  single _ _ holds := absurd rfl holds
  empty _ := rfl
  fresh _ _ := rfl
  quiet := rfl
  attributed _ member := absurd member List.not_mem_nil

theorem attributed_kept (attributed : s.Attributed isPrint) {i : Nat} (open' : ∀ thrown, s.phase i ≠ .answered thrown)
    (phase : ∀ j, j ≠ i → next.phase j = s.phase j) (kind : ∀ j, j ≠ i → next.kind j = s.kind j) :
    ∀ entry ∈ s.answers, ∃ thrown, next.phase entry.1 = .answered thrown ∧
      handlerErr isPrint (next.kind entry.1) thrown.captured thrown.text = some entry.2 := by
  intro entry member
  obtain ⟨thrown, answered, same⟩ := attributed entry member
  have other : entry.1 ≠ i := fun here => open' thrown (here ▸ answered)
  rw [phase entry.1 other, kind entry.1 other]
  exact ⟨thrown, answered, same⟩

theorem attributed_same (attributed : s.Attributed isPrint) {i : Nat} (open' : ∀ thrown, s.phase i ≠ .answered thrown)
    (phase : ∀ j, j ≠ i → next.phase j = s.phase j) (kind : ∀ j, j ≠ i → next.kind j = s.kind j)
    (answers : next.answers = s.answers) : next.Attributed isPrint := by
  intro entry member
  rw [answers] at member
  exact attributed_kept attributed open' phase kind entry member

theorem quiet_valid (valid : s.Valid isPrint) {i : Nat} (phase : ∀ j, j ≠ i → next.phase j = s.phase j)
    (before : (s.phase i).held = none) (after : (next.phase i).held = none) (slot : next.slot = s.slot)
    (exception : next.exception = s.exception) (fresh : ∀ j, next.invoked ≤ j → next.phase j = .pending)
    (attributed : next.Attributed isPrint) : next.Valid isPrint := by
  have held (j : Nat) : (next.phase j).held = (s.phase j).held := by
    by_cases here : j = i
    · rw [here, before, after]
    · rw [phase j here]
  constructor
  · intro j captured holds
    rw [slot]
    exact valid.slot j captured (held j ▸ holds)
  · intro j k first second
    exact valid.single j k (held j ▸ first) (held k ▸ second)
  · intro free
    rw [slot]
    exact valid.empty fun j => held j ▸ free j
  · exact fresh
  · exact exception.trans valid.quiet
  · exact attributed

theorem phase_other (i j : Nat) (phase : HandlerPhase) (other : j ≠ i) : (s.setPhase i phase).phase j = s.phase j := by
  simp only [setPhase, Function.update_of_ne other]

theorem phase_self (i : Nat) (phase : HandlerPhase) : (s.setPhase i phase).phase i = phase := by
  simp only [setPhase, Function.update_self]

theorem fresh_kept (valid : s.Valid isPrint) {i : Nat} (begun : s.phase i ≠ .pending ∨ i < s.invoked) (phase : HandlerPhase)
    (j : Nat)
    (later : s.invoked ≤ j) : (s.setPhase i phase).phase j = .pending := by
  have other : j ≠ i := by
    rintro rfl
    exact begun.elim (fun moved => moved (valid.fresh j later)) (Nat.not_lt.mpr later)
  rw [phase_other i j phase other]
  exact valid.fresh j later

theorem moved_valid (valid : s.Valid isPrint) {i : Nat} (open' : ∀ thrown, s.phase i ≠ .answered thrown)
    (begun : s.phase i ≠ .pending ∨ i < s.invoked) (before : (s.phase i).held = none) {phase : HandlerPhase}
    (after : phase.held = none) : (s.setPhase i phase).Valid isPrint := by
  refine quiet_valid valid (fun j other => phase_other i j phase other) before ?_ rfl rfl (fresh_kept valid begun phase) ?_
  · rw [phase_self]
    exact after
  · exact attributed_same valid.attributed open' (fun j other => phase_other i j phase other) (fun _ _ => rfl) rfl

theorem begin_phase (valid : s.Valid isPrint) (kind : HandlerKind) : (s.begin kind).phase = s.phase :=
  Function.update_eq_self_iff.mpr (valid.fresh s.invoked (Nat.le_refl _)).symm

theorem begin_valid (valid : s.Valid isPrint) (kind : HandlerKind) (free : kind = .stream → s.Free) :
    (s.begin kind).Valid isPrint := by
  have phase := begin_phase valid kind
  have slot : (s.begin kind).slot = s.slot := by
    unfold begin
    dsimp only
    split
    · next clears => exact (valid.empty (free clears)).symm
    · rfl
  have kinds (j : Nat) (other : j ≠ s.invoked) : (s.begin kind).kind j = s.kind j := by
    simp only [begin, Function.update_of_ne other]
  have pending : s.phase s.invoked = .pending := valid.fresh s.invoked (Nat.le_refl _)
  constructor
  · rw [phase, slot]
    exact valid.slot
  · rw [phase]
    exact valid.single
  · intro empty
    unfold Free at empty
    rw [phase] at empty
    exact slot.trans (valid.empty empty)
  · intro j later
    rw [phase]
    exact valid.fresh j (Nat.le_of_succ_le later)
  · exact valid.quiet
  · exact attributed_same valid.attributed (by simp [pending]) (fun j _ => congrFun phase j) kinds rfl

def denied : Thrown := ⟨some (lit "denied"), [], some (.typed (lit "DENIED") (lit "denied") none)⟩

def boom : Thrown := ⟨some (lit "boom"), [], none⟩

-- Two handlers that await: the first one rejects and is answered before the second one rejects without a code. A third
-- one succeeds.
def apart : List Action :=
  [.invoke .message .awaits, .invoke .message .awaits, .settle 0 (some denied), .caught 0, .answer 0, .settle 1 (some boom),
    .caught 1, .answer 1, .invoke .message .awaits, .settle 2 none, .answer 2]

end HandlerErrors

end Brainkit.Runtime
