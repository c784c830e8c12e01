import Brainkit.Sdk.PendingCallLatch

set_option autoImplicit false

namespace Brainkit.Sdk.PendingCall

open Transition GoText

def DecidedByFirst (decodeEnvelope : RawMessage → Option Envelope) (p : PendingCall) : Prop :=
  ∀ terminal envelope out, p.call = .answered terminal envelope out →
    ∃ first rest, p.terminals = first :: rest ∧ terminal = 0 ∧ envelope = first.envelope ∧
      out = decodeReply decodeEnvelope first.envelope first.payload

-- No terminal message marks the call as an envelope when the first one did not, and no grace goroutine of a later
-- terminal runs the done-once.
def FirstStays (p : PendingCall) : Action → Prop
  | .onInbox msg => p.listed = true → msg.done = true → msg.envelope = true →
      ∀ first, p.terminals.head? = some first → first.envelope = true
  | .finalizeBegin t => p.once = .idle →
      ∀ terminal payload, p.finalizer t = .entering (.reply terminal payload) → terminal = 0
  | _ => True

def Answered (p : PendingCall) : Prop := ∃ terminal envelope out, p.call = .answered terminal envelope out

structure Routed (p : PendingCall) : Prop where
  latch : Latch p
  follows : CallFollows p
  unlisted : Answered p → p.listed = false

theorem terminal_moves (cfg : CallerConfig) (decodeEnvelope : RawMessage → Option Envelope) (p next : PendingCall)
    (action : Action) (taken : step cfg decodeEnvelope p action = some next) :
    (next.terminals = p.terminals ∧ next.envelope = p.envelope) ∨
      ∃ msg, action = .onInbox msg ∧ p.listed = true ∧ msg.done = true ∧ next.call = p.call ∧
        next.terminals = p.terminals ++ [msg] ∧ next.envelope = (p.envelope || msg.envelope) := by
  cases moves_of_step cfg decodeEnvelope p next action taken with
  | streamTerminal msg idle listed terminal => exact .inr ⟨msg, rfl, listed, terminal, rfl, rfl, rfl⟩
  | terminal msg idle listed terminal => exact .inr ⟨msg, rfl, listed, terminal, rfl, rfl, rfl⟩
  | _ => exact .inl ⟨rfl, rfl⟩

theorem answer_moves (cfg : CallerConfig) (decodeEnvelope : RawMessage → Option Envelope) (p next : PendingCall)
    (action : Action) (taken : step cfg decodeEnvelope p action = some next) :
    (¬ Answered p ∧ ¬ Answered next) ∨ (next.call = p.call ∧ (p.listed = false → next.listed = false)) ∨
      ∃ terminal payload, p.call = .reading terminal payload ∧ next.terminals = p.terminals ∧ next.listed = false ∧
        next.call = .answered terminal p.envelope (decodeReply decodeEnvelope p.envelope payload) := by
  cases moves_of_step cfg decodeEnvelope p next action taken with
  | callRead terminal payload reading => exact .inr (.inr ⟨terminal, payload, reading, rfl, rfl, rfl⟩)
  | callReceive terminal payload waiting => exact .inl (by simp [Answered, waiting])
  | streamReceive terminal payload waiting => exact .inl (by simp [Answered, waiting])
  | callFailed err waiting => exact .inl (by simp [Answered, waiting])
  | callDrained terminal payload draining => exact .inl (by simp [Answered, draining])
  | callAbort err waiting => exact .inl (by simp [Answered, waiting])
  | callAborted err aborting => exact .inl (by simp [Answered, aborting])
  | onFailure => exact .inr (.inl ⟨rfl, fun _ => rfl⟩)
  | _ => exact .inr (.inl ⟨rfl, id⟩)

theorem start_routed (cfg : CallerConfig) : Routed (start cfg) where
  latch := start_latch cfg
  follows := trivial
  unlisted := fun ⟨_, _, _, answered⟩ => nomatch answered

theorem routed_step (cfg : CallerConfig) (decodeEnvelope : RawMessage → Option Envelope) (p : PendingCall)
    (action : Action) (next : PendingCall) (routed : Routed p)
    (taken : step cfg decodeEnvelope p action = some next) : Routed next := by
  refine ⟨latch_step cfg decodeEnvelope p action next routed.latch taken,
    call_follows_step cfg decodeEnvelope p next action routed.latch routed.follows taken, fun answered => ?_⟩
  rcases answer_moves cfg decodeEnvelope p next action taken with ⟨-, never⟩ | ⟨same, stays⟩ | ⟨_, _, _, _, unlisted, _⟩
  · exact absurd answered never
  · exact stays (routed.unlisted (by simpa only [Answered, same] using answered))
  · exact unlisted

structure FirstDecides (decodeEnvelope : RawMessage → Option Envelope) (p : PendingCall) : Prop where
  routed : Routed p
  winner : ∀ terminal, Won p terminal → terminal = 0
  marked : p.envelope = (p.terminals.head?.map Message.envelope).getD false
  decided : DecidedByFirst decodeEnvelope p

theorem head_append_mark (terminals : List Message) (msg : Message)
    (keeps : msg.envelope = true → ∀ first, terminals.head? = some first → first.envelope = true) :
    ((terminals.head?.map Message.envelope).getD false || msg.envelope) =
      (((terminals ++ [msg]).head?).map Message.envelope).getD false := by
  cases terminals with
  | nil => rfl
  | cons first rest =>
      cases mark : msg.envelope with
      | false => simp
      | true => simp [keeps mark first rfl]

theorem decided_append (decodeEnvelope : RawMessage → Option Envelope) (p next : PendingCall) (more : List Message)
    (decided : DecidedByFirst decodeEnvelope p) (call : next.call = p.call)
    (terminals : next.terminals = p.terminals ++ more) : DecidedByFirst decodeEnvelope next := by
  intro terminal envelope out answered
  obtain ⟨first, rest, before, facts⟩ := decided terminal envelope out (call ▸ answered)
  exact ⟨first, rest ++ more, by rw [terminals, before, List.cons_append], facts⟩

theorem first_decides_step (cfg : CallerConfig) (decodeEnvelope : RawMessage → Option Envelope) (p : PendingCall)
    (action : Action) (next : PendingCall) (inv : FirstDecides decodeEnvelope p) (stays : FirstStays p action)
    (taken : step cfg decodeEnvelope p action = some next) : FirstDecides decodeEnvelope next := by
  obtain ⟨routed, winner, marked, decided⟩ := inv
  refine ⟨routed_step cfg decodeEnvelope p action next routed taken, fun terminal won => ?_, ?_, ?_⟩
  · rcases won_origin cfg decodeEnvelope p next action routed.latch taken terminal won with
      before | ⟨t, payload, rfl, idle, entering⟩
    · exact winner terminal before
    · exact stays idle terminal payload entering
  · rcases terminal_moves cfg decodeEnvelope p next action taken with
      ⟨terminals, envelope⟩ | ⟨msg, rfl, listed, done, -, terminals, envelope⟩
    · rw [terminals, envelope, marked]
    · rw [terminals, envelope, marked]
      exact head_append_mark p.terminals msg (stays listed done)
  · rcases answer_moves cfg decodeEnvelope p next action taken with
      ⟨-, never⟩ | ⟨same, -⟩ | ⟨terminal, payload, reading, terminals, -, call⟩
    · exact fun terminal envelope out answered => absurd ⟨terminal, envelope, out, answered⟩ never
    · obtain ⟨more, terminals⟩ := terminals_step cfg decodeEnvelope p next action taken
      exact decided_append decodeEnvelope p next more decided same terminals
    · intro n flag out answered
      have latched : p.done = some (.reply terminal payload) := by
        simpa only [CallFollows, reading] using routed.follows
      obtain rfl := winner terminal (.inr ⟨payload, latched⟩)
      obtain ⟨first, here, carried⟩ := routed.latch.latched _ latched
      cases list : p.terminals with
      | nil => simp [list] at here
      | cons head rest =>
          rw [list, List.getElem?_cons_zero, Option.some.injEq] at here
          subst here carried
          have mark : p.envelope = head.envelope := by simp [marked, list]
          rw [call, CallPc.answered.injEq, mark] at answered
          exact ⟨head, rest, terminals.trans list, answered.1.symm, answered.2.1.symm, answered.2.2.symm⟩

-- Once a later terminal has won, or has marked the call before it was read, the outcome no longer comes from the
-- first one.
def Mismarked (p : PendingCall) : Prop :=
  ∃ first rest, p.terminals = first :: rest ∧ first.envelope = false ∧
    ((¬ Answered p ∧ p.envelope = true) ∨ ∃ terminal out, p.call = .answered terminal true out)

def Misled (p : PendingCall) : Prop := (∃ terminal, terminal ≠ 0 ∧ Won p terminal) ∨ Mismarked p

theorem terminal_arrives (cfg : CallerConfig) (decodeEnvelope : RawMessage → Option Envelope) (p next : PendingCall)
    (msg : Message) (listed : p.listed = true) (done : msg.done = true)
    (taken : step cfg decodeEnvelope p (.onInbox msg) = some next) :
    next.call = p.call ∧ next.terminals = p.terminals ++ [msg] ∧ next.envelope = (p.envelope || msg.envelope) := by
  cases moves_of_step cfg decodeEnvelope p next _ taken with
  | unmatched _ idle gone => exact absurd (listed.symm.trans gone) (by decide)
  | streamTerminal => exact ⟨rfl, rfl, rfl⟩
  | terminal => exact ⟨rfl, rfl, rfl⟩
  | chunk _ idle listed intermediate => exact absurd (done.symm.trans intermediate) (by decide)
  | chunkIgnored _ idle listed intermediate => exact absurd (done.symm.trans intermediate) (by decide)

theorem misled_of_break (cfg : CallerConfig) (decodeEnvelope : RawMessage → Option Envelope) (p : PendingCall)
    (action : Action) (next : PendingCall) (routed : Routed p) (breaks : ¬ FirstStays p action)
    (taken : step cfg decodeEnvelope p action = some next) : Misled next := by
  cases action with
  | onInbox msg =>
      simp only [FirstStays] at breaks
      push Not at breaks
      obtain ⟨listed, done, mark, first, head, plain⟩ := breaks
      obtain ⟨call, terminals, envelope⟩ := terminal_arrives cfg decodeEnvelope p next msg listed done taken
      obtain ⟨rest, list⟩ : ∃ rest, p.terminals = first :: rest := List.head?_eq_some_iff.mp head
      refine .inr ⟨first, rest ++ [msg], by rw [terminals, list, List.cons_append], by simpa using plain, .inl ⟨?_, ?_⟩⟩
      · intro answered
        have gone := routed.unlisted (by simpa only [Answered, call] using answered)
        exact absurd (listed.symm.trans gone) (by decide)
      · rw [envelope, mark, Bool.or_true]
  | finalizeBegin t =>
      simp only [FirstStays] at breaks
      push Not at breaks
      obtain ⟨idle, terminal, payload, entering, late⟩ := breaks
      exact .inl ⟨terminal, late, begun_won cfg decodeEnvelope p next t terminal payload idle entering taken⟩
  | _ => exact absurd trivial breaks

theorem misled_step (cfg : CallerConfig) (decodeEnvelope : RawMessage → Option Envelope) (p : PendingCall)
    (action : Action) (next : PendingCall) (routed : Routed p) (misled : Misled p)
    (taken : step cfg decodeEnvelope p action = some next) : Misled next := by
  rcases misled with ⟨terminal, late, won⟩ | ⟨first, rest, list, plain, marked⟩
  · exact .inl ⟨terminal, late, won_step cfg decodeEnvelope p next action routed.latch taken terminal won⟩
  · obtain ⟨more, grown⟩ := terminals_step cfg decodeEnvelope p next action taken
    refine .inr ⟨first, rest ++ more, by rw [grown, list, List.cons_append], plain, ?_⟩
    have stillMarked : p.envelope = true → next.envelope = true := by
      intro mark
      rcases terminal_moves cfg decodeEnvelope p next action taken with ⟨-, same⟩ | ⟨msg, -, -, -, -, -, ored⟩
      · exact same.trans mark
      · rw [ored, mark, Bool.true_or]
    rcases answer_moves cfg decodeEnvelope p next action taken with
      ⟨unanswered, never⟩ | ⟨same, -⟩ | ⟨terminal, payload, reading, -, -, call⟩
    · rcases marked with ⟨-, mark⟩ | ⟨terminal, out, answered⟩
      · exact .inl ⟨never, stillMarked mark⟩
      · exact absurd ⟨terminal, true, out, answered⟩ unanswered
    · rcases marked with ⟨unanswered, mark⟩ | ⟨terminal, out, answered⟩
      · exact .inl ⟨by simpa only [Answered, same] using unanswered, stillMarked mark⟩
      · exact .inr ⟨terminal, out, same.trans answered⟩
    · rcases marked with ⟨-, mark⟩ | ⟨terminal, out, answered⟩
      · exact .inr ⟨terminal, _, by rw [call, mark]⟩
      · exact absurd (reading.symm.trans answered) (by simp)

theorem misled_not_decided (decodeEnvelope : RawMessage → Option Envelope) (p : PendingCall) (routed : Routed p)
    (answered : Answered p) (decided : DecidedByFirst decodeEnvelope p) : ¬ Misled p := by
  obtain ⟨terminal, envelope, out, call⟩ := answered
  obtain ⟨first, rest, list, zero, mark, -⟩ := decided terminal envelope out call
  rintro (⟨other, late, won⟩ | ⟨head, tail, sameList, plain, marked⟩)
  · have same := won_unique p routed.latch other terminal won (answered_won p routed.follows terminal envelope out call)
    exact late (same.trans zero)
  · rcases marked with ⟨unanswered, -⟩ | ⟨n, value, answeredTrue⟩
    · exact unanswered ⟨terminal, envelope, out, call⟩
    · rw [list, List.cons.injEq] at sameList
      rw [call, CallPc.answered.injEq] at answeredTrue
      rw [answeredTrue.2.1, sameList.1, plain] at mark
      exact Bool.false_ne_true mark.symm

theorem first_terminal_decides_iff (cfg : CallerConfig) (decodeEnvelope : RawMessage → Option Envelope)
    (path : List Action) (p : PendingCall) (reached : run (step cfg decodeEnvelope) (start cfg) path = some p) :
    (Along (step cfg decodeEnvelope) FirstStays (start cfg) path → DecidedByFirst decodeEnvelope p) ∧
    (Answered p → (DecidedByFirst decodeEnvelope p ↔ Along (step cfg decodeEnvelope) FirstStays (start cfg) path)) := by
  have holds : Along (step cfg decodeEnvelope) FirstStays (start cfg) path → DecidedByFirst decodeEnvelope p := by
    intro kept
    have initial : FirstDecides decodeEnvelope (start cfg) := by
      refine ⟨start_routed cfg, ?_, rfl, fun _ _ _ answered => nomatch answered⟩
      rintro terminal (⟨t, payload, holding⟩ | ⟨payload, latched⟩)
      · cases holding
      · cases latched
    exact (along_invariant (first_decides_step cfg decodeEnvelope) initial kept reached).decided
  refine ⟨holds, fun answered => ⟨fun decided => ?_, holds⟩⟩
  have routed := run_invariant (routed_step cfg decodeEnvelope) (start_routed cfg) reached
  exact along_of_final (routed_step cfg decodeEnvelope) (misled_of_break cfg decodeEnvelope)
    (misled_step cfg decodeEnvelope) (start_routed cfg) reached (misled_not_decided decodeEnvelope p routed answered decided)

def rawReply : Message := ⟨lit "42", true, false⟩

def markedReply : Message := ⟨lit "42", true, true⟩

theorem raw_reply_decides : ∃ p, p.call = .answered 0 false (.success (some (lit "42"))) ∧
    DecidedByFirst (fun _ => none) p := by
  refine ⟨_, ?_, (first_terminal_decides_iff ⟨false, 0, .block⟩ (fun _ => none)
    [.onInbox rawReply, .finalizeBegin .inbox, .finalizeEnd .inbox, .callReceive, .callRead] _ rfl).1 ?_⟩
  · rfl
  · apply along_cons (fun _ _ mark => absurd mark (by decide)) rfl
    refine along_cons (fun _ terminal payload entering => ?_) rfl ?_
    · cases entering
      rfl
    apply along_cons trivial rfl
    apply along_cons trivial rfl
    exact along_cons trivial rfl trivial

-- A duplicate reply marked as an envelope comes in after the raw reply has been latched: Call then decodes the raw
-- payload as an envelope.
theorem marked_duplicate_reinterprets : ∃ p, Reachable (step ⟨false, 0, .block⟩ fun _ => none)
    (start ⟨false, 0, .block⟩) p ∧
    p.terminals = [rawReply, markedReply] ∧ p.call = .answered 0 true (.undecodable (lit "42")) ∧
    ¬ DecidedByFirst (fun _ => none) p := by
  refine ⟨_, ⟨[.onInbox rawReply, .finalizeBegin .inbox, .finalizeEnd .inbox, .inboxReturn, .onInbox markedReply,
    .callReceive, .callRead], rfl⟩, rfl, rfl, ?_⟩
  intro decided
  obtain ⟨first, rest, terminals, -, mark, -⟩ := decided 0 true _ rfl
  obtain ⟨rfl, -⟩ := List.cons.inj terminals
  cases mark

theorem result_kept (cfg : CallerConfig) (decodeEnvelope : RawMessage → Option Envelope) (before after : List Action)
    (p next : PendingCall) (reached : run (step cfg decodeEnvelope) (start cfg) before = some p)
    (later : run (step cfg decodeEnvelope) p after = some next) (r : Result) (latched : p.done = some r) :
    next.done = some r ∧ Carries next.terminals r := by
  have latch : Latch p := run_invariant (latch_step cfg decodeEnvelope) (start_latch cfg) reached
  have keeps : ∀ q action q', (Latch q ∧ q.done = some r) → step cfg decodeEnvelope q action = some q' →
      Latch q' ∧ q'.done = some r := fun q action q' ⟨latch, done⟩ taken =>
    ⟨latch_step cfg decodeEnvelope q action q' latch taken, done_step cfg decodeEnvelope q q' action latch taken r done⟩
  obtain ⟨latch, done⟩ := run_invariant keeps ⟨latch, latched⟩ later
  exact ⟨done, latch.latched r done⟩

theorem raw_reply_kept : ∃ next : PendingCall, next.terminals = [rawReply, markedReply] ∧ next.done = some (.reply 0 (lit "42")) :=
  ⟨_, rfl, (result_kept ⟨false, 0, .block⟩ (fun _ => none) [.onInbox rawReply, .finalizeBegin .inbox, .finalizeEnd .inbox]
    [.inboxReturn, .onInbox markedReply] _ _ rfl rfl _ rfl).1⟩

end Brainkit.Sdk.PendingCall
