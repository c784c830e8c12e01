import Mathlib.Data.List.Infix
import Brainkit.Library.Listed
import Brainkit.Sdk.PendingCallLatch

set_option autoImplicit false

namespace Brainkit.Sdk.PendingCall

open Transition GoText Listed

def Erred (p : PendingCall) : Prop := ∃ chunk ∈ p.handled, chunk.2 = false

structure Delivered (p : PendingCall) (count : Nat) : Prop where
  arrival : p.accepted.Sublist p.arrived
  order : p.handled.map Prod.fst <+: p.accepted
  counted : count ≤ p.accepted.length
  fine : p.handled.take count = (p.accepted.take count).map fun msg => (msg, true)

def DeliveredBeforeSuccess (p : PendingCall) : Prop :=
  ∀ terminal envelope data, p.call = .answered terminal envelope (.success data) →
    ∃ count, p.acceptedBefore[terminal]? = some count ∧ Delivered p count

-- The handler does not fail on a chunk from before the reply that already runs the done-once, and no reply runs it
-- after the handler failed on such a chunk.
def HandlerErrorCounts (p : PendingCall) : Action → Prop
  | .drainHandled false => ∀ terminal count, Won p terminal → p.acceptedBefore[terminal]? = some count →
      count ≤ p.handled.length
  | .finalizeBegin t => p.once = .idle →
      ∀ terminal payload count, p.finalizer t = .entering (.reply terminal payload) →
        p.acceptedBefore[terminal]? = some count → ∀ chunk ∈ p.handled.take count, chunk.2 = true
  | _ => True

def inHand : InboxPc → List Message
  | .enqueue msg | .sending msg | .overflow msg => [msg]
  | .idle | .finalizing => []

structure Feeding (p : PendingCall) : Prop where
  arrival : (p.accepted ++ inHand p.inbox).Sublist p.arrived
  unlocked : p.finalized = true → p.sendMuHeld = false

theorem feeding_idle (p next : PendingCall) (feeding : Feeding p) (idle : next.inbox = .idle)
    (accepted : next.accepted = p.accepted) (arrived : next.arrived = p.arrived) : Feeding next := by
  refine ⟨?_, fun _ => by rw [sendMuHeld, idle]⟩
  rw [accepted, arrived, idle]
  exact ((List.sublist_append_left _ _).append_right []).trans (by simpa [inHand] using feeding.arrival)

theorem feeding_step (cfg : CallerConfig) (decodeEnvelope : RawMessage → Option Envelope) (p next : PendingCall)
    (action : Action) (feeding : Feeding p) (taken : step cfg decodeEnvelope p action = some next) : Feeding next := by
  cases moves_of_step cfg decodeEnvelope p next action taken with
  | terminal msg idle =>
      refine ⟨?_, fun _ => rfl⟩
      simpa [idle, inHand, terminate] using feeding.arrival
  | chunk msg idle =>
      refine ⟨?_, fun _ => rfl⟩
      have before : p.accepted.Sublist p.arrived := by simpa [idle, inHand] using feeding.arrival
      exact before.append (List.Sublist.refl [msg])
  | inboxReturn => exact feeding_idle p _ feeding rfl rfl rfl
  | chunkDropped => exact feeding_idle p _ feeding rfl rfl rfl
  | lockSend msg enqueued unfinalized =>
      refine ⟨?_, fun closed => absurd (unfinalized.symm.trans closed) (by decide)⟩
      simpa [enqueued, inHand] using feeding.arrival
  | sent msg sending =>
      refine ⟨?_, fun _ => rfl⟩
      simpa [sending, inHand] using feeding.arrival
  | newestDropped => exact feeding_idle p _ feeding rfl rfl rfl
  | overflow msg sending =>
      refine ⟨?_, fun closed => absurd (feeding.unlocked closed) (by simp [sendMuHeld, sending])⟩
      simpa [sending, inHand] using feeding.arrival
  | abandonSend => exact feeding_idle p _ feeding rfl rfl rfl
  | finalizeLocked => exact feeding_idle p _ feeding rfl rfl rfl
  | finalizedBefore => exact feeding_idle p _ feeding rfl rfl rfl
  | finalizeEnd t r holding unlocked => exact ⟨feeding.arrival, fun _ => unlocked⟩
  | _ => exact ⟨feeding.arrival, feeding.unlocked⟩

-- The drain side under the block policy: every accepted chunk has been handled, is being handled or is buffered,
-- until the handler fails.
structure Draining (p : PendingCall) : Prop where
  order : p.handled.map Prod.fst <+: p.accepted
  receiving : p.drain = .receiving → p.accepted = p.handled.map Prod.fst ++ p.stream
  handling : ∀ msg, p.drain = .handling msg → p.accepted = p.handled.map Prod.fst ++ msg :: p.stream
  erred : p.drain = .failing ∨ p.drain = .discarding → Erred p
  exited : p.drain = .exited → (p.finalized = true ∧ p.accepted = p.handled.map Prod.fst) ∨ Erred p

theorem draining_step (cfg : CallerConfig) (decodeEnvelope : RawMessage → Option Envelope) (p next : PendingCall)
    (action : Action) (block : cfg.policy = .block) (feeding : Feeding p) (draining : Draining p)
    (taken : step cfg decodeEnvelope p action = some next) : Draining next := by
  obtain ⟨order, receiving, handling, erred, exited⟩ := draining
  cases moves_of_step cfg decodeEnvelope p next action taken with
  | sent msg sending =>
      have closed : p.finalized ≠ true := fun closed => by simpa [sendMuHeld, sending] using feeding.unlocked closed
      refine ⟨order.trans (List.prefix_append _ _), ?_, ?_, erred, ?_⟩
      · intro pc
        simp only [receiving pc, List.append_assoc]
      · intro chunk pc
        simp only [handling chunk pc, List.append_assoc, List.cons_append]
      · intro pc
        rcases exited pc with ⟨finalized, -⟩ | failed
        · exact absurd finalized closed
        · exact .inr failed
  | newestDropped msg sending full policy => exact absurd (block.symm.trans policy) (by decide)
  | oldestDropped msg sending full policy => exact absurd (block.symm.trans policy) (by decide)
  | overflow msg sending full policy => exact absurd (block.symm.trans policy) (by decide)
  | finalizeLocked msg overflow =>
      refine ⟨order, receiving, handling, erred, fun pc => ?_⟩
      exact (exited pc).imp (fun closed => ⟨rfl, closed.2⟩) id
  | finalizeEnd =>
      refine ⟨order, receiving, handling, erred, fun pc => ?_⟩
      exact (exited pc).imp (fun closed => ⟨rfl, closed.2⟩) id
  | drainReceive msg rest pc first =>
      refine ⟨order, fun no => (nomatch no), ?_, fun no => by simp at no, fun no => nomatch no⟩
      rintro _ ⟨⟩
      rw [receiving pc, first]
  | drainExit pc empty finalized =>
      refine ⟨order, fun no => (nomatch no), fun _ no => (nomatch no), fun no => by simp at no, fun _ => .inl ⟨finalized, ?_⟩⟩
      rw [receiving pc, empty, List.append_nil]
  | drainHandled msg pc =>
      have accepted := handling msg pc
      refine ⟨?_, fun _ => ?_, fun _ no => (nomatch no), fun no => by simp at no, fun no => nomatch no⟩
      · rw [accepted]
        exact ⟨p.stream, by simp⟩
      · simp [accepted]
  | drainErred msg pc =>
      have accepted := handling msg pc
      refine ⟨?_, fun no => (nomatch no), fun _ no => (nomatch no), fun _ => ⟨(msg, false), by simp, rfl⟩, fun no => nomatch no⟩
      rw [accepted]
      exact ⟨p.stream, by simp⟩
  | drainFailed pc =>
      exact ⟨order, fun no => (nomatch no), fun _ no => (nomatch no), fun _ => erred (.inl pc), fun no => nomatch no⟩
  | drainDiscard msg rest pc =>
      refine ⟨order, fun no => ?_, fun chunk no => ?_, erred, exited⟩
      · exact absurd (pc.symm.trans no) (by simp)
      · exact absurd (pc.symm.trans no) (by simp)
  | discardExit pc =>
      exact ⟨order, fun no => (nomatch no), fun _ no => (nomatch no), fun no => by simp at no, fun _ => .inr (erred (.inr pc))⟩
  | _ => exact ⟨order, receiving, handling, erred, exited⟩

structure Grows (p next : PendingCall) : Prop where
  accepted : p.accepted <+: next.accepted
  handled : p.handled <+: next.handled
  counts : p.acceptedBefore <+: next.acceptedBefore

theorem grows_step (cfg : CallerConfig) (decodeEnvelope : RawMessage → Option Envelope) (p next : PendingCall)
    (action : Action) (taken : step cfg decodeEnvelope p action = some next) : Grows p next := by
  have same : ∀ {α : Type} (xs : List α), xs <+: xs := fun xs => List.prefix_refl xs
  cases moves_of_step cfg decodeEnvelope p next action taken with
  | streamTerminal => exact ⟨same _, same _, List.prefix_append _ _⟩
  | terminal => exact ⟨same _, same _, List.prefix_append _ _⟩
  | sent => exact ⟨List.prefix_append _ _, same _, same _⟩
  | drainHandled => exact ⟨same _, List.prefix_append _ _, same _⟩
  | drainErred => exact ⟨same _, List.prefix_append _ _, same _⟩
  | _ => exact ⟨same _, same _, same _⟩

structure Counted (p : PendingCall) : Prop where
  lengths : p.acceptedBefore.length = p.terminals.length
  bounded : ∀ count ∈ p.acceptedBefore, count ≤ p.accepted.length

theorem counted_terminate (p : PendingCall) (msg : Message) (counted : Counted p) : Counted (p.terminate msg) := by
  refine ⟨by simp [terminate, counted.lengths], fun count member => ?_⟩
  rcases List.mem_append.mp member with before | last
  · exact counted.bounded count before
  · exact (List.mem_singleton.mp last).le

theorem counted_step (cfg : CallerConfig) (decodeEnvelope : RawMessage → Option Envelope) (p next : PendingCall)
    (action : Action) (counted : Counted p) (taken : step cfg decodeEnvelope p action = some next) : Counted next := by
  have grows := (grows_step cfg decodeEnvelope p next action taken).accepted.length_le
  cases moves_of_step cfg decodeEnvelope p next action taken with
  | streamTerminal msg => exact ⟨(counted_terminate p msg counted).lengths, (counted_terminate p msg counted).bounded⟩
  | terminal msg => exact ⟨(counted_terminate p msg counted).lengths, (counted_terminate p msg counted).bounded⟩
  | _ => exact ⟨counted.lengths, fun count member => (counted.bounded count member).trans grows⟩

def ReadsDrained (p : PendingCall) : Prop :=
  match p.call with
  | .reading _ _ | .answered _ _ _ => p.drain = .exited
  | _ => True

theorem exited_step (cfg : CallerConfig) (decodeEnvelope : RawMessage → Option Envelope) (p next : PendingCall)
    (action : Action) (exited : p.drain = .exited) (taken : step cfg decodeEnvelope p action = some next) :
    next.drain = .exited := by
  cases moves_of_step cfg decodeEnvelope p next action taken with
  | drainReceive msg rest pc => exact absurd (pc.symm.trans exited) (by simp)
  | drainExit => rfl
  | drainHandled msg pc => exact absurd (pc.symm.trans exited) (by simp)
  | drainErred msg pc => exact absurd (pc.symm.trans exited) (by simp)
  | drainFailed pc => exact absurd (pc.symm.trans exited) (by simp)
  | discardExit => rfl
  | _ => exact exited

theorem reads_drained_step (cfg : CallerConfig) (decodeEnvelope : RawMessage → Option Envelope) (p next : PendingCall)
    (action : Action) (streaming : cfg.streaming = true) (drained : ReadsDrained p)
    (taken : step cfg decodeEnvelope p action = some next) : ReadsDrained next := by
  have exited := exited_step cfg decodeEnvelope p next action
  have frame : next.call = p.call → ReadsDrained next := by
    intro same
    unfold ReadsDrained at *
    rw [same]
    cases pc : p.call with
    | reading terminal payload => exact exited (by simpa only [pc] using drained) taken
    | answered terminal envelope out => exact exited (by simpa only [pc] using drained) taken
    | _ => trivial
  cases moves_of_step cfg decodeEnvelope p next action taken with
  | callReceive terminal payload waiting latched plain => exact absurd (streaming.symm.trans plain) (by decide)
  | streamReceive => trivial
  | callFailed => trivial
  | callDrained terminal payload draining ended => exact ended
  | callRead terminal payload reading => simpa only [ReadsDrained, reading] using drained
  | callAbort => trivial
  | callAborted => trivial
  | _ => exact frame rfl

structure Streamed (p : PendingCall) : Prop where
  latch : Latch p
  follows : CallFollows p
  feeding : Feeding p
  draining : Draining p
  counted : Counted p
  drained : ReadsDrained p

theorem streamed_step (cfg : CallerConfig) (decodeEnvelope : RawMessage → Option Envelope)
    (streaming : cfg.streaming = true) (block : cfg.policy = .block) (p : PendingCall) (action : Action)
    (next : PendingCall) (streamed : Streamed p) (taken : step cfg decodeEnvelope p action = some next) :
    Streamed next where
  latch := latch_step cfg decodeEnvelope p action next streamed.latch taken
  follows := call_follows_step cfg decodeEnvelope p next action streamed.latch streamed.follows taken
  feeding := feeding_step cfg decodeEnvelope p next action streamed.feeding taken
  draining := draining_step cfg decodeEnvelope p next action block streamed.feeding streamed.draining taken
  counted := counted_step cfg decodeEnvelope p next action streamed.counted taken
  drained := reads_drained_step cfg decodeEnvelope p next action streaming streamed.drained taken

theorem start_streamed (cfg : CallerConfig) (streaming : cfg.streaming = true) : Streamed (start cfg) where
  latch := start_latch cfg
  follows := trivial
  feeding := ⟨List.Sublist.refl _, fun no => nomatch no⟩
  draining := by
    have receiving : (start cfg).drain = .receiving := if_pos streaming
    refine ⟨List.prefix_refl _, fun _ => rfl, fun msg pc => ?_, fun pc => ?_, fun pc => ?_⟩
    · exact absurd (receiving.symm.trans pc) (by simp)
    · rcases pc with pc | pc <;> exact absurd (receiving.symm.trans pc) (by simp)
    · exact absurd (receiving.symm.trans pc) (by simp)
  counted := ⟨rfl, fun _ member => nomatch member⟩
  drained := trivial

-- The reply that runs the done-once came after a chunk on which the handler failed: a success from here on hides that
-- error.
def Swallowed (p : PendingCall) : Prop :=
  ∃ terminal count, Won p terminal ∧ p.acceptedBefore[terminal]? = some count ∧
    ∃ chunk ∈ p.handled.take count, chunk.2 = false

theorem swallowed_step (cfg : CallerConfig) (decodeEnvelope : RawMessage → Option Envelope) (p : PendingCall)
    (action : Action) (next : PendingCall) (streamed : Streamed p) (swallowed : Swallowed p)
    (taken : step cfg decodeEnvelope p action = some next) : Swallowed next := by
  obtain ⟨terminal, count, won, counts, chunk, member, failed⟩ := swallowed
  have grows := grows_step cfg decodeEnvelope p next action taken
  refine ⟨terminal, count, won_step cfg decodeEnvelope p next action streamed.latch taken terminal won,
    prefix_getElem? grows.counts counts, chunk, ?_, failed⟩
  exact (grows.handled.take count).subset member

theorem swallowed_of_break (cfg : CallerConfig) (decodeEnvelope : RawMessage → Option Envelope) (p : PendingCall)
    (action : Action) (next : PendingCall) (streamed : Streamed p) (breaks : ¬ HandlerErrorCounts p action)
    (taken : step cfg decodeEnvelope p action = some next) : Swallowed next := by
  have grows := grows_step cfg decodeEnvelope p next action taken
  cases action with
  | drainHandled ok =>
      cases ok with
      | true => exact absurd trivial breaks
      | false =>
          simp only [HandlerErrorCounts] at breaks
          push Not at breaks
          obtain ⟨terminal, count, won, counts, before⟩ := breaks
          refine ⟨terminal, count, won_step cfg decodeEnvelope p next _ streamed.latch taken terminal won,
            prefix_getElem? grows.counts counts, ?_⟩
          cases moves_of_step cfg decodeEnvelope p next _ taken with
          | drainErred msg =>
              refine ⟨(msg, false), List.mem_take_iff_getElem.mpr ⟨p.handled.length, ?_, ?_⟩, rfl⟩
              · exact lt_min before (by simp)
              · simp
  | finalizeBegin t =>
      simp only [HandlerErrorCounts] at breaks
      push Not at breaks
      obtain ⟨idle, terminal, payload, count, entering, counts, chunk, member, failed⟩ := breaks
      refine ⟨terminal, count, begun_won cfg decodeEnvelope p next t terminal payload idle entering taken,
        prefix_getElem? grows.counts counts, chunk, (grows.handled.take count).subset member, by simpa using failed⟩
  | _ => exact absurd trivial breaks

theorem handled_moves (cfg : CallerConfig) (decodeEnvelope : RawMessage → Option Envelope) (p next : PendingCall)
    (action : Action) (taken : step cfg decodeEnvelope p action = some next) :
    next.handled = p.handled ∨ ∃ msg ok, action = .drainHandled ok ∧ next.handled = p.handled ++ [(msg, ok)] := by
  cases moves_of_step cfg decodeEnvelope p next action taken with
  | drainHandled msg => exact .inr ⟨msg, true, rfl, rfl⟩
  | drainErred msg => exact .inr ⟨msg, false, rfl, rfl⟩
  | _ => exact .inl rfl

theorem count_of_carried (p next : PendingCall) (counted : Counted p) (counts : p.acceptedBefore <+: next.acceptedBefore)
    (terminal : Nat) (payload : RawMessage) (carries : Carries p.terminals (.reply terminal payload)) :
    p.acceptedBefore[terminal]? = next.acceptedBefore[terminal]? := by
  obtain ⟨msg, here, -⟩ := carries
  obtain ⟨more, grown⟩ := counts
  have inside : terminal < p.acceptedBefore.length := counted.lengths ▸ (List.getElem?_eq_some_iff.mp here).1
  rw [← grown, List.getElem?_append_left inside]

theorem won_carries (p : PendingCall) (latch : Latch p) (terminal : Nat) (won : Won p terminal) :
    ∃ payload, Carries p.terminals (.reply terminal payload) := by
  rcases won with ⟨t, payload, holding⟩ | ⟨payload, latched⟩
  · exact ⟨payload, latch.inFlight t _ (by rw [holding]; rfl)⟩
  · exact ⟨payload, latch.latched _ latched⟩

theorem unswallowed_step (cfg : CallerConfig) (decodeEnvelope : RawMessage → Option Envelope) (p : PendingCall)
    (action : Action) (next : PendingCall) (streamed : Streamed p) (allowed : HandlerErrorCounts p action)
    (unswallowed : ¬ Swallowed p) (taken : step cfg decodeEnvelope p action = some next) : ¬ Swallowed next := by
  rintro ⟨terminal, count, won, counts, chunk, member, failed⟩
  have grows := grows_step cfg decodeEnvelope p next action taken
  rcases won_origin cfg decodeEnvelope p next action streamed.latch taken terminal won with
    before | ⟨t, payload, rfl, idle, entering⟩
  · obtain ⟨payload, carries⟩ := won_carries p streamed.latch terminal before
    rw [← count_of_carried p next streamed.counted grows.counts terminal payload carries] at counts
    have early : chunk ∉ p.handled.take count :=
      fun early => unswallowed ⟨terminal, count, before, counts, chunk, early, failed⟩
    rcases handled_moves cfg decodeEnvelope p next action taken with same | ⟨msg, ok, rfl, grown⟩
    · exact early (same ▸ member)
    · rw [grown] at member
      rcases mem_take_concat p.handled (msg, ok) chunk count member with old | ⟨rfl, short⟩
      · exact early old
      · obtain rfl : ok = false := failed
        exact absurd (allowed terminal count before counts) (Nat.not_le.mpr short)
  · have carries := streamed.latch.inFlight t _ (by rw [entering]; rfl)
    rw [← count_of_carried p next streamed.counted grows.counts terminal payload carries] at counts
    rcases handled_moves cfg decodeEnvelope p next _ taken with same | ⟨msg, ok, other, -⟩
    · have fine := allowed idle terminal payload count entering counts chunk (same ▸ member)
      exact absurd (fine.symm.trans failed) (by decide)
    · cases other

theorem fine_of_all_true (accepted : List Message) (handled : List (Message × Bool)) (count : Nat)
    (order : handled.map Prod.fst <+: accepted) (reaches : count ≤ handled.length)
    (fine : ∀ chunk ∈ handled.take count, chunk.2 = true) :
    handled.take count = (accepted.take count).map fun msg => (msg, true) := by
  obtain ⟨rest, rfl⟩ := order
  rw [List.take_append_of_le_length (by simpa using reaches), ← List.map_take, List.map_map]
  calc handled.take count = (handled.take count).map id := (List.map_id _).symm
    _ = (handled.take count).map ((fun msg => (msg, true)) ∘ Prod.fst) :=
      List.map_congr_left fun chunk member => Prod.ext rfl (fine chunk member)

theorem drained_delivered (p : PendingCall) (streamed : Streamed p) (unswallowed : ¬ Swallowed p) (terminal : Nat)
    (won : Won p terminal) (exited : p.drain = .exited) :
    ∃ count, p.acceptedBefore[terminal]? = some count ∧ Delivered p count := by
  obtain ⟨payload, msg, here, -⟩ := won_carries p streamed.latch terminal won
  have inside : terminal < p.acceptedBefore.length :=
    streamed.counted.lengths ▸ (List.getElem?_eq_some_iff.mp here).1
  have counts : p.acceptedBefore[terminal]? = some p.acceptedBefore[terminal] := List.getElem?_eq_getElem inside
  refine ⟨p.acceptedBefore[terminal], counts, ?_⟩
  have counted := streamed.counted.bounded _ (List.getElem_mem inside)
  have fine : ∀ chunk ∈ p.handled.take p.acceptedBefore[terminal], chunk.2 = true := by
    intro chunk member
    by_contra failed
    exact unswallowed ⟨terminal, _, won, counts, chunk, member, by simpa using failed⟩
  have reaches : p.acceptedBefore[terminal] ≤ p.handled.length := by
    rcases streamed.draining.exited exited with ⟨-, all⟩ | ⟨chunk, member, failed⟩
    · rw [all, List.length_map] at counted
      exact counted
    · by_contra short
      rw [List.take_of_length_le (Nat.le_of_not_le short)] at fine
      exact absurd ((fine chunk member).symm.trans failed) (by decide)
  exact ⟨(List.sublist_append_left _ _).trans streamed.feeding.arrival, streamed.draining.order, counted,
    fine_of_all_true p.accepted p.handled _ streamed.draining.order reaches fine⟩

theorem swallowed_not_delivered (p : PendingCall) (streamed : Streamed p) (terminal : Nat) (envelope : Bool)
    (data : Option RawMessage) (answered : p.call = .answered terminal envelope (.success data))
    (delivered : DeliveredBeforeSuccess p) : ¬ Swallowed p := by
  rintro ⟨other, count, won, counts, chunk, member, failed⟩
  have answer := answered_won p streamed.follows terminal envelope _ answered
  obtain rfl := won_unique p streamed.latch other terminal won answer
  obtain ⟨same, counted, parts⟩ := delivered other envelope data answered
  obtain rfl := Option.some.inj (counts.symm.trans counted)
  rw [parts.fine, List.mem_map] at member
  obtain ⟨msg, -, rfl⟩ := member
  cases failed

theorem delivered_before_success_iff (cfg : CallerConfig) (decodeEnvelope : RawMessage → Option Envelope)
    (streaming : cfg.streaming = true) (block : cfg.policy = .block) (path : List Action) (p : PendingCall)
    (reached : run (step cfg decodeEnvelope) (start cfg) path = some p) :
    (Along (step cfg decodeEnvelope) HandlerErrorCounts (start cfg) path → DeliveredBeforeSuccess p) ∧
    ((∃ terminal envelope data, p.call = .answered terminal envelope (.success data)) →
      (DeliveredBeforeSuccess p ↔ Along (step cfg decodeEnvelope) HandlerErrorCounts (start cfg) path)) := by
  have steps := streamed_step cfg decodeEnvelope streaming block
  have initial := start_streamed cfg streaming
  have streamed := run_invariant steps initial reached
  have delivers : Along (step cfg decodeEnvelope) HandlerErrorCounts (start cfg) path → DeliveredBeforeSuccess p := by
    intro kept terminal envelope data answered
    have keeps : ∀ state action next, Streamed state ∧ ¬ Swallowed state → HandlerErrorCounts state action →
        step cfg decodeEnvelope state action = some next → Streamed next ∧ ¬ Swallowed next :=
      fun state action next holds allowed taken => ⟨steps state action next holds.1 taken,
        unswallowed_step cfg decodeEnvelope state action next holds.1 allowed holds.2 taken⟩
    have unswallowed : ¬ Swallowed (start cfg) := by
      rintro ⟨_, _, _, _, _, member, _⟩
      simp [start] at member
    have both := along_invariant keeps ⟨initial, unswallowed⟩ kept reached
    have exited : p.drain = .exited := by simpa only [ReadsDrained, answered] using streamed.drained
    exact drained_delivered p both.1 both.2 terminal (answered_won p streamed.follows terminal envelope _ answered) exited
  refine ⟨delivers, ?_⟩
  rintro ⟨terminal, envelope, data, answered⟩
  refine ⟨fun delivered => ?_, delivers⟩
  exact along_of_final steps (swallowed_of_break cfg decodeEnvelope) (swallowed_step cfg decodeEnvelope) initial reached
    (swallowed_not_delivered p streamed terminal envelope data answered delivered)

def streamChunk : Message := ⟨lit "1", false, false⟩

def streamEnd : Message := ⟨lit "2", true, false⟩

def handledRun : List Action :=
  [.onInbox streamChunk, .lockSend, .send, .drainReceive, .drainHandled true, .onInbox streamEnd,
    .finalizeBegin (.helper 0), .finalizeEnd (.helper 0), .drainReceive, .callReceive, .callDrained, .callRead]

theorem handled_run_counts :
    Along (step ⟨true, 0, .block⟩ fun _ => none) HandlerErrorCounts (start ⟨true, 0, .block⟩) handledRun := by
  refine ((delivered_before_success_iff ⟨true, 0, .block⟩ (fun _ => none) rfl rfl handledRun _ rfl).2
    ⟨0, false, some (lit "2"), rfl⟩).mp ?_
  rintro terminal envelope data ⟨⟩
  exact ⟨1, rfl, List.Sublist.refl _, List.prefix_refl _, Nat.le_refl _, rfl⟩

-- The handler is still busy with the first chunk when the grace after the terminal reply ends; its error then comes
-- too late.
theorem late_handler_error_swallowed :
    ∃ p, Reachable (step ⟨true, 0, .block⟩ fun _ => none) (start ⟨true, 0, .block⟩) p ∧
      p.call = .answered 0 false (.success (some (lit "2"))) ∧ p.acceptedBefore = [1] ∧
      p.handled = [(streamChunk, false)] ∧ ¬ DeliveredBeforeSuccess p := by
  refine ⟨_, ⟨[.onInbox streamChunk, .lockSend, .send, .drainReceive, .onInbox streamEnd, .finalizeBegin (.helper 0),
    .finalizeEnd (.helper 0), .drainHandled false, .finalizeBegin .drain, .drainFailed, .drainDiscard, .callReceive,
    .callDrained, .callRead], rfl⟩, rfl, rfl, rfl, ?_⟩
  intro delivered
  obtain ⟨count, counts, parts⟩ := delivered 0 false (some (lit "2")) rfl
  obtain rfl : 1 = count := Option.some.inj counts
  exact absurd parts.fine (by decide)

def atDrain : DrainPc → List Message
  | .handling msg => [msg]
  | _ => []

-- The drain side under any policy: a chunk may be lost, but none is handled twice or out of turn, and the handler is
-- not called again after its first error.
structure Flowing (cfg : CallerConfig) (p : PendingCall) : Prop where
  order : (p.handled.map Prod.fst ++ (atDrain p.drain ++ p.stream)).Sublist p.accepted
  fits : p.stream.length ≤ cfg.capacity
  fine : ∀ chunk ∈ p.handled.dropLast, chunk.2 = true
  going : p.drain = .receiving ∨ (∃ msg, p.drain = .handling msg) → ∀ chunk ∈ p.handled, chunk.2 = true

theorem flowing_step (cfg : CallerConfig) (decodeEnvelope : RawMessage → Option Envelope) (p : PendingCall)
    (action : Action) (next : PendingCall) (flowing : Flowing cfg p)
    (taken : step cfg decodeEnvelope p action = some next) : Flowing cfg next := by
  obtain ⟨order, fits, fine, going⟩ := flowing
  cases moves_of_step cfg decodeEnvelope p next action taken with
  | sent msg sending room =>
      refine ⟨?_, by simpa [Nat.succ_le_iff] using room, fine, going⟩
      have more := order.append (List.Sublist.refl [msg])
      simpa only [List.append_assoc] using more
  | oldestDropped msg sending full policy =>
      refine ⟨?_, p.stream.length_tail ▸ (Nat.sub_le _ 1).trans fits, fine, going⟩
      have fewer := (List.tail_sublist p.stream).append_left (p.handled.map Prod.fst ++ atDrain p.drain)
      exact (by simpa only [List.append_assoc] using fewer : List.Sublist _ _).trans order
  | drainReceive msg rest receiving first =>
      rw [first] at fits
      refine ⟨?_, (Nat.le_succ _).trans fits, fine, fun _ => going (.inl receiving)⟩
      simpa [receiving, first, atDrain] using order
  | drainHandled msg handling =>
      have before := going (.inr ⟨msg, handling⟩)
      refine ⟨?_, fits, by simpa using before, fun _ => ?_⟩
      · simpa [handling, atDrain] using order
      · simpa [or_imp, forall_and] using before
  | drainErred msg handling =>
      have before := going (.inr ⟨msg, handling⟩)
      refine ⟨?_, fits, by simpa using before, ?_⟩
      · simpa [handling, atDrain] using order
      · rintro (no | ⟨_, no⟩) <;> cases no
  | drainExit receiving empty finalized =>
      refine ⟨by simpa [receiving, atDrain] using order, fits, fine, ?_⟩
      rintro (no | ⟨_, no⟩) <;> cases no
  | drainFailed failing outside =>
      refine ⟨by simpa [failing, atDrain] using order, fits, fine, ?_⟩
      rintro (no | ⟨_, no⟩) <;> cases no
  | drainDiscard msg rest discarding first =>
      rw [first] at fits
      refine ⟨?_, (Nat.le_succ _).trans fits, fine, going⟩
      rw [first] at order
      exact (((List.sublist_cons_self msg rest).append_left _).append_left _).trans order
  | discardExit discarding empty finalized =>
      refine ⟨by simpa [discarding, atDrain] using order, fits, fine, ?_⟩
      rintro (no | ⟨_, no⟩) <;> cases no
  | _ => exact ⟨order, fits, fine, going⟩

theorem stream_handled_in_order (cfg : CallerConfig) (decodeEnvelope : RawMessage → Option Envelope) (path : List Action)
    (p : PendingCall) (reached : run (step cfg decodeEnvelope) (start cfg) path = some p) :
    (p.handled.map Prod.fst).Sublist p.arrived ∧ (∀ chunk ∈ p.handled.dropLast, chunk.2 = true) ∧
      p.stream.length ≤ cfg.capacity ∧ (p.finalized = true → p.sendMuHeld = false) := by
  have keeps : ∀ q action q', (Feeding q ∧ Flowing cfg q) → step cfg decodeEnvelope q action = some q' →
      Feeding q' ∧ Flowing cfg q' := fun q action q' ⟨feeding, flowing⟩ taken =>
    ⟨feeding_step cfg decodeEnvelope q q' action feeding taken, flowing_step cfg decodeEnvelope q action q' flowing taken⟩
  have initial : Feeding (start cfg) ∧ Flowing cfg (start cfg) := by
    refine ⟨⟨List.Sublist.refl _, fun no => (by cases no)⟩, ?_, Nat.zero_le _, fun _ no => (by cases no),
      fun _ _ no => (by cases no)⟩
    by_cases streaming : cfg.streaming = true <;> simp [start, streaming, atDrain]
  obtain ⟨feeding, flowing⟩ := run_invariant keeps initial reached
  have accepted : p.accepted.Sublist p.arrived := (List.sublist_append_left _ _).trans feeding.arrival
  exact ⟨((List.sublist_append_left _ _).trans flowing.order).trans accepted, flowing.fine, flowing.fits, feeding.unlocked⟩

theorem handled_run_in_order : ∃ p, run (step ⟨true, 0, .block⟩ fun _ => none)
    (start ⟨true, 0, .block⟩) handledRun = some p ∧
    (p.handled.map Prod.fst).Sublist p.arrived :=
  ⟨_, rfl, (stream_handled_in_order ⟨true, 0, .block⟩ (fun _ => none) handledRun _ rfl).1⟩

end Brainkit.Sdk.PendingCall
