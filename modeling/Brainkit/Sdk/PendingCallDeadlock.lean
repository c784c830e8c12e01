import Brainkit.Sdk.PendingCall

set_option autoImplicit false

namespace Brainkit.Sdk.PendingCall

open Transition

-- Inside enqueue the inbox thread waits for room in the full stream, or for the done-once that another thread is
-- running.
def EnqueueWaits (cfg : CallerConfig) (p : PendingCall) : Prop :=
  (∃ msg, p.inbox = .sending msg ∧ cfg.policy = .block ∧ cfg.capacity ≤ p.stream.length) ∨
    ∃ msg t, p.inbox = .overflow msg ∧ p.once = .busy t

def FinalizeWaits (p : PendingCall) : Prop :=
  ∃ t r, p.finalizer t = .holding r ∧ p.sendMuHeld = true

def Deadlocked (cfg : CallerConfig) (p : PendingCall) : Prop := EnqueueWaits cfg p ∧ FinalizeWaits p

def Stuck (cfg : CallerConfig) (decodeEnvelope : RawMessage → Option Envelope) (p : PendingCall) : Prop :=
  ∀ path later, Action.cancel ∉ path → run (step cfg decodeEnvelope) p path = some later → Deadlocked cfg later

def DeadlockFree (cfg : CallerConfig) : Prop :=
  cfg.streaming = false ∨ cfg.policy = .dropNewest ∨ cfg.policy = .dropOldest

theorem stuck_deadlocked (cfg : CallerConfig) (decodeEnvelope : RawMessage → Option Envelope) (p : PendingCall)
    (stuck : Stuck cfg decodeEnvelope p) : Deadlocked cfg p :=
  stuck [] p List.not_mem_nil rfl

-- Chunks of a call without stream never reach enqueue, and only the error policy runs finalizeLocked.
def EnqueueAllowed (cfg : CallerConfig) : InboxPc → Prop
  | .idle => True
  | .finalizing => True
  | .enqueue _ => cfg.streaming = true
  | .sending _ => cfg.streaming = true
  | .overflow _ => cfg.streaming = true ∧ cfg.policy = .error

theorem enqueue_allowed_step (cfg : CallerConfig) (decodeEnvelope : RawMessage → Option Envelope)
    (p : PendingCall) (action : Action) (next : PendingCall) (allowed : EnqueueAllowed cfg p.inbox)
    (taken : step cfg decodeEnvelope p action = some next) : EnqueueAllowed cfg next.inbox := by
  cases moves_of_step cfg decodeEnvelope p next action taken with
  | terminal => trivial
  | chunk msg idle listed intermediate streaming => exact streaming
  | inboxReturn => trivial
  | chunkDropped => trivial
  | lockSend msg enqueued => simpa only [enqueued, EnqueueAllowed] using allowed
  | sent => trivial
  | newestDropped => trivial
  | overflow msg sending full policy =>
      rw [sending] at allowed
      exact ⟨allowed, policy⟩
  | abandonSend => trivial
  | finalizeLocked => trivial
  | finalizedBefore => trivial
  | _ => exact allowed

theorem deadlock_free (cfg : CallerConfig) (decodeEnvelope : RawMessage → Option Envelope) (p : PendingCall)
    (free : DeadlockFree cfg) (reached : Reachable (step cfg decodeEnvelope) (start cfg) p) :
    ¬ Deadlocked cfg p := by
  have initial : EnqueueAllowed cfg (start cfg).inbox := trivial
  have allowed : EnqueueAllowed cfg p.inbox :=
    reachable_invariant (enqueue_allowed_step cfg decodeEnvelope) initial reached
  rintro ⟨⟨msg, sending, policy, -⟩ | ⟨msg, t, overflow, -⟩, -⟩
  · rw [sending] at allowed
    rcases free with plain | newest | oldest
    · exact absurd (plain.symm.trans allowed) Bool.false_ne_true
    · exact absurd (newest.symm.trans policy) (by decide)
    · exact absurd (oldest.symm.trans policy) (by decide)
  · rw [overflow] at allowed
    rcases free with plain | newest | oldest
    · exact absurd (plain.symm.trans allowed.1) Bool.false_ne_true
    · exact absurd (newest.symm.trans allowed.2) (by decide)
    · exact absurd (oldest.symm.trans allowed.2) (by decide)

structure Buffering (buffered : Nat) (msg : Message) (p : PendingCall) : Prop where
  idle : p.inbox = .idle
  listed : p.listed = true
  unfinalized : p.finalized = false
  uncancelled : p.cancelled = false
  once : p.once = .idle
  handling : p.drain = .handling msg
  length : p.stream.length = buffered

-- The handler failed while enqueue is inside its critical section with the stream full: the drain goroutine runs the
-- done-once and waits for sendMu.
structure Jammed (cfg : CallerConfig) (p : PendingCall) : Prop where
  uncancelled : p.cancelled = false
  once : p.once = .busy .drain
  failing : p.drain = .failing
  holding : p.finalizer .drain = .holding (.failed .streamHandler)
  waiting : (∃ msg, p.inbox = .sending msg ∧ cfg.policy = .block ∧ cfg.capacity ≤ p.stream.length) ∨
    ∃ msg, p.inbox = .overflow msg

theorem jammed_send_mu_held (cfg : CallerConfig) (p : PendingCall) (jammed : Jammed cfg p) : p.sendMuHeld = true := by
  rcases jammed.waiting with ⟨msg, sending, -⟩ | ⟨msg, overflow⟩
  · rw [sendMuHeld, sending]
  · rw [sendMuHeld, overflow]

theorem jammed_deadlocked (cfg : CallerConfig) (p : PendingCall) (jammed : Jammed cfg p) : Deadlocked cfg p := by
  refine ⟨?_, .drain, _, jammed.holding, jammed_send_mu_held cfg p jammed⟩
  rcases jammed.waiting with space | ⟨msg, overflow⟩
  · exact .inl space
  · exact .inr ⟨msg, .drain, overflow, jammed.once⟩

theorem jammed_step (cfg : CallerConfig) (decodeEnvelope : RawMessage → Option Envelope) (p : PendingCall)
    (action : Action) (next : PendingCall) (jammed : Jammed cfg p) (live : action ≠ .cancel)
    (taken : step cfg decodeEnvelope p action = some next) : Jammed cfg next := by
  obtain ⟨uncancelled, once, failing, holding, waiting⟩ := jammed
  have busy : p.inbox ≠ .idle ∧ p.inbox ≠ .finalizing ∧ ∀ msg, p.inbox ≠ .enqueue msg := by
    rcases waiting with ⟨msg, sending, -⟩ | ⟨msg, overflow⟩ <;> simp_all
  cases moves_of_step cfg decodeEnvelope p next action taken with
  | cancel => exact absurd rfl live
  | finalizeEnd t r held unlocked =>
      have locked : p.sendMuHeld = true :=
        jammed_send_mu_held cfg p ⟨uncancelled, once, failing, holding, waiting⟩
      exact absurd (locked.symm.trans unlocked) (by decide)
  | sent msg sending room =>
      rcases waiting with ⟨other, -, -, full⟩ | ⟨other, overflow⟩
      · exact absurd full (Nat.not_le.mpr room)
      · exact absurd (sending.symm.trans overflow) (by simp)
  | newestDropped msg sending full policy => simp_all
  | oldestDropped msg sending full policy => simp_all
  | overflow msg sending full policy => simp_all
  | _ =>
      first
      | exact ⟨uncancelled, once, failing, holding, waiting⟩
      | simp_all

theorem jammed_stuck (cfg : CallerConfig) (decodeEnvelope : RawMessage → Option Envelope) (p : PendingCall)
    (jammed : Jammed cfg p) : Stuck cfg decodeEnvelope p := by
  intro path later live reached
  induction path generalizing p with
  | nil =>
      obtain rfl := Option.some.inj reached
      exact jammed_deadlocked cfg _ jammed
  | cons action rest ih =>
      obtain ⟨next, taken, toLater⟩ := run_cons_some reached
      rw [List.mem_cons, not_or] at live
      exact ih next (jammed_step cfg decodeEnvelope p action next jammed (Ne.symm live.1) taken) live.2 toLater

theorem capacity_pos (cfg : CallerConfig) : 0 < cfg.capacity := by
  unfold CallerConfig.capacity
  split
  · decide
  · omega

theorem accept_chunk (cfg : CallerConfig) (decodeEnvelope : RawMessage → Option Envelope) (msg : Message)
    (p : PendingCall) (streaming : cfg.streaming = true) (chunk : msg.done = false)
    (idle : p.inbox = .idle) (listed : p.listed = true) (unfinalized : p.finalized = false)
    (room : p.stream.length < cfg.capacity) :
    run (step cfg decodeEnvelope) p [.onInbox msg, .lockSend, .send] = some { p with
      inbox := .idle
      arrived := p.arrived ++ [msg]
      stream := p.stream ++ [msg]
      accepted := p.accepted ++ [msg] } := by
  simp [run, step, PendingCall.onInbox, PendingCall.lockSend, PendingCall.send, streaming, chunk, idle, listed,
    unfinalized, room]

theorem buffering_reachable (cfg : CallerConfig) (decodeEnvelope : RawMessage → Option Envelope) (msg : Message)
    (streaming : cfg.streaming = true) (chunk : msg.done = false) (buffered : Nat) (fits : buffered ≤ cfg.capacity) :
    ∃ p, Reachable (step cfg decodeEnvelope) (start cfg) p ∧ Buffering buffered msg p := by
  induction buffered with
  | zero =>
      have accepted := accept_chunk cfg decodeEnvelope msg (start cfg) streaming chunk rfl rfl rfl (capacity_pos cfg)
      have received : run (step cfg decodeEnvelope)
          { start cfg with inbox := .idle, arrived := [msg], stream := [msg], accepted := [msg] } [.drainReceive] =
          some { start cfg with drain := .handling msg, arrived := [msg], accepted := [msg] } := by
        simp [run, step, PendingCall.drainReceive, start, streaming]
      exact ⟨_, reachable_run ⟨_, accepted⟩ received, rfl, rfl, rfl, rfl, rfl, rfl, rfl⟩
  | succ buffered ih =>
      obtain ⟨p, reached, buffering⟩ := ih (Nat.le_of_succ_le fits)
      have room : p.stream.length < cfg.capacity := by
        have length := buffering.length
        omega
      have accepted := accept_chunk cfg decodeEnvelope msg p streaming chunk buffering.idle buffering.listed
        buffering.unfinalized room
      refine ⟨_, reachable_run reached accepted, rfl, buffering.listed, buffering.unfinalized, buffering.uncancelled,
        buffering.once, buffering.handling, ?_⟩
      simp [buffering.length]

-- One more chunk comes in, the handler fails on its own, and the drain goroutine gets hold of the done-once.
def jam (msg : Message) (inbox : InboxPc) (p : PendingCall) : PendingCall :=
  { p with
    inbox := inbox
    arrived := p.arrived ++ [msg]
    drain := .failing
    handled := p.handled ++ [(msg, false)]
    once := .busy .drain
    finalizer := Function.update p.finalizer .drain (.holding (.failed .streamHandler)) }

theorem jammed_reachable (cfg : CallerConfig) (decodeEnvelope : RawMessage → Option Envelope)
    (streaming : cfg.streaming = true) (policy : cfg.policy = .block ∨ cfg.policy = .error) :
    ∃ p, Reachable (step cfg decodeEnvelope) (start cfg) p ∧ Jammed cfg p := by
  let chunk : Message := ⟨[], false, false⟩
  obtain ⟨p, reached, idle, listed, unfinalized, uncancelled, once, handling, length⟩ :=
    buffering_reachable cfg decodeEnvelope chunk streaming rfl cfg.capacity (Nat.le_refl _)
  have holding : ∀ inbox, (p.jam chunk inbox).finalizer .drain = .holding (.failed .streamHandler) :=
    fun inbox => by simp [jam]
  rcases policy with block | error
  · have jams : run (step cfg decodeEnvelope) p
        [.onInbox chunk, .lockSend, .drainHandled false, .finalizeBegin .drain] = some (p.jam chunk (.sending chunk)) := by
      simp [run, step, PendingCall.onInbox, PendingCall.lockSend, PendingCall.drainHandled, PendingCall.finalizeBegin,
        jam, streaming, idle, listed, unfinalized, once, handling, chunk]
    refine ⟨_, reachable_run reached jams, uncancelled, rfl, rfl, holding _, .inl ⟨chunk, rfl, block, length.ge⟩⟩
  · have jams : run (step cfg decodeEnvelope) p
        [.onInbox chunk, .lockSend, .send, .drainHandled false, .finalizeBegin .drain] =
        some (p.jam chunk (.overflow chunk)) := by
      simp [run, step, PendingCall.onInbox, PendingCall.lockSend, PendingCall.send, PendingCall.drainHandled,
        PendingCall.finalizeBegin, jam, streaming, idle, listed, unfinalized, once, handling, length, error, chunk]
    refine ⟨_, reachable_run reached jams, uncancelled, rfl, rfl, holding _, .inr ⟨chunk, rfl⟩⟩

theorem deadlock_free_or_jams (cfg : CallerConfig) :
    DeadlockFree cfg ∨ (cfg.streaming = true ∧ (cfg.policy = .block ∨ cfg.policy = .error)) := by
  unfold DeadlockFree
  cases cfg.streaming <;> cases cfg.policy <;> simp

theorem no_deadlock_iff (cfg : CallerConfig) (decodeEnvelope : RawMessage → Option Envelope) :
    ((∀ p, Reachable (step cfg decodeEnvelope) (start cfg) p → p.cancelled = false → ¬ Deadlocked cfg p) ↔
      DeadlockFree cfg) ∧
    ((∀ p, Reachable (step cfg decodeEnvelope) (start cfg) p → p.cancelled = false → ¬ Stuck cfg decodeEnvelope p) ↔
      DeadlockFree cfg) := by
  have jams : ¬ DeadlockFree cfg → ∃ p, Reachable (step cfg decodeEnvelope) (start cfg) p ∧ Jammed cfg p := by
    intro unsafeConfig
    obtain ⟨streaming, policy⟩ := (deadlock_free_or_jams cfg).resolve_left unsafeConfig
    exact jammed_reachable cfg decodeEnvelope streaming policy
  refine ⟨⟨?_, ?_⟩, ⟨?_, ?_⟩⟩
  · intro never
    by_contra unsafeConfig
    obtain ⟨p, reached, jammed⟩ := jams unsafeConfig
    exact never p reached jammed.uncancelled (jammed_deadlocked cfg p jammed)
  · intro free p reached _
    exact deadlock_free cfg decodeEnvelope p free reached
  · intro never
    by_contra unsafeConfig
    obtain ⟨p, reached, jammed⟩ := jams unsafeConfig
    exact never p reached jammed.uncancelled (jammed_stuck cfg decodeEnvelope p jammed)
  · intro free p reached _ stuck
    exact deadlock_free cfg decodeEnvelope p free reached (stuck_deadlocked cfg decodeEnvelope p stuck)

-- One buffer slot, block policy: the handler fails on the first chunk while the second is buffered and enqueue waits
-- with the third.
theorem full_buffer_handler_error_deadlocks :
    ∃ p, Reachable (step ⟨true, 1, .block⟩ fun _ => none) (start ⟨true, 1, .block⟩) p ∧ p.cancelled = false ∧
      Deadlocked ⟨true, 1, .block⟩ p ∧ Stuck ⟨true, 1, .block⟩ (fun _ => none) p := by
  let chunk (n : UInt8) : Message := ⟨[n], false, false⟩
  refine ⟨_, ⟨[.onInbox (chunk 0), .lockSend, .send, .drainReceive, .onInbox (chunk 1), .lockSend, .send,
    .onInbox (chunk 2), .lockSend, .drainHandled false, .finalizeBegin .drain], rfl⟩, rfl, ?_, ?_⟩
  · exact ⟨.inl ⟨chunk 2, rfl, rfl, by decide⟩, .drain, .failed .streamHandler, rfl, rfl⟩
  · exact jammed_stuck _ _ _ ⟨rfl, rfl, rfl, rfl, .inl ⟨chunk 2, rfl, rfl, by decide⟩⟩

end Brainkit.Sdk.PendingCall
