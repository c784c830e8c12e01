import Brainkit.Library.Transition
import Brainkit.Sdk.Envelope

set_option autoImplicit false

namespace Brainkit.Sdk

open Function (update)

inductive BufferPolicy where
  | block
  | dropNewest
  | dropOldest
  | error
deriving DecidableEq

-- A message of the inbox with this call's correlation id; done and envelope are the metadata values that onInbox
-- compares with "true".
structure Message where
  payload : RawMessage
  done : Bool
  envelope : Bool
deriving DecidableEq

inductive CallError where
  | callerClosed
  | publishFailed
  | contextDone
  | handlerFailed
  | bufferOverflow
  | streamHandler
deriving DecidableEq

-- A reply result remembers, for the proofs only, which terminal message it is.
inductive Result where
  | reply (terminal : Nat) (payload : RawMessage)
  | failed (err : CallError)
deriving DecidableEq

structure CallerConfig where
  streaming : Bool
  bufferSize : Int
  policy : BufferPolicy

def defaultBufferSize : Nat := 64

def CallerConfig.capacity (cfg : CallerConfig) : Nat :=
  if cfg.bufferSize ≤ 0 then defaultBufferSize else cfg.bufferSize.toNat

inductive CallReturn where
  | success (data : Option RawMessage)
  | failure (err : CallError)
  | remote (err : BrainkitError)
  | undecodable (payload : RawMessage)

def decodeReply (decodeEnvelope : RawMessage → Option Envelope) (envelope : Bool) (payload : RawMessage) : CallReturn :=
  if envelope then
    match decodeEnvelope payload with
    | none => .undecodable payload
    | some env => match fromEnvelope env with
        | some err => .remote err
        | none => .success env.data
  else .success (some payload)

-- The threads that can be inside finalize: the inbox subscription (a terminal reply of a call without stream), the
-- drain goroutine, Call itself, and any number of others (grace goroutines, the failure subscription, CloseContext).
inductive Thread where
  | inbox
  | drain
  | call
  | helper (number : Nat)
deriving DecidableEq

inductive FinalizePc where
  | outside
  | entering (r : Result)
  | holding (r : Result)
deriving DecidableEq

inductive Once where
  | idle
  | busy (holder : Thread)
  | done
deriving DecidableEq

inductive InboxPc where
  | idle
  | enqueue (msg : Message)
  | sending (msg : Message)
  | overflow (msg : Message)
  | finalizing
deriving DecidableEq

inductive DrainPc where
  | absent
  | receiving
  | handling (msg : Message)
  | failing
  | discarding
  | exited
deriving DecidableEq

inductive CallPc where
  | waiting
  | draining (terminal : Nat) (payload : RawMessage)
  | reading (terminal : Nat) (payload : RawMessage)
  | aborting (err : CallError)
  | failed (err : CallError)
  | answered (terminal : Nat) (envelope : Bool) (out : CallReturn)

-- finalized also stands for the closed stream channel: both are set in the one critical section of finalize. The last
-- five fields are history; for each terminal message, acceptedBefore counts the chunks accepted before it.
structure PendingCall where
  stream : List Message
  finalized : Bool
  once : Once
  done : Option Result
  envelope : Bool
  listed : Bool
  cancelled : Bool
  inbox : InboxPc
  drain : DrainPc
  call : CallPc
  finalizer : Thread → FinalizePc
  helpers : Nat
  arrived : List Message
  accepted : List Message
  handled : List (Message × Bool)
  terminals : List Message
  acceptedBefore : List Nat

def PendingCall.start (cfg : CallerConfig) : PendingCall where
  stream := []
  finalized := false
  once := .idle
  done := none
  envelope := false
  listed := true
  cancelled := false
  inbox := .idle
  drain := if cfg.streaming then .receiving else .absent
  call := .waiting
  finalizer := fun _ => .outside
  helpers := 0
  arrived := []
  accepted := []
  handled := []
  terminals := []
  acceptedBefore := []

namespace PendingCall

-- sendMu is held while the inbox thread is inside enqueue's critical section. The critical section of finalize is one
-- step, so nobody is seen inside it.
def sendMuHeld (p : PendingCall) : Bool :=
  match p.inbox with
  | .sending _ | .overflow _ => true
  | _ => false

def spawn (p : PendingCall) (r : Result) : PendingCall :=
  { p with finalizer := update p.finalizer (.helper p.helpers) (.entering r), helpers := p.helpers + 1 }

def terminate (p : PendingCall) (msg : Message) : PendingCall :=
  { p with
    envelope := p.envelope || msg.envelope
    terminals := p.terminals ++ [msg]
    acceptedBefore := p.acceptedBefore ++ [p.accepted.length] }

-- The subscription handles one message at a time. A terminal reply of a streaming call is left to a grace goroutine,
-- whose timer may take any time.
def onInbox (cfg : CallerConfig) (msg : Message) (p : PendingCall) : Option PendingCall :=
  if p.inbox ≠ .idle then none
  else if !p.listed then some p
  else if msg.done then
    if cfg.streaming then some ((p.terminate msg).spawn (.reply p.terminals.length msg.payload))
    else some { p.terminate msg with
      inbox := .finalizing
      finalizer := update p.finalizer .inbox (.entering (.reply p.terminals.length msg.payload)) }
  else if cfg.streaming then some { p with inbox := .enqueue msg, arrived := p.arrived ++ [msg] }
  else some p

def inboxReturn (p : PendingCall) : Option PendingCall :=
  match p.inbox, p.finalizer .inbox with
  | .finalizing, .outside => some { p with inbox := .idle }
  | _, _ => none

def lockSend (p : PendingCall) : Option PendingCall :=
  match p.inbox with
  | .enqueue msg => if p.finalized then some { p with inbox := .idle } else some { p with inbox := .sending msg }
  | _ => none

-- The select of each policy. A full stream makes the block policy wait, and the error policy go on to finalizeLocked
-- with the lock still held.
def send (cfg : CallerConfig) (p : PendingCall) : Option PendingCall :=
  match p.inbox with
  | .sending msg =>
      if p.stream.length < cfg.capacity then
        some { p with inbox := .idle, stream := p.stream ++ [msg], accepted := p.accepted ++ [msg] }
      else match cfg.policy with
        | .block => none
        | .dropNewest => some { p with inbox := .idle }
        | .dropOldest => some { p with stream := p.stream.tail }
        | .error => some { p with inbox := .overflow msg }
  | _ => none

def abandonSend (cfg : CallerConfig) (p : PendingCall) : Option PendingCall :=
  match p.inbox with
  | .sending _ => if cfg.policy = .block ∧ p.cancelled = true then some { p with inbox := .idle } else none
  | _ => none

def finalizeLocked (p : PendingCall) : Option PendingCall :=
  match p.inbox, p.once with
  | .overflow _, .idle =>
      some { p with inbox := .idle, finalized := true, done := some (.failed .bufferOverflow), once := .done }
  | .overflow _, .done => some { p with inbox := .idle }
  | _, _ => none

def drainReceive (p : PendingCall) : Option PendingCall :=
  match p.drain, p.stream with
  | .receiving, msg :: rest => some { p with drain := .handling msg, stream := rest }
  | .receiving, [] => if p.finalized then some { p with drain := .exited } else none
  | _, _ => none

def drainHandled (ok : Bool) (p : PendingCall) : Option PendingCall :=
  match p.drain with
  | .handling msg =>
      if ok then some { p with drain := .receiving, handled := p.handled ++ [(msg, true)] }
      else some { p with
        drain := .failing
        handled := p.handled ++ [(msg, false)]
        finalizer := update p.finalizer .drain (.entering (.failed .streamHandler)) }
  | _ => none

def drainFailed (p : PendingCall) : Option PendingCall :=
  match p.drain, p.finalizer .drain with
  | .failing, .outside => some { p with drain := .discarding }
  | _, _ => none

def drainDiscard (p : PendingCall) : Option PendingCall :=
  match p.drain, p.stream with
  | .discarding, _ :: rest => some { p with stream := rest }
  | .discarding, [] => if p.finalized then some { p with drain := .exited } else none
  | _, _ => none

-- doneOnce.Do: the first caller runs the body, later ones wait for it to end.
def finalizeBegin (t : Thread) (p : PendingCall) : Option PendingCall :=
  match p.finalizer t, p.once with
  | .entering r, .idle => some { p with once := .busy t, finalizer := update p.finalizer t (.holding r) }
  | .entering _, .done => some { p with finalizer := update p.finalizer t .outside }
  | _, _ => none

def finalizeEnd (t : Thread) (p : PendingCall) : Option PendingCall :=
  match p.finalizer t with
  | .holding r =>
      if p.sendMuHeld then none
      else some { p with
        finalized := true
        done := some r
        once := .done
        finalizer := update p.finalizer t .outside }
  | _ => none

def callReceive (cfg : CallerConfig) (p : PendingCall) : Option PendingCall :=
  match p.call, p.done with
  | .waiting, some (.reply terminal payload) =>
      if cfg.streaming then some { p with call := .draining terminal payload }
      else some { p with call := .reading terminal payload }
  | .waiting, some (.failed err) => some { p with call := .failed err, listed := false }
  | _, _ => none

def callDrained (p : PendingCall) : Option PendingCall :=
  match p.call, p.drain with
  | .draining terminal payload, .exited => some { p with call := .reading terminal payload }
  | _, _ => none

def callRead (decodeEnvelope : RawMessage → Option Envelope) (p : PendingCall) : Option PendingCall :=
  match p.call with
  | .reading terminal payload =>
      some { p with call := .answered terminal p.envelope (decodeReply decodeEnvelope p.envelope payload), listed := false }
  | _ => none

-- Call gives up by itself when publishing failed or its context is done.
def callAbort (err : CallError) (p : PendingCall) : Option PendingCall :=
  match p.call with
  | .waiting =>
      if err = .publishFailed ∨ (err = .contextDone ∧ p.cancelled = true) then
        some { p with call := .aborting err, finalizer := update p.finalizer .call (.entering (.failed err)) }
      else none
  | _ => none

def callAborted (cfg : CallerConfig) (p : PendingCall) : Option PendingCall :=
  match p.call, p.finalizer .call with
  | .aborting err, .outside =>
      if err = .publishFailed ∧ cfg.streaming = true ∧ p.drain ≠ .exited then none
      else some { p with call := .failed err, listed := false }
  | _, _ => none

def onFailure (p : PendingCall) : Option PendingCall :=
  if p.listed then some ({ p with listed := false }.spawn (.failed .handlerFailed)) else none

def closeContext (p : PendingCall) : Option PendingCall :=
  if p.listed then some (p.spawn (.failed .callerClosed)) else none

inductive Action where
  | onInbox (msg : Message)
  | inboxReturn
  | lockSend
  | send
  | abandonSend
  | finalizeLocked
  | drainReceive
  | drainHandled (ok : Bool)
  | drainFailed
  | drainDiscard
  | finalizeBegin (t : Thread)
  | finalizeEnd (t : Thread)
  | callReceive
  | callDrained
  | callRead
  | callAbort (err : CallError)
  | callAborted
  | onFailure
  | closeContext
  | cancel

def step (cfg : CallerConfig) (decodeEnvelope : RawMessage → Option Envelope) (p : PendingCall) :
    Action → Option PendingCall
  | .onInbox msg => p.onInbox cfg msg
  | .inboxReturn => p.inboxReturn
  | .lockSend => p.lockSend
  | .send => p.send cfg
  | .abandonSend => p.abandonSend cfg
  | .finalizeLocked => p.finalizeLocked
  | .drainReceive => p.drainReceive
  | .drainHandled ok => p.drainHandled ok
  | .drainFailed => p.drainFailed
  | .drainDiscard => p.drainDiscard
  | .finalizeBegin t => p.finalizeBegin t
  | .finalizeEnd t => p.finalizeEnd t
  | .callReceive => p.callReceive cfg
  | .callDrained => p.callDrained
  | .callRead => p.callRead decodeEnvelope
  | .callAbort err => p.callAbort err
  | .callAborted => p.callAborted cfg
  | .onFailure => p.onFailure
  | .closeContext => p.closeContext
  | .cancel => some { p with cancelled := true }

inductive Moves (cfg : CallerConfig) (decodeEnvelope : RawMessage → Option Envelope) (p : PendingCall) :
    Action → PendingCall → Prop where
  | unmatched (msg : Message) (idle : p.inbox = .idle) (gone : p.listed = false) :
      Moves cfg decodeEnvelope p (.onInbox msg) p
  | streamTerminal (msg : Message) (idle : p.inbox = .idle) (listed : p.listed = true)
      (terminal : msg.done = true) (streaming : cfg.streaming = true) :
      Moves cfg decodeEnvelope p (.onInbox msg) ((p.terminate msg).spawn (.reply p.terminals.length msg.payload))
  | terminal (msg : Message) (idle : p.inbox = .idle) (listed : p.listed = true)
      (terminal : msg.done = true) (plain : cfg.streaming = false) :
      Moves cfg decodeEnvelope p (.onInbox msg) { p.terminate msg with
        inbox := .finalizing
        finalizer := update p.finalizer .inbox (.entering (.reply p.terminals.length msg.payload)) }
  | chunk (msg : Message) (idle : p.inbox = .idle) (listed : p.listed = true)
      (intermediate : msg.done = false) (streaming : cfg.streaming = true) :
      Moves cfg decodeEnvelope p (.onInbox msg) { p with inbox := .enqueue msg, arrived := p.arrived ++ [msg] }
  | chunkIgnored (msg : Message) (idle : p.inbox = .idle) (listed : p.listed = true)
      (intermediate : msg.done = false) (plain : cfg.streaming = false) :
      Moves cfg decodeEnvelope p (.onInbox msg) p
  | inboxReturn (finalizing : p.inbox = .finalizing) (outside : p.finalizer .inbox = .outside) :
      Moves cfg decodeEnvelope p .inboxReturn { p with inbox := .idle }
  | chunkDropped (msg : Message) (enqueued : p.inbox = .enqueue msg) (finalized : p.finalized = true) :
      Moves cfg decodeEnvelope p .lockSend { p with inbox := .idle }
  | lockSend (msg : Message) (enqueued : p.inbox = .enqueue msg) (unfinalized : p.finalized = false) :
      Moves cfg decodeEnvelope p .lockSend { p with inbox := .sending msg }
  | sent (msg : Message) (sending : p.inbox = .sending msg) (room : p.stream.length < cfg.capacity) :
      Moves cfg decodeEnvelope p .send
        { p with inbox := .idle, stream := p.stream ++ [msg], accepted := p.accepted ++ [msg] }
  | newestDropped (msg : Message) (sending : p.inbox = .sending msg) (full : cfg.capacity ≤ p.stream.length)
      (policy : cfg.policy = .dropNewest) :
      Moves cfg decodeEnvelope p .send { p with inbox := .idle }
  | oldestDropped (msg : Message) (sending : p.inbox = .sending msg) (full : cfg.capacity ≤ p.stream.length)
      (policy : cfg.policy = .dropOldest) :
      Moves cfg decodeEnvelope p .send { p with stream := p.stream.tail }
  | overflow (msg : Message) (sending : p.inbox = .sending msg) (full : cfg.capacity ≤ p.stream.length)
      (policy : cfg.policy = .error) :
      Moves cfg decodeEnvelope p .send { p with inbox := .overflow msg }
  | abandonSend (msg : Message) (sending : p.inbox = .sending msg) (policy : cfg.policy = .block)
      (cancelled : p.cancelled = true) :
      Moves cfg decodeEnvelope p .abandonSend { p with inbox := .idle }
  | finalizeLocked (msg : Message) (overflow : p.inbox = .overflow msg) (idle : p.once = .idle) :
      Moves cfg decodeEnvelope p .finalizeLocked
        { p with inbox := .idle, finalized := true, done := some (.failed .bufferOverflow), once := .done }
  | finalizedBefore (msg : Message) (overflow : p.inbox = .overflow msg) (ran : p.once = .done) :
      Moves cfg decodeEnvelope p .finalizeLocked { p with inbox := .idle }
  | drainReceive (msg : Message) (rest : List Message) (receiving : p.drain = .receiving) (first : p.stream = msg :: rest) :
      Moves cfg decodeEnvelope p .drainReceive { p with drain := .handling msg, stream := rest }
  | drainExit (receiving : p.drain = .receiving) (empty : p.stream = []) (finalized : p.finalized = true) :
      Moves cfg decodeEnvelope p .drainReceive { p with drain := .exited }
  | drainHandled (msg : Message) (handling : p.drain = .handling msg) :
      Moves cfg decodeEnvelope p (.drainHandled true)
        { p with drain := .receiving, handled := p.handled ++ [(msg, true)] }
  | drainErred (msg : Message) (handling : p.drain = .handling msg) :
      Moves cfg decodeEnvelope p (.drainHandled false) { p with
        drain := .failing
        handled := p.handled ++ [(msg, false)]
        finalizer := update p.finalizer .drain (.entering (.failed .streamHandler)) }
  | drainFailed (failing : p.drain = .failing) (outside : p.finalizer .drain = .outside) :
      Moves cfg decodeEnvelope p .drainFailed { p with drain := .discarding }
  | drainDiscard (msg : Message) (rest : List Message) (discarding : p.drain = .discarding)
      (first : p.stream = msg :: rest) :
      Moves cfg decodeEnvelope p .drainDiscard { p with stream := rest }
  | discardExit (discarding : p.drain = .discarding) (empty : p.stream = []) (finalized : p.finalized = true) :
      Moves cfg decodeEnvelope p .drainDiscard { p with drain := .exited }
  | finalizeBegin (t : Thread) (r : Result) (entering : p.finalizer t = .entering r) (idle : p.once = .idle) :
      Moves cfg decodeEnvelope p (.finalizeBegin t)
        { p with once := .busy t, finalizer := update p.finalizer t (.holding r) }
  | finalizeLate (t : Thread) (r : Result) (entering : p.finalizer t = .entering r) (ran : p.once = .done) :
      Moves cfg decodeEnvelope p (.finalizeBegin t) { p with finalizer := update p.finalizer t .outside }
  | finalizeEnd (t : Thread) (r : Result) (holding : p.finalizer t = .holding r) (unlocked : p.sendMuHeld = false) :
      Moves cfg decodeEnvelope p (.finalizeEnd t)
        { p with finalized := true, done := some r, once := .done, finalizer := update p.finalizer t .outside }
  | callReceive (terminal : Nat) (payload : RawMessage) (waiting : p.call = .waiting)
      (latched : p.done = some (.reply terminal payload)) (plain : cfg.streaming = false) :
      Moves cfg decodeEnvelope p .callReceive { p with call := .reading terminal payload }
  | streamReceive (terminal : Nat) (payload : RawMessage) (waiting : p.call = .waiting)
      (latched : p.done = some (.reply terminal payload)) (streaming : cfg.streaming = true) :
      Moves cfg decodeEnvelope p .callReceive { p with call := .draining terminal payload }
  | callFailed (err : CallError) (waiting : p.call = .waiting) (latched : p.done = some (.failed err)) :
      Moves cfg decodeEnvelope p .callReceive { p with call := .failed err, listed := false }
  | callDrained (terminal : Nat) (payload : RawMessage) (draining : p.call = .draining terminal payload)
      (exited : p.drain = .exited) :
      Moves cfg decodeEnvelope p .callDrained { p with call := .reading terminal payload }
  | callRead (terminal : Nat) (payload : RawMessage) (reading : p.call = .reading terminal payload) :
      Moves cfg decodeEnvelope p .callRead { p with
        call := .answered terminal p.envelope (decodeReply decodeEnvelope p.envelope payload), listed := false }
  | callAbort (err : CallError) (waiting : p.call = .waiting)
      (aborts : err = .publishFailed ∨ (err = .contextDone ∧ p.cancelled = true)) :
      Moves cfg decodeEnvelope p (.callAbort err)
        { p with call := .aborting err, finalizer := update p.finalizer .call (.entering (.failed err)) }
  | callAborted (err : CallError) (aborting : p.call = .aborting err) (outside : p.finalizer .call = .outside)
      (drained : ¬ (err = .publishFailed ∧ cfg.streaming = true ∧ p.drain ≠ .exited)) :
      Moves cfg decodeEnvelope p .callAborted { p with call := .failed err, listed := false }
  | onFailure (listed : p.listed = true) :
      Moves cfg decodeEnvelope p .onFailure ({ p with listed := false }.spawn (.failed .handlerFailed))
  | closeContext (listed : p.listed = true) :
      Moves cfg decodeEnvelope p .closeContext (p.spawn (.failed .callerClosed))
  | cancel : Moves cfg decodeEnvelope p .cancel { p with cancelled := true }

theorem moves_of_step (cfg : CallerConfig) (decodeEnvelope : RawMessage → Option Envelope) (p next : PendingCall)
    (action : Action) (taken : step cfg decodeEnvelope p action = some next) :
    Moves cfg decodeEnvelope p action next := by
  cases action with
  | onInbox msg =>
      simp only [step, PendingCall.onInbox] at taken
      repeat' split at taken
      all_goals cases taken
      · exact .unmatched msg (by simp_all) (by simp_all)
      · exact .streamTerminal msg (by simp_all) (by simp_all) (by simp_all) (by simp_all)
      · exact .terminal msg (by simp_all) (by simp_all) (by simp_all) (by simp_all)
      · exact .chunk msg (by simp_all) (by simp_all) (by simp_all) (by simp_all)
      · exact .chunkIgnored msg (by simp_all) (by simp_all) (by simp_all) (by simp_all)
  | inboxReturn =>
      simp only [step, PendingCall.inboxReturn] at taken
      split at taken <;> cases taken
      exact .inboxReturn (by assumption) (by assumption)
  | lockSend =>
      simp only [step, PendingCall.lockSend] at taken
      repeat' split at taken
      all_goals cases taken
      · exact .chunkDropped _ (by assumption) (by assumption)
      · exact .lockSend _ (by assumption) (by simp_all)
  | send =>
      simp only [step, PendingCall.send] at taken
      repeat' split at taken
      all_goals cases taken
      · exact .sent _ (by assumption) (by assumption)
      · exact .newestDropped _ (by assumption) (by omega) (by assumption)
      · exact .oldestDropped _ (by assumption) (by omega) (by assumption)
      · exact .overflow _ (by assumption) (by omega) (by assumption)
  | abandonSend =>
      simp only [step, PendingCall.abandonSend] at taken
      repeat' split at taken
      all_goals cases taken
      exact .abandonSend _ (by assumption) (by simp_all) (by simp_all)
  | finalizeLocked =>
      simp only [step, PendingCall.finalizeLocked] at taken
      split at taken <;> cases taken
      · exact .finalizeLocked _ (by assumption) (by assumption)
      · exact .finalizedBefore _ (by assumption) (by assumption)
  | drainReceive =>
      simp only [step, PendingCall.drainReceive] at taken
      repeat' split at taken
      all_goals cases taken
      · exact .drainReceive _ _ (by assumption) (by assumption)
      · exact .drainExit (by assumption) (by assumption) (by assumption)
  | drainHandled ok =>
      simp only [step, PendingCall.drainHandled] at taken
      repeat' split at taken
      all_goals cases taken
      · simp_all only
        exact .drainHandled _ (by assumption)
      · simp_all only [Bool.not_eq_true]
        exact .drainErred _ (by assumption)
  | drainFailed =>
      simp only [step, PendingCall.drainFailed] at taken
      split at taken <;> cases taken
      exact .drainFailed (by assumption) (by assumption)
  | drainDiscard =>
      simp only [step, PendingCall.drainDiscard] at taken
      repeat' split at taken
      all_goals cases taken
      · exact .drainDiscard _ _ (by assumption) (by assumption)
      · exact .discardExit (by assumption) (by assumption) (by assumption)
  | finalizeBegin t =>
      simp only [step, PendingCall.finalizeBegin] at taken
      split at taken <;> cases taken
      · exact .finalizeBegin t _ (by assumption) (by assumption)
      · exact .finalizeLate t _ (by assumption) (by assumption)
  | finalizeEnd t =>
      simp only [step, PendingCall.finalizeEnd] at taken
      repeat' split at taken
      all_goals cases taken
      exact .finalizeEnd t _ (by assumption) (by simp_all)
  | callReceive =>
      simp only [step, PendingCall.callReceive] at taken
      repeat' split at taken
      all_goals cases taken
      · exact .streamReceive _ _ (by assumption) (by assumption) (by assumption)
      · exact .callReceive _ _ (by assumption) (by assumption) (by simp_all)
      · exact .callFailed _ (by assumption) (by assumption)
  | callDrained =>
      simp only [step, PendingCall.callDrained] at taken
      split at taken <;> cases taken
      exact .callDrained _ _ (by assumption) (by assumption)
  | callRead =>
      simp only [step, PendingCall.callRead] at taken
      split at taken <;> cases taken
      exact .callRead _ _ (by assumption)
  | callAbort err =>
      simp only [step, PendingCall.callAbort] at taken
      repeat' split at taken
      all_goals cases taken
      exact .callAbort err (by assumption) (by assumption)
  | callAborted =>
      simp only [step, PendingCall.callAborted] at taken
      repeat' split at taken
      all_goals cases taken
      exact .callAborted _ (by assumption) (by assumption) (by assumption)
  | onFailure =>
      simp only [step, PendingCall.onFailure] at taken
      split at taken <;> cases taken
      exact .onFailure (by assumption)
  | closeContext =>
      simp only [step, PendingCall.closeContext] at taken
      split at taken <;> cases taken
      exact .closeContext (by assumption)
  | cancel =>
      cases taken
      exact .cancel

end PendingCall

end Brainkit.Sdk
