import Brainkit.Transport.Publish

set_option autoImplicit false

namespace Brainkit.Transport

open Function (update)
open GoText

def maxDepth : Nat := 16

def errCycleDetected : GoString := lit "messaging: cycle detected (maximum depth exceeded)"

variable {P : Type}

def depthMiddleware {α : Type} (h : BusMessage P → Except GoString α) (msg : BusMessage P) : Except GoString α :=
  let depthStr := msg.metadata.get (lit "depth")
  if depthStr = [] then h msg
  else
    let depth := atoi depthStr
    if (maxDepth : Int) ≤ depth then
      .error (errCycleDetected ++ lit " (depth " ++ decimal depth ++ lit " >= max " ++ decimal maxDepth ++ lit ")")
    else h msg

-- Who takes a message: a command handler of the router, behind the middleware, or a handler of subscribeRawMessages,
-- which has none.
inductive Consumer where
  | command
  | subscription
deriving DecidableEq

def admits (consumer : Consumer) (msg : BusMessage P) : Bool :=
  match consumer with
  | .command => (depthMiddleware (fun _ => .ok ()) msg).isOk
  | .subscription => true

-- One link of a causal chain: the call that the handling of the message before it makes, and who takes the message that
-- the call sends.
structure Hop (P : Type) where
  sender : Sender
  call : PublishCall P
  consumer : Consumer

def Hop.message (hop : Hop P) : BusMessage P := hop.sender.send hop.call

-- The causal chains under a set of handlers, which says what calls the handling of a message can make. A message that
-- is not admitted is not handled, and the chain ends with it.
inductive Chain (handlers : Consumer → BusMessage P → PublishCall P → Prop) :
    Consumer → BusMessage P → List (Hop P) → Prop where
  | nil {consumer : Consumer} {msg : BusMessage P} : Chain handlers consumer msg []
  | cons {consumer : Consumer} {msg : BusMessage P} {hop : Hop P} {rest : List (Hop P)}
      (admitted : admits consumer msg = true) (made : handlers consumer msg hop.call)
      (later : Chain handlers hop.consumer hop.message rest) : Chain handlers consumer msg (hop :: rest)

def handled (consumer : Consumer) (msg : BusMessage P) : List (Hop P) → Nat
  | [] => if admits consumer msg then 1 else 0
  | hop :: rest => if admits consumer msg then handled hop.consumer hop.message rest + 1 else 0

def PublishCall.givenDepth : PublishCall P → GoString
  | .publishRaw ctx _ _ _ | .publishRawToNamespace ctx _ _ _ _ | .publishRawGlobal ctx _ _ => ctx.metadata.get (lit "depth")
  | .publishRawWithMeta ctx _ _ extra _ => ((extra (lit "depth")).or (ctx.metadata (lit "depth"))).getD []
  | .publish _ _ _ | .publishResolved _ _ _ _ _ _ | .result _ _ => []

def stops (consumer : Consumer) (depthStr : GoString) : Prop :=
  consumer = .command ∧ depthStr ≠ [] ∧ (maxDepth : Int) ≤ atoi depthStr

theorem admits_iff (consumer : Consumer) (msg : BusMessage P) :
    admits consumer msg = true ↔ ¬ stops consumer (msg.metadata.get (lit "depth")) := by
  cases consumer with
  | subscription => simp [admits, stops]
  | command =>
      simp only [admits, depthMiddleware, stops, true_and]
      split
      next empty => simp [empty, Except.isOk, Except.toBool]
      next given =>
        split
        next deep => simp [given, deep, Except.isOk, Except.toBool]
        next shallow => simp [given, shallow, Except.isOk, Except.toBool]

open Metadata

namespace Sender

theorem depth_unstamped : lit "depth" ∉ stamped := by decide

theorem flag_depth (key : GoString) (on : Bool) (m : Metadata) (different : lit "depth" ≠ key) :
    flag key on m (lit "depth") = m (lit "depth") := by
  unfold flag
  split
  · exact set_other _ _ _ _ different
  · rfl

theorem send_depth (c : Sender) (call : PublishCall P) : (c.send call).metadata.get (lit "depth") = call.givenDepth := by
  cases call with
  | publishRaw ctx logicalTopic payload id =>
      simp only [send, Metadata.get, PublishCall.givenDepth]
      rw [stamp_reply_to_unstamped _ _ _ depth_unstamped, stamp_trace_unstamped _ _ depth_unstamped,
        set_other _ _ _ _ (by decide), stamp_identity_unstamped _ _ depth_unstamped]
  | publishRawToNamespace ctx targetNamespace logicalTopic payload id =>
      simp only [send, Metadata.get, PublishCall.givenDepth]
      rw [stamp_reply_to_unstamped _ _ _ depth_unstamped, stamp_trace_unstamped _ _ depth_unstamped,
        set_other _ _ _ _ (by decide), stamp_identity_unstamped _ _ depth_unstamped]
  | publishRawWithMeta ctx logicalTopic payload extra id =>
      simp only [send, Metadata.get, PublishCall.givenDepth, setAll]
      rw [set_other _ _ _ _ (by decide), stamp_identity_unstamped _ _ depth_unstamped]
  | publishRawGlobal ctx topic payload =>
      simp only [send, Metadata.get, PublishCall.givenDepth]
      rw [stamp_identity_unstamped _ _ depth_unstamped]
  | publish topic payload callerID =>
      simp only [send, Metadata.get, PublishCall.givenDepth]
      rw [set_other _ _ _ _ (by decide)]
      rfl
  | publishResolved ctx topic correlationID payload done envelope =>
      simp only [send, Metadata.get, PublishCall.givenDepth]
      rw [flag_depth _ _ _ (by decide), flag_depth _ _ _ (by decide), set_nonempty_other _ _ _ _ (by decide)]
      rfl
  | result wmsg payload =>
      simp only [send, Metadata.get, PublishCall.givenDepth]
      rw [set_other _ _ _ _ (by decide), set_other _ _ _ _ (by decide), set_nonempty_other _ _ _ _ (by decide)]
      rfl

end Sender

-- A chain of at most bound messages, or one of the first bound + 1 messages of the chain is stopped by the depth that it
-- was given along.
def Bounded (bound : Nat) (consumer : Consumer) (msg : BusMessage P) (hops : List (Hop P)) : Prop :=
  hops.length < bound ∨ stops consumer (msg.metadata.get (lit "depth")) ∨
    ∃ hop ∈ hops.take bound, stops hop.consumer hop.call.givenDepth

theorem handled_le_iff (bound : Nat) (consumer : Consumer) (msg : BusMessage P) (hops : List (Hop P)) :
    handled consumer msg hops ≤ bound ↔ Bounded bound consumer msg hops := by
  induction hops generalizing bound consumer msg with
  | nil =>
      by_cases admitted : admits consumer msg = true
      · have passes := (admits_iff consumer msg).mp admitted
        simp [handled, Bounded, admitted, passes, Nat.succ_le_iff]
      · have stopped := Classical.not_not.mp fun passes => admitted ((admits_iff consumer msg).mpr passes)
        simp [handled, Bounded, admitted, stopped]
  | cons hop rest ih =>
      by_cases admitted : admits consumer msg = true
      · have passes := (admits_iff consumer msg).mp admitted
        rw [handled, if_pos admitted]
        cases bound with
        | zero => simp [Bounded, passes]
        | succ bound =>
            have depth : hop.message.metadata.get (lit "depth") = hop.call.givenDepth := hop.sender.send_depth hop.call
            rw [Nat.succ_le_succ_iff, ih bound hop.consumer hop.message]
            simp [Bounded, passes, depth, List.take_succ_cons]
      · have stopped := Classical.not_not.mp fun passes => admitted ((admits_iff consumer msg).mpr passes)
        rw [handled, if_neg admitted]
        exact iff_of_true (Nat.zero_le bound) (.inr (.inl stopped))

theorem cascade_bounded_iff (consumer : Consumer) (first : BusMessage P) (hops : List (Hop P)) :
    handled consumer first hops ≤ maxDepth ↔ Bounded maxDepth consumer first hops :=
  handled_le_iff maxDepth consumer first hops

-- A command handler that publishes its message again, with the context that it was called with.
def republish (msg : BusMessage P) : PublishCall P :=
  .publishRaw (withInboundMetadata msg.ctx msg (lit "loop")) (lit "loop") msg.payload (lit "id")

def republishing (_ : Consumer) (msg : BusMessage P) (call : PublishCall P) : Prop := call = republish msg

def loop (sender : Sender) : Nat → BusMessage P → List (Hop P)
  | 0, _ => []
  | count + 1, msg =>
      let hop : Hop P := ⟨sender, republish msg, .command⟩
      hop :: loop sender count hop.message

theorem loop_handled (sender : Sender) (count : Nat) (msg : BusMessage P)
    (undepthed : msg.metadata.get (lit "depth") = []) (plain : msg.ctx.metadata.get (lit "depth") = []) :
    Chain republishing .command msg (loop sender count msg) ∧ handled .command msg (loop sender count msg) = count + 1 := by
  have passes : ¬ stops .command (msg.metadata.get (lit "depth")) := fun stopped => stopped.2.1 undepthed
  have admitted : admits .command msg = true := (admits_iff .command msg).mpr passes
  induction count generalizing msg with
  | zero => exact ⟨.nil, by rw [loop, handled, if_pos admitted]⟩
  | succ count ih =>
      have again : (sender.send (republish msg)).metadata.get (lit "depth") = [] :=
        (sender.send_depth (republish msg)).trans plain
      have free : ¬ stops .command ((sender.send (republish msg)).metadata.get (lit "depth")) :=
        fun stopped => stopped.2.1 again
      obtain ⟨chain, more⟩ := ih (sender.send (republish msg)) again plain free ((admits_iff .command _).mpr free)
      refine ⟨.cons admitted rfl chain, ?_⟩
      rw [loop, handled, if_pos admitted]
      exact congrArg Nat.succ more

def kit : Sender := ⟨.memory, lit "user", lit "user", lit "cluster", lit "runtime"⟩

def firstLoop : BusMessage Unit := kit.send (.publishRaw .background (lit "loop") () (lit "id"))

theorem loop_beyond_depth : Chain republishing .command firstLoop (loop kit maxDepth firstLoop) ∧
    ¬ handled .command firstLoop (loop kit maxDepth firstLoop) ≤ maxDepth := by
  obtain ⟨chain, count⟩ := loop_handled kit maxDepth firstLoop (kit.send_depth _) rfl
  refine ⟨chain, ?_⟩
  rw [count]
  decide

end Brainkit.Transport
