import Brainkit.Library.Transition
import Brainkit.Modules.MountTable

set_option autoImplicit false

namespace Brainkit.Sdk.Plugin

open GoText
open Function (update)
open Brainkit.Modules (Table)

structure ToolResult where
  result : GoString
  error : GoString
deriving DecidableEq

-- The frames that the read loop acts on.
inductive Frame where
  | toolCall (id tool : GoString)
  | event (topic : GoString)
  | subscribeAck (id : GoString)
  | cancel (toolCallID : GoString)
  | shutdown

-- A tool call, from its frame on. In waiting the loop is at the semaphore for it, in holding it has a slot and no goroutine
-- yet. The goroutine runs the handler, writes the result, removes the entry of its id, cancels its context, gives the slot
-- back and is done. unknown is the call of a tool that the plugin does not have.
inductive CallPc where
  | unborn
  | unknown
  | waiting
  | holding
  | handling
  | answering (result : ToolResult)
  | written
  | deleted
  | cancelled
  | released
  | done
deriving DecidableEq

namespace CallPc

def holdsSlot : CallPc → Bool
  | holding => true
  | handling => true
  | answering _ => true
  | written => true
  | deleted => true
  | cancelled => true
  | _ => false

def counted : CallPc → Bool
  | waiting => true
  | released => true
  | pc => pc.holdsSlot

def answered : CallPc → Bool
  | unknown => true
  | written => true
  | deleted => true
  | cancelled => true
  | released => true
  | done => true
  | _ => false

def entered : CallPc → Bool
  | handling => true
  | answering _ => true
  | written => true
  | _ => false

end CallPc

-- In delivering the callbacks of the subscriptions to an event run on the loop, one after the other; waiting is the call
-- whose running handler the present one waits for.
inductive ReadLoop where
  | reading
  | acquiring (call : Nat)
  | registering (call : Nat)
  | delivering (waiting : Option Nat)
  | returned
deriving DecidableEq

structure ResultFrame where
  call : Nat
  id : GoString
  data : ToolResult

-- The calls are numbered in the order of their frames. used is how many slots of sem are taken, wg the count of the wait
-- group; asked tells that a cancel frame with the id of the call has come after the call's own.
structure Dispatcher where
  loop : ReadLoop
  used : Nat
  wg : Nat
  cancels : Table Nat
  calls : Nat
  ids : Nat → GoString
  pcs : Nat → CallPc
  contextDone : Nat → Bool
  asked : Nat → Bool
  frames : List ResultFrame
  returned : Bool

namespace Dispatcher

def maxConcurrency : Nat := 10

def new : Dispatcher :=
  ⟨.reading, 0, 0, ∅, 0, fun _ => [], fun _ => .unborn, fun _ => false, fun _ => false, [], false⟩

inductive Action where
  | read (frame : Frame)
  | acquire
  | register
  | callbackWaits (call : Nat)
  | callbackResumes
  | callbacksReturn
  | handlerReturns (call : Nat) (result : ToolResult)
  | write (call : Nat)
  | deleteEntry (call : Nat)
  | callCancel (call : Nat)
  | release (call : Nat)
  | wgDone (call : Nat)
  | wait

def unknownTool (tool : GoString) : ToolResult := ⟨[], lit "unknown tool: " ++ tool⟩

-- A tool call of the plugin waits for a slot on the loop; another is answered at once.
def toolCall (known : Bool) (id tool : GoString) (s : Dispatcher) : Dispatcher :=
  if known then
    { s with
      loop := .acquiring s.calls
      wg := s.wg + 1
      calls := s.calls + 1
      ids := update s.ids s.calls id
      pcs := update s.pcs s.calls .waiting }
  else
    { s with
      calls := s.calls + 1
      ids := update s.ids s.calls id
      pcs := update s.pcs s.calls .unknown
      frames := s.frames ++ [⟨s.calls, id, unknownTool tool⟩] }

def cancel (id : GoString) (s : Dispatcher) : Dispatcher :=
  { s with
    cancels := s.cancels.erase id
    contextDone := match s.cancels.lookup id with
      | some call => update s.contextDone call true
      | none => s.contextDone
    asked := fun call => s.asked call || decide (call < s.calls ∧ s.ids call = id) }

def register (call : Nat) (s : Dispatcher) : Dispatcher :=
  { s with loop := .reading, cancels := s.cancels.insert (s.ids call) call, pcs := update s.pcs call .handling }

def write (call : Nat) (result : ToolResult) (s : Dispatcher) : Dispatcher :=
  { s with pcs := update s.pcs call .written, frames := s.frames ++ [⟨call, s.ids call, result⟩] }

-- The entry of the id goes, whichever call it is of.
def deleteEntry (call : Nat) (s : Dispatcher) : Dispatcher :=
  { s with cancels := s.cancels.erase (s.ids call), pcs := update s.pcs call .deleted }

def read (tools : GoString → Bool) (s : Dispatcher) : Frame → Dispatcher
  | .toolCall id tool => s.toolCall (tools tool) id tool
  | .event _ => { s with loop := .delivering none }
  | .subscribeAck _ => s
  | .cancel id => s.cancel id
  | .shutdown => { s with loop := .returned }

def step (tools : GoString → Bool) (s : Dispatcher) : Action → Option Dispatcher
  | .read frame => if s.loop = .reading then some (s.read tools frame) else none
  | .acquire => match s.loop with
      | .acquiring call =>
          if s.used < maxConcurrency then
            some { s with loop := .registering call, used := s.used + 1, pcs := update s.pcs call .holding }
          else none
      | _ => none
  | .register => match s.loop with
      | .registering call => some (s.register call)
      | _ => none
  | .callbackWaits call =>
      if s.loop = .delivering none ∧ s.pcs call = .handling then some { s with loop := .delivering (some call) } else none
  | .callbackResumes => match s.loop with
      | .delivering (some _) => some { s with loop := .delivering none }
      | _ => none
  | .callbacksReturn => if s.loop = .delivering none then some { s with loop := .reading } else none
  | .handlerReturns call result =>
      if s.pcs call = .handling then some { s with pcs := update s.pcs call (.answering result) } else none
  | .write call => match s.pcs call with
      | .answering result => some (s.write call result)
      | _ => none
  | .deleteEntry call => if s.pcs call = .written then some (s.deleteEntry call) else none
  | .callCancel call =>
      if s.pcs call = .deleted then
        some { s with contextDone := update s.contextDone call true, pcs := update s.pcs call .cancelled }
      else none
  | .release call =>
      if s.pcs call = .cancelled then some { s with used := s.used - 1, pcs := update s.pcs call .released } else none
  | .wgDone call =>
      if s.pcs call = .released then some { s with wg := s.wg - 1, pcs := update s.pcs call .done } else none
  | .wait => if s.loop = .returned ∧ s.wg = 0 then some { s with returned := true } else none

def answers (s : Dispatcher) (call : Nat) : List ResultFrame := s.frames.filter fun frame => frame.call = call

def Unanswered (s : Dispatcher) (call : Nat) : Prop :=
  s.pcs call = .waiting ∨ s.pcs call = .holding ∨ s.pcs call = .handling ∨ ∃ result, s.pcs call = .answering result

structure Safe (s : Dispatcher) : Prop where
  once : ∀ call, call < s.calls → (s.answers call).length = 1 ∨ s.Unanswered call ∧ s.answers call = []
  named : ∀ frame ∈ s.frames, frame.call < s.calls ∧ frame.id = s.ids frame.call
  complete : s.returned = true → ∀ call, call < s.calls → (s.answers call).length = 1
  cancelled : ∀ call, s.asked call = true → s.pcs call = .unknown ∨ s.contextDone call = true ∨ s.pcs call = .deleted
  unblocked : ∀ call, s.loop = .acquiring call → s.used < maxConcurrency
  undelayed : ∀ call, s.loop ≠ .delivering (some call)

def Roomy (tools : GoString → Bool) (s : Dispatcher) : Action → Prop
  | .read (.toolCall id tool) =>
      tools tool = true → s.used < maxConcurrency ∧ ∀ call, call < s.calls → s.ids call = id → (s.pcs call).entered = false
  | .callbackWaits _ => False
  | _ => True

end Dispatcher

end Brainkit.Sdk.Plugin
