import Brainkit.Engine.BusBridges

set_option autoImplicit false

namespace Brainkit.Engine

open GoText Transport Transition

-- Whose code the JS thread runs: that of a deployment, or a snippet that no deployment owns.
inductive Code where
  | direct
  | deployment (source : GoString)

inductive FrameKind where
  | loop
  | evaluation
  | handler
deriving DecidableEq

structure Frame where
  kind : FrameKind
  resumes : Option Code

structure Subscription where
  owner : Code
  source : GoString

-- lifecycle is the Deploy that holds lifecycleMu and whether it has begun to evaluate the code. running is the code that
-- the innermost frame runs, none while it waits in Await or Loop. calls are the goroutines of bus.call and bus.callStream
-- that have not read the source yet. deployed and published are history.
structure JSRuntime (P : Type) where
  currentSource : GoString
  lifecycle : Option (GoString × Bool)
  deployed : List GoString
  frames : List Frame
  running : Option Code
  subscriptions : List Subscription
  calls : List (Code × BusOp P)
  published : List (Code × BusMessage P)

def BusOp.read {P : Type} (current : GoString) : BusOp P → BusOp P
  | .call topic payload targetNS timeoutMs _ id => .call topic payload targetNS timeoutMs current id
  | .callStream topic payload targetNS timeoutMs streamID bufferSize bufferPolicy _ id =>
      .callStream topic payload targetNS timeoutMs streamID bufferSize bufferPolicy current id
  | op => op

namespace JSRuntime

variable {P : Type}

def new : JSRuntime P := ⟨[], none, [], [], none, [], [], []⟩

def deploy (source : GoString) (s : JSRuntime P) : JSRuntime P :=
  if trimSpace source = [] then s
  else { s with currentSource := source, lifecycle := some (source, false) }

def evaluate (source : GoString) (s : JSRuntime P) : JSRuntime P :=
  { s with
    lifecycle := some (source, true)
    deployed := s.deployed ++ [source]
    frames := ⟨.evaluation, s.running⟩ :: s.frames
    running := some (.deployment source) }

def handle (sub : Subscription) (s : JSRuntime P) : JSRuntime P :=
  { s with
    currentSource := sub.source
    frames := ⟨.handler, none⟩ :: s.frames
    running := some sub.owner }

def leave (frame : Frame) (rest : List Frame) (s : JSRuntime P) : JSRuntime P :=
  { s with
    currentSource := if frame.kind = .handler then [] else s.currentSource
    frames := rest
    running := frame.resumes }

-- The checks of the bridge come before the goroutine and do not read the source.
def call (k : Kernel P) (code : Code) (op : BusOp P) (s : JSRuntime P) : JSRuntime P :=
  match k.perform op with
  | .error _ => s
  | .ok _ => { s with calls := s.calls ++ [(code, op)] }

def read (k : Kernel P) (i : Nat) (code : Code) (op : BusOp P) (s : JSRuntime P) : JSRuntime P :=
  match k.perform (op.read s.currentSource) with
  | .error _ => { s with calls := s.calls.eraseIdx i }
  | .ok msg => { s with calls := s.calls.eraseIdx i, published := s.published ++ [(code, msg)] }

def Known (s : JSRuntime P) : Code → Prop
  | .direct => True
  | .deployment source => source ∈ s.deployed

instance (s : JSRuntime P) : (code : Code) → Decidable (s.Known code)
  | .direct => inferInstanceAs (Decidable True)
  | .deployment source => inferInstanceAs (Decidable (source ∈ s.deployed))

-- run is an evaluation of a snippet, a dispatch to a tool or an agent, or the callback of a stream, which leave the
-- source as it is. resume is a microtask: code goes on after an await, in whatever frame waits by then.
inductive Action (P : Type) where
  | deploy (source : GoString)
  | evaluate
  | returned
  | loop
  | run (code : Code)
  | handle (i : Nat)
  | resume (code : Code)
  | yield
  | leave
  | subscribe
  | call (op : BusOp P)
  | read (i : Nat)

def step (k : Kernel P) (s : JSRuntime P) : Action P → Option (JSRuntime P)
  | .deploy source => if s.lifecycle.isNone then some (s.deploy source) else none
  | .evaluate => match s.lifecycle with
      | some (source, false) => some (s.evaluate source)
      | _ => none
  | .returned => s.lifecycle.map fun _ => { s with currentSource := [], lifecycle := none }
  | .loop => if s.frames.isEmpty ∧ s.running.isNone then some { s with frames := [⟨.loop, none⟩] } else none
  | .run code => if s.Known code then
      some { s with frames := ⟨.evaluation, s.running⟩ :: s.frames, running := some code } else none
  | .handle i => if s.running.isNone ∧ s.frames ≠ [] then s.subscriptions[i]?.map fun sub => s.handle sub else none
  | .resume code => if s.running.isNone ∧ s.frames ≠ [] ∧ s.Known code then some { s with running := some code } else none
  | .yield => s.running.map fun _ => { s with running := none }
  | .leave => match s.running, s.frames with
      | none, frame :: rest => some (s.leave frame rest)
      | _, _ => none
  | .subscribe => s.running.map fun code => { s with subscriptions := s.subscriptions ++ [⟨code, s.currentSource⟩] }
  | .call op => if op.current.isSome then s.running.map fun code => s.call k code op else none
  | .read i => s.calls[i]?.map fun entry => s.read k i entry.1 entry.2

end JSRuntime

end Brainkit.Engine
