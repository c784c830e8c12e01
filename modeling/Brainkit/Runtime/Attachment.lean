import Brainkit.Library.GoText
import Brainkit.Library.Transition

set_option autoImplicit false

-- Enable and DisableJSRuntime on one kernel, step by step. A call of Enable builds one runtime at most, which has the number
-- of the call.
namespace Brainkit.Attachment

open GoText
open Function (update)
open Transition (run Along Reachable)

-- Where closeWithMode is, and what its caller does after it: the lock closeMu, the bridges, the lease of the tool evaluator
-- and the sandbox, then DetachJSRuntime and SetRuntimeConfigJSRuntime(false).
inductive Stage where
  | lock
  | bridges
  | lease
  | sandbox
  | detach
  | clear
deriving DecidableEq

-- The point that a call of Enable has passed: the first look at HasJSRuntime, NewSandbox, ExistingStorageBridgeNames, the
-- second look, LeaseToolEvaluator, InitStorageBridges, the registrations, AttachJSRuntime, initJSRuntimeGlobals; failing is
-- cleanupActivation.
inductive EnableCall where
  | idle
  | building
  | built
  | snapped
  | checked
  | leased
  | initialized
  | registered
  | attached
  | ready
  | failing (stage : Stage)
  | returned
deriving DecidableEq

inductive DisableCall where
  | idle
  | nothing
  | closing (runtime : Nat) (stage : Stage)
  | returned
deriving DecidableEq

inductive Actor where
  | enable (e : Nat)
  | disable (d : Nat)
deriving DecidableEq

-- closed is the runtime's, or its sandbox's where Enable gives up before there is more; closeTried is set once either close
-- has begun. reported says that a call has returned an error of its cleanup.
structure Runtime where
  built : Bool
  existing : GoString → Bool
  opened : GoString → Bool
  closeMu : Bool
  closeTried : Bool
  closed : Bool
  reported : Bool

-- A storage bridge belongs to the kernel or to the runtime that started it.
inductive Owner where
  | kernel
  | runtime (r : Nat)
deriving DecidableEq

structure Kernel where
  jsRuntime : Option Nat
  -- config.JSRuntime
  flag : Bool
  bridges : GoString → Option Owner
  closingBridges : GoString → Option Owner
  -- The active leases of the tool evaluator, the last one in force.
  leases : List Nat
  runtime : Nat → Runtime
  enables : Nat → EnableCall
  disables : Nat → DisableCall

namespace Kernel

def new (bridges : GoString → Bool) : Kernel where
  jsRuntime := none
  flag := false
  bridges name := if bridges name then some .kernel else none
  closingBridges _ := none
  leases := []
  runtime _ := ⟨false, fun _ => false, fun _ => false, false, false, false, false⟩
  enables _ := .idle
  disables _ := .idle

variable (k : Kernel)

-- None is the evaluator that the first lease found.
def evaluator : Option Nat := k.leases.getLast?

def goto (e : Nat) (pc : EnableCall) : Kernel := { k with enables := update k.enables e pc }

def setRuntime (r : Nat) (value : Runtime) : Kernel := { k with runtime := update k.runtime r value }

-- Enable gives up a sandbox that nothing else knows of; the error of its close is dropped.
def abandon (e : Nat) (ok : Bool) : Kernel :=
  (k.setRuntime e { k.runtime e with closeTried := true, closed := ok }).goto e .returned

def openBridges (e : Nat) (started : List GoString) : Kernel :=
  { k.setRuntime e { k.runtime e with opened := fun name => (k.runtime e).opened name || name ∈ started } with
    bridges := fun name => if name ∈ started then some (.runtime e) else k.bridges name }

-- closeBridge and closeBridgeLocked, on bridges of the runtime's own.
def dropBridges (e : Nat) (lost : List GoString) : Kernel :=
  { k.setRuntime e { k.runtime e with opened := fun name => (k.runtime e).opened name && name ∉ lost } with
    bridges := fun name => if name ∈ lost ∧ k.bridges name = some (.runtime e) then none else k.bridges name }

def stage : Actor → Option (Nat × Stage)
  | .enable e => match k.enables e with
      | .failing stage => some (e, stage)
      | _ => none
  | .disable d => match k.disables d with
      | .closing r stage => some (r, stage)
      | _ => none

def setStage (a : Actor) (r : Nat) (stage : Stage) : Kernel := match a with
  | .enable e => k.goto e (.failing stage)
  | .disable d => { k with disables := update k.disables d (.closing r stage) }

def leave (a : Actor) : Kernel := match a with
  | .enable e => k.goto e .returned
  | .disable d => { k with disables := update k.disables d .returned }

def targets (r : Nat) (name : GoString) : Prop :=
  (k.runtime r).existing name = false ∧ k.bridges name ≠ none ∧ k.closingBridges name = none

instance (r : Nat) (name : GoString) : Decidable (k.targets r name) := inferInstanceAs (Decidable (_ ∧ _ ∧ _))

end Kernel

-- ok says that the step succeeded. fails leaves Enable before anything is built.
inductive Action where
  | enable (e : Nat)
  | fails (e : Nat)
  | newSandbox (e : Nat)
  | snapshot (e : Nat)
  | check (e : Nat) (ok : Bool)
  | leaseEvaluator (e : Nat)
  | leaseFails (e : Nat) (ok : Bool)
  | initBridges (e : Nat) (started : List GoString) (ok : Bool)
  | register (e : Nat) (started lost : List GoString) (ok : Bool)
  | attach (e : Nat)
  | globals (e : Nat) (ok : Bool)
  | activate (e : Nat)
  | disable (d : Nat)
  | lock (a : Actor) (hostErr : Bool)
  | closeBridges (a : Actor)
  | closeLease (a : Actor)
  | closeSandbox (a : Actor) (err hostErr : Bool)
  | detach (a : Actor)
  | clear (a : Actor)
  | clearNothing (d : Nat)
  | bridgeCloses (name : GoString) (ok : Bool)

open Kernel

def afterClose (k : Kernel) (a : Actor) (r : Nat) (err : Bool) : Kernel := match a with
  | .enable _ => k.setStage a r .detach
  | .disable _ => if err then k.leave a else k.setStage a r .detach

def step (k : Kernel) : Action → Option Kernel
  | .enable e =>
      if k.enables e = .idle then some (k.goto e (if k.jsRuntime.isSome then .returned else .building)) else none
  | .fails e => if k.enables e = .idle ∨ k.enables e = .building then some (k.goto e .returned) else none
  | .newSandbox e =>
      if k.enables e = .building then some ((k.setRuntime e { k.runtime e with built := true }).goto e .built) else none
  | .snapshot e =>
      if k.enables e = .built then
        some ((k.setRuntime e { k.runtime e with existing := fun name => (k.bridges name).isSome }).goto e .snapped)
      else none
  | .check e ok =>
      if k.enables e = .snapped then some (if k.jsRuntime.isSome then k.abandon e ok else k.goto e .checked) else none
  | .leaseEvaluator e =>
      if k.enables e = .checked then some ({ k with leases := k.leases ++ [e] }.goto e .leased) else none
  | .leaseFails e ok => if k.enables e = .checked then some (k.abandon e ok) else none
  | .initBridges e started ok =>
      if k.enables e = .leased ∧ ∀ name ∈ started, k.bridges name = none then
        some ((k.openBridges e started).goto e (if ok then .initialized else .failing .lock))
      else none
  | .register e started lost ok =>
      if k.enables e = .initialized ∧ (∀ name ∈ started, k.bridges name = none) ∧ (ok = true → lost = []) then
        some (((k.openBridges e started).dropBridges e lost).goto e (if ok then .registered else .failing .lock))
      else none
  | .attach e =>
      if k.enables e = .registered then
        some ({ k with jsRuntime := if k.jsRuntime.isSome then k.jsRuntime else some e }.goto e .attached)
      else none
  | .globals e ok =>
      if k.enables e = .attached then some (k.goto e (if ok then .ready else .failing .lock)) else none
  | .activate e => if k.enables e = .ready then some ({ k with flag := true }.goto e .returned) else none
  | .disable d =>
      if k.disables d = .idle then some { k with
        disables := update k.disables d (match k.jsRuntime with
          | some r => .closing r .lock
          | none => .nothing) }
      else none
  | .lock a hostErr => match k.stage a with
      | some (r, .lock) =>
          if (k.runtime r).closeMu then none
          -- A runtime that is closed is not closed again.
          else if (k.runtime r).closed then some (afterClose k a r hostErr)
          else some ((k.setRuntime r { k.runtime r with closeMu := true, closeTried := true }).setStage a r .bridges)
      | _ => none
  | .closeBridges a => match k.stage a with
      | some (r, .bridges) =>
          some ({ k with
            closingBridges := fun name => if k.targets r name then k.bridges name else k.closingBridges name }.setStage a r .lease)
      | _ => none
  | .closeLease a => match k.stage a with
      | some (r, .lease) => some ({ k with leases := k.leases.filter (· ≠ r) }.setStage a r .sandbox)
      | _ => none
  | .closeSandbox a err hostErr => match k.stage a with
      | some (r, .sandbox) =>
          some (afterClose (k.setRuntime r { k.runtime r with
            closeMu := false, closed := !err, reported := (k.runtime r).reported || err }) a r (err || hostErr))
      | _ => none
  | .detach a => match k.stage a with
      | some (r, .detach) =>
          some ({ k with jsRuntime := if k.jsRuntime = some r then none else k.jsRuntime }.setStage a r .clear)
      | _ => none
  | .clear a => match k.stage a with
      | some (_, .clear) => some ({ k with flag := false }.leave a)
      | _ => none
  | .clearNothing d =>
      if k.disables d = .nothing then some { k with flag := false, disables := update k.disables d .returned } else none
  | .bridgeCloses name ok => match k.closingBridges name with
      | some owner => some { k with
          closingBridges := update k.closingBridges name none
          bridges := update k.bridges name (if ok = true ∧ k.bridges name = some owner then none else k.bridges name) }
      | none => none

end Brainkit.Attachment
