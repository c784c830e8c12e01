import Brainkit.Library.Gate
import Brainkit.Library.Transition
import Brainkit.Modules.MountTable

set_option autoImplicit false

namespace Brainkit.Providers

open Function (update)
open GoText
open Brainkit.Modules (Table)

inductive EntryKind where
  | provider
  | vectorStore
  | storage
deriving DecidableEq

def EntryKind.label : EntryKind → GoString
  | .provider => lit "provider"
  | .vectorStore => lit "vector store"
  | .storage => lit "storage"

structure Entry (R : Type) where
  registration : R
  healthy : Bool
  lastErr : GoString

-- A call that beginOperation has admitted runs until its done; refused is a call that it has answered with an error.
inductive OperationPc where
  | unborn
  | running
  | refused
  | returned
deriving DecidableEq

inductive ProbePc where
  | unborn
  | running
  | ended
deriving DecidableEq

inductive CloseError where
  | probes
  | operations
deriving DecidableEq

inductive ClosePc where
  | unborn
  | closing
  | awaitingProbes
  | awaitingOperations (err : List CloseError)
  | returned (err : List CloseError)
deriving DecidableEq

-- A Manager with its registry. operations is its closed flag, wait group and closeDone, probes the registry's. Calls are
-- numbered by who makes them, probes in the order of their start.
structure Host (R : Type) where
  operations : Gate
  probes : Gate
  entries : EntryKind → Table (Entry R)
  operation : Nat → OperationPc
  probe : Nat → ProbePc
  probeCount : Nat
  close : Nat → ClosePc

namespace Host

variable {R : Type}

def new : Host R := ⟨.new, .new, fun _ => ∅, fun _ => .unborn, fun _ => .unborn, 0, fun _ => .unborn⟩

def put (kind : EntryKind) (name : GoString) (entry : Entry R) (s : Host R) : Host R :=
  { s with entries := update s.entries kind ((s.entries kind).insert name entry) }

def startProbe (s : Host R) : Host R :=
  { s with probes := s.probes.enter, probe := update s.probe s.probeCount .running, probeCount := s.probeCount + 1 }

def probeIf (probeOnRegister : Bool) (s : Host R) : Host R := if probeOnRegister then s.startProbe else s

-- RegisterAIProvider, RegisterVectorStore and RegisterStorage. Only a provider is probed.
def register (probeOnRegister : Bool) (kind : EntryKind) (name : GoString) (reg : R) (s : Host R) : Except GoString (Host R) :=
  if name = [] then .error (kind.label ++ lit " name is required")
  else if s.probes.closed then .error (lit "provider registry is closed")
  else .ok ((s.put kind name ⟨reg, false, lit "probe pending"⟩).probeIf (kind = .provider && probeOnRegister))

-- UpdateAIProvider. Without the provider there is nothing to do and no error.
def updateAIProvider (probeOnRegister : Bool) (name : GoString) (change : R → Except GoString R) (s : Host R) :
    Except GoString (Host R) :=
  if name = [] then .error (lit "provider name is required")
  else if s.probes.closed then .error (lit "provider registry is closed")
  else match (s.entries .provider).lookup name with
    | none => .ok s
    | some entry => match change entry.registration with
      | .error err => .error err
      | .ok reg => .ok ((s.put .provider name ⟨reg, false, lit "probe pending"⟩).probeIf probeOnRegister)

def unregister (kind : EntryKind) (name : GoString) (s : Host R) : Host R :=
  { s with entries := update s.entries kind ((s.entries kind).erase name) }

def updateProbeResult (kind : EntryKind) (name : GoString) (healthy : Bool) (err : GoString) (s : Host R) : Host R :=
  match (s.entries kind).lookup name with
  | none => s
  | some entry => s.put kind name { entry with healthy := healthy, lastErr := err }

def beginOperation (n : Nat) (s : Host R) : Host R :=
  if s.operations.closed then { s with operation := update s.operation n .refused }
  else { s with operations := s.operations.enter, operation := update s.operation n .running }

inductive Action (R : Type) where
  | beginOperation (n : Nat)
  | done (n : Nat)
  | register (kind : EntryKind) (name : GoString) (reg : R)
  | updateAIProvider (name : GoString) (change : R → Except GoString R)
  | unregister (kind : EntryKind) (name : GoString)
  | updateProbeResult (kind : EntryKind) (name : GoString) (healthy : Bool) (err : GoString)
  | probeEnds (i : Nat)
  | close (k : Nat)
  | closeRegistry (k : Nat)
  | probesClosed (k : Nat)
  | probesExpired (k : Nat)
  | operationsClosed (k : Nat)
  | operationsExpired (k : Nat)
  | operationsWaited
  | operationsDone
  | probesWaited
  | probesDone

def attempted (s : Host R) : Except GoString (Host R) → Host R
  | .ok next => next
  | .error _ => s

def setClose (k : Nat) (pc : ClosePc) (s : Host R) : Host R := { s with close := update s.close k pc }

-- A context of a close can be done at any time.
def step (probeOnRegister : Bool) (s : Host R) : Action R → Option (Host R)
  | .beginOperation n => if s.operation n = .unborn then some (s.beginOperation n) else none
  | .done n =>
      if s.operation n = .running then
        some { s with operations := s.operations.leave, operation := update s.operation n .returned }
      else none
  | .register kind name reg => some (s.attempted (s.register probeOnRegister kind name reg))
  | .updateAIProvider name change => some (s.attempted (s.updateAIProvider probeOnRegister name change))
  | .unregister kind name => some (s.unregister kind name)
  | .updateProbeResult kind name healthy err => some (s.updateProbeResult kind name healthy err)
  | .probeEnds i =>
      if s.probe i = .running then some { s with probes := s.probes.leave, probe := update s.probe i .ended } else none
  | .close k =>
      if s.close k = .unborn then some ({ s with operations := s.operations.close }.setClose k .closing) else none
  | .closeRegistry k =>
      if s.close k = .closing then some ({ s with probes := s.probes.close }.setClose k .awaitingProbes) else none
  | .probesClosed k =>
      if s.close k = .awaitingProbes ∧ s.probes.waiter = .done then some (s.setClose k (.awaitingOperations [])) else none
  | .probesExpired k =>
      if s.close k = .awaitingProbes then some (s.setClose k (.awaitingOperations [.probes])) else none
  | .operationsClosed k => match s.close k with
      | .awaitingOperations err => if s.operations.waiter = .done then some (s.setClose k (.returned err)) else none
      | _ => none
  | .operationsExpired k => match s.close k with
      | .awaitingOperations err => some (s.setClose k (.returned (err ++ [.operations])))
      | _ => none
  | .operationsWaited => s.operations.pass.map fun gate => { s with operations := gate }
  | .operationsDone => s.operations.finish.map fun gate => { s with operations := gate }
  | .probesWaited => s.probes.pass.map fun gate => { s with probes := gate }
  | .probesDone => s.probes.finish.map fun gate => { s with probes := gate }

structure Quiet (probeOnRegister : Bool) (s : Host R) : Prop where
  operation : ∀ n, s.operation n ≠ .running
  probe : ∀ i, s.probe i ≠ .running
  register : ∀ kind name reg, ∃ err, s.register probeOnRegister kind name reg = .error err
  update : ∀ name change, ∃ err, s.updateAIProvider probeOnRegister name change = .error err

end Host

end Brainkit.Providers
