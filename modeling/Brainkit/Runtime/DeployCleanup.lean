import Brainkit.Runtime.Resources

set_option autoImplicit false

-- What a Deploy that fails and a Teardown leave of a source, in deployment.go and the registry in Go. The sweep of the
-- tables in JS is memory only.
namespace Brainkit.Runtime.DeployCleanup

open Function (update update_self update_of_ne)
open GoText
open Transition (run Along)

-- What the callbacks of the manager remove; a tool goes by its full name.
inductive Thing where
  | tool (name : GoString)
  | agent (name : GoString)
  | subscription (id : GoString)
  | schedule (id : GoString)
deriving DecidableEq

-- No code reads owner, which is the source whose code has made a thing, none for the host and its plugins.
structure Manager where
  entries : List Entry
  works : Thing → Bool
  owner : Thing → Option GoString
  compartments : GoString → Bool
  -- The orders of the live and of the persisted deployments.
  deployments : GoString → Option Nat
  store : GoString → Option Nat

def empty : Manager := ⟨[], fun _ => false, fun _ => none, fun _ => false, fun _ => none, fun _ => none⟩

def entryTypes : List GoString :=
  Resources.validTypes ++ Resources.objectPrototype ++ [lit "topic", lit "subscription", lit "schedule"]

def standsFor (callerID : GoString) (e : Entry) : Option Thing :=
  if e.type = lit "tool" then some (.tool (Resources.toolFullName callerID e.id))
  else if e.type = lit "agent" then some (.agent e.id)
  else if e.type = lit "subscription" then some (.subscription e.id)
  else if e.type = lit "schedule" then some (.schedule e.id)
  else none

-- What running code does: a thing and its entry, a thing alone (the host's, or when the code is interrupted between
-- the two), or the end of a thing.
inductive Move where
  | makes (t : Thing)
  | provides (e : Entry)
  | drops (t : Thing)

def Move.known : Move → Bool
  | .provides e => e.type ∈ entryTypes
  | _ => true

-- The entries that a cleanup has removed, in the order of the map, each with what ScheduleCleanup does; whether the
-- evaluation that drops the compartment succeeds, and whether the store deletes the record.
structure Cleanup where
  removed : List (Entry × Bool)
  dropped : Bool
  deleted : Bool

structure Evaluation where
  compartment : Bool
  ran : List Move

namespace Manager

def register (e : Entry) (m : Manager) : Manager := { m with entries := m.entries.filter (·.key ≠ e.key) ++ [e] }

def make (caller : Option GoString) (t : Thing) (m : Manager) : Manager :=
  { m with works := update m.works t true, owner := update m.owner t caller }

def drop (t : Thing) (m : Manager) : Manager := { m with works := update m.works t false }

def act (callerID : GoString) (caller : Option GoString) (m : Manager) : Move → Manager
  | .makes t => m.make caller t
  | .provides e => match standsFor callerID e with
      | some t => (m.make caller t).register e
      | none => m.register e
  | .drops t => m.drop t

def toolNames (m : Manager) (name : GoString) : Bool := m.works (.tool name)

variable (resolve : (GoString → Bool) → GoString → Option GoString)

def dispatchCleanup (m : Manager) (entry : Entry × Bool) : Manager :=
  if entry.1.type = lit "tool" then match resolve m.toolNames entry.1.id with
    | some full => m.drop (.tool full)
    | none => m
  else if entry.1.type = lit "agent" then m.drop (.agent entry.1.id)
  else if entry.1.type = lit "subscription" then m.drop (.subscription entry.1.id)
  else if entry.1.type = lit "schedule" then if entry.2 then m.drop (.schedule entry.1.id) else m
  else m

def dispatchCleanups (removed : List (Entry × Bool)) (m : Manager) : Manager := removed.foldl (dispatchCleanup resolve) m

def removeBySource (source : GoString) (m : Manager) : Manager := { m with entries := m.entries.filter (·.source ≠ source) }

def teardownFile (source : GoString) (removed : List (Entry × Bool)) (m : Manager) : Option Manager :=
  if (removed.map Prod.fst).Perm (m.entries.filter (·.source = source)) then
    some ((m.removeBySource source).dispatchCleanups resolve removed)
  else none

def dropCompartment (source : GoString) (dropped : Bool) (m : Manager) : Manager :=
  { m with compartments := if dropped then update m.compartments source false else m.compartments }

def teardownLocked (source : GoString) (cleanup : Cleanup) (m : Manager) : Option Manager :=
  (m.teardownFile resolve source cleanup.removed).map fun m =>
    { m.dropCompartment source cleanup.dropped with
      deployments := update m.deployments source none
      store := if cleanup.deleted then update m.store source none else m.store }

def validateAndPrepareDeploy (source : GoString) (replaced : Cleanup) (m : Manager) : Option Manager :=
  if (m.deployments source).isSome then m.teardownLocked resolve source replaced else some m

def evaluate (callerID source : GoString) (evaluation : Evaluation) (m : Manager) : Manager :=
  evaluation.ran.foldl (act callerID (some source))
    { m with compartments := if evaluation.compartment then update m.compartments source true else m.compartments }

-- evaluateInCompartment when the evaluation fails. Without one the preparation of the source fails.
def evaluationFails (callerID source : GoString) (evaluation : Option (Evaluation × Cleanup)) (m : Manager) : Option Manager :=
  match evaluation with
  | none => some m
  | some (evaluation, cleanup) =>
      ((m.evaluate callerID source evaluation).teardownFile resolve source cleanup.removed).map (dropCompartment source cleanup.dropped)

def deployFails (callerID source : GoString) (replaced : Cleanup) (evaluation : Option (Evaluation × Cleanup)) (m : Manager) :
    Option Manager :=
  if trimSpace source = [] then some m
  else (m.validateAndPrepareDeploy resolve source replaced).bind (evaluationFails resolve callerID source evaluation)

def deploySucceeds (callerID source : GoString) (replaced : Cleanup) (evaluation : Evaluation) (order : Nat) (saved : Bool)
    (m : Manager) : Option Manager :=
  if trimSpace source = [] then none
  else (m.validateAndPrepareDeploy resolve source replaced).map fun m =>
    let ran := m.evaluate callerID source evaluation
    { ran with
      deployments := update ran.deployments source (some order)
      store := if saved then update ran.store source (some order) else ran.store }

def removeResource (e : Entry) (unscheduled : Bool) (m : Manager) : Manager :=
  { m with entries := m.entries.filter (·.key ≠ e.key) }.dispatchCleanup resolve (e, unscheduled)

end Manager

inductive Action where
  | deployFails (source : GoString) (replaced : Cleanup) (evaluation : Option (Evaluation × Cleanup))
  | deploySucceeds (source : GoString) (replaced : Cleanup) (evaluation : Evaluation) (order : Nat) (saved : Bool)
  | teardown (source : GoString) (cleanup : Cleanup)
  -- Code that runs on after its evaluation, or the host without a caller.
  | code (caller : Option GoString) (move : Move)
  | removeResource (e : Entry) (unscheduled : Bool)

def Action.moves : Action → List Move
  | .deployFails _ _ evaluation => (evaluation.map fun e => e.1.ran).getD []
  | .deploySucceeds _ _ evaluation _ _ => evaluation.ran
  | .code _ move => [move]
  | _ => []

def step (resolve : (GoString → Bool) → GoString → Option GoString) (callerID : GoString) (m : Manager) (action : Action) :
    Option Manager :=
  if action.moves.all Move.known then
    match action with
    | .deployFails source replaced evaluation => m.deployFails resolve callerID source replaced evaluation
    | .deploySucceeds source replaced evaluation order saved =>
        m.deploySucceeds resolve callerID source replaced evaluation order saved
    | .teardown source cleanup => m.teardownLocked resolve source cleanup
    | .code caller move => some (m.act callerID caller move)
    | .removeResource e unscheduled => if e ∈ m.entries then some (m.removeResource resolve e unscheduled) else none
  else none

end Brainkit.Runtime.DeployCleanup
