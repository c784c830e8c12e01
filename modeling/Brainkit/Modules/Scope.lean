import Brainkit.Library.Forest
import Brainkit.Library.GoText
import Brainkit.Library.Transition

set_option autoImplicit false

namespace Brainkit.Modules

open Function (update)
open GoText Forest

abbrev Cleanup := Item

@[match_pattern] abbrev Cleanup.fn (k : Nat) : Cleanup := .leaf k
@[match_pattern] abbrev Cleanup.close (child : Nat) : Cleanup := .node child

structure Scope where
  id : GoString
  cleanups : List Cleanup
  closed : Bool

-- Scopes are numbered as they are made, deferred functions as they are accepted. registered and ran are history: the
-- cleanups that each scope has accepted, and the functions that have been run with the errors they returned.
structure Scopes where
  scope : Nat → Scope
  created : Nat
  deferred : Nat
  registered : Nat → List Cleanup
  ran : List (Nat × Option GoString)

def joinErrors : List GoString → Option GoString
  | [] => none
  | err :: rest => some (rest.foldl (fun joined next => joined ++ [10] ++ next) err)

namespace Scopes

def new : Scopes := ⟨fun _ => ⟨[], [], false⟩, 0, 0, fun _ => [], []⟩

def setScope (s : Scopes) (i : Nat) (scope : Scope) : Scopes := { s with scope := update s.scope i scope }

def newScope (id : GoString) (s : Scopes) : Scopes :=
  { s.setScope s.created ⟨id, [], false⟩ with created := s.created + 1 }

def append (i : Nat) (cleanup : Cleanup) (s : Scopes) : Scopes :=
  { s.setScope i { s.scope i with cleanups := (s.scope i).cleanups ++ [cleanup] } with
    registered := update s.registered i (s.registered i ++ [cleanup]) }

-- The child of a closed scope is not attached to it.
def child (i : Nat) (id : GoString) (s : Scopes) : Scopes :=
  let childID := if (s.scope i).id ≠ [] ∧ id ≠ [] then (s.scope i).id ++ lit "/" ++ id else id
  let next := s.newScope childID
  if (s.scope i).closed then next else next.append i (.close s.created)

def defer (i : Nat) (isNil : Bool) (s : Scopes) : Scopes :=
  if isNil || (s.scope i).closed then s
  else { s.append i (.fn s.deferred) with deferred := s.deferred + 1 }

section

variable (outcome : Nat → Option GoString)

def runFn (k : Nat) (s : Scopes) : Scopes × Option GoString :=
  ({ s with ran := s.ran ++ [(k, outcome k)] }, outcome k)

-- The loop of Close over the cleanups, the latest first. It collects the ones that fail with their errors.
def attemptAll (close : Nat → Scopes → Scopes × Option GoString) : List Cleanup → Scopes → Scopes × List (Cleanup × GoString)
  | [], s => (s, [])
  | cleanup :: rest, s =>
      let (s, err) := match cleanup with
        | .fn k => s.runFn outcome k
        | .close child => close child s
      let (s, failed) := attemptAll close rest s
      (s, match err with
        | some err => (cleanup, err) :: failed
        | none => failed)

-- Close, with one of fuel for every level of the tree below the scope. outcome is what the functions return.
def closeWithin : Nat → Nat → Scopes → Scopes × Option GoString
  | 0, _, s => (s, none)
  | fuel + 1, i, s =>
      if (s.scope i).closed ∧ (s.scope i).cleanups = [] then (s, none)
      else
        let taken := s.setScope i { s.scope i with closed := true, cleanups := [] }
        let (s, failed) := attemptAll outcome (closeWithin fuel) (s.scope i).cleanups.reverse taken
        match joinErrors (failed.map Prod.snd) with
        | none => (s, none)
        | some err =>
            if (s.scope i).id = [] then (s, some err)
            else
              (s.setScope i { s.scope i with cleanups := (s.scope i).cleanups ++ (failed.map Prod.fst).reverse },
                some (lit "scope " ++ (s.scope i).id ++ lit ": " ++ err))

def close (i : Nat) (s : Scopes) : Scopes × Option GoString := closeWithin outcome s.created i s

end

inductive Action where
  | newScope (id : GoString)
  | child (i : Nat) (id : GoString)
  | defer (i : Nat) (isNil : Bool)
  | close (i : Nat) (outcome : Nat → Option GoString)

def step (s : Scopes) : Action → Option Scopes
  | .newScope id => some (s.newScope id)
  | .child i id => if i < s.created then some (s.child i id) else none
  | .defer i isNil => if i < s.created then some (s.defer i isNil) else none
  | .close i outcome => if i < s.created then some (s.close outcome i).1 else none

def succeeded (s : Scopes) (k : Nat) : Bool := decide ((k, none) ∈ s.ran)

def due (s : Scopes) (i : Nat) : List Nat := latestWithin s.registered (fun k => !s.succeeded k) s.created i

end Scopes

end Brainkit.Modules
