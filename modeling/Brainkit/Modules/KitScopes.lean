import Brainkit.Modules.MountTable
import Brainkit.Modules.Scope

set_option autoImplicit false

namespace Brainkit.Modules

open Function (update)
open GoText Forest Transition

-- A command, a subscription, a tool or a capability: the scope it has been registered through, the deferred Close of its
-- handle if the scope has accepted it, and whether its holder has closed the handle.
structure Registration where
  scope : Nat
  cleanup : Option Nat
  gone : Bool

-- A mounted module, or one that is being mounted, with its scope.
abbrev MountedScope := GoString × Nat

-- A Kit with the scopes of its modules. One call of Mount, Unmount or closeMounted is made after the other: mounting is
-- the module whose own Mount is running, shutting what a closeMounted has still to close and what it has closed, with
-- the errors.
structure KitScopes where
  scopes : Scopes
  table : MountTable
  mounting : Option MountedScope
  shutting : Option (List MountedScope × List MountedScope × List GoString)
  registrations : List Registration

namespace KitScopes

def new : KitScopes := ⟨.new, .new, none, none, []⟩

section

variable (isPrint : Nat → Bool)

def notMounted (id : GoString) : GoString := lit "brainkit: module " ++ quote isPrint id ++ lit " is not mounted"

-- Mount until the module's own Mount. refused is an error of the preflight or of a module it requires.
def mount (id : GoString) (refused : Option GoString) (s : KitScopes) : KitScopes × Option GoString :=
  if id = [] then (s, some (lit "brainkit: module ID is required"))
  else if id ∈ s.table.mounted then (s, some (lit "brainkit: module " ++ quote isPrint id ++ lit " already mounted"))
  else match refused with
    | some err => (s, some err)
    | none => ({ s with
        scopes := s.scopes.newScope id
        table := s.table.reserve id s.scopes.created
        mounting := some (id, s.scopes.created) }, none)

def succeed (entry : MountedScope) (desc : Descriptor) (s : KitScopes) : KitScopes :=
  { s with table := s.table.record entry.1 entry.2 desc, mounting := none }

def fail (entry : MountedScope) (err : GoString) (outcome : Nat → Option GoString) (s : KitScopes) : KitScopes × GoString :=
  ({ s with scopes := (s.scopes.close outcome entry.2).1, table := s.table.cancel entry.1, mounting := none },
    lit "brainkit: mount " ++ quote isPrint entry.1 ++ lit ": " ++ err)

def unmount (id : GoString) (refused : Option GoString) (outcome : Nat → Option GoString) (s : KitScopes) :
    KitScopes × Option GoString :=
  match refused with
  | some err => (s, some err)
  | none => match s.table.mounted.lookup id with
      | none => (s, some (notMounted isPrint id))
      | some scope => match s.scopes.close outcome scope with
          | (scopes, some err) => ({ s with scopes := scopes }, some err)
          | (scopes, none) => ({ s with scopes := scopes, table := s.table.forget id }, none)

end

def closingOrder (t : MountTable) : List MountedScope :=
  let ordered := t.mountOrder.reverse.filterMap fun id => (t.mounted.lookup id).map fun scope => (id, scope)
  let remaining := sortStrings (t.mounted.keys.filter fun id => !(ordered.map Prod.fst).contains id)
  ordered ++ remaining.reverse.filterMap fun id => (t.mounted.lookup id).map fun scope => (id, scope)

def closeMounted (s : KitScopes) : KitScopes := { s with shutting := some (closingOrder s.table, [], []) }

def closeNext (entry : MountedScope) (rest closed : List MountedScope) (errs : List GoString)
    (outcome : Nat → Option GoString) (s : KitScopes) : KitScopes :=
  match s.scopes.close outcome entry.2 with
  | (scopes, some err) => { s with scopes := scopes, shutting := some (rest, closed, errs ++ [err]) }
  | (scopes, none) => { s with scopes := scopes, shutting := some (rest, closed ++ [entry], errs) }

def forgetClosed (closed : List MountedScope) (t : MountTable) : MountTable :=
  closed.foldl (fun t entry => if t.mounted.lookup entry.1 = some entry.2 then t.forget entry.1 else t) t

def finish (closed : List MountedScope) (errs : List GoString) (s : KitScopes) : KitScopes × Option GoString :=
  ({ s with table := forgetClosed closed s.table, shutting := none }, joinErrors errs)

def register (i : Nat) (s : KitScopes) : KitScopes :=
  { s with
    scopes := s.scopes.defer i false
    registrations := s.registrations ++ [⟨i, if (s.scopes.scope i).closed then none else some s.scopes.deferred, false⟩] }

def closeHandle (r : Nat) (err : Option GoString) (s : KitScopes) : KitScopes :=
  match err with
  | some _ => s
  | none => { s with registrations := s.registrations.modify r fun g => { g with gone := true } }

-- What modules do with the scopes they have comes at any time; the calls of the Kit come one after the other.
inductive Action where
  | child (i : Nat) (id : GoString)
  | defer (i : Nat) (isNil : Bool)
  | register (i : Nat)
  | closeScope (i : Nat) (outcome : Nat → Option GoString)
  | closeHandle (r : Nat) (err : Option GoString)
  | mount (id : GoString) (refused : Option GoString)
  | succeed (desc : Descriptor)
  | fail (err : GoString) (outcome : Nat → Option GoString)
  | unmount (id : GoString) (refused : Option GoString) (outcome : Nat → Option GoString)
  | closeMounted
  | closeNext (outcome : Nat → Option GoString)
  | finish

def idle (s : KitScopes) : Bool := s.mounting.isNone && s.shutting.isNone

def step (isPrint : Nat → Bool) (s : KitScopes) : Action → Option KitScopes
  | .child i id => if i < s.scopes.created then some { s with scopes := s.scopes.child i id } else none
  | .defer i isNil => if i < s.scopes.created then some { s with scopes := s.scopes.defer i isNil } else none
  | .register i => if i < s.scopes.created then some (s.register i) else none
  | .closeScope i outcome =>
      if i < s.scopes.created then some { s with scopes := (s.scopes.close outcome i).1 } else none
  | .closeHandle r err => some (s.closeHandle r err)
  | .mount id refused => if s.idle then some (s.mount isPrint id refused).1 else none
  | .succeed desc => s.mounting.map fun entry => s.succeed entry desc
  | .fail err outcome => s.mounting.map fun entry => (s.fail isPrint entry err outcome).1
  | .unmount id refused outcome => if s.idle then some (s.unmount isPrint id refused outcome).1 else none
  | .closeMounted => if s.idle then some s.closeMounted else none
  | .closeNext outcome => match s.shutting with
      | some (entry :: rest, closed, errs) => some (s.closeNext entry rest closed errs outcome)
      | _ => none
  | .finish => match s.shutting with
      | some ([], closed, errs) => some (s.finish closed errs).1
      | _ => none

def Recorded (s : KitScopes) (scope : Nat) : Prop := ∃ id, s.table.mounted.lookup id = some scope

def Reached (s : KitScopes) (i : Nat) : Prop := ∃ t, s.Recorded t ∧ Under s.scopes.registered t i

end KitScopes

end Brainkit.Modules
