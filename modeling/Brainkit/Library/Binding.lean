import Mathlib.Data.List.Basic

set_option autoImplicit false

universe u

-- A variable that scopes set when they are entered and put back to what they have found when they are left.
namespace Binding

structure Scope (α : Type u) where
  value : α
  found : α

-- What the variable holds when the scopes are left in the order opposite to the one they have been entered in. The
-- last one comes first.
def bound {α : Type u} (base : α) : List (Scope α) → α
  | [] => base
  | scope :: _ => scope.value

def Nested {α : Type u} (base : α) : List (Scope α) → Prop
  | [] => True
  | scope :: rest => scope.found = bound base rest ∧ Nested base rest

section

variable {α : Type u} {base : α} {scopes : List (Scope α)}

theorem nested_enter (nested : Nested base scopes) (value : α) :
    Nested base (⟨value, bound base scopes⟩ :: scopes) := ⟨rfl, nested⟩

theorem nested_leave {scope : Scope α} (nested : Nested base (scope :: scopes)) :
    scope.found = bound base scopes ∧ Nested base scopes := nested

end

end Binding
