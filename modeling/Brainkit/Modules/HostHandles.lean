import Brainkit.Library.Leases
import Brainkit.Library.Transition
import Brainkit.Tools.Registry

set_option autoImplicit false

universe u

namespace Brainkit.Modules

open Function (update)
open GoText Tools Transition

structure ToolSpec where
  name : GoString
  shortName : GoString
  owner : GoString
  package : GoString
  version : GoString
  executor : Option Nat

def ToolSpec.tool (spec : ToolSpec) (executor : Nat) : RegisteredTool :=
  ⟨spec.name, spec.shortName, spec.owner, spec.package, spec.version, executor⟩

inductive Resource (ν : Type u) where
  | tool (tool : RegisteredTool)
  | capability (name : GoString) (value : ν)

inductive Key where
  | tool (name : GoString)
  | capability (name : GoString)
deriving DecidableEq

def Resource.key {ν : Type u} : Resource ν → Key
  | .tool t => .tool t.name
  | .capability name _ => .capability name

structure CapabilityRegistry (ν : Type u) where
  values : GoString → Option ν

namespace CapabilityRegistry

variable {ν : Type u} (isPrint : Nat → Bool)

def provide (name : GoString) (value : ν) (r : CapabilityRegistry ν) : Except GoString (CapabilityRegistry ν) :=
  if name = [] then .error (lit "capability name is required")
  else if (r.values name).isSome then .error (lit "capability " ++ quote isPrint name ++ lit " already provided")
  else .ok ⟨update r.values name (some value)⟩

def drop (name : GoString) (r : CapabilityRegistry ν) : CapabilityRegistry ν := ⟨update r.values name none⟩

end CapabilityRegistry

-- The scope of a mounted module, as far as its handles go: the ones deferred to it, and the ones that a Close of it has
-- taken and not run yet.
structure HandleScope where
  cleanups : List Nat
  closed : Bool
  closing : List Nat

namespace HandleScope

def defer (handle : Nat) (scope : HandleScope) : HandleScope :=
  if scope.closed then scope else { scope with cleanups := scope.cleanups ++ [handle] }

def close (scope : HandleScope) : HandleScope :=
  if scope.closed ∧ scope.cleanups = [] then scope
  else { cleanups := [], closed := true, closing := scope.closing ++ scope.cleanups.reverse }

end HandleScope

-- The two registries of a Kit and the scopes of its modules. Handles are numbered as they are given out. history is what
-- has been registered and which handles have been closed.
structure Hosts (ν : Type u) where
  tools : ToolRegistry
  caps : CapabilityRegistry ν
  scope : Nat → HandleScope
  history : List (Leases.Op (Resource ν))

namespace Hosts

variable {ν : Type u}

def new : Hosts ν := ⟨.new, ⟨fun _ => none⟩, fun _ => ⟨[], false, []⟩, []⟩

def handles (s : Hosts ν) : List (Resource ν) := Leases.acquired s.history

def handOut (m : Nat) (resource : Resource ν) (s : Hosts ν) : Hosts ν :=
  { s with
    scope := update s.scope m ((s.scope m).defer s.handles.length)
    history := s.history ++ [.acquire resource] }

section

variable (isPrint : Nat → Bool)

def register (m : Nat) (spec : ToolSpec) (s : Hosts ν) : Except GoString (Hosts ν) :=
  match spec.executor with
  | none => .error (lit "brainkit: tool " ++ quote isPrint spec.name ++ lit " executor is required")
  | some executor => match s.tools.register (spec.tool executor) with
      | .error err => .error err
      | .ok tools => .ok ({ s with tools := tools }.handOut m (.tool (spec.tool executor).completed))

def provide (m : Nat) (name : GoString) (value : ν) (s : Hosts ν) : Except GoString (Hosts ν) :=
  match s.caps.provide isPrint name value with
  | .error err => .error err
  | .ok caps => .ok ({ s with caps := caps }.handOut m (.capability name value))

end

def remove : Key → Hosts ν → Hosts ν
  | .tool name, s => { s with tools := s.tools.unregister name }
  | .capability name, s => { s with caps := s.caps.drop name }

def closeHandle (handle : Nat) (s : Hosts ν) : Hosts ν :=
  match s.handles[handle]? with
  | none => s
  | some resource => { s.remove resource.key with history := s.history ++ [.release handle] }

def taken (m : Nat) (rest : List Nat) (s : Hosts ν) : Hosts ν :=
  { s with scope := update s.scope m { s.scope m with closing := rest } }

inductive Action (ν : Type u) where
  | register (m : Nat) (spec : ToolSpec)
  | provide (m : Nat) (name : GoString) (value : ν)
  | closeHandle (handle : Nat)
  | closeScope (m : Nat)
  | cleanup (m : Nat)

def closes (s : Hosts ν) : Action ν → Option Nat
  | .closeHandle handle => some handle
  | .cleanup m => (s.scope m).closing.head?
  | _ => none

def step (isPrint : Nat → Bool) (s : Hosts ν) : Action ν → Option (Hosts ν)
  | .register m spec => some (match s.register isPrint m spec with
      | .ok next => next
      | .error _ => s)
  | .provide m name value => some (match s.provide isPrint m name value with
      | .ok next => next
      | .error _ => s)
  | .closeHandle handle => if handle < s.handles.length then some (s.closeHandle handle) else none
  | .closeScope m => some { s with scope := update s.scope m (s.scope m).close }
  | .cleanup m => match (s.scope m).closing with
      | [] => none
      | handle :: rest => some ((s.taken m rest).closeHandle handle)

def denoted (s : Hosts ν) : Key → Option (Resource ν)
  | .tool name => (s.tools.lookup name).map .tool
  | .capability name => (s.caps.values name).map (.capability name)

def latest (s : Hosts ν) (key : Key) : Option (Resource ν) := Leases.latestOf Resource.key key s.history

def Current (s : Hosts ν) : Prop := ∀ key, s.denoted key = s.latest key

def Alone (s : Hosts ν) (action : Action ν) : Prop :=
  ∀ handle resource, s.closes action = some handle → s.handles[handle]? = some resource →
    ∀ lease ∈ Leases.held s.history, lease.2 ≠ handle → lease.1.key ≠ resource.key

@[simp] theorem handOut_history (m : Nat) (resource : Resource ν) (s : Hosts ν) :
    (s.handOut m resource).history = s.history ++ [.acquire resource] := rfl

@[simp] theorem handOut_denoted (m : Nat) (resource : Resource ν) (s : Hosts ν) (key : Key) :
    (s.handOut m resource).denoted key = s.denoted key := by
  cases key <;> rfl

theorem remove_denoted_self (key : Key) (s : Hosts ν) : (s.remove key).denoted key = none := by
  cases key with
  | tool name => exact congrArg (Option.map _) (ToolRegistry.lookup_unregister_self name s.tools)
  | capability name =>
      have gone : (s.caps.drop name).values name = none := by simp [CapabilityRegistry.drop]
      exact congrArg (Option.map (Resource.capability name)) gone

theorem remove_denoted_other {key other : Key} (differs : other ≠ key) (s : Hosts ν) :
    (s.remove key).denoted other = s.denoted other := by
  cases key with
  | tool name => cases other with
      | tool another =>
          have names : another ≠ name := fun same => differs (congrArg Key.tool same)
          exact congrArg (Option.map _) (ToolRegistry.lookup_unregister_other names s.tools)
      | capability another => rfl
  | capability name => cases other with
      | tool another => rfl
      | capability another =>
          have names : another ≠ name := fun same => differs (congrArg Key.capability same)
          have kept : (s.caps.drop name).values another = s.caps.values another := by
            simp [CapabilityRegistry.drop, names]
          exact congrArg (Option.map (Resource.capability another)) kept

theorem closeHandle_some {s : Hosts ν} {handle : Nat} {resource : Resource ν} (known : s.handles[handle]? = some resource) :
    s.closeHandle handle = { s.remove resource.key with history := s.history ++ [.release handle] } := by
  rw [closeHandle, known]

theorem ordered_handle {s : Hosts ν} {handle : Nat} {resource : Resource ν} (known : s.handles[handle]? = some resource) :
    handle < (Leases.acquired s.history).length :=
  (List.getElem?_eq_some_iff.mp known).1

theorem register_denoted {isPrint : Nat → Bool} {m : Nat} {spec : ToolSpec} {s next : Hosts ν}
    (done : s.register isPrint m spec = .ok next) :
    ∃ resource, next.history = s.history ++ [.acquire resource] ∧ next.denoted resource.key = some resource ∧
      ∀ key, key ≠ resource.key → next.denoted key = s.denoted key := by
  unfold register at done
  split at done
  case h_1 => cases done
  case h_2 executor _ =>
      split at done
      case h_1 => cases done
      case h_2 tools registered =>
          cases done
          refine ⟨.tool (spec.tool executor).completed, rfl, ?_, fun key other => ?_⟩
          · rw [Resource.key, completed_name]
            exact congrArg (Option.map _) (ToolRegistry.lookup_register_self registered)
          · cases key with
            | capability name => rfl
            | tool name =>
                have names : name ≠ (spec.tool executor).name := fun same => other (by rw [Resource.key, completed_name, same])
                exact congrArg (Option.map _) (ToolRegistry.lookup_register_other registered names)

theorem provide_denoted {isPrint : Nat → Bool} {m : Nat} {name : GoString} {value : ν} {s next : Hosts ν}
    (done : s.provide isPrint m name value = .ok next) :
    ∃ resource, next.history = s.history ++ [.acquire resource] ∧ next.denoted resource.key = some resource ∧
      ∀ key, key ≠ resource.key → next.denoted key = s.denoted key := by
  unfold provide CapabilityRegistry.provide at done
  split at done
  case h_1 => cases done
  case h_2 caps provided =>
      cases done
      split at provided
      · cases provided
      · split at provided
        · cases provided
        · cases provided
          have put : update s.caps.values name (some value) name = some value := Function.update_self name _ s.caps.values
          refine ⟨.capability name value, rfl, congrArg (Option.map (Resource.capability name)) put, fun key other => ?_⟩
          cases key with
          | tool another => rfl
          | capability another =>
              have names : another ≠ name := fun same => other (by rw [same, Resource.key])
              have kept : update s.caps.values name (some value) another = s.caps.values another :=
                Function.update_of_ne names _ s.caps.values
              exact congrArg (Option.map (Resource.capability another)) kept

theorem acquired_current {s next : Hosts ν} (ordered : Leases.Ordered s.history) (current : s.Current)
    (added : ∃ resource, next.history = s.history ++ [.acquire resource] ∧ next.denoted resource.key = some resource ∧
      ∀ key, key ≠ resource.key → next.denoted key = s.denoted key) : next.Current := by
  obtain ⟨resource, history, same, others⟩ := added
  intro key
  rw [latest, history]
  by_cases this : key = resource.key
  · rw [this, same, Leases.latestOf_acquire_same s.history resource ordered]
  · rw [others key this, Leases.latestOf_acquire_other s.history resource ordered (Ne.symm this)]
    exact current key

theorem closeHandle_current_iff {s : Hosts ν} {handle : Nat} {resource : Resource ν} (current : s.Current)
    (known : s.handles[handle]? = some resource) : (s.closeHandle handle).Current ↔
      ∀ lease ∈ Leases.held s.history, lease.2 ≠ handle → lease.1.key ≠ resource.key := by
  have gone : (s.closeHandle handle).denoted resource.key = none := by
    rw [closeHandle_some known]
    exact s.remove_denoted_self resource.key
  have left : (s.closeHandle handle).latest resource.key = none ↔
      ∀ lease ∈ Leases.held s.history, lease.2 ≠ handle → lease.1.key ≠ resource.key := by
    rw [closeHandle_some known, latest, Leases.latestOf_none_iff, Leases.held_release]
    simp only [List.mem_filter, decide_eq_true_eq, and_imp]
  rw [← left]
  constructor
  · exact fun after => (after resource.key).symm.trans gone
  · intro none key
    by_cases this : key = resource.key
    · rw [this, gone, none]
    · have same : (s.closeHandle handle).denoted key = s.denoted key := by
        rw [closeHandle_some known]
        exact s.remove_denoted_other this
      have kept : (s.closeHandle handle).latest key = s.latest key := by
        rw [closeHandle_some known]
        exact Leases.latestOf_release_other known (Ne.symm this)
      rw [same, kept]
      exact current key

theorem closeHandle_ordered (handle : Nat) (s : Hosts ν) (ordered : Leases.Ordered s.history) :
    Leases.Ordered (s.closeHandle handle).history := by
  unfold closeHandle
  split
  case h_1 => exact ordered
  case h_2 resource known => exact Leases.ordered_release s.history handle ordered (ordered_handle known)

theorem cleanup_some {isPrint : Nat → Bool} {s next : Hosts ν} {m : Nat} (taken : step isPrint s (.cleanup m) = some next) :
    ∃ handle rest, (s.scope m).closing = handle :: rest ∧
      next = (s.taken m rest).closeHandle handle := by
  cases pending : (s.scope m).closing with
  | nil => simp [step, pending] at taken
  | cons handle rest =>
      rw [step, pending] at taken
      exact ⟨handle, rest, rfl, (Option.some.inj taken).symm⟩

theorem step_ordered {isPrint : Nat → Bool} (s : Hosts ν) (action : Action ν) (next : Hosts ν)
    (ordered : Leases.Ordered s.history) (taken : step isPrint s action = some next) : Leases.Ordered next.history := by
  cases action with
  | register m spec =>
      cases taken
      cases done : s.register isPrint m spec with
      | error err => exact ordered
      | ok next =>
          obtain ⟨resource, history, -⟩ := register_denoted done
          exact history ▸ Leases.ordered_acquire s.history resource ordered
  | provide m name value =>
      cases taken
      cases done : s.provide isPrint m name value with
      | error err => exact ordered
      | ok next =>
          obtain ⟨resource, history, -⟩ := provide_denoted done
          exact history ▸ Leases.ordered_acquire s.history resource ordered
  | closeHandle handle =>
      cases Option.some.inj (Option.ite_none_right_eq_some.mp taken).2
      exact closeHandle_ordered handle s ordered
  | closeScope m =>
      cases taken
      exact ordered
  | cleanup m =>
      obtain ⟨handle, rest, -, rfl⟩ := cleanup_some taken
      exact closeHandle_ordered handle (s.taken m rest) ordered

theorem alone_iff {s : Hosts ν} {action : Action ν} {handle : Nat} (closes : s.closes action = some handle) :
    s.Alone action ↔ ∀ resource, s.handles[handle]? = some resource →
      ∀ lease ∈ Leases.held s.history, lease.2 ≠ handle → lease.1.key ≠ resource.key := by
  constructor
  · exact fun alone resource known => alone handle resource closes known
  · rintro alone other resource same known
    cases closes.symm.trans same
    exact alone resource known

theorem close_exact {s : Hosts ν} (handle : Nat) (current : s.Current) : (s.closeHandle handle).Current ↔
    ∀ resource, s.handles[handle]? = some resource →
      ∀ lease ∈ Leases.held s.history, lease.2 ≠ handle → lease.1.key ≠ resource.key := by
  cases known : s.handles[handle]? with
  | none =>
      rw [closeHandle, known]
      exact iff_of_true current nofun
  | some resource =>
      rw [closeHandle_current_iff current known]
      constructor
      · intro alone other same
        exact Option.some.inj same ▸ alone
      · exact fun alone => alone resource rfl

theorem step_current_iff {isPrint : Nat → Bool} (s : Hosts ν) (action : Action ν) (next : Hosts ν)
    (ordered : Leases.Ordered s.history) (current : s.Current) (taken : step isPrint s action = some next) :
    next.Current ↔ s.Alone action := by
  cases action with
  | register m spec =>
      cases taken
      refine iff_of_true ?_ nofun
      cases done : s.register isPrint m spec with
      | error err => exact current
      | ok next => exact acquired_current ordered current (register_denoted done)
  | provide m name value =>
      cases taken
      refine iff_of_true ?_ nofun
      cases done : s.provide isPrint m name value with
      | error err => exact current
      | ok next => exact acquired_current ordered current (provide_denoted done)
  | closeHandle handle =>
      cases Option.some.inj (Option.ite_none_right_eq_some.mp taken).2
      rw [alone_iff rfl]
      exact close_exact handle current
  | closeScope m =>
      cases taken
      exact iff_of_true current nofun
  | cleanup m =>
      obtain ⟨handle, rest, pending, rfl⟩ := cleanup_some taken
      have first : s.closes (.cleanup m) = some handle := by rw [closes, pending, List.head?_cons]
      -- Taking the handle off the scope changes neither registry.
      have kept : (s.taken m rest).Current := by
        intro key
        cases key with
        | tool name => exact current (.tool name)
        | capability name => exact current (.capability name)
      rw [alone_iff first]
      exact close_exact handle kept

theorem new_current : (new : Hosts ν).Current := by
  intro key
  cases key <;> rfl

theorem always_current_iff (isPrint : Nat → Bool) (path : List (Action ν)) (final : Hosts ν)
    (reached : run (step isPrint) new path = some final) :
    Always (step isPrint) Current new path ↔ Along (step isPrint) Alone new path :=
  always_iff_along step_ordered step_current_iff (fun _ member => nomatch member) new_current reached

def echo (executor : Nat) : ToolSpec := ⟨lit "echo", [], [], [], [], some executor⟩

-- The module is unmounted and another one registers a tool of the same name after it.
theorem replaced_echo : Always (step fun _ => true) Current (new : Hosts Nat)
    [.register 0 (echo 0), .closeScope 0, .cleanup 0, .register 1 (echo 1)] := by
  refine (always_current_iff _ _ _ rfl).mpr ?_
  refine along_cons nofun rfl (along_cons nofun rfl (along_cons ?_ rfl (along_cons nofun rfl trivial)))
  intro handle resource closes known lease held other
  cases closes
  cases List.mem_singleton.mp held
  exact absurd rfl other

-- A module that is unmounted after another one has registered a tool of the same name takes that tool away.
theorem unmounted_echo : ∃ s, run (step fun _ => true) (new : Hosts Nat)
      [.register 0 (echo 0), .register 1 (echo 1), .closeScope 0, .cleanup 0] = some s ∧
    s.denoted (.tool (lit "echo")) = none ∧ (s.latest (.tool (lit "echo"))).isSome = true ∧ ¬ s.Current := by
  refine ⟨_, rfl, rfl, rfl, fun current => ?_⟩
  cases current (.tool (lit "echo"))

end Hosts

end Brainkit.Modules
