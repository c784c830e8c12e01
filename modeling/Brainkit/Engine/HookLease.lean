import Brainkit.Library.GoText
import Brainkit.Library.Leases
import Brainkit.Library.Transition

set_option autoImplicit false

namespace Brainkit.Engine

open GoText Transition

structure HookLease (T : Type) where
  token : Nat
  value : T

structure HookLeaseSlot (T : Type) where
  base : T
  baseSet : Bool
  next : Nat
  active : List (HookLease T)

namespace HookLeaseSlot

variable {T : Type}

def new (zero : T) : HookLeaseSlot T := ⟨zero, false, 0, []⟩

def acquire (base value : T) (s : HookLeaseSlot T) : HookLeaseSlot T × Nat :=
  let s := if s.baseSet then s else { s with base := base, baseSet := true }
  let token := s.next + 1
  ({ s with next := token, active := s.active ++ [⟨token, value⟩] }, token)

def current (s : HookLeaseSlot T) : T :=
  match s.active.getLast? with
  | some lease => lease.value
  | none => s.base

def release (token : Nat) (s : HookLeaseSlot T) : HookLeaseSlot T × T :=
  let s := { s with active := s.active.eraseP fun lease => lease.token = token }
  (s, s.current)

end HookLeaseSlot

structure Hook (T : Type) where
  value : T
  lease : HookLeaseSlot T

-- The Lease functions of the kernel: after the checks of its argument each takes k.mu, hands the hook's value to acquire
-- as the base, and sets the hook to the current value. The handle it returns keeps the token.
def leaseHook {T : Type} (refused : Option GoString) (value : T) (hook : Hook T) : Except GoString (Hook T × Nat) :=
  match refused with
  | some err => .error err
  | none =>
      let (slot, token) := hook.lease.acquire hook.value value
      .ok (⟨slot.current, slot⟩, token)

def closeHook {T : Type} (token : Nat) (hook : Hook T) : Hook T :=
  let (slot, value) := hook.lease.release token
  ⟨value, slot⟩

section

variable {H : Type}

def required (text : GoString) (h : Option H) : Option GoString := if h.isNone then some text else none

def leaseScheduleHandler (h : Option H) (hook : Hook (Option H)) : Except GoString (Hook (Option H) × Nat) :=
  leaseHook (required (lit "schedule handler lease requires a handler") h) h hook

def leaseAuditStore (store : Option H) (hook : Hook (Option H)) : Except GoString (Hook (Option H) × Nat) :=
  leaseHook (required (lit "audit store lease requires a store") store) store hook

def leasePluginChecker (checker : Option H) (hook : Hook (Option H)) : Except GoString (Hook (Option H) × Nat) :=
  leaseHook (required (lit "plugin checker lease requires a checker") checker) checker hook

def leasePluginRestarter (restarter : Option H) (hook : Hook (Option H)) : Except GoString (Hook (Option H) × Nat) :=
  leaseHook (required (lit "plugin restarter lease requires a restarter") restarter) restarter hook

def leaseTraceStore (store : Option H) (hook : Hook (Option H)) : Except GoString (Hook (Option H) × Nat) :=
  leaseHook (required (lit "trace store lease requires a store") store) store hook

def leaseToolEvaluator (hasToolDomain : Bool) (eval : Option H) (hook : Hook (Option H)) :
    Except GoString (Hook (Option H) × Nat) :=
  leaseHook ((required (lit "tool evaluator lease requires an evaluator") eval).or
    (if hasToolDomain then none else some (lit "tool evaluator lease requires a tool domain"))) eval hook

inductive Verbosity where
  | normal
  | verbose
deriving DecidableEq

def leaseAuditVerbosity (verbosity : Verbosity) (hook : Hook Verbosity) : Except GoString (Hook Verbosity × Nat) :=
  leaseHook none verbosity hook

end

-- A hook and the tokens of the handles its leases have returned, in that order. Nothing but leases writes the hook.
structure LeasedHook (T : Type) where
  hook : Hook T
  handles : List Nat

namespace LeasedHook

variable {T : Type}

def start (zero initial : T) : LeasedHook T := ⟨⟨initial, .new zero⟩, []⟩

inductive Action (T : Type) where
  | lease (refused : Option GoString) (value : T)
  | close (handle : Nat)

def step (s : LeasedHook T) : Action T → Option (LeasedHook T)
  | .lease refused value => match leaseHook refused value s.hook with
      | .ok (hook, token) => some ⟨hook, s.handles ++ [token]⟩
      | .error _ => some s
  | .close handle => s.handles[handle]?.map fun token => { s with hook := closeHook token s.hook }

def Action.op : Action T → Option (Leases.Op T)
  | .lease none value => some (.acquire value)
  | .lease (some _) _ => none
  | .close handle => some (.release handle)

def history (path : List (Action T)) : List (Leases.Op T) := path.filterMap Action.op

theorem history_acquire (path : List (Action T)) (value : T) :
    history (path ++ [.lease none value]) = history path ++ [.acquire value] := by
  simp [history, Action.op]

theorem history_refused (path : List (Action T)) (err : GoString) (value : T) :
    history (path ++ [.lease (some err) value]) = history path := by
  simp [history, Action.op]

theorem history_release (path : List (Action T)) (handle : Nat) :
    history (path ++ [.close handle]) = history path ++ [.release handle] := by
  simp [history, Action.op]

def entry (lease : T × Nat) : HookLease T := ⟨lease.2 + 1, lease.1⟩

structure Follows (initial : T) (past : List (Leases.Op T)) (s : LeasedHook T) : Prop where
  ordered : Leases.Ordered past
  next : s.hook.lease.next = (Leases.acquired past).length
  handles : s.handles = (List.range (Leases.acquired past).length).map Nat.succ
  active : s.hook.lease.active = (Leases.held past).map entry
  base : s.hook.lease.baseSet = true → s.hook.lease.base = initial
  unset : s.hook.lease.baseSet = false → Leases.acquired past = []
  value : s.hook.value = (Leases.latest past).getD initial

theorem start_follows (zero initial : T) : Follows initial [] (start zero initial) := by
  constructor <;> simp [start, HookLeaseSlot.new, Leases.Ordered, Leases.acquired, Leases.released, Leases.held,
    Leases.latest]

theorem current_entries (slot : HookLeaseSlot T) (leases : List (T × Nat)) (active : slot.active = leases.map entry) :
    slot.current = (leases.getLast?.map Prod.fst).getD slot.base := by
  rw [HookLeaseSlot.current, active, List.getLast?_map]
  cases leases.getLast? <;> rfl

theorem acquire_base (initial value : T) (past : List (Leases.Op T)) (s : LeasedHook T) (follows : Follows initial past s) :
    (s.hook.lease.acquire s.hook.value value).1.base = initial := by
  cases set : s.hook.lease.baseSet with
  | true => simpa [HookLeaseSlot.acquire, set] using follows.base set
  | false =>
      simpa [HookLeaseSlot.acquire, set, Leases.latest, Leases.held, follows.unset set] using follows.value

theorem acquire_set (base value : T) (slot : HookLeaseSlot T) : (slot.acquire base value).1.baseSet = true := by
  cases set : slot.baseSet <;> simp [HookLeaseSlot.acquire, set]

theorem acquire_next (base value : T) (slot : HookLeaseSlot T) :
    (slot.acquire base value).2 = slot.next + 1 ∧ (slot.acquire base value).1.next = slot.next + 1 := by
  cases set : slot.baseSet <;> simp [HookLeaseSlot.acquire, set]

theorem acquire_active (base value : T) (slot : HookLeaseSlot T) :
    (slot.acquire base value).1.active = slot.active ++ [⟨slot.next + 1, value⟩] := by
  cases set : slot.baseSet <;> simp [HookLeaseSlot.acquire, set]

theorem lease_follows (initial : T) (past : List (Leases.Op T)) (s : LeasedHook T) (value : T)
    (follows : Follows initial past s) (hook : Hook T) (token : Nat)
    (leased : leaseHook none value s.hook = .ok (hook, token)) :
    Follows initial (past ++ [.acquire value]) ⟨hook, s.handles ++ [token]⟩ := by
  have based := acquire_base initial value past s follows
  obtain ⟨issued, next⟩ := acquire_next s.hook.value value s.hook.lease
  have active := acquire_active s.hook.value value s.hook.lease
  have count := follows.next
  simp only [leaseHook, Except.ok.injEq, Prod.mk.injEq] at leased
  obtain ⟨rfl, rfl⟩ := leased
  have held := Leases.held_acquire past value follows.ordered
  have set := acquire_set s.hook.value value s.hook.lease
  refine ⟨?_, ?_, ?_, ?_, fun _ => based, fun unset => absurd (unset.symm.trans set) Bool.false_ne_true, ?_⟩
  · exact Leases.ordered_acquire _ value follows.ordered
  · rw [next, count, Leases.acquired_acquire, List.length_append, List.length_singleton]
  · rw [issued, count, follows.handles, Leases.acquired_acquire, List.length_append, List.length_singleton,
      List.range_succ, List.map_append, List.map_singleton]
  · rw [active, follows.active, held, List.map_append, List.map_singleton, entry, count]
  · simp only [Leases.latest, held, HookLeaseSlot.current, active, List.getLast?_concat, Option.map_some, Option.getD_some]

theorem close_follows (initial : T) (past : List (Leases.Op T)) (s : LeasedHook T) (handle token : Nat)
    (follows : Follows initial past s) (issued : s.handles[handle]? = some token) :
    Follows initial (past ++ [.release handle]) { s with hook := closeHook token s.hook } := by
  rw [follows.handles, List.getElem?_map, Option.map_eq_some_iff] at issued
  obtain ⟨number, found, rfl⟩ := issued
  obtain ⟨within, rfl⟩ := List.getElem?_eq_some_iff.mp found
  rw [List.length_range] at within
  rw [List.getElem_range] at *
  have active : (s.hook.lease.active.eraseP fun lease => lease.token = handle + 1) =
      (Leases.held (past ++ [.release handle])).map entry := by
    rw [follows.active, List.eraseP_map, Leases.held_release,
      ← Leases.erase_first Prod.snd handle _ (Leases.held_nodup _)]
    congr 2
    funext lease
    simp [entry]
  have set : s.hook.lease.baseSet = true := by
    by_contra unset
    rw [follows.unset (Bool.eq_false_iff.mpr unset)] at within
    exact Nat.not_lt_zero _ within
  refine ⟨?_, ?_, ?_, ?_, follows.base, fun unset => absurd (unset.symm.trans set) Bool.false_ne_true, ?_⟩
  · exact Leases.ordered_release _ handle follows.ordered within
  · rw [Leases.acquired_release]
    exact follows.next
  · rw [Leases.acquired_release]
    exact follows.handles
  · exact active
  · refine (current_entries _ _ active).trans ?_
    exact congrArg _ (follows.base set)

theorem step_follows (initial : T) (path : List (Action T)) (s : LeasedHook T) (action : Action T) (next : LeasedHook T)
    (follows : Follows initial (history path) s) (taken : step s action = some next) :
    Follows initial (history (path ++ [action])) next := by
  cases action with
  | lease refused value =>
      cases refused with
      | some err =>
          cases taken
          rw [history_refused]
          exact follows
      | none =>
          cases taken
          rw [history_acquire]
          exact lease_follows initial (history path) s value follows _ _ rfl
  | close handle =>
      obtain ⟨token, issued, rfl⟩ := Option.map_eq_some_iff.mp taken
      rw [history_release]
      exact close_follows initial (history path) s handle token follows issued

theorem run_follows (zero initial : T) (path : List (Action T)) (s : LeasedHook T)
    (reached : run step (start zero initial) path = some s) : Follows initial (history path) s := by
  have before : Follows initial (history []) (start zero initial) := start_follows zero initial
  exact run_history (step_follows initial) before reached

theorem leased_hook_value (zero initial : T) (path : List (Action T)) (s : LeasedHook T)
    (reached : run step (start zero initial) path = some s) :
    (∀ value, Leases.latest (history path) = some value → s.hook.value = value) ∧
    (Leases.held (history path) = [] → s.hook.value = initial ∧
      ∀ before value after t, path = before ++ .lease none value :: after → Leases.held (history before) = [] →
        run step (start zero initial) before = some t → s.hook.value = t.hook.value) := by
  have follows := run_follows zero initial path s reached
  have unheld : ∀ (other : List (Action T)) (t : LeasedHook T), Follows initial (history other) t →
      Leases.held (history other) = [] → t.hook.value = initial := by
    intro other t shown nothing
    simpa [Leases.latest, nothing] using shown.value
  refine ⟨fun value latest => by rw [follows.value, latest, Option.getD_some], fun nothing => ?_⟩
  refine ⟨unheld path s follows nothing, fun before value after t _ none first => ?_⟩
  rw [unheld path s follows nothing, unheld before t (run_follows zero initial before t first) none]

-- Three leases; the middle one is released twice.
theorem middle_release_keeps_top : ∃ s, run step (start 0 7) [.lease none 1, .lease none 2, .lease none 3, .close 1, .close 1] =
    some s ∧ s.hook.value = 3 := by
  refine ⟨_, rfl, ?_⟩
  exact (leased_hook_value 0 7 [.lease none 1, .lease none 2, .lease none 3, .close 1, .close 1] _ rfl).1 3 (by decide)

end LeasedHook

end Brainkit.Engine
