import Mathlib.Logic.Function.Basic

set_option autoImplicit false

-- The async context of nodecompat.go: one table of stores, which run and the bound functions save, overwrite and put back
-- around the code that they call.
namespace Brainkit.Jsbridge.AsyncContext

-- A storage and a store are numbers that stand for the JavaScript values.
abbrev Storage := Nat

abbrev Store := Nat

abbrev Snapshot := Storage → Option Store

-- A function that runs with a snapshot; marked says that bind has made it. What was current when it was made, and when the
-- promise of a then was wrapped, is kept for the statements.
structure Bound where
  marked : Bool
  captured : Snapshot
  current : Snapshot
  wrapped : Option Snapshot

structure Entry where
  function : Bound
  seen : Snapshot

structure World where
  instances : List Storage
  stores : Snapshot
  functions : List Bound
  -- Of wrapped promises: the snapshot that their callbacks are bound with.
  promises : List Snapshot
  log : List Entry

def World.new : World := ⟨[], fun _ => none, [], [], []⟩

def register (storage : Storage) (w : World) : World :=
  if storage ∈ w.instances then w else { w with instances := w.instances ++ [storage] }

def capture (w : World) : Snapshot := fun storage => if storage ∈ w.instances then w.stores storage else none

def restore (snapshot : Snapshot) (w : World) : World :=
  { w with stores := fun storage => if storage ∈ w.instances then snapshot storage else w.stores storage }

def setStore (storage : Storage) (store : Store) (w : World) : World :=
  let w := register storage w
  { w with stores := Function.update w.stores storage (some store) }

def deleteStore (storage : Storage) (w : World) : World := { w with stores := Function.update w.stores storage none }

inductive Outcome where
  | returned
  | threw
deriving DecidableEq

-- The finally clause runs however the function ends.
def runSnapshot (snapshot : Snapshot) (fn : World → Outcome × World) (w : World) : Outcome × World :=
  let prev := capture w
  let (outcome, after) := fn (restore snapshot w)
  (outcome, restore prev after)

def run (storage : Storage) (store : Store) (fn : World → Outcome × World) (w : World) : Outcome × World :=
  let w := register storage w
  let prev := w.stores storage
  let (outcome, after) := fn (setStore storage store w)
  match prev with
  | some prev => (outcome, setStore storage prev after)
  | none => (outcome, deleteStore storage after)

-- bind without a snapshot: of a timer, a subscription, the chunks of a stream, AsyncLocalStorage.bind.
def bind (w : World) : World := { w with functions := w.functions ++ [⟨true, capture w, w.stores, none⟩] }

-- AsyncLocalStorage.snapshot and the constructor of AsyncResource keep a snapshot for functions that are given later.
def takeSnapshot (w : World) : World := { w with functions := w.functions ++ [⟨false, capture w, w.stores, none⟩] }

-- The bound function that a value is already, which bind gives back as it is.
def isBound (w : World) (function : Nat) : Bool := (w.functions[function]?).any Bound.marked

def wrapPromise (w : World) : World := { w with promises := w.promises ++ [capture w] }

-- then, catch and finally of a wrapped promise bind the callback with the promise's snapshot, and wrap the promise that
-- they return with it. already says that the callback is bound.
def promiseThen (captured : Snapshot) (already : Bool) (w : World) : World :=
  { w with
    functions := if already then w.functions else w.functions ++ [⟨true, captured, w.stores, some captured⟩]
    promises := w.promises ++ [captured] }

-- A call tree: what the code of the script does, down to what every function that it calls does this time. An operation on
-- an object that is not there throws.
inductive Code where
  | skip
  | throws
  | seq (first second : Code)
  | attempt (body handler : Code)
  | create (storage : Storage)
  | run (storage : Storage) (store : Store) (body : Code)
  | bind
  | rebind (function : Nat)
  | snapshot
  | wrap
  -- The callback is a new function, or one that there is.
  | andThen (promise : Nat) (callback : Option Nat)
  -- A bound function, a function given to a snapshot, or one that a resource runs.
  | call (function : Nat) (body : Code)

def eval : Code → World → Outcome × World
  | .skip, w => (.returned, w)
  | .throws, w => (.threw, w)
  | .seq first second, w =>
      match eval first w with
      | (.returned, after) => eval second after
      | (.threw, after) => (.threw, after)
  | .attempt body handler, w =>
      match eval body w with
      | (.returned, after) => (.returned, after)
      | (.threw, after) => eval handler after
  | .create storage, w => (.returned, register storage w)
  | .run storage store body, w => run storage store (eval body) w
  | .bind, w => (.returned, bind w)
  | .rebind function, w =>
      if function < w.functions.length then (.returned, if isBound w function then w else bind w) else (.threw, w)
  | .snapshot, w => (.returned, takeSnapshot w)
  | .wrap, w => (.returned, wrapPromise w)
  | .andThen promise callback, w =>
      match w.promises[promise]? with
      | some captured =>
          if ∀ function ∈ callback, function < w.functions.length then
            (.returned, promiseThen captured (callback.any (isBound w)) w)
          else (.threw, w)
      | none => (.threw, w)
  | .call function body, w =>
      match w.functions[function]? with
      | some bound =>
          runSnapshot bound.captured (fun w => eval body { w with log := w.log ++ [⟨bound, w.stores⟩] }) w
      | none => (.threw, w)

-- What the event loop does: outermost calls, one after the other. Between them a script may set stores for good.
inductive Turn where
  | outermost (code : Code)
  | enterWith (storage : Storage) (store : Store)
  | disable (storage : Storage)

def turn (w : World) : Turn → World
  | .outermost code => (eval code w).2
  | .enterWith storage store => setStore storage store w
  | .disable storage => deleteStore storage w

def session (turns : List Turn) : World := turns.foldl turn .new

-- The stores that a function is to run with: of a callback on a wrapped promise, those of the promise.
def Bound.context (bound : Bound) : Snapshot := bound.wrapped.getD bound.current

def Known (w : World) (snapshot : Snapshot) : Prop := ∀ storage, storage ∉ w.instances → snapshot storage = none

structure Valid (w : World) : Prop where
  stores : Known w w.stores
  functions : ∀ bound ∈ w.functions, bound.captured = bound.context ∧ Known w bound.captured
  promises : ∀ captured ∈ w.promises, Known w captured
  log : ∀ entry ∈ w.log, entry.seen = entry.function.context

structure Kept (w after : World) : Prop where
  valid : Valid after
  instances : ∀ storage ∈ w.instances, storage ∈ after.instances
  stores : after.stores = w.stores

section

variable {w after : World} {snapshot : Snapshot}

theorem capture_known (known : Known w w.stores) : capture w = w.stores := by
  funext storage
  unfold capture
  split
  · rfl
  · next absent => exact (known storage absent).symm

theorem restore_known (stores : Known w w.stores) (known : Known w snapshot) : (restore snapshot w).stores = snapshot := by
  funext storage
  unfold restore
  dsimp only
  split
  · rfl
  · next absent => rw [stores storage absent, known storage absent]

theorem known_grows (grows : ∀ storage ∈ w.instances, storage ∈ after.instances) (known : Known w snapshot) :
    Known after snapshot :=
  fun storage absent => known storage fun member => absent (grows storage member)

theorem register_grows (storage : Storage) (w : World) : ∀ other ∈ w.instances, other ∈ (register storage w).instances := by
  intro other member
  unfold register
  split
  · exact member
  · exact List.mem_append_left _ member

theorem register_same (storage : Storage) (w : World) :
    (register storage w).stores = w.stores ∧ (register storage w).functions = w.functions ∧
      (register storage w).promises = w.promises ∧ (register storage w).log = w.log := by
  unfold register
  split <;> exact ⟨rfl, rfl, rfl, rfl⟩

theorem valid_stores (valid : Valid w) (grows : ∀ storage ∈ w.instances, storage ∈ after.instances)
    (same : after.functions = w.functions ∧ after.promises = w.promises ∧ after.log = w.log) (stores : Known after after.stores) :
    Valid after := by
  obtain ⟨functions, promises, log⟩ := same
  refine ⟨stores, fun bound member => ?_, fun captured member => ?_, fun entry member => valid.log entry (log ▸ member)⟩
  · obtain ⟨context, known⟩ := valid.functions bound (functions ▸ member)
    exact ⟨context, known_grows grows known⟩
  · exact known_grows grows (valid.promises captured (promises ▸ member))

theorem register_valid (valid : Valid w) (storage : Storage) : Valid (register storage w) := by
  obtain ⟨stores, rest⟩ := register_same storage w
  refine valid_stores valid (register_grows storage w) rest ?_
  rw [stores]
  exact known_grows (register_grows storage w) valid.stores

theorem restore_valid (valid : Valid w) (known : Known w snapshot) : Valid (restore snapshot w) := by
  refine valid_stores valid (fun _ member => member) ⟨rfl, rfl, rfl⟩ ?_
  rw [restore_known valid.stores known]
  exact known

theorem kept_trans {middle : World} (first : Kept w middle) (second : Kept middle after) : Kept w after :=
  ⟨second.valid, fun storage member => second.instances storage (first.instances storage member),
    second.stores.trans first.stores⟩

theorem append_valid {bound : Bound} (valid : Valid w) (context : bound.captured = bound.context)
    (known : Known w bound.captured) :
    Valid { w with functions := w.functions ++ [bound] } := by
  refine ⟨valid.stores, fun other member => ?_, valid.promises, valid.log⟩
  rcases List.mem_append.mp member with before | last
  · exact valid.functions other before
  · rw [List.mem_singleton.mp last]
    exact ⟨context, known⟩

theorem snapshot_valid (valid : Valid w) : Valid (takeSnapshot w) := by
  have captured := capture_known valid.stores
  exact append_valid valid captured (captured ▸ valid.stores)

end

end Brainkit.Jsbridge.AsyncContext
