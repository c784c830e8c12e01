import Brainkit.Providers.Host
import Brainkit.Storage.Manager

set_option autoImplicit false

-- The caches of resolve.js over the provider registry, with the calls that change the registry step by step.
namespace Brainkit.RuntimeCache

open Function (update)
open GoText
open Providers (EntryKind)
open Storage (StoreKind)
open Transition (run Along Reachable)

abbrev JsString := List UInt16

-- ASCII text only.
def jsLit (text : String) : JsString := text.toList.map fun c => c.toNat.toUInt16

-- How a name gets from one language to the other: as an argument of a bridge function, in the payload of the control bridge, and
-- in the arguments of clearCache.
structure Crossing where
  argument : JsString → GoString
  payload : JsString → GoString
  back : GoString → JsString

-- What an object literal inherits. None of it is falsy.
def objectProperties : List JsString :=
  ["constructor", "__defineGetter__", "__defineSetter__", "hasOwnProperty", "__lookupGetter__", "__lookupSetter__",
    "isPrototypeOf", "propertyIsEnumerable", "toString", "valueOf", "__proto__", "toLocaleString"].map jsLit

-- A configuration is that of the start or the one that a call has registered.
inductive Config where
  | initial
  | of (m : Nat)
deriving DecidableEq

structure Entry where
  config : Config
  type : GoString

inductive Source where
  | registered (config : Config)
  -- from __kit_providers
  | startup
  | inherited
deriving DecidableEq

-- Who runs JavaScript: registry.register or registry.unregister, or a resolve before or after its look into the registry.
inductive Turn where
  | free
  | control (m : Nat)
  | reading (r : Nat)
  | building (r : Nat) (source : Source)
deriving DecidableEq

inductive CallPc where
  | unregistering
  | waiting
  | changed
  | returned (ok : Bool)
deriving DecidableEq

structure Call where
  kind : EntryKind
  name : GoString
  cleared : JsString
  script : Bool
  pc : CallPc

inductive Job where
  | closing (key : GoString) (bridge : Config)
  | unregister
  | done (ok : Bool)
deriving DecidableEq

inductive Outcome where
  | running
  | failed
  | yielded (source : Source) (registered : Bool)
deriving DecidableEq

-- before are the calls that had returned without an error when the resolve began.
structure Resolve where
  kind : EntryKind
  name : JsString
  before : Nat → Bool
  outcome : Outcome

-- past are the configurations that a name has had, last is the call that changed it last, and replaced are those that the name
-- had had when a call changed it.
structure Kernel where
  registry : EntryKind → GoString → Option Entry
  past : EntryKind → GoString → List Config
  last : EntryKind → GoString → Option Nat
  replaced : Nat → List Config
  startup : JsString → Bool
  bridges : GoString → Option Config
  closingBridges : GoString → Bool
  jobs : Nat → Option Job
  cache : EntryKind → JsString → Option Source
  turn : Turn
  calls : Nat → Option Call
  resolves : Nat → Option Resolve

-- The mutation manager, also behind the bus commands, or a script's registry.
inductive Origin where
  | manager (name : GoString)
  | script (name : JsString)

inductive Action where
  | add (m : Nat) (kind : EntryKind) (origin : Origin) (type : GoString) (sqlite : Bool)
  | addFails (m : Nat) (kind : EntryKind) (origin : Origin) (left : Option GoString)
  | remove (m : Nat) (kind : EntryKind) (origin : Origin)
  | unregister (m : Nat)
  | bridgeCloses (m : Nat) (ok : Bool)
  | jobUnregisters (m : Nat)
  | closed (m : Nat)
  | timesOut (m : Nat)
  | invalidate (m : Nat) (ok cleared : Bool)
  | resolve (r : Nat) (kind : EntryKind) (name : JsString)
  | read (r : Nat)
  | build (r : Nat) (ok : Bool)

def knownTypes : EntryKind → List GoString
  | .provider => [lit "openai", lit "anthropic", lit "google", lit "mistral", lit "xai", lit "groq", lit "deepseek",
      lit "cerebras", lit "perplexity", lit "togetherai", lit "fireworks", lit "cohere"]
  | .storage => [lit "memory", lit "libsql", lit "postgres", lit "mongodb", lit "upstash"]
  | .vectorStore => [lit "libsql", lit "pgvector", lit "mongodb"]

-- A provider is never behind a bridge.
def bridgeKey : EntryKind → GoString → Option GoString
  | .provider, _ => none
  | .storage, name => some (StoreKind.storage.bridgeKey name)
  | .vectorStore, name => some (StoreKind.vector.bridgeKey name)

namespace Kernel

def new (registry : EntryKind → GoString → Option GoString) (startup : JsString → Bool) (bridges : GoString → Bool) :
    Kernel where
  registry kind name := (registry kind name).map fun type => ⟨.initial, type⟩
  past kind name := if (registry kind name).isSome then [.initial] else []
  last _ _ := none
  replaced _ := []
  startup := startup
  bridges key := if bridges key then some .initial else none
  closingBridges _ := false
  jobs _ := none
  cache _ _ := none
  turn := .free
  calls _ := none
  resolves _ := none

variable (s : Kernel)

def change (m : Nat) (kind : EntryKind) (name : GoString) (entry : Option Entry) : Kernel :=
  { s with
    registry := fun k n => if k = kind ∧ n = name then entry else s.registry k n
    past := fun k n => if k = kind ∧ n = name then (entry.map Entry.config).toList ++ s.past k n else s.past k n
    last := fun k n => if k = kind ∧ n = name then some m else s.last k n
    replaced := update s.replaced m (s.past kind name) }

def clearCache (kind : EntryKind) (name : JsString) : Kernel :=
  { s with cache := fun k n => if k = kind ∧ (name = [] ∨ n = name) then none else s.cache k n }

def enter (m : Nat) (call : Call) : Kernel :=
  { s with
    calls := update s.calls m (some call)
    turn := if call.script = true then (match call.pc with
      | .returned _ => s.turn
      | _ => .control m) else s.turn }

def goto (m : Nat) (call : Call) (pc : CallPc) : Kernel := { s with calls := update s.calls m (some { call with pc := pc }) }

def leave (m : Nat) (call : Call) (ok : Bool) : Kernel :=
  { s.goto m call (.returned ok) with turn := if call.script = true then .free else s.turn }

def setJob (m : Nat) (job : Job) : Kernel := { s with jobs := update s.jobs m (some job) }

def setResolve (r : Nat) (q : Resolve) (turn : Turn) : Kernel :=
  { s with resolves := update s.resolves r (some q), turn := turn }

end Kernel

open Kernel

def Origin.call (crossing : Crossing) (kind : EntryKind) (pc : CallPc) : Origin → Call
  | .manager name => ⟨kind, name, crossing.back name, false, pc⟩
  | .script name => ⟨kind, crossing.payload name, name, true, pc⟩

def returnedTrue (s : Kernel) (m : Nat) : Bool := match s.calls m with
  | some call => call.pc = .returned true
  | none => false

def Admits (s : Kernel) (m : Nat) (call : Call) : Prop := (s.calls m).isNone = true ∧ (call.script = true → s.turn = .free)

instance (s : Kernel) (m : Nat) (call : Call) : Decidable (Admits s m call) := inferInstanceAs (Decidable (_ ∧ _))

def add (s : Kernel) (m : Nat) (call : Call) (type : GoString) (sqlite : Bool) : Kernel :=
  match (if sqlite then bridgeKey call.kind call.name else none) with
  | none => (s.enter m call).change m call.kind call.name (some ⟨.of m, type⟩)
  | some key =>
      if (s.bridges key).isSome then s.enter m { call with pc := .returned false }
      else { (s.enter m call).change m call.kind call.name (some ⟨.of m, type⟩) with
        bridges := update s.bridges key (some (.of m)) }

def remove (s : Kernel) (m : Nat) (call : Call) : Kernel :=
  match bridgeKey call.kind call.name with
  | none => (s.enter m call).change m call.kind call.name none
  | some key => match s.bridges key with
      | none => s.enter m { call with pc := .unregistering }
      | some bridge =>
          if s.closingBridges key then s.enter m { call with pc := .returned false }
          else { (s.enter m { call with pc := .waiting }).setJob m (.closing key bridge) with
            closingBridges := update s.closingBridges key true }

def finishBridgeClose (s : Kernel) (m : Nat) (key : GoString) (bridge : Config) (ok : Bool) : Kernel :=
  let s := { s with closingBridges := update s.closingBridges key false }
  if ok = false then s.setJob m (.done false)
  else if s.bridges key = some bridge then { s.setJob m .unregister with bridges := update s.bridges key none }
  else s.setJob m (.done true)

-- The cached value is an own or an inherited property of the cache.
def cached (s : Kernel) (kind : EntryKind) (name : JsString) : Option Source :=
  if name ∈ objectProperties then some .inherited else s.cache kind name

def resolve (crossing : Crossing) (s : Kernel) (r : Nat) (kind : EntryKind) (name : JsString) : Kernel :=
  match cached s kind name with
  | some source =>
      s.setResolve r ⟨kind, name, returnedTrue s, .yielded source (s.registry kind (crossing.argument name)).isSome⟩ .free
  | none => s.setResolve r ⟨kind, name, returnedTrue s, .running⟩ (.reading r)

-- The look into the registry, and for a provider into the configurations of the start. A type without a case is an error.
def read (crossing : Crossing) (s : Kernel) (r : Nat) (q : Resolve) : Kernel :=
  let name := crossing.argument q.name
  match s.registry q.kind name with
  | some entry =>
      if (if q.kind = .provider ∧ entry.type = [] then name else entry.type) ∈ knownTypes q.kind then
        s.setResolve r q (.building r (.registered entry.config))
      else s.setResolve r { q with outcome := .failed } .free
  | none =>
      if q.kind = .provider ∧ s.startup q.name = true ∧ name ∈ knownTypes .provider then s.setResolve r q (.building r .startup)
      else s.setResolve r { q with outcome := .failed } .free

-- ok says that the constructor is there and does not throw.
def build (s : Kernel) (r : Nat) (q : Resolve) (source : Source) (ok : Bool) : Kernel :=
  if ok = true then { s.setResolve r { q with outcome := .yielded source (source ≠ .startup) } .free with
    cache := fun k n => if k = q.kind ∧ n = q.name then some source else s.cache k n }
  else s.setResolve r { q with outcome := .failed } .free

-- left is the key of a bridge that a failed add could not close again. The clearing that ends a call is a turn of its own, or the
-- end of a script's turn; cleared says that a call of the manager has reached it in spite of its error.
def step (crossing : Crossing) (s : Kernel) : Action → Option Kernel
  | .add m kind origin type sqlite =>
      let call := origin.call crossing kind .changed
      if Admits s m call ∧ call.name ≠ [] then some (add s m call type sqlite) else none
  | .addFails m kind origin left =>
      let call := origin.call crossing kind (.returned false)
      if Admits s m call then some { s.enter m call with
        bridges := match left with
          | some key => update s.bridges key (some ((s.bridges key).getD (.of m)))
          | none => s.bridges }
      else none
  | .remove m kind origin =>
      let call := origin.call crossing kind .changed
      if Admits s m call then some (remove s m call) else none
  | .unregister m => match s.calls m with
      | some call =>
          if call.pc = .unregistering then some ((s.goto m call .changed).change m call.kind call.name none) else none
      | none => none
  | .bridgeCloses m ok => match s.jobs m with
      | some (.closing key bridge) => some (finishBridgeClose s m key bridge ok)
      | _ => none
  | .jobUnregisters m => match s.calls m, s.jobs m with
      | some call, some .unregister => some ((s.setJob m (.done true)).change m call.kind call.name none)
      | _, _ => none
  | .closed m => match s.calls m, s.jobs m with
      | some call, some (.done ok) =>
          if call.pc = .waiting then some (if ok = true then s.goto m call .changed else s.leave m call false) else none
      | _, _ => none
  | .timesOut m => match s.calls m with
      | some call => if call.pc = .waiting then some (s.leave m call false) else none
      | none => none
  | .invalidate m ok cleared => match s.calls m with
      | some call =>
          let clears := call.script = true ∨ ok = true ∨ cleared = true
          if call.pc = .changed ∧ (clears → s.turn = if call.script = true then .control m else .free) then
            some ((if clears then s.clearCache call.kind call.cleared else s).leave m call (call.script = true ∨ ok = true))
          else none
      | none => none
  | .resolve r kind name =>
      if (s.resolves r).isNone = true ∧ s.turn = .free then some (resolve crossing s r kind name) else none
  | .read r => match s.resolves r with
      | some q => if s.turn = .reading r then some (read crossing s r q) else none
      | none => none
  | .build r ok => match s.resolves r, s.turn with
      | some q, .building r' source => if r' = r then some (build s r q source ok) else none
      | _, _ => none

end Brainkit.RuntimeCache
