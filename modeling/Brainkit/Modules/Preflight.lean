import Brainkit.Library.Planned
import Brainkit.Modules.Mounts
import Brainkit.Modules.StartupOrder

set_option autoImplicit false

namespace Brainkit.Modules.Preflight

open GoText Startup

-- What a preflight and a Mount read and change of a Kit, when nothing else runs. caps are the names that modules
-- provide, and core says which capabilities the kernel has.
structure Kit where
  registry : Registry
  fsRoot : GoString
  core : GoString → Bool
  table : MountTable
  caps : List GoString

def registeredModuleDescriptor (registry : Registry) (id : GoString) : Option Descriptor :=
  (registry.lookup id).map fun factory => normalizeDescriptor id (factory.describes.getD ⟨id, [], []⟩)

def descriptorProvidesCapability (desc : Descriptor) (name : GoString) : Bool :=
  desc.capabilities.any fun cap => cap.name = name && cap.direction = .provided

def mountedCapabilityProvider (t : MountTable) (name : GoString) : GoString :=
  let provides := fun id => (t.descs.lookup id).any fun desc => descriptorProvidesCapability desc name
  match t.mountOrder.find? provides with
  | some id => id
  | none => ((sortStrings t.descs.keys).find? provides).getD []

def Kit.capabilitySource (k : Kit) (name : GoString) : Option (GoString × GoString) :=
  if name = [] then none
  else if name ∈ k.caps then
    let provider := mountedCapabilityProvider k.table name
    some (lit "mounted", if provider = [] then lit "mounted" else provider)
  else if k.core name then some (lit "core", lit "brainkit.core")
  else none

structure ModuleDependencyStatus where
  name : GoString
  requestedBy : GoString
  mounted : Bool
  registered : Bool
  available : Bool
deriving DecidableEq

structure CapabilityAvailability where
  module : GoString
  name : GoString
  direction : CapabilityDirection
  type : GoString
  available : Bool
  source : GoString
  provider : GoString
deriving DecidableEq

def dependencyStatusKey (status : ModuleDependencyStatus) : GoString := status.requestedBy ++ [0] ++ status.name

def capabilityAvailabilityKey (cap : CapabilityAvailability) : GoString := cap.module ++ [0] ++ cap.name

-- The stack is also the set visiting. Sets of strings are lists without repetition.
structure Planner where
  plannedCapabilities : Table GoString
  stack : List GoString
  visited : Table Bool
  requiredModules : Table ModuleDependencyStatus
  missingModules : List GoString
  requiredCaps : Table CapabilityAvailability
  optionalCaps : Table CapabilityAvailability
  missingCaps : Table CapabilityAvailability
  errors : List GoString

namespace Planner

def start : Planner := ⟨∅, [], ∅, ∅, [], ∅, ∅, ∅, []⟩

def addError (msg : GoString) (p : Planner) : Planner := { p with errors := p.errors.insert msg }

def missing (dep : GoString) (p : Planner) : Planner := { p with missingModules := p.missingModules.insert dep }

def require (status : ModuleDependencyStatus) (p : Planner) : Planner :=
  { p with requiredModules := p.requiredModules.insert (dependencyStatusKey status) status }

def enter (id : GoString) (p : Planner) : Planner := { p with stack := p.stack ++ [id] }

def leave (id : GoString) (ready : Bool) (p : Planner) : Planner :=
  { p with stack := p.stack.dropLast, visited := p.visited.insert id ready }

def cycleLabel (id : GoString) (p : Planner) : GoString :=
  (lit " -> ").intercalate (p.stack.drop ((p.stack.findIdx? (· = id)).getD 0) ++ [id])

end Planner

def dependencyStatus (k : Kit) (requestedBy name : GoString) : ModuleDependencyStatus where
  name := name
  requestedBy := requestedBy
  mounted := decide (name ∈ k.table.modules)
  registered := decide (name ∈ k.registry)
  available := decide (name ∈ k.table.modules) || decide (name ∈ k.registry)

def capabilityAvailability (k : Kit) (p : Planner) (moduleName : GoString) (cap : CapabilityDescriptor) :
    CapabilityAvailability :=
  let source := match p.plannedCapabilities.lookup cap.name with
    | some provider => some (lit "planned", provider)
    | none => k.capabilitySource cap.name
  { module := moduleName
    name := cap.name
    direction := cap.direction
    type := cap.type
    available := source.isSome
    source := (source.getD ([], [])).1
    provider := (source.getD ([], [])).2 }

def checkRequires (isPrint : Nat → Bool) (k : Kit) (visit : Descriptor → Planner → Option (Bool × Planner)) (id : GoString) :
    List GoString → Bool → Planner → Option (Bool × Planner)
  | [], ready, p => some (ready, p)
  | dep :: rest, ready, p =>
      if dep = [] then checkRequires isPrint k visit id rest ready p
      else if dep = id then
        checkRequires isPrint k visit id rest false
          (p.addError (lit "module " ++ quote isPrint id ++ lit " cannot require itself"))
      else
        let status := dependencyStatus k id dep
        let p := p.require status
        if !status.available then checkRequires isPrint k visit id rest false (p.missing dep)
        else if status.mounted then checkRequires isPrint k visit id rest ready p
        else match registeredModuleDescriptor k.registry dep with
          | none => checkRequires isPrint k visit id rest false (p.missing dep)
          | some depDesc => match visit depDesc p with
              | none => none
              | some (depReady, p) => checkRequires isPrint k visit id rest (ready && depReady) p

def checkCapability (k : Kit) (id : GoString) (acc : Bool × Planner) (cap : CapabilityDescriptor) : Bool × Planner :=
  if cap.name = [] then acc
  else
    let availability := capabilityAvailability k acc.2 id cap
    let key := capabilityAvailabilityKey availability
    match cap.direction with
    | .required =>
        let p := { acc.2 with requiredCaps := acc.2.requiredCaps.insert key availability }
        if availability.available then (acc.1, p)
        else (false, { p with missingCaps := p.missingCaps.insert key availability })
    | .optional => (acc.1, { acc.2 with optionalCaps := acc.2.optionalCaps.insert key availability })
    | .provided => acc

def planCapability (id : GoString) (p : Planner) (cap : CapabilityDescriptor) : Planner :=
  if cap.name = [] || cap.direction ≠ .provided then p
  else { p with plannedCapabilities := p.plannedCapabilities.insert cap.name id }

def finish (k : Kit) (id : GoString) (desc : Descriptor) (acc : Bool × Planner) : Bool × Planner :=
  let acc := desc.capabilities.foldl (checkCapability k id) acc
  let p := if acc.1 then desc.capabilities.foldl (planCapability id) acc.2 else acc.2
  (acc.1, p.leave id acc.1)

def shownName (desc : Descriptor) : GoString := if desc.name = [] then lit "unknown" else desc.name

-- Without fuel there is no answer; each module on the stack takes one.
def check (isPrint : Nat → Bool) (k : Kit) : Nat → Descriptor → Planner → Option (Bool × Planner)
  | 0, _, _ => none
  | fuel + 1, described, p =>
      let desc := normalizeDescriptor described.name described
      let id := shownName desc
      match p.visited.lookup id with
      | some ready => some (ready, p)
      | none =>
          if id ∈ p.stack then some (false, p.addError (lit "cyclic module dependency: " ++ p.cycleLabel id))
          else match checkRequires isPrint k (check isPrint k fuel) id desc.requires true (p.enter id) with
            | none => none
            | some acc => some (finish k id desc acc)

structure ModulePreflight where
  ready : Bool
  requiredModules : List ModuleDependencyStatus
  missingModules : List GoString
  requiredCapabilities : List CapabilityAvailability
  optionalCapabilities : List CapabilityAvailability
  missingRequiredCapabilities : List CapabilityAvailability
  errors : List GoString

def sortedDependencyStatuses (statuses : Table ModuleDependencyStatus) : List ModuleDependencyStatus :=
  (statuses.entries.map Sigma.snd).mergeSort fun a b =>
    if a.requestedBy = b.requestedBy then !decide (b.name < a.name) else !decide (b.requestedBy < a.requestedBy)

def sortedCapabilityAvailabilities (caps : Table CapabilityAvailability) : List CapabilityAvailability :=
  (caps.entries.map Sigma.snd).mergeSort fun a b =>
    if a.module = b.module then !decide (b.name < a.name) else !decide (b.module < a.module)

def Planner.result (p : Planner) : ModulePreflight where
  ready := p.missingModules.isEmpty && p.missingCaps.entries.isEmpty && p.errors.isEmpty
  requiredModules := sortedDependencyStatuses p.requiredModules
  missingModules := sortStrings p.missingModules
  requiredCapabilities := sortedCapabilityAvailabilities p.requiredCaps
  optionalCapabilities := sortedCapabilityAvailabilities p.optionalCaps
  missingRequiredCapabilities := sortedCapabilityAvailabilities p.missingCaps
  errors := sortStrings p.errors

-- A module on the stack is the one that is checked or a registered one, and one that is checked twice may be among them.
def preflightModuleDescriptor (isPrint : Nat → Bool) (k : Kit) (desc : Descriptor) : Option ModulePreflight :=
  (check isPrint k (k.registry.keys.length + 2) (normalizeDescriptor desc.name desc) .start).map fun acc => acc.2.result

def formatRequiredCapability (name type : GoString) : GoString :=
  if type = [] then name else name ++ lit " (" ++ type ++ lit ")"

def formatPreflightCapabilities (root : GoString) (caps : List CapabilityAvailability) : List GoString :=
  sortStrings (caps.map fun cap =>
    if cap.module ≠ [] && cap.module ≠ root then cap.module ++ lit ": " ++ formatRequiredCapability cap.name cap.type
    else formatRequiredCapability cap.name cap.type)

def preflightError (isPrint : Nat → Bool) (name : GoString) (preflight : ModulePreflight) : GoString :=
  let missing := (lit ", ").intercalate (formatPreflightCapabilities name preflight.missingRequiredCapabilities)
  if preflight.missingRequiredCapabilities ≠ [] && preflight.missingModules = [] && preflight.errors = [] then
    lit "brainkit: module " ++ quote isPrint name ++ lit " missing required capabilities before mount: " ++ missing
  else
    let modules := (lit ", ").intercalate preflight.missingModules
    let parts :=
      (if preflight.missingModules = [] then [] else [lit "missing modules: " ++ modules]) ++
      (if preflight.missingRequiredCapabilities = [] then [] else [lit "missing required capabilities: " ++ missing]) ++
      (if preflight.errors = [] then [] else [lit "errors: " ++ (lit ", ").intercalate preflight.errors])
    lit "brainkit: module " ++ quote isPrint name ++ lit " preflight failed before mount: " ++ (lit "; ").intercalate parts

def preflightModuleMount (isPrint : Nat → Bool) (k : Kit) (desc : Descriptor) : Option (Option GoString) :=
  (preflightModuleDescriptor isPrint k desc).map fun preflight =>
    if preflight.ready then none
    else some (preflightError isPrint (shownName desc) preflight)

section Mount

variable (isPrint : Nat → Bool) (ownMount : Module → Kit → Except GoString (List CapabilityDescriptor))

def mountRequires (mountOne : Module → Kit → Option (Option GoString × Kit)) (id : GoString) :
    List GoString → Kit → Option (Option GoString × Kit)
  | [], k => some (none, k)
  | dep :: rest, k =>
      if dep = [] ∨ dep = id then mountRequires mountOne id rest k
      else if dep ∈ k.table.modules then mountRequires mountOne id rest k
      else match buildRegisteredModule isPrint k.registry k.fsRoot dep with
        | .error err => some (some err, k)
        | .ok depMod => match mountOne depMod k with
            | none => none
            | some (none, k) => mountRequires mountOne id rest k
            | some (some err, k) =>
                if dep ∈ k.table.modules then mountRequires mountOne id rest k else some (some err, k)

-- The module's own Mount under its entry of the table. One that fails has its scope closed, with which what it has
-- provided is gone.
def place (mod : Module) (desc : Descriptor) (k : Kit) : Option GoString × Kit :=
  let reserved := { k with table := k.table.reserve mod.id mod.pointer }
  match ownMount mod reserved with
  | .error err => (some (lit "brainkit: mount " ++ quote isPrint mod.id ++ lit ": " ++ err),
      { reserved with table := reserved.table.cancel mod.id })
  | .ok provided => (none, { reserved with
      table := reserved.table.record mod.id mod.pointer (mountedModuleDescriptor mod.id desc provided)
      caps := reserved.caps ++ provided.map (·.name) })

-- A Mount with nothing beside it; each Mount that it is called in takes one of the fuel. The last look at the table,
-- under the lock, sees what the one before it has seen.
def mount : Nat → Module → Kit → Option (Option GoString × Kit)
  | 0, _, _ => none
  | fuel + 1, mod, k =>
      if mod.id = [] then some (some (lit "brainkit: module ID is required"), k)
      else
        let desc := describeModule k.registry mod
        if mod.id ∈ k.table.mounted then some (some (Mounts.alreadyMounted isPrint mod.id), k)
        else match preflightModuleMount isPrint k desc with
          | none => none
          | some (some err) => some (some err, k)
          | some none => match mountRequires isPrint (mount fuel) mod.id (requirements mod.id desc) k with
              | none => none
              | some (some err, k) => some (some err, k)
              | some (none, k) =>
                  if mod.id ∈ k.table.mounted then some (some (Mounts.alreadyMounted isPrint mod.id), k)
                  else match preflightModuleMount isPrint k desc with
                    | none => none
                    | some (some err) => some (some err, k)
                    | some none => some (place isPrint ownMount mod desc k)

end Mount

end Brainkit.Modules.Preflight
