import Brainkit.Library.Transition
import Brainkit.Modules.MountTable
import Brainkit.Tools.Registry

set_option autoImplicit false

namespace Brainkit.Runtime

open Function (update)
open GoText Modules Tools Plugins

inductive Resource where
  | tool (name : GoString)
  | agent (name : GoString)
  | subscription (id : GoString)
  | schedule (id : GoString)
  | ref (key : GoString)
deriving DecidableEq

inductive Cleanup where
  | toolsUnregister (name : GoString)
  | agentsUnregister (name : GoString)
  | unsubscribe (id : GoString)
  | unschedule (id : GoString)

structure Ref where
  source : GoString
  name : GoString

structure Entry where
  type : GoString
  id : GoString
  name : GoString
  source : GoString
deriving DecidableEq

def key (type id : GoString) : GoString := type ++ lit ":" ++ id

def Entry.key (entry : Entry) : GoString := Runtime.key entry.type entry.id

structure Visit where
  first : ToolRegistry → List RegisteredTool
  second : ToolRegistry → List RegisteredTool
  first_perm : ∀ tools, (first tools).Perm tools.tools
  second_perm : ∀ tools, (second tools).Perm tools.tools

def Visit.listed : Visit := ⟨ToolRegistry.tools, ToolRegistry.tools, fun _ => .refl _, fun _ => .refl _⟩

-- refs, cleanups and busSubs are the tables in JS, entries is the registry in Go, and the others are what the resources
-- are in Go. handler tells whether the schedules module is mounted. No code reads owner, which is the deployment that has
-- registered a resource.
structure Resources where
  refs : Table Ref
  cleanups : Table Cleanup
  busSubs : Finset GoString
  entries : Table Entry
  tools : ToolRegistry
  agents : Finset GoString
  bridgeSubs : Finset GoString
  handler : Bool
  schedules : Finset GoString
  deployments : Finset GoString
  owner : Resource → GoString

def eraseAll {α : Type} (keys : List GoString) (table : Table α) : Table α := keys.foldl (fun table key => table.erase key) table

namespace Resources

def new (handler : Bool) : Resources :=
  ⟨∅, ∅, ∅, ∅, .new, ∅, ∅, handler, ∅, ∅, fun _ => []⟩

def own (caller : GoString) (r : Resource) (s : Resources) : Resources := { s with owner := update s.owner r caller }

-- toolhost.Domain
def toolFullName (callerID name : GoString) : GoString :=
  if isNewFormat name then name else composeName callerID callerID (lit "0.0.0") name

def toolShortName (name : GoString) : GoString := if isNewFormat name then (parseToolName name).tool else name

def toolsRegister (callerID name : GoString) (executor : Nat) (s : Resources) : Except GoString Resources :=
  match s.tools.register ⟨toolFullName callerID name, toolShortName name, [], [], [], executor⟩ with
  | .ok tools => .ok { s with tools := tools }
  | .error err => .error err

def resolved (visit : Visit) (name : GoString) (s : Resources) : Option GoString :=
  match s.tools.resolve name (visit.first s.tools) (visit.second s.tools) with
  | .ok tool => some tool.name
  | .error _ => none

def toolsUnregister (visit : Visit) (name : GoString) (s : Resources) : Resources :=
  match s.resolved visit name with
  | some full => { s with tools := s.tools.unregister full }
  | none => s

-- _resourceRegistry in bus.js
def runCleanup (visit : Visit) (cleanup : Cleanup) (s : Resources) : Resources :=
  match cleanup with
  | .toolsUnregister name => s.toolsUnregister visit name
  | .agentsUnregister name => { s with agents := s.agents.erase name }
  | .unsubscribe id => { s with bridgeSubs := s.bridgeSubs.erase id, busSubs := s.busSubs.erase id }
  | .unschedule id => if s.handler then { s with schedules := s.schedules.erase id } else s

-- source is empty where the caller leaves it out. caller is the deployment whose code makes the call.
def register (caller current type id name : GoString) (cleanup : Option Cleanup) (source : GoString) (s : Resources) : Resources :=
  let resolvedSource := orElse source (orElse current (lit "unknown"))
  { s.own caller (.ref (key type id)) with
    entries := s.entries.insert (key type id) ⟨type, id, orElse name id, resolvedSource⟩
    refs := s.refs.insert (key type id) ⟨resolvedSource, orElse name id⟩
    cleanups := match cleanup with
      | some cleanup => s.cleanups.insert (key type id) cleanup
      | none => s.cleanups.erase (key type id) }

def cleaned (visit : Visit) (key : GoString) (s : Resources) : Resources :=
  match s.cleanups.lookup key with
  | some cleanup => { s.runCleanup visit cleanup with cleanups := s.cleanups.erase key }
  | none => s

def unregister (visit : Visit) (type id : GoString) (s : Resources) : Resources :=
  { s.cleaned visit (key type id) with refs := s.refs.erase (key type id) }

def list (type : GoString) (s : Resources) : List GoString :=
  s.refs.entries.filterMap fun entry =>
    let parts := (cut 58 entry.1).getD (entry.1, [])
    if type = [] ∨ parts.1 = type then some parts.2 else none

-- __kit_kitAPI
def validTypes : List GoString := [lit "tool", lit "agent", lit "workflow", lit "memory"]

-- What every object has a value under, so that _validTypes has one too.
def objectPrototype : List GoString :=
  [lit "constructor", lit "hasOwnProperty", lit "isPrototypeOf", lit "propertyIsEnumerable", lit "toLocaleString", lit "toString",
    lit "valueOf", lit "__proto__", lit "__defineGetter__", lit "__defineSetter__", lit "__lookupGetter__",
    lit "__lookupSetter__"]

def kitRegister (callerID current type name : GoString) (executor : Nat) (s : Resources) : Except GoString Resources :=
  if type ∉ validTypes ++ objectPrototype then
    .error (lit "kit.register: invalid type '" ++ type ++ lit "' (must be tool, agent, workflow, or memory)")
  else if name = [] then .error (lit "kit.register: name is required and must be a string")
  else if (s.refs.lookup (key type name)).isSome then .ok s
  else if type = lit "tool" then
    match s.toolsRegister callerID name executor with
    | .ok s => .ok ((s.own current (.tool (toolFullName callerID name))).register current current type name name
        (some (.toolsUnregister name)) [])
    | .error err => .error err
  else if type = lit "agent" then
    .ok (({ s with agents := insert name s.agents }.own current (.agent name)).register current current type name name
      (some (.agentsUnregister name)) [])
  else .ok (s.register current current type name name none [])

def kitUnregister (visit : Visit) (current type name : GoString) (s : Resources) : Except GoString Resources :=
  match s.refs.lookup (key type name) with
  | some entry =>
      if entry.source ≠ current ∧ current ≠ [] then
        .error (lit "kit.unregister: cannot unregister " ++ type ++ lit " '" ++ name ++ lit "' owned by " ++ entry.source)
      else .ok (s.unregister visit type name)
  | none => .ok (s.unregister visit type name)

-- __kit_bus. The id is the uuid that Go has made for the subscription or the schedule.
def subscribe (caller current id : GoString) (s : Resources) : Resources :=
  ({ s with bridgeSubs := insert id s.bridgeSubs, busSubs := insert id s.busSubs }.own caller (.subscription id)).register
    caller current (lit "subscription") id id (some (.unsubscribe id)) []

def on (source fullTopic localTopic id : GoString) (s : Resources) : Except GoString Resources :=
  if (s.refs.lookup (key (lit "topic") fullTopic)).isSome then
    .error (lit "topic '" ++ localTopic ++ lit "' already subscribed in this package")
  else .ok ((s.register source source (lit "topic") fullTopic localTopic none source).subscribe source source id)

def unsubscribe (visit : Visit) (id : GoString) (s : Resources) : Resources :=
  (s.runCleanup visit (.unsubscribe id)).unregister visit (lit "subscription") id

def schedule (source id : GoString) (s : Resources) : Except GoString Resources :=
  if s.handler then
    .ok (({ s with schedules := insert id s.schedules }.own source (.schedule id)).register source source (lit "schedule") id id
      (some (.unschedule id)) [])
  else .error (lit "schedules not configured")

def unschedule (visit : Visit) (id : GoString) (s : Resources) : Except GoString Resources :=
  if s.handler then .ok ((s.runCleanup visit (.unschedule id)).unregister visit (lit "schedule") id)
  else .error (lit "schedules not configured")

-- DeploymentManager
def bySource (source : GoString) (s : Resources) : List Entry :=
  (s.entries.entries.map Sigma.snd).filter (·.source = source)

def dispatchCleanup (entry : Entry) (visit : Visit) (s : Resources) : Resources :=
  if entry.type = lit "tool" then s.toolsUnregister visit entry.id
  else if entry.type = lit "agent" then { s with agents := s.agents.erase entry.id }
  else if entry.type = lit "subscription" then { s with bridgeSubs := s.bridgeSubs.erase entry.id }
  else if entry.type = lit "schedule" then s.runCleanup visit (.unschedule entry.id)
  else s

def dispatchCleanups (removed : List (Entry × Visit)) (s : Resources) : Resources :=
  removed.foldl (fun s entry => s.dispatchCleanup entry.1 entry.2) s

def sweepJSRefs (removed : List Entry) (s : Resources) : Resources :=
  { s with
    refs := eraseAll (removed.map Entry.key) s.refs
    busSubs := s.busSubs \ ((removed.filter (·.type = lit "subscription")).map Entry.id).toFinset
    cleanups := eraseAll (removed.map Entry.key) s.cleanups }

-- The entries come in the order of the map. swept tells whether the evaluation that sweeps the tables in JS succeeds.
def remove (removed : List (Entry × Visit)) (swept : Bool) (s : Resources) : Resources :=
  let entries := removed.map Prod.fst
  let s := { s with entries := eraseAll (entries.map Entry.key) s.entries }.dispatchCleanups removed
  if swept then s.sweepJSRefs entries else s

def teardownFile (source : GoString) (removed : List (Entry × Visit)) (swept : Bool) (s : Resources) : Option Resources :=
  if (removed.map Prod.fst).Perm (s.bySource source) then some (s.remove removed swept) else none

def removeResource (visit : Visit) (type id : GoString) (swept : Bool) (s : Resources) : Resources :=
  match s.entries.lookup (key type id) with
  | some entry => s.remove [(entry, visit)] swept
  | none => s

def teardownLocked (source : GoString) (removed : List (Entry × Visit)) (swept : Bool) (s : Resources) : Option Resources :=
  (s.teardownFile source removed swept).map fun s => { s with deployments := s.deployments.erase source }

inductive Call where
  | unregister (type name : GoString)
  | unsubscribe (id : GoString)
  | unschedule (id : GoString)

def call (caller : GoString) (visit : Visit) (c : Call) (s : Resources) : Except GoString Resources :=
  match c with
  | .unregister type name => s.kitUnregister visit caller type name
  | .unsubscribe id => .ok (s.unsubscribe visit id)
  | .unschedule id => s.unschedule visit id

-- A call that throws has changed nothing.
def orSame (s : Resources) (result : Except GoString Resources) : Resources := result.toOption.getD s

-- An evaluation of a deployment goes from beginDeploy to tracked, or to teardownFile when it fails. bus.onCancel calls
-- subscribe with any current source. The host registers tools of its own and of plugins.
inductive Action where
  | kitRegister (current type name : GoString) (executor : Nat)
  | subscribe (caller current id : GoString)
  | on (source fullTopic localTopic id : GoString)
  | schedule (source id : GoString)
  | call (caller : GoString) (visit : Visit) (c : Call)
  | hostTool (owner : GoString) (tool : RegisteredTool)
  | beginDeploy (source : GoString) (removed : List (Entry × Visit)) (swept : Bool)
  | tracked (source : GoString)
  | teardownFile (source : GoString) (removed : List (Entry × Visit)) (swept : Bool)
  | teardown (source : GoString) (removed : List (Entry × Visit)) (swept : Bool)
  | removeResource (visit : Visit) (type id : GoString) (swept : Bool)

def step (callerID : GoString) (s : Resources) : Action → Option Resources
  | .kitRegister current type name executor => some (s.orSame (s.kitRegister callerID current type name executor))
  | .subscribe caller current id => some (s.subscribe caller current id)
  | .on source fullTopic localTopic id => some (s.orSame (s.on source fullTopic localTopic id))
  | .schedule source id => some (s.orSame (s.schedule source id))
  | .call caller visit c => some (s.orSame (s.call caller visit c))
  | .hostTool owner tool => some (s.orSame ((s.tools.register tool).map fun tools =>
      { s with tools := tools }.own owner (.tool tool.name)))
  | .beginDeploy source removed swept =>
      if trimSpace source = [] then none
      else if source ∈ s.deployments then s.teardownLocked source removed swept else some s
  | .tracked source => some { s with deployments := insert source s.deployments }
  | .teardownFile source removed swept => s.teardownFile source removed swept
  | .teardown source removed swept => s.teardownLocked source removed swept
  | .removeResource visit type id swept => some (s.removeResource visit type id swept)

end Resources

def Cleanup.key : Cleanup → GoString
  | .toolsUnregister name => Runtime.key (lit "tool") name
  | .agentsUnregister name => Runtime.key (lit "agent") name
  | .unsubscribe id => Runtime.key (lit "subscription") id
  | .unschedule id => Runtime.key (lit "schedule") id

theorem lookup_eraseAll {α : Type} (keys : List GoString) (table : Table α) (key : GoString) :
    (eraseAll keys table).lookup key = if key ∈ keys then none else table.lookup key := by
  unfold eraseAll
  induction keys generalizing table with
  | nil => rfl
  | cons first rest ih =>
      rw [List.foldl_cons, ih]
      by_cases here : key = first
      · rw [here, AList.lookup_erase, ite_self, if_pos List.mem_cons_self]
      · rw [AList.lookup_erase_ne here]
        simp only [List.mem_cons, here, false_or]

namespace Resources

variable {s next : Resources} {callerID caller : GoString}

structure Kept (s next : Resources) : Prop where
  refs : next.refs = s.refs
  cleanups : next.cleanups = s.cleanups
  entries : next.entries = s.entries
  owner : next.owner = s.owner

theorem kept_self : Kept s s := ⟨rfl, rfl, rfl, rfl⟩

theorem kept_trans {middle : Resources} (first : Kept s middle) (second : Kept middle next) : Kept s next :=
  ⟨second.refs.trans first.refs, second.cleanups.trans first.cleanups, second.entries.trans first.entries,
    second.owner.trans first.owner⟩

theorem runCleanup_kept (visit : Visit) (cleanup : Cleanup) : Kept s (s.runCleanup visit cleanup) := by
  cases cleanup with
  | toolsUnregister name =>
      simp only [runCleanup, toolsUnregister]
      split <;> exact ⟨rfl, rfl, rfl, rfl⟩
  | agentsUnregister name => exact ⟨rfl, rfl, rfl, rfl⟩
  | unsubscribe id => exact ⟨rfl, rfl, rfl, rfl⟩
  | unschedule id =>
      simp only [runCleanup]
      split <;> exact ⟨rfl, rfl, rfl, rfl⟩

theorem dispatchCleanup_kept (entry : Entry) (visit : Visit) : Kept s (s.dispatchCleanup entry visit) := by
  unfold dispatchCleanup
  split
  · exact runCleanup_kept visit (.toolsUnregister entry.id)
  split
  · exact ⟨rfl, rfl, rfl, rfl⟩
  split
  · exact ⟨rfl, rfl, rfl, rfl⟩
  split
  · exact runCleanup_kept visit _
  · exact kept_self

theorem dispatchCleanups_kept (removed : List (Entry × Visit)) : Kept s (s.dispatchCleanups removed) := by
  unfold dispatchCleanups
  induction removed generalizing s with
  | nil => exact kept_self
  | cons entry rest ih => exact kept_trans (dispatchCleanup_kept entry.1 entry.2) ih

structure Stable (P : Resources → Prop) : Prop where
  frame {s next : Resources} : P s → next.refs = s.refs → next.cleanups = s.cleanups → next.entries = s.entries → P next
  register {s : Resources} (caller current type id name : GoString) (cleanup : Option Cleanup) (source : GoString) :
    P s → (∀ c, cleanup = some c → key type id = c.key) → P (s.register caller current type id name cleanup source)

variable {P : Resources → Prop}

theorem Stable.orSame (holds : P s) {result : Except GoString Resources} (kept : ∀ next, result = .ok next → P next) :
    P (s.orSame result) := by
  cases result with
  | error err => exact holds
  | ok next => exact kept next rfl

theorem Stable.kept (stable : Stable P) (holds : P s) (kept : Kept s next) : P next :=
  stable.frame holds kept.refs kept.cleanups kept.entries

theorem Stable.registerFor (stable : Stable P) (holds : P s) {base : Resources} (refs : base.refs = s.refs)
    (cleanups : base.cleanups = s.cleanups) (entries : base.entries = s.entries) (current name source : GoString)
    {type id : GoString} {cleanup : Cleanup} (filed : key type id = cleanup.key) :
    P (base.register caller current type id name (some cleanup) source) := by
  refine stable.register caller current type id name _ source (stable.frame holds refs cleanups entries) ?_
  intro c same
  cases same
  exact filed

theorem Stable.kitRegister (stable : Stable P) (holds : P s) (current type name : GoString) (executor : Nat)
    (done : s.kitRegister callerID current type name executor = .ok next) : P next := by
  unfold Resources.kitRegister at done
  split at done
  · cases done
  split at done
  · cases done
  split at done
  · cases done
    exact holds
  split at done
  · next isTool =>
      split at done
      · next place =>
          cases done
          unfold toolsRegister at place
          split at place
          · cases place
            exact stable.registerFor holds (by rfl) (by rfl) (by rfl) current name [] (by rw [isTool]; rfl)
          · cases place
      · cases done
  split at done
  · next isAgent =>
      cases done
      exact stable.registerFor holds (by rfl) (by rfl) (by rfl) current name [] (by rw [isAgent]; rfl)
  · cases done
    exact stable.register current current type name name none [] holds nofun

theorem Stable.subscribe (stable : Stable P) (holds : P s) (current id : GoString) : P (s.subscribe caller current id) :=
  stable.registerFor holds (by rfl) (by rfl) (by rfl) current id [] rfl

theorem Stable.on (stable : Stable P) (holds : P s) (source fullTopic localTopic id : GoString)
    (done : s.on source fullTopic localTopic id = .ok next) : P next := by
  unfold Resources.on at done
  split at done
  · cases done
  · cases done
    exact stable.subscribe (stable.register source source (lit "topic") fullTopic localTopic none source holds nofun) source id

theorem Stable.schedule (stable : Stable P) (holds : P s) (source id : GoString) (done : s.schedule source id = .ok next) : P next := by
  unfold Resources.schedule at done
  split at done
  · cases done
    exact stable.registerFor holds (by rfl) (by rfl) (by rfl) source id [] rfl
  · cases done

theorem Stable.hostTool (stable : Stable P) (holds : P s) (owner : GoString) (tool : RegisteredTool)
    (done : (s.tools.register tool).map (fun tools => { s with tools := tools }.own owner (.tool tool.name)) = .ok next) :
    P next := by
  cases registered : s.tools.register tool with
  | error err =>
      rw [registered] at done
      cases done
  | ok tools =>
      rw [registered] at done
      cases done
      exact stable.frame holds rfl rfl rfl

end Resources

end Brainkit.Runtime
