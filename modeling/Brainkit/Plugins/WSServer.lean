import Brainkit.Library.GoText
import Brainkit.Library.Ledger

set_option autoImplicit false

namespace Brainkit.Plugins

open Function (update)
open GoText

structure Manifest where
  owner : GoString
  name : GoString
  version : GoString
  tools : List GoString

def composeName (owner pkg version tool : GoString) : GoString :=
  owner ++ lit "/" ++ pkg ++ lit "@" ++ version ++ lit "/" ++ tool

def Manifest.fullNames (manifest : Manifest) : List GoString :=
  manifest.tools.map (composeName manifest.owner manifest.name manifest.version)

theorem compose_name_ne_nil (owner pkg version tool : GoString) : composeName owner pkg version tool ≠ [] := by
  intro empty
  have length := congrArg List.length empty
  simp only [composeName, List.length_append, List.length_nil] at length
  have slash : (lit "/").length = 1 := by decide
  omega

-- A map from names to positive counts is the multiset of its names. An entry of one that is deleted and an entry that is
-- decremented both lose one copy, and a plugin without entries has the empty multiset.
structure ToolRefs where
  toolRefs : Multiset GoString
  pluginToolRefs : GoString → Multiset GoString

namespace ToolRefs

def increment (plugin name : GoString) (refs : ToolRefs) : ToolRefs where
  toolRefs := refs.toolRefs + {name}
  pluginToolRefs := update refs.pluginToolRefs plugin (refs.pluginToolRefs plugin + {name})

def decrement (plugin name : GoString) (refs : ToolRefs) : ToolRefs where
  toolRefs := refs.toolRefs.erase name
  pluginToolRefs := update refs.pluginToolRefs plugin ((refs.pluginToolRefs plugin).erase name)

def decrementAll (plugin : GoString) : List GoString → ToolRefs → ToolRefs × List GoString
  | [], refs => (refs, [])
  | name :: rest, refs =>
      let after := decrementAll plugin rest (refs.decrement plugin name)
      (after.1, if refs.toolRefs.count name ≤ 1 then name :: after.2 else after.2)

def decrementPluginToolRefs (plugin : GoString) (names : List GoString) (refs : ToolRefs) : ToolRefs × List GoString :=
  if refs.toolRefs = 0 then (refs, []) else decrementAll plugin names refs

theorem decrement_all_refs (plugin : GoString) (names : List GoString) (refs : ToolRefs) :
    (decrementAll plugin names refs).1.toolRefs = refs.toolRefs - (names : Multiset GoString) := by
  induction names generalizing refs with
  | nil => exact (tsub_zero refs.toolRefs).symm
  | cons name rest ih =>
      have after := ih (refs.decrement plugin name)
      rw [decrementAll, after, decrement, ← Multiset.sub_singleton, tsub_tsub, ← Multiset.cons_coe, ← Multiset.singleton_add]

theorem decrement_all_removes (plugin : GoString) (names : List GoString) (refs : ToolRefs) (name : GoString)
    (held : name ∈ refs.toolRefs) (dropped : name ∉ (decrementAll plugin names refs).1.toolRefs) :
    name ∈ (decrementAll plugin names refs).2 := by
  induction names generalizing refs with
  | nil => exact absurd held dropped
  | cons first rest ih =>
      rw [decrementAll] at dropped ⊢
      by_cases still : name ∈ (refs.decrement plugin first).toolRefs
      · have later := ih (refs.decrement plugin first) still dropped
        dsimp only
        split
        next => exact List.mem_cons_of_mem _ later
        next => exact later
      · have same : name = first := by
          by_contra other
          exact still ((Multiset.mem_erase_of_ne other).mpr held)
        subst same
        have last : refs.toolRefs.count name ≤ 1 := by
          have none := Multiset.count_eq_zero.mpr still
          rw [decrement, Multiset.count_erase_self] at none
          omega
        dsimp only
        rw [if_pos last]
        exact List.mem_cons_self

theorem decrement_refs (plugin : GoString) (names : List GoString) (refs : ToolRefs) :
    (refs.decrementPluginToolRefs plugin names).1.toolRefs = refs.toolRefs - (names : Multiset GoString) := by
  rw [decrementPluginToolRefs]
  split
  next empty => rw [empty, zero_tsub]
  next => exact decrement_all_refs plugin names refs

theorem decrement_removes (plugin : GoString) (names : List GoString) (refs : ToolRefs) (name : GoString)
    (held : name ∈ refs.toolRefs) (dropped : name ∉ (refs.decrementPluginToolRefs plugin names).1.toolRefs) :
    name ∈ (refs.decrementPluginToolRefs plugin names).2 := by
  rw [decrementPluginToolRefs] at dropped ⊢
  split at dropped
  next => exact absurd held dropped
  next nonempty =>
    rw [if_neg nonempty]
    exact decrement_all_removes plugin names refs name held dropped

end ToolRefs

-- handleConnection on a connection, from its manifest on. replacing and cleaning are inside cleanupConnection on the
-- connection it replaced, before and after CloseNow; leaving is inside cleanupConnection on itself.
inductive HandlerPc where
  | idle
  | registering (rest : List GoString)
  | counting (name : GoString) (rest : List GoString)
  | replacing (previous : Nat)
  | cleaning (previous : Nat)
  | greeting
  | reading
  | leaving
  | removing
  | returned
deriving DecidableEq

-- Who calls unregisterPluginToolNames: the cleanup of a connection, inside its closeOnce, and StopPlugin or RestartPlugin.
inductive Caller where
  | cleanup (c : Nat)
  | stop (s : Nat)
deriving DecidableEq

inductive CallPc where
  | idle
  | stopping (plugin : GoString)
  | taken (plugin : GoString) (names : List GoString)
  | removing (rest : List GoString)
  | returned
deriving DecidableEq

-- tools: the connection whose executor is in the ToolRegistry under the name. closed: the websocket is closed, by
-- CloseNow, by the other side or by a read error. connTools: the tools of the pluginWSConn. A connection's cleanup call is
-- idle until its closeOnce is entered, which also sets its closed.
structure WSServer where
  tools : GoString → Option Nat
  refs : ToolRefs
  conns : GoString → Option Nat
  accepted : Nat
  manifest : Nat → Manifest
  handler : Nat → HandlerPc
  closed : Nat → Bool
  connTools : Nat → List GoString
  stops : Nat
  call : Caller → CallPc

namespace WSServer

def initial : WSServer where
  tools := fun _ => none
  refs := ⟨0, fun _ => 0⟩
  conns := fun _ => none
  accepted := 0
  manifest := fun _ => ⟨[], [], [], []⟩
  handler := fun _ => .idle
  closed := fun _ => false
  connTools := fun _ => []
  stops := 0
  call := fun _ => .idle

def plugin (m : WSServer) (c : Nat) : GoString := (m.manifest c).name

def announced (m : WSServer) (c : Nat) : List GoString := (m.manifest c).fullNames

def accept (manifest : Manifest) (m : WSServer) : WSServer :=
  { m with
    accepted := m.accepted + 1
    manifest := update m.manifest m.accepted manifest
    handler := update m.handler m.accepted (.registering manifest.fullNames) }

-- registerPluginTool: Register under the registry's lock, then the counts under toolMu.
def registerTool (c : Nat) (m : WSServer) : Option WSServer :=
  match m.handler c with
  | .registering (name :: rest) => some { m with
      tools := update m.tools name (some c)
      handler := update m.handler c (.counting name rest) }
  | _ => none

def countTool (c : Nat) (m : WSServer) : Option WSServer :=
  match m.handler c with
  | .counting name rest => some { m with
      refs := m.refs.increment (m.plugin c) name
      connTools := update m.connTools c (m.connTools c ++ [name])
      handler := update m.handler c (.registering rest) }
  | _ => none

def putConn (c : Nat) (m : WSServer) : Option WSServer :=
  match m.handler c with
  | .registering [] => some { m with
      conns := update m.conns (m.plugin c) (some c)
      handler := update m.handler c (match m.conns (m.plugin c) with
        | some previous => .replacing previous
        | none => .greeting) }
  | _ => none

def closePrevious (c : Nat) (m : WSServer) : Option WSServer :=
  match m.handler c with
  | .replacing previous => some { m with
      closed := update m.closed previous true
      handler := update m.handler c (.cleaning previous) }
  | _ => none

-- The first to enter closeOnce takes the tools; the others wait until it is through.
def takeTools (c : Nat) (m : WSServer) : Option WSServer :=
  if m.call (.cleanup c) = .idle then some { m with
    call := update m.call (.cleanup c) (.taken (m.plugin c) (m.connTools c))
    connTools := update m.connTools c [] }
  else none

def cleanup (c : Nat) (m : WSServer) : Option WSServer :=
  match m.handler c with
  | .cleaning previous => m.takeTools previous
  | .leaving => m.takeTools c
  | _ => none

def cleanedUp (c : Nat) (m : WSServer) : Option WSServer :=
  match m.handler c with
  | .cleaning previous =>
      if m.call (.cleanup previous) = .returned then some { m with handler := update m.handler c .greeting } else none
  | .leaving =>
      if m.call (.cleanup c) = .returned then some { m with handler := update m.handler c .removing } else none
  | _ => none

def removeConn (c : Nat) (m : WSServer) : Option WSServer :=
  match m.handler c with
  | .removing => some { m with
      conns := if m.conns (m.plugin c) = some c then update m.conns (m.plugin c) none else m.conns
      handler := update m.handler c .returned }
  | _ => none

def startReading (c : Nat) (m : WSServer) : Option WSServer :=
  match m.handler c with
  | .greeting => some { m with
      handler := update m.handler c (if m.call (.cleanup c) = .idle then .reading else .returned) }
  | _ => none

def readFailed (c : Nat) (m : WSServer) : Option WSServer :=
  match m.handler c with
  | .reading => if m.closed c then some { m with handler := update m.handler c .leaving } else none
  | _ => none

def disconnect (c : Nat) (m : WSServer) : Option WSServer :=
  if c < m.accepted then some { m with closed := update m.closed c true } else none

-- StopPlugin and RestartPlugin, from stopPlugin on. The plugin's process ends in it, which closes its websocket as any other
-- end of it does.
def stopPlugin (plugin : GoString) (m : WSServer) : WSServer :=
  { m with stops := m.stops + 1, call := update m.call (.stop m.stops) (.stopping plugin) }

def stopFailed (s : Nat) (m : WSServer) : Option WSServer :=
  match m.call (.stop s) with
  | .stopping _ => some { m with call := update m.call (.stop s) .returned }
  | _ => none

def listPluginRefs (s : Nat) (names : List GoString) (m : WSServer) : Option WSServer :=
  match m.call (.stop s) with
  | .stopping plugin =>
      if (names : Multiset GoString) = m.refs.pluginToolRefs plugin then
        some { m with call := update m.call (.stop s) (.taken plugin names) }
      else none
  | _ => none

-- unregisterPluginToolNames: the references under toolMu, then Unregister for each name whose last reference went.
def decrement (k : Caller) (m : WSServer) : Option WSServer :=
  match m.call k with
  | .taken plugin names => some { m with
      refs := (m.refs.decrementPluginToolRefs plugin names).1
      call := update m.call k (.removing (m.refs.decrementPluginToolRefs plugin names).2) }
  | _ => none

def unregister (k : Caller) (m : WSServer) : Option WSServer :=
  match m.call k with
  | .removing (name :: rest) => some { m with
      tools := update m.tools name none
      call := update m.call k (.removing rest) }
  | .removing [] => some { m with call := update m.call k .returned }
  | _ => none

inductive Action where
  | accept (manifest : Manifest)
  | registerTool (c : Nat)
  | countTool (c : Nat)
  | putConn (c : Nat)
  | closePrevious (c : Nat)
  | cleanup (c : Nat)
  | cleanedUp (c : Nat)
  | removeConn (c : Nat)
  | startReading (c : Nat)
  | readFailed (c : Nat)
  | disconnect (c : Nat)
  | stopPlugin (plugin : GoString)
  | stopFailed (s : Nat)
  | listPluginRefs (s : Nat) (names : List GoString)
  | decrement (k : Caller)
  | unregister (k : Caller)

def step (m : WSServer) : Action → Option WSServer
  | .accept manifest => some (m.accept manifest)
  | .registerTool c => m.registerTool c
  | .countTool c => m.countTool c
  | .putConn c => m.putConn c
  | .closePrevious c => m.closePrevious c
  | .cleanup c => m.cleanup c
  | .cleanedUp c => m.cleanedUp c
  | .removeConn c => m.removeConn c
  | .startReading c => m.startReading c
  | .readFailed c => m.readFailed c
  | .disconnect c => m.disconnect c
  | .stopPlugin plugin => some (m.stopPlugin plugin)
  | .stopFailed s => m.stopFailed s
  | .listPluginRefs s names => m.listPluginRefs s names
  | .decrement k => m.decrement k
  | .unregister k => m.unregister k

inductive Moves (m : WSServer) : Action → WSServer → Prop where
  | accept (manifest : Manifest) : Moves m (.accept manifest) (m.accept manifest)
  | registerTool (c : Nat) (name : GoString) (rest : List GoString) (here : m.handler c = .registering (name :: rest)) :
      Moves m (.registerTool c)
      { m with tools := update m.tools name (some c), handler := update m.handler c (.counting name rest) }
  | countTool (c : Nat) (name : GoString) (rest : List GoString) (here : m.handler c = .counting name rest) :
      Moves m (.countTool c)
      { m with
        refs := m.refs.increment (m.plugin c) name
        connTools := update m.connTools c (m.connTools c ++ [name])
        handler := update m.handler c (.registering rest) }
  | replaceConn (c previous : Nat) (here : m.handler c = .registering []) (listed : m.conns (m.plugin c) = some previous) :
      Moves m (.putConn c)
      { m with
        conns := update m.conns (m.plugin c) (some c)
        handler := update m.handler c (.replacing previous) }
  | newConn (c : Nat) (here : m.handler c = .registering []) (free : m.conns (m.plugin c) = none) : Moves m (.putConn c)
      { m with conns := update m.conns (m.plugin c) (some c), handler := update m.handler c .greeting }
  | closePrevious (c previous : Nat) (here : m.handler c = .replacing previous) : Moves m (.closePrevious c)
      { m with closed := update m.closed previous true, handler := update m.handler c (.cleaning previous) }
  | cleanup (c p : Nat) (here : m.handler c = .cleaning p ∨ m.handler c = .leaving ∧ p = c)
      (first : m.call (.cleanup p) = .idle) : Moves m (.cleanup c)
      { m with
        call := update m.call (.cleanup p) (.taken (m.plugin p) (m.connTools p))
        connTools := update m.connTools p [] }
  | cleanedPrevious (c previous : Nat) (here : m.handler c = .cleaning previous)
      (through : m.call (.cleanup previous) = .returned) :
      Moves m (.cleanedUp c) { m with handler := update m.handler c .greeting }
  | cleanedOwn (c : Nat) (here : m.handler c = .leaving) (through : m.call (.cleanup c) = .returned) :
      Moves m (.cleanedUp c) { m with handler := update m.handler c .removing }
  | removeConn (c : Nat) (here : m.handler c = .removing) (same : m.conns (m.plugin c) = some c) : Moves m (.removeConn c)
      { m with conns := update m.conns (m.plugin c) none, handler := update m.handler c .returned }
  | keepConn (c : Nat) (here : m.handler c = .removing) (other : m.conns (m.plugin c) ≠ some c) :
      Moves m (.removeConn c) { m with handler := update m.handler c .returned }
  | startReading (c : Nat) (here : m.handler c = .greeting) (kept : m.call (.cleanup c) = .idle) :
      Moves m (.startReading c) { m with handler := update m.handler c .reading }
  | startClosed (c : Nat) (here : m.handler c = .greeting) (entered : m.call (.cleanup c) ≠ .idle) :
      Moves m (.startReading c) { m with handler := update m.handler c .returned }
  | readFailed (c : Nat) (here : m.handler c = .reading) (closed : m.closed c = true) :
      Moves m (.readFailed c) { m with handler := update m.handler c .leaving }
  | disconnect (c : Nat) (known : c < m.accepted) : Moves m (.disconnect c) { m with closed := update m.closed c true }
  | stopPlugin (plugin : GoString) : Moves m (.stopPlugin plugin) (m.stopPlugin plugin)
  | stopFailed (s : Nat) (plugin : GoString) (here : m.call (.stop s) = .stopping plugin) :
      Moves m (.stopFailed s) { m with call := update m.call (.stop s) .returned }
  | listPluginRefs (s : Nat) (plugin : GoString) (names : List GoString) (here : m.call (.stop s) = .stopping plugin) :
      Moves m (.listPluginRefs s names) { m with call := update m.call (.stop s) (.taken plugin names) }
  | decrement (k : Caller) (plugin : GoString) (names : List GoString) (here : m.call k = .taken plugin names) :
      Moves m (.decrement k)
      { m with
        refs := (m.refs.decrementPluginToolRefs plugin names).1
        call := update m.call k (.removing (m.refs.decrementPluginToolRefs plugin names).2) }
  | unregister (k : Caller) (name : GoString) (rest : List GoString) (here : m.call k = .removing (name :: rest)) :
      Moves m (.unregister k)
      { m with tools := update m.tools name none, call := update m.call k (.removing rest) }
  | unregistered (k : Caller) (here : m.call k = .removing []) :
      Moves m (.unregister k) { m with call := update m.call k .returned }

theorem moves_of_put (m : WSServer) (c : Nat) (next : WSServer) (taken : m.putConn c = some next) :
    Moves m (.putConn c) next := by
  unfold putConn at taken
  split at taken <;> cases taken
  next here =>
    cases listed : m.conns (m.plugin c) with
    | none => exact .newConn c here listed
    | some previous => exact .replaceConn c previous here listed

theorem moves_of_cleanup (m : WSServer) (c : Nat) (next : WSServer) (taken : m.cleanup c = some next) :
    Moves m (.cleanup c) next := by
  unfold cleanup takeTools at taken
  split at taken
  next p here =>
    split at taken <;> cases taken
    next first => exact .cleanup c p (.inl here) first
  next here =>
    split at taken <;> cases taken
    next first => exact .cleanup c c (.inr ⟨here, rfl⟩) first
  next => cases taken

theorem moves_of_cleaned (m : WSServer) (c : Nat) (next : WSServer) (taken : m.cleanedUp c = some next) :
    Moves m (.cleanedUp c) next := by
  unfold cleanedUp at taken
  split at taken
  next p here =>
    split at taken <;> cases taken
    next through => exact .cleanedPrevious c p here through
  next here =>
    split at taken <;> cases taken
    next through => exact .cleanedOwn c here through
  next => cases taken

theorem moves_of_remove_conn (m : WSServer) (c : Nat) (next : WSServer) (taken : m.removeConn c = some next) :
    Moves m (.removeConn c) next := by
  unfold removeConn at taken
  split at taken <;> cases taken
  next here =>
    by_cases same : m.conns (m.plugin c) = some c
    · simpa only [if_pos same] using Moves.removeConn c here same
    · simpa only [if_neg same] using Moves.keepConn c here same

theorem moves_of_start (m : WSServer) (c : Nat) (next : WSServer) (taken : m.startReading c = some next) :
    Moves m (.startReading c) next := by
  unfold startReading at taken
  split at taken <;> cases taken
  next here =>
    by_cases kept : m.call (.cleanup c) = .idle
    · simpa only [if_pos kept] using Moves.startReading c here kept
    · simpa only [if_neg kept] using Moves.startClosed c here kept

theorem moves_of_step (m : WSServer) (action : Action) (next : WSServer) (taken : step m action = some next) :
    Moves m action next := by
  cases action with
  | accept manifest =>
      cases taken
      exact .accept manifest
  | registerTool c =>
      simp only [step, registerTool] at taken
      split at taken <;> cases taken
      next name rest here => exact .registerTool c name rest here
  | countTool c =>
      simp only [step, countTool] at taken
      split at taken <;> cases taken
      next name rest here => exact .countTool c name rest here
  | putConn c => exact moves_of_put m c next taken
  | closePrevious c =>
      simp only [step, closePrevious] at taken
      split at taken <;> cases taken
      next previous here => exact .closePrevious c previous here
  | cleanup c => exact moves_of_cleanup m c next taken
  | cleanedUp c => exact moves_of_cleaned m c next taken
  | removeConn c => exact moves_of_remove_conn m c next taken
  | startReading c => exact moves_of_start m c next taken
  | readFailed c =>
      simp only [step, readFailed] at taken
      split at taken
      next here =>
        split at taken <;> cases taken
        next closed => exact .readFailed c here closed
      next => cases taken
  | disconnect c =>
      simp only [step, disconnect] at taken
      split at taken <;> cases taken
      next known => exact .disconnect c known
  | stopPlugin plugin =>
      cases taken
      exact .stopPlugin plugin
  | stopFailed s =>
      simp only [step, stopFailed] at taken
      split at taken <;> cases taken
      next plugin here => exact .stopFailed s plugin here
  | listPluginRefs s names =>
      simp only [step, listPluginRefs] at taken
      split at taken
      next plugin here =>
        split at taken <;> cases taken
        next => exact .listPluginRefs s plugin names here
      next => cases taken
  | decrement k =>
      simp only [step, decrement] at taken
      split at taken <;> cases taken
      next plugin names here => exact .decrement k plugin names here
  | unregister k =>
      simp only [step, unregister] at taken
      split at taken <;> cases taken
      next name rest here => exact .unregister k name rest here
      next here => exact .unregistered k here

end WSServer

end Brainkit.Plugins
