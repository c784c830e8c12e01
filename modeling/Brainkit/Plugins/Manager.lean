import Brainkit.Library.GoText

set_option autoImplicit false

namespace Brainkit.Plugins

open Function (update)
open GoText

-- What the manager decides by. The binary, its arguments and environment and the three timeouts decide nothing here: any
-- timer may fire at any time.
structure PluginConfig where
  name : GoString
  autoRestart : Bool
  maxRestarts : Int
deriving DecidableEq

def pluginDefaults (cfg : PluginConfig) : PluginConfig :=
  if cfg.maxRestarts = 0 then { cfg with maxRestarts := 5 } else cfg

inductive StartPc where
  | idle
  | spawning
  | handshaking
  | ready
  | aborting
  | returned (ok : Bool)
deriving DecidableEq

inductive WatchPc where
  | idle
  | waiting
  | exited
  | spared
  | crashed
  | backoff
  | elapsed
  | unmarked
  | restarting
  | starting (n : Nat)
  | restarted
  | cleared
  | halting
  | stoppingNext (s : Nat)
  | finished
deriving DecidableEq

inductive StopPc where
  | idle
  | holding (p : Nat)
  | waiting (p : Nat)
  | checking (p : Nat)
  | removing (p : Nat)
  | returned
deriving DecidableEq

inductive StopAllPc where
  | idle
  | stopping (rest : List Nat)
  | waiting (s : Nat) (rest : List Nat)
  | returned
deriving DecidableEq

-- alive: the process has been started and has not exited. killed: it has been sent SIGKILL. marked: pc.stopping is set
-- and stopCh closed. latest and automatic are history: the process last put under a name, and the automatic restarts of
-- the name since a process was put there that is none.
structure Manager where
  plugins : GoString → Option Nat
  stopping : Bool
  shutdown : Bool
  created : Nat
  config : Nat → PluginConfig
  restarts : Nat → Nat
  restartedBy : Nat → Option Nat
  call : Nat → StartPc
  alive : Nat → Bool
  killed : Nat → Bool
  marked : Nat → Bool
  watch : Nat → WatchPc
  stops : Nat
  stop : Nat → StopPc
  stopAll : Nat → StopAllPc
  latest : GoString → Option Nat
  automatic : GoString → Nat

def Manager.initial : Manager where
  plugins := fun _ => none
  stopping := false
  shutdown := false
  created := 0
  config := fun _ => ⟨[], false, 0⟩
  restarts := fun _ => 0
  restartedBy := fun _ => none
  call := fun _ => .idle
  alive := fun _ => false
  killed := fun _ => false
  marked := fun _ => false
  watch := fun _ => .idle
  stops := 0
  stop := fun _ => .idle
  stopAll := fun _ => .idle
  latest := fun _ => none
  automatic := fun _ => 0

namespace Manager

def name (m : Manager) (p : Nat) : GoString := (m.config p).name

-- startPlugin up to ensureWSServer, which refuses when the manager is stopping.
def startPlugin (cfg : PluginConfig) (restartCount : Nat) (restarter : Option Nat) (m : Manager) : Manager :=
  { m with
    created := m.created + 1
    config := update m.config m.created cfg
    restarts := update m.restarts m.created restartCount
    restartedBy := update m.restartedBy m.created restarter
    call := update m.call m.created (if m.stopping then .returned false else .spawning) }

def failStart (p : Nat) (m : Manager) : Option Manager :=
  match m.call p with
  | .spawning => some { m with call := update m.call p (.returned false) }
  | _ => none

def spawn (p : Nat) (m : Manager) : Option Manager :=
  match m.call p with
  | .spawning => some { m with call := update m.call p .handshaking, alive := update m.alive p true }
  | _ => none

def ready (p : Nat) (m : Manager) : Option Manager :=
  match m.call p with
  | .handshaking => some { m with call := update m.call p .ready }
  | _ => none

-- No READY line in time, or stdout is closed: cancel kills the process.
def abandon (p : Nat) (m : Manager) : Option Manager :=
  match m.call p with
  | .handshaking => some { m with call := update m.call p (.returned false), killed := update m.killed p true }
  | _ => none

def insert (p : Nat) (m : Manager) : Option Manager :=
  match m.call p with
  | .ready =>
      if m.stopping then some { m with call := update m.call p .aborting }
      else some { m with
        plugins := update m.plugins (m.name p) (some p)
        call := update m.call p (.returned true)
        watch := update m.watch p .waiting
        latest := update m.latest (m.name p) (some p)
        automatic := update m.automatic (m.name p) (if (m.restartedBy p).isSome then m.automatic (m.name p) + 1 else 0) }
  | _ => none

def abort (p : Nat) (m : Manager) : Option Manager :=
  match m.call p with
  | .aborting => some { m with call := update m.call p (.returned false), killed := update m.killed p true }
  | _ => none

def exit (p : Nat) (m : Manager) : Option Manager :=
  if m.alive p then some { m with alive := update m.alive p false } else none

def mayRestart (m : Manager) (p : Nat) : Bool :=
  (m.config p).autoRestart && (m.restarts p + 1 : Int) ≤ (m.config p).maxRestarts

def watchTurn (m : Manager) (p : Nat) : Option WatchPc :=
  match m.watch p with
  | .waiting => if m.alive p then none else some .exited
  | .exited => some (if m.marked p then .finished else .spared)
  | .spared => some (if m.stopping then .finished else .crashed)
  | .crashed => some (if m.mayRestart p then .backoff else .finished)
  | .elapsed => some (if m.marked p then .finished else .unmarked)
  | .unmarked => some (if m.stopping then .finished else .restarting)
  | .starting n => match m.call n with
      | .returned true => some .restarted
      | .returned false => some .finished
      | _ => none
  | .restarted => some (if m.marked p then .halting else .cleared)
  | .cleared => some (if m.stopping then .halting else .finished)
  | .stoppingNext s => if m.stop s = .returned then some .finished else none
  | _ => none

def beginStop (p : Nat) (m : Manager) : Manager :=
  { m with stops := m.stops + 1, stop := update m.stop m.stops (.holding p) }

def watchProcess (p : Nat) (m : Manager) : Option Manager :=
  match m.watch p with
  | .restarting =>
      some { m.startPlugin (m.config p) (m.restarts p + 1) (some p) with watch := update m.watch p (.starting m.created) }
  | .halting => match m.plugins (m.name p) with
      | some next =>
          if next = p then some { m with watch := update m.watch p .finished }
          else some { m.beginStop next with watch := update m.watch p (.stoppingNext m.stops) }
      | none => some { m with watch := update m.watch p .finished }
  | _ => (m.watchTurn p).map fun pc => { m with watch := update m.watch p pc }

-- The select of the backoff: the timer, stopCh, and the kit's shutdown signal.
def elapse (p : Nat) (m : Manager) : Option Manager :=
  match m.watch p with
  | .backoff => some { m with watch := update m.watch p .elapsed }
  | _ => none

def wake (p : Nat) (m : Manager) : Option Manager :=
  if m.watch p = .backoff ∧ (m.marked p ∨ m.shutdown) then some { m with watch := update m.watch p .finished } else none

def lookup (name : GoString) (m : Manager) : Option Manager := (m.plugins name).map fun p => m.beginStop p

def mark (s : Nat) (m : Manager) : Option Manager :=
  match m.stop s with
  | .holding p => some { m with stop := update m.stop s (.waiting p), marked := update m.marked p true }
  | _ => none

def stopDone (s : Nat) (m : Manager) : Option Manager :=
  match m.stop s with
  | .waiting p => if m.watch p = .finished then some { m with stop := update m.stop s (.checking p) } else none
  | _ => none

def stopKill (s : Nat) (m : Manager) : Option Manager :=
  match m.stop s with
  | .waiting p => some { m with stop := update m.stop s (.checking p), killed := update m.killed p true }
  | _ => none

def checkDone (s : Nat) (m : Manager) : Option Manager :=
  match m.stop s with
  | .checking p => some { m with stop := update m.stop s (if m.watch p = .finished then .removing p else .returned) }
  | _ => none

def removePluginIfSame (s : Nat) (m : Manager) : Option Manager :=
  match m.stop s with
  | .removing p => some { m with
      plugins := if m.plugins (m.name p) = some p then update m.plugins (m.name p) none else m.plugins
      stop := update m.stop s .returned }
  | _ => none

def beginStopAll (a : Nat) (m : Manager) : Option Manager :=
  match m.stopAll a with
  | .idle => some { m with
      stopping := true
      stopAll := update m.stopAll a (.stopping ((List.range m.created).filter fun p => m.plugins (m.name p) = some p)) }
  | _ => none

def nextStop (a p : Nat) (m : Manager) : Option Manager :=
  match m.stopAll a with
  | .stopping rest =>
      if p ∈ rest then some { m.beginStop p with stopAll := update m.stopAll a (.waiting m.stops (rest.erase p)) } else none
  | _ => none

def stopReturned (a : Nat) (m : Manager) : Option Manager :=
  match m.stopAll a with
  | .waiting s rest =>
      if m.stop s = .returned then some { m with stopAll := update m.stopAll a (.stopping rest) } else none
  | .stopping [] => some { m with stopAll := update m.stopAll a .returned }
  | _ => none

inductive Action where
  | start (cfg : PluginConfig)
  | failStart (p : Nat)
  | spawn (p : Nat)
  | ready (p : Nat)
  | abandon (p : Nat)
  | insert (p : Nat)
  | abort (p : Nat)
  | exit (p : Nat)
  | watchProcess (p : Nat)
  | elapse (p : Nat)
  | wake (p : Nat)
  | shutdownSignal
  | lookup (name : GoString)
  | mark (s : Nat)
  | stopDone (s : Nat)
  | stopKill (s : Nat)
  | checkDone (s : Nat)
  | removePluginIfSame (s : Nat)
  | beginStopAll (a : Nat)
  | nextStop (a p : Nat)
  | stopReturned (a : Nat)

def step (m : Manager) : Action → Option Manager
  | .start cfg => some (m.startPlugin (pluginDefaults cfg) 0 none)
  | .failStart p => m.failStart p
  | .spawn p => m.spawn p
  | .ready p => m.ready p
  | .abandon p => m.abandon p
  | .insert p => m.insert p
  | .abort p => m.abort p
  | .exit p => m.exit p
  | .watchProcess p => m.watchProcess p
  | .elapse p => m.elapse p
  | .wake p => m.wake p
  | .shutdownSignal => some { m with shutdown := true }
  | .lookup name => m.lookup name
  | .mark s => m.mark s
  | .stopDone s => m.stopDone s
  | .stopKill s => m.stopKill s
  | .checkDone s => m.checkDone s
  | .removePluginIfSame s => m.removePluginIfSame s
  | .beginStopAll a => m.beginStopAll a
  | .nextStop a p => m.nextStop a p
  | .stopReturned a => m.stopReturned a

inductive Moves (m : Manager) : Action → Manager → Prop where
  | start (cfg : PluginConfig) : Moves m (.start cfg) (m.startPlugin (pluginDefaults cfg) 0 none)
  | failStart (p : Nat) (here : m.call p = .spawning) :
      Moves m (.failStart p) { m with call := update m.call p (.returned false) }
  | spawn (p : Nat) (here : m.call p = .spawning) :
      Moves m (.spawn p) { m with call := update m.call p .handshaking, alive := update m.alive p true }
  | ready (p : Nat) (here : m.call p = .handshaking) : Moves m (.ready p) { m with call := update m.call p .ready }
  | abandon (p : Nat) (here : m.call p = .handshaking) :
      Moves m (.abandon p) { m with call := update m.call p (.returned false), killed := update m.killed p true }
  | refuse (p : Nat) (here : m.call p = .ready) (stopping : m.stopping = true) :
      Moves m (.insert p) { m with call := update m.call p .aborting }
  | insert (p : Nat) (here : m.call p = .ready) (stopping : m.stopping = false) : Moves m (.insert p)
      { m with
        plugins := update m.plugins (m.name p) (some p)
        call := update m.call p (.returned true)
        watch := update m.watch p .waiting
        latest := update m.latest (m.name p) (some p)
        automatic := update m.automatic (m.name p) (if (m.restartedBy p).isSome then m.automatic (m.name p) + 1 else 0) }
  | abort (p : Nat) (here : m.call p = .aborting) :
      Moves m (.abort p) { m with call := update m.call p (.returned false), killed := update m.killed p true }
  | exit (p : Nat) (alive : m.alive p = true) : Moves m (.exit p) { m with alive := update m.alive p false }
  | turn (p : Nat) (pc : WatchPc) (turn : m.watchTurn p = some pc) :
      Moves m (.watchProcess p) { m with watch := update m.watch p pc }
  | restart (p : Nat) (here : m.watch p = .restarting) : Moves m (.watchProcess p)
      { m.startPlugin (m.config p) (m.restarts p + 1) (some p) with watch := update m.watch p (.starting m.created) }
  | halt (p next : Nat) (here : m.watch p = .halting) (listed : m.plugins (m.name p) = some next) (other : next ≠ p) :
      Moves m (.watchProcess p) { m.beginStop next with watch := update m.watch p (.stoppingNext m.stops) }
  | halted (p : Nat) (here : m.watch p = .halting) :
      Moves m (.watchProcess p) { m with watch := update m.watch p .finished }
  | elapse (p : Nat) (here : m.watch p = .backoff) : Moves m (.elapse p) { m with watch := update m.watch p .elapsed }
  | wake (p : Nat) (here : m.watch p = .backoff) : Moves m (.wake p) { m with watch := update m.watch p .finished }
  | shutdownSignal : Moves m .shutdownSignal { m with shutdown := true }
  | lookup (name : GoString) (p : Nat) (listed : m.plugins name = some p) : Moves m (.lookup name) (m.beginStop p)
  | mark (s p : Nat) (here : m.stop s = .holding p) :
      Moves m (.mark s) { m with stop := update m.stop s (.waiting p), marked := update m.marked p true }
  | stopDone (s p : Nat) (here : m.stop s = .waiting p) (finished : m.watch p = .finished) :
      Moves m (.stopDone s) { m with stop := update m.stop s (.checking p) }
  | stopKill (s p : Nat) (here : m.stop s = .waiting p) :
      Moves m (.stopKill s) { m with stop := update m.stop s (.checking p), killed := update m.killed p true }
  | seenDone (s p : Nat) (here : m.stop s = .checking p) (finished : m.watch p = .finished) :
      Moves m (.checkDone s) { m with stop := update m.stop s (.removing p) }
  | givenUp (s p : Nat) (here : m.stop s = .checking p) (busy : m.watch p ≠ .finished) :
      Moves m (.checkDone s) { m with stop := update m.stop s .returned }
  | remove (s p : Nat) (here : m.stop s = .removing p) (same : m.plugins (m.name p) = some p) :
      Moves m (.removePluginIfSame s)
      { m with plugins := update m.plugins (m.name p) none, stop := update m.stop s .returned }
  | keep (s p : Nat) (here : m.stop s = .removing p) (other : m.plugins (m.name p) ≠ some p) :
      Moves m (.removePluginIfSame s) { m with stop := update m.stop s .returned }
  | beginStopAll (a : Nat) (here : m.stopAll a = .idle) : Moves m (.beginStopAll a)
      { m with
        stopping := true
        stopAll := update m.stopAll a (.stopping ((List.range m.created).filter fun p => m.plugins (m.name p) = some p)) }
  | nextStop (a p : Nat) (rest : List Nat) (here : m.stopAll a = .stopping rest) (member : p ∈ rest) :
      Moves m (.nextStop a p) { m.beginStop p with stopAll := update m.stopAll a (.waiting m.stops (rest.erase p)) }
  | stopReturned (a s : Nat) (rest : List Nat) (here : m.stopAll a = .waiting s rest) (returned : m.stop s = .returned) :
      Moves m (.stopReturned a) { m with stopAll := update m.stopAll a (.stopping rest) }
  | allStopped (a : Nat) (here : m.stopAll a = .stopping []) :
      Moves m (.stopReturned a) { m with stopAll := update m.stopAll a .returned }

theorem moves_of_watch (m : Manager) (p : Nat) (next : Manager) (taken : m.watchProcess p = some next) :
    Moves m (.watchProcess p) next := by
  unfold watchProcess at taken
  split at taken
  next here =>
    cases taken
    exact .restart p here
  next here =>
    split at taken
    next found listed =>
      split at taken <;> cases taken
      next => exact .halted p here
      next other => exact .halt p found here listed other
    next =>
      cases taken
      exact .halted p here
  next =>
    obtain ⟨pc, turn, rfl⟩ := Option.map_eq_some_iff.mp taken
    exact .turn p pc turn

theorem moves_of_insert (m : Manager) (p : Nat) (next : Manager) (taken : m.insert p = some next) :
    Moves m (.insert p) next := by
  unfold insert at taken
  split at taken
  next here =>
    split at taken <;> cases taken
    next stopping => exact .refuse p here stopping
    next running => exact .insert p here (by simpa using running)
  next => cases taken

theorem moves_of_remove (m : Manager) (s : Nat) (next : Manager) (taken : m.removePluginIfSame s = some next) :
    Moves m (.removePluginIfSame s) next := by
  unfold removePluginIfSame at taken
  split at taken
  next p here =>
    cases taken
    by_cases same : m.plugins (m.name p) = some p
    · simpa only [if_pos same] using Moves.remove s p here same
    · simpa only [if_neg same] using Moves.keep s p here same
  next => cases taken

theorem moves_of_check (m : Manager) (s : Nat) (next : Manager) (taken : m.checkDone s = some next) :
    Moves m (.checkDone s) next := by
  unfold checkDone at taken
  split at taken
  next p here =>
    cases taken
    by_cases finished : m.watch p = .finished
    · simpa only [if_pos finished] using Moves.seenDone s p here finished
    · simpa only [if_neg finished] using Moves.givenUp s p here finished
  next => cases taken

theorem moves_of_step (m : Manager) (action : Action) (next : Manager) (taken : step m action = some next) :
    Moves m action next := by
  cases action with
  | start cfg =>
      cases taken
      exact .start cfg
  | failStart p =>
      simp only [step, failStart] at taken
      split at taken <;> cases taken
      next here => exact .failStart p here
  | spawn p =>
      simp only [step, spawn] at taken
      split at taken <;> cases taken
      next here => exact .spawn p here
  | ready p =>
      simp only [step, ready] at taken
      split at taken <;> cases taken
      next here => exact .ready p here
  | abandon p =>
      simp only [step, abandon] at taken
      split at taken <;> cases taken
      next here => exact .abandon p here
  | insert p => exact moves_of_insert m p next taken
  | abort p =>
      simp only [step, abort] at taken
      split at taken <;> cases taken
      next here => exact .abort p here
  | exit p =>
      simp only [step, exit] at taken
      split at taken <;> cases taken
      next alive => exact .exit p alive
  | watchProcess p => exact moves_of_watch m p next taken
  | elapse p =>
      simp only [step, elapse] at taken
      split at taken <;> cases taken
      next here => exact .elapse p here
  | wake p =>
      simp only [step, wake] at taken
      split at taken <;> cases taken
      next ready => exact .wake p ready.1
  | shutdownSignal =>
      cases taken
      exact .shutdownSignal
  | lookup name =>
      obtain ⟨p, listed, rfl⟩ := Option.map_eq_some_iff.mp taken
      exact .lookup name p listed
  | mark s =>
      simp only [step, mark] at taken
      split at taken <;> cases taken
      next p here => exact .mark s p here
  | stopDone s =>
      simp only [step, stopDone] at taken
      split at taken
      next p here =>
        split at taken <;> cases taken
        next finished => exact .stopDone s p here finished
      next => cases taken
  | stopKill s =>
      simp only [step, stopKill] at taken
      split at taken <;> cases taken
      next p here => exact .stopKill s p here
  | checkDone s => exact moves_of_check m s next taken
  | removePluginIfSame s => exact moves_of_remove m s next taken
  | beginStopAll a =>
      simp only [step, beginStopAll] at taken
      split at taken <;> cases taken
      next here => exact .beginStopAll a here
  | nextStop a p =>
      simp only [step, nextStop] at taken
      split at taken
      next rest here =>
        split at taken <;> cases taken
        next member => exact .nextStop a p rest here member
      next => cases taken
  | stopReturned a =>
      simp only [step, stopReturned] at taken
      split at taken
      next s rest here =>
        split at taken <;> cases taken
        next returned => exact .stopReturned a s rest here returned
      next here =>
        cases taken
        exact .allStopped a here
      next => cases taken

end Manager

end Brainkit.Plugins
