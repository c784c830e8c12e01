import Mathlib.Logic.Function.Basic

set_option autoImplicit false

namespace Brainkit.Transport

open Function (update)

-- A call of RegisterCommand. A handler bears the number of the call that adds it.
inductive RegisterPc where
  | idle
  | added
  | starting
  | runHandlers
  | awaiting
  | failing
  | removing
  | returned (ok : Bool)
deriving DecidableEq

-- RunHandlers is called by Run and by the RegisterCommand calls that find the router running.
inductive Caller where
  | run
  | register (x : Nat)
deriving DecidableEq

inductive RunHandlersPc where
  | idle
  | starting (rest toStart : List Nat)
  | awaiting (rest : List Nat)
  | returned (ok : Bool)
deriving DecidableEq

-- A call of Stop on the handle of a handler; wait says whether it found the handler started.
inductive StopPc where
  | idle
  | halting (x : Nat) (wait : Bool)
  | waiting (x : Nat)
  | removing (x : Nat)
  | returned (ok : Bool)
deriving DecidableEq

-- startOnce, stopOnce: the Once of that name has run. cancelled: the context that start made is done. started is none
-- while the channel is open, and then says whether the subscription succeeded.
structure Router where
  handlers : List Nat
  startedHandlers : Nat → Bool
  running : Bool
  runHandlers : Caller → RunHandlersPc
  register : Nat → RegisterPc
  stop : Nat → StopPc
  startOnce : Nat → Bool
  stopOnce : Nat → Bool
  cancelled : Nat → Bool
  started : Nat → Option Bool
  stopped : Nat → Bool

def Router.start : Router where
  handlers := []
  startedHandlers := fun _ => false
  running := false
  runHandlers := fun _ => .idle
  register := fun _ => .idle
  stop := fun _ => .idle
  startOnce := fun _ => false
  stopOnce := fun _ => false
  cancelled := fun _ => false
  started := fun _ => none
  stopped := fun _ => false

namespace Router

-- Stop cancels the context of a handler that has one, and only the first Stop does anything.
def stopHandler (x : Nat) (r : Router) : Router :=
  { r with
    stopOnce := update r.stopOnce x true
    cancelled := update r.cancelled x (if r.stopOnce x then r.cancelled x else r.startOnce x) }

def removeHandler (x : Nat) (r : Router) : Router :=
  { r with handlers := r.handlers.erase x, startedHandlers := update r.startedHandlers x false }

def addConsumerHandler (x : Nat) (r : Router) : Option Router :=
  match r.register x with
  | .idle => some { r with handlers := r.handlers ++ [x], register := update r.register x .added }
  | _ => none

-- The first IsRunning check of RegisterCommand only chooses the handler's name; this is the second.
def checkRunning (x : Nat) (r : Router) : Option Router :=
  match r.register x with
  | .added => some { r with register := update r.register x (if r.running then .starting else .returned true) }
  | _ => none

def calls (r : Router) : Caller → Bool
  | .run => r.runHandlers .run = .idle
  | .register x => r.register x = .starting

def enters (r : Router) : Caller → Nat → RegisterPc
  | .run => r.register
  | .register x => update r.register x .runHandlers

-- The locked section of RunHandlers.
def collect (c : Caller) (r : Router) : Option Router :=
  if r.calls c then
    let toStart := r.handlers.filter fun x => !r.startedHandlers x
    some { r with
      startedHandlers := fun x => r.startedHandlers x || toStart.contains x
      runHandlers := update r.runHandlers c (.starting toStart toStart)
      register := r.enters c }
  else none

-- handler.start for the next collected handler, and then the turn to the second loop.
def startNext (c : Caller) (r : Router) : Option Router :=
  match r.runHandlers c with
  | .starting (x :: rest) toStart => some { r with
      startOnce := update r.startOnce x true
      runHandlers := update r.runHandlers c (.starting rest toStart) }
  | .starting [] toStart => some { r with runHandlers := update r.runHandlers c (.awaiting toStart) }
  | _ => none

def awaitNext (c : Caller) (r : Router) : Option Router :=
  match r.runHandlers c with
  | .awaiting [] => some { r with runHandlers := update r.runHandlers c (.returned true) }
  | .awaiting (x :: rest) => (r.started x).map fun ok =>
      { r with runHandlers := update r.runHandlers c (if ok then .awaiting rest else .returned false) }
  | _ => none

def contextDone (c : Caller) (r : Router) : Option Router :=
  match r.runHandlers c with
  | .awaiting (_ :: _) => some { r with runHandlers := update r.runHandlers c (.returned false) }
  | _ => none

-- Run closes the running channel.
def announce (r : Router) : Option Router :=
  match r.runHandlers .run with
  | .returned true => some { r with running := true }
  | _ => none

def proceed (x : Nat) (r : Router) : Option Router :=
  match r.register x, r.runHandlers (.register x) with
  | .runHandlers, .returned ok => some { r with register := update r.register x (if ok then .awaiting else .failing) }
  | _, _ => none

def awaitOwn (x : Nat) (r : Router) : Option Router :=
  if r.register x = .awaiting ∧ (r.started x).isSome then
    some { r with register := update r.register x (.returned true) }
  else none

def ownContextDone (x : Nat) (r : Router) : Option Router :=
  match r.register x with
  | .awaiting => some { r with register := update r.register x .failing }
  | _ => none

def stopOwn (x : Nat) (r : Router) : Option Router :=
  match r.register x with
  | .failing => some { r.stopHandler x with register := update r.register x .removing }
  | _ => none

def removeOwn (x : Nat) (r : Router) : Option Router :=
  match r.register x with
  | .removing => some { r.removeHandler x with register := update r.register x (.returned false) }
  | _ => none

-- CommandHandle.Stop, possible once RegisterCommand has returned the handle; s numbers the calls.
def beginStop (s x : Nat) (r : Router) : Option Router :=
  if r.stop s = .idle ∧ r.register x = .returned true then
    some { r with stop := update r.stop s (.halting x (r.started x).isSome) }
  else none

def haltStop (s : Nat) (r : Router) : Option Router :=
  match r.stop s with
  | .halting x wait =>
      some { r.stopHandler x with stop := update r.stop s (if wait then .waiting x else .removing x) }
  | _ => none

def awaitStopped (s : Nat) (r : Router) : Option Router :=
  match r.stop s with
  | .waiting x => if r.stopped x then some { r with stop := update r.stop s (.removing x) } else none
  | _ => none

def stopContextDone (s : Nat) (r : Router) : Option Router :=
  match r.stop s with
  | .waiting _ => some { r with stop := update r.stop s (.returned false) }
  | _ => none

def removeStopped (s : Nat) (r : Router) : Option Router :=
  match r.stop s with
  | .removing x => some { r.removeHandler x with stop := update r.stop s (.returned true) }
  | _ => none

-- The goroutine of a handler: Subscribe returns, and later the goroutine exits, because Subscribe failed, because its
-- context is done, or because the subscriber has closed the channel.
def subscribe (x : Nat) (ok : Bool) (r : Router) : Option Router :=
  if r.startOnce x ∧ r.started x = none then some { r with started := update r.started x (some ok) } else none

def exit (x : Nat) (closed : Bool) (r : Router) : Option Router :=
  if r.stopped x = false ∧ (r.started x = some false ∨ r.started x = some true ∧ (r.cancelled x ∨ closed)) then
    some { r with stopped := update r.stopped x true }
  else none

inductive Action where
  | addConsumerHandler (x : Nat)
  | checkRunning (x : Nat)
  | collect (c : Caller)
  | startNext (c : Caller)
  | awaitNext (c : Caller)
  | contextDone (c : Caller)
  | announce
  | proceed (x : Nat)
  | awaitOwn (x : Nat)
  | ownContextDone (x : Nat)
  | stopOwn (x : Nat)
  | removeOwn (x : Nat)
  | beginStop (s x : Nat)
  | haltStop (s : Nat)
  | awaitStopped (s : Nat)
  | stopContextDone (s : Nat)
  | removeStopped (s : Nat)
  | subscribe (x : Nat) (ok : Bool)
  | exit (x : Nat) (closed : Bool)

def step (r : Router) : Action → Option Router
  | .addConsumerHandler x => r.addConsumerHandler x
  | .checkRunning x => r.checkRunning x
  | .collect c => r.collect c
  | .startNext c => r.startNext c
  | .awaitNext c => r.awaitNext c
  | .contextDone c => r.contextDone c
  | .announce => r.announce
  | .proceed x => r.proceed x
  | .awaitOwn x => r.awaitOwn x
  | .ownContextDone x => r.ownContextDone x
  | .stopOwn x => r.stopOwn x
  | .removeOwn x => r.removeOwn x
  | .beginStop s x => r.beginStop s x
  | .haltStop s => r.haltStop s
  | .awaitStopped s => r.awaitStopped s
  | .stopContextDone s => r.stopContextDone s
  | .removeStopped s => r.removeStopped s
  | .subscribe x ok => r.subscribe x ok
  | .exit x closed => r.exit x closed

inductive Moves (r : Router) : Action → Router → Prop where
  | addConsumerHandler (x : Nat) (idle : r.register x = .idle) : Moves r (.addConsumerHandler x)
      { r with handlers := r.handlers ++ [x], register := update r.register x .added }
  | seeRunning (x : Nat) (added : r.register x = .added) (running : r.running = true) :
      Moves r (.checkRunning x) { r with register := update r.register x .starting }
  | seeNotRunning (x : Nat) (added : r.register x = .added) (running : r.running = false) :
      Moves r (.checkRunning x) { r with register := update r.register x (.returned true) }
  | collect (c : Caller) (calls : r.calls c = true) : Moves r (.collect c)
      { r with
        startedHandlers := fun x => r.startedHandlers x || (r.handlers.filter fun y => !r.startedHandlers y).contains x
        runHandlers := update r.runHandlers c
          (.starting (r.handlers.filter fun y => !r.startedHandlers y) (r.handlers.filter fun y => !r.startedHandlers y))
        register := r.enters c }
  | startHandler (c : Caller) (x : Nat) (rest toStart : List Nat) (here : r.runHandlers c = .starting (x :: rest) toStart) :
      Moves r (.startNext c)
      { r with startOnce := update r.startOnce x true, runHandlers := update r.runHandlers c (.starting rest toStart) }
  | allStarted (c : Caller) (toStart : List Nat) (here : r.runHandlers c = .starting [] toStart) :
      Moves r (.startNext c) { r with runHandlers := update r.runHandlers c (.awaiting toStart) }
  | awaitNext (c : Caller) (pc : RunHandlersPc)
      (here : r.runHandlers c = .awaiting [] ∧ pc = .returned true ∨
        ∃ x rest, r.runHandlers c = .awaiting (x :: rest) ∧
          (r.started x = some true ∧ pc = .awaiting rest ∨ r.started x = some false ∧ pc = .returned false)) :
      Moves r (.awaitNext c) { r with runHandlers := update r.runHandlers c pc }
  | contextDone (c : Caller) (x : Nat) (rest : List Nat) (here : r.runHandlers c = .awaiting (x :: rest)) :
      Moves r (.contextDone c) { r with runHandlers := update r.runHandlers c (.returned false) }
  | announce (returned : r.runHandlers .run = .returned true) : Moves r .announce { r with running := true }
  | proceed (x : Nat) (ok : Bool) (here : r.register x = .runHandlers) (returned : r.runHandlers (.register x) = .returned ok) :
      Moves r (.proceed x) { r with register := update r.register x (if ok then .awaiting else .failing) }
  | awaitOwn (x : Nat) (here : r.register x = .awaiting) (started : (r.started x).isSome) :
      Moves r (.awaitOwn x) { r with register := update r.register x (.returned true) }
  | ownContextDone (x : Nat) (here : r.register x = .awaiting) :
      Moves r (.ownContextDone x) { r with register := update r.register x .failing }
  | stopOwn (x : Nat) (here : r.register x = .failing) :
      Moves r (.stopOwn x) { r.stopHandler x with register := update r.register x .removing }
  | removeOwn (x : Nat) (here : r.register x = .removing) :
      Moves r (.removeOwn x) { r.removeHandler x with register := update r.register x (.returned false) }
  | beginStop (s x : Nat) (idle : r.stop s = .idle) (returned : r.register x = .returned true) :
      Moves r (.beginStop s x) { r with stop := update r.stop s (.halting x (r.started x).isSome) }
  | haltStop (s x : Nat) (wait : Bool) (here : r.stop s = .halting x wait) : Moves r (.haltStop s)
      { r.stopHandler x with stop := update r.stop s (if wait then .waiting x else .removing x) }
  | awaitStopped (s x : Nat) (here : r.stop s = .waiting x) (stopped : r.stopped x = true) :
      Moves r (.awaitStopped s) { r with stop := update r.stop s (.removing x) }
  | stopContextDone (s x : Nat) (here : r.stop s = .waiting x) :
      Moves r (.stopContextDone s) { r with stop := update r.stop s (.returned false) }
  | removeStopped (s x : Nat) (here : r.stop s = .removing x) :
      Moves r (.removeStopped s) { r.removeHandler x with stop := update r.stop s (.returned true) }
  | subscribe (x : Nat) (ok : Bool) (launched : r.startOnce x = true) (fresh : r.started x = none) :
      Moves r (.subscribe x ok) { r with started := update r.started x (some ok) }
  | exit (x : Nat) (closed : Bool) (closes : (r.started x).isSome) :
      Moves r (.exit x closed) { r with stopped := update r.stopped x true }

theorem moves_of_step (r : Router) (action : Action) (next : Router) (taken : step r action = some next) :
    Moves r action next := by
  cases action with
  | addConsumerHandler x =>
      simp only [step, addConsumerHandler] at taken
      split at taken <;> cases taken
      next idle => exact .addConsumerHandler x idle
  | checkRunning x =>
      simp only [step, checkRunning] at taken
      split at taken <;> cases taken
      next added =>
        cases running : r.running with
        | true => simpa only [running, ↓reduceIte] using Moves.seeRunning x added running
        | false => simpa only [running, Bool.false_eq_true, ↓reduceIte] using Moves.seeNotRunning x added running
  | collect c =>
      simp only [step, collect] at taken
      split at taken <;> cases taken
      next calls => exact .collect c calls
  | startNext c =>
      simp only [step, startNext] at taken
      split at taken <;> cases taken
      next x rest toStart here => exact .startHandler c x rest toStart here
      next toStart here => exact .allStarted c toStart here
  | awaitNext c =>
      simp only [step, awaitNext] at taken
      split at taken
      next here =>
        cases taken
        exact .awaitNext c _ (.inl ⟨here, rfl⟩)
      next x rest here =>
        obtain ⟨ok, started, rfl⟩ := Option.map_eq_some_iff.mp taken
        cases ok with
        | true => exact .awaitNext c _ (.inr ⟨x, rest, here, .inl ⟨started, rfl⟩⟩)
        | false => exact .awaitNext c _ (.inr ⟨x, rest, here, .inr ⟨started, rfl⟩⟩)
      next => cases taken
  | contextDone c =>
      simp only [step, contextDone] at taken
      split at taken <;> cases taken
      next x rest here => exact .contextDone c x rest here
  | announce =>
      simp only [step, announce] at taken
      split at taken <;> cases taken
      next returned => exact .announce returned
  | proceed x =>
      simp only [step, proceed] at taken
      split at taken <;> cases taken
      next ok here returned => exact .proceed x ok here returned
  | awaitOwn x =>
      simp only [step, awaitOwn] at taken
      split at taken <;> cases taken
      next ready => exact .awaitOwn x ready.1 ready.2
  | ownContextDone x =>
      simp only [step, ownContextDone] at taken
      split at taken <;> cases taken
      next here => exact .ownContextDone x here
  | stopOwn x =>
      simp only [step, stopOwn] at taken
      split at taken <;> cases taken
      next here => exact .stopOwn x here
  | removeOwn x =>
      simp only [step, removeOwn] at taken
      split at taken <;> cases taken
      next here => exact .removeOwn x here
  | beginStop s x =>
      simp only [step, beginStop] at taken
      split at taken <;> cases taken
      next ready => exact .beginStop s x ready.1 ready.2
  | haltStop s =>
      simp only [step, haltStop] at taken
      split at taken <;> cases taken
      next x wait here => exact .haltStop s x wait here
  | awaitStopped s =>
      simp only [step, awaitStopped] at taken
      split at taken
      next x here =>
        split at taken <;> cases taken
        next stopped => exact .awaitStopped s x here stopped
      next => cases taken
  | stopContextDone s =>
      simp only [step, stopContextDone] at taken
      split at taken <;> cases taken
      next x here => exact .stopContextDone s x here
  | removeStopped s =>
      simp only [step, removeStopped] at taken
      split at taken <;> cases taken
      next x here => exact .removeStopped s x here
  | subscribe x ok =>
      simp only [step, subscribe] at taken
      split at taken <;> cases taken
      next ready => exact .subscribe x ok ready.1 ready.2
  | exit x closed =>
      simp only [step, exit] at taken
      split at taken <;> cases taken
      next ready =>
        refine .exit x closed ?_
        rcases ready.2 with failed | ⟨started, _⟩
        · rw [failed]; rfl
        · rw [started]; rfl

end Router

end Brainkit.Transport
