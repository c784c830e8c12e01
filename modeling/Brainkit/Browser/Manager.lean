import Brainkit.Library.Transition

set_option autoImplicit false

namespace Brainkit.Browser

open Function (update)
open Transition (run Along Reachable)

-- A session as the pointers to it see it: whether cmd is still set, and ownedProfile. It has the number of its launch, for
-- its id (a new UUID) and for its process.
structure Session where
  cmd : Bool
  ownedProfile : Bool
deriving DecidableEq

-- A call of Launch: after its first look at closed, waiting for the CDP of the process that it started, terminating it
-- because the wait failed, terminating it because the manager was closed by then.
inductive LaunchCall where
  | idle
  | preparing
  | waiting
  | abandoning
  | late
  | returned
deriving DecidableEq

inductive CloseCall where
  | idle
  | closing (id : Nat)
  | returned
deriving DecidableEq

inductive CloseContextCall where
  | idle
  | closing (sessions failed : List Nat)
  | returned (clean : Bool)
deriving DecidableEq

structure Manager where
  sessions : List Nat
  closed : Bool
  closing : Bool
  session : Nat → Session
  launches : Nat → LaunchCall
  closes : Nat → CloseCall
  contexts : Nat → CloseContextCall
  -- The processes that run, and the profile directories that Launch made and nobody has removed.
  running : Nat → Bool
  profile : Nat → Bool

def new : Manager where
  sessions := []
  closed := false
  closing := false
  session _ := ⟨false, false⟩
  launches _ := .idle
  closes _ := .idle
  contexts _ := .idle
  running _ := false
  profile _ := false

-- One step of a call, or the exit of a process, which can come at any time. A termination is one step at its end; the
-- process may be running still. removed is what RemoveAll did, where it is called.
inductive Action where
  | launch (n : Nat)
  | fail (n : Nat)
  | start (n : Nat) (ownedProfile : Bool)
  | exit (n : Nat)
  | waitFailed (n : Nat)
  | abandoned (n : Nat) (removed : Bool)
  | register (n : Nat)
  | lateClosed (n : Nat) (removed : Bool)
  | close (k id : Nat)
  | closed (k : Nat) (err removed : Bool)
  | closeContext (c : Nat)
  | contextClosed (c id : Nat) (err removed : Bool)
  | decide (c : Nat)
deriving DecidableEq

namespace Manager

variable (m : Manager)

-- The end of session.close. Without an error the process has exited and the directory is gone; cmd and ownedProfile are
-- cleared either way.
def shut (id : Nat) (err removed : Bool) : Option Manager :=
  let s := m.session id
  if err = false ∧ (s.cmd = true ∧ m.running id = true ∨ s.ownedProfile = true ∧ removed = false) then none
  else some { m with
    session := update m.session id ⟨false, false⟩
    profile := update m.profile id (m.profile id && !(s.ownedProfile && removed)) }

def discard (n : Nat) (removed : Bool) : Manager :=
  { m with launches := update m.launches n .returned, profile := update m.profile n (m.profile n && !removed) }

def register (n : Nat) : Manager :=
  if m.closed then { m with launches := update m.launches n .late }
  else { m with
    sessions := n :: m.sessions
    session := update m.session n ⟨true, m.profile n⟩
    launches := update m.launches n .returned }

def close (k id : Nat) : Manager :=
  if id ∈ m.sessions then { m with sessions := m.sessions.filter (· ≠ id), closes := update m.closes k (.closing id) }
  else { m with closes := update m.closes k .returned }

def decide (c : Nat) (failed : List Nat) : Manager :=
  if failed = [] then { m with closed := true, closing := false, contexts := update m.contexts c (.returned true) }
  else { m with sessions := failed ++ m.sessions, closing := false, contexts := update m.contexts c (.returned false) }

end Manager

def step (m : Manager) : Action → Option Manager
  | .launch n =>
      if m.launches n = .idle then
        some { m with launches := update m.launches n (if m.closed then .returned else .preparing) }
      else none
  | .fail n => if m.launches n = .preparing then some { m with launches := update m.launches n .returned } else none
  | .start n ownedProfile =>
      if m.launches n = .preparing then
        some { m with
          launches := update m.launches n .waiting
          running := update m.running n true
          profile := update m.profile n ownedProfile }
      else none
  | .exit n => if m.running n then some { m with running := update m.running n false } else none
  | .waitFailed n => if m.launches n = .waiting then some { m with launches := update m.launches n .abandoning } else none
  | .abandoned n removed => if m.launches n = .abandoning then some (m.discard n removed) else none
  | .register n => if m.launches n = .waiting then some (m.register n) else none
  | .lateClosed n removed => if m.launches n = .late then some (m.discard n removed) else none
  | .close k id => if m.closes k = .idle then some (m.close k id) else none
  | .closed k err removed => match m.closes k with
      | .closing id => (m.shut id err removed).map fun m => { m with closes := update m.closes k .returned }
      | _ => none
  | .closeContext c =>
      if m.contexts c = .idle then
        some { m with sessions := [], closing := true, contexts := update m.contexts c (.closing m.sessions []) }
      else none
  | .contextClosed c id err removed => match m.contexts c with
      | .closing sessions failed =>
          if id ∈ sessions then (m.shut id err removed).map fun m => { m with
            contexts := update m.contexts c (.closing (sessions.filter (· ≠ id)) (if err then id :: failed else failed)) }
          else none
      | _ => none
  | .decide c => match m.contexts c with
      | .closing [] failed => some (m.decide c failed)
      | _ => none

def Launching (m : Manager) (n : Nat) : Prop := m.launches n = .waiting ∨ m.launches n = .abandoning ∨ m.launches n = .late

def Taken (m : Manager) (n : Nat) : Prop :=
  (∃ k, m.closes k = .closing n) ∨ ∃ c sessions failed, m.contexts c = .closing sessions failed ∧
    (n ∈ sessions ∨ n ∈ failed)

def InCall (m : Manager) (n : Nat) : Prop := Launching m n ∨ Taken m n

-- A later close of the session terminates the process and removes the directory that is its own.
def Tracked (m : Manager) (n : Nat) : Prop :=
  n ∈ m.sessions ∧ (m.session n).cmd = true ∧ (m.profile n = true → (m.session n).ownedProfile = true)

structure Sound (m : Manager) : Prop where
  held : ∀ n, m.running n = true → InCall m n ∨ Tracked m n
  swept : ∀ c, m.contexts c = .returned true → m.sessions = [] ∧ ∀ n, m.running n = true → InCall m n

def Closing (m : Manager) (c : Nat) : Prop := ∃ sessions failed, m.contexts c = .closing sessions failed

-- A termination leaves nothing running; a Launch does not register its session while a CloseContext is between its sweep and
-- its decision; and a CloseContext puts sessions back only while no other is there and the manager is not closed.
def Ok (m : Manager) : Action → Prop
  | .abandoned n _ => m.running n = false
  | .lateClosed n _ => m.running n = false
  | .closed k _ _ => ∀ n, m.closes k = .closing n → m.running n = false
  | .contextClosed _ n _ _ => m.running n = false
  | .register _ => m.closed = false → ∀ c, ¬ Closing m c
  | .decide c => ∀ failed, m.contexts c = .closing [] failed → failed ≠ [] →
      m.closed = false ∧ ∀ other ≠ c, ¬ Closing m other
  | _ => True

end Brainkit.Browser
