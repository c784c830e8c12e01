import Brainkit.Sdk.PendingCall

set_option autoImplicit false

namespace Brainkit.Sdk

open Function (update)

inductive RegisterPc where
  | outside
  | locked
  | checked
  | stored
  | registered
  | rejected
  | returned
deriving DecidableEq

inductive Finalizer where
  | own
  | failure (handler : Nat)
  | closer (closer : Nat)
deriving DecidableEq

inductive DoneOnce where
  | idle
  | running (finalizer : Finalizer) (r : Result)
  | ran (r : Result)
deriving DecidableEq

inductive FailurePc where
  | idle
  | taken (call : Nat)
  | finalizing (call : Nat)
deriving DecidableEq

-- CloseContext holds closeMu from locked to swept; visited are the calls on which its Range has returned from
-- finalize.
inductive ClosePc where
  | outside
  | locked
  | ranging (visited : List Nat)
  | visiting (visited : List Nat) (call : Nat)
  | finalizing (visited : List Nat) (call : Nat)
  | swept
  | finished
deriving DecidableEq

inductive CloseMu where
  | free
  | call (call : Nat)
  | closer (closer : Nat)
deriving DecidableEq

-- own remembers, for the proofs only, the outcome with which something else than CloseContext began to finalize the
-- call.
structure Caller where
  closed : Bool
  closeMu : CloseMu
  pending : List Nat
  call : Nat → RegisterPc
  once : Nat → DoneOnce
  own : Nat → Option Result
  failure : Nat → FailurePc
  closer : Nat → ClosePc

def Caller.start : Caller where
  closed := false
  closeMu := .free
  pending := []
  call := fun _ => .outside
  once := fun _ => .idle
  own := fun _ => none
  failure := fun _ => .idle
  closer := fun _ => .outside

namespace Caller

def lockCall (n : Nat) (c : Caller) : Option Caller :=
  match c.call n, c.closeMu with
  | .outside, .free => some { c with closeMu := .call n, call := update c.call n .locked }
  | _, _ => none

def checkClosed (n : Nat) (c : Caller) : Option Caller :=
  match c.call n with
  | .locked =>
      if c.closed then some { c with closeMu := .free, call := update c.call n .rejected }
      else some { c with call := update c.call n .checked }
  | _ => none

def store (n : Nat) (c : Caller) : Option Caller :=
  match c.call n with
  | .checked => some { c with pending := n :: c.pending, call := update c.call n .stored }
  | _ => none

def unlockCall (n : Nat) (c : Caller) : Option Caller :=
  match c.call n with
  | .stored => some { c with closeMu := .free, call := update c.call n .registered }
  | _ => none

-- Every return of Call after the registration follows a finalize: its own, or the one whose result it received.
def returnCall (n : Nat) (c : Caller) : Option Caller :=
  match c.call n, c.once n with
  | .registered, .ran _ => some { c with pending := c.pending.filter (· ≠ n), call := update c.call n .returned }
  | _, _ => none

def ownBegin (n : Nat) (r : Result) (c : Caller) : Option Caller :=
  if (c.call n = .stored ∨ c.call n = .registered) ∧ c.once n = .idle then
    some { c with once := update c.once n (.running .own r), own := update c.own n (some r) }
  else none

def ownEnd (n : Nat) (c : Caller) : Option Caller :=
  match c.once n with
  | .running .own r => some { c with once := update c.once n (.ran r) }
  | _ => none

def failureTake (j n : Nat) (c : Caller) : Option Caller :=
  match c.failure j with
  | .idle =>
      if n ∈ c.pending then
        some { c with pending := c.pending.filter (· ≠ n), failure := update c.failure j (.taken n) }
      else none
  | _ => none

def failureBegin (j : Nat) (c : Caller) : Option Caller :=
  match c.failure j with
  | .taken n => match c.once n with
      | .idle => some { c with
          once := update c.once n (.running (.failure j) (.failed .handlerFailed))
          own := update c.own n (some (.failed .handlerFailed))
          failure := update c.failure j (.finalizing n) }
      | .running _ _ => none
      | .ran _ => some { c with failure := update c.failure j .idle }
  | _ => none

def failureEnd (j : Nat) (c : Caller) : Option Caller :=
  match c.failure j with
  | .finalizing n => some { c with
      once := update c.once n (.ran (.failed .handlerFailed)), failure := update c.failure j .idle }
  | _ => none

def lockClose (k : Nat) (c : Caller) : Option Caller :=
  match c.closer k, c.closeMu with
  | .outside, .free => some { c with closeMu := .closer k, closer := update c.closer k .locked }
  | _, _ => none

def setClosed (k : Nat) (c : Caller) : Option Caller :=
  match c.closer k with
  | .locked => some { c with closed := true, closer := update c.closer k (.ranging []) }
  | _ => none

def visit (k n : Nat) (c : Caller) : Option Caller :=
  match c.closer k with
  | .ranging visited =>
      if n ∈ c.pending ∧ n ∉ visited then some { c with closer := update c.closer k (.visiting visited n) } else none
  | _ => none

def closeBegin (k : Nat) (c : Caller) : Option Caller :=
  match c.closer k with
  | .visiting visited n => match c.once n with
      | .idle => some { c with
          once := update c.once n (.running (.closer k) (.failed .callerClosed))
          closer := update c.closer k (.finalizing visited n) }
      | .running _ _ => none
      | .ran _ => some { c with closer := update c.closer k (.ranging (n :: visited)) }
  | _ => none

def closeEnd (k : Nat) (c : Caller) : Option Caller :=
  match c.closer k with
  | .finalizing visited n => some { c with
      once := update c.once n (.ran (.failed .callerClosed))
      closer := update c.closer k (.ranging (n :: visited)) }
  | _ => none

-- Range ends when it has visited every entry that is still in the map.
def rangeEnd (k : Nat) (c : Caller) : Option Caller :=
  match c.closer k with
  | .ranging visited =>
      if ∀ n ∈ c.pending, n ∈ visited then some { c with closer := update c.closer k .swept } else none
  | _ => none

def unlockClose (k : Nat) (c : Caller) : Option Caller :=
  match c.closer k with
  | .swept => some { c with closeMu := .free, closer := update c.closer k .finished }
  | _ => none

inductive Action where
  | lockCall (n : Nat)
  | checkClosed (n : Nat)
  | store (n : Nat)
  | unlockCall (n : Nat)
  | returnCall (n : Nat)
  | ownBegin (n : Nat) (r : Result)
  | ownEnd (n : Nat)
  | failureTake (j n : Nat)
  | failureBegin (j : Nat)
  | failureEnd (j : Nat)
  | lockClose (k : Nat)
  | setClosed (k : Nat)
  | visit (k n : Nat)
  | closeBegin (k : Nat)
  | closeEnd (k : Nat)
  | rangeEnd (k : Nat)
  | unlockClose (k : Nat)

def step (c : Caller) : Action → Option Caller
  | .lockCall n => c.lockCall n
  | .checkClosed n => c.checkClosed n
  | .store n => c.store n
  | .unlockCall n => c.unlockCall n
  | .returnCall n => c.returnCall n
  | .ownBegin n r => c.ownBegin n r
  | .ownEnd n => c.ownEnd n
  | .failureTake j n => c.failureTake j n
  | .failureBegin j => c.failureBegin j
  | .failureEnd j => c.failureEnd j
  | .lockClose k => c.lockClose k
  | .setClosed k => c.setClosed k
  | .visit k n => c.visit k n
  | .closeBegin k => c.closeBegin k
  | .closeEnd k => c.closeEnd k
  | .rangeEnd k => c.rangeEnd k
  | .unlockClose k => c.unlockClose k

inductive Moves (c : Caller) : Action → Caller → Prop where
  | lockCall (n : Nat) (outside : c.call n = .outside) (free : c.closeMu = .free) :
      Moves c (.lockCall n) { c with closeMu := .call n, call := update c.call n .locked }
  | rejected (n : Nat) (locked : c.call n = .locked) (closed : c.closed = true) :
      Moves c (.checkClosed n) { c with closeMu := .free, call := update c.call n .rejected }
  | checked (n : Nat) (locked : c.call n = .locked) (unclosed : c.closed = false) :
      Moves c (.checkClosed n) { c with call := update c.call n .checked }
  | store (n : Nat) (checked : c.call n = .checked) :
      Moves c (.store n) { c with pending := n :: c.pending, call := update c.call n .stored }
  | unlockCall (n : Nat) (stored : c.call n = .stored) :
      Moves c (.unlockCall n) { c with closeMu := .free, call := update c.call n .registered }
  | returnCall (n : Nat) (r : Result) (registered : c.call n = .registered) (ran : c.once n = .ran r) :
      Moves c (.returnCall n) { c with pending := c.pending.filter (· ≠ n), call := update c.call n .returned }
  | ownBegin (n : Nat) (r : Result) (entered : c.call n = .stored ∨ c.call n = .registered) (idle : c.once n = .idle) :
      Moves c (.ownBegin n r) { c with once := update c.once n (.running .own r), own := update c.own n (some r) }
  | ownEnd (n : Nat) (r : Result) (running : c.once n = .running .own r) :
      Moves c (.ownEnd n) { c with once := update c.once n (.ran r) }
  | failureTake (j n : Nat) (idle : c.failure j = .idle) (listed : n ∈ c.pending) :
      Moves c (.failureTake j n)
        { c with pending := c.pending.filter (· ≠ n), failure := update c.failure j (.taken n) }
  | failureBegin (j n : Nat) (taken : c.failure j = .taken n) (idle : c.once n = .idle) :
      Moves c (.failureBegin j) { c with
        once := update c.once n (.running (.failure j) (.failed .handlerFailed))
        own := update c.own n (some (.failed .handlerFailed))
        failure := update c.failure j (.finalizing n) }
  | failureLate (j n : Nat) (r : Result) (taken : c.failure j = .taken n) (ran : c.once n = .ran r) :
      Moves c (.failureBegin j) { c with failure := update c.failure j .idle }
  | failureEnd (j n : Nat) (finalizing : c.failure j = .finalizing n) :
      Moves c (.failureEnd j)
        { c with once := update c.once n (.ran (.failed .handlerFailed)), failure := update c.failure j .idle }
  | lockClose (k : Nat) (outside : c.closer k = .outside) (free : c.closeMu = .free) :
      Moves c (.lockClose k) { c with closeMu := .closer k, closer := update c.closer k .locked }
  | setClosed (k : Nat) (locked : c.closer k = .locked) :
      Moves c (.setClosed k) { c with closed := true, closer := update c.closer k (.ranging []) }
  | visit (k n : Nat) (visited : List Nat) (ranging : c.closer k = .ranging visited) (listed : n ∈ c.pending) :
      Moves c (.visit k n) { c with closer := update c.closer k (.visiting visited n) }
  | closeBegin (k n : Nat) (visited : List Nat) (visiting : c.closer k = .visiting visited n) (idle : c.once n = .idle) :
      Moves c (.closeBegin k) { c with
        once := update c.once n (.running (.closer k) (.failed .callerClosed))
        closer := update c.closer k (.finalizing visited n) }
  | closeLate (k n : Nat) (visited : List Nat) (r : Result) (visiting : c.closer k = .visiting visited n)
      (ran : c.once n = .ran r) :
      Moves c (.closeBegin k) { c with closer := update c.closer k (.ranging (n :: visited)) }
  | closeEnd (k n : Nat) (visited : List Nat) (finalizing : c.closer k = .finalizing visited n) :
      Moves c (.closeEnd k) { c with
        once := update c.once n (.ran (.failed .callerClosed))
        closer := update c.closer k (.ranging (n :: visited)) }
  | rangeEnd (k : Nat) (visited : List Nat) (ranging : c.closer k = .ranging visited)
      (all : ∀ n ∈ c.pending, n ∈ visited) :
      Moves c (.rangeEnd k) { c with closer := update c.closer k .swept }
  | unlockClose (k : Nat) (swept : c.closer k = .swept) :
      Moves c (.unlockClose k) { c with closeMu := .free, closer := update c.closer k .finished }

theorem moves_of_step (c next : Caller) (action : Action) (taken : step c action = some next) : Moves c action next := by
  cases action with
  | lockCall n =>
      simp only [step, Caller.lockCall] at taken
      split at taken <;> cases taken
      exact .lockCall n (by assumption) (by assumption)
  | checkClosed n =>
      simp only [step, Caller.checkClosed] at taken
      repeat' split at taken
      all_goals cases taken
      · exact .rejected n (by assumption) (by assumption)
      · exact .checked n (by assumption) (by simp_all)
  | store n =>
      simp only [step, Caller.store] at taken
      split at taken <;> cases taken
      exact .store n (by assumption)
  | unlockCall n =>
      simp only [step, Caller.unlockCall] at taken
      split at taken <;> cases taken
      exact .unlockCall n (by assumption)
  | returnCall n =>
      simp only [step, Caller.returnCall] at taken
      split at taken <;> cases taken
      exact .returnCall n _ (by assumption) (by assumption)
  | ownBegin n r =>
      simp only [step, Caller.ownBegin] at taken
      split at taken <;> cases taken
      rename_i guard
      exact .ownBegin n r guard.1 guard.2
  | ownEnd n =>
      simp only [step, Caller.ownEnd] at taken
      split at taken <;> cases taken
      exact .ownEnd n _ (by assumption)
  | failureTake j n =>
      simp only [step, Caller.failureTake] at taken
      repeat' split at taken
      all_goals cases taken
      exact .failureTake j n (by assumption) (by assumption)
  | failureBegin j =>
      simp only [step, Caller.failureBegin] at taken
      repeat' split at taken
      all_goals cases taken
      · exact .failureBegin j _ (by assumption) (by assumption)
      · exact .failureLate j _ _ (by assumption) (by assumption)
  | failureEnd j =>
      simp only [step, Caller.failureEnd] at taken
      split at taken <;> cases taken
      exact .failureEnd j _ (by assumption)
  | lockClose k =>
      simp only [step, Caller.lockClose] at taken
      split at taken <;> cases taken
      exact .lockClose k (by assumption) (by assumption)
  | setClosed k =>
      simp only [step, Caller.setClosed] at taken
      split at taken <;> cases taken
      exact .setClosed k (by assumption)
  | visit k n =>
      simp only [step, Caller.visit] at taken
      repeat' split at taken
      all_goals cases taken
      rename_i guard
      exact .visit k n _ (by assumption) guard.1
  | closeBegin k =>
      simp only [step, Caller.closeBegin] at taken
      repeat' split at taken
      all_goals cases taken
      · exact .closeBegin k _ _ (by assumption) (by assumption)
      · exact .closeLate k _ _ _ (by assumption) (by assumption)
  | closeEnd k =>
      simp only [step, Caller.closeEnd] at taken
      split at taken <;> cases taken
      exact .closeEnd k _ _ (by assumption)
  | rangeEnd k =>
      simp only [step, Caller.rangeEnd] at taken
      repeat' split at taken
      all_goals cases taken
      exact .rangeEnd k _ (by assumption) (by assumption)
  | unlockClose k =>
      simp only [step, Caller.unlockClose] at taken
      split at taken <;> cases taken
      exact .unlockClose k (by assumption)

end Caller

end Brainkit.Sdk
