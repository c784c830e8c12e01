import Brainkit.Library.Transition
import Brainkit.Modules.MountTable

set_option autoImplicit false

namespace Brainkit.Mcp

open GoText
open Function (update)
open Brainkit.Modules (Table)

abbrev CloseResult := Option GoString

inductive Closer where
  | disconnect (name : GoString)
  | closeContext
deriving DecidableEq

structure CloseWait where
  name : GoString
  done : Nat
deriving DecidableEq

-- What a caller that waits for a close gets: its result, or the end of the caller's context.
inductive Answer where
  | result (err : CloseResult)
  | expired
deriving DecidableEq

structure Heard where
  wait : CloseWait
  answer : Answer
deriving DecidableEq

-- A call of Connect runs the factory, then Initialize and ListTools, and takes mu again; discarding is its Close of a client
-- that it does not register. The client, and its entry, have the number of the call.
inductive Call where
  | idle
  | connecting (name : GoString)
  | created (name : GoString)
  | initialized (name : GoString)
  | discarding
  | refused
  | discarded
  | connected (name : GoString)
deriving DecidableEq

inductive CloseCall where
  | idle
  | closing
  | returned (closer : Closer) (heard : List Heard)
deriving DecidableEq

inductive Client where
  | absent
  | live
  | closing
  | closed
  | failed
deriving DecidableEq

structure Entry where
  closing : Bool
  closeDone : Option Nat

-- The goroutine of a close: inside of client.Close, back with its result, after finishTargetClose, after the send, at its
-- end, with the channel closed.
inductive JobPhase where
  | closing
  | returned (err : CloseResult)
  | finished (err : CloseResult)
  | sent (err : CloseResult)
  | done (err : CloseResult)

namespace JobPhase

def outcome : JobPhase → Option CloseResult
  | closing => none
  | returned err => some err
  | finished err => some err
  | sent err => some err
  | done err => some err

def Posted : JobPhase → Prop
  | sent _ => True
  | done _ => True
  | _ => False

def Finished : JobPhase → Prop
  | closing => False
  | returned _ => False
  | _ => True

end JobPhase

structure Job where
  name : GoString
  client : Nat
  phase : JobPhase
  buffer : Option CloseResult

inductive CloseMu where
  | free
  | locked (call : Nat) (closer : Closer)
  | active (call : Nat) (closer : Closer) (targets : List (GoString × Nat)) (waits : List CloseWait) (heard : List Heard)
  | leaving (call : Nat) (closer : Closer) (heard : List Heard)

structure Manager where
  clients : Table Nat
  entries : Nat → Entry
  closing : Bool
  closed : Bool
  closeMu : CloseMu
  calls : Nat → Call
  closes : Nat → CloseCall
  client : Nat → Client
  jobs : Nat → Option Job
  started : Nat

namespace Manager

def new : Manager :=
  ⟨∅, fun _ => ⟨false, none⟩, false, false, .free, fun _ => .idle, fun _ => .idle, fun _ => .absent, fun _ => none, 0⟩

def registered (s : Manager) : List (GoString × Nat) := s.clients.entries.map fun entry => (entry.1, entry.2)

def connect (call : Nat) (name : GoString) (s : Manager) : Manager :=
  if s.closed = true ∨ s.closing = true then { s with calls := update s.calls call .refused }
  else if name ∈ s.clients then { s with calls := update s.calls call .refused }
  else { s with calls := update s.calls call (.connecting name) }

def factory (call : Nat) (name : GoString) (made : Bool) (s : Manager) : Manager :=
  if made then { s with calls := update s.calls call (.created name), client := update s.client call .live }
  else { s with calls := update s.calls call .refused }

def discard (call : Nat) (s : Manager) : Manager :=
  { s with calls := update s.calls call .discarding, client := update s.client call .closing }

def initializeResult (call : Nat) (name : GoString) (ok : Bool) (s : Manager) : Manager :=
  if ok then { s with calls := update s.calls call (.initialized name) } else s.discard call

def register (call : Nat) (name : GoString) (s : Manager) : Manager :=
  if s.closed = true ∨ s.closing = true then s.discard call
  else if name ∈ s.clients then s.discard call
  else
    { s with
      clients := s.clients.insert name call
      entries := update s.entries call ⟨false, none⟩
      calls := update s.calls call (.connected name) }

def afterClose (err : CloseResult) : Client := if err = none then .closed else .failed

def discarded (call : Nat) (err : CloseResult) (s : Manager) : Manager :=
  { s with calls := update s.calls call .discarded, client := update s.client call (afterClose err) }

def snapshot (call : Nat) (closer : Closer) (order : List (GoString × Nat)) (s : Manager) : Option Manager :=
  match closer with
  | .disconnect name => match s.clients.lookup name with
      | none => some { s with closeMu := .leaving call closer [] }
      | some c => some { s with closing := true, closeMu := .active call closer [(name, c)] [] [] }
  | .closeContext =>
      if order.Perm s.registered then
        some { s with closing := true, closed := true, closeMu := .active call closer order [] [] }
      else none

def beginClose (name : GoString) (c : Nat) (s : Manager) : Manager :=
  { s with
    entries := update s.entries c ⟨true, some s.started⟩
    client := update s.client c .closing
    jobs := update s.jobs s.started (some ⟨name, c, .closing, none⟩)
    started := s.started + 1 }

def startTargetClose (target : GoString × Nat) (s : Manager) : Manager × Option Nat :=
  if s.clients.lookup target.1 = some target.2 then
    match s.entries target.2 with
    | ⟨true, some done⟩ => (s, some done)
    | _ => (s.beginClose target.1 target.2, some s.started)
  else (s, none)

def finishTargetClose (name : GoString) (c : Nat) (err : CloseResult) (s : Manager) : Manager :=
  if s.clients.lookup name = some c then
    if err = none then { s with clients := s.clients.erase name } else { s with entries := update s.entries c ⟨false, none⟩ }
  else s

def setJob (j : Nat) (job : Job) (s : Manager) : Manager := { s with jobs := update s.jobs j (some job) }

-- A receive from the channel of a job: its buffer, or the zero value once it is closed and empty.
def received (job : Job) : Option CloseResult :=
  match job.buffer with
  | some err => some err
  | none => match job.phase with
      | .done _ => some none
      | _ => none

inductive Action where
  | connect (call : Nat) (name : GoString)
  | factory (call : Nat) (made : Bool)
  | initializeResult (call : Nat) (ok : Bool)
  | register (call : Nat)
  | discarded (call : Nat) (err : CloseResult)
  | lock (call : Nat) (closer : Closer)
  | snapshot (order : List (GoString × Nat))
  | startTarget
  | receive
  | expire
  | clearClosing
  | unlock
  | closeReturns (j : Nat) (err : CloseResult)
  | finish (j : Nat)
  | send (j : Nat)
  | closeChannel (j : Nat)

def startTarget (call : Nat) (closer : Closer) (target : GoString × Nat) (targets : List (GoString × Nat)) (waits : List CloseWait)
    (heard : List Heard) (s : Manager) : Manager :=
  match s.startTargetClose target with
  | (next, some done) => { next with closeMu := .active call closer targets (waits ++ [⟨target.1, done⟩]) heard }
  | (next, none) => { next with closeMu := .active call closer targets waits heard }

def receive (call : Nat) (closer : Closer) (wait : CloseWait) (waits : List CloseWait) (heard : List Heard) (s : Manager) :
    Option Manager :=
  (s.jobs wait.done).bind fun job => (received job).map fun err =>
    { s with
      jobs := update s.jobs wait.done (some { job with buffer := none })
      closeMu := .active call closer [] waits (heard ++ [⟨wait, .result err⟩]) }

def closeReturns (j : Nat) (job : Job) (err : CloseResult) (s : Manager) : Option Manager :=
  match job.phase with
  | .closing =>
      some ({ s with client := update s.client job.client (afterClose err) }.setJob j { job with phase := .returned err })
  | _ => none

def finish (j : Nat) (job : Job) (s : Manager) : Option Manager :=
  match job.phase with
  | .returned err => some ((s.finishTargetClose job.name job.client err).setJob j { job with phase := .finished err })
  | _ => none

def send (j : Nat) (job : Job) (s : Manager) : Option Manager :=
  match job.phase with
  | .finished err => some (s.setJob j { job with phase := .sent err, buffer := some err })
  | _ => none

def closeChannel (j : Nat) (job : Job) (s : Manager) : Option Manager :=
  match job.phase with
  | .sent err => some (s.setJob j { job with phase := .done err })
  | _ => none

def step (s : Manager) : Action → Option Manager
  | .connect call name => if s.calls call = .idle then some (s.connect call name) else none
  | .factory call made => match s.calls call with
      | .connecting name => some (s.factory call name made)
      | _ => none
  | .initializeResult call ok => match s.calls call with
      | .created name => some (s.initializeResult call name ok)
      | _ => none
  | .register call => match s.calls call with
      | .initialized name => some (s.register call name)
      | _ => none
  | .discarded call err => if s.calls call = .discarding then some (s.discarded call err) else none
  | .lock call closer => match s.closeMu with
      | .free =>
          if s.closes call = .idle then some { s with closes := update s.closes call .closing, closeMu := .locked call closer }
          else none
      | _ => none
  | .snapshot order => match s.closeMu with
      | .locked call closer => s.snapshot call closer order
      | _ => none
  | .startTarget => match s.closeMu with
      | .active call closer (target :: targets) waits heard => some (s.startTarget call closer target targets waits heard)
      | _ => none
  | .receive => match s.closeMu with
      | .active call closer [] (wait :: waits) heard => s.receive call closer wait waits heard
      | _ => none
  | .expire => match s.closeMu with
      | .active call .closeContext [] (wait :: waits) heard =>
          some { s with closeMu := .active call .closeContext [] waits (heard ++ [⟨wait, .expired⟩]) }
      | _ => none
  | .clearClosing => match s.closeMu with
      | .active call closer [] [] heard => some { s with closing := false, closeMu := .leaving call closer heard }
      | _ => none
  | .unlock => match s.closeMu with
      | .leaving call closer heard => some { s with closeMu := .free, closes := update s.closes call (.returned closer heard) }
      | _ => none
  | .closeReturns j err => (s.jobs j).bind fun job => s.closeReturns j job err
  | .finish j => (s.jobs j).bind fun job => s.finish j job
  | .send j => (s.jobs j).bind fun job => s.send j job
  | .closeChannel j => (s.jobs j).bind fun job => s.closeChannel j job

end Manager

end Brainkit.Mcp
