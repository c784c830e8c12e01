import Mathlib.Algebra.Group.Int.Defs
import Mathlib.Algebra.Group.Nat.Defs
import Brainkit.Library.Transition

set_option autoImplicit false

-- The timer polyfill with its Go-side timers, and the intervals that are built on it.
namespace Brainkit.Jsbridge.Scheduling

open Function (update)
open Transition (run Along)

-- A value as a key of the tables: a whole number, or any value that is none.
inductive Key where
  | number (n : Int)
  | other (value : Nat)
deriving DecidableEq

def Key.id (k : Nat) : Key := .number k

-- What a caller hands to a clear: what setTimeout or setInterval has returned to it, or a value of its own.
inductive Handle where
  | timeout (k : Nat)
  | interval (j : Nat)
  | unknown (key : Key)
deriving DecidableEq

def Handle.key : Handle → Key
  | .timeout k => .id k
  | .interval j => .id j
  | .unknown key => key

inductive Owner where
  | timeout
  | tick (j : Nat)
deriving DecidableEq

inductive Phase where
  | unborn
  | pending
  | running
  | ended
deriving DecidableEq

structure Call where
  time : Int
  afterClear : Bool
deriving DecidableEq

structure Timeout where
  owner : Owner
  start : Int
  delay : Int
  phase : Phase
  cleared : Bool
  calls : List Call
deriving DecidableEq

structure Interval where
  delay : Int
  cleared : Bool
deriving DecidableEq

structure Job where
  timer : Nat
  callback : Nat
deriving DecidableEq

-- cleared, cbs, nextId, intervals and intervalId are the variables of the script.
structure Timers where
  now : Int
  cleared : Key → Bool
  cbs : Key → Option Nat
  nextId : Nat
  intervals : Key → Option Nat
  intervalId : Nat
  running : Option Job
  timer : Nat → Timeout
  interval : Nat → Interval

namespace Timers

def new : Timers :=
  { now := 0
    cleared := fun _ => false
    cbs := fun _ => none
    nextId := 0
    intervals := fun _ => none
    intervalId := 0
    running := none
    timer := fun _ => ⟨.timeout, 0, 0, .unborn, false, []⟩
    interval := fun _ => ⟨0, true⟩ }

-- The conversion of a whole number in the bridge.
def toInt32 (n : Int) : Int := n.bmod (2 ^ 32)

-- A delay that is missing is 0. Without a delay the callback is a microtask.
def setTimeout (owner : Owner) (delay : Int) (s : Timers) : Timers :=
  { s with
    nextId := s.nextId + 1
    timer := update s.timer (s.nextId + 1) ⟨owner, s.now, delay, .pending, false, []⟩
    cbs := if 0 < delay then update s.cbs (.id (s.nextId + 1)) (some (s.nextId + 1)) else s.cbs }

def clearKey (key : Key) (s : Timers) : Timers :=
  { s with cleared := update s.cleared key true, cbs := update s.cbs key none }

def markTimeout (k : Nat) (s : Timers) : Timers := { s with timer := update s.timer k { s.timer k with cleared := true } }

def markInterval (j : Nat) (s : Timers) : Timers :=
  { s with interval := update s.interval j { s.interval j with cleared := true } }

def clearTimeout (h : Handle) (s : Timers) : Timers :=
  match h with
  | .timeout k => (s.clearKey h.key).markTimeout k
  | _ => s.clearKey h.key

def setInterval (delay : Int) (s : Timers) : Timers :=
  let j := s.intervalId + 1
  { s.setTimeout (.tick j) delay with
    intervalId := j
    intervals := update s.intervals (.id j) (some (s.nextId + 1))
    interval := update s.interval j ⟨delay, false⟩ }

def clearEntry (key : Key) (s : Timers) : Timers :=
  match s.intervals key with
  | none => s
  | some k => { s.clearKey (.id k) with intervals := update s.intervals key none }

def clearInterval (h : Handle) (s : Timers) : Timers :=
  match h with
  | .interval j => (s.clearEntry h.key).markInterval j
  | _ => s.clearEntry h.key

def ownCleared (s : Timers) (k : Nat) : Bool :=
  match (s.timer k).owner with
  | .timeout => (s.timer k).cleared
  | .tick j => (s.interval j).cleared

def setPhase (k : Nat) (phase : Phase) (s : Timers) : Timers :=
  { s with timer := update s.timer k { s.timer k with phase := phase } }

-- The end of a job: the Go-side one forgets its callback too.
def finish (k : Nat) (goSide : Bool) (s : Timers) : Timers :=
  let key := if goSide then .number (toInt32 k) else .id k
  { s.setPhase k .ended with
    cleared := update s.cleared key false
    cbs := if goSide then update s.cbs key none else s.cbs
    running := none }

def call (k m : Nat) (s : Timers) : Timers :=
  let s := s.setPhase k .running
  { s with
    running := some ⟨k, m⟩
    timer := update s.timer m { s.timer m with calls := (s.timer m).calls ++ [⟨s.now, s.ownCleared m⟩] } }

-- tick looks for its interval before it calls the function.
def enter (k m : Nat) (goSide : Bool) (s : Timers) : Timers :=
  match (s.timer m).owner with
  | .timeout => s.call k m
  | .tick j => if s.intervals (.id j) = none then s.finish k goSide else s.call k m

def goSide (s : Timers) (k : Nat) : Bool := decide (0 < (s.timer k).delay)

-- After the function tick arms the next timeout of its interval, unless that is gone.
def rearm (m : Nat) (s : Timers) : Timers :=
  match (s.timer m).owner with
  | .timeout => s
  | .tick j =>
      if s.intervals (.id j) = none then s
      else { s.setTimeout (.tick j) (s.interval j).delay with
        intervals := update s.intervals (.id j) (some (s.nextId + 1)) }

inductive Action where
  | elapse (time : Nat)
  | setTimeout (delay : Int)
  | clearTimeout (h : Handle)
  | setInterval (delay : Int)
  | clearInterval (h : Handle)
  | comesBack (k : Nat)
  | returns
  | throws

def due (unit : Nat) (s : Timers) (k : Nat) : Int := (s.timer k).start + toInt32 ((s.timer k).delay / unit) * unit

def comesBack (k : Nat) (s : Timers) : Timers :=
  if s.goSide k then
    if s.cleared (.number (toInt32 k)) then s.finish k true
    else match s.cbs (.number (toInt32 k)) with
      | none => s.finish k true
      | some m => s.enter k m true
  else if s.cleared (.id k) then s.finish k false
  else s.enter k k false

-- Time and delays are in a unit that measures them all, of which a millisecond has so many. One job runs at a time.
def step (unit : Nat) (s : Timers) : Action → Option Timers
  | .elapse time => some { s with now := s.now + time }
  | .setTimeout delay => some (s.setTimeout .timeout delay)
  | .clearTimeout h => some (s.clearTimeout h)
  | .setInterval delay => some (s.setInterval delay)
  | .clearInterval h => some (s.clearInterval h)
  | .comesBack k =>
      if (s.timer k).phase = .pending ∧ s.running = none ∧ (s.goSide k → s.due unit k ≤ s.now) then some (s.comesBack k)
      else none
  | .returns => s.running.map fun job => (s.rearm job.callback).finish job.timer (s.goSide job.timer)
  | .throws => s.running.map fun job => { s.setPhase job.timer .ended with running := none }

def Active (s : Timers) (k : Nat) : Prop := (s.timer k).phase = .pending ∨ (s.timer k).phase = .running

structure Law (s : Timers) : Prop where
  once : ∀ k, (s.timer k).calls.length ≤ 1
  elapsed : ∀ k, ∀ c ∈ (s.timer k).calls, (s.timer k).start + (s.timer k).delay ≤ c.time
  uncleared : ∀ k, ∀ c ∈ (s.timer k).calls, c.afterClear = false
  undisturbed : ∀ k, (s.timer k).owner = .timeout → (s.timer k).phase = .ended → (s.timer k).cleared = false →
    (s.timer k).calls ≠ []
  ticking : ∀ j, 0 < j → j ≤ s.intervalId → (s.interval j).cleared = false →
    ∃ k, s.intervals (.id j) = some k ∧ (s.timer k).owner = .tick j ∧ s.Active k
  marks : ∀ key, s.cleared key = true → ∃ k, key = .id k ∧ s.Active k
  callbacks : ∀ key m, s.cbs key = some m → key = .id m ∧ s.Active m
  entries : ∀ key k, s.intervals key = some k → ∃ j, key = .id j ∧ (s.timer k).owner = .tick j ∧ s.Active k

def Exact (unit : Nat) (delay : Int) : Prop := delay ≤ 0 ∨ (unit : Int) ∣ delay ∧ delay / unit < 2 ^ 31

-- clearTimeout names a timeout that has not come to its end and clearInterval no other interval than its own, a delay is
-- a whole number of milliseconds below 2^31 and so is a timer's number, and only the callback of a timeout that has no
-- delay and no mark throws.
def Ok (unit : Nat) (s : Timers) : Action → Prop
  | .elapse _ => True
  | .setTimeout delay => Exact unit delay ∧ s.nextId + 1 < 2 ^ 31
  | .clearTimeout h => ∃ k, h = .timeout k ∧ (s.timer k).owner = .timeout ∧ s.Active k
  | .setInterval delay => Exact unit delay ∧ s.nextId + 1 < 2 ^ 31
  | .clearInterval h => (∃ j, h = .interval j) ∨ s.intervals h.key = none
  | .comesBack _ => True
  | .returns => ∀ job j, s.running = some job → (s.timer job.callback).owner = .tick j → s.intervals (.id j) ≠ none →
      s.nextId + 1 < 2 ^ 31
  | .throws => ∀ job, s.running = some job →
      (s.timer job.callback).owner = .timeout ∧ s.goSide job.timer = false ∧ s.cleared (.id job.timer) = false

end Timers

end Brainkit.Jsbridge.Scheduling
