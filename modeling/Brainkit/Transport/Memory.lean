import Brainkit.Library.GoText

set_option autoImplicit false

namespace Brainkit.Transport

open Function (update)
open GoText

def memorySubscriptionBuffer : Nat := 1024
def memoryBacklogLimit : Nat := 4096

-- The broker copies messages and never looks into them. publisher is history: who publishes the message.
structure Message (μ : Type) where
  content : μ
  publisher : Nat
deriving DecidableEq

-- backlog is what Subscribe has still to deliver before it returns. closing says that the subscription has been taken
-- out of subs and is about to be closed, watched that the end of its context will unsubscribe it. received, inherited
-- and later are history: what the subscriber took from ch, the messages that waited for it, and those published while
-- it was registered.
structure Subscription (μ : Type) where
  topic : GoString
  capacity : Nat
  ch : List (Message μ)
  ctxDone : Bool
  closed : Bool
  backlog : List (Message μ)
  returned : Bool
  watched : Bool
  closing : Bool
  received : List (Message μ)
  inherited : List (Message μ)
  later : List (Message μ)

-- A call of Publish: the messages it has still to publish, nil ones among them, or the subscriptions to which it has
-- still to deliver the current one.
inductive PublishPc (μ : Type) where
  | idle
  | looping (topic : GoString) (rest : List (Option μ))
  | delivering (topic : GoString) (msg : Message μ) (subs : List Nat) (rest : List (Option μ))

-- unheard is history: all messages published on a topic since it last had a subscription.
structure Broker (μ : Type) where
  closed : Bool
  subs : GoString → List Nat
  backlog : GoString → List (Message μ)
  sub : Nat → Subscription μ
  created : Nat
  publisher : Nat → PublishPc μ
  unheard : GoString → List (Message μ)

def newest {α : Type} (limit : Nat) (items : List α) : List α := items.drop (items.length - limit)

namespace Subscription

variable {μ : Type}

def blank : Subscription μ := ⟨[], 0, [], false, true, [], true, false, false, [], [], []⟩

-- It returns false on a closed subscription. A done context races with a free place in the channel; without either,
-- deliver waits.
def deliver (s : Subscription μ) (msg : Message μ) (ctxWins : Bool) : Option (Bool × Subscription μ) :=
  if s.closed then some (false, s)
  else if ctxWins then if s.ctxDone then some (false, s) else none
  else if s.ch.length < s.capacity then some (true, { s with ch := s.ch ++ [msg] })
  else none

end Subscription

namespace Broker

variable {μ : Type}

def newMemoryBroker : Broker μ where
  closed := false
  subs := fun _ => []
  backlog := fun _ => []
  sub := fun _ => .blank
  created := 0
  publisher := fun _ => .idle
  unheard := fun _ => []

def setPublisher (b : Broker μ) (p : Nat) (pc : PublishPc μ) : Broker μ := { b with publisher := update b.publisher p pc }

def setSub (b : Broker μ) (i : Nat) (s : Subscription μ) : Broker μ := { b with sub := update b.sub i s }

def publish (p : Nat) (topic : GoString) (messages : List (Option μ)) (b : Broker μ) : Option (Broker μ) :=
  match b.publisher p with
  | .idle => some (if topic = [] then b else b.setPublisher p (.looping topic messages))
  | _ => none

-- The part of publishOne under mu: the message goes to the backlog, or to the subscriptions of this moment.
def enqueue (b : Broker μ) (topic : GoString) (msg : Message μ) : Broker μ :=
  { b with
    backlog := update b.backlog topic
      (let queue := b.backlog topic ++ [msg]
       if queue.length > memoryBacklogLimit then queue.drop (queue.length - memoryBacklogLimit) else queue)
    unheard := update b.unheard topic (b.unheard topic ++ [msg]) }

def fanOut (b : Broker μ) (topic : GoString) (msg : Message μ) : Broker μ :=
  { b with sub := fun i => if i ∈ b.subs topic then { b.sub i with later := (b.sub i).later ++ [msg] } else b.sub i }

def publishOne (p : Nat) (b : Broker μ) : Option (Broker μ) :=
  match b.publisher p with
  | .looping _ [] => some (b.setPublisher p .idle)
  | .looping topic (none :: rest) => some (b.setPublisher p (.looping topic rest))
  | .looping topic (some content :: rest) =>
      if b.closed then some (b.setPublisher p .idle)
      else if b.subs topic = [] then some ((b.enqueue topic ⟨content, p⟩).setPublisher p (.looping topic rest))
      else some ((b.fanOut topic ⟨content, p⟩).setPublisher p (.delivering topic ⟨content, p⟩ (b.subs topic) rest))
  | _ => none

-- The subscriptions are visited in any order.
def deliver (p i : Nat) (ctxWins : Bool) (b : Broker μ) : Option (Broker μ) :=
  match b.publisher p with
  | .delivering topic msg subs rest =>
      if i ∈ subs then ((b.sub i).deliver msg ctxWins).map fun (_, s) =>
        (b.setSub i s).setPublisher p
          (if subs.erase i = [] then .looping topic rest else .delivering topic msg (subs.erase i) rest)
      else none
  | _ => none

-- The part of Subscribe under mu. expired says that the context is done.
def subscribe (topic : GoString) (expired : Bool) (b : Broker μ) : Option (Broker μ) :=
  if topic = [] ∨ expired ∨ b.closed then some b
  else some { b with
    subs := update b.subs topic (b.created :: b.subs topic)
    backlog := update b.backlog topic []
    unheard := update b.unheard topic []
    created := b.created + 1
    sub := update b.sub b.created
      { topic := topic
        capacity := max memorySubscriptionBuffer (b.backlog topic).length
        ch := []
        ctxDone := false
        closed := false
        backlog := b.backlog topic
        returned := false
        watched := false
        closing := false
        received := []
        inherited := newest memoryBacklogLimit (b.unheard topic)
        later := [] } }

-- Subscribe goes on with the backlog until a delivery fails.
def deliverBacklog (i : Nat) (ctxWins : Bool) (b : Broker μ) : Option (Broker μ) :=
  match (b.sub i).backlog with
  | [] => none
  | msg :: rest => ((b.sub i).deliver msg ctxWins).map fun (delivered, s) =>
      b.setSub i { s with backlog := if delivered then rest else [] }

-- The end of Subscribe. A closed subscription stops the watch at once.
def watchCancel (i : Nat) (b : Broker μ) : Option (Broker μ) :=
  if (b.sub i).returned = false ∧ (b.sub i).backlog = [] then
    some (b.setSub i { b.sub i with returned := true, watched := !(b.sub i).closed })
  else none

def cancel (i : Nat) (b : Broker μ) : Option (Broker μ) :=
  if i < b.created then some (b.setSub i { b.sub i with ctxDone := true }) else none

-- The part of unsubscribe under mu, which the context starts once.
def unsubscribe (i : Nat) (b : Broker μ) : Option (Broker μ) :=
  if (b.sub i).watched ∧ (b.sub i).ctxDone then
    some { b with
      subs := update b.subs (b.sub i).topic ((b.subs (b.sub i).topic).erase i)
      sub := update b.sub i { b.sub i with watched := false, closing := true } }
  else none

def closeSubscription (i : Nat) (b : Broker μ) : Option (Broker μ) :=
  if (b.sub i).closing then
    some (b.setSub i { b.sub i with closed := true, watched := false, closing := false })
  else none

-- The part of Close under mu.
def close (b : Broker μ) : Broker μ :=
  { b with
    closed := true
    subs := fun _ => []
    backlog := fun _ => []
    unheard := fun _ => []
    sub := fun i => if i ∈ b.subs (b.sub i).topic then { b.sub i with closing := true } else b.sub i }

def receive (i : Nat) (b : Broker μ) : Option (Broker μ) :=
  match (b.sub i).returned, (b.sub i).ch with
  | true, msg :: rest => some (b.setSub i { b.sub i with ch := rest, received := (b.sub i).received ++ [msg] })
  | _, _ => none

inductive Action (μ : Type) where
  | publish (p : Nat) (topic : GoString) (messages : List (Option μ))
  | publishOne (p : Nat)
  | deliver (p i : Nat) (ctxWins : Bool)
  | subscribe (topic : GoString) (expired : Bool)
  | deliverBacklog (i : Nat) (ctxWins : Bool)
  | watchCancel (i : Nat)
  | cancel (i : Nat)
  | unsubscribe (i : Nat)
  | closeSubscription (i : Nat)
  | close
  | receive (i : Nat)

def step (b : Broker μ) : Action μ → Option (Broker μ)
  | .publish p topic messages => b.publish p topic messages
  | .publishOne p => b.publishOne p
  | .deliver p i ctxWins => b.deliver p i ctxWins
  | .subscribe topic expired => b.subscribe topic expired
  | .deliverBacklog i ctxWins => b.deliverBacklog i ctxWins
  | .watchCancel i => b.watchCancel i
  | .cancel i => b.cancel i
  | .unsubscribe i => b.unsubscribe i
  | .closeSubscription i => b.closeSubscription i
  | .close => some b.close
  | .receive i => b.receive i

end Broker

end Brainkit.Transport
