import Brainkit.Transport.Memory

set_option autoImplicit false

namespace Brainkit.Transport

open Function (update)
open GoText

-- A call of PublishRaw or PublishRawToNamespace with a replyTo in its context, which differ in the topic of the
-- request only: the subscription that declares the topic, then the publish.
inductive CallPc where
  | idle
  | subscribing (i : Nat)
  | declared
  | done
deriving DecidableEq

def Broker.published {μ : Type} (b : Broker μ) (topic : GoString) : Broker.Action μ → Option (Message μ)
  | .publishOne p => match b.publisher p with
      | .looping other (some content :: _) => if b.closed ∨ other ≠ topic then none else some ⟨content, p⟩
      | _ => none
  | _ => none

def Broker.Action.subscribesTo {μ : Type} (topic : GoString) : Broker.Action μ → Bool
  | .subscribe other _ => other = topic
  | _ => false

-- The clients on one broker around one replyTo topic. requester is the requester's own subscription to it. replies is
-- history: what was published on the topic before that subscription.
structure RemoteClient (μ : Type) where
  broker : Broker μ
  call : Nat → CallPc
  requester : Option Nat
  replies : List (Message μ)

namespace RemoteClient

variable {μ : Type}

def start : RemoteClient μ := ⟨.newMemoryBroker, fun _ => .idle, none, []⟩

def setCall (c : RemoteClient μ) (k : Nat) (pc : CallPc) : RemoteClient μ := { c with call := update c.call k pc }

-- An error of Subscribe is ignored.
def predeclare (replyTo : GoString) (k : Nat) (expired : Bool) (c : RemoteClient μ) : Option (RemoteClient μ) :=
  match c.call k with
  | .idle => (c.broker.subscribe replyTo expired).map fun b => { c with broker := b }.setCall k
      (if b.created = c.broker.created then .declared else .subscribing c.broker.created)
  | _ => none

-- The channel of the subscription has been dropped when Subscribe returns.
def preCancel (k : Nat) (c : RemoteClient μ) : Option (RemoteClient μ) :=
  match c.call k with
  | .subscribing i =>
      if (c.broker.sub i).returned then (c.broker.cancel i).map fun b => { c with broker := b }.setCall k .declared
      else none
  | _ => none

-- The publish of the request, which call k makes as publisher k.
def request (k : Nat) (topic : GoString) (content : μ) (c : RemoteClient μ) : Option (RemoteClient μ) :=
  match c.call k with
  | .declared => (c.broker.publish k topic [some content]).map fun b => { c with broker := b }.setCall k .done
  | _ => none

def subscribeTo (replyTo : GoString) (expired : Bool) (c : RemoteClient μ) : Option (RemoteClient μ) :=
  match c.requester with
  | none => (c.broker.subscribe replyTo expired).map fun b => { c with
      broker := b
      requester := if b.created = c.broker.created then none else some c.broker.created }
  | some _ => none

-- broker stands for the other steps: of the responder, of other users of the broker, and of the goroutines behind the
-- calls. They make no subscription to replyTo.
inductive Action (μ : Type) where
  | predeclare (k : Nat) (expired : Bool)
  | preCancel (k : Nat)
  | request (k : Nat) (topic : GoString) (content : μ)
  | subscribeTo (expired : Bool)
  | broker (action : Broker.Action μ)

def step (replyTo : GoString) (c : RemoteClient μ) : Action μ → Option (RemoteClient μ)
  | .predeclare k expired => c.predeclare replyTo k expired
  | .preCancel k => c.preCancel k
  | .request k topic content => c.request k topic content
  | .subscribeTo expired => c.subscribeTo replyTo expired
  | .broker action =>
      if action.subscribesTo replyTo then none
      else (c.broker.step action).map fun b => { c with
        broker := b
        replies := if c.requester = none then c.replies ++ (c.broker.published replyTo action).toList else c.replies }

end RemoteClient

end Brainkit.Transport
