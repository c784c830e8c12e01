import Mathlib.Data.List.Perm.Basic
import Brainkit.Library.GoText

set_option autoImplicit false

namespace Brainkit.Engine

open Function (update)
open GoText

-- The delays of a policy only say when a retry is published.
structure RetryPolicy where
  maxRetries : Int
  deadLetterTopic : GoString
deriving DecidableEq

-- retryCount is the number in the metadata, 0 when there is none or it is not a number.
structure Message where
  payload : GoString
  callerID : GoString
  retryCount : Int
  replyTo : GoString
  correlationId : GoString
deriving DecidableEq

-- What the failure path publishes besides the retries, with the fields of each event.
inductive Publication where
  | handlerFailed (topic source error : GoString) (retryCount : Int) (willRetry : Bool)
  | errorReply (replyTo correlationId error : GoString)
  | deadLetter (deadLetterTopic originalTopic originalPayload error : GoString) (retryCount : Int) (source : GoString)
  | handlerExhausted (topic source error : GoString) (retryCount : Int) (correlationId : GoString)
deriving DecidableEq

def Publication.isErrorReply : Publication → Bool
  | .errorReply _ _ _ => true
  | _ => false

def Publication.isDeadLetter : Publication → Bool
  | .deadLetter _ _ _ _ _ _ => true
  | _ => false

-- policies is the map in the order in which the range over it visits the entries.
def findRetryPolicy {Policy : Type} (policies : List (GoString × Policy)) (topic : GoString) : Option Policy :=
  match policies.find? fun entry => entry.1 = topic with
  | some entry => some entry.2
  | none => (policies.find? fun entry => lit ".*" <:+ entry.1 ∧ entry.1.dropLast <+: topic).map Prod.snd

def sendErrorResponse (msg : Message) (error : GoString) : List Publication :=
  if msg.replyTo = [] then [] else [.errorReply msg.replyTo msg.correlationId error]

def deadLetter (msg : Message) (topic error : GoString) (retries : Int) (policy : RetryPolicy) : List Publication :=
  if policy.deadLetterTopic = [] then []
  else [.deadLetter policy.deadLetterTopic topic msg.payload error retries msg.callerID]

-- handleHandlerFailure of a kernel with the given callerID: what it publishes and the retry that it schedules.
def handleHandlerFailure (policy : Option RetryPolicy) (callerID topic : GoString) (msg : Message) (error : GoString) :
    List Publication × Option Message :=
  match policy with
  | none => (.handlerFailed topic callerID error msg.retryCount false :: sendErrorResponse msg error, none)
  | some policy =>
      let failed := .handlerFailed topic callerID error msg.retryCount (msg.retryCount < policy.maxRetries)
      if policy.maxRetries = 0 then (failed :: sendErrorResponse msg error, none)
      else if policy.maxRetries ≤ msg.retryCount then
        let exhausted := lit "handler failed after " ++ decimal msg.retryCount ++ lit " retries: " ++ error
        (failed :: deadLetter msg topic error msg.retryCount policy ++ sendErrorResponse msg exhausted ++
          [.handlerExhausted topic callerID error msg.retryCount msg.correlationId], none)
      else ([failed], some ⟨msg.payload, callerID, msg.retryCount + 1, msg.replyTo, msg.correlationId⟩)

structure Subscribers where
  policies : List (GoString × RetryPolicy)
  callerID : GoString
  topic : GoString
  subscribed : Nat → Bool

-- What becomes of one original message: the messages on the topic that come from it, numbered as they are published,
-- the handlers that each has been given to and in which it failed, the retries that wait for their delay, and what has
-- been published elsewhere. invocations counts the calls of each handler.
structure Retries where
  message : Nat → Message
  created : Nat
  invoked : Nat → Nat → Bool
  failed : Nat → Nat → Bool
  invocations : Nat → Nat
  waiting : List Message
  published : List Publication

def Retries.start (original : Message) : Retries where
  message := fun _ => original
  created := 1
  invoked := fun _ _ => false
  failed := fun _ _ => false
  invocations := fun _ => 0
  waiting := []
  published := []

namespace Retries

def invoke (bus : Subscribers) (m h : Nat) (s : Retries) : Option Retries :=
  if m < s.created ∧ bus.subscribed h ∧ s.invoked m h = false then
    some { s with
      invoked := update s.invoked m (update (s.invoked m) h true)
      invocations := update s.invocations h (s.invocations h + 1) }
  else none

def fail (bus : Subscribers) (order : List (GoString × RetryPolicy)) (m h : Nat) (error : GoString) (s : Retries) : Retries :=
  let (published, retry) :=
    handleHandlerFailure (findRetryPolicy order bus.topic) bus.callerID bus.topic (s.message m) error
  { s with
    failed := update s.failed m (update (s.failed m) h true)
    waiting := s.waiting ++ retry.toList
    published := s.published ++ published }

def republish (i : Nat) (s : Retries) : Option Retries :=
  match s.waiting[i]? with
  | some retry => some { s with
      message := update s.message s.created retry
      created := s.created + 1
      waiting := s.waiting.eraseIdx i }
  | none => none

-- A retry whose delay has not passed when shutdownCtx is cancelled is dropped.
def abandon (i : Nat) (s : Retries) : Option Retries :=
  if i < s.waiting.length then some { s with waiting := s.waiting.eraseIdx i } else none

inductive Action where
  | succeeds (m h : Nat)
  | fails (m h : Nat) (error : GoString) (order : List (GoString × RetryPolicy))
  | republish (i : Nat)
  | abandon (i : Nat)

def step (bus : Subscribers) (s : Retries) : Action → Option Retries
  | .succeeds m h => s.invoke bus m h
  | .fails m h error order => if order.Perm bus.policies then (s.invoke bus m h).map (fail bus order m h error) else none
  | .republish i => s.republish i
  | .abandon i => s.abandon i

end Retries

end Brainkit.Engine
