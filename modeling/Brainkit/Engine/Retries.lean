import Brainkit.Engine.HandlerFailure
import Brainkit.Library.Headcount
import Brainkit.Library.Transition

set_option autoImplicit false

namespace Brainkit.Engine

open Function (update)
open Transition GoText

def maxRetries : Option RetryPolicy → Int
  | some policy => policy.maxRetries
  | none => 0

def deadLetterTopic : Option RetryPolicy → GoString
  | some policy => policy.deadLetterTopic
  | none => []

-- One dead letter with the original payload if a topic is configured, and one error reply to the original caller.
def Lettered (bus : Subscribers) (policy : Option RetryPolicy) (original : Message) (published : List Publication) : Prop :=
  if deadLetterTopic policy = [] then published.filter Publication.isDeadLetter = []
  else ∃ error retries source, published.filter Publication.isDeadLetter =
    [.deadLetter (deadLetterTopic policy) bus.topic original.payload error retries source]

def Replied (original : Message) (published : List Publication) : Prop :=
  ∃ error, published.filter Publication.isErrorReply = [.errorReply original.replyTo original.correlationId error]

structure Silent (published : List Publication) : Prop where
  letters : published.filter Publication.isDeadLetter = []
  replies : published.filter Publication.isErrorReply = []

namespace Retries

end Retries

structure Carries (original : Message) (n : Nat) (msg : Message) : Prop where
  payload : msg.payload = original.payload
  retryCount : msg.retryCount = original.retryCount + n
  replyTo : msg.replyTo = original.replyTo
  correlationId : msg.correlationId = original.correlationId

inductive FailureMoves (bus : Subscribers) (policy : Option RetryPolicy) (original : Message) (n : Nat)
    (outcome : List Publication × Option Message) : Prop where
  | retries (retry : Message) (scheduled : outcome.2 = some retry) (carries : Carries original (n + 1) retry)
      (budget : original.retryCount + (n + 1 : Nat) ≤ maxRetries policy) (silent : Silent outcome.1)
  | ends (last : outcome.2 = none) (letters : Lettered bus policy original outcome.1) (replies : Replied original outcome.1)

namespace Retries

inductive Phase (bus : Subscribers) (policy : Option RetryPolicy) (original : Message) (s : Retries) (last : Nat) : Prop where
  | untouched (clean : ∀ h, s.failed last h = false) (waiting : s.waiting = []) (silent : Silent s.published)
  | retrying (h : Nat) (failed : s.failed last h = true) (retry : Message) (waiting : s.waiting = [retry])
      (carries : Carries original (last + 1) retry) (budget : original.retryCount + (last + 1 : Nat) ≤ maxRetries policy)
      (silent : Silent s.published)
  | settled (h : Nat) (failed : s.failed last h = true) (waiting : s.waiting = [])
      (letters : Lettered bus policy original s.published) (replies : Replied original s.published)

structure Chain (bus : Subscribers) (policy : Option RetryPolicy) (original : Message) (last : Nat) (s : Retries) : Prop where
  created : s.created = last + 1
  counts : ∀ h, Headcount.Counts (fun m => s.invoked m h) (s.invocations h)
  invoked : ∀ m h, s.invoked m h = true → m < s.created
  failed : ∀ m h, s.failed m h = true → m < s.created
  carries : ∀ m < s.created, Carries original m (s.message m)
  budget : last = 0 ∨ original.retryCount + last ≤ maxRetries policy
  earlier : ∀ m < last, ∃ h, s.failed m h = true
  phase : Phase bus policy original s last

def jobPolicy : RetryPolicy := ⟨1, lit "dead"⟩

def jobs : Subscribers := ⟨[(lit "jobs", jobPolicy)], lit "kit", lit "jobs", fun h => h < 2⟩

def job : Message := ⟨lit "{}", lit "client", 0, lit "inbox", lit "call"⟩

def jobFails (m h : Nat) : Action := .fails m h (lit "boom") [(lit "jobs", jobPolicy)]

end Retries

end Brainkit.Engine
