import Brainkit.Transport.WireTopic

set_option autoImplicit false

namespace Brainkit.Transport

open Function (update)
open GoText

-- A map of the source; the order in which it is ranged over is not seen.
abbrev Metadata := GoString → Option GoString

namespace Metadata

def empty : Metadata := fun _ => none

def get (m : Metadata) (key : GoString) : GoString := (m key).getD []

def set (key value : GoString) (m : Metadata) : Metadata := update m key (some value)

def setNonempty (key value : GoString) (m : Metadata) : Metadata := if value = [] then m else m.set key value

-- for key, value := range other { m.Set(key, value) }
def setAll (m other : Metadata) : Metadata := fun key => (other key).or (m key)

end Metadata

-- What the transport keeps in a context.Context; an empty text is an absent value.
structure Ctx where
  callerID : GoString
  correlationID : GoString
  replyTo : GoString
  topic : GoString
  traceID : GoString
  spanID : GoString
  parentSpanID : GoString
  sampled : GoString
  runtimeID : GoString
  metadata : Metadata

def Ctx.background : Ctx := ⟨[], [], [], [], [], [], [], [], [], .empty⟩

structure BusMessage (P : Type) where
  topic : GoString
  payload : P
  metadata : Metadata
  ctx : Ctx

def inherit (value inherited : GoString) : GoString := if value = [] then inherited else value

def withInboundMetadata {P : Type} (ctx : Ctx) (wmsg : BusMessage P) (logicalTopic : GoString) : Ctx :=
  { ctx with
    callerID := inherit (wmsg.metadata.get (lit "callerId")) ctx.callerID
    correlationID := inherit (wmsg.metadata.get (lit "correlationId")) ctx.correlationID
    replyTo := inherit (wmsg.metadata.get (lit "replyTo")) ctx.replyTo
    topic := inherit logicalTopic ctx.topic
    traceID := inherit (wmsg.metadata.get (lit "traceId")) ctx.traceID
    parentSpanID := inherit (wmsg.metadata.get (lit "parentSpanId")) ctx.parentSpanID
    sampled := inherit (wmsg.metadata.get (lit "traceSampled")) ctx.sampled
    runtimeID := inherit (wmsg.metadata.get (lit "runtimeID")) ctx.runtimeID }

def isReservedPublishMetadata (key : GoString) : Bool :=
  key = lit "callerId" || key = lit "correlationId" || key = lit "replyTo" || key = lit "namespace" ||
    key = lit "clusterID" || key = lit "runtimeID"

-- The fields of a RemoteClient that its publish paths read.
structure Sender where
  backend : Backend
  ns : GoString
  callerID : GoString
  clusterID : GoString
  runtimeID : GoString

namespace Sender

def stampIdentity (c : Sender) (ctx : Ctx) (m : Metadata) : Metadata :=
  ((((m.setNonempty (lit "callerId") (inherit ctx.callerID c.callerID)).setNonempty
    (lit "namespace") c.ns).setNonempty
    (lit "clusterID") c.clusterID).setNonempty
    (lit "runtimeID") c.runtimeID).setAll
    fun key => if isReservedPublishMetadata key then none else ctx.metadata key

def stampTrace (ctx : Ctx) (m : Metadata) : Metadata :=
  ((m.setNonempty (lit "traceId") ctx.traceID).setNonempty (lit "parentSpanId") ctx.spanID).setNonempty
    (lit "traceSampled") ctx.sampled

def stampReplyTo (c : Sender) (ctx : Ctx) (m : Metadata) : Metadata :=
  if ctx.replyTo = [] then m else m.set (lit "replyTo") (c.backend.resolvedTopic c.ns ctx.replyTo)

end Sender

-- A call of one of the entry points that put a message on the transport; id is a fresh UUID. handleCommandMessage
-- publishes the result of a command itself.
inductive PublishCall (P : Type) where
  | publishRaw (ctx : Ctx) (logicalTopic : GoString) (payload : P) (id : GoString)
  | publishRawToNamespace (ctx : Ctx) (targetNamespace logicalTopic : GoString) (payload : P) (id : GoString)
  | publishRawWithMeta (ctx : Ctx) (logicalTopic : GoString) (payload : P) (extra : Metadata) (id : GoString)
  | publishRawGlobal (ctx : Ctx) (topic : GoString) (payload : P)
  | publish (topic : GoString) (payload : P) (callerID : GoString)
  | publishResolved (ctx : Ctx) (topic correlationID : GoString) (payload : P) (done envelope : Bool)
  | result (wmsg : BusMessage P) (payload : P)

namespace Sender

variable {P : Type}

def globalTopic (c : Sender) (topic : GoString) : GoString :=
  match c.backend.topicSanitizer with
  | some sanitize => sanitize topic
  | none => topic

def flag (key : GoString) (on : Bool) (m : Metadata) : Metadata := if on then m.set key (lit "true") else m

def send (c : Sender) : PublishCall P → BusMessage P
  | .publishRaw ctx logicalTopic payload id => {
      topic := c.backend.resolvedTopic c.ns logicalTopic
      payload := payload
      metadata := c.stampReplyTo ctx (stampTrace ctx
        ((c.stampIdentity ctx .empty).set (lit "correlationId") (inherit ctx.correlationID id)))
      ctx := ctx }
  | .publishRawToNamespace ctx targetNamespace logicalTopic payload id => {
      topic := c.backend.resolvedTopic targetNamespace logicalTopic
      payload := payload
      metadata := c.stampReplyTo ctx (stampTrace ctx
        ((c.stampIdentity ctx .empty).set (lit "correlationId") (inherit ctx.correlationID id)))
      ctx := ctx }
  | .publishRawWithMeta ctx logicalTopic payload extra id => {
      topic := c.backend.resolvedTopic c.ns logicalTopic
      payload := payload
      metadata := ((c.stampIdentity ctx .empty).set (lit "correlationId") (inherit ctx.correlationID id)).setAll extra
      ctx := ctx }
  | .publishRawGlobal ctx topic payload => {
      topic := c.globalTopic topic
      payload := payload
      metadata := c.stampIdentity ctx .empty
      ctx := ctx }
  | .publish topic payload callerID => {
      topic := topic
      payload := payload
      metadata := Metadata.empty.set (lit "callerId") callerID
      ctx := .background }
  | .publishResolved ctx topic correlationID payload done envelope => {
      topic := topic
      payload := payload
      metadata := flag (lit "envelope") envelope (flag (lit "done") done
        (Metadata.empty.setNonempty (lit "correlationId") correlationID))
      ctx := ctx }
  | .result wmsg payload => {
      topic := wmsg.metadata.get (lit "replyTo")
      payload := payload
      metadata := ((Metadata.empty.setNonempty (lit "correlationId") (wmsg.metadata.get (lit "correlationId"))).set
        (lit "done") (lit "true")).set (lit "envelope") (lit "true")
      ctx := .background }

end Sender

namespace Metadata

theorem set_other (m : Metadata) (key other value : GoString) (different : other ≠ key) :
    m.set key value other = m other := Function.update_of_ne different _ _

theorem set_nonempty_other (m : Metadata) (key other value : GoString) (different : other ≠ key) :
    m.setNonempty key value other = m other := by
  unfold setNonempty
  split
  · rfl
  · exact set_other m key other value different

end Metadata

open Metadata

namespace Sender

-- The keys that the client writes itself when it publishes.
def stamped : List GoString :=
  [lit "callerId", lit "namespace", lit "clusterID", lit "runtimeID", lit "correlationId", lit "traceId",
    lit "parentSpanId", lit "traceSampled", lit "replyTo"]

theorem ne_of_unstamped {key : GoString} (unstamped : key ∉ stamped) {own : GoString} (member : own ∈ stamped) : key ≠ own :=
  fun same => unstamped (same ▸ member)

theorem stamp_identity_unstamped (c : Sender) (ctx : Ctx) {key : GoString} (unstamped : key ∉ stamped) :
    c.stampIdentity ctx .empty key = ctx.metadata key := by
  have other {own : GoString} (member : own ∈ stamped) : key ≠ own := ne_of_unstamped unstamped member
  have unreserved : isReservedPublishMetadata key = false := by
    simp only [stamped, List.mem_cons, List.not_mem_nil, or_false, not_or] at unstamped
    simp [isReservedPublishMetadata, unstamped]
  simp only [stampIdentity, setAll, unreserved, Bool.false_eq_true, if_false]
  rw [set_nonempty_other _ _ _ _ (other (by decide)), set_nonempty_other _ _ _ _ (other (by decide)),
    set_nonempty_other _ _ _ _ (other (by decide)), set_nonempty_other _ _ _ _ (other (by decide))]
  exact Option.or_none

theorem stamp_trace_unstamped (ctx : Ctx) (m : Metadata) {key : GoString} (unstamped : key ∉ stamped) :
    stampTrace ctx m key = m key := by
  have other {own : GoString} (member : own ∈ stamped) : key ≠ own := ne_of_unstamped unstamped member
  rw [stampTrace, set_nonempty_other _ _ _ _ (other (by decide)), set_nonempty_other _ _ _ _ (other (by decide)),
    set_nonempty_other _ _ _ _ (other (by decide))]

theorem stamp_reply_to_unstamped (c : Sender) (ctx : Ctx) (m : Metadata) {key : GoString} (unstamped : key ∉ stamped) :
    c.stampReplyTo ctx m key = m key := by
  unfold stampReplyTo
  split
  · rfl
  · exact set_other _ _ _ _ (ne_of_unstamped unstamped (by decide))

theorem publish_raw_unstamped {P : Type} (c : Sender) (ctx : Ctx) (logicalTopic : GoString) (payload : P) (id : GoString)
    {key : GoString} (unstamped : key ∉ stamped) :
    (c.send (.publishRaw ctx logicalTopic payload id)).metadata key = ctx.metadata key := by
  simp only [send]
  rw [stamp_reply_to_unstamped _ _ _ unstamped, stamp_trace_unstamped _ _ unstamped,
    set_other _ _ _ _ (ne_of_unstamped unstamped (by decide)), stamp_identity_unstamped _ _ unstamped]

end Sender

end Brainkit.Transport
