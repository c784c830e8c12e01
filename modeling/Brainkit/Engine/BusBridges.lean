import Brainkit.Engine.CommandCatalog
import Brainkit.Sdk.PendingCall
import Brainkit.Transport.Publish

set_option autoImplicit false

namespace Brainkit.Engine

open GoText Transport Sdk

inductive Thrown where
  | brainkit (err : BrainkitError)
  | plain (text : GoString)

def errCommandTopic : GoString := lit "brainkit: topic is a command topic, not an event topic"

-- event is the check of a topic of the event catalog, with the text of its error. inbox is that of the shared Caller,
-- none before there is one.
structure Kernel (P : Type) where
  remote : Sender
  catalog : CommandRegistry
  event : GoString → P → Option GoString
  inbox : Option GoString

structure CallerConfig where
  targetNamespace : GoString
  callerID : GoString
  metadata : Metadata
  bufferSize : Int32
  bufferPolicy : BufferPolicy

def callerKind : GoString := lit "brainkit.caller.kind"

def callerSource : GoString := lit "brainkit.caller.source"

def callerCfg (targetNamespace source : GoString) : CallerConfig :=
  let source := trimSpace source
  if source = [] then ⟨targetNamespace, [], .empty, 0, .block⟩
  else ⟨targetNamespace, source,
    (Metadata.empty.set callerKind (lit "deployment")).set callerSource source, 0, .block⟩

def busCallerCfg (targetNamespace source : GoString) (bufferSize : Int32) (bufferPolicy : BufferPolicy) : CallerConfig :=
  { callerCfg targetNamespace source with bufferSize := bufferSize, bufferPolicy := bufferPolicy }

def parseBusBufferPolicy (raw : GoString) : Except Thrown BufferPolicy :=
  switch raw [([], .ok .block), (lit "block", .ok .block), (lit "dropNewest", .ok .dropNewest),
      (lit "dropOldest", .ok .dropOldest), (lit "error", .ok .error)]
    (.error (.brainkit (.validationError (lit "bufferPolicy") (lit "bus.callStream: invalid bufferPolicy"))))

-- One use of a bridge by deployed code. id is the UUID that is drawn for it; current is what CurrentSource returns when
-- the goroutine of a call comes to read it.
inductive BusOp (P : Type) where
  | send (topic : GoString) (payload : P) (id : GoString)
  | publish (topic : GoString) (payload : P) (id : GoString)
  | emit (topic : GoString) (payload : P) (id : GoString)
  | call (topic : GoString) (payload : P) (targetNS : GoString) (timeoutMs : Int32) (current id : GoString)
  | callStream (topic : GoString) (payload : P) (targetNS : GoString) (timeoutMs : Int32) (streamID : GoString)
      (bufferSize : Int32) (bufferPolicy : GoString) (current id : GoString)

def BusOp.current {P : Type} : BusOp P → Option GoString
  | .send _ _ _ | .publish _ _ _ | .emit _ _ _ => none
  | .call _ _ _ _ current _ | .callStream _ _ _ _ _ _ _ current _ => some current

namespace Kernel

variable {P : Type}

def validateEvent (k : Kernel P) (topic : GoString) (payload : P) : Except Thrown Unit :=
  if k.catalog.hasCommand topic then .error (.plain (errCommandTopic ++ lit ": " ++ topic))
  else match k.event topic payload with
    | some text => .error (.plain text)
    | none => .ok ()

def request (k : Kernel P) (inbox : GoString) (cfg : CallerConfig) (topic : GoString) (payload : P) (id : GoString) :
    BusMessage P :=
  let pubCtx := { Ctx.background with
    correlationID := id
    replyTo := inbox
    callerID := cfg.callerID
    metadata := cfg.metadata }
  if cfg.targetNamespace = [] then k.remote.send (.publishRaw pubCtx topic payload id)
  else k.remote.send (.publishRawToNamespace pubCtx cfg.targetNamespace topic payload id)

def required (field message : String) : Thrown := .brainkit (.validationError (lit field) (lit message))

def commandTopic (topic : GoString) : Thrown :=
  .brainkit (.validationError (lit "topic") (topic ++ lit " is a command topic; use bridgeRequest for commands"))

def noCaller (function : String) : Thrown := .brainkit (.bridgeError (lit function) (some (lit "caller not initialized")))

def perform (k : Kernel P) : BusOp P → Except Thrown (BusMessage P)
  | .send topic payload id =>
      if topic = [] then .error (required "topic" "is required")
      else if k.catalog.hasCommand topic then .error (commandTopic topic)
      else match k.validateEvent topic payload with
        | .error err => .error err
        | .ok () => .ok (k.remote.send (.publishRaw .background topic payload id))
  | .publish topic payload id =>
      if topic = [] then .error (required "topic" "is required")
      else .ok (k.remote.send (.publishRaw { Ctx.background with
        correlationID := id
        replyTo := topic ++ lit ".reply." ++ id } topic payload id))
  | .emit topic payload id =>
      if topic = [] then .error (required "topic" "is required")
      else if k.catalog.hasCommand topic then .error (commandTopic topic)
      else .ok (k.remote.send (.publishRaw .background topic payload id))
  | .call topic payload targetNS timeoutMs current id =>
      if topic = [] then .error (required "topic" "is required")
      else if timeoutMs ≤ 0 then .error (required "timeoutMs" "bus.call: timeoutMs is required (> 0)")
      else match k.inbox with
        | none => .error (noCaller "bus.call")
        | some inbox => .ok (k.request inbox (callerCfg targetNS current) topic payload id)
  | .callStream topic payload targetNS timeoutMs streamID bufferSize bufferPolicy current id =>
      if topic = [] then .error (required "topic" "is required")
      else if timeoutMs ≤ 0 then .error (required "timeoutMs" "bus.callStream: timeoutMs is required (> 0)")
      else if streamID = [] then .error (required "onChunk" "bus.callStream: onChunk handler is required")
      else if bufferSize < 0 then .error (required "bufferSize" "bus.callStream: bufferSize must be >= 0")
      else match parseBusBufferPolicy bufferPolicy with
        | .error err => .error err
        | .ok policy => match k.inbox with
          | none => .error (noCaller "bus.callStream")
          | some inbox => .ok (k.request inbox (busCallerCfg targetNS current bufferSize policy) topic payload id)

inductive Sends (k : Kernel P) (op : BusOp P) : BusMessage P → Prop where
  | publish (ctx : Ctx) (topic : GoString) (payload : P) (id : GoString) (current : op.current = none) :
      Sends k op (k.remote.send (.publishRaw ctx topic payload id))
  | request (inbox : GoString) (cfg : CallerConfig) (topic : GoString) (payload : P) (id current : GoString)
      (read : op.current = some current) (metadata : cfg.metadata = (callerCfg cfg.targetNamespace current).metadata) :
      Sends k op (k.request inbox cfg topic payload id)

theorem sends_of_perform (k : Kernel P) (op : BusOp P) (msg : BusMessage P) (sent : k.perform op = .ok msg) :
    Sends k op msg := by
  have configured (targetNS current : GoString) : (callerCfg targetNS current).targetNamespace = targetNS := by
    by_cases blank : trimSpace current = []
    · simp [callerCfg, blank]
    · simp [callerCfg, blank]
  cases op with
  | send topic payload id =>
      simp only [perform] at sent
      split at sent
      · cases sent
      · split at sent
        · cases sent
        · split at sent
          · cases sent
          · cases sent
            exact .publish _ topic payload id rfl
  | publish topic payload id =>
      simp only [perform] at sent
      split at sent
      · cases sent
      · cases sent
        exact .publish _ topic payload id rfl
  | emit topic payload id =>
      simp only [perform] at sent
      split at sent
      · cases sent
      · split at sent
        · cases sent
        · cases sent
          exact .publish _ topic payload id rfl
  | call topic payload targetNS timeoutMs current id =>
      simp only [perform] at sent
      split at sent
      · cases sent
      · split at sent
        · cases sent
        · split at sent
          · cases sent
          · cases sent
            exact .request _ _ topic payload id current rfl (by rw [configured])
  | callStream topic payload targetNS timeoutMs streamID bufferSize bufferPolicy current id =>
      simp only [perform] at sent
      split at sent
      · cases sent
      · split at sent
        · cases sent
        · split at sent
          · cases sent
          · split at sent
            · cases sent
            · split at sent
              · cases sent
              · split at sent
                · cases sent
                · cases sent
                  exact .request _ _ topic payload id current rfl (by rw [busCallerCfg, configured])

end Kernel

end Brainkit.Engine
