import Brainkit.Sdk.PendingCall

set_option autoImplicit false

-- generateWithApproval: the loop over the suspensions of an agent, with the request and the decision of each.
namespace Brainkit.Runtime.Approval

open Sdk

inductive JsNumber where
  | finite (value : Rat)
  | infinite (negative : Bool)
  | nan
deriving DecidableEq

-- A value as the loop reads it. Functions have no field that it asks for, and count as objects.
inductive JsValue where
  | undefined
  | null
  | bool (flag : Bool)
  | number (value : JsNumber)
  | text (value : String)
  | array (items : List JsValue)
  | object (fields : List (String × JsValue))

namespace JsValue

def truthy : JsValue → Bool
  | undefined | null => false
  | bool flag => flag
  | number (.finite value) => value ≠ 0
  | number (.infinite _) => true
  | number .nan => false
  | text value => value ≠ ""
  | array _ | object _ => true

-- value.key of a value that is neither null nor undefined.
def get (value : JsValue) (key : String) : JsValue :=
  match value with
  | object fields => (fields.lookup key).getD undefined
  | _ => undefined

def set (value : JsValue) (key : String) (field : JsValue) : JsValue :=
  match value with
  | object fields => object ((key, field) :: fields.filter (·.1 ≠ key))
  | other => other

def both (first second : JsValue) : JsValue := if first.truthy then second else first

def either (first second : JsValue) : JsValue := if first.truthy then first else second

def isUndefined : JsValue → Bool
  | undefined => true
  | _ => false

def isText (value : JsValue) (expected : String) : Bool :=
  match value with
  | text actual => actual = expected
  | _ => false

def isFalse : JsValue → Bool
  | bool false => true
  | _ => false

def nullish : JsValue → Bool
  | undefined | null => true
  | _ => false

end JsValue

open JsValue

def suspended (result : JsValue) : Bool :=
  result.truthy && (result.get "finishReason").isText "suspended" && (result.get "runId").truthy

def suspendField (result : JsValue) (key : String) : JsValue :=
  both (result.get "suspendPayload") ((result.get "suspendPayload").get key)

def normalizeToolResult (tr : JsValue) : JsValue :=
  let payload := tr.get "payload"
  if tr.truthy && payload.truthy && !(payload.get "toolName").isUndefined then
    object [("toolCallId", either (payload.get "toolCallId") (tr.get "toolCallId")), ("toolName", payload.get "toolName"),
      ("args", payload.get "args"), ("result", payload.get "result")]
  else tr

def normalize (result : JsValue) : JsValue :=
  match result.get "toolResults" with
  | array items => result.set "toolResults" (array (items.map normalizeToolResult))
  | _ => result

-- approvalTopic is empty where it is missing; the options of the loop are the ones that are not passed on.
structure Options where
  approvalTopic : String
  timeout : Option JsNumber
  maxApprovalCycles : Option JsNumber
  rest : List (String × JsValue)

-- mastra is what getMastraInstance returns, where the agent has it; name is there when it is truthy.
structure Agent where
  generates : Bool
  mastra : Option Bool
  name : Option String

-- option || default
def numberOr (default : Rat) : Option JsNumber → JsNumber
  | none | some .nan | some (.finite 0) => .finite default
  | some value => value

def timeoutOf (options : Options) : JsNumber := numberOr 30000 options.timeout

def limitOf (options : Options) : JsNumber := numberOr 8 options.maxApprovalCycles

-- cycles >= maxApprovalCycles
def exceeds (cycles : Nat) : JsNumber → Bool
  | .finite limit => limit ≤ (cycles : Int)
  | .infinite negative => negative
  | .nan => false

def agentOptions (options : Options) : JsValue := (object options.rest).set "requireToolApproval" (.bool true)

def approvalPayload (result : JsValue) (cycles : Nat) : JsValue :=
  object [("runId", result.get "runId"), ("toolCallId", suspendField result "toolCallId"),
    ("toolName", suspendField result "toolName"), ("args", suspendField result "args"),
    ("cycle", .number (.finite cycles))]

def resumeOpts (options : Options) (result : JsValue) : JsValue :=
  ((agentOptions options).set "runId" (result.get "runId")).set "toolCallId" (suspendField result "toolCallId")

-- What the bridge has of the request: no caller, a caller that is closed, or what Call has returned.
inductive Outcome where
  | absent
  | closed
  | returned (out : CallReturn)

-- What the promise of generateWithApproval is rejected with. The text of exceeded has the limit as String(..) gives it.
inductive Failure where
  | error (message : String)
  | exceeded (maxApprovalCycles : JsNumber)
  | agent (err : String)
  | call (out : Outcome)
  | syntaxError
  | typeError

def timeoutResponse : JsValue := object [("approved", .bool false), ("reason", .text "timeout")]

-- A timeout and a cancellation are both the end of the context of the call.
def lapsed : Outcome → Bool
  | .returned (.failure .contextDone) => true
  | _ => false

-- The bridge and the JSON.parse of what it resolves to; parse is none where JSON.parse throws.
def awaitApproval (parse : RawMessage → Option JsValue) (out : Outcome) : Except Failure JsValue :=
  match out with
  | .absent => .error (.error "await_approval: caller not initialized")
  | .returned (.success data) => match parse (data.getD []) with
      | some response => .ok response
      | none => .error .syntaxError
  | _ => if lapsed out then .ok timeoutResponse else .error (.call out)

-- inbox are the terminal messages with the correlation id of the request that have come until the call returned.
inductive Event where
  | generate (options : JsValue)
  | result (value : JsValue)
  | request (topic : String) (payload : JsValue) (timeout : JsNumber)
  | outcome (inbox : List Message) (out : Outcome)
  | approve (options : JsValue)
  | decline (options : JsValue)

inductive Phase where
  | generating
  | asking (result : JsValue) (call : Option PendingCall)
  | resuming
  | returned (result : JsValue)
  | threw (err : Failure)

-- events is history, but for it the loop is its phase and the number of its cycles.
structure Loop where
  phase : Phase
  cycles : Nat
  events : List Event

inductive CallerState where
  | absent
  | closed
  | ready

-- What the loop waits for: the promise of a call of the agent, or the end of the approval request, which is a call of
-- the caller with all its steps.
inductive Answer where
  | agent (settled : Except String JsValue)
  | caller (state : CallerState)
  | call (action : PendingCall.Action)
  | settled

def errNoParent (agent : Agent) : String :=
  let name := agent.name.getD "name"
  "generateWithApproval: agent has no Mastra parent. Wrap it with `new Mastra(\x7b agents: \x7b '" ++ name ++
    "': agent \x7d, storage: new InMemoryStore() \x7d)` and pass `mastra.getAgent('" ++ name ++
    "')` to generateWithApproval. Without a Mastra parent the resume path cannot load the workflow snapshot."

def callerConfig : CallerConfig := ⟨false, 0, .block⟩

def returnOf : CallPc → Option CallReturn
  | .answered _ _ out => some out
  | .failed err => some (.failure err)
  | _ => none

namespace Loop

def generateWithApproval (options : Options) (agent : Agent) : Loop :=
  if options.approvalTopic = "" then ⟨.threw (.error "generateWithApproval: approvalTopic is required"), 0, []⟩
  else if !agent.generates then
    ⟨.threw (.error "generateWithApproval: agent is required and must expose .generate()"), 0, []⟩
  else if agent.mastra = some false then ⟨.threw (.error (errNoParent agent)), 0, []⟩
  else ⟨.generating, 0, [.generate (agentOptions options)]⟩

def throws (err : Failure) (events : List Event) (s : Loop) : Loop :=
  { s with phase := .threw err, events := s.events ++ events }

def settle (options : Options) (result : JsValue) (s : Loop) : Loop :=
  if suspended result then
    if exceeds s.cycles (limitOf options) then s.throws (.exceeded (limitOf options)) [.result result]
    else {
      phase := .asking result none
      cycles := s.cycles + 1
      events := s.events ++ [.result result,
        .request options.approvalTopic (approvalPayload result (s.cycles + 1)) (timeoutOf options)] }
  else { s with phase := .returned (normalize result), events := s.events ++ [.result result] }

-- The rest of the body, with what has become of the request. A reply of null has no field to read.
def decide (parse : RawMessage → Option JsValue) (options : Options) (result : JsValue) (inbox : List Message)
    (out : Outcome) (s : Loop) : Loop :=
  match awaitApproval parse out with
  | .error err => s.throws err [.outcome inbox out]
  | .ok response =>
      if response.nullish then s.throws .typeError [.outcome inbox out]
      else if !(response.get "approved").isFalse then
        { s with phase := .resuming, events := s.events ++ [.outcome inbox out, .approve (resumeOpts options result)] }
      else { s with phase := .resuming, events := s.events ++ [.outcome inbox out, .decline (resumeOpts options result)] }

variable (parse : RawMessage → Option JsValue) (decodeEnvelope : RawMessage → Option Envelope) (options : Options)

def step (s : Loop) : Answer → Option Loop
  | .agent settled => match s.phase, settled with
      | .generating, .ok result | .resuming, .ok result => some (s.settle options result)
      | .generating, .error err | .resuming, .error err => some (s.throws (.agent err) [])
      | _, _ => none
  | .caller state => match s.phase, state with
      | .asking result none, .absent => some (s.decide parse options result [] .absent)
      | .asking result none, .closed => some (s.decide parse options result [] .closed)
      | .asking result none, .ready =>
          some { s with phase := .asking result (some (PendingCall.start callerConfig)) }
      | _, _ => none
  | .call action => match s.phase with
      | .asking result (some p) => (p.step callerConfig decodeEnvelope action).map fun next =>
          { s with phase := .asking result (some next) }
      | _ => none
  | .settled => match s.phase with
      | .asking result (some p) => (returnOf p.call).map fun out =>
          s.decide parse options result p.terminals (.returned out)
      | _ => none

end Loop

end Brainkit.Runtime.Approval
