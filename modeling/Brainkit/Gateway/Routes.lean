import Brainkit.Library.Holdings
import Brainkit.Transport.Publish

set_option autoImplicit false

namespace Brainkit.Gateway

open GoText Joined Transport

inductive RouteType where
  | handle
  | stream
  | webhook
  | websocket
  | websocketAudio
  | static
deriving DecidableEq

def routeTypeFromName (name : GoString) : RouteType :=
  switch name [(lit "stream", .stream), (lit "webhook", .webhook), (lit "websocket", .websocket),
    (lit "websocket-audio", .websocketAudio), (lit "static", .static)] .handle

-- config is what only Go code sets: the options of the route and its file system.
structure Route (C : Type) where
  method : GoString
  path : GoString
  topic : GoString
  outTopic : GoString
  type : RouteType
  owner : GoString
  config : C
deriving DecidableEq

def Route.key {C : Type} (r : Route C) : GoString × GoString := (r.method, r.path)

abbrev RouteTable (C : Type) := List (Route C)

namespace RouteTable

variable {C : Type}

def add (r : Route C) (t : RouteTable C) : RouteTable C := Holdings.put Route.key r t

def find (method path : GoString) (t : RouteTable C) : Option (Route C) := Holdings.held Route.key (method, path) t

def remove (method path : GoString) (t : RouteTable C) : RouteTable C × Bool :=
  (Holdings.drop Route.key (method, path) t, (t.find method path).isSome)

def ownerFor (method path : GoString) (t : RouteTable C) : Option GoString := (t.find method path).map Route.owner

def removeByOwner (owner : GoString) (t : RouteTable C) : RouteTable C × Nat :=
  (Holdings.others Route.owner owner t, t.countP fun r => r.owner = owner)

end RouteTable

structure GatewayRouteAddMsg where
  method : GoString
  path : GoString
  topic : GoString
  type : GoString
  owner : GoString

structure GatewayRouteRemoveMsg where
  method : GoString
  path : GoString
  owner : GoString

-- A payload as json.Unmarshal reads it for the two handlers, or the text of its error.
structure Payload where
  add : Except GoString GatewayRouteAddMsg
  remove : Except GoString GatewayRouteRemoveMsg

inductive Response where
  | error (text : GoString)
  | added
  | removed (count : Nat)

def ts : GoString := lit ".ts"

def routeMutationCaller (metadata : Metadata) : GoString × Bool :=
  let callerID := trimSpace (metadata.get (lit "callerId"))
  let source := trimSpace (metadata.get (lit "brainkit.caller.source"))
  let callerSource := if source = [] then callerID else source
  if metadata.get (lit "brainkit.caller.kind") = lit "deployment" then (callerSource, true)
  else (callerSource, ts.isSuffixOf callerSource)

def trimSuffix (text ending : GoString) : GoString :=
  if ending.isSuffixOf text then text.take (text.length - ending.length) else text

def topicOwnedBySource (topic source : GoString) : Bool :=
  if topic = [] || source = [] then false
  else
    let name := replacer (lit "/") dot (trimSuffix (trimSuffix source ts) (lit ".js"))
    (lit "ts." ++ name ++ lit ".").isPrefixOf topic

variable {C : Type}

-- What the add handler checks of a deployment: the owner of the route, or the text of the refusal.
def addOwner (t : RouteTable C) (caller : GoString × Bool) (req : GatewayRouteAddMsg) : Except GoString GoString :=
  let owner := trimSpace req.owner
  if caller.2 then
    if caller.1 = [] then .error (lit "deployment caller source is required")
    else if owner ≠ [] ∧ owner ≠ caller.1 then .error (lit "cannot add route owned by " ++ owner)
    else match t.ownerFor req.method req.path with
      | some existing =>
          if existing ≠ caller.1 then .error (lit "cannot replace route owned by " ++ existing)
          else if topicOwnedBySource req.topic caller.1 then .ok caller.1
          else .error (lit "cannot add route for topic outside " ++ caller.1)
      | none =>
          if topicOwnedBySource req.topic caller.1 then .ok caller.1
          else .error (lit "cannot add route for topic outside " ++ caller.1)
  else .ok owner

def GatewayRouteAddMsg.route [Inhabited C] (req : GatewayRouteAddMsg) (owner : GoString) : Route C where
  method := req.method
  path := req.path
  topic := req.topic
  outTopic := []
  type := routeTypeFromName req.type
  owner := owner
  config := default

def routeAdd [Inhabited C] (t : RouteTable C) (msg : BusMessage Payload) : RouteTable C × Response :=
  match msg.payload.add with
  | .error text => (t, .error (lit "invalid payload: " ++ text))
  | .ok req => match addOwner t (routeMutationCaller msg.metadata) req with
    | .error text => (t, .error text)
    | .ok owner => (t.add (req.route owner), .added)

def routeRemove (t : RouteTable C) (msg : BusMessage Payload) : RouteTable C × Response :=
  match msg.payload.remove with
  | .error text => (t, .error (lit "invalid payload: " ++ text))
  | .ok req =>
      let caller := routeMutationCaller msg.metadata
      if req.owner ≠ [] then
        if caller.2 ∧ req.owner ≠ caller.1 then (t, .error (lit "cannot remove routes owned by " ++ req.owner))
        else ((t.removeByOwner req.owner).1, .removed (t.removeByOwner req.owner).2)
      else if req.method ≠ [] ∧ req.path ≠ [] then
        match t.ownerFor req.method req.path with
        | some owner =>
            if caller.2 ∧ owner ≠ caller.1 then (t, .error (lit "cannot remove route owned by " ++ owner))
            else ((t.remove req.method req.path).1, .removed (if (t.remove req.method req.path).2 then 1 else 0))
        | none => (t, .removed 0)
      else (t, .removed 0)

-- A message of the transport goes to the handler that is subscribed to its topic under the gateway's own namespace.
def handleMessage [Inhabited C] (c : Sender) (t : RouteTable C) (msg : BusMessage Payload) : RouteTable C × Option Response :=
  if msg.topic = c.backend.resolvedTopic c.ns (lit "gateway.http.route.add") then
    ((routeAdd t msg).1, some (routeAdd t msg).2)
  else if msg.topic = c.backend.resolvedTopic c.ns (lit "gateway.http.route.remove") then
    ((routeRemove t msg).1, some (routeRemove t msg).2)
  else (t, none)

def parting (byte : UInt8) : Bool := byte = 47 || byte = dot

def stem (source : GoString) : GoString := trimSuffix (trimSuffix source ts) (lit ".js")

def segments (source : GoString) : List GoString := (stem source).splitOnP parting

def mailbox (source : GoString) : GoString := lit "ts." ++ replacer (lit "/") dot (stem source) ++ [dot]

def Apart (s₁ s₂ : GoString) : Prop := ¬ segments s₁ <+: segments s₂ ∧ ¬ segments s₂ <+: segments s₁

theorem owned_iff (topic source : GoString) :
    topicOwnedBySource topic source = true ↔ source ≠ [] ∧ mailbox source <+: topic := by
  unfold topicOwnedBySource
  by_cases noSource : source = []
  · simp [noSource]
  · by_cases noTopic : topic = []
    · simp [noTopic, mailbox]
    · rw [if_neg (by simp [noTopic, noSource]), List.isPrefixOf_iff_prefix]
      exact (and_iff_right noSource).symm

theorem mailbox_closed (source : GoString) : mailbox source = lit "ts." ++ closed dot (segments source) := by
  have parted : replacer (lit "/") dot (stem source) = (stem source).map fun byte => if parting byte then dot else byte := by
    have slash : lit "/" = [47] := by decide +kernel
    refine List.map_congr_left fun byte _ => ?_
    by_cases dotted : byte = dot <;> simp [slash, parting, dotted]
  rw [segments, closed_splitOnP, mailbox, parted, List.append_assoc]

theorem mailbox_prefix_iff (s₁ s₂ : GoString) : mailbox s₁ <+: mailbox s₂ ↔ segments s₁ <+: segments s₂ := by
  have outside (source part : GoString) (listed : part ∈ segments source) : dot ∉ part := fun inside =>
    absurd (splitOnP_outside listed dot inside) (by decide)
  rw [mailbox_closed, mailbox_closed, List.prefix_append_right_inj]
  exact closed_prefix_iff (outside s₁) (outside s₂)

theorem both_owned_iff {s₁ s₂ : GoString} (present : s₁ ≠ []) (present' : s₂ ≠ []) :
    (∃ topic, topicOwnedBySource topic s₁ = true ∧ topicOwnedBySource topic s₂ = true) ↔ ¬ Apart s₁ s₂ := by
  simp only [owned_iff, ne_eq, present, present', not_false_eq_true, true_and, Apart, ← mailbox_prefix_iff]
  constructor
  · rintro ⟨topic, first, second⟩ ⟨notFirst, notSecond⟩
    rcases List.prefix_or_prefix_of_prefix first second with shorter | shorter
    · exact notFirst shorter
    · exact notSecond shorter
  · intro near
    by_cases shorter : mailbox s₁ <+: mailbox s₂
    · exact ⟨mailbox s₂, shorter, List.prefix_refl _⟩
    · exact ⟨mailbox s₁, List.prefix_refl _, by_contra fun longer => near ⟨shorter, longer⟩⟩

theorem ownership_disjoint_iff_segments_apart (s₁ s₂ : GoString) :
    ((∀ topic, topicOwnedBySource topic s₁ = true → topicOwnedBySource topic s₂ = true → s₁ = s₂) ↔
      s₁ = s₂ ∨ s₁ = [] ∨ s₂ = [] ∨ Apart s₁ s₂) ∧
    ((s₁ ≠ s₂ → ¬ mailbox s₁ <+: mailbox s₂ ∧ ¬ mailbox s₂ <+: mailbox s₁) ↔
      s₁ = s₂ ∨ Apart s₁ s₂) := by
  refine ⟨?_, ?_⟩
  · by_cases absent : s₁ = []
    · simp [absent, owned_iff]
    · by_cases absent' : s₂ = []
      · simp [absent', owned_iff]
      · have both := both_owned_iff absent absent'
        constructor
        · intro disjoint
          by_contra near
          obtain ⟨different, -, -, near⟩ : s₁ ≠ s₂ ∧ s₁ ≠ [] ∧ s₂ ≠ [] ∧ ¬ Apart s₁ s₂ := by
            simpa [not_or] using near
          obtain ⟨topic, first, second⟩ := both.mpr near
          exact different (disjoint topic first second)
        · rintro (same | none | none | apart) topic first second
          · exact same
          · exact absurd none absent
          · exact absurd none absent'
          · exact absurd apart (both.mp ⟨topic, first, second⟩)
  · rw [mailbox_prefix_iff, mailbox_prefix_iff, ← Apart]
    exact Decidable.or_iff_not_imp_left.symm

theorem sibling_sources_share_topics :
    ¬ ∀ topic s₁ s₂ : GoString,
      topicOwnedBySource topic s₁ = true → topicOwnedBySource topic s₂ = true → s₁ = s₂ := by
  intro disjoint
  exact absurd (disjoint (lit "ts.billing.eu.pay") (lit "billing.ts") (lit "billing/eu.ts") (by decide +kernel)
    (by decide +kernel)) (by decide +kernel)

end Brainkit.Gateway
