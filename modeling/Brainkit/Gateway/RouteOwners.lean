import Brainkit.Engine.BusBridges
import Brainkit.Gateway.Routes

set_option autoImplicit false

namespace Brainkit.Gateway

open Engine GoText Holdings Transition Transport

variable {C : Type}

def Confined (source : GoString) (original t : RouteTable C) : Prop :=
  others Route.owner source t = others Route.owner source original

def RemoveConfined (source : GoString) (t : RouteTable C) (caller : GoString × Bool) (req : GatewayRouteRemoveMsg) : Prop :=
  if req.owner ≠ [] then
    (caller.2 = true ∧ req.owner ≠ caller.1) ∨ req.owner = source ∨ ∀ r ∈ t, r.owner ≠ req.owner
  else
    req.method ≠ [] → req.path ≠ [] → ∀ existing, t.ownerFor req.method req.path = some existing →
      (caller.2 = true ∧ existing ≠ caller.1) ∨ existing = source

theorem owner_for_iff (t : RouteTable C) (method path existing : GoString) :
    t.ownerFor method path = some existing ↔ ∃ old, t.find method path = some old ∧ old.owner = existing :=
  Option.map_eq_some_iff

theorem owners_confined_iff (t : RouteTable C) (method path : GoString) (allowed : GoString → Prop) :
    (∀ existing, t.ownerFor method path = some existing → allowed existing) ↔
      ∀ old, t.find method path = some old → allowed old.owner := by
  constructor
  · intro all old found
    exact all old.owner ((owner_for_iff t method path old.owner).mpr ⟨old, found, rfl⟩)
  · intro all existing found
    obtain ⟨old, at_key, same⟩ := (owner_for_iff t method path existing).mp found
    exact same ▸ all old at_key

theorem remove_iff (source : GoString) (t : RouteTable C) {method path owner : GoString}
    (found : t.ownerFor method path = some owner) : Confined source t (t.remove method path).1 ↔ owner = source := by
  obtain ⟨old, at_key, same⟩ := (owner_for_iff t method path owner).mp found
  have held : held Route.key (method, path) t = some old := at_key
  rw [Confined, RouteTable.remove, others_drop_iff, held, ← same]
  simp

theorem route_remove_iff (source : GoString) (t : RouteTable C) (msg : BusMessage Payload) :
    Confined source t (routeRemove t msg).1 ↔
      ∀ req, msg.payload.remove = .ok req → RemoveConfined source t (routeMutationCaller msg.metadata) req := by
  cases decoded : msg.payload.remove with
  | error text => simp [routeRemove, decoded, Confined]
  | ok req =>
      simp only [Except.ok.injEq, forall_eq', routeRemove, decoded, RemoveConfined]
      by_cases named : req.owner ≠ []
      · rw [if_pos named, if_pos named]
        by_cases refused : (routeMutationCaller msg.metadata).2 = true ∧ req.owner ≠ (routeMutationCaller msg.metadata).1
        · rw [if_pos refused]
          exact iff_of_true rfl (.inl refused)
        · rw [if_neg refused, or_iff_right refused]
          exact others_without_iff source req.owner t
      · rw [if_neg named, if_neg named]
        by_cases given : req.method ≠ [] ∧ req.path ≠ []
        · rw [if_pos given]
          simp only [given.1, given.2, ne_eq, not_false_eq_true, forall_const]
          cases found : t.ownerFor req.method req.path with
          | none => simp [Confined]
          | some owner =>
              simp only [Option.some.injEq, forall_eq']
              by_cases refused : (routeMutationCaller msg.metadata).2 = true ∧ owner ≠ (routeMutationCaller msg.metadata).1
              · rw [if_pos refused]
                exact iff_of_true rfl (.inl refused)
              · rw [if_neg refused, or_iff_right refused]
                exact remove_iff source t found
        · rw [if_neg given]
          exact iff_of_true rfl fun method path => absurd ⟨method, path⟩ given

theorem named_remove_confined (source : GoString) (t : RouteTable C) (req : GatewayRouteRemoveMsg) :
    RemoveConfined source t (source, true) req := by
  unfold RemoveConfined
  split
  · by_cases own : req.owner = source
    · exact .inr (.inl own)
    · exact .inl ⟨rfl, own⟩
  · intro _ _ existing _
    by_cases own : existing = source
    · exact .inr own
    · exact .inl ⟨rfl, own⟩

section

variable [Inhabited C]

-- Deployed code uses a bridge, and the gateway handles the message. A message that the transport loses is left out of
-- the sequence, one that it delivers again stands in it again.
def performs (k : Kernel Payload) (t : RouteTable C) (op : BusOp Payload) : Option (RouteTable C) :=
  match k.perform op with
  | .error _ => some t
  | .ok msg => some (handleMessage k.remote t msg).1

-- The request is refused, or it adds a route of the source where there is none or one of its own, or the route is
-- there already.
def AddConfined (source : GoString) (t : RouteTable C) (caller : GoString × Bool) (req : GatewayRouteAddMsg) : Prop :=
  ∀ owner, addOwner t caller req = .ok owner →
    t.find req.method req.path = some (req.route owner) ∨
      owner = source ∧ ∀ existing, t.ownerFor req.method req.path = some existing → existing = source

def MessageConfined (source : GoString) (c : Sender) (t : RouteTable C) (msg : BusMessage Payload) : Prop :=
  if msg.topic = c.backend.resolvedTopic c.ns (lit "gateway.http.route.add") then
    ∀ req, msg.payload.add = .ok req → AddConfined source t (routeMutationCaller msg.metadata) req
  else if msg.topic = c.backend.resolvedTopic c.ns (lit "gateway.http.route.remove") then
    ∀ req, msg.payload.remove = .ok req → RemoveConfined source t (routeMutationCaller msg.metadata) req
  else True

-- The bridge throws, or the message names the deployment itself as its caller, or it asks for nothing that is not the
-- deployment's.
def Permitted (k : Kernel Payload) (source : GoString) (t : RouteTable C) (op : BusOp Payload) : Prop :=
  ∀ msg, k.perform op = .ok msg →
    routeMutationCaller msg.metadata = (source, true) ∨ MessageConfined source k.remote t msg

theorem route_add_iff (source : GoString) (t : RouteTable C) (msg : BusMessage Payload) :
    Confined source t (routeAdd t msg).1 ↔
      ∀ req, msg.payload.add = .ok req → AddConfined source t (routeMutationCaller msg.metadata) req := by
  cases decoded : msg.payload.add with
  | error text => simp [routeAdd, decoded, Confined]
  | ok req =>
      cases checked : addOwner t (routeMutationCaller msg.metadata) req with
      | error text => simp [routeAdd, decoded, checked, Confined, AddConfined]
      | ok owner =>
          have added : (routeAdd t msg).1 = t.add (req.route owner) := by simp [routeAdd, decoded, checked]
          have key : (req.route owner : Route C).key = (req.method, req.path) := rfl
          rw [added, Confined, RouteTable.add, others_put_iff, key]
          simp only [Except.ok.injEq, forall_eq', AddConfined, checked, owners_confined_iff]
          exact Iff.rfl

theorem handle_message_iff (source : GoString) (c : Sender) (t : RouteTable C) (msg : BusMessage Payload) :
    Confined source t (handleMessage c t msg).1 ↔ MessageConfined source c t msg := by
  unfold handleMessage MessageConfined
  split
  · exact route_add_iff source t msg
  · split
    · exact route_remove_iff source t msg
    · exact iff_of_true rfl trivial

theorem named_add_confined (source : GoString) (t : RouteTable C) (req : GatewayRouteAddMsg) :
    AddConfined source t (source, true) req := by
  intro owner checked
  right
  unfold addOwner at checked
  simp only [if_true] at checked
  split at checked
  · cases checked
  · split at checked
    · cases checked
    · split at checked
      next existing found =>
        split at checked
        · cases checked
        next own =>
          split at checked
          · cases checked
            refine ⟨rfl, fun other same => ?_⟩
            rw [found, Option.some.injEq] at same
            exact same ▸ not_not.mp own
          · cases checked
      next none =>
        split at checked
        · cases checked
          refine ⟨rfl, fun other same => ?_⟩
          rw [none] at same
          cases same
        · cases checked

theorem named_confined {source : GoString} (c : Sender) (t : RouteTable C) {msg : BusMessage Payload}
    (named : routeMutationCaller msg.metadata = (source, true)) : MessageConfined source c t msg := by
  unfold MessageConfined
  rw [named]
  split
  · exact fun req _ => named_add_confined source t req
  · split
    · exact fun req _ => named_remove_confined source t req
    · trivial

theorem performs_iff (k : Kernel Payload) (source : GoString) (t : RouteTable C) (op : BusOp Payload) (next : RouteTable C)
    (taken : performs k t op = some next) : Confined source t next ↔ Permitted k source t op := by
  unfold performs at taken
  split at taken
  next err thrown =>
    cases taken
    refine iff_of_true rfl fun msg sent => ?_
    rw [thrown] at sent
    cases sent
  next msg sent =>
    cases taken
    rw [handle_message_iff, Permitted, sent]
    simp only [Except.ok.injEq, forall_eq']
    exact ⟨.inr, fun either => either.elim (named_confined k.remote t) id⟩

theorem performs_enabled (k : Kernel Payload) (t : RouteTable C) (op : BusOp Payload) : ∃ next, performs k t op = some next := by
  unfold performs
  split
  · exact ⟨_, rfl⟩
  · exact ⟨_, rfl⟩

theorem routes_confined_iff (k : Kernel Payload) (source : GoString) (original : RouteTable C)
    (ops : List (BusOp Payload)) :
    Always (performs k) (Confined source original) original ops ↔ Along (performs k) (Permitted k source) original ops := by
  have keeps : ∀ (t : RouteTable C) op next, True → performs k t op = some next → True := fun _ _ _ _ _ => trivial
  have exactly : ∀ (t : RouteTable C) op next, True → Confined source original t → performs k t op = some next →
      (Confined source original next ↔ Permitted k source t op) := by
    intro t op next _ confined taken
    rw [← performs_iff k source t op next taken, Confined, Confined, ← confined]
  obtain ⟨last, reached⟩ := run_total (performs_enabled k) original ops
  exact always_iff_along keeps exactly trivial rfl reached

end

theorem request_unstamped (k : Kernel Payload) (inbox : GoString) (cfg : CallerConfig) (topic : GoString)
    (payload : Payload) (id : GoString) {key : GoString} (unstamped : key ∉ Sender.stamped) :
    (k.request inbox cfg topic payload id).metadata key = cfg.metadata key := by
  unfold Kernel.request
  split
  · exact Sender.publish_raw_unstamped k.remote _ topic payload id unstamped
  · exact Sender.publish_raw_unstamped k.remote _ topic payload id unstamped

theorem request_named (k : Kernel Payload) (inbox : GoString) (cfg : CallerConfig) (topic : GoString) (payload : Payload)
    (id source : GoString) (stamped : cfg.metadata = (Metadata.empty.set callerKind (lit "deployment")).set callerSource source)
    (given : source ≠ []) (settled : trimSpace source = source) :
    routeMutationCaller (k.request inbox cfg topic payload id).metadata = (source, true) := by
  have kind : (k.request inbox cfg topic payload id).metadata (lit "brainkit.caller.kind") = some (lit "deployment") := by
    rw [request_unstamped k inbox cfg topic payload id (by decide), stamped]
    rfl
  have named : (k.request inbox cfg topic payload id).metadata (lit "brainkit.caller.source") = some source := by
    rw [request_unstamped k inbox cfg topic payload id (by decide), stamped]
    rfl
  simp [routeMutationCaller, Metadata.get, kind, named, settled, given]

theorem current_permitted [Inhabited C] (k : Kernel Payload) (source : GoString) (t : RouteTable C) (op : BusOp Payload)
    (current : op.current = some source) (given : source ≠ []) (settled : trimSpace source = source) :
    Permitted k source t op := by
  intro msg sent
  left
  cases Kernel.sends_of_perform k op msg sent with
  | publish ctx topic payload id none => cases none.symm.trans current
  | request inbox cfg topic payload id read same metadata =>
      cases current.symm.trans same
      apply request_named k inbox cfg topic payload id source _ given settled
      simp [metadata, callerCfg, settled, given]

theorem calls_confined [Inhabited C] (k : Kernel Payload) (source : GoString) (original : RouteTable C)
    (ops : List (BusOp Payload)) (given : source ≠ []) (settled : trimSpace source = source)
    (own : ∀ op ∈ ops, op.current = some source ∨ ∀ msg, k.perform op = .ok msg →
      ∀ route ∈ [lit "gateway.http.route.add", lit "gateway.http.route.remove"],
        msg.topic ≠ k.remote.backend.resolvedTopic k.remote.ns route) :
    Always (performs k) (Confined source original) original ops := by
  have permitted : ∀ op ∈ ops, ∀ t : RouteTable C, Permitted k source t op := by
    intro op member t
    rcases own op member with current | elsewhere
    · exact current_permitted k source t op current given settled
    · intro msg sent
      have away := elsewhere msg sent
      exact .inr (by simp [MessageConfined, away])
  have along (t : RouteTable C) : Along (performs k) (Permitted k source) t ops := by
    induction ops generalizing t with
    | nil => trivial
    | cons op rest ih =>
        have later {other : BusOp Payload} (member : other ∈ rest) : other ∈ op :: rest := List.mem_cons_of_mem op member
        exact ⟨permitted op List.mem_cons_self t, fun next _ =>
          ih (fun other member => own other (later member)) (fun other member => permitted other (later member)) next⟩
  refine always_along (fun t op next confined allowed taken => ?_) rfl (along original)
  exact ((performs_iff k source t op next taken).mpr allowed).trans confined

def hijacked : Route Unit where
  method := lit "GET"
  path := lit "/protected-hijack"
  topic := lit "ts.gw-protected-hijack.api"
  outTopic := []
  type := .handle
  owner := lit "gw-protected-hijack.ts"
  config := ()

-- What bus.publish and bus.emit of the runtime come down to.
def hijack : BusOp Payload :=
  .emit (lit "gateway.http.route.add")
    { add := .ok ⟨lit "GET", lit "/protected-hijack", lit "ts.gw-route-attacker.api", lit "handle", lit "gw-route-attacker.ts"⟩
      remove := .ok ⟨lit "GET", lit "/protected-hijack", lit "gw-route-attacker.ts"⟩ }
    (lit "id")

def host : Kernel Payload where
  remote := ⟨.memory, lit "main", lit "main", [], []⟩
  catalog := .empty
  event _ _ := none
  inbox := some (lit "_brainkit.inbox.main")

theorem route_hijacked : ∃ t, run (performs host) [hijacked] [hijack] = some t ∧
    ¬ Confined (lit "gw-route-attacker.ts") [hijacked] t := by
  refine ⟨_, rfl, ?_⟩
  unfold Confined
  decide

def calledHijack : BusOp Payload :=
  .call (lit "gateway.http.route.add")
    { add := .ok ⟨lit "GET", lit "/protected-hijack", lit "ts.gw-route-attacker.api", lit "handle", lit "gw-route-attacker.ts"⟩
      remove := .ok ⟨lit "GET", lit "/protected-hijack", lit "gw-route-attacker.ts"⟩ }
    [] 1000 (lit "gw-route-attacker.ts") (lit "id")

theorem called_hijack_confined :
    Always (performs host) (Confined (lit "gw-route-attacker.ts") [hijacked]) [hijacked] [calledHijack, calledHijack] := by
  refine calls_confined host _ [hijacked] _ (by decide) (by decide) fun op member => .inl ?_
  have same : op = calledHijack := by simpa using member
  rw [same]
  rfl

end Brainkit.Gateway
