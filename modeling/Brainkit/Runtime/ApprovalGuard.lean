import Brainkit.Runtime.Approval
import Brainkit.Sdk.FirstTerminal

set_option autoImplicit false

-- What the events of a call of generateWithApproval are at any time: whole cycles, each of them a suspension that is
-- asked about, answered and resumed, and then the beginning of a further one or the end of the loop.
namespace Brainkit.Runtime.Approval

open Sdk Transition JsValue

def resumed (approved : Bool) (opts : JsValue) : Event := if approved then .approve opts else .decline opts

structure Cycle where
  suspension : JsValue
  payload : JsValue
  inbox : List Message
  out : Outcome
  approved : Bool
  opts : JsValue

def Names (suspension value : JsValue) : Prop :=
  value.get "runId" = suspension.get "runId" ∧ value.get "toolCallId" = suspendField suspension "toolCallId"

section

variable (parse : RawMessage → Option JsValue) (decodeEnvelope : RawMessage → Option Envelope) (options : Options)

def Replied (inbox : List Message) (out : Outcome) (response : JsValue) : Prop :=
  ∃ msg ∈ inbox, ∃ envelope data, decodeReply decodeEnvelope envelope msg.payload = .success data ∧
    out = .returned (.success data) ∧ parse (data.getD []) = some response

def Cycle.events (c : Cycle) : List Event :=
  [.result c.suspension, .request options.approvalTopic c.payload (timeoutOf options), .outcome c.inbox c.out,
    resumed c.approved c.opts]

structure Cycle.Sound (c : Cycle) : Prop where
  suspended : suspended c.suspension = true
  asked : Names c.suspension c.payload
  resumed : Names c.suspension c.opts
  approves : c.approved = true →
    ∃ response, Replied parse decodeEnvelope c.inbox c.out response ∧ (response.get "approved").isFalse = false
  declines : c.approved = false → lapsed c.out = true ∨
    ∃ response, Replied parse decodeEnvelope c.inbox c.out response ∧ (response.get "approved").isFalse = true
  lapses : lapsed c.out = true → c.approved = false

-- The request has ended neither with the end of its context nor with a reply that is a JSON value other than null.
def Faulty (out : Outcome) : Prop :=
  lapsed out = false ∧
    ∀ data response, out = .returned (.success data) → parse (data.getD []) = some response → response.nullish = true

inductive Ending (cycles : Nat) : Phase → List Event → Prop where
  | generating : Ending cycles .generating []
  | resuming : Ending cycles .resuming []
  | asking (result payload : JsValue) (call : Option PendingCall) (suspension : suspended result = true)
      (asked : Names result payload) :
      Ending cycles (.asking result call) [.result result, .request options.approvalTopic payload (timeoutOf options)]
  | returned (result value : JsValue) (finished : suspended value = false) :
      Ending cycles (.returned value) [.result result]
  | failed (err : Failure) : Ending cycles (.threw err) []
  | exceeded (result : JsValue) (suspension : suspended result = true)
      (reached : exceeds cycles (limitOf options) = true) :
      Ending cycles (.threw (.exceeded (limitOf options))) [.result result]
  | faulty (result payload : JsValue) (inbox : List Message) (out : Outcome) (err : Failure)
      (suspension : suspended result = true) (asked : Names result payload) (fault : Faulty parse out) :
      Ending cycles (.threw err)
        [.result result, .request options.approvalTopic payload (timeoutOf options), .outcome inbox out]

def Event.isRequest : Event → Bool
  | .request _ _ _ => true
  | _ => false

structure Loop.Guarded (s : Loop) : Prop where
  cycles : ∃ (start : List Event) (cs : List Cycle) (ending : List Event),
    s.events = start ++ cs.flatMap (Cycle.events options) ++ ending ∧
    (start = [] ∨ start = [.generate (agentOptions options)]) ∧
    (∀ c ∈ cs, c.Sound parse decodeEnvelope) ∧ Ending parse options cs.length s.phase ending
  requests : ∀ limit, limitOf options = .finite limit → 0 < limit →
    (s.events.countP Event.isRequest : Int) ≤ limit.ceil

end

-- The fields of the values that the loop passes on.
section

variable (options : Options) (result : JsValue)

theorem get_set_same (fields : List (String × JsValue)) (key : String) (field : JsValue) :
    ((object fields).set key field).get key = field := by
  simp [JsValue.set, JsValue.get]

theorem get_set_other (value field : JsValue) (key other : String) (different : other ≠ key) :
    (value.set key field).get other = value.get other := by
  cases value with
  | object fields =>
      have kept : (fields.filter (·.1 ≠ key)).lookup other = fields.lookup other := by
        induction fields with
        | nil => rfl
        | cons entry rest ih =>
            obtain ⟨name, stored⟩ := entry
            by_cases named : name = key
            · subst named
              simp only [ne_eq, decide_not] at ih
              simp [List.lookup_cons, beq_eq_false_iff_ne.mpr different, ih]
            · simp only [ne_eq, decide_not] at ih
              simp [named, List.lookup_cons, ih]
      simp only [JsValue.set, JsValue.get, List.lookup_cons, beq_eq_false_iff_ne.mpr different, kept]
  | _ => rfl

theorem set_object (fields : List (String × JsValue)) (key : String) (field : JsValue) :
    ∃ more, (object fields).set key field = object more := ⟨_, rfl⟩

theorem payload_names (cycles : Nat) : Names result (approvalPayload result cycles) := ⟨rfl, rfl⟩

theorem opts_names : Names result (resumeOpts options result) := by
  obtain ⟨fields, same⟩ := set_object options.rest "requireToolApproval" (.bool true)
  obtain ⟨named, both⟩ := set_object fields "runId" (result.get "runId")
  have run : (object named).get "runId" = result.get "runId" := by rw [← both, get_set_same]
  constructor
  · rw [resumeOpts, agentOptions, same, both, get_set_other _ _ _ _ (by decide), run]
  · rw [resumeOpts, agentOptions, same, both, get_set_same]

theorem set_truthy (value field : JsValue) (key : String) : (value.set key field).truthy = value.truthy := by
  cases value <;> rfl

theorem normalize_suspended : suspended (normalize result) = suspended result := by
  unfold normalize
  split
  · rw [suspended, suspended, set_truthy, get_set_other _ _ _ _ (by decide), get_set_other _ _ _ _ (by decide)]
  · rfl

end

section

variable (parse : RawMessage → Option JsValue) (decodeEnvelope : RawMessage → Option Envelope) (options : Options)

structure Answers (p : PendingCall) : Prop where
  routed : p.Routed
  carried : ∀ terminal envelope out, p.call = .answered terminal envelope out →
    ∃ msg ∈ p.terminals, ∃ marked, out = decodeReply decodeEnvelope marked msg.payload

theorem start_answers (cfg : CallerConfig) : Answers decodeEnvelope (PendingCall.start cfg) where
  routed := PendingCall.start_routed cfg
  carried := fun _ _ _ answered => nomatch answered

theorem answers_step (cfg : CallerConfig) (p next : PendingCall) (action : PendingCall.Action)
    (answers : Answers decodeEnvelope p) (taken : p.step cfg decodeEnvelope action = some next) :
    Answers decodeEnvelope next := by
  refine ⟨PendingCall.routed_step cfg decodeEnvelope p action next answers.routed taken, ?_⟩
  intro terminal envelope out answered
  rcases PendingCall.answer_moves cfg decodeEnvelope p next action taken with ⟨-, never⟩ | ⟨same, -⟩ |
    ⟨read, payload, reading, terminals, -, after⟩
  · exact absurd ⟨terminal, envelope, out, answered⟩ never
  · obtain ⟨msg, member, marked, carried⟩ := answers.carried terminal envelope out (same ▸ answered)
    obtain ⟨more, grown⟩ := PendingCall.terminals_step cfg decodeEnvelope p next action taken
    exact ⟨msg, by rw [grown]; exact List.mem_append_left more member, marked, carried⟩
  · rw [after, CallPc.answered.injEq] at answered
    obtain ⟨-, -, rfl⟩ := answered
    have latched : p.done = some (.reply read payload) := by
      simpa only [PendingCall.CallFollows, reading] using answers.routed.follows
    obtain ⟨msg, found, rfl⟩ := answers.routed.latch.latched _ latched
    exact ⟨msg, by rw [terminals]; exact List.mem_of_getElem? found, p.envelope, rfl⟩

def Genuine (inbox : List Message) (out : Outcome) : Prop :=
  ∀ data, out = .returned (.success data) →
    ∃ msg ∈ inbox, ∃ envelope, decodeReply decodeEnvelope envelope msg.payload = .success data

theorem answers_genuine (p : PendingCall) (answers : Answers decodeEnvelope p) (out : CallReturn)
    (returned : returnOf p.call = some out) : Genuine decodeEnvelope p.terminals (.returned out) := by
  rintro data replied
  cases replied
  cases call : p.call with
  | answered terminal envelope given =>
      rw [call] at returned
      cases returned
      obtain ⟨msg, member, marked, carried⟩ := answers.carried terminal envelope _ call
      exact ⟨msg, member, marked, carried.symm⟩
  | failed err =>
      rw [call] at returned
      cases returned
  | _ =>
      rw [call] at returned
      cases returned

theorem await_cases (out : Outcome) :
    (lapsed out = true ∧ awaitApproval parse out = .ok timeoutResponse) ∨
    (∃ data response, out = .returned (.success data) ∧ parse (data.getD []) = some response ∧
      awaitApproval parse out = .ok response) ∨
    (∃ err, awaitApproval parse out = .error err ∧ Faulty parse out) := by
  rcases out with _ | _ | out
  · exact .inr (.inr ⟨_, rfl, rfl, fun _ _ replied => nomatch replied⟩)
  · exact .inr (.inr ⟨_, rfl, rfl, fun _ _ replied => nomatch replied⟩)
  · cases out with
    | success data =>
        cases read : parse (data.getD []) with
        | some response => exact .inr (.inl ⟨data, response, rfl, read, by simp only [awaitApproval, read]⟩)
        | none =>
            refine .inr (.inr ⟨.syntaxError, by simp only [awaitApproval, read], rfl, ?_⟩)
            rintro other response replied parsed
            cases replied
            rw [read] at parsed
            cases parsed
    | failure err =>
        cases err with
        | contextDone => exact .inl ⟨rfl, rfl⟩
        | _ => exact .inr (.inr ⟨_, rfl, rfl, fun _ _ replied => nomatch replied⟩)
    | remote err => exact .inr (.inr ⟨_, rfl, rfl, fun _ _ replied => nomatch replied⟩)
    | undecodable payload => exact .inr (.inr ⟨_, rfl, rfl, fun _ _ replied => nomatch replied⟩)

theorem decide_cases (result : JsValue) (inbox : List Message) (out : Outcome) (s : Loop) :
    (∃ err, Faulty parse out ∧ s.decide parse options result inbox out = s.throws err [.outcome inbox out]) ∨
    (∃ approved, (lapsed out = true ∧ approved = false ∨ lapsed out = false ∧ ∃ data response,
        out = .returned (.success data) ∧ parse (data.getD []) = some response ∧
          (response.get "approved").isFalse = !approved) ∧
      s.decide parse options result inbox out = { s with
        phase := .resuming
        events := s.events ++ [.outcome inbox out, resumed approved (resumeOpts options result)] }) := by
  rcases await_cases parse out with ⟨lapse, settled⟩ | ⟨data, response, rfl, read, settled⟩ | ⟨err, settled, fault⟩
  · exact .inr ⟨false, .inl ⟨lapse, rfl⟩, by simp only [Loop.decide, settled]; rfl⟩
  · by_cases empty : response.nullish = true
    · refine .inl ⟨.typeError, ⟨rfl, ?_⟩, by simp only [Loop.decide, settled, if_pos empty]⟩
      rintro other value same parsed
      cases same
      rw [read, Option.some.injEq] at parsed
      exact parsed ▸ empty
    · cases refusal : (response.get "approved").isFalse with
      | false =>
          refine .inr ⟨true, .inr ⟨rfl, data, response, rfl, read, refusal⟩, ?_⟩
          simp only [Loop.decide, settled, if_neg empty, refusal]
          rfl
      | true =>
          refine .inr ⟨false, .inr ⟨rfl, data, response, rfl, read, refusal⟩, ?_⟩
          simp only [Loop.decide, settled, if_neg empty, refusal]
          rfl
  · exact .inl ⟨err, fault, by simp only [Loop.decide, settled]⟩

structure Loop.Invariant (s : Loop) : Prop where
  guarded : s.Guarded parse decodeEnvelope options
  counted : s.events.countP Event.isRequest = s.cycles
  answers : ∀ result p, s.phase = .asking result (some p) → Answers decodeEnvelope p

theorem resumed_request (approved : Bool) (opts : JsValue) : (resumed approved opts).isRequest = false := by
  cases approved <;> rfl

theorem cycle_requests (c : Cycle) : (c.events options).countP Event.isRequest = 1 := by
  simp only [Cycle.events, List.countP_cons, List.countP_nil, resumed_request]
  rfl

theorem whole_requests (cs : List Cycle) : (cs.flatMap (Cycle.events options)).countP Event.isRequest = cs.length := by
  induction cs with
  | nil => rfl
  | cons c rest ih =>
      rw [List.flatMap_cons, List.countP_append, cycle_requests, ih, List.length_cons, Nat.add_comm]

theorem start_requests (start : List Event) (opening : start = [] ∨ start = [.generate (agentOptions options)]) :
    start.countP Event.isRequest = 0 := by
  rcases opening with rfl | rfl <;> rfl

theorem below_limit (cycles : Nat) (limit : Rat) (open_ : exceeds cycles (.finite limit) = false) :
    ((cycles + 1 : Nat) : Int) ≤ limit.ceil := by
  have below : ((cycles : Int) : Rat) < limit := by
    simpa only [exceeds, decide_eq_false_iff_not, Rat.not_le] using open_
  have := Rat.lt_ceil_iff.mpr below
  omega

theorem quiet_invariant (s next : Loop) (more : List Event) (invariant : s.Invariant parse decodeEnvelope options)
    (events : next.events = s.events ++ more) (quiet : more.countP Event.isRequest = 0) (cycles : next.cycles = s.cycles)
    (shape : ∃ (start : List Event) (cs : List Cycle) (ending : List Event),
      s.events ++ more = start ++ cs.flatMap (Cycle.events options) ++ ending ∧
      (start = [] ∨ start = [.generate (agentOptions options)]) ∧
      (∀ c ∈ cs, c.Sound parse decodeEnvelope) ∧ Ending parse options cs.length next.phase ending)
    (answers : ∀ result p, next.phase = .asking result (some p) → Answers decodeEnvelope p) :
    next.Invariant parse decodeEnvelope options := by
  have counted : next.events.countP Event.isRequest = s.events.countP Event.isRequest := by
    rw [events, List.countP_append, quiet, Nat.add_zero]
  refine ⟨⟨events ▸ shape, fun limit finite positive => ?_⟩, ?_, answers⟩
  · rw [counted]
    exact invariant.guarded.requests limit finite positive
  · rw [counted, invariant.counted, cycles]

theorem settle_invariant (s : Loop) (result : JsValue) (invariant : s.Invariant parse decodeEnvelope options)
    (ready : s.phase = .generating ∨ s.phase = .resuming) :
    (s.settle options result).Invariant parse decodeEnvelope options := by
  obtain ⟨start, cs, ending, events, opening, sound, last⟩ := invariant.guarded.cycles
  obtain rfl : ending = [] := by
    rcases ready with phase | phase
    all_goals
      rw [phase] at last
      cases last
      rfl
  rw [List.append_nil] at events
  by_cases suspension : suspended result = true
  · have done : s.cycles = cs.length := by
      rw [← invariant.counted, events, List.countP_append, whole_requests, start_requests options start opening,
        Nat.zero_add]
    cases reached : exceeds s.cycles (limitOf options) with
    | true =>
        rw [Loop.settle, if_pos suspension, if_pos reached]
        refine quiet_invariant parse decodeEnvelope options s _ [.result result] invariant rfl rfl rfl ?_
          fun _ _ asking => nomatch asking
        exact ⟨start, cs, _, by rw [events], opening, sound, .exceeded result suspension (done ▸ reached)⟩
    | false =>
        rw [Loop.settle, if_pos suspension, if_neg (by rw [reached]; decide)]
        have counted : (s.events ++ [Event.result result, .request options.approvalTopic
            (approvalPayload result (s.cycles + 1)) (timeoutOf options)]).countP Event.isRequest = s.cycles + 1 := by
          rw [List.countP_append, invariant.counted]
          rfl
        refine ⟨⟨?_, fun limit finite positive => ?_⟩, counted, fun _ _ asking => by cases asking⟩
        · exact ⟨start, cs, _, by rw [events], opening, sound, .asking result _ none suspension (payload_names result _)⟩
        · rw [counted]
          exact below_limit s.cycles limit (finite ▸ reached)
  · rw [Loop.settle, if_neg suspension]
    refine quiet_invariant parse decodeEnvelope options s _ [.result result] invariant rfl rfl rfl ?_
      fun _ _ asking => nomatch asking
    have finished : suspended (normalize result) = false := by
      rw [normalize_suspended]
      exact Bool.eq_false_iff.mpr suspension
    exact ⟨start, cs, _, by rw [events], opening, sound, .returned result _ finished⟩

theorem decide_invariant (s : Loop) (result : JsValue) (call : Option PendingCall) (inbox : List Message) (out : Outcome)
    (invariant : s.Invariant parse decodeEnvelope options) (asking : s.phase = .asking result call)
    (genuine : Genuine decodeEnvelope inbox out) :
    (s.decide parse options result inbox out).Invariant parse decodeEnvelope options := by
  obtain ⟨start, cs, ending, events, opening, sound, last⟩ := invariant.guarded.cycles
  rw [asking] at last
  cases last with
  | asking _ payload _ suspension asked =>
      rcases decide_cases parse options result inbox out s with ⟨err, fault, same⟩ | ⟨approved, settled, same⟩
      · rw [same]
        refine quiet_invariant parse decodeEnvelope options s _ _ invariant rfl rfl rfl ?_ fun _ _ asking => nomatch asking
        exact ⟨start, cs, _, by rw [events, List.append_assoc]; rfl, opening, sound,
          .faulty result payload inbox out err suspension asked fault⟩
      · rw [same]
        have quiet : [Event.outcome inbox out, resumed approved (resumeOpts options result)].countP Event.isRequest = 0 := by
          simp only [List.countP_cons, List.countP_nil, resumed_request]
          rfl
        refine quiet_invariant parse decodeEnvelope options s _ _ invariant rfl quiet rfl ?_ fun _ _ asking => nomatch asking
        let cycle : Cycle := ⟨result, payload, inbox, out, approved, resumeOpts options result⟩
        have whole : cycle.Sound parse decodeEnvelope := by
          refine ⟨suspension, asked, opts_names options result, fun yes => ?_, fun no => ?_, fun lapse => ?_⟩
          · rcases settled with ⟨-, refused⟩ | ⟨-, data, response, replied, read, consent⟩
            · exact absurd (refused.symm.trans yes) (by decide)
            · obtain ⟨msg, member, envelope, carried⟩ := genuine data replied
              have consented : approved = true := yes
              exact ⟨response, ⟨msg, member, envelope, data, carried, replied, read⟩, by rw [consent, consented]; rfl⟩
          · rcases settled with ⟨lapse, -⟩ | ⟨-, data, response, replied, read, consent⟩
            · exact .inl lapse
            · obtain ⟨msg, member, envelope, carried⟩ := genuine data replied
              have refused : approved = false := no
              exact .inr ⟨response, ⟨msg, member, envelope, data, carried, replied, read⟩, by rw [consent, refused]; rfl⟩
          · rcases settled with ⟨-, refused⟩ | ⟨kept, -⟩
            · exact refused
            · exact absurd (kept.symm.trans lapse) (by decide)
        refine ⟨start, cs ++ [cycle], [], ?_, opening, ?_, .resuming⟩
        · rw [events, List.flatMap_append, List.flatMap_singleton, List.append_nil, List.append_assoc, List.append_assoc]
          rfl
        · intro c member
          rcases List.mem_append.mp member with before | last
          · exact sound c before
          · exact List.mem_singleton.mp last ▸ whole

theorem start_invariant (agent : Agent) :
    (Loop.generateWithApproval options agent).Invariant parse decodeEnvelope options := by
  have within (limit : Rat) (positive : 0 < limit) : ((0 : Nat) : Int) ≤ limit.ceil := by
    have := Rat.lt_ceil_iff.mpr (show ((0 : Int) : Rat) < limit from positive)
    omega
  have idle (err : Failure) : (⟨.threw err, 0, []⟩ : Loop).Invariant parse decodeEnvelope options :=
    ⟨⟨⟨[], [], [], rfl, .inl rfl, (fun _ none => nomatch none), .failed err⟩, fun limit _ => within limit⟩, rfl,
      fun _ _ asking => nomatch asking⟩
  unfold Loop.generateWithApproval
  split
  · exact idle _
  · split
    · exact idle _
    · split
      · exact idle _
      · exact ⟨⟨⟨[.generate (agentOptions options)], [], [], rfl, .inr rfl, (fun _ none => nomatch none), .generating⟩,
          fun limit _ => within limit⟩, rfl, fun _ _ asking => nomatch asking⟩

theorem failed_invariant (s : Loop) (err : String) (invariant : s.Invariant parse decodeEnvelope options)
    (ready : s.phase = .generating ∨ s.phase = .resuming) :
    (s.throws (.agent err) []).Invariant parse decodeEnvelope options := by
  obtain ⟨start, cs, ending, events, opening, sound, last⟩ := invariant.guarded.cycles
  refine quiet_invariant parse decodeEnvelope options s _ [] invariant rfl rfl rfl ?_ fun _ _ asking => nomatch asking
  refine ⟨start, cs, ending, by rw [List.append_nil, events], opening, sound, ?_⟩
  rcases ready with phase | phase
  all_goals
    rw [phase] at last
    cases last
    exact .failed _

theorem call_invariant (s : Loop) (result : JsValue) (before : Option PendingCall) (next : PendingCall)
    (invariant : s.Invariant parse decodeEnvelope options) (asking : s.phase = .asking result before)
    (answers : Answers decodeEnvelope next) :
    ({ s with phase := .asking result (some next) } : Loop).Invariant parse decodeEnvelope options := by
  obtain ⟨start, cs, ending, events, opening, sound, last⟩ := invariant.guarded.cycles
  refine quiet_invariant parse decodeEnvelope options s _ [] invariant (by rw [List.append_nil]) rfl rfl ?_ ?_
  · refine ⟨start, cs, ending, by rw [List.append_nil, events], opening, sound, ?_⟩
    rw [asking] at last
    cases last with
    | asking _ payload _ suspension asked => exact .asking result payload _ suspension asked
  · intro _ p same
    cases same
    exact answers

theorem step_invariant (s : Loop) (answer : Answer) (next : Loop) (invariant : s.Invariant parse decodeEnvelope options)
    (taken : s.step parse decodeEnvelope options answer = some next) : next.Invariant parse decodeEnvelope options := by
  cases answer with
  | agent settled =>
      unfold Loop.step at taken
      dsimp only at taken
      split at taken
      · cases taken
        exact settle_invariant parse decodeEnvelope options s _ invariant (.inl (by assumption))
      · cases taken
        exact settle_invariant parse decodeEnvelope options s _ invariant (.inr (by assumption))
      · cases taken
        exact failed_invariant parse decodeEnvelope options s _ invariant (.inl (by assumption))
      · cases taken
        exact failed_invariant parse decodeEnvelope options s _ invariant (.inr (by assumption))
      · cases taken
  | caller state =>
      unfold Loop.step at taken
      dsimp only at taken
      split at taken
      · cases taken
        exact decide_invariant parse decodeEnvelope options s _ none [] .absent invariant (by assumption)
          fun _ replied => nomatch replied
      · cases taken
        exact decide_invariant parse decodeEnvelope options s _ none [] .closed invariant (by assumption)
          fun _ replied => nomatch replied
      · cases taken
        exact call_invariant parse decodeEnvelope options s _ none _ invariant (by assumption)
          (start_answers decodeEnvelope callerConfig)
      · cases taken
  | call action =>
      unfold Loop.step at taken
      dsimp only at taken
      split at taken
      · rename_i result p asking
        obtain ⟨moved, step, rfl⟩ := Option.map_eq_some_iff.mp taken
        exact call_invariant parse decodeEnvelope options s result _ moved invariant asking
          (answers_step decodeEnvelope callerConfig p moved action (invariant.answers result p asking) step)
      · cases taken
  | settled =>
      unfold Loop.step at taken
      dsimp only at taken
      split at taken
      · rename_i result p asking
        obtain ⟨out, returned, rfl⟩ := Option.map_eq_some_iff.mp taken
        exact decide_invariant parse decodeEnvelope options s result _ p.terminals (.returned out) invariant asking
          (answers_genuine decodeEnvelope p (invariant.answers result p asking) out returned)
      · cases taken

theorem approval_guarded (agent : Agent) (path : List Answer) :
    Always (Loop.step parse decodeEnvelope options) (Loop.Guarded parse decodeEnvelope options)
      (Loop.generateWithApproval options agent) path :=
  always_mono (fun _ invariant => invariant.guarded)
    (always_invariant (fun s answer next => step_invariant parse decodeEnvelope options s answer next)
      (start_invariant parse decodeEnvelope options agent) path)

end

def Event.isSuspension : Event → Bool
  | .result value => suspended value
  | _ => false

def Event.isResume : Event → Bool
  | .approve _ | .decline _ => true
  | _ => false

def Loop.Resumed (s : Loop) : Prop :=
  ((∃ value, s.phase = .returned value) ∨ ∃ err, s.phase = .threw err) →
    s.events.countP Event.isSuspension = s.events.countP Event.isResume

-- The caller has been closed when the bridge asks it.
theorem suspension_left : ¬ ∃ (parse : RawMessage → Option JsValue) (decodeEnvelope : RawMessage → Option Envelope),
    ∀ (options : Options) (agent : Agent) (path : List Answer),
      Always (Loop.step parse decodeEnvelope options) Loop.Resumed (Loop.generateWithApproval options agent) path := by
  rintro ⟨parse, decodeEnvelope, always⟩
  let result := object [("finishReason", .text "suspended"), ("runId", .text "run-1"),
    ("suspendPayload", object [("toolCallId", .text "call-1")])]
  have run := always ⟨"approvals", none, none, []⟩ ⟨true, some true, none⟩ [.agent (.ok result), .caller .closed]
  have left : 1 = 0 := ((run.2 _ rfl).2 _ rfl) (.inr ⟨_, rfl⟩)
  exact absurd left (by decide)

end Brainkit.Runtime.Approval
