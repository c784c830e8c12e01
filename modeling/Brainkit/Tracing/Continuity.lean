import Brainkit.Engine.BusBridges
import Brainkit.Tracing.MemoryStore

set_option autoImplicit false

namespace Brainkit.Tracing

open GoText Transport Engine

structure Uuid where
  text : GoString
  size : text.length = 36

structure TraceContext where
  traceID : GoString
  spanID : GoString
  parentID : GoString

-- A context.Context has the values of the transport and those of the tracer side by side; neither reads the other's.
structure TracedCtx where
  bus : Ctx
  trace : Option TraceContext
  sampled : Option Bool

def TracedCtx.background : TracedCtx := ⟨.background, none, none⟩

-- Whether there is a store, whether the sample rate is below one, and the rate in thousandths, cut to an int.
structure Tracer where
  store : Bool
  below : Bool
  thousandths : Int

-- What StartSpan draws: rand.Intn, the UUIDs of a trace and of the span, and the time.
structure Draw where
  random : Fin 1000
  trace : Uuid
  span : Uuid
  now : Int

def newSpanID (id : Uuid) : GoString := id.text.take 16

def Tracer.refuses (t : Tracer) (draw : Draw) : Bool := t.below && t.thousandths ≤ draw.random

-- none is the handle that records nothing.
def Tracer.startSpan (t : Tracer) (name : GoString) (ctx : TracedCtx) (draw : Draw) : Option Span :=
  if !t.store then none
  else if ctx.sampled = some false then none
  else if ctx.trace.isNone && t.refuses draw then none
  else
    let tc := ctx.trace.getD ⟨[], [], []⟩
    some {
      traceID := if tc.traceID = [] then draw.trace.text else tc.traceID
      spanID := newSpanID draw.span
      parentID := tc.spanID
      name := name
      source := []
      startTime := draw.now
      duration := 0
      status := lit "ok" }

-- ChildContext
def childContext (span : Option Span) (ctx : TracedCtx) : TracedCtx :=
  match span with
  | none => ctx
  | some span => { ctx with trace := some ⟨span.traceID, span.spanID, span.parentID⟩ }

def TracedCtx.active (ctx : TracedCtx) : Option TraceContext := ctx.trace.filter (·.spanID ≠ [])

variable {P : Type}

-- The span that a bridge starts around the publish.
def bridgeName : BusOp P → Option GoString
  | .publish topic _ _ => some (lit "bus.publish:" ++ topic)
  | .call topic _ _ _ _ _ => some (lit "bus.call:" ++ topic)
  | .callStream topic _ _ _ _ _ _ _ _ => some (lit "bus.callStream:" ++ topic)
  | .send _ _ _ | .emit _ _ _ => none

-- Who takes a message off the transport and starts a span for it: a subscription of deployed code, or the handler of a
-- command.
inductive Receiver where
  | subscription (topic : GoString)
  | command (topic name : GoString)

-- Whether a publish path sets the context of its message.
def carries : PublishCall P → Bool
  | .publish _ _ _ | .result _ _ => false
  | _ => true

-- active is history: the span in which the message was published. ctx is the context that the message has.
structure Hop (P : Type) where
  msg : BusMessage P
  ctx : TracedCtx
  active : Option TraceContext

-- The memory transport hands on the message with the publisher's context; from another one it comes with that of the
-- subscriber.
def Hop.received (backend : Backend) (hop : Hop P) : TracedCtx := if backend = .memory then hop.ctx else .background

def receiverCtx (backend : Backend) (hop : Hop P) : Receiver → TracedCtx
  | .subscription _ => {
      bus := .background
      trace := if hop.msg.metadata.get (lit "traceId") = [] then none
        else some ⟨hop.msg.metadata.get (lit "traceId"), [], hop.msg.metadata.get (lit "parentSpanId")⟩
      sampled := if hop.msg.metadata.get (lit "traceSampled") = lit "false" then some false else none }
  | .command topic _ =>
      { hop.received backend with bus := withInboundMetadata (hop.received backend).bus hop.msg topic }

def receiverName : Receiver → GoString
  | .subscription topic => lit "handler:" ++ topic
  | .command _ name => name

def receiverSpan (backend : Backend) (t : Tracer) (hop : Hop P) (receiver : Receiver) (draw : Draw) : Option Span :=
  t.startSpan (receiverName receiver) (receiverCtx backend hop receiver) draw

-- The messages on the transport, each there for any number of receivers, and the contexts of the handlers of deployed
-- code that have been entered.
structure Bus (P : Type) where
  hops : List (Hop P)
  handlers : List TracedCtx

inductive Action (P : Type) where
  | bridge (handler : Option Nat) (op : BusOp P) (draw : Draw)
  | client (ctx : TracedCtx) (call : PublishCall P)
  | receive (hop : Nat) (receiver : Receiver) (draw : Draw)

namespace Bus

def new : Bus P := ⟨[], []⟩

def handlerCtx (b : Bus P) (handler : Option Nat) : TracedCtx := (handler.bind (b.handlers[·]?)).getD .background

def step (k : Kernel P) (t : Tracer) (b : Bus P) : Action P → Option (Bus P)
  | .bridge handler op draw => match k.perform op with
      | .error _ => some b
      | .ok msg =>
          let ctx := childContext ((bridgeName op).bind (t.startSpan · .background draw)) (b.handlerCtx handler)
          some { b with hops := b.hops ++ [⟨msg, ⟨msg.ctx, none, none⟩, ctx.active⟩] }
  | .client ctx call =>
      let msg := k.remote.send call
      some { b with hops := b.hops ++ [⟨msg, if carries call then { ctx with bus := msg.ctx } else .background, ctx.active⟩] }
  | .receive hop receiver draw => b.hops[hop]?.map fun hop =>
      { b with handlers := b.handlers ++ [childContext (receiverSpan k.remote.backend t hop receiver draw) .background] }

end Bus

def Continues (k : Kernel P) (t : Tracer) (b : Bus P) : Action P → Prop
  | .receive i receiver draw => ∀ hop, b.hops[i]? = some hop → ∀ tc, hop.active = some tc → ∀ span,
      receiverSpan k.remote.backend t hop receiver draw = some span → span.parentID = tc.spanID ∧ span.traceID = tc.traceID
  | _ => True

-- For a message that was published in a span the receiver records no span: there is no store, its context or the message
-- says that it is not sampled, or it finds no trace and the sample rate refuses a new one. Or it is a command handler
-- that has got the publisher's own trace, and this has an id.
def Traced (k : Kernel P) (t : Tracer) (b : Bus P) : Action P → Prop
  | .receive i receiver draw => ∀ hop, b.hops[i]? = some hop → ∀ tc, hop.active = some tc → t.store = false ∨
      match receiver with
      | .subscription _ => hop.msg.metadata.get (lit "traceSampled") = lit "false" ∨
          hop.msg.metadata.get (lit "traceId") = [] ∧ t.refuses draw = true
      | .command _ _ =>
          let inbound := hop.received k.remote.backend
          inbound.sampled = some false ∨ (inbound.trace = none ∧ t.refuses draw = true) ∨
            inbound.trace.isSome = true ∧ tc.traceID ≠ []
  | _ => True

theorem start_span_none_iff (t : Tracer) (name : GoString) (ctx : TracedCtx) (draw : Draw) :
    t.startSpan name ctx draw = none ↔
      t.store = false ∨ ctx.sampled = some false ∨ ctx.trace = none ∧ t.refuses draw = true := by
  unfold Tracer.startSpan
  cases t.store with
  | false => simp
  | true =>
      by_cases suppressed : ctx.sampled = some false
      · simp [suppressed]
      · by_cases refused : ctx.trace = none ∧ t.refuses draw = true
        · simp [refused]
        · have kept : ¬ (ctx.trace.isNone && t.refuses draw) = true := by simpa using refused
          simp [suppressed, refused, kept]

theorem start_span_trace {t : Tracer} {name : GoString} {ctx : TracedCtx} {draw : Draw} {span : Span}
    (started : t.startSpan name ctx draw = some span) :
    span.parentID = (ctx.trace.getD ⟨[], [], []⟩).spanID ∧
      span.traceID = if (ctx.trace.getD ⟨[], [], []⟩).traceID = [] then draw.trace.text
        else (ctx.trace.getD ⟨[], [], []⟩).traceID := by
  unfold Tracer.startSpan at started
  split at started
  · cases started
  · split at started
    · cases started
    · split at started
      · cases started
      · cases started
        exact ⟨rfl, rfl⟩

structure Bus.Sound (b : Bus P) : Prop where
  named : ∀ hop ∈ b.hops, ∀ tc, hop.active = some tc → tc.spanID ≠ []
  own : ∀ hop ∈ b.hops, ∀ tc, hop.active = some tc → ∀ carried, hop.ctx.trace = some carried → carried = tc

theorem active_named {ctx : TracedCtx} {tc : TraceContext} (active : ctx.active = some tc) : tc.spanID ≠ [] := by
  have kept := (Option.filter_eq_some_iff.mp active).2
  simpa using kept

theorem new_sound : (Bus.new : Bus P).Sound :=
  ⟨fun _ member => absurd member List.not_mem_nil, fun _ member => absurd member List.not_mem_nil⟩

theorem published_sound {b : Bus P} (sound : b.Sound) (msg : BusMessage P) {ctx : TracedCtx} {carried : TracedCtx}
    (own : ∀ tc, carried.trace = some tc → ctx.trace = some tc) :
    Bus.Sound { b with hops := b.hops ++ [⟨msg, carried, ctx.active⟩] } := by
  constructor
  · intro hop member tc active
    rcases List.mem_append.mp member with earlier | last
    · exact sound.named hop earlier tc active
    · cases List.mem_singleton.mp last
      exact active_named active
  · intro hop member tc active other here
    rcases List.mem_append.mp member with earlier | last
    · exact sound.own hop earlier tc active other here
    · cases List.mem_singleton.mp last
      exact Option.some.inj ((own other here).symm.trans (Option.filter_eq_some_iff.mp active).1)

theorem step_sound (k : Kernel P) (t : Tracer) (b : Bus P) (action : Action P) (next : Bus P) (sound : b.Sound)
    (taken : b.step k t action = some next) : next.Sound := by
  cases action with
  | bridge handler op draw =>
      simp only [Bus.step] at taken
      split at taken
      · cases taken
        exact sound
      next msg sent =>
        cases taken
        exact published_sound sound msg nofun
  | client ctx call =>
      cases taken
      refine published_sound sound _ fun tc here => ?_
      split at here
      · exact here
      · cases here
  | receive i receiver draw =>
      obtain ⟨hop, _, rfl⟩ := Option.map_eq_some_iff.mp taken
      exact ⟨sound.named, sound.own⟩

theorem subscription_continues_iff {backend : Backend} {t : Tracer} {hop : Hop P} {topic : GoString} {draw : Draw} {tc : TraceContext}
    (named : tc.spanID ≠ []) :
    (∀ span, receiverSpan backend t hop (.subscription topic) draw = some span →
      span.parentID = tc.spanID ∧ span.traceID = tc.traceID) ↔
      t.store = false ∨ hop.msg.metadata.get (lit "traceSampled") = lit "false" ∨
        hop.msg.metadata.get (lit "traceId") = [] ∧ t.refuses draw = true := by
  have none_iff := start_span_none_iff t (receiverName (.subscription topic)) (receiverCtx backend hop (.subscription topic)) draw
  have condition : (t.store = false ∨ hop.msg.metadata.get (lit "traceSampled") = lit "false" ∨
      hop.msg.metadata.get (lit "traceId") = [] ∧ t.refuses draw = true) ↔
      receiverSpan backend t hop (.subscription topic) draw = none := by
    rw [receiverSpan, none_iff]
    simp [receiverCtx]
  rw [condition]
  constructor
  · intro continues
    by_contra started
    obtain ⟨span, started⟩ := Option.ne_none_iff_exists'.mp started
    have parent := (continues span started).1
    rw [(start_span_trace started).1] at parent
    refine named (parent.symm.trans ?_)
    simp only [receiverCtx]
    split <;> rfl
  · intro none span started
    cases none.symm.trans started

theorem command_continues_iff {backend : Backend} {t : Tracer} {hop : Hop P} {topic name : GoString} {draw : Draw} {tc : TraceContext}
    (named : tc.spanID ≠ []) (own : ∀ carried, hop.ctx.trace = some carried → carried = tc) :
    (∀ span, receiverSpan backend t hop (.command topic name) draw = some span →
      span.parentID = tc.spanID ∧ span.traceID = tc.traceID) ↔
      t.store = false ∨ (hop.received backend).sampled = some false ∨
        ((hop.received backend).trace = none ∧ t.refuses draw = true) ∨
        (hop.received backend).trace.isSome = true ∧ tc.traceID ≠ [] := by
  have none_iff : receiverSpan backend t hop (.command topic name) draw = none ↔ _ :=
    start_span_none_iff t (receiverName (.command topic name)) (receiverCtx backend hop (.command topic name)) draw
  have received (carried : TraceContext) (here : (hop.received backend).trace = some carried) : carried = tc := by
    unfold Hop.received at here
    split at here
    · exact own carried here
    · cases here
  cases span : receiverSpan backend t hop (.command topic name) draw with
  | none =>
      refine iff_of_true nofun ?_
      exact (none_iff.mp span).imp_right (Or.imp_right .inl)
  | some started =>
      have traced := start_span_trace span
      have refused : ¬ _ := fun none => by cases span.symm.trans (none_iff.mpr none)
      constructor
      · intro continues
        obtain ⟨parent, same⟩ := continues started rfl
        rw [traced.1] at parent
        rw [traced.2] at same
        cases here : (hop.received backend).trace with
        | none =>
            simp only [receiverCtx, here] at parent
            exact absurd parent.symm named
        | some carried =>
            obtain rfl := received carried here
            simp only [receiverCtx, here, Option.getD_some] at same
            refine .inr (.inr (.inr ⟨rfl, fun empty => ?_⟩))
            rw [if_pos empty] at same
            have size := draw.trace.size
            rw [same, empty] at size
            cases size
      · rintro (off | unsampled | none | ⟨traced', filled⟩)
        · exact absurd (.inl off) refused
        · exact absurd (.inr (.inl unsampled)) refused
        · exact absurd (.inr (.inr none)) refused
        · obtain ⟨carried, here⟩ := Option.isSome_iff_exists.mp traced'
          obtain rfl := received carried here
          intro other same
          cases same
          simp only [receiverCtx, here, Option.getD_some, if_neg filled] at traced
          exact traced

theorem continues_iff (k : Kernel P) (t : Tracer) (b : Bus P) (sound : b.Sound) (action : Action P) :
    Continues k t b action ↔ Traced k t b action := by
  cases action with
  | receive i receiver draw =>
      refine forall_congr' fun hop => forall_congr' fun found => forall_congr' fun tc => forall_congr' fun active => ?_
      have member := List.mem_of_getElem? found
      cases receiver with
      | subscription topic => exact subscription_continues_iff (sound.named hop member tc active)
      | command topic name =>
          exact command_continues_iff (sound.named hop member tc active) (sound.own hop member tc active)
  | bridge | client => exact Iff.rfl

theorem continuity_iff (k : Kernel P) (t : Tracer) (path : List (Action P)) :
    Transition.Along (Bus.step k t) (Continues k t) .new path ↔ Transition.Along (Bus.step k t) (Traced k t) .new path := by
  have sound {ok : Bus P → Action P → Prop} (along : Transition.Along (Bus.step k t) ok .new path) :=
    Transition.along_held (fun b action next sound _ taken => step_sound k t b action next sound taken) new_sound along
  constructor
  · intro continues
    exact Transition.along_mono (fun b action both => (continues_iff k t b both.1 action).mp both.2) (sound continues)
  · intro traced
    exact Transition.along_mono (fun b action both => (continues_iff k t b both.1 action).mpr both.2) (sound traced)

namespace Bus

def plain : Kernel Unit where
  remote := ⟨.memory, [], [], [], []⟩
  catalog := .empty
  event _ _ := none
  inbox := none

def always : Tracer := ⟨true, false, 1000⟩

def uuid (digit : UInt8) : Uuid := ⟨List.replicate 36 digit, List.length_replicate⟩

def parent : TraceContext := ⟨lit "trace", lit "span", []⟩

-- The publisher has put the trace and its own span into the context, for the tracer and for the transport.
def within : TracedCtx := ⟨{ Ctx.background with traceID := lit "trace", spanID := lit "span" }, some parent, none⟩

def oneHop : List (Action Unit) :=
  [.client within (.publishRaw within.bus (lit "t") () (lit "id")),
    .receive 0 (.subscription (lit "t")) ⟨0, uuid 48, uuid 49, 0⟩]

theorem orphan_receiver : ¬ ∀ (k : Kernel Unit) (t : Tracer) (path : List (Action Unit)),
    Transition.Along (step k t) (Continues k t) new path := by
  intro all
  have along := all plain always oneHop
  have continues := (along.2 _ rfl).1 _ rfl parent (by rfl) _ (by rfl)
  revert continues
  decide

end Bus

end Brainkit.Tracing
