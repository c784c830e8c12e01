import Brainkit.Sdk.PendingCall

set_option autoImplicit false

namespace Brainkit.Sdk.PendingCall

open Function (update)

def AtFinalize (p : PendingCall) : Thread → Prop
  | .inbox => p.inbox = .finalizing
  | .drain => p.drain = .failing
  | .call => ∃ err, p.call = .aborting err
  | .helper number => number < p.helpers

def Placed (p : PendingCall) : Prop := ∀ t, p.finalizer t ≠ .outside → p.AtFinalize t

def Carries (terminals : List Message) : Result → Prop
  | .reply terminal payload => ∃ msg, terminals[terminal]? = some msg ∧ msg.payload = payload
  | .failed _ => True

inductive LatchMoves (p : PendingCall) (action : Action) (next : PendingCall) : Prop where
  | stays (once : next.once = p.once) (done : next.done = p.done) (finalizer : next.finalizer = p.finalizer)
  | enters (t : Thread) (r : Result) (outside : p.finalizer t = .outside) (carries : Carries next.terminals r)
      (once : next.once = p.once) (done : next.done = p.done)
      (finalizer : next.finalizer = update p.finalizer t (.entering r))
  | begins (t : Thread) (r : Result) (called : action = .finalizeBegin t) (entering : p.finalizer t = .entering r)
      (idle : p.once = .idle) (once : next.once = .busy t) (done : next.done = p.done)
      (finalizer : next.finalizer = update p.finalizer t (.holding r))
  | late (t : Thread) (ran : p.once = .done) (once : next.once = p.once) (done : next.done = p.done)
      (finalizer : next.finalizer = update p.finalizer t .outside)
  | ends (t : Thread) (r : Result) (holding : p.finalizer t = .holding r) (once : next.once = .done)
      (done : next.done = some r) (finalizer : next.finalizer = update p.finalizer t .outside)
  | locked (idle : p.once = .idle) (once : next.once = .done) (done : next.done = some (.failed .bufferOverflow))
      (finalizer : next.finalizer = p.finalizer)

theorem outside_of_not_at (p : PendingCall) (t : Thread) (placed : Placed p) (away : ¬ p.AtFinalize t) :
    p.finalizer t = .outside := by
  by_contra inside
  exact away (placed t inside)

theorem fresh_helper_outside (p : PendingCall) (placed : Placed p) : p.finalizer (.helper p.helpers) = .outside :=
  outside_of_not_at p _ placed (Nat.lt_irrefl _)

theorem carries_last (terminals : List Message) (msg : Message) :
    Carries (terminals ++ [msg]) (.reply terminals.length msg.payload) :=
  ⟨msg, by simp, rfl⟩

theorem carries_append (terminals more : List Message) (r : Result) (carries : Carries terminals r) :
    Carries (terminals ++ more) r := by
  cases r with
  | failed err => trivial
  | reply terminal payload =>
      obtain ⟨msg, there, same⟩ := carries
      have inside := (List.getElem?_eq_some_iff.mp there).1
      exact ⟨msg, (List.getElem?_append_left inside).trans there, same⟩

theorem latch_moves (cfg : CallerConfig) (decodeEnvelope : RawMessage → Option Envelope) (p next : PendingCall)
    (action : Action) (placed : Placed p) (taken : step cfg decodeEnvelope p action = some next) :
    LatchMoves p action next := by
  cases moves_of_step cfg decodeEnvelope p next action taken with
  | streamTerminal msg =>
      exact .enters (.helper p.helpers) (.reply _ _) (fresh_helper_outside p placed) (carries_last p.terminals msg) rfl rfl rfl
  | terminal msg idle =>
      refine .enters .inbox (.reply _ _) (outside_of_not_at p _ placed ?_) (carries_last p.terminals msg) rfl rfl rfl
      simp [AtFinalize, idle]
  | finalizeLocked msg overflow idle => exact .locked idle rfl rfl rfl
  | drainErred msg handling =>
      refine .enters .drain (.failed _) (outside_of_not_at p _ placed ?_) trivial rfl rfl rfl
      simp [AtFinalize, handling]
  | finalizeBegin t r entering idle => exact .begins t r rfl entering idle rfl rfl rfl
  | finalizeLate t r entering ran => exact .late t ran rfl rfl rfl
  | finalizeEnd t r holding => exact .ends t r holding rfl rfl rfl
  | callAbort err waiting =>
      refine .enters .call (.failed err) (outside_of_not_at p _ placed ?_) trivial rfl rfl rfl
      simp [AtFinalize, waiting]
  | onFailure => exact .enters (.helper p.helpers) (.failed _) (fresh_helper_outside p placed) trivial rfl rfl rfl
  | closeContext => exact .enters (.helper p.helpers) (.failed _) (fresh_helper_outside p placed) trivial rfl rfl rfl
  | _ => exact .stays rfl rfl rfl

theorem placed_update (p next : PendingCall) (t : Thread) (pc : FinalizePc) (placed : Placed p)
    (finalizer : next.finalizer = update p.finalizer t pc) (moved : pc ≠ .outside → next.AtFinalize t)
    (others : ∀ u, u ≠ t → p.AtFinalize u → next.AtFinalize u) : Placed next := by
  intro u inside
  rw [finalizer] at inside
  by_cases same : u = t
  · subst same
    rw [Function.update_self] at inside
    exact moved inside
  · rw [Function.update_of_ne same] at inside
    exact others u same (placed u inside)

theorem placed_leave (p next : PendingCall) (t : Thread) (placed : Placed p) (outside : p.finalizer t = .outside)
    (finalizer : next.finalizer = p.finalizer) (others : ∀ u, u ≠ t → p.AtFinalize u → next.AtFinalize u) :
    Placed next := by
  intro u inside
  rw [finalizer] at inside
  refine others u ?_ (placed u inside)
  rintro rfl
  exact inside outside

theorem at_finalize_helpers (p next : PendingCall) (helpers : next.helpers = p.helpers + 1) (inbox : next.inbox = p.inbox)
    (drain : next.drain = p.drain) (call : next.call = p.call) (u : Thread) (inside : p.AtFinalize u) : next.AtFinalize u := by
  cases u with
  | helper number =>
      simp only [AtFinalize, helpers] at inside ⊢
      exact Nat.lt_succ_of_lt inside
  | _ => simpa only [AtFinalize, inbox, drain, call] using inside

theorem placed_step (cfg : CallerConfig) (decodeEnvelope : RawMessage → Option Envelope) (p : PendingCall)
    (action : Action) (next : PendingCall) (placed : Placed p)
    (taken : step cfg decodeEnvelope p action = some next) : Placed next := by
  cases moves_of_step cfg decodeEnvelope p next action taken with
  | streamTerminal msg =>
      refine placed_update p _ (.helper p.helpers) _ placed rfl (fun _ => Nat.lt_succ_self _) fun u _ => ?_
      apply at_finalize_helpers p <;> rfl
  | terminal msg idle =>
      refine placed_update p _ .inbox _ placed rfl (fun _ => rfl) fun u other => ?_
      cases u <;> first | exact id | exact absurd rfl other
  | inboxReturn finalizing outside =>
      refine placed_leave p _ .inbox placed outside rfl fun u other => ?_
      cases u <;> first | exact id | exact absurd rfl other
  | drainErred msg handling =>
      refine placed_update p _ .drain _ placed rfl (fun _ => rfl) fun u other => ?_
      cases u <;> first | exact id | exact absurd rfl other
  | drainFailed failing outside =>
      refine placed_leave p _ .drain placed outside rfl fun u other => ?_
      cases u <;> first | exact id | exact absurd rfl other
  | finalizeBegin t r entering =>
      refine placed_update p _ t _ placed rfl (fun _ => ?_) fun u _ => id
      exact placed t (by simp [entering])
  | finalizeLate t r entering => exact placed_update p _ t _ placed rfl (fun no => absurd rfl no) fun u _ => id
  | finalizeEnd t r holding => exact placed_update p _ t _ placed rfl (fun no => absurd rfl no) fun u _ => id
  | callAbort err waiting =>
      refine placed_update p _ .call _ placed rfl (fun _ => ⟨err, rfl⟩) fun u other => ?_
      cases u <;> first | exact id | exact absurd rfl other
  | callAborted err aborting outside =>
      refine placed_leave p _ .call placed outside rfl fun u other => ?_
      cases u <;> first | exact id | exact absurd rfl other
  | onFailure =>
      refine placed_update p _ (.helper p.helpers) _ placed rfl (fun _ => Nat.lt_succ_self _) fun u _ => ?_
      apply at_finalize_helpers p <;> rfl
  | closeContext =>
      refine placed_update p _ (.helper p.helpers) _ placed rfl (fun _ => Nat.lt_succ_self _) fun u _ => ?_
      apply at_finalize_helpers p <;> rfl
  | _ =>
      intro t inside
      have before := placed t inside
      cases t <;> simp_all [AtFinalize]

def FinalizePc.result : FinalizePc → Option Result
  | .outside => none
  | .entering r => some r
  | .holding r => some r

-- The done-once is held by the one thread that runs its body, it has run once a result is latched, and every reply in
-- flight names its terminal message.
structure Latch (p : PendingCall) : Prop where
  placed : Placed p
  held : ∀ t r, p.finalizer t = .holding r → p.once = .busy t
  ran : ∀ r, p.done = some r → p.once = .done
  inFlight : ∀ t r, FinalizePc.result (p.finalizer t) = some r → Carries p.terminals r
  latched : ∀ r, p.done = some r → Carries p.terminals r

theorem terminals_step (cfg : CallerConfig) (decodeEnvelope : RawMessage → Option Envelope) (p next : PendingCall)
    (action : Action) (taken : step cfg decodeEnvelope p action = some next) :
    ∃ more, next.terminals = p.terminals ++ more := by
  cases moves_of_step cfg decodeEnvelope p next action taken with
  | streamTerminal msg => exact ⟨[msg], rfl⟩
  | terminal msg => exact ⟨[msg], rfl⟩
  | _ => exact ⟨[], (List.append_nil _).symm⟩

theorem update_cases (f : Thread → FinalizePc) (t u : Thread) (pc : FinalizePc) :
    (u = t ∧ update f t pc u = pc) ∨ (u ≠ t ∧ update f t pc u = f u) := by
  by_cases same : u = t
  · exact .inl ⟨same, same ▸ Function.update_self _ _ _⟩
  · exact .inr ⟨same, Function.update_of_ne same _ _⟩

theorem start_latch (cfg : CallerConfig) : Latch (start cfg) where
  placed _ inside := absurd rfl inside
  held _ _ holding := nomatch holding
  ran _ done := nomatch done
  inFlight _ _ result := nomatch result
  latched _ done := nomatch done

theorem held_update (p next : PendingCall) (t : Thread) (pc : FinalizePc) (free : ∀ r, pc ≠ .holding r)
    (finalizer : next.finalizer = update p.finalizer t pc) (once : next.once = p.once)
    (held : ∀ u r, p.finalizer u = .holding r → p.once = .busy u) (u : Thread) (r : Result)
    (holding : next.finalizer u = .holding r) : next.once = .busy u := by
  rw [finalizer] at holding
  by_cases here : u = t
  · rw [here, Function.update_self] at holding
    exact absurd holding (free r)
  · rw [Function.update_of_ne here] at holding
    exact once.trans (held u r holding)

theorem in_flight_update (p next : PendingCall) (t : Thread) (pc : FinalizePc)
    (finalizer : next.finalizer = update p.finalizer t pc)
    (kept : ∀ r, Carries p.terminals r → Carries next.terminals r)
    (inFlight : ∀ u r, FinalizePc.result (p.finalizer u) = some r → Carries p.terminals r)
    (own : ∀ r, FinalizePc.result pc = some r → Carries next.terminals r) (u : Thread) (r : Result)
    (result : FinalizePc.result (next.finalizer u) = some r) : Carries next.terminals r := by
  rw [finalizer] at result
  by_cases here : u = t
  · rw [here, Function.update_self] at result
    exact own r result
  · rw [Function.update_of_ne here] at result
    exact kept r (inFlight u r result)

theorem latch_step (cfg : CallerConfig) (decodeEnvelope : RawMessage → Option Envelope) (p : PendingCall)
    (action : Action) (next : PendingCall) (latch : Latch p)
    (taken : step cfg decodeEnvelope p action = some next) : Latch next := by
  obtain ⟨placed, held, ran, inFlight, latched⟩ := latch
  have after := placed_step cfg decodeEnvelope p action next placed taken
  have kept : ∀ r, Carries p.terminals r → Carries next.terminals r := by
    obtain ⟨more, terminals⟩ := terminals_step cfg decodeEnvelope p next action taken
    exact fun r carries => terminals ▸ carries_append p.terminals more r carries
  cases latch_moves cfg decodeEnvelope p next action placed taken with
  | stays once done finalizer =>
      refine ⟨after, ?_, ?_, ?_, ?_⟩
      · simpa only [finalizer, once] using held
      · simpa only [done, once] using ran
      · exact fun t r result => kept r (inFlight t r (finalizer ▸ result))
      · exact fun r latch => kept r (latched r (done ▸ latch))
  | enters t r outside carries once done finalizer =>
      refine ⟨after, held_update p next t _ (by simp) finalizer once held, ?_,
        in_flight_update p next t _ finalizer kept inFlight fun other result => ?_, ?_⟩
      · simpa only [done, once] using ran
      · cases result
        exact carries
      · exact fun r latch => kept r (latched r (done ▸ latch))
  | begins t r called entering idle once done finalizer =>
      refine ⟨after, fun u other holding => ?_, fun other latch => ?_,
        in_flight_update p next t _ finalizer kept inFlight fun other result => ?_, ?_⟩
      · rcases update_cases p.finalizer t u (.holding r) with ⟨same, -⟩ | ⟨-, there⟩
        · rw [same, once]
        · rw [finalizer, there] at holding
          exact absurd ((held u other holding).symm.trans idle) (by simp)
      · exact absurd ((ran other (done ▸ latch)).symm.trans idle) (by simp)
      · cases result
        exact kept r (inFlight t r (by rw [entering]; rfl))
      · exact fun r latch => kept r (latched r (done ▸ latch))
  | late t ranBefore once done finalizer =>
      refine ⟨after, held_update p next t _ (by simp) finalizer once held, ?_,
        in_flight_update p next t _ finalizer kept inFlight fun other no => (nomatch no), ?_⟩
      · simpa only [done, once] using ran
      · exact fun r latch => kept r (latched r (done ▸ latch))
  | ends t r holdingHere once done finalizer =>
      refine ⟨after, fun u other holding => ?_, fun _ _ => once,
        in_flight_update p next t _ finalizer kept inFlight fun other no => (nomatch no), fun other latch => ?_⟩
      · rcases update_cases p.finalizer t u .outside with ⟨-, here⟩ | ⟨different, there⟩
        · rw [finalizer, here] at holding
          cases holding
        · rw [finalizer, there] at holding
          have busy := (held u other holding).symm.trans (held t r holdingHere)
          exact absurd (Once.busy.inj busy) different
      · rw [done, Option.some.injEq] at latch
        exact latch ▸ kept r (inFlight t r (by rw [holdingHere]; rfl))
  | locked idle once done finalizer =>
      refine ⟨after, fun u other holding => ?_, fun _ _ => once, ?_, fun other latch => ?_⟩
      · rw [finalizer] at holding
        exact absurd ((held u other holding).symm.trans idle) (by simp)
      · exact fun t r result => kept r (inFlight t r (finalizer ▸ result))
      · rw [done, Option.some.injEq] at latch
        exact latch ▸ trivial

def Won (p : PendingCall) (terminal : Nat) : Prop :=
  (∃ t payload, p.finalizer t = .holding (.reply terminal payload)) ∨ ∃ payload, p.done = some (.reply terminal payload)

theorem won_unique (p : PendingCall) (latch : Latch p) (m n : Nat) (first : Won p m) (second : Won p n) : m = n := by
  rcases first with ⟨t, x, holds⟩ | ⟨x, done⟩ <;> rcases second with ⟨u, y, alsoHolds⟩ | ⟨y, alsoDone⟩
  · have same := (latch.held t _ holds).symm.trans (latch.held u _ alsoHolds)
    obtain rfl := Once.busy.inj same
    rw [holds] at alsoHolds
    simp_all
  · exact absurd ((latch.held t _ holds).symm.trans (latch.ran _ alsoDone)) (by simp)
  · exact absurd ((latch.held u _ alsoHolds).symm.trans (latch.ran _ done)) (by simp)
  · rw [done] at alsoDone
    simp_all

theorem won_step (cfg : CallerConfig) (decodeEnvelope : RawMessage → Option Envelope) (p next : PendingCall)
    (action : Action) (latch : Latch p) (taken : step cfg decodeEnvelope p action = some next) (terminal : Nat)
    (won : Won p terminal) : Won next terminal := by
  have unopened : p.once ≠ .idle := by
    rcases won with ⟨t, payload, holding⟩ | ⟨payload, latched⟩
    · simp [latch.held t _ holding]
    · simp [latch.ran _ latched]
  cases latch_moves cfg decodeEnvelope p next action latch.placed taken with
  | stays once done finalizer => simpa only [Won, done, finalizer] using won
  | enters t r outside carries once done finalizer =>
      rcases won with ⟨u, payload, holding⟩ | latched
      · refine .inl ⟨u, payload, ?_⟩
        rw [finalizer, Function.update_of_ne ?_, holding]
        rintro rfl
        exact absurd (outside.symm.trans holding) (by simp)
      · exact .inr (done ▸ latched)
  | begins t r called entering idle => exact absurd idle unopened
  | late t ranBefore once done finalizer =>
      rcases won with ⟨u, payload, holding⟩ | latched
      · exact absurd ((latch.held u _ holding).symm.trans ranBefore) (by simp)
      · exact .inr (done ▸ latched)
  | ends t r holdingHere once done finalizer =>
      rcases won with ⟨u, payload, holding⟩ | ⟨payload, latched⟩
      · have same := (latch.held u _ holding).symm.trans (latch.held t _ holdingHere)
        obtain rfl := Once.busy.inj same
        rw [holding, FinalizePc.holding.injEq] at holdingHere
        exact .inr ⟨payload, done.trans (congrArg some holdingHere.symm)⟩
      · exact absurd ((latch.held t _ holdingHere).symm.trans (latch.ran _ latched)) (by simp)
  | locked idle => exact absurd idle unopened

theorem begun_won (cfg : CallerConfig) (decodeEnvelope : RawMessage → Option Envelope) (p next : PendingCall)
    (t : Thread) (terminal : Nat) (payload : RawMessage) (idle : p.once = .idle)
    (entering : p.finalizer t = .entering (.reply terminal payload))
    (taken : step cfg decodeEnvelope p (.finalizeBegin t) = some next) : Won next terminal := by
  cases moves_of_step cfg decodeEnvelope p next _ taken with
  | finalizeBegin _ r called =>
      obtain rfl := FinalizePc.entering.inj (called.symm.trans entering)
      exact .inl ⟨t, payload, Function.update_self _ _ _⟩
  | finalizeLate _ r called ran => exact absurd (idle.symm.trans ran) (by simp)

theorem won_origin (cfg : CallerConfig) (decodeEnvelope : RawMessage → Option Envelope) (p next : PendingCall)
    (action : Action) (latch : Latch p) (taken : step cfg decodeEnvelope p action = some next) (terminal : Nat)
    (won : Won next terminal) :
    Won p terminal ∨ ∃ t payload, action = .finalizeBegin t ∧ p.once = .idle ∧
      p.finalizer t = .entering (.reply terminal payload) := by
  cases latch_moves cfg decodeEnvelope p next action latch.placed taken with
  | stays once done finalizer => exact .inl (by simpa only [Won, done, finalizer] using won)
  | enters t r outside carries once done finalizer =>
      rcases won with ⟨u, payload, holding⟩ | latched
      · rcases update_cases p.finalizer t u (.entering r) with ⟨-, here⟩ | ⟨-, there⟩
        · rw [finalizer, here] at holding
          cases holding
        · exact .inl (.inl ⟨u, payload, by rw [← there, ← finalizer, holding]⟩)
      · exact .inl (.inr (done ▸ latched))
  | begins t r called entering idle once done finalizer =>
      rcases won with ⟨u, payload, holding⟩ | latched
      · rcases update_cases p.finalizer t u (.holding r) with ⟨-, here⟩ | ⟨-, there⟩
        · rw [finalizer, here, FinalizePc.holding.injEq] at holding
          exact .inr ⟨t, payload, called, idle, holding ▸ entering⟩
        · exact .inl (.inl ⟨u, payload, by rw [← there, ← finalizer, holding]⟩)
      · exact .inl (.inr (done ▸ latched))
  | late t ranBefore once done finalizer =>
      rcases won with ⟨u, payload, holding⟩ | latched
      · rcases update_cases p.finalizer t u .outside with ⟨-, here⟩ | ⟨-, there⟩
        · rw [finalizer, here] at holding
          cases holding
        · exact .inl (.inl ⟨u, payload, by rw [← there, ← finalizer, holding]⟩)
      · exact .inl (.inr (done ▸ latched))
  | ends t r holdingHere once done finalizer =>
      rcases won with ⟨u, payload, holding⟩ | ⟨payload, latched⟩
      · rcases update_cases p.finalizer t u .outside with ⟨-, here⟩ | ⟨-, there⟩
        · rw [finalizer, here] at holding
          cases holding
        · exact .inl (.inl ⟨u, payload, by rw [← there, ← finalizer, holding]⟩)
      · rw [done, Option.some.injEq] at latched
        exact .inl (.inl ⟨t, payload, latched ▸ holdingHere⟩)
  | locked idle once done finalizer =>
      rcases won with ⟨u, payload, holding⟩ | ⟨payload, latched⟩
      · exact .inl (.inl ⟨u, payload, by rw [← finalizer, holding]⟩)
      · rw [done] at latched
        cases latched

def CallFollows (p : PendingCall) : Prop :=
  match p.call with
  | .waiting | .aborting _ | .failed _ => True
  | .draining terminal payload | .reading terminal payload => p.done = some (.reply terminal payload)
  | .answered terminal _ _ => ∃ payload, p.done = some (.reply terminal payload)

theorem done_step (cfg : CallerConfig) (decodeEnvelope : RawMessage → Option Envelope) (p next : PendingCall)
    (action : Action) (latch : Latch p) (taken : step cfg decodeEnvelope p action = some next) (r : Result)
    (latched : p.done = some r) : next.done = some r := by
  have ran := latch.ran r latched
  cases latch_moves cfg decodeEnvelope p next action latch.placed taken with
  | stays once done => exact done.trans latched
  | enters t r outside carries once done => exact done.trans latched
  | begins t r called entering idle => exact absurd (ran.symm.trans idle) (by simp)
  | late t ranBefore once done => exact done.trans latched
  | ends t r holding => exact absurd ((latch.held t r holding).symm.trans ran) (by simp)
  | locked idle => exact absurd (ran.symm.trans idle) (by simp)

theorem call_follows_frame (p next : PendingCall) (call : next.call = p.call)
    (done : ∀ r, p.done = some r → next.done = some r) (follows : CallFollows p) : CallFollows next := by
  unfold CallFollows at *
  rw [call]
  cases pc : p.call with
  | waiting => trivial
  | aborting err => trivial
  | failed err => trivial
  | draining terminal payload => exact done _ (by simpa only [pc] using follows)
  | reading terminal payload => exact done _ (by simpa only [pc] using follows)
  | answered terminal envelope out =>
      simp only [pc] at follows
      obtain ⟨payload, latched⟩ := follows
      exact ⟨payload, done _ latched⟩

theorem call_follows_step (cfg : CallerConfig) (decodeEnvelope : RawMessage → Option Envelope) (p next : PendingCall)
    (action : Action) (latch : Latch p) (follows : CallFollows p)
    (taken : step cfg decodeEnvelope p action = some next) : CallFollows next := by
  have done := done_step cfg decodeEnvelope p next action latch taken
  cases moves_of_step cfg decodeEnvelope p next action taken with
  | callReceive terminal payload waiting latched => exact latched
  | streamReceive terminal payload waiting latched => exact latched
  | callFailed => trivial
  | callDrained terminal payload draining => simpa only [CallFollows, draining] using follows
  | callRead terminal payload reading => exact ⟨payload, by simpa only [CallFollows, reading] using follows⟩
  | callAbort => trivial
  | callAborted => trivial
  | _ => exact call_follows_frame p _ rfl done follows

theorem answered_won (p : PendingCall) (follows : CallFollows p) (terminal : Nat) (envelope : Bool) (out : CallReturn)
    (answered : p.call = .answered terminal envelope out) : Won p terminal := by
  simp only [CallFollows, answered] at follows
  exact .inr follows

end Brainkit.Sdk.PendingCall
