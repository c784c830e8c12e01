import Brainkit.Gateway.ActiveWriter

set_option autoImplicit false

namespace Brainkit.Gateway

open Function (update)
open Transition GoText

def RequestPc.pending : RequestPc → Bool
  | .idle | .leaving | .finished => false
  | _ => true

namespace Session

def Waited (s : Session) : Prop := ∃ k, s.closer k = .waiting

def Full (maxEvents : Nat) (s : Session) : Prop := maxEvents ≤ s.eventCh.length ∧ s.terminal = false

def Jammed (maxEvents : Nat) (s : Session) : Prop := (∃ evt, s.handler = .sending evt) ∧ s.Full maxEvents

def Alone (s : Session) : Prop := ∀ r, (s.request r).pending = false

def AloneBut (s : Session) (r : Nat) : Prop := ∀ q, q ≠ r → (s.request q).pending = false

-- The closer waits for the handler to return, and the handler for a receive or for done, which nobody else will give.
def Deadlocked (maxEvents : Nat) (s : Session) : Prop := s.Waited ∧ s.Jammed maxEvents ∧ s.Alone

-- A closer that cancels the subscription, a handler that begins to send and a request that leaves without ending the
-- session are not the last to come to a deadlock.
def Passes (maxEvents : Nat) (s : Session) : Action → Prop
  | .lockClose _ => s.unsub = true → s.Jammed maxEvents → ¬ s.Alone
  | .deliver _ => s.Waited → s.Full maxEvents → ¬ s.Alone
  | .published r false | .deadline r | .interrupted r => s.Waited → s.Jammed maxEvents → ¬ s.AloneBut r
  | _ => True

variable {maxEvents : Nat}

theorem alone_but_of_alone {s next : Session} {r : Nat} {pc : RequestPc} (request : next.request = update s.request r pc)
    (alone : next.Alone) : s.AloneBut r := by
  intro q other
  have := alone q
  rwa [request, Function.update_of_ne other] at this

theorem alone_of_alone_but {s next : Session} {r : Nat} {pc : RequestPc} (request : next.request = update s.request r pc)
    (gone : pc.pending = false) (alone : s.AloneBut r) : next.Alone := by
  intro q
  rw [request]
  by_cases same : q = r
  · rw [same, Function.update_self, gone]
  · rw [Function.update_of_ne same, alone q same]

theorem not_deadlocked_pending {next : Session} {request : Nat → RequestPc} {r : Nat} {pc : RequestPc}
    (moved : next.request = update request r pc) (pending : pc.pending = true) : ¬ next.Deadlocked maxEvents := by
  intro deadlocked
  have gone := deadlocked.2.2 r
  rw [moved, Function.update_self, pending] at gone
  cases gone

theorem not_deadlocked_terminal {next : Session} (terminal : next.terminal = true) : ¬ next.Deadlocked maxEvents :=
  fun deadlocked => Bool.false_ne_true (deadlocked.2.1.2.2.symm.trans terminal)

theorem not_deadlocked_handler {next : Session} (free : ∀ evt, next.handler ≠ .sending evt) :
    ¬ next.Deadlocked maxEvents :=
  fun ⟨_, ⟨⟨evt, sending⟩, _⟩, _⟩ => free evt sending

theorem deadlocked_leave_iff {s next : Session} {r : Nat} {pc : RequestPc} (request : next.request = update s.request r pc)
    (gone : pc.pending = false) (closer : next.closer = s.closer) (handler : next.handler = s.handler)
    (eventCh : next.eventCh = s.eventCh) (terminal : next.terminal = s.terminal) :
    ¬ next.Deadlocked maxEvents ↔ (s.Waited → s.Jammed maxEvents → ¬ s.AloneBut r) := by
  have same : next.Deadlocked maxEvents ↔ s.Waited ∧ s.Jammed maxEvents ∧ s.AloneBut r := by
    rw [Deadlocked, Waited, Jammed, Full, closer, handler, eventCh, terminal]
    exact and_congr_right' (and_congr_right' ⟨alone_but_of_alone request, alone_of_alone_but request gone⟩)
  rw [same, not_and, not_and]

theorem not_deadlocked_left {s next : Session} {r : Nat} {pc : RequestPc} (safe : ¬ s.Deadlocked maxEvents)
    (left : (s.request r).pending = false) (request : next.request = update s.request r pc)
    (closer : next.closer = s.closer) (handler : next.handler = s.handler) (eventCh : next.eventCh = s.eventCh)
    (terminal : next.terminal = s.terminal) : ¬ next.Deadlocked maxEvents := by
  intro ⟨waited, jammed, alone⟩
  rw [Waited, closer] at waited
  rw [Jammed, Full, handler, eventCh, terminal] at jammed
  refine safe ⟨waited, jammed, fun q => ?_⟩
  by_cases same : q = r
  · rw [same, left]
  · exact alone_but_of_alone request alone q same

theorem not_deadlocked_closer {s next : Session} {k : Nat} {pc : CloserPc} (safe : ¬ s.Deadlocked maxEvents)
    (closer : next.closer = update s.closer k pc) (elsewhere : pc ≠ .waiting) (handler : next.handler = s.handler)
    (eventCh : next.eventCh = s.eventCh) (terminal : next.terminal = s.terminal) (request : next.request = s.request) :
    ¬ next.Deadlocked maxEvents := by
  intro ⟨⟨j, waiting⟩, jammed, alone⟩
  have other : j ≠ k := by
    rintro rfl
    rw [closer, Function.update_self] at waiting
    exact elsewhere waiting
  rw [closer, Function.update_of_ne other] at waiting
  rw [Jammed, Full, handler, eventCh, terminal] at jammed
  rw [Alone, request] at alone
  exact safe ⟨⟨j, waiting⟩, jammed, alone⟩

theorem passes_step (maxEvents : Nat) (s : Session) (action : Action) (next : Session) (safe : ¬ s.Deadlocked maxEvents)
    (taken : step maxEvents s action = some next) : ¬ next.Deadlocked maxEvents ↔ s.Passes maxEvents action := by
  cases moves_of_step maxEvents s action next taken with
  | accepted r before => exact iff_of_true (not_deadlocked_pending rfl rfl) trivial
  | refused r before => exact deadlocked_leave_iff rfl rfl rfl rfl rfl rfl
  | reconnect r lastSeq before => exact iff_of_true (not_deadlocked_pending rfl rfl) trivial
  | tick r lastSeq before => exact iff_of_true (not_deadlocked_pending rfl rfl) trivial
  | deadline r lastSeq before => exact deadlocked_leave_iff rfl rfl rfl rfl rfl rfl
  | replay r lastSeq before =>
      rw [write_frame]
      apply iff_of_true _ trivial
      by_cases past : s.terminal = true
      · exact not_deadlocked_terminal past
      · exact not_deadlocked_pending rfl (by rw [if_neg past]; rfl)
  | writeLoop r before => exact iff_of_true (not_deadlocked_pending rfl rfl) trivial
  | receive r evt rest before => exact iff_of_true (not_deadlocked_pending rfl rfl) trivial
  | gather r evt following rest before => exact iff_of_true (not_deadlocked_pending rfl rfl) trivial
  | timeout r maxDuration before => exact iff_of_true (not_deadlocked_pending rfl rfl) trivial
  | interrupted r before => exact deadlocked_leave_iff rfl rfl rfl rfl rfl rfl
  | keepalive r evt before => exact iff_of_true (not_deadlocked_pending rfl rfl) trivial
  | reassemble r evt before => exact iff_of_true (not_deadlocked_pending rfl rfl) trivial
  | complete r evt before => exact iff_of_true (not_deadlocked_pending rfl rfl) trivial
  | close r evt before => exact iff_of_true (not_deadlocked_pending rfl rfl) trivial
  | data r evt before =>
      refine iff_of_true (not_deadlocked_pending rfl ?_) trivial
      rw [afterData]
      split <;> rfl
  | skip r evt following before => exact iff_of_true (not_deadlocked_pending rfl rfl) trivial
  | gathered r evt following before =>
      refine iff_of_true (not_deadlocked_pending rfl ?_) trivial
      rw [afterGathered]
      split
      · rfl
      · split <;> rfl
  | breakReassemble r evt before => exact iff_of_true (not_deadlocked_pending rfl rfl) trivial
  | sealed r evt before => exact iff_of_true (not_deadlocked_pending rfl rfl) trivial
  | closed r evt id before => exact iff_of_true (not_deadlocked_pending rfl rfl) trivial
  | producerError r evt id before => exact iff_of_true (not_deadlocked_pending rfl rfl) trivial
  | overflow r before => exact iff_of_true (not_deadlocked_pending rfl rfl) trivial
  | terminate r before => exact iff_of_true (not_deadlocked_terminal rfl) trivial
  | leave r before => exact iff_of_true (not_deadlocked_left safe (by rw [before]; rfl) rfl rfl rfl rfl rfl) trivial
  | deliver evt idle =>
      have same : (Session.Deadlocked maxEvents { s with handler := .sending evt }) ↔
          s.Waited ∧ s.Full maxEvents ∧ s.Alone := by
        constructor
        · rintro ⟨waited, jammed, alone⟩
          exact ⟨waited, jammed.2, alone⟩
        · rintro ⟨waited, full, alone⟩
          exact ⟨waited, ⟨⟨evt, rfl⟩, full⟩, alone⟩
      rw [same, not_and, not_and]
      exact Iff.rfl
  | send evt sending room => exact iff_of_true (not_deadlocked_handler (by rintro _ ⟨⟩)) trivial
  | drop evt sending past => exact iff_of_true (not_deadlocked_handler (by rintro _ ⟨⟩)) trivial
  | exit idle => exact iff_of_true (not_deadlocked_handler (by rintro _ ⟨⟩)) trivial
  | closeStreamSession k before => exact iff_of_true (not_deadlocked_closer safe rfl (by rintro ⟨⟩) rfl rfl rfl rfl) trivial
  | lockWait k before unsub =>
      constructor
      · intro free _ jammed alone
        exact free ⟨⟨k, Function.update_self _ _ _⟩, jammed, alone⟩
      · intro passes deadlocked
        exact passes unsub deadlocked.2.1 deadlocked.2.2
  | lockPass k before unsub =>
      refine iff_of_true (not_deadlocked_closer safe rfl (by rintro ⟨⟩) rfl rfl rfl rfl) fun held => ?_
      rw [unsub] at held
      cases held
  | unsubClosed k before exited =>
      refine iff_of_true (not_deadlocked_handler fun evt sending => ?_) trivial
      cases exited.symm.trans sending
  | unsubExpired k before => exact iff_of_true (not_deadlocked_closer safe rfl (by rintro ⟨⟩) rfl rfl rfl rfl) trivial
  | closerTerminate k before => exact iff_of_true (not_deadlocked_terminal rfl) trivial
  | deleteSession k before => exact iff_of_true (not_deadlocked_closer safe rfl (by rintro ⟨⟩) rfl rfl rfl rfl) trivial
  | _ => exact iff_of_true safe trivial

theorem never_deadlocked_iff {s : Session} {path : List Action}
    (reached : run (step maxEvents) newStreamSession path = some s) :
    Always (step maxEvents) (fun state => ¬ state.Deadlocked maxEvents) newStreamSession path ↔
      Along (step maxEvents) (Passes maxEvents) newStreamSession path := by
  have keeps : ∀ (state : Session) action next, True → step maxEvents state action = some next → True :=
    fun _ _ _ _ _ => trivial
  have initial : ¬ newStreamSession.Deadlocked maxEvents := not_deadlocked_handler nofun
  exact always_iff_along keeps (fun state action next _ => passes_step maxEvents state action next) trivial initial reached

def closedQuiet : List Action :=
  [.published 0 true, .writeLoop 0, .deliver hello, .send, .closeStreamSession 0, .lockClose 0, .exit, .unsubClosed 0,
    .closerTerminate 0, .deleteSession 0]

theorem closed_quiet_not_deadlocked :
    Always (step 10) (fun state => ¬ state.Deadlocked 10) newStreamSession closedQuiet := by
  have idle : ∀ {s : Session}, s.handler = .idle → ¬ s.Jammed 10 :=
    fun idle ⟨⟨_, sending⟩, _⟩ => nomatch idle.symm.trans sending
  have passes : Along (step 10) (Passes 10) newStreamSession closedQuiet := by
    refine along_cons trivial rfl (along_cons trivial rfl (along_cons ?_ rfl (along_cons trivial rfl
      (along_cons trivial rfl (along_cons ?_ rfl ?_)))))
    · intro ⟨_, waiting⟩
      cases waiting
    · exact fun _ jammed => absurd jammed (idle rfl)
    · exact along_cons trivial rfl (along_cons trivial rfl (along_cons trivial rfl (along_cons trivial rfl trivial)))
  exact (never_deadlocked_iff rfl).mpr passes

-- A client has gone after the first event, the channel has room for one more, and the handler holds another.
def closedFull : List Action :=
  [.published 0 true, .writeLoop 0, .disconnect 0, .interrupted 0, .leave 0, .deliver hello, .send, .deliver hello,
    .closeStreamSession 0, .lockClose 0]

theorem closed_full_deadlocked : ∃ s, run (step 1) newStreamSession closedFull = some s ∧ s.Deadlocked 1 := by
  refine ⟨_, rfl, ⟨0, rfl⟩, ⟨⟨hello, rfl⟩, by decide, rfl⟩, fun r => ?_⟩
  by_cases first : r = 0
  · subst first
    rfl
  · simp [newStreamSession, goto, setCloser, update, first, RequestPc.pending]

end Session

end Brainkit.Gateway
