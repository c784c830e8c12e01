import Brainkit.Gateway.StreamMoves
import Brainkit.Library.Transition

set_option autoImplicit false

namespace Brainkit.Gateway

open Function (update)
open Transition GoText

def RequestPc.active : RequestPc → Bool
  | .writing | .received _ | .reassembling _ | .gathered _ _ | .sealing _ | .closing _ _ | .capped | .terminating
  | .leaving => true
  | .idle | .publishing | .waiting _ | .ready _ | .entering | .finished => false

namespace Session

def OneWriter (s : Session) : Prop :=
  ∀ a b, (s.request a).active = true → (s.request b).active = true → a = b

def Claims (s : Session) : Action → Prop
  | .writeLoop _ => s.hasWriter = false
  | _ => True

theorem write_frame (r : Nat) (lines : List Line) (s : Session) : s.write r lines = { s with wire := (s.write r lines).wire } := by
  unfold write
  split <;> rfl

inductive WriterMoves (s : Session) (action : Action) (next : Session) : Prop where
  | enters (r : Nat) (claims : action = .writeLoop r) (before : s.request r = .entering)
      (request : next.request = update s.request r .writing) (writer : next.hasWriter = true)
  | leaves (r : Nat) (quiet : ∀ r, action ≠ .writeLoop r) (before : s.request r = .leaving)
      (request : next.request = update s.request r .finished) (writer : next.hasWriter = false)
  | stays (quiet : ∀ r, action ≠ .writeLoop r) (request : ∀ r, (next.request r).active = (s.request r).active)
      (writer : next.hasWriter = s.hasWriter)

theorem active_goto (s : Session) (r : Nat) (pc : RequestPc) (same : pc.active = (s.request r).active) (q : Nat) :
    (update s.request r pc q).active = (s.request q).active := by
  by_cases here : q = r
  · rw [here, Function.update_self, same]
  · rw [Function.update_of_ne here]

theorem writer_moves (maxEvents : Nat) (s : Session) (action : Action) (next : Session)
    (taken : step maxEvents s action = some next) : WriterMoves s action next := by
  cases moves_of_step maxEvents s action next taken with
  | writeLoop r before => exact .enters r rfl before rfl rfl
  | leave r before => exact .leaves r nofun before rfl rfl
  | accepted r before => exact .stays nofun (active_goto s r _ (by rw [before]; rfl)) rfl
  | refused r before => exact .stays nofun (active_goto s r _ (by rw [before]; rfl)) rfl
  | reconnect r lastSeq before => exact .stays nofun (active_goto s r _ (by rw [before]; rfl)) rfl
  | tick r lastSeq before => exact .stays nofun (active_goto s r _ (by rw [before]; rfl)) rfl
  | deadline r lastSeq before => exact .stays nofun (active_goto s r _ (by rw [before]; rfl)) rfl
  | replay r lastSeq before =>
      rw [write_frame]
      refine .stays nofun (active_goto s r _ ?_) rfl
      rw [before]
      split <;> rfl
  | receive r evt rest before => exact .stays nofun (active_goto s r _ (by rw [before]; rfl)) rfl
  | gather r evt next rest before => exact .stays nofun (active_goto s r _ (by rw [before]; rfl)) rfl
  | timeout r maxDuration before =>
      rw [writeSyntheticError, write_frame]
      exact .stays nofun (active_goto s r _ (by rw [before]; rfl)) rfl
  | interrupted r before => exact .stays nofun (active_goto s r _ (by rw [before]; rfl)) rfl
  | keepalive r evt before => exact .stays nofun (active_goto s r _ (by rw [before]; rfl)) rfl
  | reassemble r evt before => exact .stays nofun (active_goto s r _ (by rw [before]; rfl)) rfl
  | complete r evt before => exact .stays nofun (active_goto s r _ (by rw [before]; rfl)) rfl
  | close r evt before => exact .stays nofun (active_goto s r _ (by rw [before]; rfl)) rfl
  | data r evt before =>
      rw [writeDataEvent, writeSSEEvent, write_frame]
      refine .stays nofun (active_goto s r _ ?_) rfl
      rw [before, afterData]
      split <;> rfl
  | skip r evt following before => exact .stays nofun (active_goto s r _ (by rw [before]; rfl)) rfl
  | gathered r evt following before =>
      rw [writeDataEvent, writeSSEEvent, write_frame]
      refine .stays nofun (active_goto s r _ ?_) rfl
      rw [before, afterGathered]
      split
      · rfl
      · split <;> rfl
  | breakReassemble r evt before => exact .stays nofun (active_goto s r _ (by rw [before]; rfl)) rfl
  | sealed r evt before =>
      rw [writeSSEEvent, write_frame]
      exact .stays nofun (active_goto s r _ (by rw [before]; rfl)) rfl
  | closed r evt id before =>
      rw [write_frame]
      exact .stays nofun (active_goto s r _ (by rw [before]; rfl)) rfl
  | producerError r evt id before =>
      rw [writeSyntheticError, write_frame]
      exact .stays nofun (active_goto s r _ (by rw [before]; rfl)) rfl
  | overflow r before =>
      rw [writeSyntheticError, write_frame]
      exact .stays nofun (active_goto s r _ (by rw [before]; rfl)) rfl
  | terminate r before => exact .stays nofun (active_goto s r _ (by rw [before]; rfl)) rfl
  | _ => exact .stays nofun (fun _ => rfl) rfl

def Marked (s : Session) : Prop := s.hasWriter = true ↔ ∃ r, (s.request r).active = true

theorem marked_step (maxEvents : Nat) (s : Session) (action : Action) (next : Session) (marked : Marked s)
    (one : OneWriter s) (taken : step maxEvents s action = some next) : Marked next := by
  cases writer_moves maxEvents s action next taken with
  | enters r _ before request writer =>
      refine iff_of_true writer ⟨r, ?_⟩
      rw [request, Function.update_self]
      rfl
  | leaves r _ before request writer =>
      apply iff_of_false
      · rw [writer]
        exact Bool.false_ne_true
      · intro ⟨q, active⟩
        rw [request] at active
        by_cases same : q = r
        · rw [same, Function.update_self] at active
          cases active
        · rw [Function.update_of_ne same] at active
          exact same (one q r active (by rw [before]; rfl))
  | stays _ request writer =>
      rw [Marked, writer]
      refine marked.trans ?_
      simp only [request]

theorem one_writer_step (maxEvents : Nat) (s : Session) (action : Action) (next : Session) (marked : Marked s)
    (one : OneWriter s) (taken : step maxEvents s action = some next) : OneWriter next ↔ s.Claims action := by
  cases writer_moves maxEvents s action next taken with
  | enters r claims before request writer =>
      subst claims
      constructor
      · intro still
        refine Bool.eq_false_iff.mpr fun busy => ?_
        obtain ⟨q, active⟩ := marked.mp busy
        have other : q ≠ r := by
          rintro rfl
          rw [before] at active
          cases active
        exact other (still q r (by rw [request, Function.update_of_ne other, active])
          (by rw [request, Function.update_self]; rfl))
      · intro free a b activeA activeB
        have only : ∀ q, (next.request q).active = true → q = r := by
          intro q active
          by_contra other
          rw [request, Function.update_of_ne other] at active
          exact Bool.false_ne_true (free.symm.trans (marked.mpr ⟨q, active⟩))
        exact (only a activeA).trans (only b activeB).symm
  | leaves r quiet before request writer =>
      have fewer : ∀ q, (next.request q).active = true → (s.request q).active = true := by
        intro q active
        by_cases same : q = r
        · rw [same, before]
          rfl
        · rwa [request, Function.update_of_ne same] at active
      refine iff_of_true (fun a b activeA activeB => one a b (fewer a activeA) (fewer b activeB)) ?_
      cases action with
      | writeLoop r => exact absurd rfl (quiet r)
      | _ => trivial
  | stays quiet request writer =>
      refine iff_of_true (fun a b activeA activeB => ?_) ?_
      · exact one a b (by rwa [← request]) (by rwa [← request])
      · cases action with
        | writeLoop r => exact absurd rfl (quiet r)
        | _ => trivial

theorem new_one_writer : OneWriter newStreamSession ∧ Marked newStreamSession := by
  have inactive : ∀ r, (newStreamSession.request r).active = false := by
    intro r
    by_cases first : r = 0
    · rw [first]
      rfl
    · simp [newStreamSession, Function.update_of_ne first, RequestPc.active]
  constructor
  · intro a b active
    rw [inactive] at active
    cases active
  · refine iff_of_false (fun no => nomatch no) ?_
    intro ⟨r, active⟩
    rw [inactive] at active
    cases active

theorem always_one_writer_iff {maxEvents : Nat} {s : Session} {path : List Action}
    (reached : run (step maxEvents) newStreamSession path = some s) :
    Always (step maxEvents) OneWriter newStreamSession path ↔ Along (step maxEvents) Claims newStreamSession path :=
  always_iff_along_held (fun state action next marked one _ taken => marked_step maxEvents state action next marked one taken)
    (one_writer_step maxEvents) new_one_writer.2 new_one_writer.1 reached

def hello : StreamEvent := ⟨lit "text", 0, [], lit "1", [], false, false⟩

def interruptedOnce : List Action :=
  [.published 0 true, .writeLoop 0, .deliver hello, .send, .receive 0, .process 0, .read 0, .disconnect 0, .interrupted 0,
    .leave 0]

def resumed : List Action := interruptedOnce ++ ([.reconnect 1 0, .tick 1, .replayAndResume 1, .writeLoop 1] : List Action)

theorem resumed_one_writer : Always (step 10) OneWriter newStreamSession resumed := by
  have claims : Along (step 10) Claims newStreamSession resumed := by
    repeat' first | exact trivial | refine along_cons (by first | exact trivial | rfl) rfl ?_
  exact (always_one_writer_iff rfl).mpr claims

def resumedTwice : List Action := interruptedOnce ++
  ([.reconnect 1 0, .disconnect 1, .reconnect 2 0, .tick 1, .tick 2, .replayAndResume 1, .replayAndResume 2, .writeLoop 1,
    .writeLoop 2] : List Action)

theorem resumed_twice_two_writers : ∃ s, run (step 10) newStreamSession resumedTwice = some s ∧ ¬ OneWriter s := by
  refine ⟨_, rfl, fun one => ?_⟩
  exact absurd (one 1 2 rfl rfl) (by decide)

end Session

end Brainkit.Gateway
