import Brainkit.Library.Transition
import Brainkit.Transport.Router
import Mathlib.Data.List.Nodup

set_option autoImplicit false

namespace Brainkit.Transport

open Function (update)
open Transition

def RunHandlersPc.pending : RunHandlersPc → List Nat
  | .starting rest _ => rest
  | _ => []

def RunHandlersPc.unconfirmed : RunHandlersPc → List Nat
  | .starting _ toStart => toStart
  | .awaiting rest => rest
  | _ => []

def RegisterPc.inFlight : RegisterPc → Bool
  | .idle | .returned _ => false
  | _ => true

def RegisterPc.sawRunning : RegisterPc → Bool
  | .idle | .added | .returned _ => false
  | _ => true

def RegisterPc.turns : RegisterPc → List RegisterPc
  | .idle => [.added]
  | .added => [.starting, .returned true]
  | .starting => [.runHandlers]
  | .runHandlers => [.awaiting, .failing]
  | .awaiting => [.returned true, .failing]
  | .failing => [.removing]
  | .removing => [.returned false]
  | .returned _ => []

def StopPc.target : StopPc → Option Nat
  | .halting x _ | .waiting x | .removing x => some x
  | _ => none

def StopPc.halted : StopPc → Option Nat
  | .waiting x | .removing x => some x
  | _ => none

namespace Router

def Pending (r : Router) (x : Nat) : Prop := ∃ c, x ∈ (r.runHandlers c).pending

def Starts (r : Router) (x : Nat) : Prop := r.Pending x ∨ r.startOnce x = true ∧ r.started x ≠ some false

structure Served (r : Router) : Prop where
  starts : r.running = true → ∀ x, r.register x = .returned true → r.stopOnce x = false → r.Starts x
  listed : r.running = true → ∀ x ∈ r.handlers, (r.register x).inFlight = false → r.stopOnce x = false → r.Starts x
  stops : ∀ x, r.stopOnce x = true → r.startOnce x = true → r.cancelled x = true

-- RegisterCommand does not look at running while Run has collected other handlers and not announced; it is not told of
-- a failed subscription by another call's RunHandlers; and a handler is neither stopped between its collection and its
-- start nor collected between its stop and its removal.
def InTime (r : Router) : Action → Prop
  | .checkRunning x => r.running = true ∨ r.startedHandlers x = true ∨ r.runHandlers .run = .idle ∨
      r.runHandlers .run = .returned false
  | .awaitOwn x => r.started x ≠ some false
  | .haltStop s => ∀ x wait, r.stop s = .halting x wait → ¬ r.Pending x
  | .stopOwn x => ¬ r.Pending x
  | .collect _ => ∀ x ∈ r.handlers, r.startedHandlers x = false → r.stopOnce x = false
  | _ => True

structure Listed (r : Router) : Prop where
  nodup : r.handlers.Nodup
  known : ∀ x ∈ r.handlers, (r.register x).inFlight = true ∨ r.register x = .returned true
  inFlight : ∀ x, (r.register x).inFlight = true → x ∈ r.handlers
  handle : ∀ s x, (r.stop s).target = some x → r.register x = .returned true
  halted : ∀ s x, (r.stop s).halted = some x → r.stopOnce x = true
  returned : ∀ x, r.register x = .returned true → r.stopOnce x = false → x ∈ r.handlers

theorem start_listed : Listed start := by
  constructor <;> simp [start, RegisterPc.inFlight, StopPc.target, StopPc.halted]

theorem listed_frame (r next : Router) (listed : Listed r) (handlers : next.handlers = r.handlers)
    (register : next.register = r.register) (stop : next.stop = r.stop) (stopOnce : next.stopOnce = r.stopOnce) :
    Listed next := by
  obtain ⟨nodup, known, inFlight, handle, halted, returned⟩ := listed
  exact ⟨handlers ▸ nodup, by rwa [handlers, register], by rwa [handlers, register], by rwa [register, stop],
    by rwa [stop, stopOnce], by rwa [handlers, register, stopOnce]⟩

theorem unstopped_before (r next : Router) (stopOnce : ∀ y, r.stopOnce y = true → next.stopOnce y = true) (x : Nat)
    (unstopped : next.stopOnce x = false) : r.stopOnce x = false := by
  by_contra stopped
  exact Bool.false_ne_true (unstopped.symm.trans (stopOnce x (by simpa using stopped)))

theorem listed_register (r next : Router) (x : Nat) (pc : RegisterPc) (listed : Listed r)
    (before : (r.register x).inFlight = true) (after : pc.inFlight = true ∨ pc = .returned true)
    (handlers : next.handlers = r.handlers) (register : next.register = update r.register x pc)
    (stop : next.stop = r.stop) (stopOnce : ∀ y, r.stopOnce y = true → next.stopOnce y = true) : Listed next := by
  refine ⟨handlers ▸ listed.nodup, fun y member => ?_, fun y flying => ?_, fun s y target => ?_, fun s y halted => ?_,
    fun y returned unstopped => ?_⟩
  · rw [handlers] at member
    rw [register]
    by_cases same : y = x
    · subst same
      simpa only [Function.update_self] using after
    · simpa only [Function.update_of_ne same] using listed.known y member
  · rw [register] at flying
    rw [handlers]
    by_cases same : y = x
    · exact same ▸ listed.inFlight x before
    · rw [Function.update_of_ne same] at flying
      exact listed.inFlight y flying
  · rw [stop] at target
    have returned := listed.handle s y target
    rw [register]
    by_cases same : y = x
    · rw [← same, returned] at before
      cases before
    · rwa [Function.update_of_ne same]
  · rw [stop] at halted
    exact stopOnce y (listed.halted s y halted)
  · rw [register] at returned
    rw [handlers]
    by_cases same : y = x
    · exact same ▸ listed.inFlight x before
    · rw [Function.update_of_ne same] at returned
      exact listed.returned y returned (unstopped_before r next stopOnce y unstopped)

theorem stop_handler_grows (r : Router) (x y : Nat) (stopped : r.stopOnce y = true) :
    (r.stopHandler x).stopOnce y = true := by
  by_cases same : y = x
  · simp [stopHandler, same]
  · simpa [stopHandler, Function.update_of_ne same] using stopped

theorem listed_stop (r next : Router) (s x : Nat) (pc : StopPc) (listed : Listed r)
    (returned : r.register x = .returned true) (target : ∀ y, pc.target = some y → y = x)
    (halts : ∀ y, pc.halted = some y → next.stopOnce y = true) (handlers : next.handlers = r.handlers)
    (register : next.register = r.register) (stop : next.stop = update r.stop s pc)
    (stopOnce : ∀ y, r.stopOnce y = true → next.stopOnce y = true) : Listed next := by
  refine ⟨handlers ▸ listed.nodup, ?_, ?_, fun t y aims => ?_, fun t y halted => ?_, fun y landed unstopped => ?_⟩
  · rw [handlers, register]
    exact listed.known
  · rw [handlers, register]
    exact listed.inFlight
  · rw [stop] at aims
    rw [register]
    by_cases same : t = s
    · rw [same, Function.update_self] at aims
      exact target y aims ▸ returned
    · rw [Function.update_of_ne same] at aims
      exact listed.handle t y aims
  · rw [stop] at halted
    by_cases same : t = s
    · rw [same, Function.update_self] at halted
      exact halts y halted
    · rw [Function.update_of_ne same] at halted
      exact stopOnce y (listed.halted t y halted)
  · rw [register] at landed
    rw [handlers]
    exact listed.returned y landed (unstopped_before r next stopOnce y unstopped)

theorem listed_add (r : Router) (x : Nat) (listed : Listed r) (idle : r.register x = .idle) :
    Listed { r with handlers := r.handlers ++ [x], register := update r.register x .added } := by
  have absent : x ∉ r.handlers := by
    intro member
    have known := listed.known x member
    rw [idle] at known
    rcases known with flying | returned
    · cases flying
    · cases returned
  refine ⟨?_, fun y member => ?_, fun y flying => ?_, fun s y target => ?_, listed.halted, fun y returned unstopped => ?_⟩
  · exact List.nodup_append.mpr ⟨listed.nodup, List.nodup_singleton x, by
      rintro y member z last rfl
      exact absent (List.mem_singleton.mp last ▸ member)⟩
  · by_cases same : y = x
    · simp [same, RegisterPc.inFlight]
    · have earlier : y ∈ r.handlers := by simpa [same] using member
      simpa only [Function.update_of_ne same] using listed.known y earlier
  · by_cases same : y = x
    · simp [same]
    · simp only [Function.update_of_ne same] at flying
      exact List.mem_append_left _ (listed.inFlight y flying)
  · have returned := listed.handle s y target
    by_cases same : y = x
    · rw [same, idle] at returned
      cases returned
    · simpa only [Function.update_of_ne same] using returned
  · by_cases same : y = x
    · simp [same] at returned
    · simp only [Function.update_of_ne same] at returned
      exact List.mem_append_left _ (listed.returned y returned unstopped)

theorem listed_remove_own (r : Router) (x : Nat) (listed : Listed r) (here : r.register x = .removing) :
    Listed { r.removeHandler x with register := update r.register x (.returned false) } := by
  refine ⟨listed.nodup.erase x, fun y member => ?_, fun y flying => ?_, fun s y target => ?_, listed.halted,
    fun y returned unstopped => ?_⟩
  · obtain ⟨other, earlier⟩ := (List.Nodup.mem_erase_iff listed.nodup).mp member
    simpa only [Function.update_of_ne other] using listed.known y earlier
  · by_cases same : y = x
    · simp [same, RegisterPc.inFlight] at flying
    · simp only [Function.update_of_ne same] at flying
      exact (List.Nodup.mem_erase_iff listed.nodup).mpr ⟨same, listed.inFlight y flying⟩
  · have returned := listed.handle s y target
    by_cases same : y = x
    · rw [same, here] at returned
      cases returned
    · simpa only [Function.update_of_ne same] using returned
  · by_cases same : y = x
    · simp [same] at returned
    · simp only [Function.update_of_ne same] at returned
      exact (List.Nodup.mem_erase_iff listed.nodup).mpr ⟨same, listed.returned y returned unstopped⟩

theorem listed_remove_stopped (r : Router) (x : Nat) (listed : Listed r) (returned : r.register x = .returned true)
    (stopped : r.stopOnce x = true) : Listed (r.removeHandler x) := by
  refine ⟨listed.nodup.erase x, fun y member => ?_, fun y flying => ?_, listed.handle, listed.halted,
    fun y landed unstopped => ?_⟩
  · exact listed.known y (List.mem_of_mem_erase member)
  · have other : y ≠ x := by
      rintro rfl
      rw [show (r.removeHandler y).register = r.register from rfl, returned] at flying
      cases flying
    exact (List.Nodup.mem_erase_iff listed.nodup).mpr ⟨other, listed.inFlight y flying⟩
  · have other : y ≠ x := by
      rintro rfl
      exact Bool.false_ne_true (unstopped.symm.trans stopped)
    exact (List.Nodup.mem_erase_iff listed.nodup).mpr ⟨other, listed.returned y landed unstopped⟩

theorem listed_step (r : Router) (action : Action) (next : Router) (listed : Listed r) (taken : step r action = some next) :
    Listed next := by
  have moves := moves_of_step r action next taken
  cases moves with
  | addConsumerHandler x idle => exact listed_add r x listed idle
  | seeRunning x added running =>
      exact listed_register r _ x _ listed (by rw [added]; rfl) (.inl rfl) rfl rfl rfl fun _ stopped => stopped
  | seeNotRunning x added running =>
      exact listed_register r _ x _ listed (by rw [added]; rfl) (.inr rfl) rfl rfl rfl fun _ stopped => stopped
  | collect c calls =>
      cases c with
      | run => exact listed_frame r _ listed rfl rfl rfl rfl
      | register x =>
          have starting : r.register x = .starting := of_decide_eq_true calls
          exact listed_register r _ x _ listed (by rw [starting]; rfl) (.inl rfl) rfl rfl rfl fun _ stopped => stopped
  | startHandler c x rest toStart here => exact listed_frame r _ listed rfl rfl rfl rfl
  | allStarted c toStart here => exact listed_frame r _ listed rfl rfl rfl rfl
  | awaitNext c pc here => exact listed_frame r _ listed rfl rfl rfl rfl
  | contextDone c x rest here => exact listed_frame r _ listed rfl rfl rfl rfl
  | announce returned => exact listed_frame r _ listed rfl rfl rfl rfl
  | proceed x ok here returned =>
      refine listed_register r _ x _ listed (by rw [here]; rfl) (.inl ?_) rfl rfl rfl fun _ stopped => stopped
      cases ok <;> rfl
  | awaitOwn x here started =>
      exact listed_register r _ x _ listed (by rw [here]; rfl) (.inr rfl) rfl rfl rfl fun _ stopped => stopped
  | ownContextDone x here =>
      exact listed_register r _ x _ listed (by rw [here]; rfl) (.inl rfl) rfl rfl rfl fun _ stopped => stopped
  | stopOwn x here =>
      exact listed_register r _ x _ listed (by rw [here]; rfl) (.inl rfl) rfl rfl rfl fun y => stop_handler_grows r x y
  | removeOwn x here => exact listed_remove_own r x listed here
  | beginStop s x idle returned =>
      exact listed_stop r _ s x (.halting x (r.started x).isSome) listed returned (fun y aims => (Option.some.inj aims).symm)
        (fun _ no => nomatch no) rfl rfl rfl fun _ stopped => stopped
  | haltStop s x wait here =>
      have returned := listed.handle s x (by rw [here]; rfl)
      refine listed_stop r _ s x _ listed returned (fun y aims => ?_) (fun y halted => ?_) rfl rfl rfl
        fun y => stop_handler_grows r x y
      · cases wait <;> exact (Option.some.inj aims).symm
      · have same : y = x := by cases wait <;> exact (Option.some.inj halted).symm
        simp [same, stopHandler]
  | awaitStopped s x here stopped =>
      have returned := listed.handle s x (by rw [here]; rfl)
      refine listed_stop r _ s x (.removing x) listed returned (fun y aims => (Option.some.inj aims).symm) (fun y halted => ?_)
        rfl rfl rfl fun _ stopped => stopped
      exact listed.halted s y (by rw [here]; exact halted)
  | stopContextDone s x here =>
      have returned := listed.handle s x (by rw [here]; rfl)
      exact listed_stop r _ s x (.returned false) listed returned (fun _ no => nomatch no) (fun _ no => nomatch no) rfl rfl rfl
        fun _ stopped => stopped
  | removeStopped s x here =>
      have returned := listed.handle s x (by rw [here]; rfl)
      have without := listed_remove_stopped r x listed returned (listed.halted s x (by rw [here]; rfl))
      exact listed_stop (r.removeHandler x) _ s x (.returned true) without returned (fun _ no => nomatch no)
        (fun _ no => nomatch no) rfl rfl rfl fun _ stopped => stopped
  | subscribe x ok launched fresh => exact listed_frame r _ listed rfl rfl rfl rfl
  | exit x closed closes => exact listed_frame r _ listed rfl rfl rfl rfl

def Confirmed (r : Router) (x : Nat) : Prop :=
  r.started x = some true ∨ r.runHandlers .run = .returned false ∨ x ∈ (r.runHandlers .run).unconfirmed

structure Announced (r : Router) : Prop where
  returned : r.running = true → r.runHandlers .run = .returned true
  saw : ∀ x, (r.register x).sawRunning = true → r.running = true
  collected : r.running = false → ∀ x, r.startedHandlers x = true → r.Confirmed x
  launched : ∀ x, (r.started x).isSome → r.startOnce x = true

theorem start_announced : Announced start := by
  constructor <;> simp [start, RegisterPc.sawRunning]

theorem confirmed_frame (r next : Router) (started : next.started = r.started)
    (run : next.runHandlers .run = r.runHandlers .run) (x : Nat) (confirmed : r.Confirmed x) : next.Confirmed x := by
  rw [Confirmed, started, run]
  exact confirmed

theorem confirmed_idle (r : Router) (x : Nat) (idle : r.runHandlers .run = .idle) (confirmed : r.Confirmed x) :
    r.started x = some true := by
  rcases confirmed with started | failed | waiting
  · exact started
  · rw [idle] at failed
    cases failed
  · rw [idle] at waiting
    cases waiting

theorem confirmed_step (r : Router) (action : Action) (next : Router) (moves : Moves r action next) (x : Nat)
    (confirmed : r.Confirmed x) : next.Confirmed x := by
  cases moves with
  | collect c calls =>
      cases c with
      | run => exact .inl (confirmed_idle r x (of_decide_eq_true calls) confirmed)
      | register y => exact confirmed_frame r _ rfl rfl x confirmed
  | startHandler c y rest toStart here =>
      cases c with
      | run =>
          rw [Confirmed, here] at confirmed
          rcases confirmed with started | failed | waiting
          · exact .inl started
          · cases failed
          · exact .inr (.inr waiting)
      | register z => exact confirmed_frame r _ rfl rfl x confirmed
  | allStarted c toStart here =>
      cases c with
      | run =>
          rw [Confirmed, here] at confirmed
          rcases confirmed with started | failed | waiting
          · exact .inl started
          · cases failed
          · exact .inr (.inr waiting)
      | register z => exact confirmed_frame r _ rfl rfl x confirmed
  | awaitNext c pc here =>
      cases c with
      | run =>
          rcases here with ⟨here, rfl⟩ | ⟨y, rest, here, ⟨started, rfl⟩ | ⟨failed, rfl⟩⟩
          · rw [Confirmed, here] at confirmed
            rcases confirmed with started | failed | waiting
            · exact .inl started
            · cases failed
            · cases waiting
          · rw [Confirmed, here] at confirmed
            rcases confirmed with mine | failed | waiting
            · exact .inl mine
            · cases failed
            · rcases List.mem_cons.mp waiting with rfl | later
              · exact .inl started
              · exact .inr (.inr later)
          · exact .inr (.inl rfl)
      | register z => exact confirmed_frame r _ rfl rfl x confirmed
  | contextDone c y rest here =>
      cases c with
      | run => exact .inr (.inl rfl)
      | register z => exact confirmed_frame r _ rfl rfl x confirmed
  | subscribe y ok launched fresh =>
      rcases confirmed with started | waiting
      · refine .inl ?_
        have other : x ≠ y := by
          rintro rfl
          rw [fresh] at started
          cases started
        simpa only [Function.update_of_ne other] using started
      · exact .inr waiting
  | _ => exact confirmed_frame r _ rfl rfl x confirmed

theorem returned_step (r : Router) (action : Action) (next : Router) (moves : Moves r action next)
    (returned : r.runHandlers .run = .returned true) : next.runHandlers .run = .returned true := by
  have elsewhere : ∀ c pc, r.runHandlers c ≠ .returned true → update r.runHandlers c pc .run = .returned true := by
    intro c pc busy
    have other : Caller.run ≠ c := by
      rintro rfl
      exact busy returned
    rwa [Function.update_of_ne other]
  cases moves with
  | collect c calls =>
      cases c with
      | run =>
          have idle : r.runHandlers .run = .idle := of_decide_eq_true calls
          exact elsewhere .run _ (by rw [idle]; exact fun no => nomatch no)
      | register x => exact returned
  | startHandler c y rest toStart here => exact elsewhere c _ (by rw [here]; exact fun no => nomatch no)
  | allStarted c toStart here => exact elsewhere c _ (by rw [here]; exact fun no => nomatch no)
  | awaitNext c pc here =>
      apply elsewhere
      rcases here with ⟨here, _⟩ | ⟨y, rest, here, _⟩
      · rw [here]; exact fun no => nomatch no
      · rw [here]; exact fun no => nomatch no
  | contextDone c y rest here => exact elsewhere c _ (by rw [here]; exact fun no => nomatch no)
  | _ => exact returned

theorem saw_register (r next : Router) (x : Nat) (pc : RegisterPc) (running : next.running = r.running)
    (register : next.register = update r.register x pc) (saw : ∀ y, (r.register y).sawRunning = true → r.running = true)
    (here : pc.sawRunning = true → r.running = true) (y : Nat) (after : (next.register y).sawRunning = true) :
    next.running = true := by
  rw [register] at after
  rw [running]
  by_cases same : y = x
  · rw [same, Function.update_self] at after
    exact here after
  · rw [Function.update_of_ne same] at after
    exact saw y after

theorem saw_step (r : Router) (action : Action) (next : Router) (moves : Moves r action next)
    (saw : ∀ x, (r.register x).sawRunning = true → r.running = true) (x : Nat)
    (after : (next.register x).sawRunning = true) : next.running = true := by
  cases moves with
  | addConsumerHandler y idle => exact saw_register r _ y .added rfl rfl saw (fun no => nomatch no) x after
  | seeRunning y added running => exact running
  | seeNotRunning y added running => exact saw_register r _ y (.returned true) rfl rfl saw (fun no => nomatch no) x after
  | collect c calls =>
      cases c with
      | run => exact saw x after
      | register y =>
          have starting : r.register y = .starting := of_decide_eq_true calls
          exact saw y (by rw [starting]; rfl)
  | announce returned => rfl
  | proceed y ok here returned => exact saw y (by rw [here]; rfl)
  | awaitOwn y here started => exact saw y (by rw [here]; rfl)
  | ownContextDone y here => exact saw y (by rw [here]; rfl)
  | stopOwn y here => exact saw y (by rw [here]; rfl)
  | removeOwn y here => exact saw y (by rw [here]; rfl)
  | _ => exact saw x after

theorem collected_step (r : Router) (action : Action) (next : Router) (announced : Announced r)
    (moves : Moves r action next) (quiet : next.running = false) (x : Nat) (collected : next.startedHandlers x = true) :
    next.Confirmed x := by
  have before : r.running = false → r.startedHandlers x = true → next.Confirmed x :=
    fun silent earlier => confirmed_step r action next moves x (announced.collected silent x earlier)
  have removed : ∀ y, update r.startedHandlers y false x = true → r.startedHandlers x = true := by
    intro y kept
    by_cases same : x = y
    · simp [same] at kept
    · rwa [Function.update_of_ne same] at kept
  cases moves with
  | collect c calls =>
      cases c with
      | run =>
          rcases Bool.or_eq_true _ _ ▸ collected with earlier | fresh
          · exact before quiet earlier
          · exact .inr (.inr (List.contains_iff_mem.mp fresh))
      | register y =>
          have starting : r.register y = .starting := of_decide_eq_true calls
          have running := announced.saw y (by rw [starting]; rfl)
          exact absurd quiet (by simp [running])
  | announce returned => cases quiet
  | removeOwn y here => exact before quiet (removed y collected)
  | removeStopped t y here => exact before quiet (removed y collected)
  | _ => exact before quiet collected

theorem launched_step (r : Router) (action : Action) (next : Router) (moves : Moves r action next)
    (launched : ∀ x, (r.started x).isSome → r.startOnce x = true) (x : Nat) (started : (next.started x).isSome) :
    next.startOnce x = true := by
  cases moves with
  | startHandler c y rest toStart here =>
      by_cases same : x = y
      · simp [same]
      · simpa only [Function.update_of_ne same] using launched x started
  | subscribe y ok ready fresh =>
      by_cases same : x = y
      · exact same ▸ ready
      · simp only [Function.update_of_ne same] at started
        exact launched x started
  | _ => exact launched x started

theorem running_step (r : Router) (action : Action) (next : Router) (moves : Moves r action next)
    (running : next.running = true) : r.running = true ∨ r.runHandlers .run = .returned true := by
  cases moves with
  | announce returned => exact .inr returned
  | _ => exact .inl running

theorem announced_step (r : Router) (action : Action) (next : Router) (announced : Announced r)
    (taken : step r action = some next) : Announced next := by
  have moves := moves_of_step r action next taken
  refine ⟨fun running => returned_step r action next moves ?_, saw_step r action next moves announced.saw,
    collected_step r action next announced moves, launched_step r action next moves announced.launched⟩
  rcases running_step r action next moves running with before | returned
  · exact announced.returned before
  · exact returned

structure Kept (r : Router) : Prop where
  registered : ∀ x, r.register x = .returned true → r.stopOnce x = false → r.runHandlers .run = .idle ∨ r.Confirmed x
  pending : ∀ x, r.Pending x → r.stopOnce x = false
  stopped : ∀ x, r.stopOnce x = true → r.startOnce x = true → r.cancelled x = true

theorem start_kept : Kept start := by
  constructor <;> simp [start, Pending, RunHandlersPc.pending]

theorem promised_step (r : Router) (action : Action) (next : Router) (announced : Announced r) (moves : Moves r action next)
    (x : Nat) (member : x ∈ r.handlers) (promised : r.runHandlers .run = .idle ∨ r.Confirmed x) :
    next.runHandlers .run = .idle ∨ next.Confirmed x := by
  rcases promised with idle | confirmed
  · have elsewhere : ∀ c pc, r.runHandlers c ≠ .idle → update r.runHandlers c pc .run = .idle := by
      intro c pc busy
      have other : Caller.run ≠ c := by
        rintro rfl
        exact busy idle
      rwa [Function.update_of_ne other]
    cases moves with
    | collect c calls =>
        cases c with
        | run =>
            have silent : r.running = false := by
              by_contra running
              have returned := announced.returned (by simpa using running)
              rw [idle] at returned
              cases returned
            cases collected : r.startedHandlers x with
            | true => exact .inr (.inl (confirmed_idle r x idle (announced.collected silent x collected)))
            | false =>
                refine .inr (.inr (.inr (List.mem_filter.mpr ⟨member, ?_⟩)))
                rw [collected]
                rfl
        | register y => exact .inl idle
    | startHandler c y rest toStart here => exact .inl (elsewhere c _ (by rw [here]; exact fun no => nomatch no))
    | allStarted c toStart here => exact .inl (elsewhere c _ (by rw [here]; exact fun no => nomatch no))
    | awaitNext c pc here =>
        refine .inl (elsewhere c _ ?_)
        rcases here with ⟨here, _⟩ | ⟨y, rest, here, _⟩
        · rw [here]; exact fun no => nomatch no
        · rw [here]; exact fun no => nomatch no
    | contextDone c y rest here => exact .inl (elsewhere c _ (by rw [here]; exact fun no => nomatch no))
    | _ => exact .inl idle
  · exact .inr (confirmed_step r action next moves x confirmed)

theorem returned_before (r : Router) (x y : Nat) (pc : RegisterPc) (other : pc ≠ .returned true)
    (returned : update r.register y pc x = .returned true) : x ≠ y ∧ r.register x = .returned true := by
  by_cases same : x = y
  · rw [same, Function.update_self] at returned
    exact absurd returned other
  · rw [Function.update_of_ne same] at returned
    exact ⟨same, returned⟩

theorem registered_step (r : Router) (action : Action) (next : Router) (listed : Listed r) (announced : Announced r)
    (kept : Kept r) (inTime : InTime r action) (moves : Moves r action next) (x : Nat)
    (returned : next.register x = .returned true) (unstopped : next.stopOnce x = false) :
    next.runHandlers .run = .idle ∨ next.Confirmed x := by
  have carry : r.register x = .returned true → r.stopOnce x = false →
      next.runHandlers .run = .idle ∨ next.Confirmed x := fun before spared =>
    promised_step r action next announced moves x (listed.returned x before spared) (kept.registered x before spared)
  have apart : ∀ y pc, pc ≠ RegisterPc.returned true → update r.register y pc x = .returned true →
      x ≠ y ∧ r.register x = .returned true :=
    fun y pc => returned_before r x y pc
  cases moves with
  | addConsumerHandler y idle =>
      exact carry (apart y .added (fun no => nomatch no) returned).2 unstopped
  | seeRunning y added running => exact carry (apart y .starting (fun no => nomatch no) returned).2 unstopped
  | seeNotRunning y added running =>
      by_cases same : x = y
      · subst same
        rcases inTime with now | collected | idle | failed
        · rw [running] at now
          cases now
        · exact .inr (announced.collected running x collected)
        · exact .inl idle
        · exact .inr (.inr (.inl failed))
      · simp only [Function.update_of_ne same] at returned
        exact carry returned unstopped
  | collect c calls =>
      cases c with
      | run => exact carry returned unstopped
      | register y => exact carry (apart y .runHandlers (fun no => nomatch no) returned).2 unstopped
  | proceed y ok here result =>
      refine carry (apart y _ (fun no => ?_) returned).2 unstopped
      cases ok <;> cases no
  | awaitOwn y here started =>
      by_cases same : x = y
      · subst same
        obtain ⟨ok, done⟩ := Option.isSome_iff_exists.mp started
        cases ok with
        | true => exact .inr (.inl done)
        | false => exact absurd done inTime
      · simp only [Function.update_of_ne same] at returned
        exact carry returned unstopped
  | ownContextDone y here => exact carry (apart y .failing (fun no => nomatch no) returned).2 unstopped
  | stopOwn y here =>
      exact carry (apart y .removing (fun no => nomatch no) returned).2 (unstopped_before r _ (stop_handler_grows r y) x unstopped)
  | removeOwn y here => exact carry (apart y (.returned false) (fun no => nomatch no) returned).2 unstopped
  | haltStop t y wait here => exact carry returned (unstopped_before r _ (stop_handler_grows r y) x unstopped)
  | _ => exact carry returned unstopped

theorem pending_turn (r next : Router) (c : Caller) (pc : RunHandlersPc) (turn : next.runHandlers = update r.runHandlers c pc)
    (fewer : ∀ x ∈ pc.pending, x ∈ (r.runHandlers c).pending) (x : Nat) (pending : next.Pending x) : r.Pending x := by
  obtain ⟨caller, member⟩ := pending
  rw [turn] at member
  by_cases same : caller = c
  · rw [same, Function.update_self] at member
    exact ⟨c, fewer x member⟩
  · rw [Function.update_of_ne same] at member
    exact ⟨caller, member⟩

theorem pending_stop (r : Router) (y : Nat) (kept : Kept r) (inTime : ¬ r.Pending y) (x : Nat) (pending : r.Pending x) :
    (r.stopHandler y).stopOnce x = false := by
  have other : x ≠ y := by
    rintro rfl
    exact inTime pending
  simpa only [stopHandler, Function.update_of_ne other] using kept.pending x pending

theorem pending_step (r : Router) (action : Action) (next : Router) (kept : Kept r) (inTime : InTime r action)
    (moves : Moves r action next) (x : Nat) (pending : next.Pending x) : next.stopOnce x = false := by
  cases moves with
  | collect c calls =>
      obtain ⟨caller, member⟩ := pending
      by_cases same : caller = c
      · subst same
        simp only [Function.update_self, RunHandlersPc.pending, List.mem_filter, Bool.not_eq_true'] at member
        exact inTime x member.1 member.2
      · simp only [Function.update_of_ne same] at member
        exact kept.pending x ⟨caller, member⟩
  | startHandler c y rest toStart here =>
      refine kept.pending x (pending_turn r _ c (.starting rest toStart) rfl (fun z member => ?_) x pending)
      rw [here]
      exact List.mem_cons_of_mem y member
  | allStarted c toStart here =>
      exact kept.pending x (pending_turn r _ c (.awaiting toStart) rfl (fun _ no => nomatch no) x pending)
  | awaitNext c pc here =>
      refine kept.pending x (pending_turn r _ c pc rfl (fun z member => ?_) x pending)
      rcases here with ⟨_, rfl⟩ | ⟨_, _, _, ⟨_, rfl⟩ | ⟨_, rfl⟩⟩ <;> cases member
  | contextDone c y rest here =>
      exact kept.pending x (pending_turn r _ c (.returned false) rfl (fun _ no => nomatch no) x pending)
  | stopOwn y here => exact pending_stop r y kept inTime x pending
  | haltStop t y wait here => exact pending_stop r y kept (inTime y wait here) x pending
  | _ => exact kept.pending x pending

theorem stopped_stop (r : Router) (y : Nat) (kept : Kept r) (x : Nat) (stopped : (r.stopHandler y).stopOnce x = true)
    (launched : r.startOnce x = true) : (r.stopHandler y).cancelled x = true := by
  by_cases same : x = y
  · subst same
    simp only [stopHandler, Function.update_self]
    split
    next before => exact kept.stopped x before launched
    next => exact launched
  · simp only [stopHandler, Function.update_of_ne same] at stopped ⊢
    exact kept.stopped x stopped launched

theorem stopped_step (r : Router) (action : Action) (next : Router) (kept : Kept r) (moves : Moves r action next) (x : Nat)
    (stopped : next.stopOnce x = true) (launched : next.startOnce x = true) : next.cancelled x = true := by
  cases moves with
  | startHandler c y rest toStart here =>
      have other : x ≠ y := by
        rintro rfl
        have unstopped := kept.pending x ⟨c, by rw [here]; exact List.mem_cons_self⟩
        exact Bool.false_ne_true (unstopped.symm.trans stopped)
      simp only [Function.update_of_ne other] at launched
      exact kept.stopped x stopped launched
  | stopOwn y here => exact stopped_stop r y kept x stopped launched
  | haltStop t y wait here => exact stopped_stop r y kept x stopped launched
  | _ => exact kept.stopped x stopped launched

theorem kept_step (r : Router) (action : Action) (next : Router) (listed : Listed r) (announced : Announced r) (kept : Kept r)
    (inTime : InTime r action) (taken : step r action = some next) : Kept next := by
  have moves := moves_of_step r action next taken
  exact ⟨registered_step r action next listed announced kept inTime moves, pending_step r action next kept inTime moves,
    stopped_step r action next kept moves⟩

-- What a step leaves alone, for those who use the router: a call that has returned, a handler not yet added, a stop.
section

variable (r : Router) (action : Action) (next : Router) (moves : Moves r action next)

include moves

theorem register_step (x : Nat) : next.register x = r.register x ∨
    next.register x ∈ (r.register x).turns ∧ (r.register x = .idle → action = .addConsumerHandler x) := by
  have turn : ∀ y pc, pc ∈ (r.register y).turns → (r.register y = .idle → action = .addConsumerHandler y) →
      update r.register y pc x = r.register x ∨
        update r.register y pc x ∈ (r.register x).turns ∧ (r.register x = .idle → action = .addConsumerHandler x) := by
    intro y pc follows adds
    by_cases same : x = y
    · rw [same, Function.update_self]
      exact .inr ⟨follows, adds⟩
    · exact .inl (Function.update_of_ne same _ _)
  cases moves with
  | addConsumerHandler y idle => exact turn y _ (by simp [idle, RegisterPc.turns]) fun _ => rfl
  | seeRunning y added running => exact turn y _ (by simp [added, RegisterPc.turns]) (by simp [added])
  | seeNotRunning y added running => exact turn y _ (by simp [added, RegisterPc.turns]) (by simp [added])
  | collect c calls =>
      cases c with
      | run => exact .inl rfl
      | register y =>
          have starting : r.register y = .starting := of_decide_eq_true calls
          exact turn y _ (by simp [starting, RegisterPc.turns]) (by simp [starting])
  | proceed y ok here result =>
      refine turn y _ ?_ (by simp [here])
      cases ok <;> simp [here, RegisterPc.turns]
  | awaitOwn y here started => exact turn y _ (by simp [here, RegisterPc.turns]) (by simp [here])
  | ownContextDone y here => exact turn y _ (by simp [here, RegisterPc.turns]) (by simp [here])
  | stopOwn y here => exact turn y _ (by simp [here, RegisterPc.turns]) (by simp [here])
  | removeOwn y here => exact turn y _ (by simp [here, RegisterPc.turns]) (by simp [here])
  | _ => exact .inl rfl

theorem register_idle (x : Nat) (idle : r.register x = .idle) (other : action ≠ .addConsumerHandler x) :
    next.register x = .idle := by
  rcases register_step r action next moves x with same | ⟨_, adds⟩
  · exact same.trans idle
  · exact absurd (adds idle) other

theorem register_returned (x : Nat) (ok : Bool) (returned : r.register x = .returned ok) :
    next.register x = .returned ok := by
  rcases register_step r action next moves x with same | ⟨turned, _⟩
  · exact same.trans returned
  · rw [returned] at turned
    cases turned

theorem register_removing (x : Nat) (removing : r.register x = .removing) :
    next.register x = .removing ∨ next.register x = .returned false := by
  rcases register_step r action next moves x with same | ⟨turned, _⟩
  · exact .inl (same.trans removing)
  · rw [removing] at turned
    exact .inr (List.mem_singleton.mp turned)

theorem stop_once_grows (x : Nat) (stopped : r.stopOnce x = true) : next.stopOnce x = true := by
  cases moves with
  | stopOwn y here => exact stop_handler_grows r y x stopped
  | haltStop t y wait here => exact stop_handler_grows r y x stopped
  | _ => exact stopped

theorem stop_step (listed : Listed r) (s : Nat) : next.stop s = r.stop s ∨
    (∃ x, action = .beginStop s x ∧ next.stop s = .halting x (r.started x).isSome) ∨
    (∃ x, (r.stop s).target = some x ∧ next.stopOnce x = true ∧ ∀ y, (next.stop s).target = some y → y = x) := by
  have elsewhere : ∀ t pc, s ≠ t → update r.stop t pc s = r.stop s := fun t pc other => Function.update_of_ne other _ _
  have halted : ∀ x, (r.stop s).halted = some x → r.stopOnce x = true := listed.halted s
  cases moves with
  | beginStop t x idle returned =>
      by_cases same : s = t
      · subst same
        exact .inr (.inl ⟨x, rfl, Function.update_self _ _ _⟩)
      · exact .inl (elsewhere t _ same)
  | haltStop t x wait here =>
      by_cases same : s = t
      · subst same
        refine .inr (.inr ⟨x, by rw [here]; rfl, Function.update_self _ _ _, fun y aims => ?_⟩)
        simp only [Function.update_self] at aims
        cases wait <;> exact (Option.some.inj aims).symm
      · exact .inl (elsewhere t _ same)
  | awaitStopped t x here stopped =>
      by_cases same : s = t
      · subst same
        refine .inr (.inr ⟨x, by rw [here]; rfl, halted x (by rw [here]; rfl), fun y aims => ?_⟩)
        simp only [Function.update_self] at aims
        exact (Option.some.inj aims).symm
      · exact .inl (elsewhere t _ same)
  | stopContextDone t x here =>
      by_cases same : s = t
      · subst same
        refine .inr (.inr ⟨x, by rw [here]; rfl, halted x (by rw [here]; rfl), fun y aims => ?_⟩)
        simp only [Function.update_self] at aims
        cases aims
      · exact .inl (elsewhere t _ same)
  | removeStopped t x here =>
      by_cases same : s = t
      · subst same
        refine .inr (.inr ⟨x, by rw [here]; rfl, halted x (by rw [here]; rfl), fun y aims => ?_⟩)
        simp only [Function.update_self] at aims
        cases aims
      · exact .inl (elsewhere t _ same)
  | _ => exact .inl rfl

theorem stop_once_step (x : Nat) (stopped : next.stopOnce x = true) :
    r.stopOnce x = true ∨ next.register x = .removing ∨ ∃ s wait, r.stop s = .halting x wait := by
  have elsewhere : ∀ y, x ≠ y → (r.stopHandler y).stopOnce x = true → r.stopOnce x = true := by
    intro y other grown
    simpa only [stopHandler, Function.update_of_ne other] using grown
  cases moves with
  | stopOwn y here =>
      by_cases same : x = y
      · subst same
        exact .inr (.inl (Function.update_self _ _ _))
      · exact .inl (elsewhere y same stopped)
  | haltStop t y wait here =>
      by_cases same : x = y
      · subst same
        exact .inr (.inr ⟨t, wait, here⟩)
      · exact .inl (elsewhere y same stopped)
  | _ => exact .inl stopped

end

def startThenStop : List Action :=
  [.addConsumerHandler 0, .checkRunning 0, .collect .run, .startNext .run, .startNext .run, .subscribe 0 true,
    .awaitNext .run, .awaitNext .run, .announce, .beginStop 0 0, .haltStop 0]

theorem table_listed (path : List Action) (r : Router) (reached : run step start path = some r) :
    r.handlers.Nodup ∧
      (∀ x, (r.register x).inFlight = true ∨ r.register x = .returned true ∧ r.stopOnce x = false → x ∈ r.handlers) ∧
      (∀ x ∈ r.handlers, (r.register x).inFlight = true ∨ r.register x = .returned true) ∧
      (r.running = true → r.runHandlers .run = .returned true) ∧ ∀ x, (r.started x).isSome → r.startOnce x = true := by
  have keeps : ∀ state action next, (Listed state ∧ Announced state) → step state action = some next →
      Listed next ∧ Announced next := fun state action next ⟨listed, announced⟩ taken =>
    ⟨listed_step state action next listed taken, announced_step state action next announced taken⟩
  obtain ⟨listed, announced⟩ := run_invariant keeps ⟨start_listed, start_announced⟩ reached
  refine ⟨listed.nodup, fun x holds => ?_, listed.known, announced.returned, announced.launched⟩
  rcases holds with inFlight | ⟨returned, unstopped⟩
  · exact listed.inFlight x inFlight
  · exact listed.returned x returned unstopped

theorem start_then_stop_listed : ∃ r, run step start startThenStop = some r ∧ r.handlers.Nodup :=
  ⟨_, rfl, (table_listed startThenStop _ rfl).1⟩

end Router

end Brainkit.Transport
