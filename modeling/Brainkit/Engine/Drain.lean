import Brainkit.Library.Headcount
import Brainkit.Library.Transition

set_option autoImplicit false

namespace Brainkit.Engine

open Function (update)
open Transition

inductive HandlerPc where
  | idle
  | checked
  | active
  | refused
  | exited
deriving DecidableEq

def HandlerPc.isActive (pc : HandlerPc) : Bool := pc = .active

inductive WaitPc where
  | idle
  | polling
  | complete
  | expired
deriving DecidableEq

-- drained is history: a drain has been reported complete and draining has been set ever since.
structure Drain where
  draining : Bool
  activeHandlers : Int
  handler : Nat → HandlerPc
  wait : Nat → WaitPc
  drained : Bool

def Drain.start : Drain := ⟨false, 0, fun _ => .idle, fun _ => .idle, false⟩

namespace Drain

def checkDraining (h : Nat) (k : Drain) : Option Drain :=
  match k.handler h with
  | .idle => some { k with handler := update k.handler h (if k.draining then .refused else .checked) }
  | _ => none

def addActive (h : Nat) (k : Drain) : Option Drain :=
  match k.handler h with
  | .checked => some { k with activeHandlers := k.activeHandlers + 1, handler := update k.handler h .active }
  | _ => none

def exitHandler (h : Nat) (k : Drain) : Option Drain :=
  match k.handler h with
  | .active => some { k with activeHandlers := k.activeHandlers - 1, handler := update k.handler h .exited }
  | _ => none

def setDraining (v : Bool) (k : Drain) : Drain := { k with draining := v, drained := k.drained && v }

def waitForDrain (w : Nat) (k : Drain) : Option Drain :=
  match k.wait w with
  | .idle => some { k with wait := update k.wait w .polling }
  | _ => none

def poll (w : Nat) (k : Drain) : Option Drain :=
  match k.wait w with
  | .polling =>
      if k.activeHandlers = 0 then some { k with wait := update k.wait w .complete, drained := k.drained || k.draining }
      else some k
  | _ => none

def contextDone (w : Nat) (k : Drain) : Option Drain :=
  match k.wait w with
  | .polling => some { k with wait := update k.wait w .expired }
  | _ => none

inductive Action where
  | checkDraining (h : Nat)
  | addActive (h : Nat)
  | exitHandler (h : Nat)
  | setDraining (v : Bool)
  | waitForDrain (w : Nat)
  | poll (w : Nat)
  | contextDone (w : Nat)

def step (k : Drain) : Action → Option Drain
  | .checkDraining h => k.checkDraining h
  | .addActive h => k.addActive h
  | .exitHandler h => k.exitHandler h
  | .setDraining v => some (k.setDraining v)
  | .waitForDrain w => k.waitForDrain w
  | .poll w => k.poll w
  | .contextDone w => k.contextDone w

structure DrainSafe (k : Drain) : Prop where
  none : k.drained = true → ∀ h, k.handler h ≠ .active
  stays : k.drained = true → ∀ action next, step k action = some next → next.drained = true →
    ∀ h, next.handler h ≠ .active

def NoneEntering (k : Drain) : Action → Prop
  | .poll w => k.wait w = .polling → k.activeHandlers = 0 → k.draining = true → ∀ h, k.handler h ≠ .checked
  | _ => True

structure Sound (k : Drain) : Prop where
  counts : ∃ count : Nat, k.activeHandlers = count ∧ Headcount.Counts (fun h => (k.handler h).isActive) count
  draining : k.drained = true → k.draining = true

theorem start_sound : Sound start where
  counts := ⟨0, rfl, Headcount.counts_nobody⟩
  draining drained := nomatch drained

theorem active_set (k : Drain) (h : Nat) (pc : HandlerPc) :
    (fun other => (update k.handler h pc other).isActive) =
      update (fun other => (k.handler other).isActive) h pc.isActive := by
  funext other
  by_cases same : other = h
  · simp [same]
  · simp [Function.update_of_ne same]

theorem counts_same (k : Drain) (h : Nat) (pc : HandlerPc) (same : pc.isActive = (k.handler h).isActive) (count : Nat)
    (counts : Headcount.Counts (fun other => (k.handler other).isActive) count) :
    Headcount.Counts (fun other => (update k.handler h pc other).isActive) count := by
  rw [active_set, same]
  rwa [Function.update_eq_self h fun other => (k.handler other).isActive]

theorem sound_step (k : Drain) (action : Action) (next : Drain) (sound : Sound k) (taken : step k action = some next) :
    Sound next := by
  obtain ⟨count, total, counts⟩ := sound.counts
  cases action with
  | checkDraining h =>
      simp only [step, checkDraining] at taken
      split at taken <;> cases taken
      next idle =>
        refine ⟨⟨count, total, counts_same k h _ ?_ count counts⟩, sound.draining⟩
        split <;> rw [idle] <;> rfl
  | addActive h =>
      simp only [step, addActive] at taken
      split at taken <;> cases taken
      next checked =>
        refine ⟨⟨count + 1, by simp [total], ?_⟩, sound.draining⟩
        rw [active_set]
        exact Headcount.counts_enter counts h (by rw [checked]; rfl)
  | exitHandler h =>
      simp only [step, exitHandler] at taken
      split at taken <;> cases taken
      next active =>
        have present : (k.handler h).isActive = true := by rw [active]; rfl
        have positive := Headcount.counts_pos counts h present
        refine ⟨⟨count - 1, by simp only [total]; omega, ?_⟩, sound.draining⟩
        rw [active_set]
        exact Headcount.counts_leave counts h present
  | setDraining v =>
      cases taken
      refine ⟨⟨count, total, counts⟩, fun drained => ?_⟩
      simp only [setDraining, Bool.and_eq_true] at drained
      exact drained.2
  | waitForDrain w =>
      simp only [step, waitForDrain] at taken
      split at taken <;> cases taken
      exact ⟨⟨count, total, counts⟩, sound.draining⟩
  | poll w =>
      simp only [step, poll] at taken
      split at taken
      next =>
        split at taken <;> cases taken
        next =>
          refine ⟨⟨count, total, counts⟩, fun drained => ?_⟩
          simp only [Bool.or_eq_true] at drained
          exact drained.elim sound.draining id
        next => exact sound
      next => cases taken
  | contextDone w =>
      simp only [step, contextDone] at taken
      split at taken <;> cases taken
      exact ⟨⟨count, total, counts⟩, sound.draining⟩

def Deserted (k : Drain) : Prop := k.drained = true → ∀ h, k.handler h ≠ .active ∧ k.handler h ≠ .checked

theorem none_active (k : Drain) (sound : Sound k) (zero : k.activeHandlers = 0) (h : Nat) : k.handler h ≠ .active := by
  obtain ⟨count, total, counts⟩ := sound.counts
  obtain rfl : count = 0 := by omega
  intro active
  have outside := Headcount.counts_zero_iff.mp counts h
  rw [active] at outside
  cases outside

theorem deserted_step_iff (k : Drain) (action : Action) (next : Drain) (sound : Sound k) (deserted : Deserted k)
    (taken : step k action = some next) : Deserted next ↔ NoneEntering k action := by
  cases action with
  | checkDraining h =>
      simp only [step, checkDraining] at taken
      split at taken <;> cases taken
      refine iff_of_true (fun drained other => ?_) trivial
      have draining := sound.draining drained
      by_cases same : other = h
      · simp [same, draining]
      · simpa [Function.update_of_ne same] using deserted drained other
  | addActive h =>
      simp only [step, addActive] at taken
      split at taken <;> cases taken
      next checked => exact iff_of_true (fun drained => absurd checked (deserted drained h).2) trivial
  | exitHandler h =>
      simp only [step, exitHandler] at taken
      split at taken <;> cases taken
      refine iff_of_true (fun drained other => ?_) trivial
      by_cases same : other = h
      · simp [same]
      · simpa [Function.update_of_ne same] using deserted drained other
  | setDraining v =>
      cases taken
      refine iff_of_true (fun drained => deserted ?_) trivial
      simp only [setDraining, Bool.and_eq_true] at drained
      exact drained.1
  | waitForDrain w =>
      simp only [step, waitForDrain] at taken
      split at taken <;> cases taken
      exact iff_of_true deserted trivial
  | poll w =>
      simp only [step, poll] at taken
      split at taken
      next polling =>
        split at taken <;> cases taken
        next zero =>
          constructor
          · intro after _ _ draining h
            exact (after (by simp [draining]) h).2
          · intro entering drained h
            rcases Bool.or_eq_true _ _ ▸ drained with before | draining
            · exact deserted before h
            · exact ⟨none_active k sound zero h, entering polling zero draining h⟩
        next busy => exact iff_of_true deserted fun _ zero => absurd zero busy
      next => cases taken
  | contextDone w =>
      simp only [step, contextDone] at taken
      split at taken <;> cases taken
      exact iff_of_true deserted trivial

theorem drain_safe_iff (k : Drain) (sound : Sound k) : DrainSafe k ↔ Deserted k := by
  constructor
  · intro safe drained h
    refine ⟨safe.none drained h, fun checked => ?_⟩
    have taken : step k (.addActive h) =
        some { k with activeHandlers := k.activeHandlers + 1, handler := update k.handler h .active } := by
      simp only [step, addActive, checked]
    exact safe.stays drained _ _ taken drained h (Function.update_self _ _ _)
  · intro deserted
    refine ⟨fun drained h => (deserted drained h).1, fun drained action next taken after h active => ?_⟩
    have kept : Deserted next := by
      refine (deserted_step_iff k action next sound deserted taken).mpr ?_
      cases action with
      | poll w => exact fun _ _ _ other => (deserted drained other).2
      | _ => trivial
    exact (kept after h).1 active

theorem drain_safe_step_iff (k : Drain) (action : Action) (next : Drain) (sound : Sound k) (safe : DrainSafe k)
    (taken : step k action = some next) : DrainSafe next ↔ NoneEntering k action := by
  rw [drain_safe_iff next (sound_step k action next sound taken)]
  exact deserted_step_iff k action next sound ((drain_safe_iff k sound).mp safe) taken

theorem drained_iff (path : List Action) (k : Drain) (reached : run step start path = some k) :
    Always step DrainSafe start path ↔ Along step NoneEntering start path :=
  always_iff_along sound_step drain_safe_step_iff start_sound
    ((drain_safe_iff start start_sound).mpr fun drained => nomatch drained) reached

theorem handler_enters_after_drain : ∃ k, Reachable step start k ∧ k.draining = true ∧ k.wait 0 = .complete ∧
    k.handler 0 = .active ∧ ¬ DrainSafe k := by
  refine ⟨_, ⟨[.checkDraining 0, .setDraining true, .waitForDrain 0, .poll 0, .addActive 0], rfl⟩, rfl, rfl, rfl, ?_⟩
  exact fun safe => safe.none rfl 0 rfl

def drainOneHandler : List Action :=
  [.checkDraining 0, .addActive 0, .setDraining true, .waitForDrain 0, .poll 0, .checkDraining 1, .exitHandler 0, .poll 0,
    .checkDraining 2]

theorem one_handler_drained : Always step DrainSafe start drainOneHandler := by
  apply (drained_iff drainOneHandler _ rfl).mpr
  apply along_cons trivial rfl
  apply along_cons trivial rfl
  apply along_cons trivial rfl
  apply along_cons trivial rfl
  apply along_cons (fun _ busy => absurd busy (by decide)) rfl
  apply along_cons trivial rfl
  apply along_cons trivial rfl
  refine along_cons (fun _ _ _ h => ?_) rfl ?_
  · match h with
    | 0 | 1 => exact fun no => nomatch no
    | h + 2 => exact fun no => nomatch no
  exact along_cons trivial rfl trivial

end Drain

end Brainkit.Engine
