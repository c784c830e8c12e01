import Brainkit.Sdk.CallTable

set_option autoImplicit false

namespace Brainkit.Sdk

open Function (update)
open Transition

def RegisterPc.inside : RegisterPc → Bool
  | .locked | .checked | .stored => true
  | .outside | .registered | .rejected | .returned => false

def RegisterPc.entered : RegisterPc → Bool
  | .stored | .registered => true
  | .outside | .locked | .checked | .rejected | .returned => false

def ClosePc.inside : ClosePc → Bool
  | .outside | .finished => false
  | .locked | .ranging _ | .visiting _ _ | .finalizing _ _ | .swept => true

def ClosePc.closed : ClosePc → Bool
  | .outside | .locked => false
  | .ranging _ | .visiting _ _ | .finalizing _ _ | .swept | .finished => true

def ClosePc.visited : ClosePc → List Nat
  | .ranging visited | .visiting visited _ | .finalizing visited _ => visited
  | .outside | .locked | .swept | .finished => []

def ClosePc.passed : ClosePc → Bool
  | .swept | .finished => true
  | .outside | .locked | .ranging _ | .visiting _ _ | .finalizing _ _ => false

def FailurePc.holds (n : Nat) : FailurePc → Prop
  | .idle => False
  | .taken m | .finalizing m => m = n

namespace Caller

inductive CallMoves (c next : Caller) (n : Nat) : Prop where
  | same (call : next.call n = c.call n)
  | locks (here : c.call n = .outside) (mu : next.closeMu = .call n) (call : next.call n = .locked)
  | rejected (here : c.call n = .locked) (call : next.call n = .rejected)
  | checks (here : c.call n = .locked) (mu : next.closeMu = c.closeMu) (opened : next.closed = false)
      (call : next.call n = .checked)
  | stores (here : c.call n = .checked) (mu : next.closeMu = c.closeMu) (listed : n ∈ next.pending)
      (call : next.call n = .stored)
  | unlocks (here : c.call n = .stored) (call : next.call n = .registered)
  | returns (here : c.call n = .registered) (gone : n ∉ next.pending) (call : next.call n = .returned)

inductive CloserMoves (c next : Caller) (k : Nat) : Prop where
  | same (closer : next.closer k = c.closer k)
  | locks (mu : next.closeMu = .closer k) (closer : next.closer k = .locked)
  | closes (here : c.closer k = .locked) (mu : next.closeMu = c.closeMu) (closed : next.closed = true)
      (closer : next.closer k = .ranging [])
  | visits (visited : List Nat) (n : Nat) (here : c.closer k = .ranging visited) (mu : next.closeMu = c.closeMu)
      (closer : next.closer k = .visiting visited n)
  | begins (visited : List Nat) (n : Nat) (here : c.closer k = .visiting visited n) (mu : next.closeMu = c.closeMu)
      (once : next.once n = .running (.closer k) (.failed .callerClosed)) (closer : next.closer k = .finalizing visited n)
  | passes (visited : List Nat) (n : Nat) (here : c.closer k = .visiting visited n ∨ c.closer k = .finalizing visited n)
      (mu : next.closeMu = c.closeMu) (ran : ∃ r, next.once n = .ran r) (closer : next.closer k = .ranging (n :: visited))
  | sweeps (visited : List Nat) (here : c.closer k = .ranging visited) (mu : next.closeMu = c.closeMu)
      (pending : next.pending = c.pending) (all : ∀ n ∈ c.pending, n ∈ visited) (closer : next.closer k = .swept)
  | unlocks (here : c.closer k = .swept) (closer : next.closer k = .finished)

inductive FailureMoves (c next : Caller) (j : Nat) : Prop where
  | same (failure : next.failure j = c.failure j)
  | takes (n : Nat) (here : c.failure j = .idle) (failure : next.failure j = .taken n)
  | begins (n : Nat) (here : c.failure j = .taken n) (once : next.once n = .running (.failure j) (.failed .handlerFailed))
      (own : next.own n = some (.failed .handlerFailed)) (failure : next.failure j = .finalizing n)
  | drops (n : Nat) (here : c.failure j = .taken n ∨ c.failure j = .finalizing n) (ran : ∃ r, next.once n = .ran r)
      (failure : next.failure j = .idle)

inductive OnceMoves (c next : Caller) (n : Nat) : Prop where
  | same (once : next.once n = c.once n) (own : next.own n = c.own n)
  | begins (r : Result) (idle : c.once n = .idle) (once : next.once n = .running .own r) (own : next.own n = some r)
  | ends (r : Result) (here : c.once n = .running .own r) (once : next.once n = .ran r) (own : next.own n = c.own n)
  | fails (j : Nat) (idle : c.once n = .idle) (once : next.once n = .running (.failure j) (.failed .handlerFailed))
      (own : next.own n = some (.failed .handlerFailed))
  | failed (j : Nat) (here : c.failure j = .finalizing n) (gone : next.failure j = .idle)
      (once : next.once n = .ran (.failed .handlerFailed)) (own : next.own n = c.own n)
  | closes (k : Nat) (idle : c.once n = .idle) (once : next.once n = .running (.closer k) (.failed .callerClosed))
  | closed (k : Nat) (visited : List Nat) (here : c.closer k = .finalizing visited n)
      (gone : next.closer k = .ranging (n :: visited)) (once : next.once n = .ran (.failed .callerClosed))

inductive MuMoves (c next : Caller) : Prop where
  | same (mu : next.closeMu = c.closeMu)
  | locks (free : c.closeMu = .free)
  | left (n : Nat) (inside : (c.call n).inside = true) (call : (next.call n).inside = false)
  | closed (k : Nat) (inside : (c.closer k).inside = true) (closer : (next.closer k).inside = false)

theorem call_step (c : Caller) (action : Action) (next : Caller) (moves : Moves c action next) (n : Nat) :
    CallMoves c next n := by
  have elsewhere : ∀ m pc, n ≠ m → update c.call m pc n = c.call n := fun m pc other => Function.update_of_ne other _ _
  cases moves with
  | lockCall m outside free =>
      by_cases this : n = m
      · subst this
        exact .locks outside rfl (Function.update_self _ _ _)
      · exact .same (elsewhere m _ this)
  | rejected m locked closed =>
      by_cases this : n = m
      · subst this
        exact .rejected locked (Function.update_self _ _ _)
      · exact .same (elsewhere m _ this)
  | checked m locked unclosed =>
      by_cases this : n = m
      · subst this
        exact .checks locked rfl unclosed (Function.update_self _ _ _)
      · exact .same (elsewhere m _ this)
  | store m checked =>
      by_cases this : n = m
      · subst this
        exact .stores checked rfl List.mem_cons_self (Function.update_self _ _ _)
      · exact .same (elsewhere m _ this)
  | unlockCall m stored =>
      by_cases this : n = m
      · subst this
        exact .unlocks stored (Function.update_self _ _ _)
      · exact .same (elsewhere m _ this)
  | returnCall m r registered ran =>
      by_cases this : n = m
      · subst this
        exact .returns registered (by simp) (Function.update_self _ _ _)
      · exact .same (elsewhere m _ this)
  | _ => exact .same rfl

theorem closer_step (c : Caller) (action : Action) (next : Caller) (moves : Moves c action next) (k : Nat) :
    CloserMoves c next k := by
  have elsewhere : ∀ i pc, k ≠ i → update c.closer i pc k = c.closer k := fun i pc other => Function.update_of_ne other _ _
  cases moves with
  | lockClose i outside free =>
      by_cases this : k = i
      · subst this
        exact .locks rfl (Function.update_self _ _ _)
      · exact .same (elsewhere i _ this)
  | setClosed i locked =>
      by_cases this : k = i
      · subst this
        exact .closes locked rfl rfl (Function.update_self _ _ _)
      · exact .same (elsewhere i _ this)
  | visit i n visited ranging listed =>
      by_cases this : k = i
      · subst this
        exact .visits visited n ranging rfl (Function.update_self _ _ _)
      · exact .same (elsewhere i _ this)
  | closeBegin i n visited visiting idle =>
      by_cases this : k = i
      · subst this
        exact .begins visited n visiting rfl (Function.update_self _ _ _) (Function.update_self _ _ _)
      · exact .same (elsewhere i _ this)
  | closeLate i n visited r visiting ran =>
      by_cases this : k = i
      · subst this
        exact .passes visited n (.inl visiting) rfl ⟨r, ran⟩ (Function.update_self _ _ _)
      · exact .same (elsewhere i _ this)
  | closeEnd i n visited finalizing =>
      by_cases this : k = i
      · subst this
        exact .passes visited n (.inr finalizing) rfl ⟨_, Function.update_self _ _ _⟩ (Function.update_self _ _ _)
      · exact .same (elsewhere i _ this)
  | rangeEnd i visited ranging all =>
      by_cases this : k = i
      · subst this
        exact .sweeps visited ranging rfl rfl all (Function.update_self _ _ _)
      · exact .same (elsewhere i _ this)
  | unlockClose i swept =>
      by_cases this : k = i
      · subst this
        exact .unlocks swept (Function.update_self _ _ _)
      · exact .same (elsewhere i _ this)
  | _ => exact .same rfl

theorem failure_step (c : Caller) (action : Action) (next : Caller) (moves : Moves c action next) (j : Nat) :
    FailureMoves c next j := by
  have elsewhere : ∀ i pc, j ≠ i → update c.failure i pc j = c.failure j := fun i pc other => Function.update_of_ne other _ _
  cases moves with
  | failureTake i n idle listed =>
      by_cases this : j = i
      · subst this
        exact .takes n idle (Function.update_self _ _ _)
      · exact .same (elsewhere i _ this)
  | failureBegin i n taken idle =>
      by_cases this : j = i
      · subst this
        exact .begins n taken (Function.update_self _ _ _) (Function.update_self _ _ _) (Function.update_self _ _ _)
      · exact .same (elsewhere i _ this)
  | failureLate i n r taken ran =>
      by_cases this : j = i
      · subst this
        exact .drops n (.inl taken) ⟨r, ran⟩ (Function.update_self _ _ _)
      · exact .same (elsewhere i _ this)
  | failureEnd i n finalizing =>
      by_cases this : j = i
      · subst this
        exact .drops n (.inr finalizing) ⟨_, Function.update_self _ _ _⟩ (Function.update_self _ _ _)
      · exact .same (elsewhere i _ this)
  | _ => exact .same rfl

theorem once_step (c : Caller) (action : Action) (next : Caller) (moves : Moves c action next) (n : Nat) :
    OnceMoves c next n := by
  have elsewhere : ∀ m pc, n ≠ m → update c.once m pc n = c.once n := fun m pc other => Function.update_of_ne other _ _
  have untouched : ∀ m r, n ≠ m → update c.own m r n = c.own n := fun m r other => Function.update_of_ne other _ _
  cases moves with
  | ownBegin m r entered idle =>
      by_cases this : n = m
      · subst this
        exact .begins r idle (Function.update_self _ _ _) (Function.update_self _ _ _)
      · exact .same (elsewhere m _ this) (untouched m _ this)
  | ownEnd m r running =>
      by_cases this : n = m
      · subst this
        exact .ends r running (Function.update_self _ _ _) rfl
      · exact .same (elsewhere m _ this) rfl
  | failureBegin j m taken idle =>
      by_cases this : n = m
      · subst this
        exact .fails j idle (Function.update_self _ _ _) (Function.update_self _ _ _)
      · exact .same (elsewhere m _ this) (untouched m _ this)
  | failureEnd j m finalizing =>
      by_cases this : n = m
      · subst this
        exact .failed j finalizing (Function.update_self _ _ _) (Function.update_self _ _ _) rfl
      · exact .same (elsewhere m _ this) rfl
  | closeBegin k m visited visiting idle =>
      by_cases this : n = m
      · subst this
        exact .closes k idle (Function.update_self _ _ _)
      · exact .same (elsewhere m _ this) rfl
  | closeEnd k m visited finalizing =>
      by_cases this : n = m
      · subst this
        exact .closed k visited finalizing (Function.update_self _ _ _) (Function.update_self _ _ _)
      · exact .same (elsewhere m _ this) rfl
  | _ => exact .same rfl rfl

theorem mu_step (c : Caller) (action : Action) (next : Caller) (moves : Moves c action next) : MuMoves c next := by
  cases moves with
  | lockCall n outside free => exact .locks free
  | rejected n locked closed => exact .left n (by rw [locked]; rfl) (by simp [RegisterPc.inside])
  | unlockCall n stored => exact .left n (by rw [stored]; rfl) (by simp [RegisterPc.inside])
  | lockClose k outside free => exact .locks free
  | unlockClose k swept => exact .closed k (by rw [swept]; rfl) (by simp [ClosePc.inside])
  | _ => exact .same rfl

theorem closed_step (c : Caller) (action : Action) (next : Caller) (closed : c.closed = true)
    (taken : step c action = some next) : next.closed = true := by
  cases moves_of_step c next action taken with
  | setClosed => rfl
  | _ => exact closed

structure Guarded (c : Caller) : Prop where
  calls : ∀ n, (c.call n).inside = true → c.closeMu = .call n
  closers : ∀ k, (c.closer k).inside = true → c.closeMu = .closer k
  unclosed : ∀ n, c.call n = .checked → c.closed = false
  closed : ∀ k, (c.closer k).closed = true → c.closed = true

theorem start_guarded : Guarded start where
  calls _ inside := nomatch inside
  closers _ inside := nomatch inside
  unclosed _ checked := nomatch checked
  closed _ closed := nomatch closed

theorem guarded_calls (c : Caller) (action : Action) (next : Caller) (guarded : Guarded c) (moves : Moves c action next)
    (n : Nat) (inside : (next.call n).inside = true) : next.closeMu = .call n := by
  have keeps : (c.call n).inside = true → next.closeMu = .call n := by
    intro before
    have held := guarded.calls n before
    cases mu_step c action next moves with
    | same mu => exact mu.trans held
    | locks free =>
        rw [held] at free
        cases free
    | left m within call =>
        have other := guarded.calls m within
        rw [held] at other
        cases other
        exact absurd (inside.symm.trans call) (Bool.false_ne_true ∘ Eq.symm)
    | closed k within closer =>
        have other := guarded.closers k within
        rw [held] at other
        cases other
  cases call_step c action next moves n with
  | same call => exact keeps (call ▸ inside)
  | locks _ mu _ => exact mu
  | checks here _ _ _ | stores here _ _ _ => exact keeps (by rw [here]; rfl)
  | rejected _ call | unlocks _ call | returns _ _ call =>
      rw [call] at inside
      cases inside

theorem guarded_closers (c : Caller) (action : Action) (next : Caller) (guarded : Guarded c)
    (moves : Moves c action next) (k : Nat) (inside : (next.closer k).inside = true) : next.closeMu = .closer k := by
  have keeps : (c.closer k).inside = true → next.closeMu = .closer k := by
    intro before
    have held := guarded.closers k before
    cases mu_step c action next moves with
    | same mu => exact mu.trans held
    | locks free =>
        rw [held] at free
        cases free
    | left m within call =>
        have other := guarded.calls m within
        rw [held] at other
        cases other
    | closed i within closer =>
        have other := guarded.closers i within
        rw [held] at other
        cases other
        exact absurd (inside.symm.trans closer) (Bool.false_ne_true ∘ Eq.symm)
  cases closer_step c action next moves k with
  | same closer => exact keeps (closer ▸ inside)
  | locks mu _ => exact mu
  | closes here _ _ _ | visits _ _ here _ _ | begins _ _ here _ _ _ | sweeps _ here _ _ _ _ =>
      exact keeps (by rw [here]; rfl)
  | passes _ _ here _ _ _ => exact keeps (by rcases here with here | here <;> rw [here] <;> rfl)
  | unlocks _ closer =>
      rw [closer] at inside
      cases inside

theorem guarded_unclosed (c : Caller) (action : Action) (next : Caller) (guarded : Guarded c)
    (moves : Moves c action next) (n : Nat) (checked : next.call n = .checked) : next.closed = false := by
  cases call_step c action next moves n with
  | same call =>
      rw [call] at checked
      have opened := guarded.unclosed n checked
      cases moves with
      | setClosed k locked =>
          have mine := guarded.calls n (by rw [checked]; rfl)
          rw [guarded.closers k (by rw [locked]; rfl)] at mine
          cases mine
      | _ => exact opened
  | checks _ _ opened _ => exact opened
  | locks _ _ call | rejected _ call | stores _ _ _ call | unlocks _ call | returns _ _ call =>
      rw [checked] at call
      cases call

theorem guarded_closed (c : Caller) (action : Action) (next : Caller) (guarded : Guarded c)
    (taken : step c action = some next) (k : Nat) (closing : (next.closer k).closed = true) : next.closed = true := by
  have keeps : (c.closer k).closed = true → next.closed = true :=
    fun before => closed_step c action next (guarded.closed k before) taken
  cases closer_step c action next (moves_of_step c next action taken) k with
  | same closer => exact keeps (closer ▸ closing)
  | closes _ _ closed _ => exact closed
  | visits _ _ here _ _ | begins _ _ here _ _ _ | sweeps _ here _ _ _ _ | unlocks here _ =>
      exact keeps (by rw [here]; rfl)
  | passes _ _ here _ _ _ => exact keeps (by rcases here with here | here <;> rw [here] <;> rfl)
  | locks _ closer =>
      rw [closer] at closing
      cases closing

theorem guarded_step (c : Caller) (action : Action) (next : Caller) (guarded : Guarded c)
    (taken : step c action = some next) : Guarded next where
  calls := guarded_calls c action next guarded (moves_of_step c next action taken)
  closers := guarded_closers c action next guarded (moves_of_step c next action taken)
  unclosed := guarded_unclosed c action next guarded (moves_of_step c next action taken)
  closed := guarded_closed c action next guarded taken

structure Finalizing (c : Caller) : Prop where
  running : ∀ n r, c.once n = .running .own r → c.own n = some r
  failing : ∀ j n, c.failure j = .finalizing n →
    c.once n = .running (.failure j) (.failed .handlerFailed) ∧ c.own n = some (.failed .handlerFailed)
  closing : ∀ k visited n, c.closer k = .finalizing visited n →
    c.once n = .running (.closer k) (.failed .callerClosed)
  results : ∀ n r, c.once n = .ran r → r = .failed .callerClosed ∨ c.own n = some r

theorem start_finalizing : Finalizing start where
  running _ _ running := nomatch running
  failing _ _ finalizing := nomatch finalizing
  closing _ _ _ finalizing := nomatch finalizing
  results _ _ ran := nomatch ran

theorem finalizing_running (c : Caller) (action : Action) (next : Caller) (finalizing : Finalizing c)
    (moves : Moves c action next) (n : Nat) (r : Result) (running : next.once n = .running .own r) :
    next.own n = some r := by
  cases once_step c action next moves n with
  | same once own => exact own.trans (finalizing.running n r (once ▸ running))
  | begins result _ once own =>
      rw [once] at running
      cases running
      exact own
  | ends _ _ once _ | fails _ _ once _ | failed _ _ _ once _ | closes _ _ once | closed _ _ _ _ once =>
      rw [once] at running
      cases running

theorem running_stays (c : Caller) (action : Action) (next : Caller) (finalizing : Finalizing c)
    (moves : Moves c action next) (n : Nat) (finalizer : Finalizer) (r : Result) (other : finalizer ≠ .own)
    (running : c.once n = .running finalizer r) : (next.once n = .running finalizer r ∧ next.own n = c.own n) ∨
      (∃ j, finalizer = .failure j ∧ next.failure j = .idle) ∨
      ∃ k visited, finalizer = .closer k ∧ next.closer k = .ranging visited := by
  cases once_step c action next moves n with
  | same once own => exact .inl ⟨once.trans running, own⟩
  | ends result here _ _ =>
      rw [running] at here
      cases here
      exact absurd rfl other
  | failed j here gone _ _ =>
      have held := (finalizing.failing j n here).1
      rw [running] at held
      cases held
      exact .inr (.inl ⟨j, rfl, gone⟩)
  | closed k visited here gone _ =>
      have held := finalizing.closing k visited n here
      rw [running] at held
      cases held
      exact .inr (.inr ⟨k, _, rfl, gone⟩)
  | begins _ idle _ _ | fails _ idle _ _ | closes _ idle _ =>
      rw [running] at idle
      cases idle

theorem finalizing_failing (c : Caller) (action : Action) (next : Caller) (finalizing : Finalizing c)
    (moves : Moves c action next) (j n : Nat) (failing : next.failure j = .finalizing n) :
    next.once n = .running (.failure j) (.failed .handlerFailed) ∧ next.own n = some (.failed .handlerFailed) := by
  cases failure_step c action next moves j with
  | same failure =>
      obtain ⟨running, own⟩ := finalizing.failing j n (failure ▸ failing)
      rcases running_stays c action next finalizing moves n (.failure j) _ (fun no => nomatch no) running with
        ⟨still, kept⟩ | ⟨i, mine, idle⟩ | ⟨k, _, no, _⟩
      · exact ⟨still, kept.trans own⟩
      · cases mine
        rw [failing] at idle
        cases idle
      · cases no
  | begins m _ once own failure =>
      rw [failing] at failure
      cases failure
      exact ⟨once, own⟩
  | takes _ _ failure | drops _ _ _ failure =>
      rw [failing] at failure
      cases failure

theorem finalizing_closing (c : Caller) (action : Action) (next : Caller) (finalizing : Finalizing c)
    (moves : Moves c action next) (k : Nat) (visited : List Nat) (n : Nat)
    (closing : next.closer k = .finalizing visited n) : next.once n = .running (.closer k) (.failed .callerClosed) := by
  cases closer_step c action next moves k with
  | same closer =>
      have running := finalizing.closing k visited n (closer ▸ closing)
      rcases running_stays c action next finalizing moves n (.closer k) _ (fun no => nomatch no) running with
        ⟨still, _⟩ | ⟨_, no, _⟩ | ⟨i, _, mine, ranging⟩
      · exact still
      · cases no
      · cases mine
        rw [closing] at ranging
        cases ranging
  | begins _ _ _ _ once closer =>
      rw [closing] at closer
      cases closer
      exact once
  | locks _ closer | closes _ _ _ closer | visits _ _ _ _ closer | passes _ _ _ _ _ closer | sweeps _ _ _ _ _ closer
  | unlocks _ closer =>
      rw [closing] at closer
      cases closer

theorem finalizing_results (c : Caller) (action : Action) (next : Caller) (finalizing : Finalizing c)
    (moves : Moves c action next) (n : Nat) (r : Result) (ran : next.once n = .ran r) :
    r = .failed .callerClosed ∨ next.own n = some r := by
  cases once_step c action next moves n with
  | same once own => exact own ▸ finalizing.results n r (once ▸ ran)
  | ends result here once own =>
      rw [ran] at once
      cases once
      exact .inr (own.trans (finalizing.running n r here))
  | failed j here _ once own =>
      rw [ran] at once
      cases once
      exact .inr (own.trans (finalizing.failing j n here).2)
  | closed k visited here _ once =>
      rw [ran] at once
      cases once
      exact .inl rfl
  | begins _ _ once _ | fails _ _ once _ | closes _ _ once =>
      rw [ran] at once
      cases once

theorem finalizing_step (c : Caller) (action : Action) (next : Caller) (finalizing : Finalizing c)
    (taken : step c action = some next) : Finalizing next where
  running := finalizing_running c action next finalizing (moves_of_step c next action taken)
  failing := finalizing_failing c action next finalizing (moves_of_step c next action taken)
  closing := finalizing_closing c action next finalizing (moves_of_step c next action taken)
  results := finalizing_results c action next finalizing (moves_of_step c next action taken)

def Ran (c : Caller) (n : Nat) : Prop := ∃ r, c.once n = .ran r

theorem ran_step (c : Caller) (action : Action) (next : Caller) (taken : step c action = some next) (n : Nat)
    (ran : Ran c n) : Ran next n := by
  obtain ⟨r, ran⟩ := ran
  cases once_step c action next (moves_of_step c next action taken) n with
  | same once _ => exact ⟨r, once.trans ran⟩
  | ends result _ once _ => exact ⟨result, once⟩
  | failed _ _ _ once _ | closed _ _ _ _ once => exact ⟨_, once⟩
  | begins _ idle _ _ | fails _ idle _ _ | closes _ idle _ =>
      rw [ran] at idle
      cases idle

-- The pending table: its entries are registered calls, and a registered call that is not in it was finalized or is in
-- the hands of a failure handler.
structure Tracked (c : Caller) : Prop where
  entries : ∀ n ∈ c.pending, (c.call n).entered = true
  calls : ∀ n, (c.call n).entered = true → n ∈ c.pending ∨ Ran c n ∨ ∃ j, (c.failure j).holds n

theorem start_tracked : Tracked start where
  entries _ member := nomatch member
  calls _ entered := nomatch entered

theorem pending_before (c : Caller) (action : Action) (next : Caller) (moves : Moves c action next) (n : Nat)
    (member : n ∈ next.pending) : n ∈ c.pending ∨ c.call n = .checked ∧ next.call n = .stored := by
  cases moves with
  | store m checked =>
      rcases List.mem_cons.mp member with rfl | before
      · exact .inr ⟨checked, Function.update_self _ _ _⟩
      · exact .inl before
  | returnCall m => exact .inl (List.mem_filter.mp member).1
  | failureTake j m => exact .inl (List.mem_filter.mp member).1
  | _ => exact .inl member

theorem entries_step (c : Caller) (action : Action) (next : Caller) (tracked : Tracked c)
    (taken : step c action = some next) (n : Nat) (member : n ∈ next.pending) : (next.call n).entered = true := by
  have moves := moves_of_step c next action taken
  rcases pending_before c action next moves n member with before | ⟨_, stored⟩
  · have entered := tracked.entries n before
    cases call_step c action next moves n with
    | same call => exact call ▸ entered
    | returns _ gone _ => exact absurd member gone
    | stores _ _ _ call | unlocks _ call =>
        rw [call]
        rfl
    | locks here _ _ | rejected here _ | checks here _ _ _ =>
        rw [here] at entered
        cases entered
  · rw [stored]
    rfl

theorem holds_step (c : Caller) (action : Action) (next : Caller) (taken : step c action = some next)
    (j n : Nat) (holds : (c.failure j).holds n) : Ran next n ∨ (next.failure j).holds n := by
  cases failure_step c action next (moves_of_step c next action taken) j with
  | same failure => exact .inr (failure ▸ holds)
  | takes _ here _ =>
      rw [here] at holds
      exact holds.elim
  | begins m here _ _ failure =>
      rw [here] at holds
      exact .inr (by rw [failure]; exact holds)
  | drops m here ran _ =>
      have same : m = n := by rcases here with here | here <;> rw [here] at holds <;> exact holds
      exact .inl (same ▸ ran)

-- A call that enters does so at its insert; it leaves the table only when its failure handler or its own return takes
-- it out.
theorem calls_step (c : Caller) (action : Action) (next : Caller) (tracked : Tracked c)
    (taken : step c action = some next) (n : Nat) (entered : (next.call n).entered = true) :
    n ∈ next.pending ∨ Ran next n ∨ ∃ j, (next.failure j).holds n := by
  have moves := moves_of_step c next action taken
  have listed : n ∈ c.pending → n ∈ next.pending ∨ ∃ j, (next.failure j).holds n := by
    intro member
    cases moves with
    | store m => exact .inl (List.mem_cons_of_mem _ member)
    | returnCall m =>
        refine .inl (List.mem_filter.mpr ⟨member, decide_eq_true ?_⟩)
        rintro rfl
        simp [RegisterPc.entered] at entered
    | failureTake j m =>
        by_cases same : n = m
        · exact .inr ⟨j, by simp [FailurePc.holds, same]⟩
        · exact .inl (List.mem_filter.mpr ⟨member, decide_eq_true same⟩)
    | _ => exact .inl member
  have stays : (c.call n).entered = true → n ∈ next.pending ∨ Ran next n ∨ ∃ j, (next.failure j).holds n := by
    intro before
    rcases tracked.calls n before with member | ran | ⟨j, holds⟩
    · exact (listed member).imp id .inr
    · exact .inr (.inl (ran_step c action next taken n ran))
    · exact .inr ((holds_step c action next taken j n holds).imp id fun still => ⟨j, still⟩)
  cases call_step c action next moves n with
  | same call => exact stays (call ▸ entered)
  | stores _ _ added _ => exact .inl added
  | unlocks here _ => exact stays (by rw [here]; rfl)
  | locks _ _ call | rejected _ call | checks _ _ _ call | returns _ _ call =>
      rw [call] at entered
      cases entered

structure Swept (c : Caller) : Prop where
  visited : ∀ k, ∀ n ∈ (c.closer k).visited, Ran c n
  passed : ∀ k, (c.closer k).passed = true → ∀ n ∈ c.pending, Ran c n

theorem start_swept : Swept start where
  visited _ _ member := nomatch member
  passed _ passed := nomatch passed

theorem visited_step (c : Caller) (action : Action) (next : Caller) (swept : Swept c)
    (taken : step c action = some next) (k n : Nat) (member : n ∈ (next.closer k).visited) : Ran next n := by
  have old : n ∈ (c.closer k).visited → Ran next n :=
    fun before => ran_step c action next taken n (swept.visited k n before)
  cases closer_step c action next (moves_of_step c next action taken) k with
  | same closer => exact old (closer ▸ member)
  | visits _ _ here _ closer =>
      rw [closer] at member
      exact old (by rw [here]; exact member)
  | begins _ _ here _ _ closer =>
      rw [closer] at member
      exact old (by rw [here]; exact member)
  | passes visited m here _ ran closer =>
      rw [closer] at member
      rcases List.mem_cons.mp member with rfl | before
      · exact ran
      · exact old (by rcases here with here | here <;> rw [here] <;> exact before)
  | locks _ closer | closes _ _ _ closer | sweeps _ _ _ _ _ closer | unlocks _ closer =>
      rw [closer] at member
      cases member

theorem pending_step (c : Caller) (action : Action) (next : Caller) (guarded : Guarded c) (closed : c.closed = true)
    (taken : step c action = some next) (n : Nat) :
    (n ∈ next.pending → n ∈ c.pending) ∧ ((next.call n).entered = true → (c.call n).entered = true) := by
  have moves := moves_of_step c next action taken
  have unchecked : c.call n ≠ .checked :=
    fun checked => Bool.false_ne_true ((guarded.unclosed n checked).symm.trans closed)
  constructor
  · intro member
    rcases pending_before c action next moves n member with before | ⟨checked, _⟩
    · exact before
    · exact absurd checked unchecked
  · intro entered
    cases call_step c action next moves n with
    | same call => exact call ▸ entered
    | stores here _ _ _ => exact absurd here unchecked
    | unlocks here _ =>
        rw [here]
        rfl
    | locks _ _ call | rejected _ call | checks _ _ _ call | returns _ _ call =>
        rw [call] at entered
        cases entered

theorem passed_closed (c : Caller) (guarded : Guarded c) (k : Nat) (passed : (c.closer k).passed = true) :
    c.closed = true := by
  apply guarded.closed k
  cases here : c.closer k with
  | swept | finished => rfl
  | outside | locked | ranging _ | visiting _ _ | finalizing _ _ =>
      rw [here] at passed
      cases passed

theorem passed_step (c : Caller) (action : Action) (next : Caller) (guarded : Guarded c) (swept : Swept c)
    (taken : step c action = some next) (k : Nat) (passed : (next.closer k).passed = true) (n : Nat) (member : n ∈ next.pending) :
    Ran next n := by
  have stays : (c.closer k).passed = true → Ran c n := by
    intro before
    have closed := passed_closed c guarded k before
    exact swept.passed k before n ((pending_step c action next guarded closed taken n).1 member)
  refine ran_step c action next taken n ?_
  cases closer_step c action next (moves_of_step c next action taken) k with
  | same closer => exact stays (closer ▸ passed)
  | sweeps visited here _ pending all _ => exact swept.visited k n (by rw [here]; exact all n (pending ▸ member))
  | unlocks here _ => exact stays (by rw [here]; rfl)
  | locks _ closer | closes _ _ _ closer | visits _ _ _ _ closer | begins _ _ _ _ _ closer | passes _ _ _ _ _ closer =>
      rw [closer] at passed
      cases passed

structure Valid (c : Caller) : Prop where
  guarded : Guarded c
  finalizing : Finalizing c
  tracked : Tracked c
  swept : Swept c

theorem start_valid : Valid start := ⟨start_guarded, start_finalizing, start_tracked, start_swept⟩

theorem valid_step (c : Caller) (action : Action) (next : Caller) (valid : Valid c)
    (taken : step c action = some next) : Valid next where
  guarded := guarded_step c action next valid.guarded taken
  finalizing := finalizing_step c action next valid.finalizing taken
  tracked := ⟨entries_step c action next valid.tracked taken,
    calls_step c action next valid.tracked taken⟩
  swept := ⟨visited_step c action next valid.swept taken,
    passed_step c action next valid.guarded valid.swept taken⟩

def Outcome (c : Caller) (n : Nat) : Prop :=
  ∃ r, c.once n = .ran r ∧ (r = .failed .callerClosed ∨ c.own n = some r)

theorem ran_outcome (c : Caller) (finalizing : Finalizing c) (n : Nat) (ran : Ran c n) : Outcome c n := by
  obtain ⟨r, ran⟩ := ran
  exact ⟨r, ran, finalizing.results n r ran⟩

theorem close_context_finalizes (path : List Action) (c : Caller) (k : Nat) (reached : run step start path = some c)
    (passed : (c.closer k).passed = true) :
    (∀ n ∈ c.pending, Outcome c n) ∧
    (∀ n, (c.call n).entered = true → Outcome c n ∨ ∃ j, (c.failure j).holds n) ∧
    ∀ later next, run step c later = some next →
      (∀ n ∈ next.pending, n ∈ c.pending) ∧ ∀ n, (next.call n).entered = true → (c.call n).entered = true := by
  have valid := run_invariant valid_step start_valid reached
  have closed := passed_closed c valid.guarded k passed
  refine ⟨fun n member => ?_, fun n entered => ?_, fun later next continued => ?_⟩
  · exact ran_outcome c valid.finalizing n (valid.swept.passed k passed n member)
  · rcases valid.tracked.calls n entered with member | ran | held
    · exact .inl (ran_outcome c valid.finalizing n (valid.swept.passed k passed n member))
    · exact .inl (ran_outcome c valid.finalizing n ran)
    · exact .inr held
  · have keeps : ∀ state action after, (Guarded state ∧ state.closed = true ∧ (∀ n ∈ state.pending, n ∈ c.pending) ∧
          ∀ n, (state.call n).entered = true → (c.call n).entered = true) → step state action = some after →
        (Guarded after ∧ after.closed = true ∧ (∀ n ∈ after.pending, n ∈ c.pending) ∧
          ∀ n, (after.call n).entered = true → (c.call n).entered = true) := by
      rintro state action after ⟨guarded, stays, listed, entered⟩ taken
      have shrinks := pending_step state action after guarded stays taken
      exact ⟨guarded_step state action after guarded taken, closed_step state action after stays taken,
        fun n member => listed n ((shrinks n).1 member), fun n inside => entered n ((shrinks n).2 inside)⟩
    exact (run_invariant keeps ⟨valid.guarded, closed, fun _ member => member, fun _ inside => inside⟩ continued).2.2

def closeRun : List Action :=
  [.lockCall 0, .checkClosed 0, .store 0, .unlockCall 0, .lockClose 0, .setClosed 0, .visit 0 0, .closeBegin 0,
    .closeEnd 0, .rangeEnd 0]

theorem pending_call_closed : ∃ c, run step start closeRun = some c ∧ 0 ∈ c.pending ∧ Outcome c 0 := by
  refine ⟨_, rfl, ?_, (close_context_finalizes closeRun _ 0 rfl rfl).1 0 ?_⟩
  · decide
  · decide

end Caller

end Brainkit.Sdk
