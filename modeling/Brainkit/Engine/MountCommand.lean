import Brainkit.Engine.CommandCatalog
import Brainkit.Library.Registry
import Brainkit.Transport.Registration

set_option autoImplicit false

namespace Brainkit.Engine

open Function (update)
open Transition GoText Transport

inductive MountPc where
  | idle
  | refused (err : GoString)
  | registering
  | failing
  | failed
  | mounted
  | closed
deriving DecidableEq

def MountPc.Meets : MountPc → RegisterPc → Prop
  | .idle, pc | .refused _, pc => pc = .idle
  | .registering, _ => True
  | .failing, pc | .failed, pc => pc = .returned false
  | .mounted, pc | .closed, pc => pc = .returned true

def MountPc.holds : MountPc → Bool
  | .registering | .failing | .mounted => true
  | _ => false

inductive ClosePc where
  | idle
  | stopping (x : Nat)
  | returned (ok : Bool)
deriving DecidableEq

-- The kernel's command catalog above the router. A mount and its handler bear one number, a Close and its Stop too. The
-- commands of the kernel itself are mounts that nobody closes.
structure Mounts where
  catalog : CommandRegistry
  router : Router
  topic : Nat → GoString
  mount : Nat → MountPc
  close : Nat → ClosePc

def Mounts.start : Mounts where
  catalog := .empty
  router := .start
  topic := fun _ => []
  mount := fun _ => .idle
  close := fun _ => .idle

namespace Mounts

-- The locked Add. The empty topic is refused before it, with the same text.
def mountCommand (x : Nat) (topic : GoString) (k : Mounts) : Option Mounts :=
  match k.mount x with
  | .idle => match k.catalog.add ⟨topic, x⟩ with
      | .error err => some { k with mount := update k.mount x (.refused err) }
      | .ok catalog => some { k with
          catalog := catalog
          topic := update k.topic x topic
          mount := update k.mount x .registering }
  | _ => none

-- The router runs on its own, but a handler is added by its mount and a handle is stopped by its close.
def allows (k : Mounts) : Router.Action → Bool
  | .addConsumerHandler x => k.mount x = .registering
  | .beginStop c x => k.close c = .stopping x
  | _ => true

def routed (action : Router.Action) (k : Mounts) : Option Mounts :=
  if k.allows action then (Router.step k.router action).map fun router => { k with router := router } else none

def registered (x : Nat) (k : Mounts) : Option Mounts :=
  match k.mount x, k.router.register x with
  | .registering, .returned ok => some { k with mount := update k.mount x (if ok then .mounted else .failing) }
  | _, _ => none

def removeFailed (x : Nat) (k : Mounts) : Option Mounts :=
  match k.mount x with
  | .failing => some { k with catalog := k.catalog.remove (k.topic x), mount := update k.mount x .failed }
  | _ => none

-- The handle's Close up to its Stop. Whoever holds the handle may call it again: a scope keeps a cleanup that failed.
def closeHandle (c x : Nat) (k : Mounts) : Option Mounts :=
  if k.close c = .idle ∧ (k.mount x = .mounted ∨ k.mount x = .closed) then
    some { k with
      catalog := k.catalog.remove (k.topic x)
      mount := update k.mount x .closed
      close := update k.close c (.stopping x) }
  else none

def closeReturned (c : Nat) (k : Mounts) : Option Mounts :=
  match k.close c, k.router.stop c with
  | .stopping _, .returned ok => some { k with close := update k.close c (.returned ok) }
  | _, _ => none

inductive Action where
  | mountCommand (x : Nat) (topic : GoString)
  | routed (action : Router.Action)
  | registered (x : Nat)
  | removeFailed (x : Nat)
  | closeHandle (c x : Nat)
  | closeReturned (c : Nat)

def step (k : Mounts) : Action → Option Mounts
  | .mountCommand x topic => k.mountCommand x topic
  | .routed action => k.routed action
  | .registered x => k.registered x
  | .removeFailed x => k.removeFailed x
  | .closeHandle c x => k.closeHandle c x
  | .closeReturned c => k.closeReturned c

def Live (k : Mounts) (x : Nat) : Prop := x ∈ k.router.handlers ∧ k.router.stopOnce x = false

instance (k : Mounts) (x : Nat) : Decidable (k.Live x) :=
  inferInstanceAs (Decidable (x ∈ k.router.handlers ∧ k.router.stopOnce x = false))

def Holds (k : Mounts) (x : Nat) : Prop := (k.mount x).holds = true

structure Quiet (k : Mounts) (topic : GoString) : Prop where
  mount : ∀ x, k.topic x = topic → k.mount x ≠ .registering ∧ k.mount x ≠ .failing
  close : ∀ c x, k.topic x = topic → k.close c ≠ .stopping x

structure Served (k : Mounts) : Prop where
  listed : ∀ topic, k.Quiet topic → (k.catalog.hasCommand topic = true ↔ ∃ x, k.topic x = topic ∧ k.Live x)
  entry : ∀ x, k.Holds x → k.catalog.byTopic (k.topic x) = some ⟨k.topic x, x⟩
  handler : ∀ x, k.mount x = .mounted → k.Live x

def OwnRemoval (k : Mounts) : Action → Prop
  | .removeFailed x => ∀ spec, k.catalog.byTopic (k.topic x) = some spec → spec.mount = x
  | .closeHandle _ x => ∀ spec, k.catalog.byTopic (k.topic x) = some spec → spec.mount = x
  | _ => True

structure Joined (k : Mounts) : Prop where
  table : Router.Listed k.router
  meets : ∀ x, (k.mount x).Meets (k.router.register x)
  stopping : ∀ c x, (k.router.stop c).target = some x → k.close c = .stopping x
  unstopped : ∀ c, k.close c = .idle → k.router.stop c = .idle
  closing : ∀ c x, k.close c = .stopping x → k.mount x = .closed
  halts : ∀ c x, k.close c = .stopping x →
    k.router.stop c = .idle ∨ (∃ wait, k.router.stop c = .halting x wait) ∨ k.router.stopOnce x = true
  stopped : ∀ x, k.router.stopOnce x = true →
    k.mount x = .closed ∨ k.router.register x = .removing ∨ k.router.register x = .returned false
  closed : ∀ x, k.mount x = .closed → k.router.stopOnce x = true ∨ ∃ c, k.close c = .stopping x

theorem start_joined : Joined start := by
  refine ⟨Router.start_listed, fun _ => rfl, ?_, fun _ _ => rfl, ?_, ?_, ?_, ?_⟩ <;>
    simp [start, Router.start, StopPc.target]

theorem joined_mount (k next : Mounts) (x : Nat) (pc : MountPc) (joined : Joined k) (before : k.mount x ≠ .closed)
    (after : pc ≠ .closed) (meets : pc.Meets (k.router.register x)) (router : next.router = k.router)
    (mount : next.mount = update k.mount x pc) (close : next.close = k.close) : Joined next := by
  have closed_iff : ∀ y, next.mount y = .closed ↔ k.mount y = .closed := by
    intro y
    rw [mount]
    by_cases same : y = x
    · rw [same, Function.update_self]
      exact iff_of_false after before
    · rw [Function.update_of_ne same]
  refine ⟨?_, fun y => ?_, ?_, ?_, fun c y halting => ?_, ?_, fun y halted => ?_, fun y shut => ?_⟩
  · rw [router]
    exact joined.table
  · rw [router, mount]
    by_cases same : y = x
    · rw [same, Function.update_self]
      exact meets
    · rw [Function.update_of_ne same]
      exact joined.meets y
  · rw [router, close]
    exact joined.stopping
  · rw [router, close]
    exact joined.unstopped
  · rw [close] at halting
    exact (closed_iff y).mpr (joined.closing c y halting)
  · rw [router, close]
    exact joined.halts
  · rw [router] at halted ⊢
    rw [closed_iff y]
    exact joined.stopped y halted
  · rw [router, close]
    exact joined.closed y ((closed_iff y).mp shut)

theorem joined_routed (k : Mounts) (action : Router.Action) (router : Router) (joined : Joined k)
    (allowed : k.allows action = true) (taken : Router.step k.router action = some router) :
    Joined { k with router := router } := by
  have moves := Router.moves_of_step k.router action router taken
  have returned := Router.register_returned k.router action router moves
  have grows := Router.stop_once_grows k.router action router moves
  refine ⟨Router.listed_step k.router action router joined.table taken, fun x => ?_, fun c x aims => ?_,
    fun c closed => ?_, joined.closing, fun c x halting => ?_, fun x stopped => ?_, fun x closed => ?_⟩
  · have idle : k.router.register x = .idle → k.mount x ≠ .registering → router.register x = .idle := by
      intro fresh other
      refine Router.register_idle k.router action router moves x fresh ?_
      rintro rfl
      exact other (of_decide_eq_true allowed)
    have meets := joined.meets x
    simp only
    cases mount : k.mount x with
    | registering => trivial
    | idle =>
        rw [mount] at meets
        exact idle meets (by rw [mount]; exact fun no => nomatch no)
    | refused err =>
        rw [mount] at meets
        exact idle meets (by rw [mount]; exact fun no => nomatch no)
    | failing =>
        rw [mount] at meets
        exact returned x false meets
    | failed =>
        rw [mount] at meets
        exact returned x false meets
    | mounted =>
        rw [mount] at meets
        exact returned x true meets
    | closed =>
        rw [mount] at meets
        exact returned x true meets
  · rcases Router.stop_step k.router action router moves joined.table c with same | ⟨y, rfl, begun⟩ | ⟨y, target, _, keeps⟩
    · exact joined.stopping c x (same ▸ aims)
    · simp only [begun, StopPc.target, Option.some.injEq] at aims
      exact aims ▸ of_decide_eq_true allowed
    · exact keeps x aims ▸ joined.stopping c y target
  · have before := joined.unstopped c closed
    rcases Router.stop_step k.router action router moves joined.table c with same | ⟨y, rfl, _⟩ | ⟨y, target, _⟩
    · exact same.trans before
    · have stopping : k.close c = .stopping y := of_decide_eq_true allowed
      rw [closed] at stopping
      cases stopping
    · rw [before] at target
      cases target
  · rcases Router.stop_step k.router action router moves joined.table c with same | ⟨y, rfl, begun⟩ | ⟨y, target, stopped, _⟩
    · rcases joined.halts c x halting with idle | ⟨wait, here⟩ | stopped
      · exact .inl (same.trans idle)
      · exact .inr (.inl ⟨wait, same.trans here⟩)
      · exact .inr (.inr (grows x stopped))
    · have stopping : k.close c = .stopping y := of_decide_eq_true allowed
      rw [halting, ClosePc.stopping.injEq] at stopping
      exact .inr (.inl ⟨_, stopping ▸ begun⟩)
    · have stopping := joined.stopping c y target
      rw [halting, ClosePc.stopping.injEq] at stopping
      exact .inr (.inr (stopping ▸ stopped))
  · have keeps : k.router.register x = .removing ∨ k.router.register x = .returned false →
        router.register x = .removing ∨ router.register x = .returned false := by
      intro either
      rcases either with removing | failed
      · exact Router.register_removing k.router action router moves x removing
      · exact .inr (returned x false failed)
    rcases Router.stop_once_step k.router action router moves x stopped with before | removing | ⟨s, wait, here⟩
    · rcases joined.stopped x before with closed | leaving
      · exact .inl closed
      · exact .inr (keeps leaving)
    · exact .inr (.inl removing)
    · exact .inl (joined.closing s x (joined.stopping s x (by rw [here]; rfl)))
  · rcases joined.closed x closed with stopped | closing
    · exact .inl (grows x stopped)
    · exact .inr closing

theorem handle_returned (k : Mounts) (x : Nat) (joined : Joined k) (handle : k.mount x = .mounted ∨ k.mount x = .closed) :
    k.router.register x = .returned true := by
  have meets := joined.meets x
  rcases handle with mounted | closed
  · rw [mounted] at meets
    exact meets
  · rw [closed] at meets
    exact meets

theorem joined_close (k : Mounts) (c x : Nat) (joined : Joined k) (idle : k.close c = .idle)
    (handle : k.mount x = .mounted ∨ k.mount x = .closed) : Joined { k with
      catalog := k.catalog.remove (k.topic x)
      mount := update k.mount x .closed
      close := update k.close c (.stopping x) } := by
  have other : ∀ d y, k.close d = .stopping y → d ≠ c := by
    rintro d y halting rfl
    rw [idle] at halting
    cases halting
  refine ⟨joined.table, fun y => ?_, fun d y aims => ?_, fun d closed => ?_, fun d y halting => ?_, fun d y halting => ?_,
    fun y stopped => ?_, fun y closed => ?_⟩
  · by_cases same : y = x
    · have returned := handle_returned k x joined handle
      simpa [same, MountPc.Meets] using returned
    · simpa only [Function.update_of_ne same] using joined.meets y
  · have halting := joined.stopping d y aims
    simpa only [Function.update_of_ne (other d y halting)] using halting
  · by_cases same : d = c
    · simp [same] at closed
    · simp only [Function.update_of_ne same] at closed
      exact joined.unstopped d closed
  · by_cases same : y = x
    · simp [same]
    · simp only [Function.update_of_ne same]
      by_cases here : d = c
      · simp only [here, Function.update_self, ClosePc.stopping.injEq] at halting
        exact absurd halting.symm same
      · simp only [Function.update_of_ne here] at halting
        exact joined.closing d y halting
  · by_cases here : d = c
    · exact .inl (here ▸ joined.unstopped c idle)
    · simp only [Function.update_of_ne here] at halting
      exact joined.halts d y halting
  · by_cases same : y = x
    · exact .inl (by simp [same])
    · simpa only [Function.update_of_ne same] using joined.stopped y stopped
  · by_cases same : y = x
    · exact .inr ⟨c, by simp [same]⟩
    · simp only [Function.update_of_ne same] at closed
      rcases joined.closed y closed with stopped | ⟨d, halting⟩
      · exact .inl stopped
      · exact .inr ⟨d, by simpa only [Function.update_of_ne (other d y halting)] using halting⟩

theorem joined_return (k : Mounts) (c x : Nat) (ok : Bool) (joined : Joined k) (halting : k.close c = .stopping x)
    (returned : k.router.stop c = .returned ok) : Joined { k with close := update k.close c (.returned ok) } := by
  have stopped : k.router.stopOnce x = true := by
    rcases joined.halts c x halting with idle | ⟨wait, here⟩ | stopped
    · rw [returned] at idle
      cases idle
    · rw [returned] at here
      cases here
    · exact stopped
  have others : ∀ d y, update k.close c (.returned ok) d = .stopping y → k.close d = .stopping y := by
    intro d y after
    by_cases same : d = c
    · simp [same] at after
    · rwa [Function.update_of_ne same] at after
  refine ⟨joined.table, joined.meets, fun d y aims => ?_, fun d closed => ?_, fun d y after => ?_, fun d y after => ?_,
    joined.stopped, fun y closed => ?_⟩
  · have other : d ≠ c := by
      rintro rfl
      rw [returned] at aims
      cases aims
    simpa only [Function.update_of_ne other] using joined.stopping d y aims
  · by_cases same : d = c
    · simp [same] at closed
    · simp only [Function.update_of_ne same] at closed
      exact joined.unstopped d closed
  · exact joined.closing d y (others d y after)
  · exact joined.halts d y (others d y after)
  · rcases joined.closed y closed with before | ⟨d, waits⟩
    · exact .inl before
    · by_cases same : d = c
      · rw [same, halting, ClosePc.stopping.injEq] at waits
        exact .inl (waits ▸ stopped)
      · exact .inr ⟨d, by simpa only [Function.update_of_ne same] using waits⟩

theorem joined_step (k : Mounts) (action : Action) (next : Mounts) (joined : Joined k) (taken : step k action = some next) :
    Joined next := by
  have meets : ∀ x pc, k.mount x = pc → pc.Meets (k.router.register x) := fun x pc here => here ▸ joined.meets x
  cases action with
  | mountCommand x topic =>
      simp only [step, mountCommand] at taken
      split at taken
      next idle =>
        have fresh := meets x .idle idle
        split at taken <;> cases taken
        next err _ =>
          exact joined_mount k _ x (.refused err) joined (by simp [idle]) (by simp) fresh rfl rfl rfl
        next catalog _ =>
          exact joined_mount k _ x .registering joined (by simp [idle]) (by simp) trivial rfl rfl rfl
      next => cases taken
  | routed action =>
      simp only [step, routed] at taken
      split at taken
      next allowed =>
        obtain ⟨router, moved, rfl⟩ := Option.map_eq_some_iff.mp taken
        exact joined_routed k action router joined allowed moved
      next => cases taken
  | registered x =>
      simp only [step, registered] at taken
      split at taken <;> cases taken
      next ok here returned =>
        cases ok with
        | true => exact joined_mount k _ x .mounted joined (by simp [here]) (by simp) returned rfl rfl rfl
        | false => exact joined_mount k _ x .failing joined (by simp [here]) (by simp) returned rfl rfl rfl
  | removeFailed x =>
      simp only [step, removeFailed] at taken
      split at taken <;> cases taken
      next here => exact joined_mount k _ x .failed joined (by simp [here]) (by simp) (meets x .failing here) rfl rfl rfl
  | closeHandle c x =>
      simp only [step, closeHandle] at taken
      split at taken <;> cases taken
      next ready => exact joined_close k c x joined ready.1 ready.2
  | closeReturned c =>
      simp only [step, closeReturned] at taken
      split at taken <;> cases taken
      next x ok halting returned => exact joined_return k c x ok joined halting returned

def owner (k : Mounts) (topic : GoString) : Option Nat := (k.catalog.byTopic topic).map CommandSpec.mount

def Owned (k : Mounts) : Prop := Registry.Tracked k.owner k.topic k.Holds

def Held (k : Mounts) : Prop := ∀ topic x, k.owner topic = some x → k.topic x = topic ∧ k.Holds x

theorem start_held : Held start := fun _ _ listed => nomatch listed

theorem start_owned : Owned start := fun _ holds => nomatch holds

theorem owned_same (k next : Mounts) (owner : next.owner = k.owner) (topic : next.topic = k.topic)
    (holds : ∀ y, next.Holds y ↔ k.Holds y) : (Held k → Held next) ∧ (Owned next ↔ Owned k) := by
  have same : next.Holds = k.Holds := funext fun y => propext (holds y)
  refine ⟨fun held => ?_, ?_⟩
  · rw [Held, owner, topic, same]
    exact held
  · rw [Owned, Owned, owner, topic, same]

theorem removed (k next : Mounts) (x : Nat) (held : Held k)
    (owner : next.owner = update k.owner (k.topic x) none) (topic : next.topic = k.topic)
    (holds : ∀ y, next.Holds y ↔ k.Holds y ∧ y ≠ x) :
    Held next ∧ (Owned k → (Owned next ↔ ∀ y, k.owner (k.topic x) = some y → y = x)) := by
  refine ⟨fun name y listed => ?_, fun owned => ?_⟩
  · rw [owner] at listed
    have other : name ≠ k.topic x := by
      rintro rfl
      rw [Function.update_self] at listed
      cases listed
    rw [Function.update_of_ne other] at listed
    obtain ⟨named, before⟩ := held name y listed
    rw [topic, holds]
    refine ⟨named, before, ?_⟩
    rintro rfl
    exact other named.symm
  · have fewer := Registry.tracked_fewer owned fun y after => ((holds y).mp after).1
    rw [Owned, owner, topic, Registry.tracked_drop_iff fewer (k.topic x) fun y listed => (held _ y listed).1]
    constructor
    · intro gone y listed
      by_contra other
      exact gone y listed ((holds y).mpr ⟨(held _ y listed).2, other⟩)
    · intro own y listed after
      exact ((holds y).mp after).2 (own y listed)

theorem added (k next : Mounts) (x : Nat) (name : GoString) (held : Held k) (fresh : ¬ k.Holds x)
    (absent : k.owner name = none) (owner : next.owner = update k.owner name (some x))
    (topic : next.topic = update k.topic x name) (holds : ∀ y, next.Holds y ↔ k.Holds y ∨ y = x) :
    Held next ∧ (Owned k → Owned next) := by
  have here : next.topic x = name := by rw [topic, Function.update_self]
  have same : ∀ y, y ≠ x → next.topic y = k.topic y := fun y other => by rw [topic, Function.update_of_ne other]
  refine ⟨fun other y listed => ?_, fun owned => ?_⟩
  · rw [owner] at listed
    rw [holds]
    by_cases this : other = name
    · rw [this, Function.update_self, Option.some.injEq] at listed
      subst listed
      exact ⟨here.trans this.symm, .inr rfl⟩
    · rw [Function.update_of_ne this] at listed
      obtain ⟨named, before⟩ := held other y listed
      have apart : y ≠ x := by
        rintro rfl
        exact fresh before
      exact ⟨(same y apart).trans named, .inl before⟩
  · rw [Owned, owner, ← here]
    have others : ∀ y, y ≠ x → (next.Holds y ↔ k.Holds y) := fun y other => by rw [holds, or_iff_left other]
    refine (Registry.tracked_put_iff owned x fresh same others).mpr fun y before named => ?_
    exact Registry.tracked_absent owned (next.topic x) (here ▸ absent) y named before

theorem holds_mount (k next : Mounts) (x : Nat) (pc : MountPc) (mount : next.mount = update k.mount x pc) (y : Nat) :
    next.Holds y ↔ (k.Holds y ∧ y ≠ x) ∨ (y = x ∧ pc.holds = true) := by
  rw [Holds, Holds, mount]
  by_cases same : y = x
  · simp [same]
  · simp [same]

theorem owner_remove (k : Mounts) (topic : GoString) :
    (fun name => ((k.catalog.remove topic).byTopic name).map CommandSpec.mount) = update k.owner topic none := by
  funext name
  by_cases same : name = topic
  · simp [same]
  · simp [Function.update_of_ne same, owner]

theorem own_removal_iff (k : Mounts) (topic : GoString) (x : Nat) :
    (∀ spec, k.catalog.byTopic topic = some spec → spec.mount = x) ↔ ∀ y, k.owner topic = some y → y = x := by
  unfold owner
  cases k.catalog.byTopic topic <;> simp

theorem owned_step (k : Mounts) (action : Action) (next : Mounts) (held : Held k) (taken : step k action = some next) :
    Held next ∧ (Owned k → (Owned next ↔ OwnRemoval k action)) := by
  have stays : ∀ after : Mounts, after.owner = k.owner → after.topic = k.topic → (∀ y, after.Holds y ↔ k.Holds y) →
      Held after ∧ (Owned k → (Owned after ↔ True)) := by
    intro after owner topic holds
    obtain ⟨keeps, same⟩ := owned_same k after owner topic holds
    exact ⟨keeps held, fun owned => iff_of_true (same.mpr owned) trivial⟩
  have turns : ∀ (after : Mounts) (x : Nat) (pc : MountPc), after.mount = update k.mount x pc →
      pc.holds = (k.mount x).holds → ∀ y, after.Holds y ↔ k.Holds y := by
    intro after x pc mount alike y
    rw [holds_mount k after x pc mount y, alike]
    by_cases same : y = x
    · simp [same, Holds]
    · simp [same]
  have leaves : ∀ (after : Mounts) (x : Nat) (pc : MountPc), after.mount = update k.mount x pc → pc.holds = false →
      ∀ y, after.Holds y ↔ k.Holds y ∧ y ≠ x := by
    intro after x pc mount gone y
    simp [holds_mount k after x pc mount y, gone]
  cases action with
  | mountCommand x topic =>
      simp only [step, mountCommand] at taken
      split at taken
      next idle =>
        have fresh : ¬ k.Holds x := by simp [Holds, idle, MountPc.holds]
        split at taken <;> cases taken
        next err _ => exact stays _ rfl rfl (turns _ x (.refused err) rfl (by simp [idle, MountPc.holds]))
        next catalog adds =>
          obtain ⟨_, absent, byTopic⟩ := CommandRegistry.add_ok _ _ _ adds
          have owner : (fun name => (catalog.byTopic name).map CommandSpec.mount) = update k.owner topic (some x) := by
            funext name
            rw [byTopic]
            by_cases same : name = topic
            · simp [same]
            · simp [Function.update_of_ne same, Mounts.owner]
          let after : Mounts := { k with
            catalog := catalog
            topic := update k.topic x topic
            mount := update k.mount x .registering }
          have joins : ∀ y, after.Holds y ↔ k.Holds y ∨ y = x := by
            intro y
            rw [holds_mount k after x .registering rfl y]
            by_cases same : y = x
            · simp [same, MountPc.holds]
            · simp [same]
          obtain ⟨kept, keeps⟩ := added k after x topic held fresh (by simp [Mounts.owner, absent]) owner rfl joins
          exact ⟨kept, fun owned => iff_of_true (keeps owned) trivial⟩
      next => cases taken
  | routed action =>
      simp only [step, routed] at taken
      split at taken
      next =>
        obtain ⟨router, _, rfl⟩ := Option.map_eq_some_iff.mp taken
        exact stays _ rfl rfl fun _ => Iff.rfl
      next => cases taken
  | registered x =>
      simp only [step, registered] at taken
      split at taken <;> cases taken
      next ok here _ =>
        refine stays _ rfl rfl (turns _ x _ rfl ?_)
        cases ok <;> simp [here, MountPc.holds]
  | removeFailed x =>
      simp only [step, removeFailed] at taken
      split at taken <;> cases taken
      obtain ⟨after, iff⟩ := removed k { k with
        catalog := k.catalog.remove (k.topic x)
        mount := update k.mount x .failed } x held (owner_remove k (k.topic x)) rfl (leaves _ x .failed rfl rfl)
      exact ⟨after, fun owned => (iff owned).trans (own_removal_iff k (k.topic x) x).symm⟩
  | closeHandle c x =>
      simp only [step, closeHandle] at taken
      split at taken <;> cases taken
      obtain ⟨after, iff⟩ := removed k { k with
        catalog := k.catalog.remove (k.topic x)
        mount := update k.mount x .closed
        close := update k.close c (.stopping x) } x held (owner_remove k (k.topic x)) rfl (leaves _ x .closed rfl rfl)
      exact ⟨after, fun owned => (iff owned).trans (own_removal_iff k (k.topic x) x).symm⟩
  | closeReturned c =>
      simp only [step, closeReturned] at taken
      split at taken <;> cases taken
      exact stays _ rfl rfl fun _ => Iff.rfl

theorem mounted_live (k : Mounts) (x : Nat) (joined : Joined k) (mounted : k.mount x = .mounted) : k.Live x := by
  have returned := handle_returned k x joined (.inl mounted)
  have unstopped : k.router.stopOnce x = false := by
    by_contra stopped
    rcases joined.stopped x (by simpa using stopped) with closed | removing | failed
    · rw [mounted] at closed
      cases closed
    · rw [returned] at removing
      cases removing
    · rw [returned] at failed
      cases failed
  exact ⟨joined.table.returned x returned unstopped, unstopped⟩

theorem live_mounted (k : Mounts) (x : Nat) (joined : Joined k) (quiet : k.Quiet (k.topic x)) (live : k.Live x) :
    k.mount x = .mounted := by
  obtain ⟨member, unstopped⟩ := live
  have meets := joined.meets x
  have elsewhere : ∀ pc, k.router.register x = pc → pc.inFlight = false → pc ≠ .returned true → False := by
    rintro pc rfl landed other
    rcases joined.table.known x member with flying | returned
    · exact Bool.false_ne_true (landed.symm.trans flying)
    · exact other returned
  cases here : k.mount x with
  | mounted => rfl
  | registering => exact absurd here (quiet.mount x rfl).1
  | failing => exact absurd here (quiet.mount x rfl).2
  | idle =>
      rw [here] at meets
      exact (elsewhere .idle meets rfl fun no => nomatch no).elim
  | refused err =>
      rw [here] at meets
      exact (elsewhere .idle meets rfl fun no => nomatch no).elim
  | failed =>
      rw [here] at meets
      exact (elsewhere (.returned false) meets rfl fun no => nomatch no).elim
  | closed =>
      rcases joined.closed x here with stopped | ⟨c, closing⟩
      · exact absurd (unstopped.symm.trans stopped) Bool.false_ne_true
      · exact absurd closing (quiet.close c x rfl)

theorem entry_iff (k : Mounts) (x : Nat) :
    k.catalog.byTopic (k.topic x) = some ⟨k.topic x, x⟩ ↔ k.owner (k.topic x) = some x := by
  rw [owner, Option.map_eq_some_iff]
  constructor
  · exact fun found => ⟨_, found, rfl⟩
  · intro ⟨spec, found, own⟩
    rw [found, ← k.catalog.keyed _ spec found, ← own]

theorem holds_mounted (pc : MountPc) (holds : pc.holds = true) (notRegistering : pc ≠ .registering)
    (notFailing : pc ≠ .failing) : pc = .mounted := by
  cases pc with
  | mounted => rfl
  | registering => exact absurd rfl notRegistering
  | failing => exact absurd rfl notFailing
  | _ => cases holds

theorem served_iff (k : Mounts) (joined : Joined k) (held : Held k) : Served k ↔ Owned k := by
  constructor
  · exact fun served x holds => (entry_iff k x).mp (served.entry x holds)
  · intro owned
    refine ⟨fun topic quiet => ⟨fun listed => ?_, fun lives => ?_⟩, fun x holds => (entry_iff k x).mpr (owned x holds),
      fun x => mounted_live k x joined⟩
    · obtain ⟨spec, found⟩ := Option.isSome_iff_exists.mp listed
      obtain ⟨named, holds⟩ := held topic spec.mount (by rw [owner, found]; rfl)
      obtain ⟨notRegistering, notFailing⟩ := quiet.mount spec.mount named
      exact ⟨spec.mount, named, mounted_live k spec.mount joined (holds_mounted _ holds notRegistering notFailing)⟩
    · obtain ⟨x, rfl, live⟩ := lives
      have mounted := live_mounted k x joined quiet live
      have found := (entry_iff k x).mpr (owned x (by rw [Holds, mounted]; rfl))
      rw [CommandRegistry.hasCommand, found]
      rfl

theorem mounts_served_iff (path : List Action) (k : Mounts) (reached : run step start path = some k) :
    Always step Served start path ↔ Along step OwnRemoval start path := by
  have keeps : ∀ state action next, Joined state ∧ Held state → step state action = some next → Joined next ∧ Held next :=
    fun state action next ⟨joined, held⟩ taken =>
      ⟨joined_step state action next joined taken, (owned_step state action next held taken).1⟩
  have exactly : ∀ state action next, Joined state ∧ Held state → Served state → step state action = some next →
      (Served next ↔ OwnRemoval state action) := by
    intro state action next ⟨joined, held⟩ served taken
    obtain ⟨after, iff⟩ := owned_step state action next held taken
    rw [served_iff next (joined_step state action next joined taken) after]
    exact iff ((served_iff state joined held).mp served)
  exact always_iff_along keeps exactly ⟨start_joined, start_held⟩
    ((served_iff start start_joined start_held).mpr start_owned) reached

def startRouter : List Action :=
  [.routed (.collect .run), .routed (.startNext .run), .routed (.awaitNext .run), .routed .announce]

def mountEcho (x : Nat) : List Action :=
  [.mountCommand x (lit "echo"), .routed (.addConsumerHandler x), .routed (.checkRunning x),
    .routed (.collect (.register x)), .routed (.startNext (.register x)), .routed (.startNext (.register x)),
    .routed (.subscribe x true), .routed (.awaitNext (.register x)), .routed (.awaitNext (.register x)),
    .routed (.proceed x), .routed (.awaitOwn x), .registered x]

def closeTimesOut (c x : Nat) : List Action :=
  [.closeHandle c x, .routed (.beginStop c x), .routed (.haltStop c), .routed (.stopContextDone c), .closeReturned c]

def closeSucceeds (c x : Nat) : List Action :=
  [.closeHandle c x, .routed (.beginStop c x), .routed (.haltStop c), .routed (.exit x false), .routed (.awaitStopped c),
    .routed (.removeStopped c), .closeReturned c]

def closeAfterRemount : List Action :=
  startRouter ++ mountEcho 0 ++ closeTimesOut 0 0 ++ mountEcho 1 ++ closeSucceeds 1 0

-- A handle's Close times out in its Stop, the topic is mounted again, and the handle is closed once more: the command of
-- the second mount leaves the catalog, while its handler is live.
theorem retried_close_unlists : ∃ k, Reachable step start k ∧ k.topic 0 = lit "echo" ∧ k.topic 1 = lit "echo" ∧
    k.close 0 = .returned false ∧ k.close 1 = .returned true ∧ k.mount 0 = .closed ∧ k.mount 1 = .mounted ∧ k.Live 1 ∧
    k.catalog.hasCommand (lit "echo") = false := by
  obtain ⟨k, reached, checked⟩ := reachable_checked closeAfterRemount
    (fun k => k.topic 0 = lit "echo" ∧ k.topic 1 = lit "echo" ∧ k.close 0 = .returned false ∧
      k.close 1 = .returned true ∧ k.mount 0 = .closed ∧ k.mount 1 = .mounted ∧ k.Live 1 ∧
      k.catalog.hasCommand (lit "echo") = false)
    (show (run step start closeAfterRemount).map _ = some true by decide +kernel)
  exact ⟨k, reached, of_decide_eq_true checked⟩

def closeThenRemount : List Action :=
  startRouter ++ mountEcho 0 ++ closeTimesOut 0 0 ++ closeSucceeds 1 0 ++ mountEcho 1

instance (k : Mounts) (topic : GoString) (x : Nat) :
    Decidable (∀ spec, k.catalog.byTopic topic = some spec → spec.mount = x) :=
  match found : k.catalog.byTopic topic with
  | none => isTrue fun _ no => nomatch no
  | some spec => decidable_of_iff (spec.mount = x) (by simp)

instance (k : Mounts) : ∀ action, Decidable (OwnRemoval k action)
  | .removeFailed x => inferInstanceAs (Decidable (∀ spec, k.catalog.byTopic (k.topic x) = some spec → spec.mount = x))
  | .closeHandle _ x => inferInstanceAs (Decidable (∀ spec, k.catalog.byTopic (k.topic x) = some spec → spec.mount = x))
  | .mountCommand _ _ | .routed _ | .registered _ | .closeReturned _ => isTrue trivial

theorem close_then_remount_served : Always step Served start closeThenRemount := by
  obtain ⟨k, reached⟩ := Option.isSome_iff_exists.mp (show (run step start closeThenRemount).isSome = true by decide +kernel)
  exact (mounts_served_iff closeThenRemount k reached).mpr (by decide +kernel)

end Mounts

end Brainkit.Engine
