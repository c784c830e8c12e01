import Brainkit.Transport.MemoryOrder

set_option autoImplicit false

namespace Brainkit.Transport

open Function (update)
open Transition GoText

variable {μ : Type}

namespace Subscription

-- Subscribe waits for no reader: it has returned, or its deliveries do not block, pending counting the message that a
-- publisher inside deliver is about to put into the channel.
def Free (pending : Nat) (s : Subscription μ) : Prop :=
  s.returned = true ∨ s.closed = true ∨ s.ctxDone = true ∨ pending + s.backlog.length ≤ s.capacity - s.ch.length

theorem deliver_cases {s t : Subscription μ} {msg : Message μ} {ctxWins delivered : Bool}
    (taken : s.deliver msg ctxWins = some (delivered, t)) :
    (delivered = false ∧ t = s ∧ (s.closed = true ∨ s.ctxDone = true)) ∨
      (delivered = true ∧ t = { s with ch := s.ch ++ [msg] } ∧ s.ch.length < s.capacity) := by
  unfold deliver at taken
  split at taken
  next closed =>
    cases taken
    exact .inl ⟨rfl, rfl, .inl closed⟩
  next opened =>
    split at taken
    next wins =>
      split at taken <;> cases taken
      next done => exact .inl ⟨rfl, rfl, .inr done⟩
    next waited =>
      split at taken <;> cases taken
      next room => exact .inr ⟨rfl, rfl, room⟩

theorem deliver_free_iff {s t : Subscription μ} {msg : Message μ} {ctxWins delivered : Bool}
    (taken : s.deliver msg ctxWins = some (delivered, t)) : t.Free 0 ↔ s.Free 1 := by
  rcases deliver_cases taken with ⟨rfl, rfl, dead⟩ | ⟨rfl, rfl, room⟩
  · exact iff_of_true (.inr (dead.imp_right .inl)) (.inr (dead.imp_right .inl))
  · simp only [Free, List.length_append, List.length_singleton]
    rw [show 0 + s.backlog.length ≤ s.capacity - (s.ch.length + 1) ↔ 1 + s.backlog.length ≤ s.capacity - s.ch.length by omega]

theorem deliver_backlog_free_iff {s t : Subscription μ} {msg first : Message μ} {rest : List (Message μ)}
    {ctxWins delivered : Bool} (backlog : s.backlog = first :: rest) (taken : s.deliver msg ctxWins = some (delivered, t)) :
    Free 0 { t with backlog := if delivered then rest else [] } ↔ s.Free 0 := by
  rcases deliver_cases taken with ⟨rfl, rfl, dead⟩ | ⟨rfl, rfl, room⟩
  · exact iff_of_true (.inr (dead.imp_right .inl)) (.inr (dead.imp_right .inl))
  · simp only [Free, backlog, List.length_append, List.length_cons, List.length_nil, Nat.zero_add, if_true]
    rw [show rest.length ≤ s.capacity - (s.ch.length + 1) ↔ rest.length + 1 ≤ s.capacity - s.ch.length by omega]

-- Where deliver would wait there is no room, and neither the context nor the subscription is done.
theorem delivers_of_free {s : Subscription μ} {pending : Nat} (free : s.Free pending) (waiting : s.returned = false)
    (some : 0 < pending + s.backlog.length) (msg : Message μ) :
    ∃ ctxWins delivered t, s.deliver msg ctxWins = .some (delivered, t) := by
  rcases free with returned | closed | done | room
  · exact absurd (waiting.symm.trans returned) Bool.false_ne_true
  · exact ⟨false, false, s, by rw [deliver, if_pos closed]⟩
  · by_cases closed : s.closed = true
    · exact ⟨false, false, s, by rw [deliver, if_pos closed]⟩
    · exact ⟨true, false, s, by rw [deliver, if_neg closed, if_pos rfl, if_pos done]⟩
  · by_cases closed : s.closed = true
    · exact ⟨false, false, s, by rw [deliver, if_pos closed]⟩
    · exact ⟨false, true, _, by rw [deliver, if_neg closed, if_neg Bool.false_ne_true, if_pos (by omega)]⟩

-- What all steps but a delivery do to a subscription.
structure Settles (s t : Subscription μ) : Prop where
  capacity : t.capacity = s.capacity
  ch : t.ch.length ≤ s.ch.length
  backlog : t.backlog = s.backlog
  returned : t.returned = s.returned
  closed : s.closed = true → t.closed = true
  ctxDone : s.ctxDone = true → t.ctxDone = true

theorem Settles.refl (s : Subscription μ) : s.Settles s := ⟨rfl, Nat.le_refl _, rfl, rfl, id, id⟩

theorem Settles.free {s t : Subscription μ} {pending : Nat} (settles : s.Settles t) (free : s.Free pending) : t.Free pending := by
  refine free.imp settles.returned.trans (Or.imp settles.closed (Or.imp settles.ctxDone fun room => ?_))
  have shorter := settles.ch
  rw [settles.backlog, settles.capacity]
  omega

end Subscription

def PublishPc.visits (i : Nat) : PublishPc μ → Bool
  | .delivering _ _ subs _ => i ∈ subs
  | _ => false

namespace Broker

theorem set_sub_self (b : Broker μ) (i : Nat) (s : Subscription μ) : (b.setSub i s).sub i = s := Function.update_self _ _ _

theorem set_publisher_self (b : Broker μ) (p : Nat) (pc : PublishPc μ) : (b.setPublisher p pc).publisher p = pc :=
  Function.update_self _ _ _

theorem settles_other {b : Broker μ} {i j : Nat} {s : Subscription μ} (other : i ≠ j) :
    (b.sub i).Settles ((b.setSub j s).sub i) := by
  have same : (b.setSub j s).sub i = b.sub i := Function.update_of_ne other _ _
  rw [same]
  exact .refl _

theorem settles_set {b : Broker μ} {i j : Nat} {s : Subscription μ} (own : (b.sub j).Settles s) :
    (b.sub i).Settles ((b.setSub j s).sub i) := by
  by_cases here : i = j
  · subst here
    rwa [set_sub_self]
  · exact settles_other here

-- A step that delivers nothing to a subscription.
theorem settles_step {b next : Broker μ} {action : Action μ} {i : Nat} (known : i < b.created)
    (published : ∀ p ctxWins, action ≠ .deliver p i ctxWins) (replayed : ∀ ctxWins, action ≠ .deliverBacklog i ctxWins)
    (goesOn : action ≠ .watchCancel i) (taken : step b action = some next) : (b.sub i).Settles (next.sub i) := by
  cases action with
  | publish p topic messages =>
      simp only [step, publish] at taken
      split at taken <;> cases taken
      split
      · exact .refl _
      · exact .refl _
  | publishOne p =>
      simp only [step, publishOne] at taken
      repeat' split at taken
      all_goals cases taken
      · exact .refl _
      · exact .refl _
      · exact .refl _
      · exact .refl _
      · rw [setPublisher, fanOut]
        dsimp only
        split
        · exact ⟨rfl, Nat.le_refl _, rfl, rfl, id, id⟩
        · exact .refl _
  | deliver p j ctxWins =>
      have other : i ≠ j := fun same => published p ctxWins (same ▸ rfl)
      simp only [step, deliver] at taken
      split at taken
      next topic msg subs rest delivering =>
        obtain ⟨-, given⟩ := Option.ite_none_right_eq_some.mp taken
        obtain ⟨_, _, rfl⟩ := Option.map_eq_some_iff.mp given
        exact settles_other other
      next => cases taken
  | subscribe topic expired =>
      simp only [step, subscribe] at taken
      split at taken <;> cases taken
      · exact .refl _
      · dsimp only
        rw [Function.update_of_ne (Nat.ne_of_lt known)]
        exact .refl _
  | deliverBacklog j ctxWins =>
      have other : i ≠ j := fun same => replayed ctxWins (same ▸ rfl)
      simp only [step, deliverBacklog] at taken
      split at taken
      next => cases taken
      next msg rest left =>
        obtain ⟨_, _, rfl⟩ := Option.map_eq_some_iff.mp taken
        exact settles_other other
  | watchCancel j =>
      have other : i ≠ j := fun same => goesOn (same ▸ rfl)
      simp only [step, watchCancel] at taken
      split at taken <;> cases taken
      exact settles_other other
  | cancel j =>
      simp only [step, cancel] at taken
      split at taken <;> cases taken
      exact settles_set ⟨rfl, Nat.le_refl _, rfl, rfl, id, fun _ => rfl⟩
  | unsubscribe j =>
      simp only [step, unsubscribe] at taken
      split at taken <;> cases taken
      exact settles_set (b := b) ⟨rfl, Nat.le_refl _, rfl, rfl, id, id⟩
  | closeSubscription j =>
      simp only [step, closeSubscription] at taken
      split at taken <;> cases taken
      exact settles_set ⟨rfl, Nat.le_refl _, rfl, rfl, fun _ => rfl, id⟩
  | close =>
      cases taken
      rw [close]
      dsimp only
      split
      · exact ⟨rfl, Nat.le_refl _, rfl, rfl, id, id⟩
      · exact .refl _
  | receive j =>
      simp only [step, receive] at taken
      split at taken <;> cases taken
      next queue =>
        refine settles_set ⟨rfl, ?_, rfl, rfl, id, id⟩
        rw [queue]
        exact Nat.le_succ _

theorem visits_step {b next : Broker μ} {action : Action μ} {p i : Nat} (visits : (b.publisher p).visits i = true)
    (other : ∀ ctxWins, action ≠ .deliver p i ctxWins) (taken : step b action = some next) :
    (next.publisher p).visits i = true := by
  have elsewhere {q : Nat} {pc : PublishPc μ} (idle : (b.publisher q).visits i = false) :
      (update b.publisher q pc p).visits i = true := by
    have apart : p ≠ q := by
      rintro rfl
      exact Bool.false_ne_true (idle.symm.trans visits)
    rwa [Function.update_of_ne apart]
  cases action with
  | publish q topic messages =>
      simp only [step, publish] at taken
      split at taken <;> cases taken
      next idle =>
        split
        · exact visits
        · exact elsewhere (by rw [idle]; rfl)
  | publishOne q =>
      simp only [step, publishOne] at taken
      repeat' split at taken
      all_goals cases taken
      all_goals exact elsewhere (by simp only [*]; rfl)
  | deliver q j ctxWins =>
      simp only [step, deliver] at taken
      split at taken
      next topic msg subs rest delivering =>
        obtain ⟨target, given⟩ := Option.ite_none_right_eq_some.mp taken
        obtain ⟨_, _, rfl⟩ := Option.map_eq_some_iff.mp given
        by_cases same : p = q
        · subst same
          have apart : i ≠ j := fun here => other ctxWins (here ▸ rfl)
          rw [delivering] at visits
          have left : i ∈ subs.erase j := (List.mem_erase_of_ne apart).mpr (of_decide_eq_true visits)
          rw [set_publisher_self, if_neg (List.ne_nil_of_mem left)]
          exact decide_eq_true left
        · rw [setPublisher, setSub]
          dsimp only
          rwa [Function.update_of_ne same]
      next => cases taken
  | deliverBacklog j ctxWins =>
      simp only [step, deliverBacklog] at taken
      split at taken
      next => cases taken
      next =>
        obtain ⟨_, _, rfl⟩ := Option.map_eq_some_iff.mp taken
        exact visits
  | close =>
      cases taken
      exact visits
  | _ =>
      simp only [step, subscribe, watchCancel, cancel, unsubscribe, closeSubscription, receive] at taken
      split at taken <;> cases taken
      all_goals exact visits

theorem visits_created {b : Broker μ} {p i : Nat} (valid : Valid b) (visits : (b.publisher p).visits i = true) :
    i < b.created := by
  cases delivering : b.publisher p with
  | delivering topic msg subs rest =>
      rw [delivering] at visits
      exact (valid.targets p topic msg subs rest delivering).2.2 i (of_decide_eq_true visits)
  | _ =>
      rw [delivering] at visits
      cases visits

end Broker

-- A publisher or Subscribe inside deliver holds the mutex of the subscription until its delivery ends.
inductive Holder where
  | publisher (p : Nat)
  | subscriber
deriving DecidableEq

-- mu says who holds the mutex of a subscription, inside which publishers are in a deliver.
structure LockedBroker (μ : Type) where
  broker : Broker μ
  mu : Nat → Option Holder
  inside : Nat → Bool

namespace LockedBroker

open Broker (newMemoryBroker Valid valid_step start_valid created_step created_le_step settles_step visits_step visits_created)

def new : LockedBroker μ := ⟨newMemoryBroker, fun _ => none, fun _ => false⟩

-- deliver takes the mutex in a step of its own. watchCancel and the close of a subscription take and give it back.
inductive Action (μ : Type) where
  | enter (p i : Nat)
  | enterBacklog (i : Nat)
  | act (action : Broker.Action μ)

def admits (l : LockedBroker μ) : Broker.Action μ → Bool
  | .deliver p i _ => l.mu i = some (.publisher p)
  | .deliverBacklog i _ => l.mu i = some .subscriber
  | .watchCancel i | .closeSubscription i => l.mu i = none
  | _ => true

def leave (l : LockedBroker μ) (broker : Broker μ) : Broker.Action μ → LockedBroker μ
  | .deliver p i _ => ⟨broker, update l.mu i none, update l.inside p false⟩
  | .deliverBacklog i _ => ⟨broker, update l.mu i none, l.inside⟩
  | _ => ⟨broker, l.mu, l.inside⟩

def step (l : LockedBroker μ) : Action μ → Option (LockedBroker μ)
  | .enter p i =>
      if (l.broker.publisher p).visits i ∧ l.inside p = false ∧ l.mu i = none then
        some ⟨l.broker, update l.mu i (some (.publisher p)), update l.inside p true⟩
      else none
  | .enterBacklog i =>
      if i < l.broker.created ∧ 0 < (l.broker.sub i).backlog.length ∧ (l.broker.sub i).returned = false ∧ l.mu i = none then
        some ⟨l.broker, update l.mu i (some .subscriber), l.inside⟩
      else none
  | .act action => if l.admits action then (l.broker.step action).map fun broker => l.leave broker action else none

def pending (l : LockedBroker μ) (i : Nat) : Nat :=
  match l.mu i with
  | some (.publisher _) => 1
  | _ => 0

-- The steps that Subscribe can take without a reader: its own, and the end of the delivery that holds its mutex.
def Own (i : Nat) : Action μ → Prop
  | .enterBacklog j | .act (.deliver _ j _) | .act (.deliverBacklog j _) | .act (.watchCancel j) => j = i
  | _ => False

def Returns (l : LockedBroker μ) (i : Nat) : Prop :=
  ∃ path, (∀ action ∈ path, Own i action) ∧ ∃ next, run step l path = some next ∧ (next.broker.sub i).returned = true

def Blocked (l : LockedBroker μ) (i : Nat) : Prop :=
  l.mu i = some .subscriber ∧ ∀ msg ctxWins, (l.broker.sub i).deliver msg ctxWins = none

def Unblocked (l : LockedBroker μ) : Prop := ∀ i, i < l.broker.created → Returns l i ∧ ¬ Blocked l i

def LeavesRoom (l : LockedBroker μ) : Action μ → Prop
  | .enter _ i => (l.broker.sub i).Free 1
  | _ => True

def Suits (b : Broker μ) (i : Nat) : Holder → Prop
  | .publisher p => (b.publisher p).visits i = true
  | .subscriber => i < b.created ∧ 0 < (b.sub i).backlog.length ∧ (b.sub i).returned = false

structure Held (l : LockedBroker μ) : Prop where
  valid : Valid l.broker
  holders : ∀ i holder, l.mu i = some holder → Suits l.broker i holder

variable {l next : LockedBroker μ} {i : Nat}

theorem update_mu (mu : Nat → Option Holder) (i : Nat) (holder : Option Holder) : update mu i holder i = holder :=
  Function.update_self i holder mu

theorem new_held : Held (new : LockedBroker μ) := ⟨start_valid, fun _ _ => nofun⟩

theorem acted {action : Broker.Action μ} (taken : step l (.act action) = some next) :
    l.admits action = true ∧ ∃ broker, l.broker.step action = some broker ∧ next = l.leave broker action := by
  obtain ⟨admitted, given⟩ := Option.ite_none_right_eq_some.mp taken
  obtain ⟨broker, stepped, rfl⟩ := Option.map_eq_some_iff.mp given
  exact ⟨admitted, broker, stepped, rfl⟩

theorem act_taken {action : Broker.Action μ} {broker : Broker μ} (admitted : l.admits action = true)
    (stepped : l.broker.step action = some broker) : step l (.act action) = some (l.leave broker action) := by
  rw [step, if_pos admitted, stepped]
  rfl

theorem leave_broker (broker : Broker μ) (action : Broker.Action μ) : (l.leave broker action).broker = broker := by
  cases action <;> rfl

theorem leave_mu {broker : Broker μ} {action : Broker.Action μ} (published : ∀ p ctxWins, action ≠ .deliver p i ctxWins)
    (replayed : ∀ ctxWins, action ≠ .deliverBacklog i ctxWins) : (l.leave broker action).mu i = l.mu i := by
  cases action with
  | deliver p j ctxWins =>
      have other : i ≠ j := fun same => published p ctxWins (same ▸ rfl)
      exact Function.update_of_ne other _ _
  | deliverBacklog j ctxWins =>
      have other : i ≠ j := fun same => replayed ctxWins (same ▸ rfl)
      exact Function.update_of_ne other _ _
  | _ => rfl

theorem mu_leave {broker : Broker μ} {action : Broker.Action μ} {holder : Holder}
    (held : (l.leave broker action).mu i = some holder) :
    l.mu i = some holder ∧ (∀ p ctxWins, action ≠ .deliver p i ctxWins) ∧
      ∀ ctxWins, action ≠ .deliverBacklog i ctxWins := by
  have published (p : Nat) (ctxWins : Bool) : action ≠ .deliver p i ctxWins := by
    rintro rfl
    simp only [leave, Function.update_self] at held
    cases held
  have replayed (ctxWins : Bool) : action ≠ .deliverBacklog i ctxWins := by
    rintro rfl
    simp only [leave, Function.update_self] at held
    cases held
  exact ⟨(leave_mu published replayed).symm.trans held, published, replayed⟩

theorem held_enter (held : Held l) (holder : Holder) (suits : Suits l.broker i holder) (inside : Nat → Bool) :
    Held ⟨l.broker, update l.mu i (some holder), inside⟩ := by
  refine ⟨held.valid, fun j other holds => ?_⟩
  dsimp only at holds
  by_cases same : j = i
  · subst same
    rw [Function.update_self] at holds
    cases holds
    exact suits
  · rw [Function.update_of_ne same] at holds
    exact held.holders j other holds

theorem held_step (l : LockedBroker μ) (action : Action μ) (next : LockedBroker μ) (held : Held l)
    (taken : step l action = some next) : Held next := by
  cases action with
  | enter p i =>
      obtain ⟨⟨visits, -, -⟩, same⟩ := Option.ite_none_right_eq_some.mp taken
      cases same
      exact held_enter held (.publisher p) visits _
  | enterBacklog i =>
      obtain ⟨⟨known, left, waiting, -⟩, same⟩ := Option.ite_none_right_eq_some.mp taken
      cases same
      exact held_enter held .subscriber ⟨known, left, waiting⟩ _
  | act action =>
      obtain ⟨admitted, broker, stepped, rfl⟩ := acted taken
      refine ⟨?_, fun j holder holds => ?_⟩
      · rw [leave_broker]
        exact valid_step l.broker action broker held.valid stepped
      · obtain ⟨before, published, replayed⟩ := mu_leave holds
        have suits := held.holders j holder before
        rw [leave_broker]
        cases holder with
        | publisher q => exact visits_step suits (published q) stepped
        | subscriber =>
            obtain ⟨known, left, waiting⟩ := suits
            have goesOn : action ≠ .watchCancel j := by
              rintro rfl
              cases before.symm.trans (of_decide_eq_true admitted)
            have settles := settles_step known published replayed goesOn stepped
            rw [Suits, settles.backlog, settles.returned]
            exact ⟨Nat.lt_of_lt_of_le known (created_le_step l.broker broker action stepped), left, waiting⟩

def Free (l : LockedBroker μ) (i : Nat) : Prop := (l.broker.sub i).Free (l.pending i)

theorem pending_mu (same : next.mu i = l.mu i) : next.pending i = l.pending i := by rw [pending, pending, same]

theorem deliver_free_iff {p : Nat} {ctxWins : Bool} (taken : step l (.act (.deliver p i ctxWins)) = some next) :
    Free next i ↔ Free l i := by
  obtain ⟨admitted, broker, stepped, rfl⟩ := acted taken
  have before : l.pending i = 1 := by rw [pending, of_decide_eq_true admitted]
  have after : (l.leave broker (.deliver p i ctxWins)).pending i = 0 := by
    simp only [pending, leave, Function.update_self]
  simp only [Broker.step, Broker.deliver] at stepped
  split at stepped
  next topic msg subs rest delivering =>
    obtain ⟨-, given⟩ := Option.ite_none_right_eq_some.mp stepped
    obtain ⟨⟨delivered, s⟩, outcome, rfl⟩ := Option.map_eq_some_iff.mp given
    rw [Free, Free, before, after, leave_broker, ← Subscription.deliver_free_iff outcome, Broker.setPublisher, Broker.set_sub_self]
  next => cases stepped

theorem deliver_backlog_free_iff {ctxWins : Bool} (taken : step l (.act (.deliverBacklog i ctxWins)) = some next) :
    Free next i ↔ Free l i := by
  obtain ⟨admitted, broker, stepped, rfl⟩ := acted taken
  have before : l.pending i = 0 := by rw [pending, of_decide_eq_true admitted]
  have after : (l.leave broker (.deliverBacklog i ctxWins)).pending i = 0 := by
    simp only [pending, leave, Function.update_self]
  simp only [Broker.step, Broker.deliverBacklog] at stepped
  split at stepped
  next => cases stepped
  next msg rest left =>
    obtain ⟨⟨delivered, s⟩, outcome, rfl⟩ := Option.map_eq_some_iff.mp stepped
    rw [Free, Free, before, after, leave_broker, ← Subscription.deliver_backlog_free_iff left outcome, Broker.set_sub_self]

theorem enter_backlog_free_iff {j : Nat} (taken : step l (.enterBacklog j) = some next) : Free next i ↔ Free l i := by
  obtain ⟨⟨-, -, -, unheld⟩, same⟩ := Option.ite_none_right_eq_some.mp taken
  cases same
  have same : pending ⟨l.broker, update l.mu j (some .subscriber), l.inside⟩ i = l.pending i := by
    by_cases here : i = j
    · simp only [here, pending, Function.update_self, unheld]
    · exact pending_mu (Function.update_of_ne here _ _)
  rw [Free, same]
  exact Iff.rfl

theorem free_before {action : Action μ} (own : Own i action) (taken : step l action = some next) (free : Free next i) :
    Free l i := by
  match action, own with
  | .enterBacklog _, rfl => exact (enter_backlog_free_iff taken).mp free
  | .act (.deliver _ _ _), rfl => exact (deliver_free_iff taken).mp free
  | .act (.deliverBacklog _ _), rfl => exact (deliver_backlog_free_iff taken).mp free
  | .act (.watchCancel _), rfl =>
      obtain ⟨admitted, broker, stepped, -⟩ := acted taken
      obtain ⟨⟨-, done⟩, -⟩ := Option.ite_none_right_eq_some.mp stepped
      refine .inr (.inr (.inr ?_))
      rw [done, pending, of_decide_eq_true admitted]
      exact Nat.zero_le _

theorem returns_cons (action : Action μ) (own : Own i action) (taken : step l action = some next) (returns : Returns next i) :
    Returns l i := by
  obtain ⟨path, others, final, reached, done⟩ := returns
  refine ⟨action :: path, fun other member => ?_, final, ?_, done⟩
  · cases List.mem_cons.mp member with
    | inl same => exact same ▸ own
    | inr later => exact others other later
  · rw [run_cons, taken, Option.bind_some, reached]

theorem backlog_sent (held : Held l) (inside : l.mu i = some .subscriber) (free : Free l i) :
    ∃ ctxWins next, step l (.act (.deliverBacklog i ctxWins)) = some next ∧ next.mu i = none ∧ i < next.broker.created ∧
      (next.broker.sub i).returned = false ∧ (next.broker.sub i).backlog.length < (l.broker.sub i).backlog.length := by
  obtain ⟨known, left, waiting⟩ := held.holders i .subscriber inside
  obtain ⟨msg, rest, backlog⟩ := List.exists_cons_of_length_pos left
  obtain ⟨ctxWins, delivered, s, outcome⟩ :=
    Subscription.delivers_of_free free waiting (Nat.lt_of_lt_of_le left (Nat.le_add_left _ _)) msg
  have stepped : l.broker.step (.deliverBacklog i ctxWins) =
      some (l.broker.setSub i { s with backlog := if delivered then rest else [] }) := by
    rw [Broker.step, Broker.deliverBacklog, backlog]
    simp only [outcome, Option.map_some]
  refine ⟨ctxWins, _, act_taken (decide_eq_true inside) stepped, Function.update_self _ _ _, known, ?_, ?_⟩
  · rw [leave_broker, Broker.set_sub_self]
    rcases Subscription.deliver_cases outcome with ⟨-, rfl, -⟩ | ⟨-, rfl, -⟩
    · exact waiting
    · exact waiting
  · rw [leave_broker, Broker.set_sub_self, backlog]
    dsimp only
    split
    · exact Nat.lt_succ_self _
    · exact Nat.succ_pos _

theorem published_sent (held : Held l) {p : Nat} (inside : l.mu i = some (.publisher p))
    (waiting : (l.broker.sub i).returned = false) (free : Free l i) :
    ∃ ctxWins next, step l (.act (.deliver p i ctxWins)) = some next ∧ next.mu i = none ∧
      next.broker.created = l.broker.created ∧ (next.broker.sub i).returned = false := by
  have visits : (l.broker.publisher p).visits i = true := held.holders i (.publisher p) inside
  have one : l.pending i = 1 := by rw [pending, inside]
  cases delivering : l.broker.publisher p with
  | delivering topic msg subs rest =>
      rw [delivering] at visits
      obtain ⟨ctxWins, delivered, s, outcome⟩ := Subscription.delivers_of_free free waiting (by omega) msg
      have stepped : l.broker.step (.deliver p i ctxWins) = some ((l.broker.setSub i s).setPublisher p
          (if subs.erase i = [] then .looping topic rest else .delivering topic msg (subs.erase i) rest)) := by
        rw [Broker.step, Broker.deliver, delivering]
        simp only [of_decide_eq_true visits, if_true, outcome, Option.map_some]
      refine ⟨ctxWins, _, act_taken (decide_eq_true inside) stepped, Function.update_self _ _ _, rfl, ?_⟩
      rw [leave_broker, Broker.setPublisher, Broker.set_sub_self]
      rcases Subscription.deliver_cases outcome with ⟨-, rfl, -⟩ | ⟨-, rfl, -⟩
      · exact waiting
      · exact waiting
  | _ =>
      rw [delivering] at visits
      cases visits

theorem returns_unheld (held : Held l) (known : i < l.broker.created) (waiting : (l.broker.sub i).returned = false)
    (unheld : l.mu i = none) (free : Free l i) : Returns l i := by
  induction left : (l.broker.sub i).backlog.length using Nat.strongRecOn generalizing l with
  | ind n ih =>
      subst left
      by_cases done : (l.broker.sub i).backlog = []
      · have stepped : l.broker.step (.watchCancel i) = some _ := if_pos ⟨waiting, done⟩
        refine returns_cons (.act (.watchCancel i)) rfl
          (act_taken (decide_eq_true unheld) stepped) ⟨[], nofun, _, rfl, ?_⟩
        rw [leave_broker, Broker.set_sub_self]
      · have entered : step l (.enterBacklog i) = some ⟨l.broker, update l.mu i (some .subscriber), l.inside⟩ :=
          if_pos ⟨known, List.length_pos_of_ne_nil done, waiting, unheld⟩
        have inside := held_step l _ _ held entered
        have free' := (enter_backlog_free_iff entered).mpr free
        obtain ⟨ctxWins, next, sent, released, below, goesOn, fewer⟩ := backlog_sent inside (Function.update_self _ _ _) free'
        have free'' := (deliver_backlog_free_iff sent).mpr free'
        refine returns_cons (.enterBacklog i) rfl entered ?_
        refine returns_cons (.act (.deliverBacklog i ctxWins)) rfl sent ?_
        exact ih _ fewer (held_step _ _ _ inside sent) below goesOn released free'' rfl

theorem returns_of_free (held : Held l) (known : i < l.broker.created) (free : Free l i) : Returns l i := by
  cases waiting : (l.broker.sub i).returned with
  | true => exact ⟨[], nofun, l, rfl, waiting⟩
  | false =>
      cases holder : l.mu i with
      | none => exact returns_unheld held known waiting holder free
      | some holder' =>
          cases holder' with
          | subscriber =>
              obtain ⟨ctxWins, next, sent, released, below, goesOn, -⟩ := backlog_sent held holder free
              refine returns_cons (.act (.deliverBacklog i ctxWins)) rfl sent ?_
              exact returns_unheld (held_step _ _ _ held sent) below goesOn released ((deliver_backlog_free_iff sent).mpr free)
          | publisher p =>
              obtain ⟨ctxWins, next, sent, released, same, goesOn⟩ := published_sent held holder waiting free
              refine returns_cons (.act (.deliver p i ctxWins)) rfl sent ?_
              exact returns_unheld (held_step _ _ _ held sent) (same ▸ known) goesOn released ((deliver_free_iff sent).mpr free)

theorem returns_iff (held : Held l) (known : i < l.broker.created) : Returns l i ↔ Free l i := by
  constructor
  · intro returns
    obtain ⟨path, own, final, reached, done⟩ := returns
    clear held known
    induction path generalizing l with
    | nil =>
        cases reached
        exact .inl done
    | cons action rest ih =>
        obtain ⟨next, taken, toFinal⟩ := run_cons_some reached
        have later := ih (fun other member => own other (List.mem_cons_of_mem _ member)) toFinal
        exact free_before (own action List.mem_cons_self) taken later
  · exact returns_of_free held known

theorem unblocked_iff (held : Held l) : Unblocked l ↔ ∀ i, i < l.broker.created → Free l i := by
  constructor
  · exact fun unblocked i known => (returns_iff held known).mp (unblocked i known).1
  · intro free i known
    refine ⟨(returns_iff held known).mpr (free i known), fun ⟨inside, refuses⟩ => ?_⟩
    obtain ⟨-, left, waiting⟩ := held.holders i .subscriber inside
    obtain ⟨msg, -⟩ := List.exists_mem_of_length_pos left
    obtain ⟨ctxWins, _, _, outcome⟩ :=
      Subscription.delivers_of_free (free i known) waiting (Nat.lt_of_lt_of_le left (Nat.le_add_left _ _)) msg
    cases (refuses msg ctxWins).symm.trans outcome

theorem free_act {action : Broker.Action μ} (known : i < l.broker.created) (free : Free l i)
    (taken : step l (.act action) = some next) : Free next i := by
  by_cases published : ∃ p ctxWins, action = .deliver p i ctxWins
  · obtain ⟨p, ctxWins, rfl⟩ := published
    exact (deliver_free_iff taken).mpr free
  · by_cases replayed : ∃ ctxWins, action = .deliverBacklog i ctxWins
    · obtain ⟨ctxWins, rfl⟩ := replayed
      exact (deliver_backlog_free_iff taken).mpr free
    · obtain ⟨-, broker, stepped, rfl⟩ := acted taken
      have unpublished (p : Nat) (ctxWins : Bool) : action ≠ .deliver p i ctxWins := fun same => published ⟨p, ctxWins, same⟩
      have unreplayed (ctxWins : Bool) : action ≠ .deliverBacklog i ctxWins := fun same => replayed ⟨ctxWins, same⟩
      rw [Free, leave_broker, pending_mu (leave_mu unpublished unreplayed)]
      by_cases ends : action = .watchCancel i
      · subst ends
        obtain ⟨-, same⟩ := Option.ite_none_right_eq_some.mp stepped
        cases same
        left
        rw [Broker.set_sub_self]
      · exact (settles_step known unpublished unreplayed ends stepped).free free

theorem free_step {action : Action μ} (known : i < l.broker.created) (free : Free l i) (room : LeavesRoom l action)
    (taken : step l action = some next) : Free next i := by
  cases action with
  | enter p j =>
      obtain ⟨-, same⟩ := Option.ite_none_right_eq_some.mp taken
      cases same
      by_cases here : i = j
      · subst here
        have one : pending ⟨l.broker, update l.mu i (some (.publisher p)), update l.inside p true⟩ i = 1 := by
          simp only [pending, Function.update_self]
        rw [Free, one]
        exact room
      · rw [Free, pending_mu (Function.update_of_ne here _ _)]
        exact free
  | enterBacklog j => exact (enter_backlog_free_iff taken).mpr free
  | act action => exact free_act known free taken

theorem free_new (held : Held l) {action : Action μ} (known : i < next.broker.created) (fresh : ¬ i < l.broker.created)
    (taken : step l action = some next) : Free next i := by
  have unheld : l.mu i = none := by
    cases holds : l.mu i with
    | none => rfl
    | some holder =>
        have suits := held.holders i holder holds
        cases holder with
        | publisher p => exact absurd (visits_created held.valid suits) fresh
        | subscriber => exact absurd suits.1 fresh
  cases action with
  | enter p j =>
      obtain ⟨-, same⟩ := Option.ite_none_right_eq_some.mp taken
      cases same
      exact absurd known fresh
  | enterBacklog j =>
      obtain ⟨-, same⟩ := Option.ite_none_right_eq_some.mp taken
      cases same
      exact absurd known fresh
  | act action =>
      obtain ⟨-, broker, stepped, rfl⟩ := acted taken
      rw [leave_broker] at known
      cases action with
      | subscribe topic expired =>
          have alone : pending (l.leave broker (.subscribe topic expired)) i = 0 := by
            simp only [pending, leave, unheld]
          simp only [Broker.step, Broker.subscribe] at stepped
          split at stepped <;> cases stepped
          · exact absurd known fresh
          · obtain rfl : i = l.broker.created := Nat.le_antisymm (Nat.lt_succ_iff.mp known) (Nat.le_of_not_lt fresh)
            refine .inr (.inr (.inr ?_))
            rw [alone, leave_broker]
            dsimp only
            rw [Function.update_self, Nat.zero_add]
            exact Nat.le_max_right _ _
      | _ => exact absurd (created_step l.broker broker _ stepped (by rintro _ _ ⟨⟩) ▸ known) fresh

theorem unblocked_step_iff (l : LockedBroker μ) (action : Action μ) (next : LockedBroker μ) (held : Held l)
    (unblocked : Unblocked l) (taken : step l action = some next) : Unblocked next ↔ LeavesRoom l action := by
  rw [unblocked_iff held] at unblocked
  rw [unblocked_iff (held_step l action next held taken)]
  constructor
  · intro free
    cases action with
    | enter p i =>
        obtain ⟨⟨visits, -, -⟩, same⟩ := Option.ite_none_right_eq_some.mp taken
        cases same
        have one : pending ⟨l.broker, update l.mu i (some (.publisher p)), update l.inside p true⟩ i = 1 := by
          simp only [pending, Function.update_self]
        have here := free i (visits_created held.valid visits)
        rwa [Free, one] at here
    | _ => trivial
  · intro room i known
    by_cases before : i < l.broker.created
    · exact free_step before (unblocked i before) room taken
    · exact free_new held known before taken

theorem always_unblocked_iff {path : List (Action μ)} {final : LockedBroker μ} (reached : run step new path = some final) :
    Always step Unblocked new path ↔ Along step LeavesRoom new path :=
  always_iff_along held_step unblocked_step_iff new_held
    ((unblocked_iff new_held).mpr fun _ none_yet => absurd none_yet (Nat.not_lt_zero _)) reached

instance (pending : Nat) (s : Subscription μ) : Decidable (s.Free pending) :=
  inferInstanceAs (Decidable (s.returned = true ∨ s.closed = true ∨ s.ctxDone = true ∨
    pending + s.backlog.length ≤ s.capacity - s.ch.length))

instance (l : LockedBroker μ) : (action : Action μ) → Decidable (LeavesRoom l action)
  | .enter _ i => inferInstanceAs (Decidable ((l.broker.sub i).Free 1))
  | .enterBacklog _ | .act _ => .isTrue trivial

-- A publisher overtakes the backlog of a subscription, whose Subscribe gets its mutex only then.
def overtaking : List (Action Nat) :=
  [.act (.publish 0 (lit "t") [some 1, some 2]), .act (.publishOne 0), .act (.subscribe (lit "t") false), .act (.publishOne 0),
    .enter 0 0, .act (.deliver 0 0 false), .enterBacklog 0, .act (.deliverBacklog 0 false), .act (.watchCancel 0)]

theorem overtaking_unblocked : Always step Unblocked new overtaking := (always_unblocked_iff rfl).mpr (by decide)

-- As many messages as the channel holds, published while Subscribe has not yet sent the one that waited.
def rounds : Nat → List (Action Nat)
  | 0 => []
  | n + 1 => .act (.publishOne 0) :: .enter 0 0 :: .act (.deliver 0 0 false) :: rounds n

def crowded (n : Nat) : List (Action Nat) :=
  [.act (.publish 0 (lit "t") (some 0 :: List.replicate n (some 0))), .act (.publishOne 0), .act (.subscribe (lit "t") false)] ++
    rounds n ++ [.enterBacklog 0]

-- The subscription of Subscribe, n messages after it stood in subs, and the publisher of more.
structure Crowds (l : LockedBroker Nat) (n more : Nat) : Prop where
  looping : l.broker.publisher 0 = .looping (lit "t") (List.replicate more (some 0))
  opened : l.broker.closed = false
  subs : l.broker.subs (lit "t") = [0]
  outside : l.inside 0 = false
  unheld : l.mu 0 = none
  known : 0 < l.broker.created
  live : (l.broker.sub 0).closed = false
  going : (l.broker.sub 0).ctxDone = false
  waiting : (l.broker.sub 0).returned = false
  backlog : (l.broker.sub 0).backlog.length = 1
  capacity : (l.broker.sub 0).capacity = memorySubscriptionBuffer
  ch : (l.broker.sub 0).ch.length = n

theorem crowds_round {l : LockedBroker Nat} {n more : Nat} (crowds : Crowds l n (more + 1)) (room : n < memorySubscriptionBuffer) :
    ∃ next, run step l [.act (.publishOne 0), .enter 0 0, .act (.deliver 0 0 false)] = some next ∧ Crowds next (n + 1) more := by
  let msg : Message Nat := ⟨0, 0⟩
  let heard := (l.broker.fanOut (lit "t") msg).setPublisher 0 (.delivering (lit "t") msg [0] (List.replicate more (some 0)))
  have own : heard.sub 0 = { l.broker.sub 0 with later := (l.broker.sub 0).later ++ [msg] } :=
    if_pos (by rw [crowds.subs]; exact List.mem_cons_self)
  have published : step l (.act (.publishOne 0)) = some ⟨heard, l.mu, l.inside⟩ := by
    refine act_taken rfl ?_
    rw [Broker.step, Broker.publishOne, crowds.looping, List.replicate_succ]
    simp only [crowds.opened, crowds.subs, Bool.false_eq_true, if_false, List.cons_ne_nil, heard, msg]
  have delivering : heard.publisher 0 = .delivering (lit "t") msg [0] (List.replicate more (some 0)) :=
    Broker.set_publisher_self _ _ _
  let inside : LockedBroker Nat := ⟨heard, update l.mu 0 (some (.publisher 0)), update l.inside 0 true⟩
  have entered : step ⟨heard, l.mu, l.inside⟩ (.enter 0 0) = some inside :=
    if_pos ⟨by rw [delivering]; rfl, crowds.outside, crowds.unheld⟩
  have taken : (heard.sub 0).deliver msg false = some (true, { heard.sub 0 with ch := (heard.sub 0).ch ++ [msg] }) := by
    have space : (heard.sub 0).ch.length < (heard.sub 0).capacity := by
      rw [own]
      dsimp only
      rw [crowds.ch, crowds.capacity]
      exact room
    have alive : ¬ (heard.sub 0).closed = true := by
      rw [own]
      dsimp only
      rw [crowds.live]
      exact Bool.false_ne_true
    rw [Subscription.deliver, if_neg alive, if_neg Bool.false_ne_true, if_pos space]
  let sub : Subscription Nat := { heard.sub 0 with ch := (heard.sub 0).ch ++ [msg] }
  let sent := (heard.setSub 0 sub).setPublisher 0 (.looping (lit "t") (List.replicate more (some 0)))
  have delivered : heard.step (.deliver 0 0 false) = some sent := by
    rw [Broker.step, Broker.deliver, delivering]
    simp only [List.mem_singleton, if_true, taken, Option.map_some, List.erase_cons_head, sent, sub]
  have left : step inside (.act (.deliver 0 0 false)) = some (inside.leave sent (.deliver 0 0 false)) :=
    act_taken (decide_eq_true (update_mu l.mu 0 (some (.publisher 0)))) delivered
  refine ⟨inside.leave sent (.deliver 0 0 false), ?_, ?_⟩
  · rw [run_cons, published, Option.bind_some, run_cons, entered, Option.bind_some, run_cons, left, Option.bind_some, run]
  have same : sent.sub 0 = sub := Broker.set_sub_self heard 0 sub
  constructor
  case looping => exact Broker.set_publisher_self _ _ _
  case opened => exact crowds.opened
  case subs => exact crowds.subs
  case outside => exact Function.update_self 0 false inside.inside
  case unheld => exact update_mu inside.mu 0 none
  case known => exact crowds.known
  all_goals rw [leave_broker, same]; simp only [sub, own]
  case live => exact crowds.live
  case going => exact crowds.going
  case waiting => exact crowds.waiting
  case backlog => exact crowds.backlog
  case capacity => exact crowds.capacity
  case ch => rw [List.length_append, crowds.ch, List.length_singleton]

theorem rounds_fill (more : Nat) {l : LockedBroker Nat} {n : Nat} (crowds : Crowds l n more)
    (room : n + more ≤ memorySubscriptionBuffer) :
    ∃ next, run step l (rounds more) = some next ∧ Crowds next (n + more) 0 := by
  induction more generalizing l n with
  | zero => exact ⟨l, rfl, crowds⟩
  | succ more ih =>
      obtain ⟨after, reached, filled⟩ := crowds_round crowds (by omega)
      obtain ⟨next, rest, full⟩ := ih filled (by omega)
      rw [Nat.add_right_comm, Nat.add_assoc] at full
      exact ⟨next, run_append_some reached rest, full⟩

theorem crowded_start (n : Nat) :
    ∃ l, run step new [.act (.publish 0 (lit "t") (some 0 :: List.replicate n (some 0))), .act (.publishOne 0),
      .act (.subscribe (lit "t") false)] = some l ∧ Crowds l 0 n :=
  ⟨_, rfl, rfl, rfl, rfl, rfl, rfl, Nat.zero_lt_one, rfl, rfl, rfl, rfl, rfl, rfl⟩

theorem crowded_blocked : ∃ l, run step new (crowded memorySubscriptionBuffer) = some l ∧ Blocked l 0 := by
  obtain ⟨start, prelude, none_yet⟩ := crowded_start memorySubscriptionBuffer
  obtain ⟨l, reached, full⟩ := rounds_fill memorySubscriptionBuffer none_yet (Nat.le_of_eq (Nat.zero_add _))
  have entered : run step l [.enterBacklog 0] = some ⟨l.broker, update l.mu 0 (some .subscriber), l.inside⟩ := by
    rw [run_cons, step, if_pos ⟨full.known, full.backlog ▸ Nat.zero_lt_one, full.waiting, full.unheld⟩, Option.bind_some, run]
  refine ⟨_, run_append_some (run_append_some prelude reached) entered, update_mu l.mu 0 (some .subscriber), fun msg ctxWins => ?_⟩
  dsimp only
  rw [Subscription.deliver, full.live, full.ch, full.capacity, full.going]
  cases ctxWins with
  | true => rfl
  | false => rw [if_neg Bool.false_ne_true, if_neg Bool.false_ne_true, if_neg (by omega)]

end LockedBroker

end Brainkit.Transport
