import Brainkit.Library.Feed
import Brainkit.Library.Transition
import Brainkit.Transport.Memory

set_option autoImplicit false

namespace Brainkit.Transport

open Function (update)
open Transition GoText

variable {μ : Type}

def Subscription.accepted (s : Subscription μ) : List (Message μ) := s.received ++ s.ch

def Subscription.live (s : Subscription μ) : Bool := !s.ctxDone && !s.closed

def PublishPc.underway (i : Nat) : PublishPc μ → List (Message μ)
  | .delivering _ msg subs _ => if i ∈ subs then [msg] else []
  | _ => []

namespace Broker

def feed (b : Broker μ) (i : Nat) : Feed (Message μ) where
  inherited := (b.sub i).inherited
  later := (b.sub i).later
  replay := (b.sub i).backlog
  underway p := (b.publisher p).underway i
  accepted := (b.sub i).accepted
  live := (b.sub i).live

def CaughtUp (b : Broker μ) : Action μ → Prop
  | .deliver _ i ctxWins => ctxWins = false → (b.sub i).closed = false → (b.sub i).backlog = []
  | _ => True

instance (b : Broker μ) (action : Action μ) : Decidable (CaughtUp b action) := by
  cases action <;> simp only [CaughtUp] <;> infer_instance

structure Valid (b : Broker μ) : Prop where
  registered : ∀ topic, ∀ i ∈ b.subs topic, i < b.created
  targets : ∀ p topic msg subs rest, b.publisher p = .delivering topic msg subs rest →
    msg.publisher = p ∧ subs.Nodup ∧ ∀ i ∈ subs, i < b.created
  distinct : ∀ topic, (b.subs topic).Nodup
  heard : ∀ topic, b.subs topic ≠ [] → b.unheard topic = []
  backlog : ∀ topic, b.backlog topic = newest memoryBacklogLimit (b.unheard topic)
  room : ∀ i, (b.sub i).inherited.length ≤ (b.sub i).capacity

theorem feed_set_publisher (b : Broker μ) (p : Nat) (pc : PublishPc μ) (i : Nat) :
    (b.setPublisher p pc).feed i = { b.feed i with underway := update (b.feed i).underway p (pc.underway i) } := by
  have underway : (fun q => (update b.publisher p pc q).underway i) =
      update (fun q => (b.publisher q).underway i) p (pc.underway i) := by
    funext q
    by_cases same : q = p
    · simp [same]
    · simp [Function.update_of_ne same]
  simp only [feed, setPublisher, underway]

theorem feed_keeps_publisher (b : Broker μ) (p : Nat) (pc : PublishPc μ) (i : Nat)
    (same : pc.underway i = (b.publisher p).underway i) : (b.setPublisher p pc).feed i = b.feed i := by
  rw [feed_set_publisher, same]
  exact congrArg (fun underway => { b.feed i with underway := underway }) (Function.update_eq_self p (b.feed i).underway)

theorem feed_set_sub_other (b : Broker μ) (j : Nat) (s : Subscription μ) (i : Nat) (other : i ≠ j) :
    (b.setSub j s).feed i = b.feed i := by
  simp [feed, setSub, Function.update_of_ne other]

theorem feed_set_sub_same (b : Broker μ) (j : Nat) (s : Subscription μ) (i : Nat) (inherited : s.inherited = (b.sub j).inherited)
    (later : s.later = (b.sub j).later) (backlog : s.backlog = (b.sub j).backlog)
    (accepted : s.accepted = (b.sub j).accepted) (live : s.live = (b.sub j).live) : (b.setSub j s).feed i = b.feed i := by
  by_cases here : i = j
  · subst here
    simp [feed, setSub, inherited, later, backlog, accepted, live]
  · exact feed_set_sub_other b j s i here

inductive Delivery (s : Subscription μ) (msg : Message μ) (ctxWins : Bool) : Bool → Subscription μ → Prop where
  | refused (dead : s.live = false) : Delivery s msg ctxWins false s
  | sent (open_ : s.closed = false) (waited : ctxWins = false) :
      Delivery s msg ctxWins true { s with ch := s.ch ++ [msg] }

theorem delivery_cases (s t : Subscription μ) (msg : Message μ) (ctxWins delivered : Bool)
    (taken : s.deliver msg ctxWins = some (delivered, t)) : Delivery s msg ctxWins delivered t := by
  unfold Subscription.deliver at taken
  split at taken
  next closed =>
    cases taken
    exact .refused (by simp [Subscription.live, closed])
  next opened =>
    split at taken
    next wins =>
      split at taken <;> cases taken
      next done => exact .refused (by simp [Subscription.live, done])
    next waited =>
      split at taken <;> cases taken
      exact .sent (by simpa using opened) (by simpa using waited)

inductive FeedMoves (b : Broker μ) (action : Action μ) (next : Broker μ) (i : Nat) : Prop where
  | ordered (step : (b.feed i).Step Message.publisher (next.feed i))
  | overtakes (broken : ¬ CaughtUp b action) (loose : (b.feed i).Loose Message.publisher (next.feed i))

theorem FeedMoves.loose {b next : Broker μ} {action : Action μ} {i : Nat} (moves : FeedMoves b action next i) :
    (b.feed i).Loose Message.publisher (next.feed i) := by
  cases moves with
  | ordered step => exact .step _ step
  | overtakes broken loose => exact loose

theorem feed_stays (b next : Broker μ) (action : Action μ) (i : Nat) (same : next.feed i = b.feed i) :
    FeedMoves b action next i :=
  .ordered (same ▸ .stays)

theorem publish_feed (b next : Broker μ) (p : Nat) (topic : GoString) (messages : List (Option μ)) (i : Nat)
    (taken : b.publish p topic messages = some next) : FeedMoves b (.publish p topic messages) next i := by
  unfold publish at taken
  split at taken <;> cases taken
  next idle =>
    refine feed_stays b _ _ i ?_
    split
    · rfl
    · exact feed_keeps_publisher b p _ i (by rw [idle]; rfl)

theorem publish_one_feed (b next : Broker μ) (p : Nat) (i : Nat) (taken : b.publishOne p = some next) :
    FeedMoves b (.publishOne p) next i := by
  unfold publishOne at taken
  split at taken
  next topic looping =>
    cases taken
    exact feed_stays b _ _ i (feed_keeps_publisher b p _ i (by rw [looping]; rfl))
  next topic rest looping =>
    cases taken
    exact feed_stays b _ _ i (feed_keeps_publisher b p _ i (by rw [looping]; rfl))
  next topic content rest looping =>
    have idle : (b.feed i).underway p = [] := by simp [feed, looping, PublishPc.underway]
    repeat' split at taken
    all_goals cases taken
    next closed => exact feed_stays b _ _ i (feed_keeps_publisher b p _ i (by rw [looping]; rfl))
    next opened unheard =>
      exact feed_stays b _ _ i (feed_keeps_publisher (b.enqueue topic ⟨content, p⟩) p _ i
        (by simp [enqueue, looping, PublishPc.underway]))
    next opened heard =>
      by_cases member : i ∈ b.subs topic
      · have fed : (b.fanOut topic ⟨content, p⟩).feed i =
            { b.feed i with later := (b.feed i).later ++ [⟨content, p⟩] } := by
          simp [feed, fanOut, member, Subscription.accepted, Subscription.live]
        refine .ordered ?_
        rw [feed_set_publisher, fed]
        have sends : (b.feed i).Step Message.publisher _ := .sends ⟨content, p⟩ idle
        simpa only [PublishPc.underway, if_pos member] using sends
      · have fed : (b.fanOut topic ⟨content, p⟩).feed i = b.feed i := by simp [feed, fanOut, member]
        refine feed_stays b _ _ i (fed ▸ feed_keeps_publisher (b.fanOut topic ⟨content, p⟩) p _ i ?_)
        simp [fanOut, looping, PublishPc.underway, member]
  next => cases taken

theorem underway_left (topic : GoString) (msg : Message μ) (subs : List Nat) (rest : List (Option μ)) (i : Nat) :
    (if subs = [] then PublishPc.looping topic rest else .delivering topic msg subs rest).underway i =
      if i ∈ subs then [msg] else [] := by
  by_cases gone : subs = []
  · simp [gone, PublishPc.underway]
  · simp [gone, PublishPc.underway]

theorem deliver_feed (b next : Broker μ) (valid : Valid b) (p j : Nat) (ctxWins : Bool) (i : Nat)
    (taken : b.deliver p j ctxWins = some next) : FeedMoves b (.deliver p j ctxWins) next i := by
  unfold deliver at taken
  split at taken
  next topic msg subs rest delivering =>
    split at taken
    next target =>
      obtain ⟨⟨delivered, s⟩, outcome, rfl⟩ := Option.map_eq_some_iff.mp taken
      obtain ⟨own, distinct, -⟩ := valid.targets p topic msg subs rest delivering
      by_cases here : i = j
      · subst here
        have left : i ∉ subs.erase i := fun still => ((List.Nodup.mem_erase_iff distinct).mp still).1 rfl
        have moving : (b.feed i).underway msg.publisher = [msg] := by
          simp [feed, own, delivering, PublishPc.underway, target]
        have fed : ((b.setSub i s).setPublisher p (if subs.erase i = [] then .looping topic rest
            else .delivering topic msg (subs.erase i) rest)).feed i =
              { b.feed i with
                inherited := s.inherited
                later := s.later
                replay := s.backlog
                accepted := s.accepted
                live := s.live
                underway := update (b.feed i).underway msg.publisher [] } := by
          rw [feed_set_publisher, underway_left, if_neg left, own]
          simp [feed, setSub]
        cases delivery_cases (b.sub i) s msg ctxWins delivered outcome with
        | refused dead => exact .ordered (fed ▸ .misses msg.publisher dead)
        | sent opened waited =>
            have accepted : { b.sub i with ch := (b.sub i).ch ++ [msg] }.accepted = (b.feed i).accepted ++ [msg] :=
              (List.append_assoc _ _ _).symm
            rw [accepted] at fed
            by_cases caughtUp : (b.feed i).replay = []
            · exact .ordered (fed ▸ .arrives msg moving caughtUp)
            · exact .overtakes (fun fine => caughtUp (fine waited opened)) (fed ▸ .overtakes msg moving caughtUp)
      · refine feed_stays b _ _ i ?_
        have fed := feed_set_sub_other b j s i here
        refine (feed_keeps_publisher (b.setSub j s) p _ i ?_).trans fed
        rw [underway_left]
        simp only [List.mem_erase_of_ne here, setSub, delivering, PublishPc.underway]
    next => cases taken
  next => cases taken

theorem subscribe_feed (b next : Broker μ) (topic : GoString) (expired : Bool) (i : Nat) (known : i < b.created)
    (taken : b.subscribe topic expired = some next) : FeedMoves b (.subscribe topic expired) next i := by
  unfold subscribe at taken
  split at taken <;> cases taken
  · exact feed_stays b _ _ i rfl
  · exact feed_stays b _ _ i (by simp [feed, Function.update_of_ne (Nat.ne_of_lt known)])

theorem deliver_backlog_feed (b next : Broker μ) (j : Nat) (ctxWins : Bool) (i : Nat)
    (taken : b.deliverBacklog j ctxWins = some next) : FeedMoves b (.deliverBacklog j ctxWins) next i := by
  unfold deliverBacklog at taken
  split at taken
  next => cases taken
  next msg rest left =>
    obtain ⟨⟨delivered, s⟩, outcome, rfl⟩ := Option.map_eq_some_iff.mp taken
    by_cases here : i = j
    · subst here
      cases delivery_cases (b.sub i) s msg ctxWins delivered outcome with
      | refused dead =>
          have fed : (b.setSub i { b.sub i with backlog := [] }).feed i = { b.feed i with replay := [] } := by
            simp [feed, setSub, Subscription.accepted, Subscription.live]
          exact .ordered (fed ▸ .breaks dead)
      | sent opened waited =>
          have fed : (b.setSub i { b.sub i with ch := (b.sub i).ch ++ [msg], backlog := rest }).feed i =
              { b.feed i with replay := rest, accepted := (b.feed i).accepted ++ [msg] } := by
            simp [feed, setSub, Subscription.accepted, Subscription.live]
          exact .ordered (fed ▸ .hands msg rest left)
    · exact feed_stays b _ _ i (feed_set_sub_other b j _ i here)

theorem dies_feed (b : Broker μ) (action : Action μ) (j : Nat) (s : Subscription μ) (i : Nat)
    (inherited : s.inherited = (b.sub j).inherited) (later : s.later = (b.sub j).later)
    (backlog : s.backlog = (b.sub j).backlog) (accepted : s.accepted = (b.sub j).accepted) (dead : s.live = false) :
    FeedMoves b action (b.setSub j s) i := by
  by_cases here : i = j
  · subst here
    have fed : (b.setSub i s).feed i = { b.feed i with live := false } := by
      simp [feed, setSub, inherited, later, backlog, accepted, dead]
    exact .ordered (fed ▸ .dies)
  · exact feed_stays b _ _ i (feed_set_sub_other b j s i here)

theorem receive_feed (b next : Broker μ) (j i : Nat) (taken : b.receive j = some next) :
    FeedMoves b (.receive j) next i := by
  unfold receive at taken
  split at taken
  next msg rest returned arrived =>
    cases taken
    refine feed_stays b _ _ i (feed_set_sub_same b j _ i rfl rfl rfl ?_ rfl)
    simp [Subscription.accepted, arrived]
  next => cases taken

theorem feed_moves (b next : Broker μ) (action : Action μ) (i : Nat) (valid : Valid b) (known : i < b.created)
    (taken : step b action = some next) : FeedMoves b action next i := by
  cases action with
  | publish p topic messages => exact publish_feed b next p topic messages i taken
  | publishOne p => exact publish_one_feed b next p i taken
  | deliver p j ctxWins => exact deliver_feed b next valid p j ctxWins i taken
  | subscribe topic expired => exact subscribe_feed b next topic expired i known taken
  | deliverBacklog j ctxWins => exact deliver_backlog_feed b next j ctxWins i taken
  | watchCancel j =>
      simp only [step, watchCancel] at taken
      split at taken <;> cases taken
      exact feed_stays b _ _ i (feed_set_sub_same b j _ i rfl rfl rfl rfl rfl)
  | cancel j =>
      simp only [step, cancel] at taken
      split at taken <;> cases taken
      exact dies_feed b _ j _ i rfl rfl rfl rfl rfl
  | unsubscribe j =>
      simp only [step, unsubscribe] at taken
      split at taken <;> cases taken
      exact feed_stays b _ _ i
        (feed_set_sub_same b j { b.sub j with watched := false, closing := true } i rfl rfl rfl rfl rfl)
  | closeSubscription j =>
      simp only [step, closeSubscription] at taken
      split at taken <;> cases taken
      exact dies_feed b _ j _ i rfl rfl rfl rfl (Bool.and_false _)
  | close =>
      cases taken
      refine feed_stays b _ _ i ?_
      simp only [feed, close]
      split <;> rfl
  | receive j => exact receive_feed b next j i taken

theorem newest_append {α : Type} (limit : Nat) (items : List α) (item : α) :
    newest limit (newest limit items ++ [item]) = newest limit (items ++ [item]) := by
  have inside : newest limit items ++ [item] = (items ++ [item]).drop (items.length - limit) :=
    (List.drop_append_of_le_length (Nat.sub_le _ _)).symm
  rw [inside, newest, newest, List.drop_drop]
  congr 1
  simp only [List.length_drop, List.length_append, List.length_singleton]
  omega

theorem newest_short {α : Type} (limit : Nat) (items : List α) (short : items.length ≤ limit) :
    newest limit items = items := by
  rw [newest, Nat.sub_eq_zero_of_le short, List.drop_zero]

theorem newest_length {α : Type} (limit : Nat) (items : List α) : (newest limit items).length ≤ limit := by
  simp only [newest, List.length_drop]
  omega

theorem newest_length_le {α : Type} (limit : Nat) (items : List α) : (newest limit items).length ≤ items.length := by
  simp [newest]

theorem start_valid : Valid (newMemoryBroker : Broker μ) := by
  refine ⟨fun _ _ member => ?_, fun _ _ _ _ _ no => ?_, fun _ => List.nodup_nil, fun _ heard => ?_, fun _ => ?_,
    fun _ => Nat.le_refl _⟩
  · cases member
  · cases no
  · exact absurd rfl heard
  · simp [newest, newMemoryBroker]

theorem valid_set_sub (b : Broker μ) (j : Nat) (s : Subscription μ) (valid : Valid b)
    (inherited : s.inherited = (b.sub j).inherited) (capacity : s.capacity = (b.sub j).capacity) : Valid (b.setSub j s) := by
  refine ⟨valid.registered, valid.targets, valid.distinct, valid.heard, valid.backlog, fun i => ?_⟩
  by_cases here : i = j
  · simpa [setSub, here, inherited, capacity] using valid.room j
  · simpa [setSub, Function.update_of_ne here] using valid.room i

theorem valid_set_publisher (b : Broker μ) (p : Nat) (pc : PublishPc μ) (valid : Valid b)
    (targets : ∀ topic msg subs rest, pc = .delivering topic msg subs rest →
      msg.publisher = p ∧ subs.Nodup ∧ ∀ i ∈ subs, i < b.created) : Valid (b.setPublisher p pc) := by
  refine ⟨valid.registered, fun q topic msg subs rest delivering => ?_, valid.distinct, valid.heard, valid.backlog,
    valid.room⟩
  by_cases here : q = p
  · subst here
    simp only [setPublisher, Function.update_self] at delivering
    exact targets topic msg subs rest delivering
  · simp only [setPublisher, Function.update_of_ne here] at delivering
    exact valid.targets q topic msg subs rest delivering

theorem valid_enqueue (b : Broker μ) (topic : GoString) (msg : Message μ) (valid : Valid b) (unheard : b.subs topic = []) :
    Valid (b.enqueue topic msg) := by
  refine ⟨valid.registered, valid.targets, valid.distinct, fun other heard => ?_, fun other => ?_, valid.room⟩
  · have apart : other ≠ topic := fun same => heard (same ▸ unheard)
    simpa [enqueue, Function.update_of_ne apart] using valid.heard other heard
  · by_cases here : other = topic
    · subst here
      simp only [enqueue, Function.update_self]
      rw [valid.backlog other, ← newest_append]
      split
      · rfl
      · next short => exact (newest_short _ _ (Nat.le_of_not_lt short)).symm
    · simpa [enqueue, Function.update_of_ne here] using valid.backlog other

theorem valid_publish_one (b next : Broker μ) (p : Nat) (valid : Valid b) (taken : b.publishOne p = some next) :
    Valid next := by
  unfold publishOne at taken
  repeat' split at taken
  all_goals cases taken
  next => exact valid_set_publisher b p _ valid (fun _ _ _ _ no => nomatch no)
  next => exact valid_set_publisher b p _ valid (fun _ _ _ _ no => nomatch no)
  next => exact valid_set_publisher b p _ valid (fun _ _ _ _ no => nomatch no)
  next topic content rest _ _ unheard =>
    exact valid_set_publisher _ p _ (valid_enqueue b topic ⟨content, p⟩ valid unheard) (fun _ _ _ _ no => nomatch no)
  next topic content rest _ _ heard =>
    have fanned : Valid (b.fanOut topic ⟨content, p⟩) := by
      refine ⟨valid.registered, valid.targets, valid.distinct, valid.heard, valid.backlog, fun i => ?_⟩
      have room := valid.room i
      simp only [fanOut]
      split <;> exact room
    refine valid_set_publisher _ p _ fanned fun _ _ _ _ same => ?_
    cases same
    exact ⟨rfl, valid.distinct topic, valid.registered topic⟩

theorem valid_subscribe (b next : Broker μ) (topic : GoString) (expired : Bool) (valid : Valid b)
    (taken : b.subscribe topic expired = some next) : Valid next := by
  unfold subscribe at taken
  split at taken <;> cases taken
  · exact valid
  · refine ⟨fun other i member => ?_, fun p other msg subs rest delivering => ?_, fun other => ?_, fun other heard => ?_,
      fun other => ?_, fun i => ?_⟩
    · by_cases here : other = topic
      · simp only [here, Function.update_self, List.mem_cons] at member
        rcases member with rfl | before
        · exact Nat.lt_succ_self _
        · exact Nat.lt_succ_of_lt (valid.registered topic i before)
      · simp only [Function.update_of_ne here] at member
        exact Nat.lt_succ_of_lt (valid.registered other i member)
    · obtain ⟨own, distinct, known⟩ := valid.targets p other msg subs rest delivering
      exact ⟨own, distinct, fun i member => Nat.lt_succ_of_lt (known i member)⟩
    · by_cases here : other = topic
      · simp only [here, Function.update_self, List.nodup_cons]
        exact ⟨fun member => Nat.lt_irrefl _ (valid.registered topic _ member), valid.distinct topic⟩
      · simpa [Function.update_of_ne here] using valid.distinct other
    · by_cases here : other = topic
      · simp [here]
      · simp only [Function.update_of_ne here] at heard ⊢
        exact valid.heard other heard
    · by_cases here : other = topic
      · simp [here, newest]
      · simpa [Function.update_of_ne here] using valid.backlog other
    · by_cases here : i = b.created
      · simp only [here, Function.update_self, valid.backlog topic]
        exact Nat.le_max_right _ _
      · simpa [Function.update_of_ne here] using valid.room i

theorem valid_unsubscribe (b next : Broker μ) (i : Nat) (valid : Valid b) (taken : b.unsubscribe i = some next) :
    Valid next := by
  unfold unsubscribe at taken
  split at taken <;> cases taken
  have fewer : ∀ topic, (update b.subs (b.sub i).topic ((b.subs (b.sub i).topic).erase i) topic).Sublist (b.subs topic) := by
    intro topic
    by_cases here : topic = (b.sub i).topic
    · rw [here, Function.update_self]
      exact List.erase_sublist
    · rw [Function.update_of_ne here]
  have same := valid_set_sub b i { b.sub i with watched := false, closing := true } valid rfl rfl
  refine ⟨fun topic j member => ?_, valid.targets, fun topic => ?_, fun topic heard => ?_, valid.backlog, same.room⟩
  · exact valid.registered topic j ((fewer topic).subset member)
  · exact (fewer topic).nodup (valid.distinct topic)
  · exact valid.heard topic fun none_before => heard (List.sublist_nil.mp (none_before ▸ fewer topic))

theorem valid_step (b : Broker μ) (action : Action μ) (next : Broker μ) (valid : Valid b)
    (taken : step b action = some next) : Valid next := by
  cases action with
  | publish p topic messages =>
      simp only [step, publish] at taken
      split at taken <;> cases taken
      split
      · exact valid
      · exact valid_set_publisher b p _ valid (fun _ _ _ _ no => nomatch no)
  | publishOne p => exact valid_publish_one b next p valid taken
  | deliver p j ctxWins =>
      simp only [step, deliver] at taken
      split at taken
      next topic msg subs rest delivering =>
        split at taken
        next target =>
          obtain ⟨⟨delivered, s⟩, outcome, rfl⟩ := Option.map_eq_some_iff.mp taken
          obtain ⟨own, distinct, known⟩ := valid.targets p topic msg subs rest delivering
          have kept : Valid (b.setSub j s) := by
            cases delivery_cases (b.sub j) s msg ctxWins delivered outcome with
            | refused dead => exact valid_set_sub b j _ valid rfl rfl
            | sent opened waited => exact valid_set_sub b j _ valid rfl rfl
          refine valid_set_publisher _ p _ kept fun _ _ _ _ same => ?_
          split at same <;> cases same
          exact ⟨own, distinct.erase j, fun i member => known i (List.mem_of_mem_erase member)⟩
        next => cases taken
      next => cases taken
  | subscribe topic expired => exact valid_subscribe b next topic expired valid taken
  | deliverBacklog j ctxWins =>
      simp only [step, deliverBacklog] at taken
      split at taken
      next => cases taken
      next msg rest left =>
        obtain ⟨⟨delivered, s⟩, outcome, rfl⟩ := Option.map_eq_some_iff.mp taken
        cases delivery_cases (b.sub j) s msg ctxWins delivered outcome with
        | refused dead => exact valid_set_sub b j _ valid rfl rfl
        | sent opened waited => exact valid_set_sub b j _ valid rfl rfl
  | watchCancel j =>
      simp only [step, watchCancel] at taken
      split at taken <;> cases taken
      exact valid_set_sub b j _ valid rfl rfl
  | cancel j =>
      simp only [step, cancel] at taken
      split at taken <;> cases taken
      exact valid_set_sub b j _ valid rfl rfl
  | unsubscribe j => exact valid_unsubscribe b next j valid taken
  | closeSubscription j =>
      simp only [step, closeSubscription] at taken
      split at taken <;> cases taken
      exact valid_set_sub b j _ valid rfl rfl
  | close =>
      cases taken
      refine ⟨fun _ _ member => ?_, valid.targets, fun _ => List.nodup_nil, fun _ _ => rfl, fun _ => ?_, fun i => ?_⟩
      · cases member
      · simp [close, newest]
      · have room := valid.room i
        simp only [close]
        split <;> exact room
  | receive j =>
      simp only [step, receive] at taken
      split at taken <;> cases taken
      exact valid_set_sub b j _ valid rfl rfl

-- What a subscriber is given. Until it leaves: first the messages that waited for it, which Subscribe can always hand
-- over, and of each publisher every message once and in order, as far as it is not still on its way. Even when it
-- leaves, it gets no message twice or out of order.
structure Delivers (b : Broker μ) (i : Nat) : Prop where
  waitingFirst : (b.sub i).live = true →
    (b.sub i).accepted <+: (b.sub i).inherited ∨ (b.sub i).inherited <+: (b.sub i).accepted
  room : (b.sub i).backlog ≠ [] → (b.sub i).ch.length < (b.sub i).capacity
  once : (b.sub i).live = true → ∀ p,
    (b.sub i).accepted.filter (·.publisher = p) ++
        ((b.sub i).backlog.filter (·.publisher = p) ++ (b.publisher p).underway i) =
      ((b.sub i).inherited ++ (b.sub i).later).filter (·.publisher = p)
  inOrder : ∀ p, ((b.sub i).accepted.filter (·.publisher = p)).Sublist
    (((b.sub i).inherited ++ (b.sub i).later).filter (·.publisher = p))

structure Orderly (b : Broker μ) : Prop where
  valid : Valid b
  ordered : ∀ i, i < b.created → (b.feed i).Ordered Message.publisher

theorem delivers_of_ordered (b : Broker μ) (i : Nat) (valid : Valid b) (ordered : (b.feed i).Ordered Message.publisher) :
    Delivers b i := by
  refine ⟨fun live => Feed.ordered_inherited _ _ ordered live, fun behind => ?_,
    fun live p => Feed.ordered_once _ _ ordered live p, fun p => Feed.ordered_sublist _ _ ordered p⟩
  have fewer : (b.sub i).accepted.length < (b.sub i).inherited.length := Feed.ordered_room _ _ ordered behind
  have fits := valid.room i
  rw [Subscription.accepted, List.length_append] at fewer
  omega

theorem subscribed_feed (b next : Broker μ) (topic : GoString) (expired : Bool) (i : Nat) (valid : Valid b)
    (taken : b.subscribe topic expired = some next) (known : i < next.created) (fresh : ¬ i < b.created) :
    ∃ waiting, next.feed i = ⟨waiting, [], waiting, fun _ => [], [], true⟩ := by
  unfold subscribe at taken
  split at taken <;> cases taken
  · exact absurd known fresh
  · obtain rfl : i = b.created := Nat.le_antisymm (Nat.lt_succ_iff.mp known) (Nat.le_of_not_lt fresh)
    have unaware : ∀ p, (b.publisher p).underway b.created = [] := by
      intro p
      cases delivering : b.publisher p with
      | delivering other msg subs rest =>
          have known := (valid.targets p other msg subs rest delivering).2.2 b.created
          simpa [PublishPc.underway] using known
      | _ => rfl
    refine ⟨b.backlog topic, ?_⟩
    simp [feed, unaware, valid.backlog topic, Subscription.accepted, Subscription.live]

theorem created_step (b next : Broker μ) (action : Action μ) (taken : step b action = some next)
    (other : ∀ topic expired, action ≠ .subscribe topic expired) : next.created = b.created := by
  cases action with
  | subscribe topic expired => exact absurd rfl (other topic expired)
  | deliver p j ctxWins =>
      simp only [step, deliver] at taken
      repeat' split at taken
      all_goals first
        | cases taken
        | (obtain ⟨outcome, -, rfl⟩ := Option.map_eq_some_iff.mp taken; rfl)
  | deliverBacklog j ctxWins =>
      simp only [step, deliverBacklog] at taken
      split at taken
      · cases taken
      · obtain ⟨outcome, -, rfl⟩ := Option.map_eq_some_iff.mp taken
        rfl
  | close =>
      cases taken
      rfl
  | publish p topic messages =>
      simp only [step, publish] at taken
      split at taken <;> cases taken
      split <;> rfl
  | _ =>
      simp only [step, publishOne, watchCancel, cancel, unsubscribe, closeSubscription, receive] at taken
      repeat' split at taken
      all_goals cases taken
      all_goals rfl

theorem created_le_step (b next : Broker μ) (action : Action μ) (taken : step b action = some next) :
    b.created ≤ next.created := by
  cases action with
  | subscribe topic expired =>
      simp only [step, subscribe] at taken
      split at taken <;> cases taken
      · exact Nat.le_refl _
      · exact Nat.le_succ _
  | _ => exact Nat.le_of_eq (created_step b next _ taken (fun _ _ no => nomatch no)).symm

theorem orderly_step (b : Broker μ) (action : Action μ) (next : Broker μ) (orderly : Orderly b) (caughtUp : CaughtUp b action)
    (taken : step b action = some next) : Orderly next := by
  refine ⟨valid_step b action next orderly.valid taken, fun i known => ?_⟩
  by_cases before : i < b.created
  · cases feed_moves b next action i orderly.valid before taken with
    | ordered step => exact Feed.ordered_step _ _ _ (orderly.ordered i before) step
    | overtakes broken loose => exact absurd caughtUp broken
  · cases action with
    | subscribe topic expired =>
        obtain ⟨waiting, fed⟩ := subscribed_feed b next topic expired i orderly.valid taken known before
        rw [fed]
        exact Feed.opened_ordered _ waiting true
    | _ => exact absurd (created_step b next _ taken (fun _ _ no => nomatch no) ▸ known) before

theorem memory_broker_delivers (path : List (Action μ)) (b : Broker μ) (reached : run step newMemoryBroker path = some b) :
    (∀ topic, b.backlog topic = newest memoryBacklogLimit (b.unheard topic)) ∧
      (∀ topic, b.subs topic ≠ [] → b.backlog topic = []) ∧
      (Along step CaughtUp newMemoryBroker path → ∀ i, i < b.created → Delivers b i) := by
  have valid : Valid b := run_invariant valid_step start_valid reached
  refine ⟨valid.backlog, fun topic heard => ?_, fun caughtUp i known => ?_⟩
  · rw [valid.backlog topic, valid.heard topic heard]
    exact List.drop_nil
  · have start : Orderly (newMemoryBroker : Broker μ) := ⟨start_valid, fun i none_yet => absurd none_yet (Nat.not_lt_zero i)⟩
    have orderly := along_invariant orderly_step start caughtUp reached
    exact delivers_of_ordered b i orderly.valid (orderly.ordered i known)

-- One publisher publishes two messages, the second after a subscription was registered for which the first is
-- waiting.
def publishTwo : List (Action Nat) :=
  [.publish 0 (lit "t") [some 1, some 2], .publishOne 0, .subscribe (lit "t") false, .publishOne 0]

def backlogFirst : List (Action Nat) := publishTwo ++ [.deliverBacklog 0 false, .watchCancel 0, .deliver 0 0 false]

def overtaken : List (Action Nat) := publishTwo ++ [.deliver 0 0 false, .deliverBacklog 0 false, .watchCancel 0]

theorem backlog_first_delivers : ∃ b, run step newMemoryBroker backlogFirst = some b ∧
    (b.sub 0).accepted = [⟨1, 0⟩, ⟨2, 0⟩] ∧ Delivers b 0 :=
  ⟨_, rfl, rfl, (memory_broker_delivers backlogFirst _ rfl).2.2 (by decide) 0 (by decide)⟩

theorem message_overtakes_backlog : ∃ b, run step newMemoryBroker overtaken = some b ∧
    (b.sub 0).accepted = [⟨2, 0⟩, ⟨1, 0⟩] ∧ (b.sub 0).live = true ∧ ¬ Delivers b 0 :=
  ⟨_, rfl, rfl, rfl, fun delivers => absurd (delivers.once rfl 0) (by decide)⟩

end Broker

end Brainkit.Transport
