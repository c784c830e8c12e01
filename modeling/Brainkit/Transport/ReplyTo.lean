import Brainkit.Transport.Client
import Brainkit.Transport.MemoryOrder

set_option autoImplicit false

namespace Brainkit.Transport

open Function (update)
open Transition GoText

variable {μ : Type}

namespace Broker

theorem enqueue_backlog (b : Broker μ) (topic : GoString) (msg : Message μ) :
    (b.enqueue topic msg).backlog topic = newest memoryBacklogLimit (b.backlog topic ++ [msg]) := by
  simp only [enqueue, Function.update_self]
  split
  · rfl
  · next short => exact (newest_short _ _ (Nat.le_of_not_lt short)).symm

inductive BacklogMoves (b : Broker μ) (action : Action μ) (next : Broker μ) (topic : GoString) : Prop where
  | stays (same : next.backlog topic = b.backlog topic) (closed : next.closed = b.closed)
      (quiet : b.published topic action = none)
  | adds (msg : Message μ) (called : b.published topic action = some msg) (unheard : b.subs topic = [])
      (closed : next.closed = b.closed) (added : next.backlog topic = newest memoryBacklogLimit (b.backlog topic ++ [msg]))
  | hears (msg : Message μ) (called : b.published topic action = some msg) (heard : b.subs topic ≠ [])
      (closed : next.closed = b.closed) (same : next.backlog topic = b.backlog topic)
  | closes (closed : next.closed = true) (empty : next.backlog topic = []) (quiet : b.published topic action = none)

theorem publish_one_backlog (b next : Broker μ) (p : Nat) (topic : GoString) (taken : b.publishOne p = some next) :
    BacklogMoves b (.publishOne p) next topic := by
  unfold publishOne at taken
  split at taken
  next other looping =>
    cases taken
    exact .stays rfl rfl (by simp [published, looping])
  next other rest looping =>
    cases taken
    exact .stays rfl rfl (by simp [published, looping])
  next other content rest looping =>
    repeat' split at taken
    all_goals cases taken
    next closed => exact .stays rfl rfl (by simp [published, looping, closed])
    next opened unheard =>
      by_cases here : other = topic
      · subst here
        exact .adds ⟨content, p⟩ (by simp [published, looping, opened]) unheard rfl (enqueue_backlog b other ⟨content, p⟩)
      · refine .stays ?_ rfl (by simp [published, looping, here])
        exact Function.update_of_ne (Ne.symm here) _ _
    next opened heard =>
      by_cases here : other = topic
      · subst here
        exact .hears ⟨content, p⟩ (by simp [published, looping, opened]) heard rfl rfl
      · exact .stays rfl rfl (by simp [published, looping, here])
  next => cases taken

theorem backlog_moves (b next : Broker μ) (action : Action μ) (topic : GoString)
    (foreign : action.subscribesTo topic = false) (taken : step b action = some next) :
    BacklogMoves b action next topic := by
  cases action with
  | publishOne p => exact publish_one_backlog b next p topic taken
  | subscribe other expired =>
      have apart : topic ≠ other := fun same => by simp [Action.subscribesTo, same] at foreign
      simp only [step, subscribe] at taken
      split at taken <;> cases taken
      · exact .stays rfl rfl rfl
      · exact .stays (Function.update_of_ne apart _ _) rfl rfl
  | close =>
      cases taken
      exact .closes rfl rfl rfl
  | publish p other messages =>
      simp only [step, publish] at taken
      split at taken <;> cases taken
      split <;> exact .stays rfl rfl rfl
  | deliver p j ctxWins =>
      simp only [step, deliver] at taken
      repeat' split at taken
      all_goals first
        | cases taken
        | (obtain ⟨outcome, -, rfl⟩ := Option.map_eq_some_iff.mp taken; exact .stays rfl rfl rfl)
  | deliverBacklog j ctxWins =>
      simp only [step, deliverBacklog] at taken
      split at taken
      · cases taken
      · obtain ⟨outcome, -, rfl⟩ := Option.map_eq_some_iff.mp taken
        exact .stays rfl rfl rfl
  | _ =>
      simp only [step, watchCancel, cancel, unsubscribe, closeSubscription, receive] at taken
      repeat' split at taken
      all_goals cases taken
      all_goals exact .stays rfl rfl rfl

inductive SubscribeMoves (b : Broker μ) (topic : GoString) (expired : Bool) (next : Broker μ) : Prop where
  | refused (why : topic = [] ∨ expired = true ∨ b.closed = true) (same : next = b)
  | registers (why : ¬ (topic = [] ∨ expired = true ∨ b.closed = true)) (created : next.created = b.created + 1)
      (closed : next.closed = b.closed) (taken : next.backlog topic = [])
      (waiting : (next.sub b.created).inherited = b.backlog topic)

theorem subscribe_moves (b next : Broker μ) (topic : GoString) (expired : Bool) (valid : Valid b)
    (taken : b.subscribe topic expired = some next) : SubscribeMoves b topic expired next := by
  unfold subscribe at taken
  split at taken
  next why =>
    cases taken
    exact .refused why rfl
  next why =>
    cases taken
    exact .registers why rfl rfl (by simp) (by simp [valid.backlog topic])

theorem inherited_step (b next : Broker μ) (action : Action μ) (i : Nat) (valid : Valid b) (known : i < b.created)
    (taken : step b action = some next) : (next.sub i).inherited = (b.sub i).inherited :=
  Feed.loose_inherited _ _ _ (feed_moves b next action i valid known taken).loose

end Broker

namespace RemoteClient

-- Before the requester has subscribed, no call declares the topic while replies wait in its backlog, and every reply
-- finds the topic without a subscription and room in its backlog.
def KeepsReplies (replyTo : GoString) (c : RemoteClient μ) : Action μ → Prop
  | .predeclare _ expired => c.requester = none →
      replyTo = [] ∨ expired = true ∨ c.broker.closed = true ∨ c.broker.backlog replyTo = []
  | .broker action => c.requester = none → (c.broker.published replyTo action).isSome = true →
      c.broker.subs replyTo = [] ∧ (c.broker.backlog replyTo).length < memoryBacklogLimit
  | _ => True

instance (replyTo : GoString) (c : RemoteClient μ) (a : Action μ) : Decidable (KeepsReplies replyTo c a) := by
  cases a <;> simp only [KeepsReplies] <;> infer_instance

inductive Moves (replyTo : GoString) (c : RemoteClient μ) (a : Action μ) (next : RemoteClient μ) : Prop where
  | quiet (action : Broker.Action μ) (foreign : action.subscribesTo replyTo = false)
      (taken : c.broker.step action = some next.broker) (requester : next.requester = c.requester)
      (replies : next.replies =
        if c.requester = none then c.replies ++ (c.broker.published replyTo action).toList else c.replies)
      (free : KeepsReplies replyTo c a ↔ (c.requester = none → (c.broker.published replyTo action).isSome = true →
        c.broker.subs replyTo = [] ∧ (c.broker.backlog replyTo).length < memoryBacklogLimit))
  | declares (expired : Bool) (taken : c.broker.subscribe replyTo expired = some next.broker)
      (requester : next.requester = c.requester) (replies : next.replies = c.replies)
      (free : KeepsReplies replyTo c a ↔ (c.requester = none →
        replyTo = [] ∨ expired = true ∨ c.broker.closed = true ∨ c.broker.backlog replyTo = []))
  | subscribes (expired : Bool) (taken : c.broker.subscribe replyTo expired = some next.broker)
      (waiting : c.requester = none) (replies : next.replies = c.replies)
      (requester : next.requester = if next.broker.created = c.broker.created then none else some c.broker.created)
      (free : KeepsReplies replyTo c a)

theorem moves_of_step (replyTo : GoString) (c next : RemoteClient μ) (a : Action μ) (taken : step replyTo c a = some next) :
    Moves replyTo c a next := by
  cases a with
  | predeclare k expired =>
      simp only [step, predeclare] at taken
      split at taken
      next idle =>
        obtain ⟨b, moved, rfl⟩ := Option.map_eq_some_iff.mp taken
        exact .declares expired moved rfl rfl Iff.rfl
      next => cases taken
  | preCancel k =>
      simp only [step, preCancel] at taken
      split at taken
      next i subscribing =>
        split at taken
        next returned =>
          obtain ⟨b, moved, rfl⟩ := Option.map_eq_some_iff.mp taken
          exact .quiet (.cancel i) rfl moved rfl (by simp [setCall, Broker.published]) (by simp [KeepsReplies, Broker.published])
        next => cases taken
      next => cases taken
  | request k topic content =>
      simp only [step, request] at taken
      split at taken
      next declared =>
        obtain ⟨b, moved, rfl⟩ := Option.map_eq_some_iff.mp taken
        exact .quiet (.publish k topic [some content]) rfl moved rfl (by simp [setCall, Broker.published])
          (by simp [KeepsReplies, Broker.published])
      next => cases taken
  | subscribeTo expired =>
      simp only [step, subscribeTo] at taken
      split at taken
      next waiting =>
        obtain ⟨b, moved, rfl⟩ := Option.map_eq_some_iff.mp taken
        exact .subscribes expired moved waiting rfl rfl trivial
      next => cases taken
  | broker action =>
      simp only [step] at taken
      split at taken
      next => cases taken
      next foreign =>
        obtain ⟨b, moved, rfl⟩ := Option.map_eq_some_iff.mp taken
        exact .quiet action (by simpa using foreign) moved rfl rfl Iff.rfl

-- The replies that wait for the requester, or waited when it came. A broker that is closed before it comes has
-- dropped them, and it does not come.
def waiting (replyTo : GoString) (c : RemoteClient μ) : Option (List (Message μ)) :=
  match c.requester with
  | none => if c.broker.closed then none else some (c.broker.backlog replyTo)
  | some i => some (c.broker.sub i).inherited

structure Counted (replyTo : GoString) (c : RemoteClient μ) : Prop where
  valid : c.broker.Valid
  requested : ∀ i, c.requester = some i → i < c.broker.created ∧ (c.broker.feed i).Kept
  fewer : ∀ waits, c.waiting replyTo = some waits → waits.length ≤ c.replies.length

inductive ReplyMoves (replyTo : GoString) (c : RemoteClient μ) (a : Action μ) (next : RemoteClient μ) : Prop where
  | stays (same : next.waiting replyTo = c.waiting replyTo) (replies : next.replies = c.replies) (free : KeepsReplies replyTo c a)
  | drops (gone : next.waiting replyTo = none)
  | adds (waits : List (Message μ)) (msg : Message μ) (before : c.waiting replyTo = some waits)
      (after : next.waiting replyTo = some (newest memoryBacklogLimit (waits ++ [msg])))
      (replies : next.replies = c.replies ++ [msg]) (fits : KeepsReplies replyTo c a ↔ waits.length < memoryBacklogLimit)
  | misses (msg : Message μ) (after : next.waiting replyTo = some []) (replies : next.replies = c.replies ++ [msg])
      (lost : ¬ KeepsReplies replyTo c a)
  | swallows (waits : List (Message μ)) (before : c.waiting replyTo = some waits) (after : next.waiting replyTo = some [])
      (replies : next.replies = c.replies) (unheard : KeepsReplies replyTo c a ↔ waits = [])

theorem published_opened (b : Broker μ) (topic : GoString) (action : Broker.Action μ) (msg : Message μ)
    (called : b.published topic action = some msg) : b.closed = false := by
  cases action with
  | publishOne p =>
      simp only [Broker.published] at called
      repeat' split at called
      all_goals cases called
      next own => simpa using fun closed => own (.inl closed)
  | _ => cases called

theorem requested_moves (replyTo : GoString) (c next : RemoteClient μ) (a : Action μ) (action : Broker.Action μ) (i : Nat)
    (counted : Counted replyTo c) (requested : c.requester = some i) (taken : c.broker.step action = some next.broker)
    (requester : next.requester = c.requester) (replies : next.replies = c.replies) (free : KeepsReplies replyTo c a) :
    ReplyMoves replyTo c a next := by
  have inherited := Broker.inherited_step c.broker next.broker action i counted.valid (counted.requested i requested).1 taken
  exact .stays (by simp [waiting, requester, requested, inherited]) replies free

theorem reply_moves (replyTo : GoString) (c next : RemoteClient μ) (a : Action μ) (counted : Counted replyTo c)
    (taken : step replyTo c a = some next) : ReplyMoves replyTo c a next := by
  cases moves_of_step replyTo c next a taken with
  | quiet action foreign moved requester replies free =>
      cases requested : c.requester with
      | some i =>
          simp only [requested, reduceCtorEq, if_false, false_implies, iff_true] at replies free
          exact requested_moves replyTo c next a action i counted requested moved requester replies free
      | none =>
          simp only [requested, if_true, true_implies] at replies free
          rw [requested] at requester
          cases Broker.backlog_moves c.broker next.broker action replyTo foreign moved with
          | stays same closed quiet =>
              rw [quiet] at replies free
              exact .stays (by simp [waiting, requester, requested, closed, same]) (by simpa using replies) (free.mpr (by simp))
          | adds msg called unheard closed added =>
              have opened := published_opened c.broker replyTo action msg called
              rw [called] at replies free
              exact .adds (c.broker.backlog replyTo) msg (by simp [waiting, requested, opened])
                (by simp [waiting, requester, closed, opened, added]) replies (by simpa [unheard] using free)
          | hears msg called heard closed same =>
              have opened := published_opened c.broker replyTo action msg called
              have empty : c.broker.backlog replyTo = [] := by
                rw [counted.valid.backlog, counted.valid.heard replyTo heard]
                exact List.drop_nil
              rw [called] at replies free
              exact .misses msg (by simp [waiting, requester, closed, opened, same, empty]) replies (by simp [free, heard])
          | closes closed empty quiet => exact .drops (by simp [waiting, requester, closed])
  | declares expired moved requester replies free =>
      cases requested : c.requester with
      | some i =>
          exact requested_moves replyTo c next a (.subscribe replyTo expired) i counted requested moved requester replies
            (free.mpr (by simp [requested]))
      | none =>
          rw [requested] at requester
          cases Broker.subscribe_moves c.broker next.broker replyTo expired counted.valid moved with
          | refused why same =>
              refine .stays (by simp [waiting, requester, requested, same]) replies (free.mpr fun _ => ?_)
              rcases why with topic | done | closed
              · exact .inl topic
              · exact .inr (.inl done)
              · exact .inr (.inr (.inl closed))
          | registers why created closed emptied waits =>
              simp only [not_or, Bool.not_eq_true] at why
              obtain ⟨topic, done, opened⟩ := why
              exact .swallows (c.broker.backlog replyTo) (by simp [waiting, requested, opened])
                (by simp [waiting, requester, closed, opened, emptied]) replies
                (by simpa [requested, topic, done, opened] using free)
  | subscribes expired moved requested replies requester free =>
      cases Broker.subscribe_moves c.broker next.broker replyTo expired counted.valid moved with
      | refused why same =>
          rw [same, if_pos rfl] at requester
          exact .stays (by simp [waiting, requester, requested, same]) replies free
      | registers why created closed emptied waits =>
          simp only [not_or, Bool.not_eq_true] at why
          rw [created, if_neg (Nat.succ_ne_self _)] at requester
          exact .stays (by simp [waiting, requester, requested, why, waits]) replies free

theorem requested_step (b next : Broker μ) (action : Broker.Action μ) (i : Nat) (valid : b.Valid)
    (taken : b.step action = some next) (held : i < b.created ∧ (b.feed i).Kept) :
    i < next.created ∧ (next.feed i).Kept :=
  ⟨Nat.lt_of_lt_of_le held.1 (Broker.created_le_step b next action taken),
    Feed.kept_loose _ _ _ held.2 (Broker.feed_moves b next action i valid held.1 taken).loose⟩

theorem fewer_step (replyTo : GoString) (c next : RemoteClient μ) (a : Action μ) (counted : Counted replyTo c)
    (taken : step replyTo c a = some next) (waits : List (Message μ)) (after : next.waiting replyTo = some waits) :
    waits.length ≤ next.replies.length := by
  cases reply_moves replyTo c next a counted taken with
  | stays same replies free =>
      rw [replies]
      exact counted.fewer waits (same ▸ after)
  | drops gone =>
      rw [gone] at after
      cases after
  | adds before msg waiting added replies fits =>
      obtain rfl := Option.some.inj (added.symm.trans after)
      have fewer := counted.fewer before waiting
      rw [replies, List.length_append]
      exact Nat.le_trans (Broker.newest_length_le _ _) (by simpa using fewer)
  | misses msg empty replies lost =>
      obtain rfl := Option.some.inj (empty.symm.trans after)
      exact Nat.zero_le _
  | swallows before waiting empty replies unheard =>
      obtain rfl := Option.some.inj (empty.symm.trans after)
      exact Nat.zero_le _

theorem counted_step (replyTo : GoString) (c : RemoteClient μ) (a : Action μ) (next : RemoteClient μ)
    (counted : Counted replyTo c) (taken : step replyTo c a = some next) : Counted replyTo next := by
  have fewer := fewer_step replyTo c next a counted taken
  cases moves_of_step replyTo c next a taken with
  | quiet action foreign moved requester replies free =>
      refine ⟨Broker.valid_step _ _ _ counted.valid moved, fun i requested => ?_, fewer⟩
      exact requested_step _ _ action i counted.valid moved (counted.requested i (requester ▸ requested))
  | declares expired moved requester replies free =>
      refine ⟨Broker.valid_subscribe _ _ _ _ counted.valid moved, fun i requested => ?_, fewer⟩
      exact requested_step _ _ (.subscribe replyTo expired) i counted.valid moved
        (counted.requested i (requester ▸ requested))
  | subscribes expired moved unrequested replies requester free =>
      refine ⟨Broker.valid_subscribe _ _ _ _ counted.valid moved, fun i requested => ?_, fewer⟩
      rw [requester] at requested
      split at requested <;> cases requested
      next registered =>
        have more : c.broker.created < next.broker.created :=
          Nat.lt_of_le_of_ne (Broker.created_le_step _ _ (.subscribe replyTo expired) moved) (Ne.symm registered)
        obtain ⟨waits, fed⟩ :=
          Broker.subscribed_feed _ _ replyTo expired c.broker.created counted.valid moved more (Nat.lt_irrefl _)
        exact ⟨more, fed ▸ Feed.opened_kept waits true⟩

theorem start_counted (replyTo : GoString) : Counted replyTo (start : RemoteClient μ) := by
  refine ⟨Broker.start_valid, fun i no => (nomatch no), fun waits none_yet => ?_⟩
  obtain rfl := Option.some.inj none_yet
  exact Nat.le_refl _

def Whole (replyTo : GoString) (c : RemoteClient μ) : Prop := ∀ waits, c.waiting replyTo = some waits → waits = c.replies

def Short (replyTo : GoString) (c : RemoteClient μ) : Prop :=
  ∀ waits, c.waiting replyTo = some waits → waits.length < c.replies.length

theorem whole_step (replyTo : GoString) (c : RemoteClient μ) (a : Action μ) (next : RemoteClient μ)
    (counted : Counted replyTo c) (whole : Whole replyTo c) (keeps : KeepsReplies replyTo c a)
    (taken : step replyTo c a = some next) : Whole replyTo next := by
  intro waits after
  cases reply_moves replyTo c next a counted taken with
  | stays same replies free =>
      rw [replies]
      exact whole waits (same ▸ after)
  | drops gone =>
      rw [gone] at after
      cases after
  | adds before msg waiting added replies fits =>
      obtain rfl := Option.some.inj (added.symm.trans after)
      have room := fits.mp keeps
      rw [replies, ← whole before waiting]
      exact Broker.newest_short _ _ (by rw [List.length_append]; exact room)
  | misses msg empty replies lost => exact absurd keeps lost
  | swallows before waiting empty replies unheard =>
      obtain rfl := Option.some.inj (empty.symm.trans after)
      rw [replies, ← whole before waiting]
      exact (unheard.mp keeps).symm

theorem short_step (replyTo : GoString) (c : RemoteClient μ) (a : Action μ) (next : RemoteClient μ)
    (counted : Counted replyTo c) (short : Short replyTo c) (taken : step replyTo c a = some next) :
    Short replyTo next := by
  intro waits after
  cases reply_moves replyTo c next a counted taken with
  | stays same replies free =>
      rw [replies]
      exact short waits (same ▸ after)
  | drops gone =>
      rw [gone] at after
      cases after
  | adds before msg waiting added replies fits =>
      obtain rfl := Option.some.inj (added.symm.trans after)
      have fewer := short before waiting
      rw [replies, List.length_append]
      exact Nat.lt_of_le_of_lt (Broker.newest_length_le _ _) (by simpa using fewer)
  | misses msg empty replies lost =>
      obtain rfl := Option.some.inj (empty.symm.trans after)
      simp [replies]
  | swallows before waiting empty replies unheard =>
      obtain rfl := Option.some.inj (empty.symm.trans after)
      rw [replies]
      exact Nat.lt_of_le_of_lt (Nat.zero_le _) (short before waiting)

theorem short_of_break (replyTo : GoString) (c : RemoteClient μ) (a : Action μ) (next : RemoteClient μ)
    (counted : Counted replyTo c) (broken : ¬ KeepsReplies replyTo c a) (taken : step replyTo c a = some next) :
    Short replyTo next := by
  intro waits after
  cases reply_moves replyTo c next a counted taken with
  | stays same replies free => exact absurd free broken
  | drops gone =>
      rw [gone] at after
      cases after
  | adds before msg waiting added replies fits =>
      obtain rfl := Option.some.inj (added.symm.trans after)
      have full := Nat.le_of_not_lt fun room => broken (fits.mpr room)
      have fewer := counted.fewer before waiting
      have limited := Broker.newest_length memoryBacklogLimit (before ++ [msg])
      rw [replies, List.length_append, List.length_singleton]
      omega
  | misses msg empty replies lost =>
      obtain rfl := Option.some.inj (empty.symm.trans after)
      simp [replies]
  | swallows before waiting empty replies unheard =>
      obtain rfl := Option.some.inj (empty.symm.trans after)
      have some_waited : 0 < before.length := List.length_pos_iff.mpr fun none_waited => broken (unheard.mpr none_waited)
      rw [replies]
      exact Nat.lt_of_lt_of_le some_waited (counted.fewer before waiting)

def DeliversReplies (c : RemoteClient μ) (i : Nat) : Prop :=
  (c.broker.sub i).inherited = c.replies ∧
    ((c.broker.sub i).live = true → c.replies.Sublist ((c.broker.sub i).accepted ++ (c.broker.sub i).backlog))

theorem replies_delivered_iff (replyTo : GoString) (path : List (Action μ)) (c : RemoteClient μ) (i : Nat)
    (reached : run (step replyTo) start path = some c) (requested : c.requester = some i) :
    DeliversReplies c i ↔ Along (step replyTo) (KeepsReplies replyTo) start path := by
  have counted : Counted replyTo c := run_invariant (counted_step replyTo) (start_counted replyTo) reached
  have waits : c.waiting replyTo = some (c.broker.sub i).inherited := by simp [waiting, requested]
  constructor
  · rintro ⟨same, -⟩
    refine along_of_final (counted_step replyTo) (short_of_break replyTo) (short_step replyTo) (start_counted replyTo)
      reached fun short => ?_
    have fewer := short _ waits
    rw [same] at fewer
    exact Nat.lt_irrefl _ fewer
  · intro keeps
    have both : ∀ (state : RemoteClient μ) action next, (Counted replyTo state ∧ Whole replyTo state) →
        KeepsReplies replyTo state action → step replyTo state action = some next →
          Counted replyTo next ∧ Whole replyTo next :=
      fun state action next held kept taken => ⟨counted_step replyTo state action next held.1 taken,
        whole_step replyTo state action next held.1 held.2 kept taken⟩
    have start_whole : Whole replyTo (start : RemoteClient μ) := fun _ none_yet => (Option.some.inj none_yet).symm
    have same : (c.broker.sub i).inherited = c.replies :=
      (along_invariant both ⟨start_counted replyTo, start_whole⟩ keeps reached).2 _ waits
    refine ⟨same, fun live => ?_⟩
    rw [← same]
    exact Feed.kept_inherited _ (counted.requested i requested).2 live

-- A responder listens; a call declares the reply topic, publishes its request, and the responder receives it and
-- starts to publish its reply.
def answered (replyTo : GoString) (unsubscribed : List (Action Nat)) : List (Action Nat) :=
  ([.broker (.subscribe (lit "ask") false), .broker (.watchCancel 0), .predeclare 0 false, .broker (.watchCancel 1),
    .preCancel 0] : List (Action Nat)) ++ unsubscribed ++
    ([.request 0 (lit "ask") 5, .broker (.publishOne 0), .broker (.deliver 0 0 false), .broker (.receive 0),
      .broker (.publish 1 replyTo [some 7]), .broker (.publishOne 1)] : List (Action Nat))

def unsubscribedFirst : List (Action Nat) :=
  answered (lit "inbox") [.broker (.unsubscribe 1), .broker (.closeSubscription 1)] ++ [.subscribeTo false]

theorem reply_after_unsubscribe : ∃ c, run (step (lit "inbox")) start unsubscribedFirst = some c ∧
    c.requester = some 2 ∧ c.replies = [⟨7, 1⟩] ∧ DeliversReplies c 2 :=
  ⟨_, rfl, rfl, rfl, (replies_delivered_iff (lit "inbox") unsubscribedFirst _ 2 rfl rfl).mpr (by decide)⟩

-- The cancelled subscription of the call is still registered and takes the reply into the channel that nobody reads.
def repliedFirst : List (Action Nat) :=
  answered (lit "inbox") [] ++ ([.broker (.deliver 1 1 false), .broker (.unsubscribe 1), .broker (.closeSubscription 1),
    .subscribeTo false] : List (Action Nat))

theorem phantom_takes_reply : ∃ c, run (step (lit "inbox")) start repliedFirst = some c ∧
    c.requester = some 2 ∧ c.replies = [⟨7, 1⟩] ∧ (c.broker.sub 2).live = true ∧
      (c.broker.sub 2).accepted ++ (c.broker.sub 2).backlog = [] ∧ ¬ DeliversReplies c 2 :=
  ⟨_, rfl, rfl, rfl, rfl, rfl, fun delivers => absurd (delivers.2 rfl) (by decide)⟩

end RemoteClient

end Brainkit.Transport
