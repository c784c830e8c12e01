import Brainkit.Discovery.Bus

set_option autoImplicit false

namespace Brainkit.Discovery.Bus

open Function (update)
open GoText Transition

def Left (s : Bus) (n : Nat) : Prop := ∃ message, message.type = .leave ∧ (n, message) ∈ s.sent

def Parted (sent : List (Nat × PresenceMessage)) : Prop :=
  sent.Pairwise fun earlier later => earlier.2.type = .leave → later.1 ≠ earlier.1

def Registering (s : Bus) (n : Nat) : Prop := n + 1 = s.registrations ∧ s.closeWait = false ∧ ¬ s.Left n

def Stopping (s : Bus) (c : Closing) : Prop :=
  c.self = s.self ∧ c.closeDone = s.closeDone ∧ s.closeWait = true ∧ ∀ n, n + 1 = s.registrations → ¬ s.Left n

def Fits (s : Bus) : Call → Prop
  | .subscribing n => s.Registering n ∧ s.loops = []
  | .installing n => s.Registering n ∧ s.loops = []
  | .announcing n => s.Registering n ∧ s.cancel ≠ none
  | .publishing n m message => s.Registering n ∧ s.cancel ≠ none ∧ m = n ∧ message.type = .announce
  | .launching n _ => s.Registering n ∧ s.cancel ≠ none
  | .cancelling c => s.Stopping c
  | .waiting c => s.Stopping c
  | .departing c => s.Stopping c ∧ s.loops = []
  | .finishing => s.loops = []

-- The loops run only between the Register that has started them and the closeDone of the Close that waits for them, and
-- the leave message is published after that.
structure Sound (s : Bus) : Prop where
  current : ∀ n self, s.self = some (n, self) → n + 1 = s.registrations
  known : ∀ entry ∈ s.sent, entry.1 < s.registrations
  flight : ∀ loop ∈ s.loops, ∀ n message, loop.pc = .announcing n message → n + 1 = s.registrations ∧ message.type = .announce
  idle : s.cancel = none → s.loops = []
  closed : s.closed = true → s.cancel = none ∧ s.call = none
  unwaited : s.closeWait = false → s.doneClosed s.closeDone = false ∧ ∀ w ∈ s.waiters, w.closeDone ≠ s.closeDone
  done : s.doneClosed s.closeDone = true → s.loops = []
  passed : ∀ w ∈ s.waiters, w.passed = true → w.closeDone = s.closeDone → s.loops = []
  waits : ∀ w ∈ s.waiters, w.closeDone ≤ s.closeDone
  unmade : ∀ d, s.closeDone < d → s.doneClosed d = false
  left : ∀ n, n + 1 = s.registrations → s.Left n →
    s.loops = [] ∧ (s.call = some .finishing ∨ s.closed = true ∧ s.cancel = none ∧ s.unsub = none)
  call : ∀ call, s.call = some call → s.Fits call
  parted : Parted s.sent

variable {s : Bus}

theorem sound_new (ttl : Int) : (newBus ttl).Sound where
  current := nofun
  known _ member := absurd member List.not_mem_nil
  flight _ member := absurd member List.not_mem_nil
  idle _ := rfl
  closed := nofun
  unwaited _ := ⟨rfl, fun _ member => absurd member List.not_mem_nil⟩
  done := nofun
  passed _ member := absurd member List.not_mem_nil
  waits _ member := absurd member List.not_mem_nil
  unmade _ _ := rfl
  left _ _ left := absurd left.choose_spec.2 List.not_mem_nil
  call := nofun
  parted := List.Pairwise.nil

theorem left_announced {n m : Nat} {message : PresenceMessage} {ok : Bool} (type : message.type = .announce)
    (left : (s.publish ok m message).Left n) : s.Left n := by
  cases ok with
  | false => exact left
  | true =>
      obtain ⟨other, leaves, member⟩ := left
      refine ⟨other, leaves, (List.mem_append.mp member).resolve_right fun last => ?_⟩
      cases List.mem_singleton.mp last
      rw [type] at leaves
      cases leaves

theorem parted_publish {n : Nat} {message : PresenceMessage} {ok : Bool} (parted : Parted s.sent) (still : ¬ s.Left n) :
    Parted (s.publish ok n message).sent := by
  cases ok with
  | false => exact parted
  | true =>
      refine List.pairwise_append.mpr ⟨parted, List.pairwise_singleton _ _, fun earlier member later last leaves same => ?_⟩
      cases List.mem_singleton.mp last
      change n = earlier.1 at same
      refine still ⟨earlier.2, leaves, ?_⟩
      rw [same]
      exact member

theorem known_publish {n : Nat} {message : PresenceMessage} {ok : Bool} (known : ∀ entry ∈ s.sent, entry.1 < s.registrations)
    (registered : n < s.registrations) : ∀ entry ∈ (s.publish ok n message).sent, entry.1 < s.registrations := by
  cases ok with
  | false => exact known
  | true =>
      intro entry member
      cases List.mem_append.mp member with
      | inl before => exact known entry before
      | inr last =>
          cases List.mem_singleton.mp last
          exact registered

theorem loop_sound {loops : List Loop} {sent : List (Nat × PresenceMessage)} (sound : s.Sound) (fewer : s.loops = [] → loops = [])
    (flight : ∀ loop ∈ loops, ∀ n message, loop.pc = .announcing n message → n + 1 = s.registrations ∧
      message.type = .announce)
    (known : ∀ entry ∈ sent, entry.1 < s.registrations) (parted : Parted sent)
    (left : ∀ n, (∃ message, message.type = .leave ∧ (n, message) ∈ sent) → s.Left n) :
    Sound { s with loops := loops, sent := sent } := by
  have registering {n : Nat} (before : s.Registering n) : Registering { s with loops := loops, sent := sent } n :=
    ⟨before.1, before.2.1, fun gone => before.2.2 (left n gone)⟩
  have stopping {c : Closing} (before : s.Stopping c) : Stopping { s with loops := loops, sent := sent } c :=
    ⟨before.1, before.2.1, before.2.2.1, fun n latest gone => before.2.2.2 n latest (left n gone)⟩
  refine { sound with
    known := known, flight := flight, parted := parted
    idle := fun none => fewer (sound.idle none)
    done := fun closed => fewer (sound.done closed)
    passed := fun w member passed same => fewer (sound.passed w member passed same)
    left := fun n latest gone => ?_
    call := fun call here => ?_ }
  · obtain ⟨none, rest⟩ := sound.left n latest (left n gone)
    exact ⟨fewer none, rest⟩
  · have fits := sound.call call here
    cases call with
    | subscribing n => exact ⟨registering fits.1, fewer fits.2⟩
    | installing n => exact ⟨registering fits.1, fewer fits.2⟩
    | announcing n => exact ⟨registering fits.1, fits.2⟩
    | publishing n m message => exact ⟨registering fits.1, fits.2⟩
    | launching n kind => exact ⟨registering fits.1, fits.2⟩
    | cancelling c => exact stopping fits
    | waiting c => exact stopping fits
    | departing c => exact ⟨stopping fits.1, fewer fits.2⟩
    | finishing => exact fewer fits

theorem turn_sound (sound : s.Sound) {call : Option Call} (cancelled : Nat → Bool) (fits : ∀ c, call = some c → s.Fits c)
    (opened : s.closed = false) (still : ∀ n, n + 1 = s.registrations → ¬ s.Left n) :
    Sound { s with cancelled := cancelled, call := call } :=
  { sound with
    closed := fun shut => Bool.noConfusion (opened.symm.trans shut)
    left := fun n latest gone => absurd gone (still n latest)
    call := fun c same => fits c same }

theorem opened_of_call (sound : s.Sound) {call : Call} (here : s.call = some call) : s.closed = false := by
  refine Bool.eq_false_iff.mpr fun shut => ?_
  have idle := (sound.closed shut).2
  rw [here] at idle
  cases idle

theorem still_registering {n : Nat} (registering : s.Registering n) (m : Nat) (latest : m + 1 = s.registrations) : ¬ s.Left m := by
  have same : m = n := Nat.succ.inj (latest.trans registering.1.symm)
  exact same ▸ registering.2.2

theorem launch_sound (sound : s.Sound) {n : Nat} {kind : LoopKind} (here : s.call = some (.launching n kind)) {call : Option Call}
    (next : ∀ c, call = some c → c = .launching n .eviction) :
    Sound { s with loops := s.loops ++ [⟨kind, n, .selecting⟩], call := call } := by
  obtain ⟨registering, cancels⟩ := sound.call _ here
  have still := still_registering registering
  obtain ⟨undone, others⟩ := sound.unwaited registering.2.1
  refine { sound with
    flight := fun loop member m message announcing => ?_
    idle := fun none => absurd none cancels
    closed := fun shut => absurd (sound.closed shut).1 cancels
    done := fun closed => Bool.noConfusion (undone.symm.trans closed)
    passed := fun w member _ same => absurd same (others w member)
    left := fun m latest gone => absurd gone (still m latest)
    call := fun c same => ?_ }
  · cases List.mem_append.mp member with
    | inl before => exact sound.flight loop before m message announcing
    | inr new =>
        cases List.mem_singleton.mp new
        cases announcing
  · obtain rfl := next c same
    exact ⟨registering, cancels⟩

theorem announce_some (sound : s.Sound) {n : Nat} {message : PresenceMessage} (announces : s.announce = some (n, message)) :
    n + 1 = s.registrations ∧ message.type = .announce := by
  unfold announce at announces
  split at announces
  · cases announces
  next m self here =>
    obtain ⟨_, same⟩ := Option.ite_none_left_eq_some.mp announces
    cases same
    exact ⟨sound.current _ _ here, rfl⟩

theorem proceed_sound (sound : s.Sound) {call : Call} (here : s.call = some call) (ok : Bool) {next : Bus}
    (taken : s.proceed ok call = some next) : next.Sound := by
  have opened := opened_of_call sound here
  have fits := sound.call call here
  cases call with
  | subscribing n =>
      obtain rfl := Option.some.inj taken
      have still := still_registering fits.1
      split
      · exact turn_sound sound s.cancelled (fun c same => by cases same; exact fits) opened still
      · exact turn_sound sound _ nofun opened still
  | installing n =>
      obtain rfl := Option.some.inj taken
      have still := still_registering fits.1
      exact { sound with
        idle := nofun
        closed := fun shut => Bool.noConfusion (opened.symm.trans shut)
        left := fun m latest gone => absurd gone (still m latest)
        call := fun c same => by cases same; exact ⟨fits.1, nofun⟩ }
  | announcing n =>
      obtain rfl := Option.some.inj taken
      refine turn_sound sound s.cancelled (fun c same => ?_) opened (still_registering fits.1)
      cases announces : s.announce with
      | none =>
          rw [announces] at same
          cases same
          exact fits
      | some entry =>
          obtain ⟨latest, type⟩ := announce_some sound announces
          rw [announces] at same
          cases same
          exact ⟨fits.1, fits.2, Nat.succ.inj (latest.trans fits.1.1.symm), type⟩
  | publishing n m message =>
      obtain rfl := Option.some.inj taken
      obtain ⟨registering, cancels, rfl, type⟩ := fits
      have left (k : Nat) (gone : (s.publish ok m message).Left k) : s.Left k := left_announced type gone
      have after : (s.publish ok m message).Sound :=
        loop_sound sound id sound.flight (known_publish sound.known (Nat.lt_of_succ_le (Nat.le_of_eq registering.1)))
          (parted_publish sound.parted registering.2.2) left
      refine turn_sound after s.cancelled (fun c same => ?_) opened fun k latest gone =>
        still_registering registering k latest (left k gone)
      cases same
      exact ⟨⟨registering.1, registering.2.1, fun gone => registering.2.2 (left m gone)⟩, cancels⟩
  | launching n kind =>
      cases kind with
      | heartbeat =>
          obtain rfl := Option.some.inj taken
          exact launch_sound sound here fun c same => by cases same; rfl
      | eviction =>
          obtain rfl := Option.some.inj taken
          exact launch_sound sound here nofun
  | cancelling c =>
      obtain rfl := Option.some.inj taken
      exact turn_sound sound _ (fun other same => by cases same; exact fits) opened fits.2.2.2
  | waiting c =>
      obtain ⟨closed, same⟩ := Option.ite_none_right_eq_some.mp taken
      cases same
      refine turn_sound sound s.cancelled (fun other same => ?_) opened fits.2.2.2
      cases same
      exact ⟨fits, sound.done (fits.2.1 ▸ closed)⟩
  | departing c =>
      obtain rfl := Option.some.inj taken
      obtain ⟨⟨self, _, _, still⟩, none⟩ := fits
      cases here : c.self with
      | none => exact turn_sound sound s.cancelled (fun other same => by cases same; exact none) opened still
      | some entry =>
          have latest := sound.current entry.1 entry.2 (self.symm.trans here)
          exact { sound with
            known := known_publish sound.known (Nat.lt_of_succ_le (Nat.le_of_eq latest))
            parted := parted_publish sound.parted (still entry.1 latest)
            closed := fun shut => Bool.noConfusion (opened.symm.trans shut)
            left := fun _ _ _ => ⟨none, .inl rfl⟩
            call := fun other same => by cases same; exact none }
  | finishing =>
      obtain rfl := Option.some.inj taken
      exact { sound with
        idle := fun _ => fits
        closed := fun _ => ⟨rfl, rfl⟩
        left := fun _ _ _ => ⟨fits, .inr ⟨rfl, rfl, rfl⟩⟩
        call := nofun }

theorem register_sound (sound : s.Sound) (self : Peer) {next : Bus} (accepted : s.register self = .ok next) : next.Sound := by
  unfold register at accepted
  split at accepted
  · cases accepted
  next free =>
    cases accepted
    have none : s.loops = [] := by
      apply sound.idle
      simp only [Bool.or_eq_true, Bool.and_eq_true, Bool.not_eq_true', not_or, not_and, Bool.not_eq_true] at free
      cases shut : s.closed with
      | true => exact (sound.closed shut).1
      | false => simpa using (free.2 shut).1
    have unknown (n : Nat) (latest : n + 1 = s.registrations + 1) : ¬ s.Left n := by
      rintro ⟨message, _, member⟩
      have before := sound.known _ member
      omega
    exact { sound with
      current := fun n peer same => by cases same; rfl
      known := fun entry member => Nat.lt_succ_of_lt (sound.known entry member)
      flight := fun loop member => by rw [none] at member; cases member
      closed := nofun
      unwaited := fun _ => ⟨sound.unmade _ (Nat.lt_succ_self _), fun w member =>
        Nat.ne_of_lt (Nat.lt_succ_of_le (sound.waits w member))⟩
      done := fun _ => none
      passed := fun _ _ _ _ => none
      waits := fun w member => Nat.le_succ_of_le (sound.waits w member)
      unmade := fun d above => sound.unmade d (Nat.lt_of_succ_lt above)
      left := fun n latest gone => absurd gone (unknown n latest)
      call := fun c same => by
        cases same
        exact ⟨⟨rfl, rfl, unknown _ rfl⟩, none⟩ }

theorem close_context_sound (sound : s.Sound) (free : s.call = none) : s.closeContext.Sound := by
  unfold closeContext
  split
  · exact sound
  next going =>
    have still (n : Nat) (latest : n + 1 = s.registrations) : ¬ s.Left n := by
      intro gone
      obtain ⟨none, either⟩ := sound.left n latest gone
      apply going
      rw [free] at either
      obtain ⟨shut, cancel, unsub⟩ := either.resolve_left nofun
      simp [shut, cancel, unsub, activeLoops, none]
    have waiting {w : Waiter} (member : w ∈ if s.closeWait then s.waiters else s.waiters ++ [⟨s.closeDone, false⟩]) :
        w ∈ s.waiters ∨ w = ⟨s.closeDone, false⟩ := by
      split at member
      · exact .inl member
      · exact (List.mem_append.mp member).imp_right List.mem_singleton.mp
    exact { sound with
      closed := nofun
      unwaited := nofun
      passed := fun w member passed same => by
        cases waiting member with
        | inl before => exact sound.passed w before passed same
        | inr new =>
            rw [new] at passed
            cases passed
      waits := fun w member => by
        cases waiting member with
        | inl before => exact sound.waits w before
        | inr new => exact Nat.le_of_eq (congrArg Waiter.closeDone new)
      left := fun n latest gone => absurd gone (still n latest)
      call := fun c same => by
        cases same
        exact ⟨rfl, rfl, rfl, still⟩ }

theorem expire_sound (sound : s.Sound) {call : Call} (here : s.call = some call) {next : Bus}
    (taken : s.expire call = some next) : next.Sound := by
  have opened := opened_of_call sound here
  have fits := sound.call call here
  cases call with
  | waiting c =>
      cases taken
      exact turn_sound (s := { s with closing := false }) { sound with } s.cancelled nofun opened fits.2.2.2
  | _ => cases taken

theorem tick_sound (sound : s.Sound) {i : Nat} {loop : Loop} (listed : s.loops[i]? = some loop) (now : Int) :
    (s.tick i now loop).Sound := by
  have nonempty (none : s.loops = []) (next : List Loop) : next = [] := by
    rw [none] at listed
    cases listed
  unfold tick
  split
  · exact { sound with }
  split
  next n message announces =>
    refine loop_sound sound (fun none => nonempty none _) (fun other member m text announcing => ?_) sound.known
      sound.parted fun _ => id
    cases List.mem_or_eq_of_mem_set member with
    | inl before => exact sound.flight other before m text announcing
    | inr new =>
        rw [new] at announcing
        cases announcing
        exact announce_some sound announces
  · exact sound

theorem replaced_flight (sound : s.Sound) {i : Nat} {loop : Loop} (quiet : ∀ n message, loop.pc ≠ .announcing n message) :
    ∀ other ∈ s.loops.set i loop, ∀ n message, other.pc = .announcing n message →
      n + 1 = s.registrations ∧ message.type = .announce := by
  intro other member n message announcing
  cases List.mem_or_eq_of_mem_set member with
  | inl before => exact sound.flight other before n message announcing
  | inr new => exact absurd (new ▸ announcing) (quiet n message)

theorem wait_sound (sound : s.Sound) {i d : Nat} (listed : s.waiters[i]? = some ⟨d, false⟩) (none : s.loops = []) :
    Sound { s with waiters := s.waiters.set i ⟨d, true⟩ } := by
  have place {w : Waiter} (member : w ∈ s.waiters.set i ⟨d, true⟩) :
      ∃ before ∈ s.waiters, w.closeDone = before.closeDone := by
    cases List.mem_or_eq_of_mem_set member with
    | inl before => exact ⟨w, before, rfl⟩
    | inr new => exact ⟨_, List.mem_of_getElem? listed, by rw [new]⟩
  refine { sound with
    unwaited := fun unwaited => ⟨(sound.unwaited unwaited).1, fun w member => ?_⟩
    passed := fun _ _ _ _ => none
    waits := fun w member => ?_ }
  · obtain ⟨before, member, same⟩ := place member
    rw [same]
    exact (sound.unwaited unwaited).2 before member
  · obtain ⟨before, member, same⟩ := place member
    rw [same]
    exact sound.waits before member

theorem done_sound (sound : s.Sound) {i d : Nat} (listed : s.waiters[i]? = some ⟨d, true⟩) :
    Sound { s with doneClosed := update s.doneClosed d true, waiters := s.waiters.eraseIdx i } := by
  have member := List.mem_of_getElem? listed
  have elsewhere {e : Nat} (other : e ≠ d) : update s.doneClosed d true e = s.doneClosed e := Function.update_of_ne other _ _
  refine { sound with
    unwaited := fun unwaited => ?_
    done := fun closed => ?_
    passed := fun w member => sound.passed w (List.mem_of_mem_eraseIdx member)
    waits := fun w member => sound.waits w (List.mem_of_mem_eraseIdx member)
    unmade := fun e above => ?_ }
  · obtain ⟨undone, others⟩ := sound.unwaited unwaited
    exact ⟨(elsewhere (Ne.symm (others _ member))).trans undone, fun w member => others w (List.mem_of_mem_eraseIdx member)⟩
  · by_cases same : s.closeDone = d
    · exact sound.passed _ member rfl same.symm
    · exact sound.done ((elsewhere same).symm.trans closed)
  · exact (elsewhere (Nat.ne_of_gt (Nat.lt_of_le_of_lt (sound.waits _ member) above))).trans (sound.unmade e above)

theorem handle_message_peers (s : Bus) (msg : Option PresenceMessage) (now : Int) :
    ∃ peers, s.handleMessage msg now = { s with peers := peers } := by
  unfold handleMessage
  split
  · exact ⟨s.peers, rfl⟩
  split
  · exact ⟨s.peers, rfl⟩
  split
  · split
    · exact ⟨s.peers, rfl⟩
    · exact ⟨_, rfl⟩
  · split
    · exact ⟨s.peers, rfl⟩
    · exact ⟨_, rfl⟩
  · exact ⟨s.peers, rfl⟩

theorem step_sound (action : Action) {next : Bus} (sound : s.Sound) (taken : step s action = some next) : next.Sound := by
  cases action with
  | register self =>
      obtain ⟨_, same⟩ := Option.ite_none_right_eq_some.mp taken
      split at same
      next accepted =>
        cases same
        exact register_sound sound self accepted
      · cases same
        exact sound
  | closeContext =>
      obtain ⟨free, same⟩ := Option.ite_none_right_eq_some.mp taken
      cases same
      exact close_context_sound sound (Option.isNone_iff_eq_none.mp free)
  | proceed ok =>
      obtain ⟨call, here, taken⟩ := Option.bind_eq_some_iff.mp taken
      exact proceed_sound sound here ok taken
  | expire =>
      obtain ⟨call, here, taken⟩ := Option.bind_eq_some_iff.mp taken
      exact expire_sound sound here taken
  | tick i now =>
      dsimp only [step] at taken
      split at taken
      next listed =>
        cases taken
        exact tick_sound sound listed now
      · cases taken
  | published i ok =>
      dsimp only [step] at taken
      split at taken
      next kind ctx n message listed =>
        cases taken
        have member := List.mem_of_getElem? listed
        obtain ⟨latest, type⟩ := sound.flight _ member n message rfl
        have still : ¬ s.Left n := fun gone => by
          rw [(sound.left n latest gone).1] at member
          cases member
        have quiet (m : Nat) (text : PresenceMessage) : (⟨kind, ctx, .selecting⟩ : Loop).pc ≠ .announcing m text := nofun
        have after : Sound { s with loops := s.loops.set i ⟨kind, ctx, .selecting⟩, sent := (s.publish ok n message).sent } :=
          loop_sound sound (fun none => by rw [none, List.set_nil]) (replaced_flight sound quiet)
            (known_publish sound.known (Nat.lt_of_succ_le (Nat.le_of_eq latest))) (parted_publish sound.parted still)
            fun m gone => left_announced type gone
        exact after
      · cases taken
  | exit i =>
      dsimp only [step] at taken
      split at taken
      next listed =>
        obtain ⟨_, same⟩ := Option.ite_none_right_eq_some.mp taken
        cases same
        refine loop_sound sound (fun none => ?_) (replaced_flight sound nofun) sound.known sound.parted fun _ => id
        rw [none, List.set_nil]
      next listed =>
        cases taken
        refine loop_sound sound (fun none => ?_) (fun other member => sound.flight other (List.mem_of_mem_eraseIdx member))
          sound.known sound.parted fun _ => id
        rw [none, List.eraseIdx_nil]
      · cases taken
  | waited i =>
      dsimp only [step] at taken
      split at taken
      next d listed =>
        obtain ⟨none, same⟩ := Option.ite_none_right_eq_some.mp taken
        cases same
        exact wait_sound sound listed none
      next d listed =>
        cases taken
        exact done_sound sound listed
      · cases taken
  | receive msg now =>
      cases taken
      obtain ⟨peers, same⟩ := handle_message_peers s msg now
      rw [same]
      exact { sound with }

theorem silent_after_leave (ttl : Int) (reached : Reachable step (newBus ttl) s) (n : Nat) :
    (∀ before after message, s.sent = before ++ (n, message) :: after → message.type = .leave →
      ∀ later ∈ after, later.1 ≠ n) ∧
      (s.sent.filter fun entry => entry.1 = n ∧ entry.2.type = .leave).length ≤ 1 := by
  have parted := (reachable_invariant (fun _ action _ sound taken => step_sound action sound taken) (sound_new ttl) reached).parted
  constructor
  · intro before after message split leave later member
    rw [Parted, split, List.pairwise_append] at parted
    exact (List.pairwise_cons.mp parted.2.1).1 later member leave
  · have alone := List.Pairwise.filter (fun entry => decide (entry.1 = n ∧ entry.2.type = .leave)) parted
    have leaves {entry : Nat × PresenceMessage}
        (member : entry ∈ s.sent.filter fun entry => entry.1 = n ∧ entry.2.type = .leave) : entry.1 = n ∧ entry.2.type = .leave :=
      of_decide_eq_true (List.mem_filter.mp member).2
    generalize (s.sent.filter fun entry => entry.1 = n ∧ entry.2.type = .leave) = found at alone leaves
    cases found with
    | nil => exact Nat.zero_le 1
    | cons first rest => cases rest with
        | nil => exact Nat.le_refl 1
        | cons second rest =>
            have one := leaves List.mem_cons_self
            have two := leaves (List.mem_cons_of_mem first List.mem_cons_self)
            exact absurd (two.1.trans one.1.symm) ((List.pairwise_cons.mp alone).1 second List.mem_cons_self one.2)

-- A heartbeat is about to announce when the registration is closed. The first Close gives up waiting for it, the second
-- publishes the leave message, and the third finds the registration closed.
def closedThrice : List Action :=
  [.register ⟨lit "kit-1", lit "ns", []⟩, .proceed true, .proceed true, .proceed true, .proceed true, .proceed true,
    .proceed true, .tick 0 1, .closeContext, .proceed true, .expire, .closeContext, .published 0 true, .proceed true, .exit 0,
    .exit 0, .exit 0, .exit 0, .waited 0, .waited 0, .proceed true, .proceed true, .proceed true, .closeContext]

theorem closed_thrice_silent : ∃ s, run step (newBus 0) closedThrice = some s ∧
    s.sent.map (fun entry => (entry.1, entry.2.type)) = [(0, .announce), (0, .announce), (0, .leave)] ∧ s.call = none ∧
    (s.sent.filter fun entry => entry.1 = 0 ∧ entry.2.type = .leave).length ≤ 1 := by
  refine ⟨_, rfl, ?_, rfl, (silent_after_leave 0 ⟨closedThrice, rfl⟩ 0).2⟩
  decide

theorem loops_accounted (ttl : Int) (reached : Reachable step (newBus ttl) s) :
    (s.cancel = none → s.loops = []) ∧ (s.closed = true → s.loops = [] ∧ s.call = none) ∧
      (s.doneClosed s.closeDone = true → s.loops = []) ∧ ∀ d, s.doneClosed d = true → d ≤ s.closeDone := by
  have sound := reachable_invariant (fun _ action _ sound taken => step_sound action sound taken) (sound_new ttl) reached
  refine ⟨sound.idle, fun closed => ⟨sound.idle (sound.closed closed).1, (sound.closed closed).2⟩, sound.done,
    fun d closed => ?_⟩
  by_contra later
  exact Bool.false_ne_true ((sound.unmade d (Nat.lt_of_not_le later)).symm.trans closed)

theorem closed_thrice_loops : ∃ s, run step (newBus 0) closedThrice = some s ∧ s.loops = [] :=
  ⟨_, rfl, ((loops_accounted 0 ⟨closedThrice, rfl⟩).2.1 rfl).1⟩

end Brainkit.Discovery.Bus
