import Brainkit.Library.Headcount
import Brainkit.Sdk.ToolDispatcher

set_option autoImplicit false

namespace Brainkit.Sdk.Plugin

open GoText Transition
open Function (update)
open Headcount (Counts counts_enter counts_leave)
open Brainkit.Modules (Table lookup_erase_sub)

namespace CallPc

def pending : CallPc → Bool
  | waiting => true
  | holding => true
  | pc => pc.entered

def started : CallPc → Bool
  | unborn => false
  | unknown => false
  | waiting => false
  | holding => false
  | _ => true

def closed : CallPc → Bool
  | cancelled => true
  | released => true
  | done => true
  | _ => false

theorem pending_of_entered {pc : CallPc} (entered : pc.entered = true) : pc.pending = true := by
  cases pc <;> first | rfl | cases entered

end CallPc

namespace Dispatcher

structure Valid (s : Dispatcher) : Prop where
  fresh : ∀ n, s.calls ≤ n → s.pcs n = .unborn
  born : ∀ n, n < s.calls → s.pcs n ≠ .unborn
  used : Counts (fun n => (s.pcs n).holdsSlot) s.used
  wg : Counts (fun n => (s.pcs n).counted) s.wg
  answers : ∀ n, (s.answers n).length = if (s.pcs n).answered then 1 else 0
  named : ∀ frame ∈ s.frames, frame.call < s.calls ∧ frame.id = s.ids frame.call
  acquiring : ∀ n, s.pcs n = .waiting ↔ s.loop = .acquiring n
  registering : ∀ n, s.pcs n = .holding ↔ s.loop = .registering n
  entry : ∀ n, (s.pcs n).entered = true → s.contextDone n = true ∨ s.cancels.lookup (s.ids n) = some n
  closed : ∀ n, (s.pcs n).closed = true → s.contextDone n = true
  unique : ∀ n m, (s.pcs n).pending = true → (s.pcs m).pending = true → s.ids n = s.ids m → n = m
  asked : ∀ n, s.asked n = true → n < s.calls ∧ (s.pcs n = .unknown ∨ s.contextDone n = true ∨ s.pcs n = .deleted)
  unblocked : ∀ n, s.loop = .acquiring n → s.used < maxConcurrency
  undelayed : ∀ n, s.loop ≠ .delivering (some n)
  complete : s.returned = true → s.loop = .returned ∧ ∀ n, (s.pcs n).counted = false

theorem valid_new : new.Valid where
  fresh _ _ := rfl
  born _ below := absurd below (Nat.not_lt_zero _)
  used := Headcount.counts_nobody
  wg := Headcount.counts_nobody
  answers _ := rfl
  named _ member := nomatch member
  acquiring _ := iff_of_false nofun nofun
  registering _ := iff_of_false nofun nofun
  entry _ entered := nomatch entered
  closed _ closed := nomatch closed
  unique _ _ pending := nomatch pending
  asked _ asked := nomatch asked
  unblocked _ acquiring := nomatch acquiring
  undelayed _ := nofun
  complete back := nomatch back

theorem counts_update {f : CallPc → Bool} {pcs : Nat → CallPc} {count : Nat} (n : Nat) (pc : CallPc)
    (counts : Counts (update (fun k => f (pcs k)) n (f pc)) count) : Counts (fun k => f (update pcs n pc k)) count := by
  have same : (fun k => f (update pcs n pc k)) = update (fun k => f (pcs k)) n (f pc) := by
    funext k
    exact Function.apply_update (fun _ => f) pcs n pc k
  rwa [same]

theorem counts_same {f : CallPc → Bool} {pcs : Nat → CallPc} {count n : Nat} {pc : CallPc}
    (counts : Counts (fun k => f (pcs k)) count) (same : f pc = f (pcs n)) : Counts (fun k => f (update pcs n pc k)) count := by
  refine counts_update n pc ?_
  rwa [same, Function.update_eq_self n fun k => f (pcs k)]

variable {s next : Dispatcher}

theorem answers_kept (valid : s.Valid) {n : Nat} {pc : CallPc} (same : pc.answered = (s.pcs n).answered) :
    ∀ k, (s.answers k).length = if (update s.pcs n pc k).answered then 1 else 0 := by
  refine (Function.forall_update_iff s.pcs fun k pc => (s.answers k).length = if pc.answered then 1 else 0).mpr
    ⟨?_, fun k _ => valid.answers k⟩
  rw [same]
  exact valid.answers n

theorem entry_kept (valid : s.Valid) {n : Nat} {pc : CallPc} {contextDone : Nat → Bool}
    (grows : ∀ k, s.contextDone k = true → contextDone k = true) (entered : pc.entered = true → (s.pcs n).entered = true) :
    ∀ k, (update s.pcs n pc k).entered = true → contextDone k = true ∨ s.cancels.lookup (s.ids k) = some k :=
  (Function.forall_update_iff s.pcs fun k pc =>
    pc.entered = true → contextDone k = true ∨ s.cancels.lookup (s.ids k) = some k).mpr
    ⟨fun mine => (valid.entry n (entered mine)).imp_left (grows n), fun k _ here => (valid.entry k here).imp_left (grows k)⟩

theorem answers_posted (frames : List ResultFrame) (frame : ResultFrame) (k : Nat) :
    ((frames ++ [frame]).filter fun frame => frame.call = k).length =
      (frames.filter fun frame => frame.call = k).length + if frame.call = k then 1 else 0 := by
  rw [List.filter_append, List.length_append]
  by_cases mine : frame.call = k <;> simp [mine]

theorem answers_written (valid : s.Valid) {n : Nat} {pc : CallPc} {frame : ResultFrame} (call : frame.call = n)
    (silent : (s.pcs n).answered = false) (answered : pc.answered = true) (k : Nat) :
    ((s.frames ++ [frame]).filter fun frame => frame.call = k).length = if (update s.pcs n pc k).answered then 1 else 0 := by
  have before : (s.frames.filter fun frame => frame.call = k).length = if (s.pcs k).answered then 1 else 0 := valid.answers k
  rw [answers_posted, call, before]
  by_cases same : k = n
  · rw [same, Function.update_self, silent, answered, if_pos rfl]
    rfl
  · rw [Function.update_of_ne same, if_neg (Ne.symm same), Nat.add_zero]

theorem moved_valid (valid : s.Valid) {n : Nat} {pc : CallPc} {cancels : Table Nat} {contextDone : Nat → Bool} {used wg : Nat}
    {frames : List ResultFrame} (source : (s.pcs n).started = true) (counted : (s.pcs n).counted = true) (target : pc.started = true)
    (slots : Counts (fun k => (update s.pcs n pc k).holdsSlot) used) (fewer : used ≤ s.used)
    (members : Counts (fun k => (update s.pcs n pc k).counted) wg)
    (answers : ∀ k, (frames.filter fun frame => frame.call = k).length = if (update s.pcs n pc k).answered then 1 else 0)
    (named : ∀ frame ∈ frames, frame.call < s.calls ∧ frame.id = s.ids frame.call)
    (entry : ∀ k, (update s.pcs n pc k).entered = true → contextDone k = true ∨ cancels.lookup (s.ids k) = some k)
    (grows : ∀ k, s.contextDone k = true → contextDone k = true) (closed : pc.closed = true → contextDone n = true)
    (pending : pc.pending = true → (s.pcs n).pending = true)
    (asked : s.asked n = true → contextDone n = true ∨ pc = .deleted) :
    ({ s with pcs := update s.pcs n pc, cancels := cancels, contextDone := contextDone, used := used, wg := wg, frames := frames } :
      Dispatcher).Valid := by
  have at' {motive : Nat → CallPc → Prop} (here : motive n pc) (others : ∀ k, k ≠ n → motive k (s.pcs k)) :
      ∀ k, motive k (update s.pcs n pc k) := (Function.forall_update_iff s.pcs motive).mpr ⟨here, others⟩
  have below : n < s.calls := Nat.lt_of_not_le fun above => by
    rw [valid.fresh n above] at source
    cases source
  have apart {a : CallPc} (idle : a.started = false) (here : pc = a) : False := by
    rw [here, idle] at target
    cases target
  have was {a : CallPc} (idle : a.started = false) (here : s.pcs n = a) : False := by
    rw [here, idle] at source
    cases source
  refine { valid with
    fresh := fun k above => at' (motive := fun k pc => s.calls ≤ k → pc = .unborn) ?_ ?_ k above
    born := ?_, used := slots, wg := members, answers := answers, named := named, acquiring := ?_, registering := ?_, entry := entry,
    closed := ?_, unique := ?_, asked := ?_, unblocked := ?_, complete := ?_ }
  · exact fun above => absurd below (Nat.not_lt.mpr above)
  · exact fun k _ => valid.fresh k
  · exact at' (motive := fun k pc => k < s.calls → pc ≠ .unborn) (fun _ => apart rfl) fun k _ => valid.born k
  · exact at' (motive := fun k pc => pc = .waiting ↔ s.loop = .acquiring k)
      (iff_of_false (apart rfl) fun here => was rfl ((valid.acquiring n).mpr here)) fun k _ => valid.acquiring k
  · exact at' (motive := fun k pc => pc = .holding ↔ s.loop = .registering k)
      (iff_of_false (apart rfl) fun here => was rfl ((valid.registering n).mpr here)) fun k _ => valid.registering k
  · exact at' (motive := fun k pc => pc.closed = true → contextDone k = true) closed fun k _ done => grows k (valid.closed k done)
  · have kept : ∀ k, (update s.pcs n pc k).pending = true → (s.pcs k).pending = true :=
      at' (motive := fun k pc => pc.pending = true → (s.pcs k).pending = true) pending fun k _ => id
    exact fun k m first second same => valid.unique k m (kept k first) (kept m second) same
  · intro k sent
    have there := valid.asked k sent
    refine ⟨there.1, ?_⟩
    revert sent there
    refine at' (motive := fun k pc => s.asked k = true →
      k < s.calls ∧ (s.pcs k = .unknown ∨ s.contextDone k = true ∨ s.pcs k = .deleted) →
        pc = .unknown ∨ contextDone k = true ∨ pc = .deleted)
      (fun sent _ => .inr (asked sent)) (fun k _ _ there => there.2.imp_right (Or.imp_left (grows k))) k
  · exact fun k acquiring => Nat.lt_of_le_of_lt fewer (valid.unblocked k acquiring)
  · intro back
    have idle := (valid.complete back).2 n
    rw [counted] at idle
    cases idle

theorem reading_apart (valid : s.Valid) (reading : s.loop = .reading) (n : Nat) : s.pcs n ≠ .waiting ∧ s.pcs n ≠ .holding := by
  constructor
  · intro here
    cases reading.symm.trans ((valid.acquiring n).mp here)
  · intro here
    cases reading.symm.trans ((valid.registering n).mp here)

theorem pending_entered (valid : s.Valid) (reading : s.loop = .reading) {n : Nat} (pending : (s.pcs n).pending = true) :
    (s.pcs n).entered = true := by
  obtain ⟨away, free⟩ := reading_apart valid reading n
  cases here : s.pcs n with
  | waiting => exact absurd here away
  | holding => exact absurd here free
  | _ =>
      rw [here] at pending
      exact pending

theorem loop_call (valid : s.Valid) {n k : Nat} (mine : s.pcs n = .waiting ∨ s.pcs n = .holding)
    (other : s.pcs k = .waiting ∨ s.pcs k = .holding) : k = n := by
  rw [valid.acquiring, valid.registering] at mine other
  rcases mine with mine | mine <;> rcases other with other | other <;> cases mine.symm.trans other <;> rfl

theorem led_valid (valid : s.Valid) {n : Nat} {pc : CallPc} {loop : ReadLoop} {cancels : Table Nat} {used : Nat}
    (source : s.pcs n = .waiting ∨ s.pcs n = .holding)
    (target : pc = .holding ∧ loop = .registering n ∨ pc = .handling ∧ loop = .reading)
    (slots : Counts (fun k => (update s.pcs n pc k).holdsSlot) used)
    (entry : ∀ k, (update s.pcs n pc k).entered = true → s.contextDone k = true ∨ cancels.lookup (s.ids k) = some k) :
    ({ s with loop := loop, used := used, cancels := cancels, pcs := update s.pcs n pc } : Dispatcher).Valid := by
  have all {motive : Nat → CallPc → Prop} (mine : motive n pc) (others : ∀ k, k ≠ n → motive k (s.pcs k)) :
      ∀ k, motive k (update s.pcs n pc k) := (Function.forall_update_iff s.pcs motive).mpr ⟨mine, others⟩
  have before : s.pcs n ≠ .unborn ∧ (s.pcs n).counted = true ∧ (s.pcs n).answered = false ∧ (s.pcs n).pending = true := by
    rcases source with here | here <;> simp [here, CallPc.counted, CallPc.holdsSlot, CallPc.answered, CallPc.pending]
  have after : pc ≠ .unborn ∧ pc ≠ .waiting ∧ pc.counted = true ∧ pc.answered = false ∧ pc.closed = false := by
    rcases target with ⟨rfl, -⟩ | ⟨rfl, -⟩ <;> simp [CallPc.counted, CallPc.holdsSlot, CallPc.answered, CallPc.closed]
  obtain ⟨exists', member, silent, pending⟩ := before
  obtain ⟨born, away, counted, unanswered, unclosed⟩ := after
  refine { valid with
    fresh := ?_, born := ?_, used := slots, wg := counts_same valid.wg (counted.trans member.symm),
    answers := answers_kept valid (unanswered.trans silent.symm), acquiring := ?_, registering := ?_, entry := entry,
    closed := ?_, unique := ?_, asked := ?_, unblocked := ?_, undelayed := ?_, complete := ?_ }
  · exact all (motive := fun k pc => s.calls ≤ k → pc = .unborn) (fun above => absurd (valid.fresh n above) exists')
      fun k _ => valid.fresh k
  · exact all (motive := fun k pc => k < s.calls → pc ≠ .unborn) (fun _ => born) fun k _ => valid.born k
  · have quiet : ∀ k, loop ≠ .acquiring k := by
      rcases target with ⟨-, rfl⟩ | ⟨-, rfl⟩ <;> nofun
    exact all (motive := fun k pc => pc = .waiting ↔ loop = .acquiring k) (iff_of_false away (quiet n))
      fun k other => iff_of_false (fun here => other (loop_call valid source (.inl here))) (quiet k)
  · refine all (motive := fun k pc => pc = .holding ↔ loop = .registering k) ?_
      fun k other => iff_of_false (fun here => other (loop_call valid source (.inr here))) ?_
    · rcases target with ⟨rfl, rfl⟩ | ⟨rfl, rfl⟩
      · exact iff_of_true rfl rfl
      · exact iff_of_false nofun nofun
    · rcases target with ⟨-, rfl⟩ | ⟨-, rfl⟩
      · exact fun same => other (ReadLoop.registering.inj same).symm
      · exact nofun
  · refine all (motive := fun k pc => pc.closed = true → s.contextDone k = true) (fun shut => ?_) fun k _ => valid.closed k
    cases unclosed.symm.trans shut
  · have kept : ∀ k, (update s.pcs n pc k).pending = true → (s.pcs k).pending = true :=
      all (motive := fun k pc => pc.pending = true → (s.pcs k).pending = true) (fun _ => pending) fun k _ => id
    exact fun k m first second same => valid.unique k m (kept k first) (kept m second) same
  · refine all (motive := fun k pc => s.asked k = true → k < s.calls ∧
      (pc = .unknown ∨ s.contextDone k = true ∨ pc = .deleted))
      (fun sent => ?_) fun k _ => valid.asked k
    obtain ⟨below, cancelled⟩ := valid.asked n sent
    rcases source with here | here <;> exact ⟨below, .inr (.inl (by simpa [here] using cancelled))⟩
  · rcases target with ⟨-, rfl⟩ | ⟨-, rfl⟩ <;> nofun
  · rcases target with ⟨-, rfl⟩ | ⟨-, rfl⟩ <;> exact fun _ => nofun
  · intro back
    cases member.symm.trans ((valid.complete back).2 n)

theorem acquire_valid (valid : s.Valid) {n : Nat} (acquiring : s.loop = .acquiring n) :
    ({ s with loop := .registering n, used := s.used + 1, pcs := update s.pcs n .holding } : Dispatcher).Valid := by
  have here : s.pcs n = .waiting := (valid.acquiring n).mpr acquiring
  refine led_valid valid (.inl here) (.inl ⟨rfl, rfl⟩) (counts_update n .holding (counts_enter valid.used n ?_))
    (entry_kept valid (fun _ => id) nofun)
  rw [here]
  rfl

theorem register_valid (valid : s.Valid) {n : Nat} (registering : s.loop = .registering n) : (s.register n).Valid := by
  have here : s.pcs n = .holding := (valid.registering n).mpr registering
  refine led_valid valid (.inr here) (.inr ⟨rfl, rfl⟩) (counts_same valid.used ?_) ?_
  · rw [here]
    rfl
  · refine (Function.forall_update_iff s.pcs fun k pc =>
      pc.entered = true → s.contextDone k = true ∨ (s.cancels.insert (s.ids n) n).lookup (s.ids k) = some k).mpr
      ⟨fun _ => .inr (AList.lookup_insert s.cancels), fun k other entered => ?_⟩
    have apart : s.ids k ≠ s.ids n := fun same =>
      other (valid.unique k n (CallPc.pending_of_entered entered) (by rw [here]; rfl) same)
    rw [AList.lookup_insert_ne apart]
    exact valid.entry k entered

theorem arrived_valid (valid : s.Valid) (reading : s.loop = .reading) {id : GoString} {pc : CallPc} {loop : ReadLoop} {wg : Nat}
    {frames : List ResultFrame} (target : pc = .waiting ∧ loop = .acquiring s.calls ∨ pc = .unknown ∧ loop = .reading)
    (members : Counts (fun k => (update s.pcs s.calls pc k).counted) wg)
    (answers : ∀ k, (frames.filter fun frame => frame.call = k).length = if (update s.pcs s.calls pc k).answered then 1 else 0)
    (named : ∀ frame ∈ frames, frame.call < s.calls + 1 ∧ frame.id = update s.ids s.calls id frame.call)
    (free : pc = .waiting → s.used < maxConcurrency)
    (alone : pc = .waiting → ∀ k, k < s.calls → s.ids k = id → (s.pcs k).entered = false) :
    ({ s with
      loop := loop, wg := wg, calls := s.calls + 1, ids := update s.ids s.calls id, pcs := update s.pcs s.calls pc, frames := frames } :
      Dispatcher).Valid := by
  have all {motive : Nat → CallPc → Prop} (mine : motive s.calls pc) (others : ∀ k, k ≠ s.calls → motive k (s.pcs k)) :
      ∀ k, motive k (update s.pcs s.calls pc k) := (Function.forall_update_iff s.pcs motive).mpr ⟨mine, others⟩
  have here : s.pcs s.calls = .unborn := valid.fresh s.calls (Nat.le_refl _)
  have old : ∀ k, (s.pcs k).pending = true → k < s.calls := fun k pending => Nat.lt_of_not_le fun above => by
    rw [valid.fresh k above] at pending
    cases pending
  have other : ∀ {k}, k < s.calls → k ≠ s.calls := fun below => Nat.ne_of_lt below
  refine { valid with
    fresh := ?_, born := ?_, used := counts_same valid.used ?_, wg := members, answers := answers, named := named, acquiring := ?_,
    registering := ?_, entry := ?_, closed := ?_, unique := ?_, asked := ?_, unblocked := ?_, undelayed := ?_, complete := ?_ }
  · exact all (motive := fun k pc => s.calls + 1 ≤ k → pc = .unborn) (fun above => absurd above (Nat.not_succ_le_self _))
      fun k _ above => valid.fresh k (Nat.le_of_succ_le above)
  · refine all (motive := fun k pc => k < s.calls + 1 → pc ≠ .unborn) (fun _ => ?_)
      fun k apart below => valid.born k (Nat.lt_of_le_of_ne (Nat.le_of_lt_succ below) apart)
    rcases target with ⟨rfl, -⟩ | ⟨rfl, -⟩ <;> nofun
  · rw [here]
    rcases target with ⟨rfl, -⟩ | ⟨rfl, -⟩ <;> rfl
  · refine all (motive := fun k pc => pc = .waiting ↔ loop = .acquiring k) ?_
      fun k apart => iff_of_false (reading_apart valid reading k).1 ?_
    · rcases target with ⟨rfl, rfl⟩ | ⟨rfl, rfl⟩
      · exact iff_of_true rfl rfl
      · exact iff_of_false nofun nofun
    · rcases target with ⟨-, rfl⟩ | ⟨-, rfl⟩
      · exact fun same => apart (ReadLoop.acquiring.inj same).symm
      · exact nofun
  · refine all (motive := fun k pc => pc = .holding ↔ loop = .registering k) ?_
      fun k _ => iff_of_false (reading_apart valid reading k).2 ?_
    · rcases target with ⟨rfl, rfl⟩ | ⟨rfl, rfl⟩ <;> exact iff_of_false nofun nofun
    · rcases target with ⟨-, rfl⟩ | ⟨-, rfl⟩ <;> nofun
  · refine all (motive := fun k pc =>
      pc.entered = true → s.contextDone k = true ∨ s.cancels.lookup (update s.ids s.calls id k) = some k) ?_ fun k apart => ?_
    · rcases target with ⟨rfl, -⟩ | ⟨rfl, -⟩ <;> nofun
    · rw [Function.update_of_ne apart]
      exact valid.entry k
  · refine all (motive := fun k pc => pc.closed = true → s.contextDone k = true) ?_ fun k _ => valid.closed k
    rcases target with ⟨rfl, -⟩ | ⟨rfl, -⟩ <;> nofun
  · -- The new call shares its id with no pending call; two earlier ones have kept their ids.
    have waits : pc.pending = true → pc = .waiting := by
      rcases target with ⟨rfl, -⟩ | ⟨rfl, -⟩ <;> simp [CallPc.pending, CallPc.entered]
    have apart : pc.pending = true → ∀ k, (s.pcs k).pending = true → s.ids k ≠ id := by
      intro mine k pending same
      cases (alone (waits mine) k (old k pending) same).symm.trans (pending_entered valid reading pending)
    intro n m (first : (update s.pcs s.calls pc n).pending = true) (second : (update s.pcs s.calls pc m).pending = true)
      (same : update s.ids s.calls id n = update s.ids s.calls id m)
    by_cases newFirst : n = s.calls <;> by_cases newSecond : m = s.calls
    · rw [newFirst, newSecond]
    · rw [newFirst, Function.update_self] at first
      rw [Function.update_of_ne newSecond] at second
      rw [newFirst, Function.update_self, Function.update_of_ne newSecond] at same
      exact absurd same.symm (apart first m second)
    · rw [newSecond, Function.update_self] at second
      rw [Function.update_of_ne newFirst] at first
      rw [newSecond, Function.update_self, Function.update_of_ne newFirst] at same
      exact absurd same (apart second n first)
    · rw [Function.update_of_ne newFirst] at first
      rw [Function.update_of_ne newSecond] at second
      rw [Function.update_of_ne newFirst, Function.update_of_ne newSecond] at same
      exact valid.unique n m first second same
  · intro k sent
    obtain ⟨below, cancelled⟩ := valid.asked k sent
    refine ⟨Nat.lt_succ_of_lt below, ?_⟩
    change update s.pcs s.calls pc k = .unknown ∨ _ ∨ update s.pcs s.calls pc k = .deleted
    rwa [Function.update_of_ne (other below)]
  · intro k acquiring
    rcases target with ⟨rfl, rfl⟩ | ⟨rfl, rfl⟩
    · exact free rfl
    · cases acquiring
  · rcases target with ⟨-, rfl⟩ | ⟨-, rfl⟩ <;> exact fun _ => nofun
  · intro back
    cases reading.symm.trans (valid.complete back).1

theorem toolCall_valid (valid : s.Valid) (reading : s.loop = .reading) {known : Bool} {id tool : GoString}
    (roomy : known = true → s.used < maxConcurrency ∧ ∀ k, k < s.calls → s.ids k = id → (s.pcs k).entered = false) :
    (s.toolCall known id tool).Valid := by
  have here : s.pcs s.calls = .unborn := valid.fresh s.calls (Nat.le_refl _)
  have kept : ∀ frame ∈ s.frames, frame.call < s.calls + 1 ∧ frame.id = update s.ids s.calls id frame.call := by
    intro frame member
    obtain ⟨below, same⟩ := valid.named frame member
    rw [Function.update_of_ne (Nat.ne_of_lt below)]
    exact ⟨Nat.lt_succ_of_lt below, same⟩
  cases known with
  | true =>
      obtain ⟨free, alone⟩ := roomy rfl
      refine arrived_valid valid reading (.inl ⟨rfl, rfl⟩) (counts_update s.calls .waiting (counts_enter valid.wg s.calls ?_))
        (answers_kept valid ?_) kept (fun _ => free) fun _ => alone
      · rw [here]
        rfl
      · rw [here]
        rfl
  | false =>
      refine arrived_valid valid reading (.inr ⟨rfl, reading⟩) (counts_same valid.wg ?_) (answers_written valid rfl ?_ rfl) ?_ nofun
        nofun
      · rw [here]
        rfl
      · rw [here]
        rfl
      · intro frame member
        rcases List.mem_append.mp member with earlier | last
        · exact kept frame earlier
        · rw [List.mem_singleton.mp last, Function.update_self]
          exact ⟨Nat.lt_succ_self _, rfl⟩

-- The loop is between two frames, so a call that has come is in the table, past its entry or not one of the plugin's tools.
theorem cancel_valid (valid : s.Valid) (reading : s.loop = .reading) {id : GoString} : (s.cancel id).Valid := by
  have grows : ∀ n, s.contextDone n = true → (s.cancel id).contextDone n = true := by
    intro n done
    cases found : s.cancels.lookup id with
    | none => simpa only [cancel, found] using done
    | some call =>
        simp only [cancel, found]
        by_cases same : n = call
        · rw [same, Function.update_self]
        · rwa [Function.update_of_ne same]
  have entry : ∀ n, (s.pcs n).entered = true →
      (s.cancel id).contextDone n = true ∨ s.ids n ≠ id ∧ s.cancels.lookup (s.ids n) = some n := by
    intro n entered
    rcases valid.entry n entered with done | listed
    · exact .inl (grows n done)
    · by_cases same : s.ids n = id
      · left
        rw [same] at listed
        dsimp only [cancel]
        rw [listed]
        exact Function.update_self n true s.contextDone
      · exact .inr ⟨same, listed⟩
  refine { valid with entry := fun n entered => ?_, closed := fun n shut => grows n (valid.closed n shut), asked := fun n sent => ?_ }
  · refine (entry n entered).imp_right fun listed => ?_
    change (s.cancels.erase id).lookup (s.ids n) = some n
    rw [AList.lookup_erase_ne listed.1]
    exact listed.2
  · rcases Bool.or_eq_true_iff.mp sent with before | just
    · exact (valid.asked n before).imp_right (Or.imp_right (Or.imp_left (grows n)))
    · obtain ⟨below, same⟩ := of_decide_eq_true just
      refine ⟨below, ?_⟩
      change s.pcs n = .unknown ∨ (s.cancel id).contextDone n = true ∨ s.pcs n = .deleted
      have found : (s.pcs n).entered = true → (s.cancel id).contextDone n = true :=
        fun entered => (entry n entered).resolve_right fun listed => listed.1 same
      have shut : (s.pcs n).closed = true → (s.cancel id).contextDone n = true := fun closed => grows n (valid.closed n closed)
      obtain ⟨away, free⟩ := reading_apart valid reading n
      cases here : s.pcs n with
      | unborn => exact absurd here (valid.born n below)
      | waiting => exact absurd here away
      | holding => exact absurd here free
      | unknown => exact .inl rfl
      | deleted => exact .inr (.inr rfl)
      | handling => exact .inr (.inl (found (by rw [here]; rfl)))
      | answering _ => exact .inr (.inl (found (by rw [here]; rfl)))
      | written => exact .inr (.inl (found (by rw [here]; rfl)))
      | cancelled => exact .inr (.inl (shut (by rw [here]; rfl)))
      | released => exact .inr (.inl (shut (by rw [here]; rfl)))
      | done => exact .inr (.inl (shut (by rw [here]; rfl)))

-- A loop that is not at a call goes on without one.
theorem loop_valid (valid : s.Valid) (before : ∀ n, s.loop ≠ .acquiring n ∧ s.loop ≠ .registering n)
    (running : s.loop ≠ .returned)
    {loop : ReadLoop} (after : ∀ n, loop ≠ .acquiring n ∧ loop ≠ .registering n)
    (undelayed : ∀ n, loop ≠ .delivering (some n)) :
    ({ s with loop := loop } : Dispatcher).Valid :=
  { valid with
    acquiring := fun n => iff_of_false (fun waits => (before n).1 ((valid.acquiring n).mp waits)) (after n).1
    registering := fun n => iff_of_false (fun holds => (before n).2 ((valid.registering n).mp holds)) (after n).2
    unblocked := fun n acquiring => absurd acquiring (after n).1
    undelayed := undelayed
    complete := fun back => absurd (valid.complete back).1 running }

theorem between_valid (valid : s.Valid) (reading : s.loop = .reading) {loop : ReadLoop}
    (after : ∀ n, loop ≠ .acquiring n ∧ loop ≠ .registering n) (undelayed : ∀ n, loop ≠ .delivering (some n)) :
    ({ s with loop := loop } : Dispatcher).Valid :=
  loop_valid valid (fun _ => by rw [reading]; exact ⟨nofun, nofun⟩) (by rw [reading]; exact nofun) after undelayed

theorem read_valid {tools : GoString → Bool} {frame : Frame} (valid : s.Valid) (reading : s.loop = .reading)
    (roomy : Roomy tools s (.read frame)) : (s.read tools frame).Valid := by
  cases frame with
  | toolCall id tool => exact toolCall_valid valid reading roomy
  | event topic => exact between_valid valid reading (fun _ => ⟨nofun, nofun⟩) fun _ => nofun
  | subscribeAck id => exact valid
  | cancel id => exact cancel_valid valid reading
  | shutdown => exact between_valid valid reading (fun _ => ⟨nofun, nofun⟩) fun _ => nofun

theorem handlerReturns_valid (valid : s.Valid) {n : Nat} {result : ToolResult} (here : s.pcs n = .handling) :
    ({ s with pcs := update s.pcs n (.answering result) } : Dispatcher).Valid := by
  have entered : (s.pcs n).entered = true := by
    rw [here]
    rfl
  refine moved_valid valid (by rw [here]; rfl) (by rw [here]; rfl) rfl (counts_same valid.used (by rw [here]; rfl)) (Nat.le_refl _)
    (counts_same valid.wg (by rw [here]; rfl)) (answers_kept valid (by rw [here]; rfl)) valid.named
    (entry_kept valid (fun _ => id) fun _ => entered) (fun _ => id) nofun (fun _ => CallPc.pending_of_entered entered) ?_
  intro sent
  obtain ⟨-, cancelled⟩ := valid.asked n sent
  exact .inl (by simpa [here] using cancelled)

theorem write_valid (valid : s.Valid) {n : Nat} {result : ToolResult} (here : s.pcs n = .answering result) :
    (s.write n result).Valid := by
  have entered : (s.pcs n).entered = true := by
    rw [here]
    rfl
  have below : n < s.calls := Nat.lt_of_not_le fun above => by
    rw [valid.fresh n above] at here
    cases here
  refine moved_valid valid (by rw [here]; rfl) (by rw [here]; rfl) rfl (counts_same valid.used (by rw [here]; rfl)) (Nat.le_refl _)
    (counts_same valid.wg (by rw [here]; rfl)) (answers_written valid rfl (by rw [here]; rfl) rfl) ?_
    (entry_kept valid (fun _ => id) fun _ => entered) (fun _ => id) nofun (fun _ => CallPc.pending_of_entered entered) ?_
  · intro frame member
    rcases List.mem_append.mp member with earlier | last
    · exact valid.named frame earlier
    · rw [List.mem_singleton.mp last]
      exact ⟨below, rfl⟩
  · intro sent
    obtain ⟨-, cancelled⟩ := valid.asked n sent
    exact .inl (by simpa [here] using cancelled)

theorem deleteEntry_valid (valid : s.Valid) {n : Nat} (here : s.pcs n = .written) : (s.deleteEntry n).Valid := by
  have mine : (s.pcs n).pending = true := by
    rw [here]
    rfl
  refine moved_valid valid (by rw [here]; rfl) (by rw [here]; rfl) rfl (counts_same valid.used (by rw [here]; rfl)) (Nat.le_refl _)
    (counts_same valid.wg (by rw [here]; rfl)) (answers_kept valid (by rw [here]; rfl)) valid.named ?_ (fun _ => id) nofun nofun
    fun _ => .inr rfl
  refine (Function.forall_update_iff s.pcs fun k pc =>
    pc.entered = true → s.contextDone k = true ∨ (s.cancels.erase (s.ids n)).lookup (s.ids k) = some k).mpr
    ⟨nofun, fun k other entered => ?_⟩
  have apart : s.ids k ≠ s.ids n := fun same => other (valid.unique k n (CallPc.pending_of_entered entered) mine same)
  rw [AList.lookup_erase_ne apart]
  exact valid.entry k entered

theorem callCancel_valid (valid : s.Valid) {n : Nat} (here : s.pcs n = .deleted) :
    ({ s with contextDone := update s.contextDone n true, pcs := update s.pcs n .cancelled } : Dispatcher).Valid := by
  have grows : ∀ k, s.contextDone k = true → update s.contextDone n true k = true := by
    intro k done
    by_cases same : k = n
    · rw [same, Function.update_self]
    · rwa [Function.update_of_ne same]
  exact moved_valid valid (by rw [here]; rfl) (by rw [here]; rfl) rfl (counts_same valid.used (by rw [here]; rfl)) (Nat.le_refl _)
    (counts_same valid.wg (by rw [here]; rfl)) (answers_kept valid (by rw [here]; rfl)) valid.named (entry_kept valid grows nofun) grows
    (fun _ => Function.update_self n true s.contextDone) nofun fun _ => .inl (Function.update_self n true s.contextDone)

theorem release_valid (valid : s.Valid) {n : Nat} (here : s.pcs n = .cancelled) :
    ({ s with used := s.used - 1, pcs := update s.pcs n .released } : Dispatcher).Valid := by
  have done : s.contextDone n = true := valid.closed n (by rw [here]; rfl)
  exact moved_valid valid (by rw [here]; rfl) (by rw [here]; rfl) rfl
    (counts_update n .released (counts_leave valid.used n (by rw [here]; rfl))) (Nat.sub_le _ _)
    (counts_same valid.wg (by rw [here]; rfl)) (answers_kept valid (by rw [here]; rfl)) valid.named
    (entry_kept valid (fun _ => id) nofun) (fun _ => id) (fun _ => done) nofun fun _ => .inl done

theorem wgDone_valid (valid : s.Valid) {n : Nat} (here : s.pcs n = .released) :
    ({ s with wg := s.wg - 1, pcs := update s.pcs n .done } : Dispatcher).Valid := by
  have done : s.contextDone n = true := valid.closed n (by rw [here]; rfl)
  exact moved_valid valid (by rw [here]; rfl) (by rw [here]; rfl) rfl (counts_same valid.used (by rw [here]; rfl)) (Nat.le_refl _)
    (counts_update n .done (counts_leave valid.wg n (by rw [here]; rfl))) (answers_kept valid (by rw [here]; rfl)) valid.named
    (entry_kept valid (fun _ => id) nofun) (fun _ => id) (fun _ => done) nofun fun _ => .inl done

theorem wait_valid (valid : s.Valid) (gone : s.loop = .returned) (none : s.wg = 0) : ({ s with returned := true } : Dispatcher).Valid :=
  { valid with complete := fun _ => ⟨gone, Headcount.counts_zero_iff.mp (none ▸ valid.wg)⟩ }

theorem step_valid {tools : GoString → Bool} (s : Dispatcher) (action : Action) (next : Dispatcher) (valid : s.Valid)
    (roomy : Roomy tools s action) (taken : step tools s action = some next) : next.Valid := by
  cases action with
  | read frame =>
      obtain ⟨reading, result⟩ := Option.ite_none_right_eq_some.mp taken
      cases result
      exact read_valid valid reading roomy
  | acquire =>
      dsimp only [step] at taken
      split at taken
      · next call acquiring =>
          obtain ⟨-, result⟩ := Option.ite_none_right_eq_some.mp taken
          cases result
          exact acquire_valid valid acquiring
      · cases taken
  | register =>
      dsimp only [step] at taken
      split at taken
      · next call registering =>
          cases taken
          exact register_valid valid registering
      · cases taken
  | callbackWaits call => exact roomy.elim
  | callbackResumes =>
      dsimp only [step] at taken
      split at taken
      · next call delayed => exact absurd delayed (valid.undelayed call)
      · cases taken
  | callbacksReturn =>
      obtain ⟨delivering, result⟩ := Option.ite_none_right_eq_some.mp taken
      cases result
      exact loop_valid valid (fun _ => by rw [delivering]; exact ⟨nofun, nofun⟩) (by rw [delivering]; exact nofun)
        (fun _ => ⟨nofun, nofun⟩) fun _ => nofun
  | handlerReturns call result =>
      obtain ⟨here, result⟩ := Option.ite_none_right_eq_some.mp taken
      cases result
      exact handlerReturns_valid valid here
  | write call =>
      dsimp only [step] at taken
      split at taken
      · next result here =>
          cases taken
          exact write_valid valid here
      · cases taken
  | deleteEntry call =>
      obtain ⟨here, result⟩ := Option.ite_none_right_eq_some.mp taken
      cases result
      exact deleteEntry_valid valid here
  | callCancel call =>
      obtain ⟨here, result⟩ := Option.ite_none_right_eq_some.mp taken
      cases result
      exact callCancel_valid valid here
  | release call =>
      obtain ⟨here, result⟩ := Option.ite_none_right_eq_some.mp taken
      cases result
      exact release_valid valid here
  | wgDone call =>
      obtain ⟨here, result⟩ := Option.ite_none_right_eq_some.mp taken
      cases result
      exact wgDone_valid valid here
  | wait =>
      obtain ⟨⟨gone, none⟩, result⟩ := Option.ite_none_right_eq_some.mp taken
      cases result
      exact wait_valid valid gone none

instance (tools : GoString → Bool) (s : Dispatcher) : ∀ action, Decidable (Roomy tools s action)
  | .read (.toolCall id tool) => inferInstanceAs (Decidable (tools tool = true →
      s.used < maxConcurrency ∧ ∀ call, call < s.calls → s.ids call = id → (s.pcs call).entered = false))
  | .read (.event _) => isTrue trivial
  | .read (.subscribeAck _) => isTrue trivial
  | .read (.cancel _) => isTrue trivial
  | .read .shutdown => isTrue trivial
  | .acquire => isTrue trivial
  | .register => isTrue trivial
  | .callbackWaits _ => isFalse id
  | .callbackResumes => isTrue trivial
  | .callbacksReturn => isTrue trivial
  | .handlerReturns _ _ => isTrue trivial
  | .write _ => isTrue trivial
  | .deleteEntry _ => isTrue trivial
  | .callCancel _ => isTrue trivial
  | .release _ => isTrue trivial
  | .wgDone _ => isTrue trivial
  | .wait => isTrue trivial

end Dispatcher

end Brainkit.Sdk.Plugin
