import Brainkit.Modules.Scope

set_option autoImplicit false

namespace Brainkit.Modules.Scopes

open Function (update)
open GoText Forest Transition

def owes (s : Scopes) (x : Cleanup) : List Nat := leavesOf s.registered (fun k => !s.succeeded k) s.created x

def Spent (s : Scopes) : Cleanup → Prop
  | .fn k => s.succeeded k = true
  | .close c => s.due c = [] ∧ ∀ j, Under s.registered c j → (s.scope j).closed = true

structure Held (s : Scopes) (i : Nat) : Prop where
  sub : (s.scope i).cleanups.Sublist (s.registered i)
  pending : ∀ k, .fn k ∈ (s.scope i).cleanups → s.succeeded k = false
  spent : ∀ x ∈ s.registered i, x ∉ (s.scope i).cleanups → s.Spent x

structure Formed (s : Scopes) : Prop where
  grown : Grown s.registered s.created
  numbered : ∀ i k, .fn k ∈ s.registered i → k < s.deferred
  past : ∀ entry ∈ s.ran, entry.1 < s.deferred
  blank : ∀ i, s.created ≤ i → s.registered i = []

section

variable {s : Scopes} {i : Nat}

theorem due_eq (formed : Formed s) (start : i < s.created) :
    s.due i = (s.registered i).reverse.flatMap s.owes := by
  rw [due, formed.grown.latest_enough (s.created + 1) (by omega) (by omega) start, latest_within_succ]
  rfl

theorem mem_due (formed : Formed s) (start : i < s.created) (k : Nat) :
    k ∈ s.due i ↔ s.succeeded k = false ∧ ∃ j, Under s.registered i j ∧ .fn k ∈ s.registered j := by
  rw [due, formed.grown.mem_latest (by omega) start, Bool.not_eq_true']

theorem mem_owes (formed : Formed s) {x : Cleanup} (member : x ∈ s.registered i) (k : Nat) :
    k ∈ s.owes x ↔ s.succeeded k = false ∧ Holds s.registered x k := by
  rw [owes, formed.grown.mem_leaves member, Bool.not_eq_true']

theorem owes_lt (formed : Formed s) {x : Cleanup} (member : x ∈ s.registered i) {k : Nat} (owed : k ∈ s.owes x) :
    k < s.deferred := by
  obtain ⟨_, holds⟩ := (mem_owes formed member k).mp owed
  cases x with
  | leaf other => exact holds ▸ formed.numbered i other member
  | node c =>
      obtain ⟨j, _, leaf⟩ := holds
      exact formed.numbered j k leaf

theorem owes_fn {k : Nat} (pending : s.succeeded k = false) : s.owes (.fn k) = [k] := by
  simp [owes, leavesOf, pending]

theorem due_held (formed : Formed s) (start : i < s.created) (held : Held s i) :
    s.due i = (s.scope i).cleanups.reverse.flatMap s.owes := by
  rw [due_eq formed start]
  refine (flatMap_sublist held.sub.reverse (List.nodup_reverse.mpr (formed.grown.nodup i)) ?_).symm
  intro x member absent
  rw [List.mem_reverse] at member absent
  have spent := held.spent x member absent
  cases x with
  | leaf k =>
      have done : s.succeeded k = true := spent
      simp [owes, leavesOf, done]
  | node c => exact spent.1

theorem due_of_under (formed : Formed s) (start : i < s.created) {j : Nat} (inside : Under s.registered i j) {k : Nat}
    (member : k ∈ s.due j) : k ∈ s.due i := by
  obtain ⟨pending, m, under, leaf⟩ := (mem_due formed (formed.grown.lt_of_under start inside) k).mp member
  exact (mem_due formed start k).mpr ⟨pending, m, under_trans inside under, leaf⟩

end

def Lasts (outcome : Nat → Option GoString) (s : Scopes) (j : Nat) : Prop :=
  (s.scope j).id = [] → ∀ k ∈ s.due j, outcome k = none

structure Effect (outcome : Nat → Option GoString) (s next : Scopes) (inside : Nat → Prop) (attempts : List Nat) : Prop where
  ran : next.ran = s.ran ++ attempts.map fun k => (k, outcome k)
  registered : next.registered = s.registered
  created : next.created = s.created
  deferred : next.deferred = s.deferred
  ids : ∀ j, (next.scope j).id = (s.scope j).id
  elsewhere : ∀ j, ¬ inside j → next.scope j = s.scope j
  closed : ∀ j, inside j → (next.scope j).closed = true
  held : ∀ j, inside j → Lasts outcome s j → Held next j
  lost : ∀ j, inside j → ¬ Lasts outcome s j → (next.scope j).cleanups = []

namespace Effect

variable {outcome : Nat → Option GoString} {s next : Scopes} {inside : Nat → Prop} {attempts : List Nat}

theorem succeeded_iff (effect : Effect outcome s next inside attempts) (k : Nat) :
    next.succeeded k = true ↔ s.succeeded k = true ∨ k ∈ attempts ∧ outcome k = none := by
  rw [succeeded, succeeded, decide_eq_true_iff, decide_eq_true_iff, effect.ran, List.mem_append]
  refine or_congr Iff.rfl ?_
  rw [List.mem_map]
  constructor
  · intro found
    obtain ⟨other, member, same⟩ := found
    obtain ⟨rfl, result⟩ := Prod.mk.inj same
    exact ⟨member, result⟩
  · intro found
    exact ⟨k, found.1, by rw [found.2]⟩

theorem succeeded_quiet (effect : Effect outcome s next inside attempts) {k : Nat} (quiet : k ∉ attempts) :
    next.succeeded k = s.succeeded k :=
  Bool.eq_iff_iff.mpr ((effect.succeeded_iff k).trans (or_iff_left fun both => quiet both.1))

theorem formed (effect : Effect outcome s next inside attempts) (formed : Formed s)
    (numbered : ∀ k ∈ attempts, k < s.deferred) : Formed next := by
  constructor
  · rw [effect.registered, effect.created]
    exact formed.grown
  · rw [effect.registered, effect.deferred]
    exact formed.numbered
  · rw [effect.ran, effect.deferred]
    intro entry member
    cases List.mem_append.mp member with
    | inl before => exact formed.past entry before
    | inr new =>
        obtain ⟨k, attempted, same⟩ := List.mem_map.mp new
        exact same ▸ numbered k attempted
  · rw [effect.registered, effect.created]
    exact formed.blank

theorem stays_closed (effect : Effect outcome s next inside attempts) {j : Nat} (closed : (s.scope j).closed = true) :
    (next.scope j).closed = true := by
  by_cases changed : inside j
  · exact effect.closed j changed
  · rw [effect.elsewhere j changed]
    exact closed

theorem due_quiet (effect : Effect outcome s next inside attempts) (formed : Formed s) {j : Nat} (start : j < s.created)
    (quiet : ∀ m k, Under s.registered j m → .fn k ∈ s.registered m → k ∉ attempts) : next.due j = s.due j := by
  rw [due, due, effect.registered, effect.created]
  refine formed.grown.latest_congr (by omega) start fun m k under leaf => ?_
  rw [effect.succeeded_quiet (quiet m k under leaf)]

theorem owes_quiet (effect : Effect outcome s next inside attempts) (formed : Formed s) {i : Nat} {x : Cleanup}
    (member : x ∈ s.registered i) (quiet : ∀ k, Holds s.registered x k → k ∉ attempts) : next.owes x = s.owes x := by
  rw [owes, owes, effect.registered, effect.created]
  refine formed.grown.leaves_congr member fun k holds => ?_
  rw [effect.succeeded_quiet (quiet k holds)]

theorem due_fewer (effect : Effect outcome s next inside attempts) (formed : Formed s) (after : Formed next) {j k : Nat}
    (start : j < s.created) (member : k ∈ next.due j) : k ∈ s.due j := by
  have later : j < next.created := by rw [effect.created]; exact start
  obtain ⟨pending, place⟩ := (mem_due after later k).mp member
  rw [effect.registered] at place
  refine (mem_due formed start k).mpr ⟨Bool.eq_false_iff.mpr fun done => ?_, place⟩
  exact Bool.eq_false_iff.mp pending ((effect.succeeded_iff k).mpr (.inl done))

theorem spent_scope (effect : Effect outcome s next inside attempts) (formed : Formed s) (after : Formed next) {c : Nat}
    (start : c < s.created) (spent : s.Spent (.close c)) : next.Spent (.close c) := by
  obtain ⟨nothing, closed⟩ := spent
  refine ⟨List.eq_nil_iff_forall_not_mem.mpr fun k left => ?_, fun j under => ?_⟩
  · have before := effect.due_fewer formed after start left
    rw [nothing] at before
    cases before
  · rw [effect.registered] at under
    exact effect.stays_closed (closed j under)

theorem spent (effect : Effect outcome s next inside attempts) (formed : Formed s) (after : Formed next) {i : Nat}
    {x : Cleanup} (member : x ∈ s.registered i) (spent : s.Spent x) : next.Spent x := by
  cases x with
  | leaf k => exact (effect.succeeded_iff k).mpr (.inl spent)
  | node c => exact effect.spent_scope formed after (formed.grown.rises i c member).2 spent

theorem held_outside (effect : Effect outcome s next inside attempts) (formed : Formed s) (after : Formed next) {j : Nat}
    (outside : ¬ inside j) (quiet : ∀ k, .fn k ∈ (s.scope j).cleanups → k ∉ attempts) (held : Held s j) : Held next j := by
  have same := effect.elsewhere j outside
  constructor
  · rw [same, effect.registered]
    exact held.sub
  · intro k member
    rw [same] at member
    rw [effect.succeeded_quiet (quiet k member)]
    exact held.pending k member
  · intro x member absent
    rw [effect.registered] at member
    rw [same] at absent
    exact effect.spent formed after member (held.spent x member absent)

theorem trans {final : Scopes} {others : Nat → Prop} {later : List Nat} (first : Effect outcome s next inside attempts)
    (second : Effect outcome next final others later) (apart : ∀ j, inside j → ¬ others j)
    (same : ∀ j, others j → next.due j = s.due j) (keeps : ∀ j, inside j → Held next j → Held final j) :
    Effect outcome s final (fun j => inside j ∨ others j) (attempts ++ later) := by
  have lasts (j : Nat) (other : others j) : Lasts outcome next j ↔ Lasts outcome s j := by
    rw [Lasts, Lasts, first.ids, same j other]
  constructor
  · rw [second.ran, first.ran, List.map_append, List.append_assoc]
  · exact second.registered.trans first.registered
  · exact second.created.trans first.created
  · exact second.deferred.trans first.deferred
  · exact fun j => (second.ids j).trans (first.ids j)
  · intro j outside
    rw [second.elsewhere j fun other => outside (.inr other), first.elsewhere j fun within => outside (.inl within)]
  · intro j within
    cases within with
    | inl here => exact second.stays_closed (first.closed j here)
    | inr there => exact second.closed j there
  · intro j within lasting
    cases within with
    | inl here => exact keeps j here (first.held j here lasting)
    | inr there => exact second.held j there ((lasts j there).mpr lasting)
  · intro j within fleeting
    cases within with
    | inl here =>
        rw [second.elsewhere j (apart j here)]
        exact first.lost j here fleeting
    | inr there => exact second.lost j there fun lasting => fleeting ((lasts j there).mp lasting)

end Effect

variable {outcome : Nat → Option GoString}

theorem Effect.refl_of_spent (outcome : Nat → Option GoString) {s : Scopes} {i : Nat} (formed : Formed s) (start : i < s.created)
    (held : ∀ j, Under s.registered i j → Held s j) (closed : (s.scope i).closed = true)
    (nothing : (s.scope i).cleanups = []) : s.due i = [] ∧ Effect outcome s s (Under s.registered i) [] := by
  have empty : s.due i = [] := by
    rw [due_held formed start (held i .here), nothing]
    rfl
  refine ⟨empty, ?_⟩
  constructor
  · exact (List.append_nil _).symm
  · rfl
  · rfl
  · rfl
  · exact fun _ => rfl
  · exact fun _ _ => rfl
  · intro j inside
    cases under_cases inside with
    | inl same => exact same ▸ closed
    | inr later =>
        obtain ⟨c, member, under⟩ := later
        have spent := (held i .here).spent (.close c) member (by rw [nothing]; exact List.not_mem_nil)
        exact spent.2 j under
  · exact fun j inside _ => held j inside
  · intro j inside fleeting
    refine absurd (fun _ k member => ?_) fleeting
    have above := due_of_under formed start inside member
    rw [empty] at above
    cases above

def Closes (outcome : Nat → Option GoString) (s : Scopes) (i : Nat) (result : Scopes × Option GoString) : Prop :=
  Effect outcome s result.1 (Under s.registered i) (s.due i) ∧ (result.2 = none ↔ ∀ k ∈ s.due i, outcome k = none)

def fails (outcome : Nat → Option GoString) (s : Scopes) (x : Cleanup) : Bool := (s.owes x).any fun k => (outcome k).isSome

theorem fails_eq_false_iff (s : Scopes) (x : Cleanup) : fails outcome s x = false ↔ ∀ k ∈ s.owes x, outcome k = none := by
  simp [fails]

def insideOf (s : Scopes) (L : List Cleanup) (j : Nat) : Prop := ∃ c, .close c ∈ L ∧ Under s.registered c j

def attempt (outcome : Nat → Option GoString) (close : Nat → Scopes → Scopes × Option GoString) (x : Cleanup) (s : Scopes) :
    Scopes × Option GoString :=
  match x with
  | .fn k => s.runFn outcome k
  | .close child => close child s

theorem attempt_all_cons (close : Nat → Scopes → Scopes × Option GoString) (x : Cleanup) (rest : List Cleanup) (s : Scopes) :
    attemptAll outcome close (x :: rest) s =
      (((attempt outcome close x s).1.attemptAll outcome close rest).1,
        match (attempt outcome close x s).2 with
        | some err => (x, err) :: ((attempt outcome close x s).1.attemptAll outcome close rest).2
        | none => ((attempt outcome close x s).1.attemptAll outcome close rest).2) := by
  cases x <;> rfl

section

variable {i : Nat}

theorem attempt_effect (outcome : Nat → Option GoString) (close : Nat → Scopes → Scopes × Option GoString) {s : Scopes}
    {x : Cleanup} (member : x ∈ s.registered i)
    (closes : ∀ c, .close c ∈ s.registered i → (∀ j, Under s.registered c j → Held s j) → Closes outcome s c (close c s))
    (held : ∀ c, x = .close c → ∀ j, Under s.registered c j → Held s j)
    (pending : ∀ k, x = .fn k → s.succeeded k = false) :
    Effect outcome s (attempt outcome close x s).1 (insideOf s [x]) (s.owes x) ∧
      ((attempt outcome close x s).2 = none ↔ fails outcome s x = false) := by
  rw [fails_eq_false_iff]
  cases x with
  | leaf k =>
      have alone : s.owes (.leaf k) = [k] := owes_fn (pending k rfl)
      have outside (j : Nat) : ¬ insideOf s [.leaf k] j := by
        intro inside
        obtain ⟨c, impossible, _⟩ := inside
        cases List.mem_singleton.mp impossible
      rw [alone]
      constructor
      · exact {
          ran := rfl
          registered := rfl
          created := rfl
          deferred := rfl
          ids := fun _ => rfl
          elsewhere := fun _ _ => rfl
          closed := fun j inside => absurd inside (outside j)
          held := fun j inside => absurd inside (outside j)
          lost := fun j inside => absurd inside (outside j) }
      · simp [attempt, runFn]
  | node c =>
      have all : insideOf s [.node c] = Under s.registered c := by
        funext j
        simp [insideOf, Cleanup.close]
      rw [all]
      exact closes c member (held c rfl)

theorem attempt_all_effect (outcome : Nat → Option GoString) (close : Nat → Scopes → Scopes × Option GoString) (size i : Nat)
    (registered : Nat → List Cleanup)
    (closes : ∀ t c, Formed t → t.registered = registered → t.created = size → .close c ∈ registered i →
      (∀ j, Under registered c j → Held t j) → Closes outcome t c (close c t))
    (L : List Cleanup) {s : Scopes} (formed : Formed s) (tree : s.registered = registered) (made : s.created = size)
    (sub : ∀ x ∈ L, x ∈ registered i) (nodup : L.Nodup)
    (held : ∀ c, .close c ∈ L → ∀ j, Under registered c j → Held s j)
    (pending : ∀ k, .fn k ∈ L → s.succeeded k = false) :
    Effect outcome s (attemptAll outcome close L s).1 (insideOf s L) (L.flatMap s.owes) ∧
      (attemptAll outcome close L s).2.map Prod.fst = L.filter (fails outcome s) := by
  induction L generalizing s with
  | nil =>
      have nowhere (j : Nat) : ¬ insideOf s [] j := fun inside => nomatch inside.choose_spec.1
      refine ⟨?_, rfl⟩
      exact {
        ran := (List.append_nil _).symm
        registered := rfl
        created := rfl
        deferred := rfl
        ids := fun _ => rfl
        elsewhere := fun _ _ => rfl
        closed := fun j inside => absurd inside (nowhere j)
        held := fun j inside => absurd inside (nowhere j)
        lost := fun j inside => absurd inside (nowhere j) }
  | cons x rest ih =>
      subst tree
      obtain ⟨fresh, nodupRest⟩ := List.nodup_cons.mp nodup
      have member : x ∈ s.registered i := sub x List.mem_cons_self
      obtain ⟨head, headErr⟩ := attempt_effect outcome close member
        (fun c below under => closes s c formed rfl made below under)
        (fun c same => held c (same ▸ List.mem_cons_self)) (fun k same => pending k (same ▸ List.mem_cons_self))
      have after : Formed (attempt outcome close x s).1 := head.formed formed fun k => owes_lt formed member
      have quiet {y : Cleanup} (other : y ∈ rest) (k : Nat) (holds : Holds s.registered y k) : k ∉ s.owes x := by
        intro owed
        have different : x ≠ y := fun same => fresh (same ▸ other)
        exact formed.grown.holds_apart member (sub y (List.mem_cons_of_mem x other)) different
          ((mem_owes formed member k).mp owed).2 holds
      have owes (y : Cleanup) (other : y ∈ rest) : (attempt outcome close x s).1.owes y = s.owes y :=
        head.owes_quiet formed (sub y (List.mem_cons_of_mem x other)) (quiet other)
      have apart (c : Nat) (other : .close c ∈ rest) (j : Nat) (under : Under s.registered c j) : ¬ insideOf s [x] j := by
        intro inside
        obtain ⟨d, same, also⟩ := inside
        obtain rfl := List.mem_singleton.mp same
        have different : d ≠ c := fun equal => fresh (equal ▸ other)
        exact formed.grown.apart member (sub _ (List.mem_cons_of_mem _ other)) different also under
      have heldRest (c : Nat) (other : .close c ∈ rest) (j : Nat) (under : Under s.registered c j) :
          Held (attempt outcome close x s).1 j := by
        have before := held c (List.mem_cons_of_mem x other) j under
        refine head.held_outside formed after (apart c other j under) (fun k kept => ?_) before
        exact quiet other k ⟨j, under, before.sub.subset kept⟩
      have pendingRest (k : Nat) (other : .fn k ∈ rest) : (attempt outcome close x s).1.succeeded k = false := by
        rw [head.succeeded_quiet (quiet other k rfl)]
        exact pending k (List.mem_cons_of_mem x other)
      obtain ⟨tail, tailFailed⟩ := ih after head.registered (head.created.trans made)
        (fun y other => sub y (List.mem_cons_of_mem x other)) nodupRest heldRest pendingRest
      have places : insideOf (attempt outcome close x s).1 rest = insideOf s rest := by
        funext j
        rw [insideOf, insideOf, head.registered]
      have attempts : rest.flatMap (attempt outcome close x s).1.owes = rest.flatMap s.owes := List.flatMap_congr owes
      rw [places, attempts] at tail
      have final := tail.formed after fun k owed => by
        obtain ⟨y, other, owed⟩ := List.mem_flatMap.mp owed
        rw [head.deferred]
        exact owes_lt formed (sub y (List.mem_cons_of_mem x other)) owed
      rw [attempt_all_cons]
      constructor
      · have both := head.trans tail
          (fun j inside others => by
            obtain ⟨c, other, under⟩ := others
            exact apart c other j under inside)
          (fun j others => by
            obtain ⟨c, other, under⟩ := others
            have start := formed.grown.lt_of_under (formed.grown.rises i c (sub _ (List.mem_cons_of_mem x other))).2 under
            exact head.due_quiet formed start fun m k deeper leaf => quiet other k ⟨m, under_trans under deeper, leaf⟩)
          (fun j inside kept => by
            have outside : ¬ insideOf s rest j := fun others => by
              obtain ⟨c, other, under⟩ := others
              exact apart c other j under inside
            refine tail.held_outside after final outside (fun k held owed => ?_) kept
            obtain ⟨y, other, owed⟩ := List.mem_flatMap.mp owed
            obtain ⟨d, same, under⟩ := inside
            obtain rfl := List.mem_singleton.mp same
            have leaf := kept.sub.subset held
            rw [head.registered] at leaf
            have different : y ≠ .close d := fun equal => fresh (equal ▸ other)
            exact formed.grown.holds_apart (sub y (List.mem_cons_of_mem _ other)) member different
              ((mem_owes formed (sub y (List.mem_cons_of_mem _ other)) k).mp owed).2 ⟨j, under, leaf⟩)
        have all : (fun j => insideOf s [x] j ∨ insideOf s rest j) = insideOf s (x :: rest) := by
          funext j
          simp [insideOf, or_and_right, exists_or]
        rw [all] at both
        exact both
      · have same : rest.filter (fails outcome (attempt outcome close x s).1) = rest.filter (fails outcome s) :=
          List.filter_congr fun y other => by rw [fails, fails, owes y other]
        rw [same] at tailFailed
        cases err : (attempt outcome close x s).2 with
        | none => rw [List.filter_cons_of_neg (by rw [headErr.mp err]; exact Bool.false_ne_true), ← tailFailed]
        | some text =>
            have failing : fails outcome s x = true := by
              refine Bool.of_not_eq_false fun fine => ?_
              rw [headErr.mpr fine] at err
              cases err
            rw [List.filter_cons_of_pos failing, ← tailFailed]
            rfl

end

def taken (i : Nat) (s : Scopes) : Scopes := s.setScope i { s.scope i with closed := true, cleanups := [] }

theorem taken_self (i : Nat) (s : Scopes) : (s.taken i).scope i = ⟨(s.scope i).id, [], true⟩ :=
  Function.update_self i _ s.scope

theorem taken_of_ne {i j : Nat} (s : Scopes) (other : j ≠ i) : (s.taken i).scope j = s.scope j :=
  Function.update_of_ne other _ s.scope

def kept (i : Nat) (cleanups : List Cleanup) (s : Scopes) : Scopes := s.setScope i { s.scope i with cleanups := cleanups }

theorem close_within_succ (fuel i : Nat) (s : Scopes) (next : Scopes) (failed : List (Cleanup × GoString))
    (busy : ¬ ((s.scope i).closed = true ∧ (s.scope i).cleanups = []))
    (loop : attemptAll outcome (closeWithin outcome fuel) (s.scope i).cleanups.reverse (s.taken i) = (next, failed))
    (untouched : next.scope i = (s.taken i).scope i) :
    (closeWithin outcome (fuel + 1) i s).1 =
        next.kept i (if (s.scope i).id = [] then [] else (failed.map Prod.fst).reverse) ∧
      ((closeWithin outcome (fuel + 1) i s).2 = none ↔ failed = []) := by
  have own : next.scope i = ⟨(s.scope i).id, [], true⟩ := untouched.trans (taken_self i s)
  have same : next = next.kept i [] := by
    rw [kept, setScope, own, ← own, Function.update_eq_self]
  simp only [taken] at loop
  simp only [closeWithin, if_neg busy, loop]
  cases failed with
  | nil =>
      rw [List.map_nil, List.map_nil, List.reverse_nil, ite_self]
      exact ⟨same, iff_of_true rfl rfl⟩
  | cons first rest =>
      by_cases anonymous : (s.scope i).id = []
      · simp only [joinErrors, List.map_cons, own, if_pos anonymous]
        exact ⟨same, iff_of_false nofun nofun⟩
      · simp only [joinErrors, List.map_cons, own, if_neg anonymous, kept, List.nil_append]
        exact ⟨trivial, iff_of_false nofun nofun⟩

structure SameRuns (s t : Scopes) : Prop where
  registered : t.registered = s.registered
  created : t.created = s.created
  ran : t.ran = s.ran
  closed : ∀ j, (s.scope j).closed = true → (t.scope j).closed = true

namespace SameRuns

variable {s t : Scopes}

theorem due (same : SameRuns s t) (j : Nat) : t.due j = s.due j := by
  simp only [Scopes.due, succeeded, same.registered, same.created, same.ran]

theorem spent (same : SameRuns s t) {x : Cleanup} (spent : s.Spent x) : t.Spent x := by
  cases x with
  | leaf k =>
      change t.succeeded k = true
      rw [succeeded, same.ran]
      exact spent
  | node c =>
      refine ⟨(same.due c).trans spent.1, fun j under => ?_⟩
      rw [same.registered] at under
      exact same.closed j (spent.2 j under)

theorem held (same : SameRuns s t) {j : Nat} (scope : t.scope j = s.scope j) (held : Held s j) : Held t j := by
  constructor
  · rw [scope, same.registered]
    exact held.sub
  · intro k member
    rw [scope] at member
    rw [succeeded, same.ran]
    exact held.pending k member
  · intro x member absent
    rw [same.registered] at member
    rw [scope] at absent
    exact same.spent (held.spent x member absent)

end SameRuns

theorem same_runs_kept (i : Nat) (cleanups : List Cleanup) (s : Scopes) : SameRuns s (s.kept i cleanups) := by
  refine ⟨rfl, rfl, rfl, fun j closed => ?_⟩
  change (update s.scope i _ j).closed = true
  by_cases here : j = i
  · rw [here, Function.update_self]
    exact here ▸ closed
  · rw [Function.update_of_ne here]
    exact closed

theorem same_runs_taken (i : Nat) (s : Scopes) : SameRuns s (s.taken i) := by
  refine ⟨rfl, rfl, rfl, fun j closed => ?_⟩
  change (update s.scope i _ j).closed = true
  by_cases here : j = i
  · rw [here, Function.update_self]
  · rw [Function.update_of_ne here]
    exact closed

theorem held_after {s next : Scopes} {i : Nat} (formed : Formed s) (held : Held s i)
    (loop : Effect outcome (s.taken i) next (insideOf s (s.scope i).cleanups.reverse)
      ((s.scope i).cleanups.reverse.flatMap s.owes))
    (after : Formed next) (cleanups : List Cleanup)
    (failing : cleanups = (s.scope i).cleanups.filter (fails outcome s)) : Held (next.kept i cleanups) i := by
  have own : (next.kept i cleanups).scope i = { next.scope i with cleanups := cleanups } :=
    Function.update_self i _ next.scope
  have same := same_runs_kept i cleanups next
  have before := same_runs_taken i s
  constructor
  · rw [own, failing]
    change List.Sublist _ (next.registered i)
    rw [loop.registered]
    exact List.filter_sublist.trans held.sub
  · intro k member
    rw [own, failing] at member
    obtain ⟨kept, fail⟩ := List.mem_filter.mp member
    have pending := held.pending k kept
    rw [fails, owes_fn pending] at fail
    refine Bool.eq_false_iff.mpr fun done => ?_
    cases (loop.succeeded_iff k).mp done with
    | inl earlier => exact Bool.false_ne_true (pending.symm.trans earlier)
    | inr now => simp [now.2] at fail
  · intro x member absent
    change x ∈ next.registered i at member
    rw [loop.registered] at member
    rw [own, failing, List.mem_filter] at absent
    apply same.spent
    by_cases kept : x ∈ (s.scope i).cleanups
    · have fine : ∀ k ∈ s.owes x, outcome k = none :=
        (fails_eq_false_iff s x).mp (Bool.eq_false_iff.mpr fun fail => absent ⟨kept, fail⟩)
      have attempted (k : Nat) (owed : k ∈ s.owes x) : next.succeeded k = true :=
        (loop.succeeded_iff k).mpr
          (.inr ⟨List.mem_flatMap.mpr ⟨x, List.mem_reverse.mpr kept, owed⟩, fine k owed⟩)
      cases x with
      | leaf k => exact attempted k (by rw [owes_fn (held.pending k kept)]; exact List.mem_singleton_self k)
      | node c =>
          have below := (formed.grown.rises i c member).2
          refine ⟨List.eq_nil_iff_forall_not_mem.mpr fun k left => ?_, fun j under => ?_⟩
          · have owed : k ∈ s.owes (.node c) := by
              have earlier := loop.due_fewer ⟨formed.grown, formed.numbered, formed.past, formed.blank⟩ after below left
              rw [before.due] at earlier
              exact earlier
            have later : c < next.created := by rw [loop.created]; exact below
            exact Bool.false_ne_true (((mem_due after later k).mp left).1.symm.trans (attempted k owed))
          · rw [loop.registered] at under
            exact loop.closed j ⟨c, List.mem_reverse.mpr kept, under⟩
    · exact loop.spent ⟨formed.grown, formed.numbered, formed.past, formed.blank⟩ after member
        (before.spent (held.spent x member kept))

theorem effect_after {s next : Scopes} {i : Nat} (formed : Formed s) (start : i < s.created)
    (held : ∀ j, Under s.registered i j → Held s j)
    (loop : Effect outcome (s.taken i) next (insideOf s (s.scope i).cleanups.reverse)
      ((s.scope i).cleanups.reverse.flatMap s.owes))
    (after : Formed next) : Effect outcome s
      (next.kept i (if (s.scope i).id = [] then [] else (s.scope i).cleanups.filter (fails outcome s)))
      (Under s.registered i) (s.due i) := by
  have own := held i .here
  have due := due_held formed start own
  have formedTaken : Formed (s.taken i) := ⟨formed.grown, formed.numbered, formed.past, formed.blank⟩
  have runsTaken := same_runs_taken i s
  have runsKept (cleanups : List Cleanup) := same_runs_kept i cleanups next
  have listed {x : Cleanup} (member : x ∈ (s.scope i).cleanups.reverse) : x ∈ s.registered i :=
    own.sub.subset (List.mem_reverse.mp member)
  have here (cleanups : List Cleanup) : (next.kept i cleanups).scope i = { next.scope i with cleanups := cleanups } :=
    Function.update_self i _ next.scope
  have there (cleanups : List Cleanup) {j : Nat} (other : j ≠ i) : (next.kept i cleanups).scope j = next.scope j :=
    Function.update_of_ne other _ next.scope
  have same (j : Nat) : Lasts outcome (s.taken i) j ↔ Lasts outcome s j := by
    rw [Lasts, Lasts, runsTaken.due]
    by_cases this : j = i
    · rw [this, taken_self]
    · rw [taken_of_ne s this]
  have places {j : Nat} (under : Under s.registered i j) (other : j ≠ i) :
      insideOf s (s.scope i).cleanups.reverse j ∨
        (s.scope j).closed = true ∧ s.due j = [] ∧ ¬ insideOf s (s.scope i).cleanups.reverse j := by
    cases under_cases under with
    | inl this => exact absurd this other
    | inr later =>
        obtain ⟨c, member, below⟩ := later
        by_cases kept : .close c ∈ (s.scope i).cleanups
        · exact .inl ⟨c, List.mem_reverse.mpr kept, below⟩
        · obtain ⟨nothing, closed⟩ := own.spent (.close c) member kept
          refine .inr ⟨closed j below, List.eq_nil_iff_forall_not_mem.mpr fun k left => ?_, fun inside => ?_⟩
          · have above := due_of_under formed (formed.grown.rises i c member).2 below left
            rw [nothing] at above
            cases above
          · obtain ⟨d, also, under⟩ := inside
            have different : c ≠ d := fun equal => kept (equal ▸ List.mem_reverse.mp also)
            exact formed.grown.apart member (listed also) different below under
  constructor
  · rw [due]
    exact loop.ran
  · exact loop.registered
  · exact loop.created
  · exact loop.deferred
  · intro j
    by_cases this : j = i
    · rw [this, here]
      exact (loop.ids i).trans (by rw [taken_self])
    · rw [there _ this, loop.ids, taken_of_ne s this]
  · intro j outside
    have other : j ≠ i := fun this => outside (this ▸ .here)
    rw [there _ other, loop.elsewhere j fun inside => ?_, taken_of_ne s other]
    obtain ⟨c, member, below⟩ := inside
    exact outside (under_of_node (listed member) below)
  · intro j under
    by_cases this : j = i
    · rw [this, here]
      exact loop.stays_closed (by rw [taken_self])
    · rw [there _ this]
      cases places under this with
      | inl inside => exact loop.closed j inside
      | inr left => exact loop.stays_closed (runsTaken.closed j left.1)
  · intro j under lasting
    by_cases this : j = i
    · subst this
      refine held_after formed own loop after _ ?_
      by_cases anonymous : (s.scope j).id = []
      · have fine := lasting anonymous
        rw [if_pos anonymous, eq_comm, List.filter_eq_nil_iff]
        intro x member
        rw [Bool.not_eq_true, fails_eq_false_iff]
        intro k owed
        exact fine k (by rw [due]; exact List.mem_flatMap.mpr ⟨x, List.mem_reverse.mpr member, owed⟩)
      · rw [if_neg anonymous]
    · apply (runsKept _).held (there _ this)
      cases places under this with
      | inl inside => exact loop.held j inside ((same j).mpr lasting)
      | inr left =>
          have before := held j under
          refine loop.held_outside formedTaken after left.2.2 (fun k kept _ => ?_) (runsTaken.held (taken_of_ne s this) before)
          rw [taken_of_ne s this] at kept
          have owed : k ∈ s.due j :=
            (mem_due formed (formed.grown.lt_of_under start under) k).mpr
              ⟨before.pending k kept, j, .here, before.sub.subset kept⟩
          rw [left.2.1] at owed
          cases owed
  · intro j under fleeting
    by_cases this : j = i
    · subst this
      have anonymous : (s.scope j).id = [] := by
        by_contra named
        exact fleeting fun none => absurd none named
      rw [here, if_pos anonymous]
    · rw [there _ this]
      cases places under this with
      | inl inside => exact loop.lost j inside fun lasting => fleeting ((same j).mp lasting)
      | inr left =>
          refine absurd (fun _ k member => ?_) fleeting
          rw [left.2.1] at member
          cases member

theorem close_within_closes (fuel : Nat) {s : Scopes} {i : Nat} (formed : Formed s) (start : i < s.created)
    (enough : s.created ≤ fuel + i) (held : ∀ j, Under s.registered i j → Held s j) :
    Closes outcome s i (closeWithin outcome fuel i s) := by
  induction fuel generalizing s i with
  | zero => omega
  | succ fuel ih =>
      by_cases busy : (s.scope i).closed = true ∧ (s.scope i).cleanups = []
      · obtain ⟨empty, effect⟩ := Effect.refl_of_spent outcome formed start held busy.1 busy.2
        rw [closeWithin, if_pos busy, Closes, empty]
        exact ⟨effect, iff_of_true rfl fun _ member => nomatch member⟩
      · have own := held i .here
        have formedTaken : Formed (s.taken i) := ⟨formed.grown, formed.numbered, formed.past, formed.blank⟩
        have runsTaken := same_runs_taken i s
        have apartFrom {c j : Nat} (below : .close c ∈ s.registered i) (under : Under s.registered c j) : j ≠ i :=
          fun same => formed.grown.node_apart below (same ▸ under)
        have heldTaken (j : Nat) (under : Under s.registered i j) (other : j ≠ i) : Held (s.taken i) j :=
          runsTaken.held (taken_of_ne s other) (held j under)
        have listed {x : Cleanup} (member : x ∈ (s.scope i).cleanups.reverse) : x ∈ s.registered i :=
          own.sub.subset (List.mem_reverse.mp member)
        have effects := attempt_all_effect outcome (closeWithin outcome fuel) s.created i s.registered
          (fun t c formedT tree made below under =>
            have rises := formed.grown.rises i c below
            ih formedT (by rw [made]; exact rises.2) (by rw [made]; omega) (by rw [tree]; exact under))
          (s.scope i).cleanups.reverse formedTaken rfl rfl (fun x member => listed member)
          (List.nodup_reverse.mpr (own.sub.nodup (formed.grown.nodup i)))
          (fun c member j under => heldTaken j (under_of_node (listed member) under) (apartFrom (listed member) under))
          (fun k member => own.pending k (List.mem_reverse.mp member))
        cases loop : attemptAll outcome (closeWithin outcome fuel) (s.scope i).cleanups.reverse (s.taken i) with
        | mk next failed =>
            rw [loop] at effects
            obtain ⟨effect, names⟩ := effects
            have after : Formed next := effect.formed formedTaken fun k owed => by
              obtain ⟨x, member, owed⟩ := List.mem_flatMap.mp owed
              exact owes_lt formed (listed member) owed
            have outside : ¬ insideOf s (s.scope i).cleanups.reverse i := fun inside => by
              obtain ⟨c, member, under⟩ := inside
              exact formed.grown.node_apart (listed member) under
            obtain ⟨state, result⟩ := close_within_succ fuel i s next failed busy loop (effect.elsewhere i outside)
            have due := due_held formed start own
            have failing : (failed.map Prod.fst).reverse = (s.scope i).cleanups.filter (fails outcome s) := by
              change failed.map Prod.fst = (s.scope i).cleanups.reverse.filter (fails outcome s) at names
              rw [names, List.filter_reverse, List.reverse_reverse]
            have fine : (∀ k ∈ s.due i, outcome k = none) ↔ (s.scope i).cleanups.filter (fails outcome s) = [] := by
              rw [due, List.filter_eq_nil_iff]
              simp only [List.mem_flatMap, List.mem_reverse, forall_exists_index, and_imp, Bool.not_eq_true,
                fails_eq_false_iff]
              exact ⟨fun all x member k owed => all k x member owed, fun all k x member owed => all x member k owed⟩
            have emptied : failed = [] ↔ ∀ k ∈ s.due i, outcome k = none := by
              rw [fine, ← failing, List.reverse_eq_nil_iff, List.map_eq_nil_iff]
            rw [failing] at state
            rw [Closes, state]
            exact ⟨effect_after formed start held effect after, result.trans emptied⟩

end Brainkit.Modules.Scopes
