import Brainkit.Modules.ScopeClose

set_option autoImplicit false

namespace Brainkit.Modules.Scopes

open Function (update)
open GoText Forest Transition

-- Closing any of the scopes runs what is registered in its tree and has not succeeded, the latest first, and returns nil
-- exactly when all of that has succeeded.
def Cleans (s : Scopes) : Prop :=
  ∀ i, i < s.created → ∀ outcome,
    (s.close outcome i).1.ran = s.ran ++ (s.due i).map (fun k => (k, outcome k)) ∧
    ((s.close outcome i).2 = none ↔ (s.close outcome i).1.due i = [])

def Retains (s : Scopes) : Action → Prop
  | .close i outcome => ∀ j, Under s.registered i j → Lasts outcome s j
  | _ => True

structure Valid (s : Scopes) : Prop where
  formed : Formed s
  held : ∀ i, i < s.created → Held s i

variable {s : Scopes}

theorem valid_new : Valid new := by
  refine ⟨⟨⟨?_, ?_, ?_⟩, ?_, ?_, ?_⟩, ?_⟩
  · exact fun _ _ member => nomatch member
  · exact fun _ _ _ member _ => nomatch member
  · exact fun _ => List.nodup_nil
  · exact fun _ _ member => nomatch member
  · exact fun _ member => nomatch member
  · exact fun _ _ => rfl
  · exact fun _ within => absurd within (Nat.not_lt_zero _)

theorem closes (outcome : Nat → Option GoString) (valid : Valid s) {i : Nat} (start : i < s.created) :
    Closes outcome s i (s.close outcome i) :=
  close_within_closes s.created valid.formed start (by omega) fun j under =>
    valid.held j (valid.formed.grown.lt_of_under start under)

theorem formed_close (outcome : Nat → Option GoString) (valid : Valid s) {i : Nat} (start : i < s.created) :
    Formed (s.close outcome i).1 := by
  refine (closes outcome valid start).1.formed valid.formed fun k member => ?_
  obtain ⟨_, j, _, leaf⟩ := (mem_due valid.formed start k).mp member
  exact valid.formed.numbered j k leaf

theorem cleans (valid : Valid s) : Cleans s := by
  intro i start outcome
  obtain ⟨effect, result⟩ := closes outcome valid start
  have after := formed_close outcome valid start
  have still : i < (s.close outcome i).1.created := by rw [effect.created]; exact start
  refine ⟨effect.ran, result.trans ⟨fun fine => ?_, fun nothing k member => ?_⟩⟩
  · refine List.eq_nil_iff_forall_not_mem.mpr fun k left => ?_
    have before := effect.due_fewer valid.formed after start left
    have done := (effect.succeeded_iff k).mpr (.inr ⟨before, fine k before⟩)
    exact Bool.false_ne_true (((mem_due after still k).mp left).1.symm.trans done)
  · obtain ⟨pending, place⟩ := (mem_due valid.formed start k).mp member
    by_contra failed
    have left : k ∈ (s.close outcome i).1.due i := by
      refine (mem_due after still k).mpr ⟨Bool.eq_false_iff.mpr fun done => ?_, by rw [effect.registered]; exact place⟩
      cases (effect.succeeded_iff k).mp done with
      | inl earlier => exact Bool.false_ne_true (pending.symm.trans earlier)
      | inr now => exact failed now.2
    rw [nothing] at left
    cases left

theorem spent_scope_apart (next : Scopes) (formed : Formed s) (larger : s.created ≤ next.created) (ran : next.ran = s.ran) {c : Nat}
    (start : c < s.created) (registered : ∀ j, (s.scope j).closed = true → j < s.created → next.registered j = s.registered j)
    (closed : ∀ j, (s.scope j).closed = true → j < s.created → (next.scope j).closed = true) (spent : s.Spent (.close c)) :
    next.Spent (.close c) := by
  obtain ⟨nothing, shut⟩ := spent
  have same (j : Nat) (under : Under s.registered c j) : next.registered j = s.registered j :=
    registered j (shut j under) (formed.grown.lt_of_under start under)
  constructor
  · have keep : next.succeeded = s.succeeded := by
      funext k
      rw [succeeded, succeeded, ran]
    rw [due, latest_same same, keep, formed.grown.latest_enough s.created (by omega) (by omega) start]
    exact nothing
  · intro j under
    have before := under_same same under
    exact closed j (shut j before) (formed.grown.lt_of_under start before)

theorem spent_apart (next : Scopes) (formed : Formed s) (larger : s.created ≤ next.created) (ran : next.ran = s.ran) {i : Nat}
    {x : Cleanup}
    (member : x ∈ s.registered i)
    (registered : ∀ j, (s.scope j).closed = true → j < s.created → next.registered j = s.registered j)
    (closed : ∀ j, (s.scope j).closed = true → j < s.created → (next.scope j).closed = true) (spent : s.Spent x) :
    next.Spent x := by
  cases x with
  | leaf k =>
      change next.succeeded k = true
      rw [succeeded, ran]
      exact spent
  | node c => exact spent_scope_apart next formed larger ran (formed.grown.rises i c member).2 registered closed spent

theorem held_apart (next : Scopes) (formed : Formed s) (larger : s.created ≤ next.created) (ran : next.ran = s.ran)
    (registered : ∀ j, (s.scope j).closed = true → j < s.created → next.registered j = s.registered j)
    (closed : ∀ j, (s.scope j).closed = true → j < s.created → (next.scope j).closed = true) {i : Nat}
    (scope : next.scope i = s.scope i) (own : next.registered i = s.registered i) (held : Held s i) : Held next i := by
  constructor
  · rw [scope, own]
    exact held.sub
  · intro k member
    rw [scope] at member
    rw [succeeded, ran]
    exact held.pending k member
  · intro x member absent
    rw [own] at member
    rw [scope] at absent
    exact spent_apart next formed larger ran member registered closed (held.spent x member absent)

theorem valid_new_scope (valid : Valid s) (id : GoString) : Valid (s.newScope id) := by
  obtain ⟨formed, held⟩ := valid
  have old {j : Nat} (within : j < s.created) : (s.newScope id).scope j = s.scope j :=
    Function.update_of_ne (Nat.ne_of_lt within) _ _
  refine ⟨⟨⟨fun i c member => ?_, formed.grown.single, formed.grown.nodup⟩, formed.numbered, formed.past, fun i above => ?_⟩,
    fun i within => ?_⟩
  · obtain ⟨rises, within⟩ := formed.grown.rises i c member
    exact ⟨rises, Nat.lt_succ_of_lt within⟩
  · exact formed.blank i (Nat.le_of_succ_le above)
  · cases Nat.lt_succ_iff_lt_or_eq.mp within with
    | inl before =>
        refine held_apart (s.newScope id) formed (Nat.le_succ _) rfl (fun _ _ _ => rfl) (fun j shut here => ?_) (old before) rfl
          (held i before)
        rw [old here]
        exact shut
    | inr new =>
        have empty := formed.blank i (Nat.le_of_eq new.symm)
        have scope : (s.newScope id).scope i = ⟨id, [], false⟩ := by
          rw [new]
          exact Function.update_self _ _ _
        constructor
        · rw [scope]
          exact List.nil_sublist _
        · intro k member
          rw [scope] at member
          cases member
        · intro x member
          change x ∈ s.registered i at member
          rw [empty] at member
          cases member

theorem valid_append (valid : Valid s) {i : Nat} {x : Cleanup} (opened : (s.scope i).closed = false)
    (fresh : ∀ j, x ∉ s.registered j) (start : i < s.created) (rises : ∀ c, x = .close c → i < c ∧ c < s.created)
    (deferred : Nat) (more : s.deferred ≤ deferred) (numbered : ∀ k, x = .fn k → s.succeeded k = false ∧ k < deferred) :
    Valid { s.append i x with deferred := deferred } := by
  obtain ⟨formed, held⟩ := valid
  let next : Scopes := { s.append i x with deferred := deferred }
  have other {j : Nat} (different : j ≠ i) : (s.append i x).registered j = s.registered j :=
    Function.update_of_ne different _ _
  have others {j : Nat} (different : j ≠ i) : (s.append i x).scope j = s.scope j := Function.update_of_ne different _ _
  have own : (s.append i x).registered i = s.registered i ++ [x] := Function.update_self _ _ _
  have scope : (s.append i x).scope i = { s.scope i with cleanups := (s.scope i).cleanups ++ [x] } :=
    Function.update_self _ _ _
  have shut {j : Nat} (closed : (s.scope j).closed = true) : j ≠ i := by
    intro same
    rw [same, opened] at closed
    cases closed
  have stays (m : Nat) (closed : (s.scope m).closed = true) (_ : m < s.created) : (next.scope m).closed = true := by
    change ((s.append i x).scope m).closed = true
    rw [others (shut closed)]
    exact closed
  constructor
  · constructor
    · exact formed.grown.add fresh (Nat.le_refl _) rises
    · intro j k member
      by_cases same : j = i
      · change Item.leaf k ∈ (s.append i x).registered j at member
        rw [same, own] at member
        cases List.mem_append.mp member with
        | inl before => exact Nat.lt_of_lt_of_le (formed.numbered i k before) more
        | inr new => exact (numbered k (List.mem_singleton.mp new).symm).2
      · change Item.leaf k ∈ (s.append i x).registered j at member
        rw [other same] at member
        exact Nat.lt_of_lt_of_le (formed.numbered j k member) more
    · exact fun entry member => Nat.lt_of_lt_of_le (formed.past entry member) more
    · intro j above
      have different : j ≠ i := Nat.ne_of_gt (Nat.lt_of_lt_of_le start above)
      exact (other different).trans (formed.blank j above)
  · intro j within
    by_cases same : j = i
    · subst same
      have before := held j within
      constructor
      · change ((s.append j x).scope j).cleanups.Sublist ((s.append j x).registered j)
        rw [own, scope]
        exact before.sub.append (List.Sublist.refl _)
      · intro k member
        change Item.leaf k ∈ ((s.append j x).scope j).cleanups at member
        rw [scope] at member
        cases List.mem_append.mp member with
        | inl kept => exact before.pending k kept
        | inr new => exact (numbered k (List.mem_singleton.mp new).symm).1
      · intro y member absent
        change y ∈ (s.append j x).registered j at member
        change y ∉ ((s.append j x).scope j).cleanups at absent
        rw [own] at member
        rw [scope] at absent
        have listed : y ∈ s.registered j := by
          cases List.mem_append.mp member with
          | inl earlier => exact earlier
          | inr new => exact absurd (List.mem_append_right _ new) absent
        exact spent_apart next formed (Nat.le_refl _) rfl listed (fun m closed _ => other (shut closed)) stays
          (before.spent y listed fun kept => absent (List.mem_append_left _ kept))
    · exact held_apart next formed (Nat.le_refl _) rfl (fun m closed _ => other (shut closed)) stays (others same)
        (other same) (held j within)

theorem valid_defer (valid : Valid s) {i : Nat} (start : i < s.created) (isNil : Bool) : Valid (s.defer i isNil) := by
  unfold defer
  split
  · exact valid
  next accepted =>
    obtain ⟨_, opened⟩ := Bool.or_eq_false_iff.mp (Bool.eq_false_iff.mpr accepted)
    have fresh (j : Nat) : .fn s.deferred ∉ s.registered j := fun member =>
      Nat.lt_irrefl _ (valid.formed.numbered j s.deferred member)
    refine valid_append valid opened fresh start nofun (s.deferred + 1) (Nat.le_succ _) fun k same => ?_
    obtain rfl : s.deferred = k := Item.leaf.inj same
    refine ⟨decide_eq_false fun member => ?_, Nat.lt_succ_self _⟩
    exact Nat.lt_irrefl _ (valid.formed.past _ member)

theorem valid_child (valid : Valid s) {i : Nat} (start : i < s.created) (id : GoString) : Valid (s.child i id) := by
  unfold child
  dsimp only
  generalize (if (s.scope i).id ≠ [] ∧ id ≠ [] then (s.scope i).id ++ lit "/" ++ id else id) = childID
  have after := valid_new_scope valid childID
  split
  · exact after
  next accepted =>
    have opened : ((s.newScope childID).scope i).closed = false := by
      change (update s.scope s.created _ i).closed = false
      rw [Function.update_of_ne (Nat.ne_of_lt start)]
      exact Bool.eq_false_iff.mpr accepted
    have fresh (j : Nat) : .close s.created ∉ s.registered j := fun member =>
      Nat.lt_irrefl _ (valid.formed.grown.rises j s.created member).2
    refine valid_append after opened fresh (Nat.lt_succ_of_lt start) (fun c same => ?_) s.deferred (Nat.le_refl _) nofun
    obtain rfl : s.created = c := Item.node.inj same
    exact ⟨start, Nat.lt_succ_self _⟩

theorem valid_close {outcome : Nat → Option GoString} (valid : Valid s) {i : Nat} (start : i < s.created)
    (retains : s.Retains (.close i outcome)) :
    Valid (s.close outcome i).1 := by
  have effect := (closes outcome valid start).1
  have after := formed_close outcome valid start
  refine ⟨after, fun j within => ?_⟩
  rw [effect.created] at within
  by_cases under : Under s.registered i j
  · exact effect.held j under (retains j under)
  · have held := valid.held j within
    refine effect.held_outside valid.formed after under (fun k kept owed => ?_) held
    obtain ⟨_, m, inside, leaf⟩ := (mem_due valid.formed start k).mp owed
    rw [valid.formed.grown.single _ _ _ leaf (held.sub.subset kept)] at inside
    exact under inside

theorem not_cleans {outcome : Nat → Option GoString} (valid : Valid s) {i : Nat} (start : i < s.created)
    (loses : ¬ s.Retains (.close i outcome)) :
    ¬ Cleans (s.close outcome i).1 := by
  obtain ⟨effect, _⟩ := closes outcome valid start
  have after := formed_close outcome valid start
  intro cleans
  apply loses
  intro j under
  by_contra fleeting
  have within : j < (s.close outcome i).1.created := by
    rw [effect.created]
    exact valid.formed.grown.lt_of_under start under
  have nothing := effect.lost j under fleeting
  have done := effect.closed j under
  have idle : (s.close outcome i).1.close outcome j = ((s.close outcome i).1, none) := by
    obtain ⟨fuel, made⟩ := Nat.exists_eq_succ_of_ne_zero (Nat.ne_zero_of_lt within)
    rw [close, made, closeWithin, if_pos ⟨done, nothing⟩]
  obtain ⟨ran, _⟩ := cleans j within outcome
  rw [idle, List.self_eq_append_right, List.map_eq_nil_iff] at ran
  apply fleeting
  intro _ k member
  by_contra failed
  obtain ⟨pending, place⟩ := (mem_due valid.formed (valid.formed.grown.lt_of_under start under) k).mp member
  have left : k ∈ (s.close outcome i).1.due j := by
    refine (mem_due after within k).mpr ⟨Bool.eq_false_iff.mpr fun ok => ?_, by rw [effect.registered]; exact place⟩
    cases (effect.succeeded_iff k).mp ok with
    | inl earlier => exact Bool.false_ne_true (pending.symm.trans earlier)
    | inr now => exact failed now.2
  rw [ran] at left
  cases left

theorem retains_iff {next : Scopes} (valid : Valid s) (action : Action) (taken : step s action = some next) :
    (Cleans next ↔ s.Retains action) ∧ (s.Retains action → Valid next) := by
  cases action with
  | newScope id =>
      obtain rfl := Option.some.inj taken
      have after := valid_new_scope valid id
      exact ⟨iff_of_true (cleans after) trivial, fun _ => after⟩
  | child i id =>
      obtain ⟨start, same⟩ := Option.ite_none_right_eq_some.mp taken
      obtain rfl := Option.some.inj same
      have after := valid_child valid start id
      exact ⟨iff_of_true (cleans after) trivial, fun _ => after⟩
  | defer i isNil =>
      obtain ⟨start, same⟩ := Option.ite_none_right_eq_some.mp taken
      obtain rfl := Option.some.inj same
      have after := valid_defer valid start isNil
      exact ⟨iff_of_true (cleans after) trivial, fun _ => after⟩
  | close i outcome =>
      obtain ⟨start, same⟩ := Option.ite_none_right_eq_some.mp taken
      obtain rfl := Option.some.inj same
      refine ⟨⟨fun clean => ?_, fun retains => cleans (valid_close valid start retains)⟩, valid_close valid start⟩
      by_contra loses
      exact not_cleans valid start loses clean

theorem always_cleans_iff {path : List Action} {final : Scopes} (reached : run step new path = some final) :
    Always step Cleans new path ↔ Along step Retains new path :=
  always_iff_along_held
    (fun _ action _ (valid : Valid _) _ clean taken =>
      have exactly := retains_iff valid action taken
      exactly.2 (exactly.1.mp clean))
    (fun _ action _ valid _ taken => (retains_iff valid action taken).1) valid_new (cleans valid_new) reached

def retried (id : GoString) : List Action :=
  [.newScope id, .defer 0 false, .defer 0 false, .close 0 fun k => if k = 1 then some (lit "close failed") else none]

theorem named_retried : Always step Cleans new (retried (lit "retry")) := by
  refine (always_cleans_iff rfl).mpr ?_
  refine along_cons trivial rfl (along_cons trivial rfl (along_cons trivial rfl (along_cons ?_ rfl trivial)))
  intro j under
  cases under_cases under with
  | inl same =>
      intro none
      rw [same] at none
      cases none
  | inr later =>
      obtain ⟨c, member, _⟩ := later
      cases member with
      | tail _ member => cases member with
          | tail _ member => cases member

-- A scope without an id: the cleanup that has failed is not run again, and the next Close returns nil.
theorem anonymous_lost : ∃ s, run step new (retried []) = some s ∧ s.due 0 = [1] ∧
    (s.close (fun _ => none) 0).1.ran = s.ran ∧ (s.close (fun _ => none) 0).2 = none ∧ ¬ Cleans s := by
  refine ⟨_, rfl, by decide, rfl, rfl, fun cleans => ?_⟩
  have ran := (cleans 0 (by decide) fun _ => none).1
  exact absurd ran (by decide)

end Brainkit.Modules.Scopes
