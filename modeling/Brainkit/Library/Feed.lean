import Mathlib.Logic.Function.Basic

set_option autoImplicit false

universe u

-- What one receiver of a channel is given: the items that waited for it (inherited), of which replay is still to be
-- handed over, and the items that came later, which their senders carry to it one by one.
structure Feed (α : Type u) where
  inherited : List α
  later : List α
  replay : List α
  underway : Nat → List α
  accepted : List α
  live : Bool

namespace Feed

open Function (update)

variable {α : Type u} (sender : α → Nat)

def sentBy (p : Nat) (items : List α) : List α := items.filter fun item => sender item = p

@[simp] theorem sent_by_nil (p : Nat) : sentBy sender p [] = [] := rfl

@[simp] theorem sent_by_append (p : Nat) (first second : List α) :
    sentBy sender p (first ++ second) = sentBy sender p first ++ sentBy sender p second :=
  List.filter_append ..

theorem sent_by_own (item : α) : sentBy sender (sender item) [item] = [item] := by simp [sentBy]

theorem sent_by_other (p : Nat) (item : α) (other : p ≠ sender item) : sentBy sender p [item] = [] := by
  simp [sentBy, Ne.symm other]

-- A receiver that has gone may miss items; no other does.
inductive Step (a : Feed α) : Feed α → Prop where
  | stays : Step a a
  | dies : Step a { a with live := false }
  | hands (item : α) (rest : List α) (next : a.replay = item :: rest) :
      Step a { a with replay := rest, accepted := a.accepted ++ [item] }
  | breaks (dead : a.live = false) : Step a { a with replay := [] }
  | sends (item : α) (idle : a.underway (sender item) = []) :
      Step a { a with later := a.later ++ [item], underway := update a.underway (sender item) [item] }
  | arrives (item : α) (moving : a.underway (sender item) = [item]) (caughtUp : a.replay = []) :
      Step a { a with accepted := a.accepted ++ [item], underway := update a.underway (sender item) [] }
  | misses (p : Nat) (dead : a.live = false) : Step a { a with underway := update a.underway p [] }

-- A later item may also be given to the receiver in the middle of the replay.
inductive Loose (a : Feed α) : Feed α → Prop where
  | step (b : Feed α) (step : Step sender a b) : Loose a b
  | overtakes (item : α) (moving : a.underway (sender item) = [item]) (behind : a.replay ≠ []) :
      Loose a { a with accepted := a.accepted ++ [item], underway := update a.underway (sender item) [] }

theorem loose_inherited (a b : Feed α) (loose : Loose sender a b) : b.inherited = a.inherited := by
  cases loose with
  | step _ step => cases step <;> rfl
  | overtakes item moving behind => rfl

structure Split (a : Feed α) (handed direct : List α) : Prop where
  accepted : a.accepted = handed ++ direct
  given : handed ++ a.replay <+: a.inherited
  complete : a.live = true → handed ++ a.replay = a.inherited
  apart : direct = [] ∨ a.replay = []
  sublist : ∀ p, (sentBy sender p direct ++ a.underway p).Sublist (sentBy sender p a.later)
  exact : a.live = true → ∀ p, sentBy sender p direct ++ a.underway p = sentBy sender p a.later

def Ordered (a : Feed α) : Prop := ∃ handed direct, Split sender a handed direct

theorem opened_ordered (items : List α) (live : Bool) : Ordered sender ⟨items, [], items, fun _ => [], [], live⟩ :=
  ⟨[], [], rfl, List.prefix_rfl, fun _ => rfl, .inl rfl, fun _ => List.Sublist.refl _, fun _ _ => rfl⟩

theorem sends_direct (a : Feed α) (item : α) (direct : List α) (p : Nat) (idle : a.underway (sender item) = []) :
    sentBy sender p direct ++ update a.underway (sender item) [item] p =
      (sentBy sender p direct ++ a.underway p) ++ sentBy sender p [item] := by
  by_cases own : p = sender item
  · subst own
    simp [idle, sent_by_own]
  · simp [Function.update_of_ne own, sent_by_other sender p item own]

theorem arrives_direct (a : Feed α) (item : α) (direct : List α) (p : Nat) (moving : a.underway (sender item) = [item]) :
    sentBy sender p (direct ++ [item]) ++ update a.underway (sender item) [] p =
      sentBy sender p direct ++ a.underway p := by
  by_cases own : p = sender item
  · subst own
    simp [moving, sent_by_own]
  · simp [Function.update_of_ne own, sent_by_other sender p item own]

theorem ordered_step (a b : Feed α) (ordered : Ordered sender a) (step : Step sender a b) : Ordered sender b := by
  obtain ⟨handed, direct, accepted, given, complete, apart, sublist, exact⟩ := ordered
  cases step with
  | stays => exact ⟨handed, direct, accepted, given, complete, apart, sublist, exact⟩
  | dies => exact ⟨handed, direct, accepted, given, fun no => (nomatch no), apart, sublist, fun no => (nomatch no)⟩
  | hands item rest next =>
      have none_direct : direct = [] := apart.resolve_right (by simp [next])
      subst none_direct
      have moved : (handed ++ [item]) ++ rest = handed ++ a.replay := by simp [next]
      exact ⟨handed ++ [item], [], by simp [accepted], moved ▸ given, fun alive => moved.trans (complete alive), .inl rfl,
        sublist, exact⟩
  | breaks dead =>
      refine ⟨handed, direct, accepted, ?_, fun alive => ?_, .inr rfl, sublist, exact⟩
      · rw [List.append_nil]
        exact (List.prefix_append handed a.replay).trans given
      · exact absurd (dead.symm.trans alive) (by decide)
  | sends item idle =>
      refine ⟨handed, direct, accepted, given, complete, apart, fun p => ?_, fun alive p => ?_⟩
      · rw [sends_direct sender a item direct p idle, sent_by_append]
        exact (sublist p).append (List.Sublist.refl _)
      · rw [sends_direct sender a item direct p idle, sent_by_append, exact alive p]
  | arrives item moving caughtUp =>
      refine ⟨handed, direct ++ [item], by simp [accepted], given, complete, .inr caughtUp, fun p => ?_, fun alive p => ?_⟩
      · rw [arrives_direct sender a item direct p moving]
        exact sublist p
      · rw [arrives_direct sender a item direct p moving, exact alive p]
  | misses p dead =>
      refine ⟨handed, direct, accepted, given, complete, apart, fun q => ?_, fun alive => ?_⟩
      · refine List.Sublist.trans ?_ (sublist q)
        refine (List.Sublist.refl _).append ?_
        by_cases same : q = p
        · simp [same]
        · simp [Function.update_of_ne same]
      · exact absurd (dead.symm.trans alive) (by decide)

theorem ordered_inherited (a : Feed α) (ordered : Ordered sender a) (alive : a.live = true) :
    a.accepted <+: a.inherited ∨ a.inherited <+: a.accepted := by
  obtain ⟨handed, direct, accepted, given, complete, apart, -, -⟩ := ordered
  rcases apart with rfl | caughtUp
  · left
    rw [accepted, List.append_nil]
    exact (List.prefix_append handed a.replay).trans given
  · right
    have all : handed = a.inherited := by simpa [caughtUp] using complete alive
    rw [accepted, all]
    exact List.prefix_append a.inherited direct

theorem ordered_once (a : Feed α) (ordered : Ordered sender a) (alive : a.live = true) (p : Nat) :
    sentBy sender p a.accepted ++ (sentBy sender p a.replay ++ a.underway p) = sentBy sender p (a.inherited ++ a.later) := by
  obtain ⟨handed, direct, accepted, -, complete, apart, -, exact⟩ := ordered
  rw [accepted, sent_by_append, sent_by_append, ← complete alive, ← exact alive p]
  rcases apart with rfl | caughtUp
  · simp
  · simp [caughtUp]

theorem ordered_sublist (a : Feed α) (ordered : Ordered sender a) (p : Nat) :
    (sentBy sender p a.accepted).Sublist (sentBy sender p (a.inherited ++ a.later)) := by
  obtain ⟨handed, direct, accepted, given, -, -, sublist, -⟩ := ordered
  have within : handed.Sublist a.inherited := ((List.prefix_append handed a.replay).trans given).sublist
  rw [accepted, sent_by_append, sent_by_append]
  exact (within.filter _).append ((List.sublist_append_left _ _).trans (sublist p))

theorem ordered_room (a : Feed α) (ordered : Ordered sender a) (behind : a.replay ≠ []) :
    a.accepted.length < a.inherited.length := by
  obtain ⟨handed, direct, accepted, given, -, apart, -, -⟩ := ordered
  obtain rfl := apart.resolve_right behind
  have within := given.length_le
  have more := List.length_pos_iff.mpr behind
  rw [List.length_append] at within
  rw [accepted, List.append_nil]
  omega

def Kept (a : Feed α) : Prop :=
  ∃ handed, handed.Sublist a.accepted ∧ (a.live = true → handed ++ a.replay = a.inherited)

theorem opened_kept (items : List α) (live : Bool) : Kept ⟨items, [], items, fun _ => [], [], live⟩ :=
  ⟨[], List.Sublist.refl _, fun _ => rfl⟩

theorem kept_loose (a b : Feed α) (kept : Kept a) (loose : Loose sender a b) : Kept b := by
  obtain ⟨handed, within, complete⟩ := kept
  have longer : ∀ item, handed.Sublist (a.accepted ++ [item]) := fun item => within.trans (List.sublist_append_left _ _)
  cases loose with
  | overtakes item moving behind => exact ⟨handed, longer item, complete⟩
  | step _ step =>
      cases step with
      | stays => exact ⟨handed, within, complete⟩
      | dies => exact ⟨handed, within, fun no => (nomatch no)⟩
      | hands item rest next =>
          refine ⟨handed ++ [item], within.append (List.Sublist.refl _), fun alive => ?_⟩
          rw [List.append_assoc, List.singleton_append, ← next]
          exact complete alive
      | breaks dead => exact ⟨handed, within, fun alive => absurd (dead.symm.trans alive) (by decide)⟩
      | sends item idle => exact ⟨handed, within, complete⟩
      | arrives item moving caughtUp => exact ⟨handed, longer item, complete⟩
      | misses p dead => exact ⟨handed, within, complete⟩

theorem kept_inherited (a : Feed α) (kept : Kept a) (alive : a.live = true) :
    a.inherited.Sublist (a.accepted ++ a.replay) := by
  obtain ⟨handed, within, complete⟩ := kept
  rw [← complete alive]
  exact within.append (List.Sublist.refl _)

end Feed
