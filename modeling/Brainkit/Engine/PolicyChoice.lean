import Mathlib.Data.List.Nodup
import Brainkit.Engine.HandlerFailure

set_option autoImplicit false

namespace Brainkit.Engine.PolicyChoice

open GoText

section

variable {Policy : Type}

structure Policies (Policy : Type) where
  entries : List (GoString × Policy)
  unique : (entries.map Prod.fst).Nodup

def covers (pattern topic : GoString) : Prop := lit ".*" <:+ pattern ∧ pattern.dropLast <+: topic

instance (pattern topic : GoString) : Decidable (covers pattern topic) := inferInstanceAs (Decidable (_ ∧ _))

def lookup (order : List (GoString × Policy)) (topic : GoString) : Option Policy :=
  (order.find? fun entry => entry.1 = topic).map Prod.snd

def matched (order : List (GoString × Policy)) (topic : GoString) : Option Policy :=
  (order.find? fun entry => covers entry.1 topic).map Prod.snd

def OrderFree (policies : Policies Policy) (topic : GoString) : Prop :=
  ∀ first second : List (GoString × Policy), first.Perm policies.entries → second.Perm policies.entries →
    findRetryPolicy first topic = findRetryPolicy second topic

theorem findRetryPolicy_or (order : List (GoString × Policy)) (topic : GoString) :
    findRetryPolicy order topic = (lookup order topic).or (matched order topic) := by
  unfold findRetryPolicy lookup matched
  cases order.find? fun entry => entry.1 = topic <;> rfl

theorem lookup_some {order : List (GoString × Policy)} {topic : GoString} {p : Policy}
    (unique : (order.map Prod.fst).Nodup) (member : (topic, p) ∈ order) : lookup order topic = some p := by
  unfold lookup
  cases found : order.find? fun entry => entry.1 = topic with
  | none =>
      have missed := List.find?_eq_none.mp found (topic, p) member
      simp at missed
  | some entry =>
      have here : entry.1 = topic := by simpa using List.find?_some found
      have same : entry = (topic, p) := List.inj_on_of_nodup_map unique (List.mem_of_find?_eq_some found) member here
      rw [same]
      rfl

theorem lookup_none {order : List (GoString × Policy)} {topic : GoString} (absent : ∀ p, (topic, p) ∉ order) :
    lookup order topic = none := by
  unfold lookup
  rw [Option.map_eq_none_iff, List.find?_eq_none]
  intro entry member same
  rw [decide_eq_true_eq] at same
  exact absent entry.2 (same ▸ member)

theorem begins_with {policies : Policies Policy} {topic : GoString} {entry : GoString × Policy} (member : entry ∈ policies.entries)
    (covering : covers entry.1 topic) (absent : ∀ p, (topic, p) ∉ policies.entries) :
    ∃ order : List (GoString × Policy), order.Perm policies.entries ∧ findRetryPolicy order topic = some entry.2 := by
  obtain ⟨before, after, split⟩ := List.append_of_mem member
  have perm : (entry :: (before ++ after)).Perm policies.entries := by
    rw [split]
    exact List.perm_middle.symm
  refine ⟨entry :: (before ++ after), perm, ?_⟩
  have elsewhere : ∀ p, (topic, p) ∉ entry :: (before ++ after) := fun p here => absent p (perm.mem_iff.mp here)
  rw [findRetryPolicy_or, lookup_none elsewhere, matched, List.find?_cons_of_pos (by simpa using covering)]
  rfl

theorem orderFree_listed {policies : Policies Policy} {topic : GoString} {p : Policy} (listed : (topic, p) ∈ policies.entries) :
    OrderFree policies topic := by
  have chosen : ∀ order : List (GoString × Policy), order.Perm policies.entries → findRetryPolicy order topic = some p := by
    intro order perm
    have unique : (order.map Prod.fst).Nodup := (perm.map Prod.fst).nodup_iff.mpr policies.unique
    rw [findRetryPolicy_or, lookup_some unique (perm.mem_iff.mpr listed)]
    rfl
  intro first second firstPerm secondPerm
  rw [chosen first firstPerm, chosen second secondPerm]

theorem matched_mem {order : List (GoString × Policy)} {topic : GoString} {p : Policy} (chosen : matched order topic = some p) :
    ∃ entry ∈ order, covers entry.1 topic ∧ entry.2 = p := by
  obtain ⟨entry, found, same⟩ := Option.map_eq_some_iff.mp chosen
  have covering : covers entry.1 topic := by simpa using List.find?_some found
  exact ⟨entry, List.mem_of_find?_eq_some found, covering, same⟩

theorem matched_none {order : List (GoString × Policy)} {topic : GoString} (chosen : matched order topic = none) :
    ∀ entry ∈ order, ¬ covers entry.1 topic := by
  intro entry member covering
  have missed := List.find?_eq_none.mp (Option.map_eq_none_iff.mp chosen) entry member
  exact missed (decide_eq_true covering)

theorem orderFree_agreed {policies : Policies Policy} {topic : GoString} (absent : ∀ p, (topic, p) ∉ policies.entries)
    (agreed : ∀ one ∈ policies.entries, ∀ two ∈ policies.entries, covers one.1 topic → covers two.1 topic → one.2 = two.2) :
    OrderFree policies topic := by
  intro first second firstPerm secondPerm
  have plain : ∀ order : List (GoString × Policy), order.Perm policies.entries →
      findRetryPolicy order topic = matched order topic := by
    intro order perm
    rw [findRetryPolicy_or, lookup_none fun p here => absent p (perm.mem_iff.mp here)]
    rfl
  rw [plain first firstPerm, plain second secondPerm]
  cases one : matched first topic with
  | none =>
      cases two : matched second topic with
      | none => rfl
      | some q =>
          obtain ⟨entry, member, covering, -⟩ := matched_mem two
          exact absurd covering (matched_none one entry (firstPerm.mem_iff.mpr (secondPerm.mem_iff.mp member)))
  | some p =>
      obtain ⟨entry, member, covering, rfl⟩ := matched_mem one
      cases two : matched second topic with
      | none => exact absurd covering (matched_none two entry (secondPerm.mem_iff.mpr (firstPerm.mem_iff.mp member)))
      | some q =>
          obtain ⟨other, otherMember, otherCovering, rfl⟩ := matched_mem two
          exact congrArg some
            (agreed entry (firstPerm.mem_iff.mp member) other (secondPerm.mem_iff.mp otherMember) covering otherCovering)

theorem orderFree_iff (policies : Policies Policy) (topic : GoString) :
    OrderFree policies topic ↔ (∃ p, (topic, p) ∈ policies.entries) ∨
      ∀ one ∈ policies.entries, ∀ two ∈ policies.entries, covers one.1 topic → covers two.1 topic → one.2 = two.2 := by
  constructor
  · intro free
    by_cases listed : ∃ p, (topic, p) ∈ policies.entries
    · exact .inl listed
    · refine .inr fun one oneMember two twoMember oneCovers twoCovers => ?_
      have absent : ∀ p, (topic, p) ∉ policies.entries := not_exists.mp listed
      obtain ⟨first, firstPerm, firstChosen⟩ := begins_with oneMember oneCovers absent
      obtain ⟨second, secondPerm, secondChosen⟩ := begins_with twoMember twoCovers absent
      have same := free first second firstPerm secondPerm
      rw [firstChosen, secondChosen] at same
      exact Option.some.inj same
  · rintro (⟨p, listed⟩ | agreed)
    · exact orderFree_listed listed
    · by_cases listed : ∃ p, (topic, p) ∈ policies.entries
      · obtain ⟨p, here⟩ := listed
        exact orderFree_listed here
      · exact orderFree_agreed (not_exists.mp listed) agreed

end

def overlapping : Policies RetryPolicy where
  entries := [(lit "a.*", ⟨1, []⟩), (lit "a.b.*", ⟨2, []⟩)]
  unique := by decide +kernel

-- A topic under both patterns.
theorem overlapping_ordered : ¬ OrderFree overlapping (lit "a.b.c") := by
  intro free
  have same := free overlapping.entries overlapping.entries.reverse (.refl _) (List.reverse_perm _)
  exact absurd same (by decide +kernel)

end Brainkit.Engine.PolicyChoice
