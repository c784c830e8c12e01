import Mathlib.Data.List.Nodup

set_option autoImplicit false

universe u v

-- Trees that grow under numbered nodes: each node lists its leaves and the nodes below it in the order in which they
-- have come.
namespace Forest

inductive Item where
  | leaf (k : Nat)
  | node (c : Nat)
deriving DecidableEq

structure Grown (items : Nat → List Item) (size : Nat) : Prop where
  rises : ∀ i c, .node c ∈ items i → i < c ∧ c < size
  single : ∀ i j x, x ∈ items i → x ∈ items j → i = j
  nodup : ∀ i, (items i).Nodup

inductive Under (items : Nat → List Item) (i : Nat) : Nat → Prop where
  | here : Under items i i
  | child {j c : Nat} (above : Under items i j) (member : .node c ∈ items j) : Under items i c

-- The leaves under a node that are kept, the latest first. Every level of the tree takes one of fuel.
def latestWithin (items : Nat → List Item) (keep : Nat → Bool) : Nat → Nat → List Nat
  | 0, _ => []
  | fuel + 1, i => (items i).reverse.flatMap fun
      | .leaf k => if keep k then [k] else []
      | .node c => latestWithin items keep fuel c

def leavesOf (items : Nat → List Item) (keep : Nat → Bool) (fuel : Nat) : Item → List Nat
  | .leaf k => if keep k then [k] else []
  | .node c => latestWithin items keep fuel c

def Holds (items : Nat → List Item) (x : Item) (k : Nat) : Prop :=
  match x with
  | .leaf other => other = k
  | .node c => ∃ j, Under items c j ∧ .leaf k ∈ items j

theorem latest_within_succ (items : Nat → List Item) (keep : Nat → Bool) (fuel i : Nat) :
    latestWithin items keep (fuel + 1) i = (items i).reverse.flatMap (leavesOf items keep fuel) := by
  rw [latestWithin]
  apply List.flatMap_congr
  intro x _
  cases x with
  | leaf => rfl
  | node => rfl

theorem under_trans {items : Nat → List Item} {i j k : Nat} (first : Under items i j) (second : Under items j k) :
    Under items i k := by
  induction second with
  | here => exact first
  | child _ member ih => exact .child ih member

theorem under_of_node {items : Nat → List Item} {i c j : Nat} (member : .node c ∈ items i) (inside : Under items c j) :
    Under items i j :=
  under_trans (.child .here member) inside

theorem under_cases {items : Nat → List Item} {i j : Nat} (inside : Under items i j) :
    j = i ∨ ∃ c, .node c ∈ items i ∧ Under items c j := by
  induction inside with
  | here => exact .inl rfl
  | child above member ih =>
      cases ih with
      | inl same => exact .inr ⟨_, same ▸ member, .here⟩
      | inr later =>
          obtain ⟨c, first, inside⟩ := later
          exact .inr ⟨c, first, .child inside member⟩

theorem under_same {items itemsNext : Nat → List Item} {i j : Nat} (same : ∀ j, Under items i j → itemsNext j = items j)
    (inside : Under itemsNext i j) : Under items i j := by
  induction inside with
  | here => exact .here
  | child _ member ih =>
      rw [same _ ih] at member
      exact .child ih member

theorem under_mono {items itemsNext : Nat → List Item} {i j : Nat} (more : ∀ m c, .node c ∈ items m → .node c ∈ itemsNext m)
    (inside : Under items i j) : Under itemsNext i j := by
  induction inside with
  | here => exact .here
  | child _ member ih => exact .child ih (more _ _ member)

theorem under_fresh {items itemsNext : Nat → List Item} {n i j : Nat}
    (fresh : ∀ m c, .node c ∈ itemsNext m → .node c ∈ items m ∨ c = n) (bare : ∀ c, .node c ∉ itemsNext n)
    (inside : Under itemsNext i j) : Under items i j ∨ j = n := by
  induction inside with
  | here => exact .inl .here
  | child _ member ih =>
      cases ih with
      | inl before => exact (fresh _ _ member).imp_left (.child before)
      | inr same => exact absurd (same ▸ member) (bare _)

theorem under_root {items : Nat → List Item} {t i : Nat} (root : ∀ j, .node t ∉ items j) (inside : Under items i t) : i = t := by
  cases inside with
  | here => rfl
  | child _ member => exact absurd member (root _)

theorem latest_same {items itemsNext : Nat → List Item} {keep : Nat → Bool} {fuel i : Nat}
    (same : ∀ j, Under items i j → itemsNext j = items j) :
    latestWithin itemsNext keep fuel i = latestWithin items keep fuel i := by
  induction fuel generalizing i with
  | zero => rfl
  | succ fuel ih =>
      rw [latest_within_succ, latest_within_succ, same i .here]
      apply List.flatMap_congr
      intro x member
      rw [List.mem_reverse] at member
      cases x with
      | leaf => rfl
      | node c => exact ih fun j under => same j (under_of_node member under)

theorem flatMap_sublist {α : Type u} {β : Type v} {f : α → List β} {part whole : List α} (sub : part.Sublist whole)
    (nodup : whole.Nodup) (empty : ∀ x ∈ whole, x ∉ part → f x = []) : part.flatMap f = whole.flatMap f := by
  induction sub with
  | slnil => rfl
  | @cons part whole x sub ih =>
      obtain ⟨fresh, nodup⟩ := List.nodup_cons.mp nodup
      have nothing : f x = [] := empty x List.mem_cons_self fun member => fresh (sub.subset member)
      rw [List.flatMap_cons, nothing, List.nil_append]
      exact ih nodup fun y member => empty y (List.mem_cons_of_mem x member)
  | @cons_cons part whole x sub ih =>
      obtain ⟨fresh, nodup⟩ := List.nodup_cons.mp nodup
      rw [List.flatMap_cons, List.flatMap_cons]
      congr 1
      refine ih nodup fun y member absent => empty y (List.mem_cons_of_mem x member) fun either => ?_
      cases List.mem_cons.mp either with
      | inl same => exact fresh (same ▸ member)
      | inr inside => exact absent inside

namespace Grown

variable {items : Nat → List Item} {size : Nat}

theorem le_of_under (grown : Grown items size) {i j : Nat} (inside : Under items i j) : i ≤ j := by
  induction inside with
  | here => exact Nat.le_refl i
  | child _ member ih => exact Nat.le_of_lt (Nat.lt_of_le_of_lt ih (grown.rises _ _ member).1)

theorem lt_of_under (grown : Grown items size) {i j : Nat} (start : i < size) (inside : Under items i j) : j < size := by
  cases inside with
  | here => exact start
  | child _ member => exact (grown.rises _ _ member).2

theorem comparable (grown : Grown items size) {a b j : Nat} (first : Under items a j) (second : Under items b j) :
    Under items a b ∨ Under items b a := by
  induction first generalizing b with
  | here => exact .inr second
  | child above member ih =>
      cases second with
      | here => exact .inl (.child above member)
      | child outer again =>
          rw [← grown.single _ _ _ member again] at outer
          exact ih outer

theorem apart (grown : Grown items size) {i c d j : Nat} (first : .node c ∈ items i) (second : .node d ∈ items i)
    (different : c ≠ d) (inside : Under items c j) : ¬ Under items d j := by
  have never {a b : Nat} (left : .node a ∈ items i) (right : .node b ∈ items i) (other : a ≠ b) : ¬ Under items a b := by
    intro nested
    cases nested with
    | here => exact other rfl
    | child above member =>
        rw [grown.single _ _ _ member right] at above
        exact Nat.lt_irrefl i (Nat.lt_of_lt_of_le (grown.rises i a left).1 (grown.le_of_under above))
  intro also
  cases grown.comparable inside also with
  | inl nested => exact never first second different nested
  | inr nested => exact never second first (Ne.symm different) nested

theorem node_apart (grown : Grown items size) {i c : Nat} (member : .node c ∈ items i) : ¬ Under items c i :=
  fun inside => Nat.lt_irrefl i (Nat.lt_of_lt_of_le (grown.rises i c member).1 (grown.le_of_under inside))

theorem holds_apart (grown : Grown items size) {i : Nat} {x y : Item} (first : x ∈ items i) (second : y ∈ items i)
    (different : x ≠ y) {k : Nat} (holds : Holds items x k) : ¬ Holds items y k := by
  have outside {c : Nat} (below : .node c ∈ items i) (leaf : .leaf k ∈ items i) : ¬ Holds items (.node c) k := by
    intro inside
    obtain ⟨j, under, again⟩ := inside
    rw [← grown.single _ _ _ leaf again] at under
    exact grown.node_apart below under
  cases x with
  | leaf a =>
      cases y with
      | leaf b =>
          intro also
          exact different (congrArg Item.leaf (holds.trans also.symm))
      | node d => exact outside second (holds ▸ first)
  | node c =>
      cases y with
      | leaf b => exact fun also => outside first (also ▸ second) holds
      | node d =>
          intro also
          obtain ⟨j, under, leaf⟩ := holds
          obtain ⟨j', under', leaf'⟩ := also
          rw [← grown.single _ _ _ leaf leaf'] at under'
          exact grown.apart first second (fun same => different (congrArg Item.node same)) under under'

section

variable {keep keepNext : Nat → Bool} {fuel i : Nat}

theorem mem_latest (grown : Grown items size) (enough : size ≤ fuel + i) (start : i < size) (k : Nat) :
    k ∈ latestWithin items keep fuel i ↔ keep k = true ∧ ∃ j, Under items i j ∧ .leaf k ∈ items j := by
  induction fuel generalizing i with
  | zero => omega
  | succ fuel ih =>
      rw [latest_within_succ, List.mem_flatMap]
      constructor
      · intro found
        obtain ⟨x, member, inside⟩ := found
        rw [List.mem_reverse] at member
        cases x with
        | leaf other =>
            rw [leavesOf, List.mem_ite_nil_right, List.mem_singleton] at inside
            obtain ⟨kept, rfl⟩ := inside
            exact ⟨kept, i, .here, member⟩
        | node c =>
            have rises := grown.rises i c member
            obtain ⟨kept, j, under, leaf⟩ := (ih (by omega) rises.2).mp inside
            exact ⟨kept, j, under_of_node member under, leaf⟩
      · intro found
        obtain ⟨kept, j, under, leaf⟩ := found
        cases under_cases under with
        | inl same => exact ⟨.leaf k, List.mem_reverse.mpr (same ▸ leaf), by simp [leavesOf, kept]⟩
        | inr later =>
            obtain ⟨c, member, under⟩ := later
            have rises := grown.rises i c member
            exact ⟨.node c, List.mem_reverse.mpr member, (ih (by omega) rises.2).mpr ⟨kept, j, under, leaf⟩⟩

theorem latest_congr (grown : Grown items size) (enough : size ≤ fuel + i) (start : i < size)
    (same : ∀ j k, Under items i j → .leaf k ∈ items j → keepNext k = keep k) :
    latestWithin items keepNext fuel i = latestWithin items keep fuel i := by
  induction fuel generalizing i with
  | zero => rfl
  | succ fuel ih =>
      rw [latest_within_succ, latest_within_succ]
      apply List.flatMap_congr
      intro x member
      rw [List.mem_reverse] at member
      cases x with
      | leaf k => rw [leavesOf, leavesOf, same i k .here member]
      | node c =>
          have rises := grown.rises i c member
          exact ih (by omega) rises.2 fun j k under => same j k (under_of_node member under)

theorem latest_enough (grown : Grown items size) (other : Nat) (enough : size ≤ fuel + i) (too : size ≤ other + i)
    (start : i < size) : latestWithin items keep fuel i = latestWithin items keep other i := by
  induction fuel generalizing i other with
  | zero => omega
  | succ fuel ih =>
      cases other with
      | zero => omega
      | succ other =>
          rw [latest_within_succ, latest_within_succ]
          apply List.flatMap_congr
          intro x member
          rw [List.mem_reverse] at member
          cases x with
          | leaf => rfl
          | node c =>
              have rises := grown.rises i c member
              exact ih other (by omega) (by omega) rises.2

theorem mem_leaves (grown : Grown items size) {x : Item} (member : x ∈ items i) (k : Nat) :
    k ∈ leavesOf items keep size x ↔ keep k = true ∧ Holds items x k := by
  cases x with
  | leaf other =>
      rw [leavesOf, List.mem_ite_nil_right, List.mem_singleton]
      constructor
      · intro found
        exact ⟨found.2 ▸ found.1, found.2.symm⟩
      · intro found
        exact ⟨found.2 ▸ found.1, found.2.symm⟩
  | node c => exact grown.mem_latest (by omega) (grown.rises i c member).2 k

theorem leaves_congr (grown : Grown items size) {x : Item} (member : x ∈ items i)
    (same : ∀ k, Holds items x k → keepNext k = keep k) :
    leavesOf items keepNext size x = leavesOf items keep size x := by
  cases x with
  | leaf k => rw [leavesOf, leavesOf, same k rfl]
  | node c =>
      exact grown.latest_congr (by omega) (grown.rises i c member).2 fun j k under leaf => same k ⟨j, under, leaf⟩

end

theorem add (grown : Grown items size) {i : Nat} {x : Item} {sizeNext : Nat} (fresh : ∀ j, x ∉ items j)
    (larger : size ≤ sizeNext) (rises : ∀ c, x = .node c → i < c ∧ c < sizeNext) :
    Grown (Function.update items i (items i ++ [x])) sizeNext := by
  have place {j : Nat} {y : Item} (member : y ∈ Function.update items i (items i ++ [x]) j) :
      y ∈ items j ∨ y = x ∧ j = i := by
    by_cases same : j = i
    · rw [same, Function.update_self] at member
      cases List.mem_append.mp member with
      | inl before => exact .inl (same ▸ before)
      | inr new => exact .inr ⟨List.mem_singleton.mp new, same⟩
    · rw [Function.update_of_ne same] at member
      exact .inl member
  constructor
  · intro j c member
    cases place member with
    | inl before =>
        obtain ⟨above, within⟩ := grown.rises j c before
        exact ⟨above, Nat.lt_of_lt_of_le within larger⟩
    | inr new => exact new.2 ▸ rises c new.1.symm
  · intro j k y first second
    cases place first with
    | inl before =>
        cases place second with
        | inl again => exact grown.single j k y before again
        | inr new => exact absurd (new.1 ▸ before) (fresh j)
    | inr new =>
        cases place second with
        | inl again => exact absurd (new.1 ▸ again) (fresh k)
        | inr also => exact new.2.trans also.2.symm
  · intro j
    by_cases same : j = i
    · rw [same, Function.update_self, List.nodup_append]
      refine ⟨grown.nodup i, List.nodup_singleton x, fun y member z last => ?_⟩
      rw [List.mem_singleton.mp last]
      exact fun equal => fresh i (equal ▸ member)
    · rw [Function.update_of_ne same]
      exact grown.nodup j

end Grown

end Forest
