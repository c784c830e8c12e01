import Mathlib.Data.List.Nodup
import Mathlib.Logic.Relation

set_option autoImplicit false

universe u v

-- Plans that open the nodes they need and that are not there yet, each after all it needs. An open node gives things,
-- which the nodes opened later may take.
namespace Planned

structure Node (α : Type u) (γ : Type v) where
  needs : List α
  takes : List γ
  gives : List γ

structure World (α : Type u) (γ : Type v) where
  node : α → Option (Node α γ)
  there : α → Prop
  has : γ → Prop

structure Plan (α : Type u) (γ : Type v) where
  order : List α
  gained : List γ

variable {α : Type u} {γ : Type v}

namespace Plan

def empty : Plan α γ := ⟨[], []⟩

def close (id : α) (node : Node α γ) (s : Plan α γ) : Plan α γ := ⟨s.order ++ [id], s.gained ++ node.gives⟩

def append (s t : Plan α γ) : Plan α γ := ⟨s.order ++ t.order, s.gained ++ t.gained⟩

theorem append_empty (s : Plan α γ) : s.append empty = s := by simp [append, empty]

theorem append_close (s t : Plan α γ) (id : α) (node : Node α γ) :
    s.append (t.close id node) = (s.append t).close id node := by
  simp [append, close, List.append_assoc]

end Plan

inductive Plans (w : World α γ) : List α → List α → Plan α γ → Plan α γ → Prop where
  | nil (stack : List α) (s : Plan α γ) : Plans w stack [] s s
  | passes {stack rest : List α} {dep : α} {s t : Plan α γ} (done : w.there dep ∨ dep ∈ s.order)
      (later : Plans w stack rest s t) : Plans w stack (dep :: rest) s t
  | opens {stack rest : List α} {dep : α} {node : Node α γ} {s inner t : Plan α γ} (absent : ¬ w.there dep)
      (fresh : dep ∉ s.order) (apart : dep ∉ stack) (found : w.node dep = some node)
      (needs : Plans w (dep :: stack) node.needs s inner) (takes : ∀ c ∈ node.takes, w.has c ∨ c ∈ inner.gained)
      (later : Plans w stack rest (inner.close dep node) t) : Plans w stack (dep :: rest) s t

def Needs (w : World α γ) (a b : α) : Prop := ∃ node, w.node a = some node ∧ b ∈ node.needs ∧ ¬ w.there b

def Reaches (w : World α γ) (a b : α) : Prop := Relation.ReflTransGen (Needs w) a b

inductive Placed (w : World α γ) : List α → Prop where
  | nil : Placed w []
  | snoc {order : List α} {id : α} {node : Node α γ} (earlier : Placed w order) (absent : ¬ w.there id)
      (fresh : id ∉ order) (found : w.node id = some node) (after : ∀ dep ∈ node.needs, w.there dep ∨ dep ∈ order) :
      Placed w (order ++ [id])

variable {w w' : World α γ} {stack deps : List α} {s t : Plan α γ}

theorem plans_grow (plans : Plans w stack deps s t) : s.order <+: t.order ∧ s.gained <+: t.gained := by
  induction plans with
  | nil => exact ⟨List.prefix_refl _, List.prefix_refl _⟩
  | passes _ _ ih => exact ih
  | opens _ _ _ _ _ _ _ inner later =>
      exact ⟨(inner.1.trans (List.prefix_append _ _)).trans later.1, (inner.2.trans (List.prefix_append _ _)).trans later.2⟩

theorem plans_append {middle : Plan α γ} {rest : List α} (first : Plans w stack deps s middle)
    (later : Plans w stack rest middle t) : Plans w stack (deps ++ rest) s t := by
  induction first with
  | nil => exact later
  | passes done _ ih => exact .passes done (ih later)
  | opens absent fresh apart found needs takes _ _ ih => exact .opens absent fresh apart found needs takes (ih later)

theorem plans_done (plans : Plans w stack deps s t) : ∀ dep ∈ deps, w.there dep ∨ dep ∈ t.order := by
  induction plans with
  | nil => exact fun _ member => nomatch member
  | passes done later ih =>
      intro other member
      rcases List.mem_cons.mp member with rfl | member
      · exact done.imp_right fun before => (plans_grow later).1.subset before
      · exact ih other member
  | opens _ _ _ _ _ _ later _ ih =>
      intro other member
      rcases List.mem_cons.mp member with rfl | member
      · exact .inr ((plans_grow later).1.subset (List.mem_append_right _ (List.mem_singleton_self _)))
      · exact ih other member

theorem plans_apart (plans : Plans w stack deps s t) {id : α} (above : id ∈ stack) (fresh : id ∉ s.order) :
    id ∉ t.order := by
  induction plans with
  | nil => exact fresh
  | passes _ _ ih => exact ih above fresh
  | opens _ _ apart _ _ _ _ inner later =>
      refine later above fun member => ?_
      rcases List.mem_append.mp member with before | same
      · exact inner (List.mem_cons_of_mem _ above) fresh before
      · exact apart (List.mem_singleton.mp same ▸ above)

theorem plans_placed (plans : Plans w stack deps s t) (placed : Placed w s.order) : Placed w t.order := by
  induction plans with
  | nil => exact placed
  | passes _ _ ih => exact ih placed
  | opens absent fresh _ found needs _ _ inner later =>
      exact later (.snoc (inner placed) absent (plans_apart needs List.mem_cons_self fresh) found (plans_done needs))

theorem plans_reached (plans : Plans w stack deps s t) {id : α} (member : id ∈ t.order) :
    id ∈ s.order ∨ ∃ dep ∈ deps, ¬ w.there dep ∧ Reaches w dep id := by
  induction plans with
  | nil => exact .inl member
  | passes _ _ ih =>
      rcases ih member with before | ⟨dep, among, reached⟩
      · exact .inl before
      · exact .inr ⟨dep, List.mem_cons_of_mem _ among, reached⟩
  | opens absent _ _ found _ _ _ inner later =>
      rcases later member with before | ⟨dep, among, reached⟩
      · rcases List.mem_append.mp before with inside | same
        · rcases inner inside with before | ⟨dep, among, new, reached⟩
          · exact .inl before
          · exact .inr ⟨_, List.mem_cons_self, absent, .head ⟨_, found, among, new⟩ reached⟩
        · exact .inr ⟨_, List.mem_cons_self, absent, List.mem_singleton.mp same ▸ .refl⟩
      · exact .inr ⟨dep, List.mem_cons_of_mem _ among, reached⟩

theorem placed_nodup {order : List α} (placed : Placed w order) : order.Nodup := by
  induction placed with
  | nil => exact List.nodup_nil
  | snoc _ _ fresh _ _ ih =>
      refine List.nodup_append.mpr ⟨ih, List.nodup_singleton _, fun other member last also same => ?_⟩
      exact fresh (List.mem_singleton.mp (same ▸ also) ▸ member)

theorem placed_node {order : List α} (placed : Placed w order) {id : α} (member : id ∈ order) :
    ∃ node, w.node id = some node := by
  induction placed with
  | nil => cases member
  | snoc _ _ _ found _ ih =>
      rcases List.mem_append.mp member with before | same
      · exact ih before
      · exact ⟨_, List.mem_singleton.mp same ▸ found⟩

theorem placed_needs {order : List α} (placed : Placed w order) {a b : α} (member : a ∈ order) (needs : Needs w a b) :
    b ∈ order := by
  induction placed with
  | nil => cases member
  | snoc _ _ _ found after ih =>
      rcases List.mem_append.mp member with before | same
      · exact List.mem_append_left _ (ih before)
      · obtain rfl := List.mem_singleton.mp same
        obtain ⟨node, here, among, new⟩ := needs
        obtain rfl := Option.some.inj (found.symm.trans here)
        exact List.mem_append_left _ ((after b among).resolve_left new)

theorem placed_reaches {order : List α} (placed : Placed w order) {a b : α} (member : a ∈ order)
    (reaches : Reaches w a b) : b ∈ order := by
  induction reaches with
  | refl => exact member
  | tail _ needs ih => exact placed_needs placed ih needs

theorem placed_split {order : List α} (placed : Placed w order) {before rest : List α} {id : α}
    (split : order = before ++ id :: rest) :
    ∃ node, w.node id = some node ∧ ∀ dep ∈ node.needs, w.there dep ∨ dep ∈ before := by
  induction placed generalizing rest with
  | nil => simp at split
  | @snoc earlier other node placed absent fresh found after ih =>
      rcases List.eq_nil_or_concat rest with rfl | ⟨middle, last, rfl⟩
      · obtain ⟨same, ends⟩ := List.append_inj' split rfl
        obtain ⟨rfl, -⟩ := List.cons.inj ends
        exact ⟨node, found, same ▸ after⟩
      · rw [List.concat_eq_append, ← List.cons_append, ← List.append_assoc] at split
        exact ih (List.append_inj' split rfl).1

theorem plan_order (plans : Plans w stack deps Plan.empty t) (id : α) :
    id ∈ t.order ↔ ∃ dep ∈ deps, ¬ w.there dep ∧ Reaches w dep id := by
  constructor
  · intro member
    exact (plans_reached plans member).resolve_left List.not_mem_nil
  · rintro ⟨dep, among, new, reaches⟩
    exact placed_reaches (plans_placed plans .nil) ((plans_done plans dep among).resolve_left new) reaches

theorem plans_within {before : Plan α γ} (node : w'.node = w.node)
    (there : ∀ id, w'.there id ↔ w.there id ∨ id ∈ before.order)
    (has : ∀ c, w'.has c ↔ w.has c ∨ c ∈ before.gained) {start : Plan α γ} (plans : Plans w stack deps start t)
    (starts : start = before.append s) {stack' : List α} (fewer : stack' ⊆ stack) :
    ∃ t', t = before.append t' ∧ Plans w' stack' deps s t' := by
  induction plans generalizing s stack' with
  | nil => exact ⟨s, starts, .nil _ _⟩
  | passes done _ ih =>
      obtain ⟨t', same, later⟩ := ih starts fewer
      subst starts
      refine ⟨t', same, .passes ?_ later⟩
      rw [there, or_assoc]
      exact done.imp_right List.mem_append.mp
  | @opens stack rest dep opened start inner t absent fresh apart found needs takes later ihNeeds ihLater =>
      obtain ⟨inner', sameInner, needs'⟩ := ihNeeds starts (List.cons_subset_cons dep fewer)
      subst sameInner
      obtain ⟨t', same, later'⟩ := ihLater (Plan.append_close before inner' dep opened).symm fewer
      subst starts
      have new : dep ∉ before.order ∧ dep ∉ s.order := not_or.mp fun either => fresh (List.mem_append.mpr either)
      refine ⟨t', same, .opens ?_ new.2 (fun above => apart (fewer above)) (node ▸ found) needs' (fun c taken => ?_) later'⟩
      · rw [there]
        exact not_or.mpr ⟨absent, new.1⟩
      · rw [has, or_assoc]
        exact (takes c taken).imp_right List.mem_append.mp

end Planned
