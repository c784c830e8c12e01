import Mathlib.Data.List.Nodup

set_option autoImplicit false

universe u v

-- Leases on one value: what is still held after a history of acquisitions and releases. The leases are numbered in the
-- order of their acquisition.
namespace Leases

inductive Op (α : Type u) where
  | acquire (value : α)
  | release (lease : Nat)

section

variable {α : Type u}

def Op.acquired : Op α → Option α
  | .acquire value => some value
  | .release _ => none

def Op.released : Op α → Option Nat
  | .acquire _ => none
  | .release lease => some lease

def acquired (history : List (Op α)) : List α := history.filterMap Op.acquired

def released (history : List (Op α)) : List Nat := history.filterMap Op.released

def held (history : List (Op α)) : List (α × Nat) :=
  (acquired history).zipIdx.filter fun lease => lease.2 ∉ released history

def latest (history : List (Op α)) : Option α := (held history).getLast?.map Prod.fst

def Ordered (history : List (Op α)) : Prop := ∀ lease ∈ released history, lease < (acquired history).length

@[simp] theorem acquired_acquire (history : List (Op α)) (value : α) :
    acquired (history ++ [.acquire value]) = acquired history ++ [value] := by
  simp [acquired, Op.acquired]

@[simp] theorem acquired_release (history : List (Op α)) (lease : Nat) :
    acquired (history ++ [.release lease]) = acquired history := by
  simp [acquired, Op.acquired]

@[simp] theorem released_acquire (history : List (Op α)) (value : α) :
    released (history ++ [.acquire value]) = released history := by
  simp [released, Op.released]

@[simp] theorem released_release (history : List (Op α)) (lease : Nat) :
    released (history ++ [.release lease]) = released history ++ [lease] := by
  simp [released, Op.released]

theorem held_acquire (history : List (Op α)) (value : α) (ordered : Ordered history) :
    held (history ++ [.acquire value]) = held history ++ [(value, (acquired history).length)] := by
  have fresh : (acquired history).length ∉ released history := fun member => Nat.lt_irrefl _ (ordered _ member)
  simp [held, List.zipIdx_append, fresh]

theorem held_release (history : List (Op α)) (lease : Nat) :
    held (history ++ [.release lease]) = (held history).filter fun other => other.2 ≠ lease := by
  simp only [held, acquired_release, released_release, List.filter_filter]
  congr 1
  funext other
  simp [and_comm]

theorem held_nodup (history : List (Op α)) : ((held history).map Prod.snd).Nodup := by
  have all : ((acquired history).zipIdx.map Prod.snd).Nodup := by
    rw [List.zipIdx_map_snd]
    exact List.nodup_range'
  exact all.sublist (List.filter_sublist.map Prod.snd)

theorem ordered_acquire (history : List (Op α)) (value : α) (ordered : Ordered history) :
    Ordered (history ++ [.acquire value]) := by
  intro lease member
  rw [released_acquire] at member
  rw [acquired_acquire, List.length_append]
  exact Nat.lt_succ_of_lt (ordered lease member)

theorem ordered_release (history : List (Op α)) (lease : Nat) (ordered : Ordered history)
    (within : lease < (acquired history).length) : Ordered (history ++ [.release lease]) := by
  intro other member
  rw [released_release, List.mem_append, List.mem_singleton] at member
  rw [acquired_release]
  rcases member with before | rfl
  · exact ordered other before
  · exact within

theorem held_value {history : List (Op α)} {lease : α × Nat} (member : lease ∈ held history) :
    (acquired history)[lease.2]? = some lease.1 :=
  List.mk_mem_zipIdx_iff_getElem?.mp (List.mem_of_mem_filter member)

end

-- Leases on many values, each under a key.
section

variable {α : Type u} {κ : Type v} [DecidableEq κ]

def latestOf (key : α → κ) (k : κ) (history : List (Op α)) : Option α :=
  (((held history).map Prod.fst).filter fun value => key value = k).getLast?

variable {key : α → κ}

theorem latestOf_acquire_same (history : List (Op α)) (value : α) (ordered : Ordered history) :
    latestOf key (key value) (history ++ [.acquire value]) = some value := by
  simp [latestOf, held_acquire history value ordered]

theorem latestOf_acquire_other (history : List (Op α)) (value : α) (ordered : Ordered history) {k : κ} (other : key value ≠ k) :
    latestOf key k (history ++ [.acquire value]) = latestOf key k history := by
  simp [latestOf, held_acquire history value ordered, other]

theorem latestOf_none_iff (history : List (Op α)) (k : κ) :
    latestOf key k history = none ↔ ∀ lease ∈ held history, key lease.1 ≠ k := by
  simp [latestOf]

theorem latestOf_release_other {history : List (Op α)} {lease : Nat} {value : α}
    (acquired : (acquired history)[lease]? = some value) {k : κ} (other : key value ≠ k) :
    latestOf key k (history ++ [.release lease]) = latestOf key k history := by
  unfold latestOf
  rw [held_release, List.filter_map, List.filter_map, List.filter_filter]
  congr 2
  refine List.filter_congr fun held member => ?_
  have kept : key held.1 = k → held.2 ≠ lease := by
    rintro same rfl
    exact other (Option.some.inj (acquired.symm.trans (held_value member)) ▸ same)
  simpa using kept

end

theorem erase_first {α : Type u} (key : α → Nat) (k : Nat) (list : List α) (distinct : (list.map key).Nodup) :
    (list.eraseP fun x => key x = k) = list.filter fun x => key x ≠ k := by
  induction list with
  | nil => rfl
  | cons x rest ih =>
      rw [List.map_cons, List.nodup_cons] at distinct
      obtain ⟨absent, later⟩ := distinct
      by_cases here : key x = k
      · have others : ∀ y ∈ rest, decide (key y ≠ k) = true := by
          intro y member
          have apart : key y ≠ key x := fun same => absent (same ▸ List.mem_map_of_mem member)
          simpa only [decide_eq_true_eq, here] using apart
        rw [List.eraseP_cons_of_pos (by simpa using here), List.filter_cons_of_neg (by simpa using here),
          List.filter_eq_self.mpr others]
      · simp [here, ih later]

end Leases
