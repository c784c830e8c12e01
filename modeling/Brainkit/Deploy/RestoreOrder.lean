import Mathlib.Data.List.Perm.Basic
import Brainkit.Library.GoText
import Brainkit.Library.Transition

set_option autoImplicit false

-- The order counter of the deployment manager over restarts: RedeployPersistedDeployments and the deploys, mirrored
-- deploys and teardowns around it, each of which holds lifecycleMu to its end.
namespace Brainkit.Deploy.RestoreOrder

open Function (update update_self update_of_ne)
open GoText
open Transition (run Along)

-- A persisted deployment; neither its code nor its metadata has a part in the order.
structure PersistedDeployment where
  source : GoString
  order : Int
deriving DecidableEq

-- RedeployPersistedDeployments has not begun, has loaded, or has come to its seed and its deploys.
inductive Stage where
  | starting
  | loaded
  | seeded
deriving DecidableEq

structure Manager where
  store : List PersistedDeployment
  -- The live deployments with their orders in memory.
  deployments : GoString → Option Int
  deployOrder : Int
  stage : Stage
  -- The sorted list, its part that has been deployed again and the part that has not.
  deploymentList : List PersistedDeployment
  restored : List PersistedDeployment
  pending : List PersistedDeployment

def int32 (n : Int) : Int := n.bmod (2 ^ 32)

def saveDeployment (d : PersistedDeployment) (store : List PersistedDeployment) : List PersistedDeployment :=
  store.filter (·.source ≠ d.source) ++ [d]

def deleteDeployment (source : GoString) (store : List PersistedDeployment) : List PersistedDeployment :=
  store.filter (·.source ≠ source)

namespace Manager

def start (store : List PersistedDeployment) : Manager := ⟨store, fun _ => none, 0, .starting, [], [], []⟩

def nextDeployOrder (m : Manager) : Int := int32 (m.deployOrder + 1)

def teardownLocked (m : Manager) (source : GoString) (deleted : Bool) : Manager :=
  { m with
    deployments := update m.deployments source none
    store := if deleted then deleteDeployment source m.store else m.store }

def trackDeployment (m : Manager) (source : GoString) : Manager :=
  { m with deployments := update m.deployments source (some m.nextDeployOrder), deployOrder := m.nextDeployOrder }

def persistDeployment (m : Manager) (source : GoString) (restoring saved : Bool) : Manager :=
  if restoring || !saved then m
  else match m.deployments source with
    | none => m
    | some order => { m with store := saveDeployment ⟨source, order⟩ m.store }

def validateAndPrepareDeploy (m : Manager) (source : GoString) (deleted : Bool) : Manager :=
  if (m.deployments source).isSome then m.teardownLocked source deleted else m

-- evaluates says whether the code is prepared and runs without an error, deleted and saved what the store does.
def deploy (m : Manager) (source : GoString) (restoring evaluates deleted saved : Bool) : Manager :=
  if blank source then m
  else if evaluates then
    ((m.validateAndPrepareDeploy source deleted).trackDeployment source).persistDeployment source restoring saved
  else m.validateAndPrepareDeploy source deleted

def maxOrder (deployments : List PersistedDeployment) : Int :=
  int32 ((deployments.getLast?.map PersistedDeployment.order).getD 0)

end Manager

inductive Action where
  | restart
  -- LoadDeployments and sort.Slice, which keeps no order among equals.
  | load (deployments : List PersistedDeployment)
  | loadFails
  | seed
  | restore (evaluates deleted : Bool)
  | deploy (source : GoString) (evaluates deleted saved : Bool)
  | teardown (source : GoString) (deleted : Bool)
  -- Another replica persists a deployment in the shared store, and one that was persisted is mirrored here.
  | replicaSaves (d : PersistedDeployment)
  | mirror (source : GoString) (evaluates deleted : Bool)

open Manager in
def step (m : Manager) : Action → Option Manager
  | .restart => some (start m.store)
  | .load deployments =>
      if m.stage = .starting ∧ deployments.Perm m.store ∧ deployments.Pairwise (·.order ≤ ·.order) then
        some { m with stage := if deployments = [] then .seeded else .loaded, deploymentList := deployments }
      else none
  | .loadFails => if m.stage = .starting then some { m with stage := .seeded } else none
  | .seed =>
      if m.stage = .loaded then
        some { m with stage := .seeded, deployOrder := maxOrder m.deploymentList, pending := m.deploymentList }
      else none
  | .restore evaluates deleted =>
      match m.pending with
      | [] => none
      | d :: rest =>
          some ({ m with restored := m.restored ++ [d], pending := rest }.deploy d.source true evaluates deleted false)
  | .deploy source evaluates deleted saved => some (m.deploy source false evaluates deleted saved)
  | .teardown source deleted => some (m.teardownLocked source deleted)
  | .replicaSaves d => some { m with store := saveDeployment d m.store }
  | .mirror source evaluates deleted => some (m.deploy source true evaluates deleted false)

structure Ordered (m : Manager) : Prop where
  sorted : m.deploymentList.Pairwise (·.order ≤ ·.order)
  inTurn : m.stage = .seeded → m.restored ++ m.pending = m.deploymentList

-- What one step owes: a restored deployment keeps its record, and a new one comes after all that are persisted.
def Law (m : Manager) (next : Manager) : Action → Prop
  | .restore _ _ => next.store = m.store
  | .deploy source evaluates _ _ => m.stage = .seeded → evaluates = true → blank source = false →
      ∃ order, next.deployments source = some order ∧ ∀ d ∈ m.store ++ m.deploymentList, d.order < order
  | _ => True

def Counts (m : Manager) : Prop := m.deployOrder < 2 ^ 31 - 1

def Allowed (m : Manager) : Action → Prop
  | .loadFails => ∀ d ∈ m.store, d.order ≤ m.deployOrder
  | .seed => (∀ d ∈ m.deploymentList, d.order < 2 ^ 31) ∧ ∀ d ∈ m.store, ∃ l ∈ m.deploymentList, d.order ≤ l.order
  | .restore evaluates _ => (evaluates = true → Counts m) ∧ ∀ d ∈ m.pending.head?, m.deployments d.source = none
  | .deploy _ evaluates _ _ => evaluates = true → Counts m
  | .mirror _ evaluates _ => evaluates = true → Counts m
  | .replicaSaves d => m.stage = .seeded → d.order ≤ m.deployOrder
  | _ => True

structure Valid (m : Manager) : Prop where
  range : -2 ^ 31 ≤ m.deployOrder ∧ m.deployOrder < 2 ^ 31
  below : m.stage = .seeded → ∀ d ∈ m.store ++ m.deploymentList, d.order ≤ m.deployOrder
  ordered : Ordered m
  unloaded : m.stage = .starting → m.deploymentList = []
  untouched : m.stage ≠ .seeded → m.restored = [] ∧ m.pending = []

theorem int32_range (n : Int) : -2 ^ 31 ≤ int32 n ∧ int32 n < 2 ^ 31 := by
  have lower := Int.le_bmod (x := n) (m := 2 ^ 32) (by decide)
  have upper := Int.bmod_lt (x := n) (m := 2 ^ 32) (by decide)
  unfold int32
  omega

theorem int32_of_range {n : Int} (lower : -2 ^ 31 ≤ n) (upper : n < 2 ^ 31) : int32 n = n :=
  Int.bmod_eq_of_le (by omega) (by omega)

theorem le_int32 {n : Int} (upper : n < 2 ^ 31) : n ≤ int32 n := by
  rcases Int.lt_or_le n (-2 ^ 31) with under | inside
  · exact Int.le_of_lt (Int.lt_of_lt_of_le under (int32_range n).1)
  · exact Int.le_of_eq (int32_of_range inside upper).symm

namespace Manager

variable {m : Manager} {source : GoString} {restoring evaluates deleted saved : Bool}

theorem nextDeployOrder_eq (range : -2 ^ 31 ≤ m.deployOrder) (counts : Counts m) : m.nextDeployOrder = m.deployOrder + 1 := by
  unfold Counts at counts
  exact int32_of_range (by omega) (by omega)

theorem tracked_persist (m : Manager) (source : GoString) (restoring saved : Bool) :
    (m.trackDeployment source).persistDeployment source restoring saved =
      if restoring || !saved then m.trackDeployment source
      else { m.trackDeployment source with store := saveDeployment ⟨source, m.nextDeployOrder⟩ m.store } := by
  have live : (m.trackDeployment source).deployments source = some m.nextDeployOrder := update_self source _ m.deployments
  rw [persistDeployment, live]
  rfl

theorem prepared_fields (m : Manager) (source : GoString) (deleted : Bool) :
    (m.validateAndPrepareDeploy source deleted).stage = m.stage ∧
      (m.validateAndPrepareDeploy source deleted).deploymentList = m.deploymentList ∧
      (m.validateAndPrepareDeploy source deleted).restored = m.restored ∧
      (m.validateAndPrepareDeploy source deleted).pending = m.pending ∧
      (m.validateAndPrepareDeploy source deleted).deployOrder = m.deployOrder := by
  unfold validateAndPrepareDeploy
  split <;> exact ⟨rfl, rfl, rfl, rfl, rfl⟩

theorem prepared_store {d : PersistedDeployment} (member : d ∈ (m.validateAndPrepareDeploy source deleted).store) :
    d ∈ m.store := by
  unfold validateAndPrepareDeploy teardownLocked at member
  split at member
  · dsimp only at member
    split at member
    · exact List.mem_of_mem_filter member
    · exact member
  · exact member

theorem deploy_fields (m : Manager) (source : GoString) (restoring evaluates deleted saved : Bool) :
    (m.deploy source restoring evaluates deleted saved).stage = m.stage ∧
      (m.deploy source restoring evaluates deleted saved).deploymentList = m.deploymentList ∧
      (m.deploy source restoring evaluates deleted saved).restored = m.restored ∧
      (m.deploy source restoring evaluates deleted saved).pending = m.pending ∧
      (m.deploy source restoring evaluates deleted saved).deployOrder =
        if blank source = false ∧ evaluates = true then m.nextDeployOrder else m.deployOrder := by
  obtain ⟨stage, list, restored, pending, order⟩ := prepared_fields m source deleted
  have next : (m.validateAndPrepareDeploy source deleted).nextDeployOrder = m.nextDeployOrder :=
    congrArg (fun order => int32 (order + 1)) order
  unfold deploy
  rw [tracked_persist]
  cases blank source with
  | true => simp
  | false =>
      cases evaluates with
      | false => simp [stage, list, restored, pending, order]
      | true =>
          simp only [Bool.false_eq_true, if_false, if_true, and_self]
          split <;> simp [trackDeployment, stage, list, restored, pending, next]

theorem deploy_store {d : PersistedDeployment} (member : d ∈ (m.deploy source restoring evaluates deleted saved).store) :
    d ∈ m.store ∨ (restoring = false ∧ d.order = (m.deploy source restoring evaluates deleted saved).deployOrder) := by
  unfold deploy at member ⊢
  rw [tracked_persist] at member ⊢
  split at member
  · exact .inl member
  next named =>
  split at member
  · next runs =>
    split at member
    · exact .inl (prepared_store member)
    · next fresh =>
        rw [if_neg named, if_pos runs, if_neg fresh]
        cases List.mem_append.mp member with
        | inl old => exact .inl (prepared_store (List.mem_of_mem_filter old))
        | inr here =>
            cases List.mem_singleton.mp here
            refine .inr ⟨?_, rfl⟩
            cases restoring with
            | true => exact absurd rfl fresh
            | false => rfl
  · exact .inl (prepared_store member)

end Manager

open Manager

variable {m : Manager}

theorem deploy_valid (valid : Valid m) (source : GoString) {restoring evaluates deleted saved : Bool}
    (counts : evaluates = true → Counts m) : Valid (m.deploy source restoring evaluates deleted saved) := by
  obtain ⟨stage, list, restored, pending, order⟩ := deploy_fields m source restoring evaluates deleted saved
  have grows : m.deployOrder ≤ (m.deploy source restoring evaluates deleted saved).deployOrder := by
    rw [order]
    split
    · next runs =>
        rw [nextDeployOrder_eq valid.range.1 (counts runs.2)]
        omega
    · exact Int.le_refl _
  refine ⟨?_, fun seeded d member => ?_, ⟨?_, ?_⟩, ?_, ?_⟩
  · rw [order]
    split
    · exact int32_range _
    · exact valid.range
  · rw [stage] at seeded
    rw [list] at member
    cases List.mem_append.mp member with
    | inl here =>
        cases deploy_store here with
        | inl old => exact Int.le_trans (valid.below seeded d (List.mem_append_left _ old)) grows
        | inr fresh => exact Int.le_of_eq fresh.2
    | inr here => exact Int.le_trans (valid.below seeded d (List.mem_append_right _ here)) grows
  · rw [list]
    exact valid.ordered.sorted
  · rw [stage, list, restored, pending]
    exact valid.ordered.inTurn
  · rw [stage, list]
    exact valid.unloaded
  · rw [stage, restored, pending]
    exact valid.untouched

theorem start_valid (store : List PersistedDeployment) : Valid (start store) where
  range := ⟨Int.neg_nonpos_of_nonneg (by decide), by change (0 : Int) < 2 ^ 31; decide⟩
  below seeded := nomatch seeded
  ordered := ⟨List.Pairwise.nil, fun seeded => nomatch seeded⟩
  unloaded _ := rfl
  untouched _ := ⟨rfl, rfl⟩

theorem last_greatest {list : List PersistedDeployment} (sorted : list.Pairwise (·.order ≤ ·.order))
    (small : ∀ d ∈ list, d.order < 2 ^ 31) : ∀ d ∈ list, d.order ≤ maxOrder list := by
  intro d member
  cases list.eq_nil_or_concat with
  | inl empty => exact absurd (empty ▸ member) List.not_mem_nil
  | inr split =>
      obtain ⟨before, last, rfl⟩ := split
      have top : maxOrder (before.concat last) = int32 last.order := by
        simp [maxOrder]
      rw [top]
      refine Int.le_trans ?_ (le_int32 (small last (by simp)))
      rw [List.concat_eq_append] at sorted member
      cases List.mem_append.mp member with
      | inl here => exact (List.pairwise_append.mp sorted).2.2 d here last (List.mem_singleton.mpr rfl)
      | inr here => exact Int.le_of_eq (congrArg _ (List.mem_singleton.mp here))

theorem load_valid (valid : Valid m) {deployments : List PersistedDeployment} (starting : m.stage = .starting)
    (same : deployments.Perm m.store) (sorted : deployments.Pairwise (·.order ≤ ·.order)) :
    Valid { m with stage := if deployments = [] then .seeded else .loaded, deploymentList := deployments } := by
  obtain ⟨restored, pending⟩ := valid.untouched (starting ▸ nofun)
  refine ⟨valid.range, fun seeded d member => ?_, ⟨sorted, fun seeded => ?_⟩, fun early => ?_,
    fun _ => ⟨restored, pending⟩⟩
  · have empty : deployments = [] := by
      by_contra some
      rw [if_neg some] at seeded
      cases seeded
    have store : m.store = [] := List.perm_nil.mp (empty ▸ same.symm)
    rw [store, empty] at member
    exact absurd member List.not_mem_nil
  · have empty : deployments = [] := by
      by_contra some
      rw [if_neg some] at seeded
      cases seeded
    rw [restored, pending, empty]
    rfl
  · dsimp only at early
    split at early <;> cases early

theorem teardown_valid (valid : Valid m) (source : GoString) (deleted : Bool) : Valid (m.teardownLocked source deleted) := by
  refine ⟨valid.range, fun seeded d member => ?_, ⟨valid.ordered.sorted, valid.ordered.inTurn⟩, valid.unloaded,
    valid.untouched⟩
  refine valid.below seeded d (List.mem_append.mpr ((List.mem_append.mp member).imp_left fun here => ?_))
  unfold teardownLocked at here
  dsimp only at here
  split at here
  · exact List.mem_of_mem_filter here
  · exact here

theorem step_valid {next : Manager} {action : Action} (valid : Valid m) (allowed : Allowed m action)
    (taken : step m action = some next) : Valid next := by
  cases action with
  | restart =>
      cases taken
      exact start_valid m.store
  | load deployments =>
      obtain ⟨⟨starting, same, sorted⟩, taken⟩ := Option.ite_none_right_eq_some.mp taken
      cases taken
      exact load_valid valid starting same sorted
  | loadFails =>
      obtain ⟨starting, taken⟩ := Option.ite_none_right_eq_some.mp taken
      cases taken
      obtain ⟨restored, pending⟩ := valid.untouched (starting ▸ nofun)
      have none := valid.unloaded starting
      refine ⟨valid.range, fun _ d member => ?_, ⟨valid.ordered.sorted, fun _ => ?_⟩, nofun,
        fun other => absurd rfl other⟩
      · rw [none, List.append_nil] at member
        exact allowed d member
      · rw [restored, pending, none]
        rfl
  | seed =>
      obtain ⟨loaded, taken⟩ := Option.ite_none_right_eq_some.mp taken
      cases taken
      obtain ⟨restored, -⟩ := valid.untouched (loaded ▸ nofun)
      obtain ⟨small, known⟩ := allowed
      have greatest := last_greatest valid.ordered.sorted small
      refine ⟨int32_range _, fun _ d member => ?_, ⟨valid.ordered.sorted, fun _ => ?_⟩, nofun,
        fun other => absurd rfl other⟩
      · cases List.mem_append.mp member with
        | inl here =>
            obtain ⟨l, listed, above⟩ := known d here
            exact Int.le_trans above (greatest l listed)
        | inr here => exact greatest d here
      · exact congrArg (· ++ m.deploymentList) restored
  | restore evaluates deleted =>
      simp only [step] at taken
      split at taken
      · cases taken
      · next d rest pending =>
          cases taken
          have seeded : m.stage = .seeded := by
            by_contra other
            cases pending.symm.trans (valid.untouched other).2
          have turn : m.restored ++ [d] ++ rest = m.deploymentList := by
            rw [← valid.ordered.inTurn seeded, pending, List.append_assoc]
            rfl
          have moved : Valid { m with restored := m.restored ++ [d], pending := rest } :=
            ⟨valid.range, valid.below, ⟨valid.ordered.sorted, fun _ => turn⟩, valid.unloaded,
              fun other => absurd seeded other⟩
          exact deploy_valid moved d.source allowed.1
  | deploy source evaluates deleted saved =>
      cases taken
      exact deploy_valid valid source allowed
  | teardown source deleted =>
      cases taken
      exact teardown_valid valid source deleted
  | replicaSaves d =>
      cases taken
      refine ⟨valid.range, fun seeded other member => ?_, ⟨valid.ordered.sorted, valid.ordered.inTurn⟩, valid.unloaded,
        valid.untouched⟩
      cases List.mem_append.mp member with
      | inl here =>
          cases List.mem_append.mp here with
          | inl old => exact valid.below seeded other (List.mem_append_left _ (List.mem_of_mem_filter old))
          | inr fresh => exact List.mem_singleton.mp fresh ▸ allowed seeded
      | inr here => exact valid.below seeded other (List.mem_append_right _ here)
  | mirror source evaluates deleted =>
      cases taken
      exact deploy_valid valid source allowed

theorem fresh_store {source : GoString} (fresh : m.deployments source = none) (evaluates deleted : Bool) :
    (m.deploy source true evaluates deleted false).store = m.store := by
  have prepared : m.validateAndPrepareDeploy source deleted = m := by
    rw [validateAndPrepareDeploy, fresh]
    rfl
  unfold deploy
  rw [prepared, tracked_persist]
  split
  · rfl
  · split <;> rfl

theorem deploy_assigned {source : GoString} (named : blank source = false) (restoring deleted saved : Bool) :
    (m.deploy source restoring true deleted saved).deployments source = some m.nextDeployOrder := by
  have next : (m.validateAndPrepareDeploy source deleted).nextDeployOrder = m.nextDeployOrder :=
    congrArg (fun order => int32 (order + 1)) (prepared_fields m source deleted).2.2.2.2
  unfold deploy
  rw [tracked_persist, named, next]
  simp only [Bool.false_eq_true, if_false, if_true]
  split <;> simp [trackDeployment, next]

theorem step_law {next : Manager} {action : Action} (valid : Valid m) (allowed : Allowed m action)
    (taken : step m action = some next) : Law m next action := by
  cases action with
  | restore evaluates deleted =>
      simp only [step] at taken
      split at taken
      · cases taken
      · next d rest pending =>
          cases taken
          have fresh : m.deployments d.source = none := allowed.2 d (by rw [pending]; rfl)
          exact fresh_store (m := { m with restored := m.restored ++ [d], pending := rest }) fresh evaluates deleted
  | deploy source evaluates deleted saved =>
      cases taken
      intro seeded runs named
      have order := nextDeployOrder_eq valid.range.1 (allowed runs)
      subst runs
      refine ⟨_, deploy_assigned named false deleted saved, fun d member => ?_⟩
      have before := valid.below seeded d member
      omega
  | _ => trivial

theorem restore_ordered (store : List PersistedDeployment) (path : List Action) (m : Manager)
    (allowed : Along step Allowed (start store) path) (reached : run step (start store) path = some m) :
    Ordered m ∧ ∀ action next, Allowed m action → step m action = some next → Law m next action := by
  have valid : Valid m :=
    Transition.along_invariant (fun _ _ _ valid ok taken => step_valid valid ok taken) (start_valid store) allowed reached
  exact ⟨valid.ordered, fun _ _ ok taken => step_law valid ok taken⟩

def alpha : PersistedDeployment := ⟨[97], 1⟩

def beta : PersistedDeployment := ⟨[98], 2⟩

def restart : List Action := [.load [alpha, beta], .seed, .restore true true, .restore false true]

theorem restored_ordered : ∃ m, run step (start [beta, alpha]) restart = some m ∧ Ordered m ∧
    ∀ next, step m (.deploy [99] true true true) = some next →
      ∃ order, next.deployments [99] = some order ∧ ∀ d ∈ [beta, alpha] ++ [alpha, beta], d.order < order := by
  have along : Along step Allowed (start [beta, alpha]) restart := by
    apply Transition.along_cons trivial rfl
    apply Transition.along_cons (by exact ⟨by decide, by decide⟩) rfl
    apply Transition.along_cons (by exact ⟨fun _ => by unfold Counts; decide, by decide⟩) rfl
    apply Transition.along_cons (by exact ⟨nofun, by decide⟩) rfl
    trivial
  obtain ⟨ordered, law⟩ := restore_ordered _ _ _ along rfl
  refine ⟨_, rfl, ordered, fun next taken => ?_⟩
  exact law (.deploy [99] true true true) next (by exact fun _ => by unfold Counts; decide) taken rfl rfl (by decide)

def Breaks (store : List PersistedDeployment) (path : List Action) (action : Action) : Prop :=
  ∃ m next, run step (start store) path = some m ∧ step m action = some next ∧ ¬Law m next action

-- A store that does not load, the last value of the counter, and a deployment made before its old record's turn.
theorem restore_unordered : Breaks [alpha] [.loadFails] (.deploy beta.source true true true) ∧
    Breaks [⟨[97], 2 ^ 31 - 1⟩] [.load [⟨[97], 2 ^ 31 - 1⟩], .seed, .restore false true]
      (.deploy beta.source true true true) ∧
    Breaks [alpha] [.load [alpha], .seed, .deploy alpha.source true true true] (.restore true true) := by
  refine ⟨⟨_, _, rfl, rfl, fun law => ?_⟩, ⟨_, _, rfl, rfl, fun law => ?_⟩, ⟨_, _, rfl, rfl, fun law => ?_⟩⟩
  · obtain ⟨order, assigned, above⟩ := law rfl rfl (by decide)
    cases assigned
    exact absurd (above alpha (by decide)) (by decide)
  · obtain ⟨order, assigned, above⟩ := law rfl rfl (by decide)
    cases assigned
    exact absurd (above ⟨[97], 2 ^ 31 - 1⟩ (by decide)) (by decide)
  · exact absurd law (by unfold Law; decide)

end Brainkit.Deploy.RestoreOrder
