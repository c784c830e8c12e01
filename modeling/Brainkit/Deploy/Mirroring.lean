import Brainkit.Library.Transition
import Brainkit.Deploy.Replicas

set_option autoImplicit false

namespace Brainkit.Deploy

open Function (update)
open Transition GoText

def Agree (store : GoString → Option PersistedDeployment) (latest : GoString → Option GoString) : Prop :=
  ∀ source, (store source).map PersistedDeployment.code = latest source

namespace Cluster

variable {n : Nat}

-- The store holds the sources whose latest operation was a successful deploy, each with the code of that deploy.
def StoreFollows (c : Cluster n) : Prop := Agree c.store c.latest

def Mirrors (c : Cluster n) : Action n → Prop
  | .teardownExisting r _ => ∃ source code opts existing,
      (c.replica r).job = some (.replacing source code opts existing) ∧ (deployConfig existing opts).restoring = true
  | .evaluate r _ => ∃ source code cfg replaced,
      (c.replica r).job = some (.preparing source code cfg replaced) ∧ cfg.restoring = true
  | .persistDeployment r _ _ => ∃ source code cfg order,
      (c.replica r).job = some (.persisting source code cfg order) ∧ cfg.restoring = true
  | .teardownLocked r _ _ => ∃ source, (c.replica r).job = some (.removing source true)
  | .receive _ _ | .mirror _ _ | .lose _ _ => True
  | .deploy _ _ _ _ | .loadExisting _ | .teardown _ _ => False

-- A mirrored deploy replaces, and a mirrored teardown removes, only a source that has no record; a deploy that fails
-- before it removed anything leaves no record behind; and the writes of a replica's own operations succeed.
def KeepsRecords (sourcePreparer : Option (GoString → GoString → Option GoString)) (c : Cluster n) : Action n → Prop
  | .teardownExisting r deleted => ∀ source code opts existing,
      (c.replica r).job = some (.replacing source code opts existing) →
        if (deployConfig existing opts).restoring then deleted = true → c.store source = none
        else deleted = true ∨ c.store source = none
  | .evaluate r evaluates => ∀ source code cfg,
      (c.replica r).job = some (.preparing source code cfg false) → cfg.restoring = false →
        ¬ ((prepareDeployCode sourcePreparer source code cfg).isSome ∧ evaluates = true) → c.store source = none
  | .persistDeployment r saved _ => ∀ source code cfg order,
      (c.replica r).job = some (.persisting source code cfg order) → cfg.restoring = false →
        saved = true ∨ (c.store source).map PersistedDeployment.code = some code
  | .teardownLocked r deleted _ => ∀ source mirrored, (c.replica r).job = some (.removing source mirrored) →
      if mirrored then deleted = true → c.store source = none else deleted = true ∨ c.store source = none
  | _ => True

theorem agree_update_iff (store : GoString → Option PersistedDeployment) (latest : GoString → Option GoString)
    (source : GoString) (record : Option PersistedDeployment) (code : Option GoString) (agree : Agree store latest) :
    Agree (update store source record) (update latest source code) ↔ record.map PersistedDeployment.code = code := by
  constructor
  · intro updated
    simpa using updated source
  · intro same other
    by_cases here : other = source
    · subst here
      simpa using same
    · simpa [Function.update_of_ne here] using agree other

theorem agree_writes_iff (store : GoString → Option PersistedDeployment) (latest : GoString → Option GoString)
    (source : GoString) (writes ledger : Bool) (record : Option PersistedDeployment) (code : Option GoString)
    (agree : Agree store latest) :
    Agree (if writes then update store source record else store) (if ledger then latest else update latest source code) ↔
      (if writes then record else store source).map PersistedDeployment.code = if ledger then latest source else code := by
  have update_if : (if writes then update store source record else store) =
      update store source (if writes then record else store source) := by
    cases writes <;> simp
  have ledger_if : (if ledger then latest else update latest source code) =
      update latest source (if ledger then latest source else code) := by
    cases ledger <;> simp
  rw [update_if, ledger_if, agree_update_iff store latest source _ _ agree]

theorem absent_iff (c : Cluster n) (follows : StoreFollows c) (source : GoString) :
    none = c.latest source ↔ c.store source = none := by
  rw [eq_comm, ← follows source, Option.map_eq_none_iff]

theorem teardown_existing_iff (c next : Cluster n) (r : Fin n) (deleted : Bool) (follows : StoreFollows c)
    (taken : c.teardownExisting r deleted = some next)
    (sourcePreparer : Option (GoString → GoString → Option GoString)) :
    StoreFollows next ↔ KeepsRecords sourcePreparer c (.teardownExisting r deleted) := by
  unfold teardownExisting at taken
  split at taken
  next source code opts existing job =>
    cases taken
    have writes := agree_writes_iff c.store c.latest source deleted (deployConfig existing opts).restoring none none follows
    refine writes.trans ?_
    have recorded := follows source
    have absent := absent_iff c follows source
    simp only [KeepsRecords, job, Option.some.injEq, Job.replacing.injEq, and_imp]
    constructor
    · rintro same _ _ _ _ rfl rfl rfl rfl
      cases deleted <;> cases restoring : (deployConfig existing opts).restoring <;> simp_all
    · intro keeps
      have kept := keeps source code opts existing rfl rfl rfl rfl
      cases deleted <;> cases restoring : (deployConfig existing opts).restoring <;> simp_all
  next => cases taken

theorem evaluate_iff (sourcePreparer : Option (GoString → GoString → Option GoString)) (c next : Cluster n) (r : Fin n)
    (evaluates : Bool) (follows : StoreFollows c) (taken : c.evaluate sourcePreparer r evaluates = some next) :
    StoreFollows next ↔ KeepsRecords sourcePreparer c (.evaluate r evaluates) := by
  unfold evaluate at taken
  split at taken
  next source code cfg replaced job =>
    have recorded := follows source
    split at taken
    next prepared =>
      cases taken
      refine iff_of_true follows ?_
      rintro _ _ _ same - failed
      rw [job, Option.some.injEq, Job.preparing.injEq] at same
      obtain ⟨rfl, rfl, rfl, -⟩ := same
      exact absurd prepared failed
    next failed =>
      cases taken
      have writes := agree_writes_iff c.store c.latest source false (cfg.restoring || replaced) none none follows
      simp only [Bool.or_eq_true] at writes
      refine Iff.trans writes ?_
      simp only [KeepsRecords, job, Option.some.injEq, Job.preparing.injEq, and_imp]
      constructor
      · rintro same _ _ _ rfl rfl rfl rfl fresh -
        simp_all
      · intro keeps
        cases replaced <;> cases restoring : cfg.restoring <;> simp_all
  next => cases taken

theorem persist_deployment_iff (c next : Cluster n) (r : Fin n) (saved announced : Bool) (follows : StoreFollows c)
    (taken : c.persistDeployment r saved announced = some next)
    (sourcePreparer : Option (GoString → GoString → Option GoString)) :
    StoreFollows next ↔ KeepsRecords sourcePreparer c (.persistDeployment r saved announced) := by
  unfold persistDeployment at taken
  split at taken
  next source code cfg order job =>
    split at taken
    next restoring =>
      cases taken
      refine iff_of_true follows ?_
      rintro _ _ _ _ same own
      rw [job, Option.some.injEq, Job.persisting.injEq] at same
      obtain ⟨-, -, rfl, -⟩ := same
      exact absurd (restoring.symm.trans own) (by decide)
    next own =>
      cases taken
      have writes := agree_writes_iff c.store c.latest source saved false
        (some ⟨source, code, order, cfg.packageName, some cfg.effectiveArtifactKind⟩) (some code) follows
      refine Iff.trans writes ?_
      simp only [KeepsRecords, job, Option.some.injEq, Job.persisting.injEq, and_imp]
      constructor
      · rintro same _ _ _ _ rfl rfl rfl rfl -
        cases saved <;> simp_all
      · intro keeps
        have kept := keeps source code cfg order rfl rfl rfl rfl (by simpa using own)
        cases saved <;> simp_all
  next => cases taken

theorem teardown_locked_iff (c next : Cluster n) (r : Fin n) (deleted announced : Bool) (follows : StoreFollows c)
    (taken : c.teardownLocked r deleted announced = some next)
    (sourcePreparer : Option (GoString → GoString → Option GoString)) :
    StoreFollows next ↔ KeepsRecords sourcePreparer c (.teardownLocked r deleted announced) := by
  unfold teardownLocked at taken
  split at taken
  next source mirrored job =>
    cases taken
    refine Iff.trans (agree_writes_iff c.store c.latest source deleted mirrored none none follows) ?_
    have recorded := follows source
    have absent := absent_iff c follows source
    simp only [KeepsRecords, job, Option.some.injEq, Job.removing.injEq, and_imp]
    constructor
    · rintro same _ _ rfl rfl
      cases deleted <;> cases mirrored <;> simp_all
    · intro keeps
      have kept := keeps source mirrored rfl rfl
      cases deleted <;> cases mirrored <;> simp_all
  next => cases taken

structure Writeless (c next : Cluster n) : Prop where
  store : next.store = c.store
  latest : next.latest = c.latest

theorem deploy_writeless (c next : Cluster n) (r : Fin n) (source code : GoString) (opts : List DeployOption)
    (taken : c.deploy r source code opts = some next) : Writeless c next := by
  unfold deploy at taken
  repeat' split at taken
  all_goals cases taken
  all_goals exact ⟨rfl, rfl⟩

theorem load_existing_writeless (c next : Cluster n) (r : Fin n) (taken : c.loadExisting r = some next) :
    Writeless c next := by
  unfold loadExisting at taken
  split at taken <;> cases taken
  exact ⟨rfl, rfl⟩

theorem receive_writeless (c next : Cluster n) (r : Fin n) (evt : Event n) (taken : c.receive r evt = some next) :
    Writeless c next := by
  unfold receive at taken
  repeat' split at taken
  all_goals cases taken
  all_goals exact ⟨rfl, rfl⟩

theorem mirror_writeless (c next : Cluster n) (r : Fin n) (dep : PersistedDeployment)
    (taken : c.mirror r dep = some next) : Writeless c next := by
  unfold mirror at taken
  split at taken
  · cases taken
  · have writeless := deploy_writeless _ next r _ _ _ taken
    exact ⟨writeless.store, writeless.latest⟩

theorem writeless_iff (sourcePreparer : Option (GoString → GoString → Option GoString)) (c next : Cluster n)
    (action : Action n) (free : KeepsRecords sourcePreparer c action) (follows : StoreFollows c)
    (writeless : Writeless c next) : StoreFollows next ↔ KeepsRecords sourcePreparer c action := by
  refine iff_of_true ?_ free
  simpa only [StoreFollows, writeless.store, writeless.latest] using follows

theorem store_follows_step_iff (sourcePreparer : Option (GoString → GoString → Option GoString)) (c : Cluster n)
    (action : Action n) (next : Cluster n) (follows : StoreFollows c) (taken : step sourcePreparer c action = some next) :
    StoreFollows next ↔ KeepsRecords sourcePreparer c action := by
  cases action with
  | deploy r source code opts =>
      simp only [step] at taken
      split at taken
      · cases taken
      · exact writeless_iff sourcePreparer c next _ trivial follows (deploy_writeless c next r source code opts taken)
  | loadExisting r => exact writeless_iff sourcePreparer c next _ trivial follows (load_existing_writeless c next r taken)
  | teardownExisting r deleted => exact teardown_existing_iff c next r deleted follows taken sourcePreparer
  | evaluate r evaluates => exact evaluate_iff sourcePreparer c next r evaluates follows taken
  | persistDeployment r saved announced =>
      exact persist_deployment_iff c next r saved announced follows taken sourcePreparer
  | teardown r source =>
      simp only [step, teardown] at taken
      split at taken <;> cases taken
      exact writeless_iff sourcePreparer c _ _ trivial follows ⟨rfl, rfl⟩
  | teardownLocked r deleted announced => exact teardown_locked_iff c next r deleted announced follows taken sourcePreparer
  | receive r evt => exact writeless_iff sourcePreparer c next _ trivial follows (receive_writeless c next r evt taken)
  | mirror r dep => exact writeless_iff sourcePreparer c next _ trivial follows (mirror_writeless c next r dep taken)
  | lose r evt =>
      simp only [step, lose] at taken
      split at taken <;> cases taken
      exact writeless_iff sourcePreparer c _ _ trivial follows ⟨rfl, rfl⟩

def MirrorKeepsStore (sourcePreparer : Option (GoString → GoString → Option GoString)) (c : Cluster n)
    (action : Action n) : Prop :=
  Mirrors c action → ∀ next, step sourcePreparer c action = some next → next.store = c.store

theorem mirror_keeps_store (sourcePreparer : Option (GoString → GoString → Option GoString)) (c : Cluster n)
    (action : Action n) (keeps : KeepsRecords sourcePreparer c action) : MirrorKeepsStore sourcePreparer c action := by
  intro mirrors next taken
  cases action with
  | deploy => exact absurd mirrors id
  | loadExisting => exact absurd mirrors id
  | teardown => exact absurd mirrors id
  | teardownExisting r deleted =>
      obtain ⟨source, code, opts, existing, job, restoring⟩ := mirrors
      have kept := keeps source code opts existing job
      simp only [restoring, if_true] at kept
      simp only [step, teardownExisting, job, Option.some.injEq] at taken
      subst taken
      cases deleted with
      | false => rfl
      | true => exact Function.update_eq_self_iff.mpr (kept rfl).symm
  | evaluate r evaluates =>
      obtain ⟨source, code, cfg, replaced, job, restoring⟩ := mirrors
      simp only [step, evaluate, job] at taken
      split at taken <;> cases taken <;> rfl
  | persistDeployment r saved announced =>
      obtain ⟨source, code, cfg, order, job, restoring⟩ := mirrors
      simp only [step, persistDeployment, job, restoring, if_true] at taken
      cases taken
      rfl
  | teardownLocked r deleted announced =>
      obtain ⟨source, job⟩ := mirrors
      have kept := keeps source true job
      simp only [step, teardownLocked, job, Option.some.injEq] at taken
      subst taken
      cases deleted with
      | false => rfl
      | true => exact Function.update_eq_self_iff.mpr (kept rfl).symm
  | receive r evt => exact (receive_writeless c next r evt taken).store
  | mirror r dep => exact (mirror_writeless c next r dep taken).store
  | lose r evt =>
      simp only [step, lose] at taken
      split at taken <;> cases taken
      rfl

theorem start_store_follows : StoreFollows (start n) := fun _ => rfl

theorem store_follows_iff (sourcePreparer : Option (GoString → GoString → Option GoString)) (path : List (Action n))
    (c : Cluster n) (reached : run (step sourcePreparer) (start n) path = some c) :
    (Always (step sourcePreparer) StoreFollows (start n) path ↔
      Along (step sourcePreparer) (KeepsRecords sourcePreparer) (start n) path) ∧
    (Along (step sourcePreparer) (KeepsRecords sourcePreparer) (start n) path →
      Along (step sourcePreparer) (MirrorKeepsStore sourcePreparer) (start n) path) :=
  ⟨always_iff_along (fun _ _ _ _ _ => trivial) (fun state action next _ => store_follows_step_iff sourcePreparer state action next)
      trivial start_store_follows reached,
    along_mono (mirror_keeps_store sourcePreparer)⟩

def source : GoString := lit "a.ts"

def localDeploy (n : Nat) (r : Fin n) (code : GoString) : List (Action n) :=
  [.deploy r source code [.withNormalizedJS], .evaluate r true, .persistDeployment r true true]

def record (code : GoString) (order : Nat) : PersistedDeployment := ⟨source, code, order, [], some .normalizedJS⟩

def toBoth (evt : Event 2) : List (Action 2) := [.receive 0 evt, .receive 1 evt]

def mirrored (code : GoString) : List (Action 2) :=
  [.mirror 1 (record code 1), .evaluate 1 true, .persistDeployment 1 true true]

-- The second replica mirrors a deploy of the first one and then its teardown.
theorem mirrored_follows : Always (step none) StoreFollows (start 2) (localDeploy 2 0 (lit "1") ++
    toBoth (.kitDeployed source 0) ++ mirrored (lit "1") ++ [.teardown 0 source, .teardownLocked 0 true true] ++
    toBoth (.kitTeardowned source 0) ++ [.teardownLocked 1 true true]) := by
  apply (store_follows_iff none _ _ rfl).1.mpr
  apply along_cons trivial rfl
  refine along_cons (fun _ _ _ job _ failed => absurd ?_ failed) rfl ?_
  · cases job
    exact ⟨rfl, rfl⟩
  refine along_cons (fun _ _ _ _ _ _ => .inl rfl) rfl ?_
  apply along_cons trivial rfl
  apply along_cons trivial rfl
  apply along_cons trivial rfl
  refine along_cons (fun _ _ _ job own _ => ?_) rfl ?_
  · cases job
    cases own
  refine along_cons (fun _ _ _ _ job own => ?_) rfl ?_
  · cases job
    cases own
  apply along_cons trivial rfl
  refine along_cons (fun _ _ job => ?_) rfl ?_
  · cases job
    exact .inl rfl
  apply along_cons trivial rfl
  apply along_cons trivial rfl
  refine along_cons (fun _ _ job => ?_) rfl trivial
  cases job
  exact fun _ => rfl

def Quiet (c : Cluster n) : Prop :=
  c.inFlight = [] ∧ ∀ r, (c.replica r).job = none ∧ (c.replica r).mirrors = []

-- The second replica mirrors a deploy and then the redeploy of the same source: replacing its own copy it deletes the
-- record of the first replica's redeploy.
theorem mirrored_redeploy_loses_record : ∃ c, Reachable (step none) (start 2) c ∧ Quiet c ∧
    c.latest source = some (lit "2") ∧ c.store source = none := by
  refine ⟨_, ⟨localDeploy 2 0 (lit "1") ++ toBoth (.kitDeployed source 0) ++ mirrored (lit "1") ++
    ([.deploy 0 source (lit "2") [.withNormalizedJS], .loadExisting 0, .teardownExisting 0 true, .evaluate 0 true,
      .persistDeployment 0 true true] : List (Action 2)) ++ toBoth (.kitDeployed source 0) ++
    ([.mirror 1 (record (lit "2") 2), .loadExisting 1, .teardownExisting 1 true, .evaluate 1 true,
      .persistDeployment 1 true true] : List (Action 2)), rfl⟩, ⟨rfl, ?_⟩, rfl, rfl⟩
  decide

end Cluster

end Brainkit.Deploy
