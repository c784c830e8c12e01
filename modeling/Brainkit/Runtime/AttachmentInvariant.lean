import Brainkit.Runtime.Attachment

set_option autoImplicit false

-- What holds of the attachment between any two steps of the calls, and what a change of one part of the kernel keeps of it.
namespace Brainkit.Attachment

open GoText Kernel
open Function (update update_self update_of_ne update_apply)

def Early : EnableCall → Prop
  | .idle | .building | .built | .snapped | .checked => True
  | _ => False

def Unbuilt : EnableCall → Prop
  | .idle | .building => True
  | _ => False

def Attachable : EnableCall → Prop
  | .attached | .ready | .failing _ | .returned => True
  | _ => False

def Unset : EnableCall → Prop
  | .attached | .ready | .failing _ => True
  | _ => False

structure Local (pc : EnableCall) (rt : Runtime) (leased attached : Prop) : Prop where
  unknown : Early pc → ¬ leased ∧ ¬ attached ∧ rt.closeTried = false ∧ rt.closed = false ∧ rt.reported = false ∧
    (∀ name, rt.opened name = false) ∧ (rt.built = false ↔ Unbuilt pc)
  attachable : attached → Attachable pc
  settled : pc = .returned → rt.built = true → rt.closed = true ∨ rt.reported = true ∨ attached
  gone : rt.closed = true ∨ rt.reported = true → ¬ leased
  held : ¬ Early pc → rt.built = true → rt.closeTried = false → leased
  made : ¬ Early pc → pc ≠ .returned ∨ leased ∨ attached → rt.built = true

def StageOk (rt : Runtime) (leased : Prop) : Stage → Prop
  | .lock => True
  | .bridges | .lease => rt.closeTried = true
  | .sandbox => rt.closeTried = true ∧ ¬ leased
  | .detach | .clear => rt.closed = true ∨ rt.reported = true

structure Valid (k : Kernel) : Prop where
  here : ∀ r, Local (k.enables r) (k.runtime r) (r ∈ k.leases) (k.jsRuntime = some r)
  tied : ∀ a r stage, k.stage a = some (r, stage) → ¬ Early (k.enables r) ∧ StageOk (k.runtime r) (r ∈ k.leases) stage
  opened : ∀ r name, (k.runtime r).closeTried = false → (k.runtime r).opened name = true → k.bridges name = some (.runtime r)
  closing : ∀ r name, k.closingBridges name = some (.runtime r) → (k.runtime r).closeTried = true
  set : k.flag = true → k.jsRuntime ≠ none ∨ ∃ a r, k.stage a = some (r, .clear)
  unset : ∀ r, k.jsRuntime = some r → k.flag = true ∨ Unset (k.enables r)

theorem new_valid (bridges : GoString → Bool) : Valid (new bridges) where
  here r := ⟨fun _ => ⟨List.not_mem_nil, nofun, rfl, rfl, rfl, fun _ => rfl, iff_of_true rfl trivial⟩, nofun, nofun,
    fun done => done.elim nofun nofun, fun late => absurd trivial late, fun late => absurd trivial late⟩
  tied a r stage here := by cases a <;> cases here
  opened r name _ here := nomatch here
  closing r name here := nomatch here
  set here := nomatch here
  unset r here := nomatch here

section

variable {k : Kernel}

theorem stage_goto_other {e : Nat} {pc : EnableCall} {a : Actor} (apart : a ≠ .enable e) : (k.goto e pc).stage a = k.stage a := by
  cases a with
  | disable d => rfl
  | enable other =>
      have differ : other ≠ e := fun same => apart (congrArg Actor.enable same)
      simp only [Kernel.stage, Kernel.goto, update_of_ne differ]

theorem stageOk_mono {rt rt' : Runtime} {leased : Prop} {stage : Stage} (tried : rt.closeTried = true → rt'.closeTried = true)
    (done : rt.closed = true ∨ rt.reported = true → rt'.closed = true ∨ rt'.reported = true) (ok : StageOk rt leased stage) :
    StageOk rt' leased stage := by
  cases stage with
  | lock => trivial
  | bridges => exact tried ok
  | lease => exact tried ok
  | sandbox => exact ⟨tried ok.1, ok.2⟩
  | detach => exact done ok
  | clear => exact done ok

theorem runtime_valid {r : Nat} {rt : Runtime} (valid : Valid k)
    (here : Local (k.enables r) rt (r ∈ k.leases) (k.jsRuntime = some r))
    (tried : (k.runtime r).closeTried = true → rt.closeTried = true)
    (done : (k.runtime r).closed = true ∨ (k.runtime r).reported = true → rt.closed = true ∨ rt.reported = true)
    (opened : ∀ name, rt.closeTried = false → rt.opened name = true → k.bridges name = some (.runtime r)) :
    Valid (k.setRuntime r rt) where
  here other := by
    by_cases same : other = r
    · subst same
      simpa only [Kernel.setRuntime, update_self] using here
    · simpa only [Kernel.setRuntime, update_of_ne same] using valid.here other
  tied a other stage found := by
    obtain ⟨known, ok⟩ := valid.tied a other stage found
    refine ⟨known, ?_⟩
    by_cases same : other = r
    · subst same
      simp only [Kernel.setRuntime, update_self]
      exact stageOk_mono tried done ok
    · simpa only [Kernel.setRuntime, update_of_ne same] using ok
  opened other name := by
    by_cases same : other = r
    · subst same
      simpa only [Kernel.setRuntime, update_self] using opened name
    · simpa only [Kernel.setRuntime, update_of_ne same] using valid.opened other name
  closing other name found := by
    have before := valid.closing other name found
    by_cases same : other = r
    · subst same
      simpa only [Kernel.setRuntime, update_self] using tried before
    · simpa only [Kernel.setRuntime, update_of_ne same] using before
  set := valid.set
  unset := valid.unset

theorem enable_valid {e : Nat} {pc : EnableCall} {rt : Runtime} (valid : Valid k) (idle : k.stage (.enable e) = none)
    (start : ∀ stage, pc = .failing stage → stage = .lock)
    (late : ¬ Early (k.enables e) → ¬ Early pc)
    (here : Local pc rt (e ∈ k.leases) (k.jsRuntime = some e))
    (tried : (k.runtime e).closeTried = true → rt.closeTried = true)
    (done : (k.runtime e).closed = true ∨ (k.runtime e).reported = true → rt.closed = true ∨ rt.reported = true)
    (opened : ∀ name, rt.closeTried = false → rt.opened name = true → k.bridges name = some (.runtime e))
    (unset : k.jsRuntime = some e → k.flag = true ∨ Unset pc) : Valid ((k.setRuntime e rt).goto e pc) where
  here r := by
    by_cases same : r = e
    · subst same
      simpa only [Kernel.goto, Kernel.setRuntime, update_self] using here
    · simpa only [Kernel.goto, Kernel.setRuntime, update_of_ne same] using valid.here r
  tied a r stage found := by
    by_cases own : a = .enable e
    · subst own
      have pcs : ((k.setRuntime e rt).goto e pc).enables e = pc := by simp only [Kernel.goto, update_self]
      simp only [Kernel.stage, pcs] at found
      cases pc with
      | failing stage' =>
          cases found
          obtain rfl := start stage rfl
          rw [pcs]
          exact ⟨id, trivial⟩
      | _ => cases found
    · rw [stage_goto_other own] at found
      obtain ⟨known, ok⟩ := valid.tied a r stage found
      by_cases same : r = e
      · subst same
        simp only [Kernel.goto, Kernel.setRuntime, update_self]
        exact ⟨late known, stageOk_mono tried done ok⟩
      · simpa only [Kernel.goto, Kernel.setRuntime, update_of_ne same] using ⟨known, ok⟩
  opened r name := by
    by_cases same : r = e
    · subst same
      simpa only [Kernel.goto, Kernel.setRuntime, update_self] using opened name
    · simpa only [Kernel.goto, Kernel.setRuntime, update_of_ne same] using valid.opened r name
  closing r name found := by
    have before := valid.closing r name found
    by_cases same : r = e
    · subst same
      simpa only [Kernel.goto, Kernel.setRuntime, update_self] using tried before
    · simpa only [Kernel.goto, Kernel.setRuntime, update_of_ne same] using before
  set flag := by
    refine (valid.set flag).imp_right ?_
    rintro ⟨a, r, found⟩
    refine ⟨a, r, ?_⟩
    rw [stage_goto_other]
    · exact found
    · rintro rfl
      cases idle.symm.trans found
  unset r attached := by
    by_cases same : r = e
    · subst same
      simpa only [Kernel.goto, Kernel.setRuntime, update_self] using unset attached
    · simpa only [Kernel.goto, Kernel.setRuntime, update_of_ne same] using valid.unset r attached

theorem goto_valid {e : Nat} {pc : EnableCall} (valid : Valid k) (idle : k.stage (.enable e) = none)
    (start : ∀ stage, pc = .failing stage → stage = .lock)
    (late : ¬ Early (k.enables e) → ¬ Early pc)
    (here : Local pc (k.runtime e) (e ∈ k.leases) (k.jsRuntime = some e))
    (unset : k.jsRuntime = some e → k.flag = true ∨ Unset pc) : Valid (k.goto e pc) := by
  have same : k.setRuntime e (k.runtime e) = k := by
    rw [Kernel.setRuntime, Function.update_eq_self]
  have moved := enable_valid valid idle start late here id id (valid.opened e) unset
  rw [same] at moved
  exact moved

theorem leases_valid {leases : List Nat} (valid : Valid k)
    (here : ∀ r, Local (k.enables r) (k.runtime r) (r ∈ leases) (k.jsRuntime = some r))
    (kept : ∀ a r, k.stage a = some (r, .sandbox) → r ∉ leases) : Valid { k with leases := leases } where
  here := here
  tied a r stage found := by
    obtain ⟨known, ok⟩ := valid.tied a r stage found
    refine ⟨known, ?_⟩
    cases stage with
    | sandbox => exact ⟨ok.1, kept a r found⟩
    | _ => exact ok
  opened := valid.opened
  closing := valid.closing
  set := valid.set
  unset := valid.unset

theorem bridges_valid {bridges closingBridges : GoString → Option Owner} (valid : Valid k)
    (opened : ∀ r name, (k.runtime r).closeTried = false → (k.runtime r).opened name = true → bridges name = some (.runtime r))
    (closing : ∀ r name, closingBridges name = some (.runtime r) → (k.runtime r).closeTried = true) :
    Valid { k with bridges := bridges, closingBridges := closingBridges } :=
  ⟨valid.here, valid.tied, opened, closing, valid.set, valid.unset⟩

theorem disables_valid {disables : Nat → DisableCall} (valid : Valid k)
    (tied : ∀ d r stage, disables d = .closing r stage → ¬ Early (k.enables r) ∧ StageOk (k.runtime r) (r ∈ k.leases) stage)
    (set : k.flag = true → k.jsRuntime ≠ none ∨ ∃ a r, { k with disables := disables }.stage a = some (r, .clear)) :
    Valid { k with disables := disables } where
  here := valid.here
  tied a r stage found := by
    cases a with
    | enable e => exact valid.tied (.enable e) r stage found
    | disable d =>
        dsimp only [Kernel.stage] at found
        split at found
        · next here =>
            cases found
            exact tied d r stage here
        · cases found
  opened := valid.opened
  closing := valid.closing
  set := set
  unset := valid.unset

theorem stage_enable {e r : Nat} {stage : Stage} (found : k.stage (.enable e) = some (r, stage)) :
    e = r ∧ k.enables e = .failing stage := by
  dsimp only [Kernel.stage] at found
  split at found
  · next here =>
      cases found
      exact ⟨rfl, here⟩
  · cases found

theorem stage_disable {d r : Nat} {stage : Stage} (found : k.stage (.disable d) = some (r, stage)) :
    k.disables d = .closing r stage := by
  dsimp only [Kernel.stage] at found
  split at found
  · next here =>
      cases found
      exact here
  · cases found

theorem stage_setStage {a : Actor} {r : Nat} {stage : Stage} (b : Actor) (owner : ∀ e, a = .enable e → e = r) :
    (k.setStage a r stage).stage b = if b = a then some (r, stage) else k.stage b := by
  split
  · next same =>
      subst same
      cases b with
      | enable e =>
          obtain rfl := owner e rfl
          simp only [Kernel.setStage, Kernel.stage, Kernel.goto, update_self]
      | disable d => simp only [Kernel.setStage, Kernel.stage, update_self]
  · next apart =>
      cases a with
      | enable e => exact stage_goto_other apart
      | disable d =>
          cases b with
          | enable e => rfl
          | disable other =>
              have differ : other ≠ d := fun same => apart (congrArg Actor.disable same)
              simp only [Kernel.setStage, Kernel.stage, update_of_ne differ]

theorem local_failing {rt : Runtime} {leased attached : Prop} {before stage : Stage}
    (here : Local (.failing before) rt leased attached) : Local (.failing stage) rt leased attached :=
  ⟨fun early => absurd early id, fun _ => trivial, nofun, here.gone, fun _ => here.held id, fun _ _ => here.made id (.inl nofun)⟩

theorem setStage_valid {a : Actor} {r : Nat} {before stage : Stage} (valid : Valid k) (found : k.stage a = some (r, before))
    (still : before ≠ .clear) (ok : StageOk (k.runtime r) (r ∈ k.leases) stage) : Valid (k.setStage a r stage) := by
  have owner : ∀ e, a = .enable e → e = r := by
    rintro e rfl
    exact (stage_enable found).1
  have known := (valid.tied a r before found).1
  have set : (k.setStage a r stage).flag = true → (k.setStage a r stage).jsRuntime ≠ none ∨
      ∃ b r', (k.setStage a r stage).stage b = some (r', .clear) := by
    intro flag
    have flag' : k.flag = true := by cases a <;> exact flag
    have same : (k.setStage a r stage).jsRuntime = k.jsRuntime := by cases a <;> rfl
    rw [same]
    refine (valid.set flag').imp_right ?_
    rintro ⟨b, r', here⟩
    refine ⟨b, r', ?_⟩
    rw [stage_setStage b owner, if_neg, here]
    rintro rfl
    cases found.symm.trans here
    exact still rfl
  cases a with
  | disable d =>
      refine disables_valid valid (fun other r' stage' here => ?_) set
      rw [update_apply] at here
      split at here
      · cases here
        exact ⟨known, ok⟩
      · refine valid.tied (.disable other) r' stage' ?_
        simp only [Kernel.stage, here]
  | enable e =>
      obtain ⟨rfl, failing⟩ := stage_enable found
      refine ⟨fun r => ?_, fun b r stage' here => ?_, valid.opened, valid.closing, set, fun r attached => ?_⟩
      · by_cases same : r = e
        · subst same
          simpa only [Kernel.setStage, Kernel.goto, update_self] using local_failing (failing ▸ valid.here r)
        · simpa only [Kernel.setStage, Kernel.goto, update_of_ne same] using valid.here r
      · rw [stage_setStage b owner] at here
        have late : ¬ Early (k.enables r) → ¬ Early ((k.setStage (.enable e) e stage).enables r) := by
          intro before
          by_cases same : r = e
          · subst same
            simp only [Kernel.setStage, Kernel.goto, update_self]
            exact id
          · simpa only [Kernel.setStage, Kernel.goto, update_of_ne same] using before
        split at here
        · cases here
          exact ⟨late known, ok⟩
        · obtain ⟨known', ok'⟩ := valid.tied b r stage' here
          exact ⟨late known', ok'⟩
      · by_cases same : r = e
        · subst same
          refine .inr ?_
          simp only [Kernel.setStage, Kernel.goto, update_self]
          trivial
        · simpa only [Kernel.setStage, Kernel.goto, update_of_ne same] using valid.unset r attached

theorem leave_valid {a : Actor} {r : Nat} {stage : Stage} (valid : Valid k) (found : k.stage a = some (r, stage))
    (settles : ∀ e, a = .enable e → k.jsRuntime = none ∧ ((k.runtime e).closed = true ∨ (k.runtime e).reported = true))
    (quiet : stage = .clear → k.flag = false) : Valid (k.leave a) := by
  have others (b : Actor) (apart : b ≠ a) : (k.leave a).stage b = k.stage b := by
    cases a with
    | enable e => exact stage_goto_other apart
    | disable d =>
        cases b with
        | enable e => rfl
        | disable other =>
            have differ : other ≠ d := fun same => apart (congrArg Actor.disable same)
            simp only [Kernel.leave, Kernel.stage, update_of_ne differ]
  have set : (k.leave a).flag = true → (k.leave a).jsRuntime ≠ none ∨ ∃ b r', (k.leave a).stage b = some (r', .clear) := by
    intro flag
    have flag' : k.flag = true := by cases a <;> exact flag
    have same : (k.leave a).jsRuntime = k.jsRuntime := by cases a <;> rfl
    rw [same]
    refine (valid.set flag').imp_right ?_
    rintro ⟨b, r', here⟩
    refine ⟨b, r', ?_⟩
    rw [others b, here]
    rintro rfl
    cases found.symm.trans here
    cases (quiet rfl).symm.trans flag'
  cases a with
  | disable d =>
      refine disables_valid valid (fun other r' stage' here => ?_) set
      rw [update_apply] at here
      split at here
      · cases here
      · refine valid.tied (.disable other) r' stage' ?_
        simp only [Kernel.stage, here]
  | enable e =>
      obtain ⟨rfl, failing⟩ := stage_enable found
      obtain ⟨detached, done⟩ := settles e rfl
      have before := valid.here e
      have late : ¬ Early (k.enables e) := by rw [failing]; exact id
      refine ⟨fun r => ?_, fun b r stage' here => ?_, valid.opened, valid.closing, set, fun r attached => ?_⟩
      · by_cases same : r = e
        · subst same
          simp only [Kernel.leave, Kernel.goto, update_self]
          exact ⟨fun early => absurd early id, fun _ => trivial, fun _ _ => or_assoc.mp (.inl done), before.gone,
            fun _ => before.held late, fun _ => fun live => before.made late (live.imp_left fun other => absurd rfl other)⟩
        · simpa only [Kernel.leave, Kernel.goto, update_of_ne same] using valid.here r
      · by_cases own : b = .enable e
        · subst own
          simp only [Kernel.leave, Kernel.stage, Kernel.goto, update_self] at here
          cases here
        · rw [others b own] at here
          obtain ⟨known, ok⟩ := valid.tied b r stage' here
          refine ⟨?_, ok⟩
          by_cases same : r = e
          · subst same
            simp only [Kernel.leave, Kernel.goto, update_self]
            exact id
          · simpa only [Kernel.leave, Kernel.goto, update_of_ne same] using known
      · cases detached.symm.trans attached

end

end Brainkit.Attachment
