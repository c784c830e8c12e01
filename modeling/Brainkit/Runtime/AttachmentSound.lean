import Brainkit.Runtime.AttachmentInvariant

set_option autoImplicit false

-- The attachment is sound in a run whose calls do not change what belongs to the runtime of another.
namespace Brainkit.Attachment

open GoText Kernel
open Function (update update_self update_of_ne update_apply)
open Transition (run Along along_cons)

-- The sandboxes that Enable gives up are closed; a runtime is attached where none is, and the flag is set while it is; the
-- flag is cleared while none is attached; and a close takes the bridges of its own runtime only.
def Ok (k : Kernel) : Action → Prop
  | .check _ ok => k.jsRuntime ≠ none → ok = true
  | .leaseFails _ ok => ok = true
  | .attach _ => k.jsRuntime = none
  | .activate e => k.jsRuntime = some e
  | .closeBridges a => ∀ r, k.stage a = some (r, .bridges) → ∀ name, k.targets r name → k.bridges name = some (.runtime r)
  | .clear _ => k.jsRuntime = none
  | .clearNothing _ => k.jsRuntime = none
  | _ => True

def Quiet (k : Kernel) : Prop :=
  (∀ e, k.enables e = .idle ∨ k.enables e = .returned) ∧ ∀ d, k.disables d = .idle ∨ k.disables d = .returned

-- The flag and the attachment agree, every runtime that was built is attached, closed or reported, no other than the attached
-- one has the evaluator, and an attached one that nobody has tried to close has it and its bridges.
structure Sound (k : Kernel) : Prop where
  flag : k.flag = true ↔ k.jsRuntime ≠ none
  built : ∀ r, (k.runtime r).built = true → k.jsRuntime = some r ∨ (k.runtime r).closed = true ∨ (k.runtime r).reported = true
  evaluator : ∀ r, k.evaluator = some r → k.jsRuntime = some r
  kept : ∀ r, k.jsRuntime = some r → (k.runtime r).closeTried = false →
    k.evaluator = some r ∧ ∀ name, (k.runtime r).opened name = true → k.bridges name = some (.runtime r)

section

variable {k next : Kernel}

theorem stage_none {e : Nat} (other : ∀ stage, k.enables e ≠ .failing stage) : k.stage (.enable e) = none := by
  dsimp only [Kernel.stage]
  split
  · next stage here => exact absurd here (other stage)
  · rfl

theorem not_attached {e : Nat} (valid : Valid k) (early : ¬ Attachable (k.enables e)) : k.jsRuntime ≠ some e :=
  fun here => early ((valid.here e).attachable here)

theorem early_built {e : Nat} (valid : Valid k) (early : Early (k.enables e)) (later : ¬ Unbuilt (k.enables e)) :
    (k.runtime e).built = true := by
  have fresh := ((valid.here e).unknown early).2.2.2.2.2.2
  exact (Bool.eq_false_or_eq_true _).resolve_right fun unbuilt => later (fresh.mp unbuilt)

theorem early_goto {e : Nat} {pc : EnableCall} (valid : Valid k) (early : Early (k.enables e))
    (still : Early pc ∨ pc = .returned ∧ (k.runtime e).built = false)
    (fresh : Early pc → ((k.runtime e).built = false ↔ Unbuilt pc)) : Valid (k.goto e pc) := by
  obtain ⟨unleased, unattached, untried, unclosed, unreported, unopened, -⟩ := (valid.here e).unknown early
  have idle : ∀ stage, k.enables e ≠ .failing stage := fun stage here => by rw [here] at early; exact early
  refine goto_valid valid (stage_none idle) ?_ (absurd early) ?_ fun attached => absurd attached unattached
  · rintro stage rfl
    rcases still with early | ⟨here, -⟩
    · exact early.elim
    · cases here
  · refine ⟨fun early => ⟨unleased, unattached, untried, unclosed, unreported, unopened, fresh early⟩,
      fun attached => absurd attached unattached, ?_, fun _ => unleased, ?_, ?_⟩
    · rintro rfl built
      rcases still with early | ⟨-, unbuilt⟩
      · exact early.elim
      · cases built.symm.trans unbuilt
    · intro late built
      rcases still with early | ⟨-, unbuilt⟩
      · exact absurd early late
      · cases built.symm.trans unbuilt
    · intro late live
      rcases still with early | ⟨rfl, -⟩
      · exact absurd early late
      · rcases live with other | leased | attached
        · exact absurd rfl other
        · exact absurd leased unleased
        · exact absurd attached unattached

theorem early_runtime {e : Nat} {pc : EnableCall} {rt : Runtime} (valid : Valid k) (early : Early (k.enables e))
    (still : Early pc)
    (built : rt.built = true ∧ ¬ Unbuilt pc)
    (same : rt.closeTried = (k.runtime e).closeTried ∧ rt.closed = (k.runtime e).closed ∧
      rt.reported = (k.runtime e).reported ∧ rt.opened = (k.runtime e).opened) : Valid ((k.setRuntime e rt).goto e pc) := by
  obtain ⟨tried, closed, reported, opened⟩ := same
  have idle : ∀ stage, k.enables e ≠ .failing stage := fun stage here => by rw [here] at early; exact early
  have unknown := (valid.here e).unknown early
  refine enable_valid valid (stage_none idle) ?_ (absurd early) ?_ ?_ ?_ ?_ fun attached => absurd attached unknown.2.1
  · rintro stage rfl
    exact still.elim
  · rw [← tried, ← closed, ← reported, ← opened] at unknown
    obtain ⟨unleased, unattached, untried, unclosed, unreported, unopened, -⟩ := unknown
    refine ⟨fun _ => ⟨unleased, unattached, untried, unclosed, unreported, unopened, ?_⟩,
      fun attached => absurd attached unattached, ?_, fun _ => unleased, absurd still, absurd still⟩
    · exact iff_of_false (by rw [built.1]; exact nofun) built.2
    rintro rfl
    exact still.elim
  · rw [tried]
    exact id
  · rw [closed, reported]
    exact id
  · rw [tried, opened]
    exact valid.opened e

theorem abandon_valid {e : Nat} (valid : Valid k) (early : Early (k.enables e)) : Valid (k.abandon e true) := by
  have idle : ∀ stage, k.enables e ≠ .failing stage := fun stage here => by rw [here] at early; exact early
  have unknown := (valid.here e).unknown early
  refine enable_valid valid (stage_none idle) nofun (absurd early) ?_ (fun _ => rfl) (fun _ => .inl rfl) nofun
    fun attached => absurd attached unknown.2.1
  refine ⟨fun early => absurd early id, fun _ => trivial, fun _ _ => .inl rfl, fun _ => unknown.1, nofun, fun _ live => ?_⟩
  rcases live with other | leased | attached
  · exact absurd rfl other
  · exact absurd leased unknown.1
  · exact absurd attached unknown.2.1

theorem leased_valid {e : Nat} (valid : Valid k) (checked : k.enables e = .checked) :
    Valid ({ k with leases := k.leases ++ [e] }.goto e .leased) := by
  have early : Early (k.enables e) := by rw [checked]; trivial
  obtain ⟨-, unattached, -, unclosed, unreported, -⟩ := (valid.here e).unknown early
  have built := early_built valid early (by rw [checked]; exact id)
  have none : k.stage (.enable e) = none := stage_none fun stage => by rw [checked]; rintro ⟨⟩
  have others {r : Nat} (apart : r ≠ e) : r ∈ k.leases ++ [e] ↔ r ∈ k.leases := by
    rw [List.mem_append, List.mem_singleton, or_iff_left apart]
  refine ⟨fun r => ?_, fun a r stage found => ?_, valid.opened, valid.closing, fun flag => (valid.set flag).imp_right ?_,
    fun r attached => ?_⟩
  · by_cases same : r = e
    · subst same
      simp only [Kernel.goto, update_self]
      refine ⟨fun early => absurd early id, fun attached => absurd attached unattached, by rintro ⟨⟩,
        fun done => ?_, fun _ _ _ => ?_,
        fun _ _ => built⟩
      · rcases done with here | here
        · cases unclosed.symm.trans here
        · cases unreported.symm.trans here
      · exact List.mem_append_right _ List.mem_cons_self
    · simpa only [Kernel.goto, update_of_ne same, others same] using valid.here r
  · by_cases own : a = .enable e
    · subst own
      simp only [Kernel.stage, Kernel.goto, update_self] at found
      cases found
    · rw [stage_goto_other own] at found
      obtain ⟨known, ok⟩ := valid.tied a r stage found
      have apart : r ≠ e := fun same => known (same ▸ early)
      simpa only [Kernel.goto, update_of_ne apart, others apart] using ⟨known, ok⟩
  · rintro ⟨a, r, found⟩
    refine ⟨a, r, ?_⟩
    rw [stage_goto_other]
    · exact found
    · rintro rfl
      cases none.symm.trans found
  · have apart : r ≠ e := fun same => unattached (same ▸ attached)
    simpa only [Kernel.goto, update_of_ne apart] using valid.unset r attached

theorem late_goto {e : Nat} {pc : EnableCall} (valid : Valid k) (late : ¬ Early (k.enables e))
    (idle : ∀ stage, k.enables e ≠ .failing stage) (start : ∀ stage, pc = .failing stage → stage = .lock)
    (moving : k.enables e ≠ .returned) (later : ¬ Early pc ∧ pc ≠ .returned)
    (attachable : k.jsRuntime = some e → Unset pc) : Valid (k.goto e pc) := by
  have before := valid.here e
  refine goto_valid valid (stage_none idle) start (fun _ => later.1) ?_ fun attached => .inr (attachable attached)
  refine ⟨fun early => absurd early later.1, fun attached => ?_, fun done => absurd done later.2, before.gone,
    fun _ => before.held late, fun _ _ => before.made late (.inl moving)⟩
  have unset := attachable attached
  cases pc <;> first | exact unset | trivial

theorem open_valid {e : Nat} {started : List GoString} (valid : Valid k) (late : ¬ Early (k.enables e))
    (free : ∀ name ∈ started, k.bridges name = none) : Valid (k.openBridges e started) := by
  have more : Valid { k with bridges := fun name => if name ∈ started then some (.runtime e) else k.bridges name } := by
    refine bridges_valid valid (fun r name untried open' => ?_) valid.closing
    have mine := valid.opened r name untried open'
    rw [if_neg fun member => ?_]
    · exact mine
    · cases (free name member).symm.trans mine
  have before := valid.here e
  refine runtime_valid more ⟨fun early => absurd early late, before.attachable, before.settled, before.gone, before.held,
    before.made⟩ id id ?_
  intro name untried open'
  dsimp only at open' ⊢
  split
  · rfl
  · next other =>
      rw [decide_eq_false other, Bool.or_false] at open'
      exact valid.opened e name untried open'

theorem drop_valid {e : Nat} {lost : List GoString} (valid : Valid k) (late : ¬ Early (k.enables e)) :
    Valid (k.dropBridges e lost) := by
  have before := valid.here e
  have fewer : Valid (k.setRuntime e { k.runtime e with opened := fun name => (k.runtime e).opened name && name ∉ lost }) := by
    refine runtime_valid valid ⟨fun early => absurd early late, before.attachable, before.settled, before.gone, before.held,
    before.made⟩ id id ?_
    exact fun name untried open' => valid.opened e name untried (Bool.and_eq_true_iff.mp open').1
  refine bridges_valid fewer (fun r name untried open' => ?_) fewer.closing
  have mine : k.bridges name = some (.runtime r) := fewer.opened r name untried open'
  rw [if_neg fun dropped => ?_]
  · exact mine
  · obtain ⟨member, own⟩ := dropped
    cases mine.symm.trans own
    simp only [Kernel.setRuntime, update_self, member, not_true_eq_false, decide_false, Bool.and_false] at open'
    cases open'

theorem attach_valid {e : Nat} (valid : Valid k) (registered : k.enables e = .registered) (free : k.jsRuntime = none) :
    Valid ({ k with jsRuntime := some e }.goto e .attached) := by
  have late : ¬ Early (k.enables e) := by rw [registered]; exact id
  have moved : Valid (k.goto e .attached) :=
    late_goto valid late (fun stage => by rw [registered]; rintro ⟨⟩) (by rintro _ ⟨⟩) (by rw [registered]; rintro ⟨⟩)
      ⟨id, by rintro ⟨⟩⟩
      fun _ => trivial
  have attached {r : Nat} : k.jsRuntime = some r ↔ False := iff_of_false (by rw [free]; rintro ⟨⟩) id
  refine ⟨fun r => ?_, moved.tied, moved.opened, moved.closing, fun _ => .inl (by rintro ⟨⟩), fun r here => ?_⟩
  · have before := moved.here r
    by_cases same : r = e
    · subst same
      have pc : (k.goto r .attached).enables r = .attached := update_self ..
      change Local ((k.goto r .attached).enables r) _ _ (some r = some r)
      rw [pc] at before ⊢
      exact ⟨fun early => absurd early id, fun _ => trivial, by rintro ⟨⟩, before.gone, before.held,
        fun _ _ => before.made id (.inl (by rintro ⟨⟩))⟩
    · have apart : (some e = some r) = (k.jsRuntime = some r) :=
        propext ((iff_of_false (fun h => same (Option.some.inj h).symm) id).trans attached.symm)
      change Local ((k.goto e .attached).enables r) _ _ (some e = some r)
      rw [apart]
      exact before
  · cases here
    refine .inr ?_
    simp only [Kernel.goto, update_self]
    trivial

theorem activate_valid {e : Nat} (valid : Valid k) (ready : k.enables e = .ready) (attached : k.jsRuntime = some e) :
    Valid ({ k with flag := true }.goto e .returned) := by
  have set : Valid { k with flag := true } :=
    ⟨valid.here, valid.tied, valid.opened, valid.closing, fun _ => .inl (by rw [attached]; exact nofun), fun _ _ => .inl rfl⟩
  have before := valid.here e
  have late : ¬ Early (k.enables e) := by rw [ready]; exact id
  refine goto_valid set (stage_none fun stage here => nomatch ready.symm.trans here) nofun (fun _ => id) ?_ fun _ => .inl rfl
  exact ⟨fun early => absurd early id, fun _ => trivial, fun _ _ => .inr (.inr attached), before.gone, fun _ => before.held late,
    fun _ _ => before.made late (.inl (by rw [ready]; exact nofun))⟩

theorem detach_valid {a : Actor} {r : Nat} (valid : Valid k) (found : k.stage a = some (r, .detach)) :
    Valid ({ k with jsRuntime := if k.jsRuntime = some r then none else k.jsRuntime }.setStage a r .clear) := by
  have done := (valid.tied a r .detach found).2
  have moved : Valid (k.setStage a r .clear) := setStage_valid valid found nofun done
  have owner : ∀ e, a = .enable e → e = r := by
    rintro e rfl
    exact (stage_enable found).1
  have same : ({ k with jsRuntime := if k.jsRuntime = some r then none else k.jsRuntime }.setStage a r .clear) =
      { k.setStage a r .clear with jsRuntime := if k.jsRuntime = some r then none else k.jsRuntime } := by
    cases a <;> rfl
  have js : (k.setStage a r .clear).jsRuntime = k.jsRuntime := by cases a <;> rfl
  have rt : (k.setStage a r .clear).runtime = k.runtime := by cases a <;> rfl
  rw [same]
  split
  · refine ⟨fun other => ?_, moved.tied, moved.opened, moved.closing, fun _ => .inr ⟨a, r, ?_⟩, nofun⟩
    · have before := moved.here other
      refine ⟨fun early => ?_, nofun, fun returned built => ?_, before.gone, before.held,
        fun late live => before.made late (live.imp_right fun held => .inl (held.resolve_right nofun))⟩
      · obtain ⟨unleased, -, rest⟩ := before.unknown early
        exact ⟨unleased, nofun, rest⟩
      · rcases before.settled returned built with closed | reported | attached
        · exact .inl closed
        · exact .inr (.inl reported)
        · rw [js] at attached
          have own : r = other := by
            have here : k.jsRuntime = some r := by assumption
            exact Option.some.inj (here.symm.trans attached)
          subst own
          change ((k.setStage a r .clear).runtime r).closed = true ∨ _
          rw [rt]
          exact or_assoc.mp (.inl done)
    · have here : (k.setStage a r .clear).stage a = if a = a then some (r, .clear) else k.stage a := stage_setStage a owner
      rw [if_pos rfl] at here
      cases a <;> exact here
  · rw [← js]
    exact moved

theorem afterClose_valid {a : Actor} {r : Nat} {before : Stage} {err : Bool} (valid : Valid k)
    (found : k.stage a = some (r, before)) (still : before ≠ .clear)
    (done : (k.runtime r).closed = true ∨ (k.runtime r).reported = true) : Valid (afterClose k a r err) := by
  have detach : Valid (k.setStage a r .detach) := setStage_valid valid found still done
  unfold afterClose
  split
  · exact detach
  · split
    · exact leave_valid valid found nofun fun same => absurd same still
    · exact detach

theorem locked_valid {a : Actor} {r : Nat} (valid : Valid k) (found : k.stage a = some (r, .lock)) :
    Valid ((k.setRuntime r { k.runtime r with closeMu := true, closeTried := true }).setStage a r .bridges) := by
  obtain ⟨late, -⟩ := valid.tied a r .lock found
  have before := valid.here r
  have tried : Valid (k.setRuntime r { k.runtime r with closeMu := true, closeTried := true }) :=
    runtime_valid valid ⟨fun early => absurd early late, before.attachable, before.settled, before.gone, nofun, before.made⟩
      (fun _ => rfl) id nofun
  refine setStage_valid tried found nofun ?_
  simp only [Kernel.setRuntime, update_self]
  rfl

theorem closeBridges_valid {a : Actor} {r : Nat} (valid : Valid k) (found : k.stage a = some (r, .bridges))
    (own : ∀ name, k.targets r name → k.bridges name = some (.runtime r)) :
    Valid ({ k with
      closingBridges := fun name => if k.targets r name then k.bridges name else k.closingBridges name }.setStage a r .lease) := by
  have tried := (valid.tied a r .bridges found).2
  have marked : Valid { k with
      closingBridges := fun name => if k.targets r name then k.bridges name else k.closingBridges name } := by
    refine bridges_valid valid valid.opened fun other name here => ?_
    split at here
    · next target =>
        cases (own name target).symm.trans here
        exact tried
    · exact valid.closing other name here
  exact setStage_valid marked found nofun tried

theorem closeLease_valid {a : Actor} {r : Nat} (valid : Valid k) (found : k.stage a = some (r, .lease)) :
    Valid ({ k with leases := k.leases.filter (· ≠ r) }.setStage a r .sandbox) := by
  have tried := (valid.tied a r .lease found).2
  have gone : r ∉ k.leases.filter (· ≠ r) := fun member => of_decide_eq_true (List.mem_filter.mp member).2 rfl
  have released : Valid { k with leases := k.leases.filter (· ≠ r) } := by
    refine leases_valid valid (fun other => ?_) fun b other here member =>
      (valid.tied b other .sandbox here).2.2 (List.mem_filter.mp member).1
    have before := valid.here other
    have leased (member : other ∈ k.leases.filter (· ≠ r)) : other ∈ k.leases := (List.mem_filter.mp member).1
    refine ⟨fun early => ?_, before.attachable, before.settled, fun done member => before.gone done (leased member),
      fun late built untried => ?_, fun late live => before.made late (live.imp_right (Or.imp_left leased))⟩
    · obtain ⟨unleased, rest⟩ := before.unknown early
      exact ⟨fun member => unleased (leased member), rest⟩
    · refine List.mem_filter.mpr ⟨before.held late built untried, decide_eq_true ?_⟩
      rintro rfl
      cases untried.symm.trans tried
  exact setStage_valid released found nofun ⟨tried, gone⟩

theorem closeSandbox_valid {a : Actor} {r : Nat} {err hostErr : Bool} (valid : Valid k) (found : k.stage a = some (r, .sandbox)) :
    Valid (afterClose (k.setRuntime r { k.runtime r with
      closeMu := false, closed := !err, reported := (k.runtime r).reported || err }) a r (err || hostErr)) := by
  obtain ⟨late, tried, gone⟩ := valid.tied a r .sandbox found
  have before := valid.here r
  have done : (!err) = true ∨ ((k.runtime r).reported || err) = true := by cases err <;> simp
  have closed : Valid (k.setRuntime r { k.runtime r with
      closeMu := false, closed := !err, reported := (k.runtime r).reported || err }) :=
    runtime_valid valid ⟨fun early => absurd early late, before.attachable, fun _ _ => or_assoc.mp (.inl done), fun _ => gone,
      fun _ _ untried => absurd tried (untried ▸ nofun), before.made⟩ id (fun _ => done)
      fun name untried => absurd tried (untried ▸ nofun)
  refine afterClose_valid closed found nofun ?_
  simp only [Kernel.setRuntime, update_self]
  exact done

theorem clear_valid {a : Actor} {r : Nat} (valid : Valid k) (found : k.stage a = some (r, .clear))
    (detached : k.jsRuntime = none) : Valid ({ k with flag := false }.leave a) := by
  have cleared : Valid { k with flag := false } :=
    ⟨valid.here, valid.tied, valid.opened, valid.closing, by rintro ⟨⟩, fun r attached => by cases detached.symm.trans attached⟩
  refine leave_valid cleared found (fun e same => ⟨detached, ?_⟩) fun _ => rfl
  subst same
  obtain ⟨rfl, -⟩ := stage_enable found
  exact (valid.tied _ _ _ found).2

theorem disable_valid {d : Nat} (valid : Valid k) (idle : k.disables d = .idle) :
    Valid { k with disables := update k.disables d (match k.jsRuntime with
      | some r => .closing r .lock
      | none => .nothing) } := by
  refine disables_valid valid (fun other r stage here => ?_) fun flag => (valid.set flag).imp_right ?_
  · rw [update_apply] at here
    split at here
    · split at here
      · next attached =>
          cases here
          have attachable := (valid.here r).attachable attached
          refine ⟨fun early => ?_, trivial⟩
          cases pc : k.enables r <;> rw [pc] at early attachable <;> first | exact early | exact attachable
      · cases here
    · exact valid.tied (.disable other) r stage (by simp only [Kernel.stage, here])
  · rintro ⟨a, r, found⟩
    refine ⟨a, r, ?_⟩
    cases a with
    | enable e => exact found
    | disable other =>
        have here := stage_disable found
        have apart : other ≠ d := fun same => by cases (same ▸ idle).symm.trans here
        simp only [Kernel.stage, update_of_ne apart, here]

theorem clearNothing_valid {d : Nat} (valid : Valid k) (detached : k.jsRuntime = none) :
    Valid { k with flag := false, disables := update k.disables d .returned } := by
  have cleared : Valid { k with flag := false } :=
    ⟨valid.here, valid.tied, valid.opened, valid.closing, by rintro ⟨⟩, fun r attached => by cases detached.symm.trans attached⟩
  refine disables_valid cleared (fun other r stage here => ?_) (by rintro ⟨⟩)
  rw [update_apply] at here
  split at here
  · cases here
  · exact valid.tied (.disable other) r stage (by simp only [Kernel.stage, here])

theorem bridgeCloses_valid {name : GoString} {owner : Owner} {ok : Bool} (valid : Valid k)
    (closing : k.closingBridges name = some owner) : Valid { k with
      closingBridges := update k.closingBridges name none
      bridges := update k.bridges name (if ok = true ∧ k.bridges name = some owner then none else k.bridges name) } := by
  refine bridges_valid valid (fun r other untried open' => ?_) fun r other here => ?_
  · have mine := valid.opened r other untried open'
    rw [update_apply]
    split
    · next same =>
        subst same
        rw [if_neg fun gone => ?_]
        · exact mine
        · cases gone.2.symm.trans mine
          cases (valid.closing r other closing).symm.trans untried
    · exact mine
  · rw [update_apply] at here
    split at here
    · cases here
    · exact valid.closing r other here

theorem step_valid {action : Action} (valid : Valid k) (ok : Ok k action) (taken : step k action = some next) : Valid next := by
  cases action with
  | enable e =>
      obtain ⟨idle, same⟩ := Option.ite_none_right_eq_some.mp taken
      cases same
      have early : Early (k.enables e) := by rw [idle]; trivial
      have unbuilt : (k.runtime e).built = false := ((valid.here e).unknown early).2.2.2.2.2.2.mpr (by rw [idle]; trivial)
      split
      · exact early_goto valid early (.inr ⟨rfl, unbuilt⟩) nofun
      · exact early_goto valid early (.inl trivial) fun _ => iff_of_true unbuilt trivial
  | fails e =>
      obtain ⟨start, same⟩ := Option.ite_none_right_eq_some.mp taken
      cases same
      have early : Early (k.enables e) := by rcases start with here | here <;> rw [here] <;> trivial
      have fresh : Unbuilt (k.enables e) := by rcases start with here | here <;> rw [here] <;> trivial
      exact early_goto valid early (.inr ⟨rfl, ((valid.here e).unknown early).2.2.2.2.2.2.mpr fresh⟩) nofun
  | newSandbox e =>
      obtain ⟨building, same⟩ := Option.ite_none_right_eq_some.mp taken
      cases same
      exact early_runtime valid (by rw [building]; trivial) trivial ⟨rfl, id⟩ ⟨rfl, rfl, rfl, rfl⟩
  | snapshot e =>
      obtain ⟨built, same⟩ := Option.ite_none_right_eq_some.mp taken
      cases same
      have early : Early (k.enables e) := by rw [built]; trivial
      exact early_runtime valid early trivial ⟨early_built valid early (by rw [built]; exact id), id⟩ ⟨rfl, rfl, rfl, rfl⟩
  | check e ok' =>
      obtain ⟨snapped, same⟩ := Option.ite_none_right_eq_some.mp taken
      cases same
      have early : Early (k.enables e) := by rw [snapped]; trivial
      split
      · next attached =>
          obtain rfl := ok fun detached => by rw [detached] at attached; cases attached
          exact abandon_valid valid early
      · have made := ((valid.here e).unknown early).2.2.2.2.2.2
        rw [snapped] at made
        exact early_goto valid early (.inl trivial) fun _ => made
  | leaseEvaluator e =>
      obtain ⟨checked, same⟩ := Option.ite_none_right_eq_some.mp taken
      cases same
      exact leased_valid valid checked
  | leaseFails e ok' =>
      obtain ⟨checked, same⟩ := Option.ite_none_right_eq_some.mp taken
      cases same
      obtain rfl := ok
      exact abandon_valid valid (by rw [checked]; trivial)
  | initBridges e started ok' =>
      obtain ⟨⟨leased, free⟩, same⟩ := Option.ite_none_right_eq_some.mp taken
      cases same
      have late : ¬ Early (k.enables e) := by rw [leased]; exact id
      have unattached := not_attached valid (by rw [leased]; exact id : ¬ Attachable (k.enables e))
      refine late_goto (open_valid valid late free) late (fun stage => ?_) ?_ (fun done => ?_) ?_
        fun here => absurd here unattached
      · exact fun here => nomatch leased.symm.trans here
      · rintro stage pc
        split at pc <;> cases pc
        rfl
      · exact nomatch leased.symm.trans done
      · split <;> exact ⟨id, nofun⟩
  | register e started lost ok' =>
      obtain ⟨⟨initialized, free, -⟩, same⟩ := Option.ite_none_right_eq_some.mp taken
      cases same
      have late : ¬ Early (k.enables e) := by rw [initialized]; exact id
      have unattached := not_attached valid (by rw [initialized]; exact id : ¬ Attachable (k.enables e))
      refine late_goto (drop_valid (open_valid valid late free) late) late (fun stage => ?_) ?_ (fun done => ?_) ?_
        fun here => absurd here unattached
      · exact fun here => nomatch initialized.symm.trans here
      · rintro stage pc
        split at pc <;> cases pc
        rfl
      · exact nomatch initialized.symm.trans done
      · split <;> exact ⟨id, nofun⟩
  | attach e =>
      obtain ⟨registered, same⟩ := Option.ite_none_right_eq_some.mp taken
      cases same
      have free : k.jsRuntime = none := ok
      rw [free]
      exact attach_valid valid registered free
  | globals e ok' =>
      obtain ⟨attached, same⟩ := Option.ite_none_right_eq_some.mp taken
      cases same
      have late : ¬ Early (k.enables e) := by rw [attached]; exact id
      refine late_goto valid late (fun stage => ?_) ?_ (fun done => ?_) ?_ fun _ => ?_
      · exact fun here => nomatch attached.symm.trans here
      · rintro stage pc
        split at pc <;> cases pc
        rfl
      · exact nomatch attached.symm.trans done
      · split <;> exact ⟨id, nofun⟩
      · split <;> trivial
  | activate e =>
      obtain ⟨ready, same⟩ := Option.ite_none_right_eq_some.mp taken
      cases same
      exact activate_valid valid ready ok
  | disable d =>
      obtain ⟨idle, same⟩ := Option.ite_none_right_eq_some.mp taken
      cases same
      exact disable_valid valid idle
  | lock a hostErr =>
      dsimp only [step] at taken
      split at taken
      · next r found =>
          split at taken
          · cases taken
          split at taken
          · next closed =>
              cases taken
              exact afterClose_valid valid found nofun (.inl closed)
          · cases taken
            exact locked_valid valid found
      · cases taken
  | closeBridges a =>
      dsimp only [step] at taken
      split at taken
      · next r found =>
          cases taken
          exact closeBridges_valid valid found (ok r found)
      · cases taken
  | closeLease a =>
      dsimp only [step] at taken
      split at taken
      · next r found =>
          cases taken
          exact closeLease_valid valid found
      · cases taken
  | closeSandbox a err hostErr =>
      dsimp only [step] at taken
      split at taken
      · next r found =>
          cases taken
          exact closeSandbox_valid valid found
      · cases taken
  | detach a =>
      dsimp only [step] at taken
      split at taken
      · next r found =>
          cases taken
          exact detach_valid valid found
      · cases taken
  | clear a =>
      dsimp only [step] at taken
      split at taken
      · next r found =>
          cases taken
          exact clear_valid valid found ok
      · cases taken
  | clearNothing d =>
      obtain ⟨-, same⟩ := Option.ite_none_right_eq_some.mp taken
      cases same
      exact clearNothing_valid valid ok
  | bridgeCloses name ok' =>
      dsimp only [step] at taken
      split at taken
      · next owner closing =>
          cases taken
          exact bridgeCloses_valid valid closing
      · cases taken

theorem run_valid {path : List Action} (valid : Valid k) (ok : Along step Ok k path) (reached : run step k path = some next) :
    Valid next :=
  Transition.along_invariant (fun _ _ _ valid ok taken => step_valid valid ok taken) valid ok reached

theorem quiet_stage (quiet : Quiet k) (a : Actor) : k.stage a = none := by
  cases a with
  | enable e =>
      dsimp only [Kernel.stage]
      rcases quiet.1 e with here | here <;> rw [here]
  | disable d =>
      dsimp only [Kernel.stage]
      rcases quiet.2 d with here | here <;> rw [here]

theorem quiet_returned {r : Nat} (quiet : Quiet k) (late : ¬ Early (k.enables r)) : k.enables r = .returned :=
  (quiet.1 r).resolve_left fun idle => late (by rw [idle]; trivial)

theorem leased_attached {r : Nat} (valid : Valid k) (quiet : Quiet k) (leased : r ∈ k.leases) : k.jsRuntime = some r := by
  have here := valid.here r
  have late : ¬ Early (k.enables r) := fun early => (here.unknown early).1 leased
  rcases here.settled (quiet_returned quiet late) (here.made late (.inr (.inl leased))) with closed | reported | attached
  · exact absurd leased (here.gone (.inl closed))
  · exact absurd leased (here.gone (.inr reported))
  · exact attached

theorem evaluator_leased {r : Nat} (here : k.evaluator = some r) : r ∈ k.leases := List.mem_of_getLast? here

theorem valid_sound (valid : Valid k) (quiet : Quiet k) : Sound k := by
  have known {r : Nat} (attached : k.jsRuntime = some r) : ¬ Early (k.enables r) := fun early =>
    ((valid.here r).unknown early).2.1 attached
  refine ⟨⟨fun flag => ?_, fun attached => ?_⟩, fun r built => ?_,
    fun r here => leased_attached valid quiet (evaluator_leased here),
    fun r attached untried => ⟨?_, fun name => valid.opened r name untried⟩⟩
  · refine (valid.set flag).resolve_right ?_
    rintro ⟨a, r, here⟩
    cases (quiet_stage quiet a).symm.trans here
  · obtain ⟨r, here⟩ := Option.ne_none_iff_exists'.mp attached
    refine (valid.unset r here).resolve_right fun unset => ?_
    rw [quiet_returned quiet (known here)] at unset
    exact unset
  · have late : ¬ Early (k.enables r) := fun early => by
      rcases quiet.1 r with here | here
      · cases built.symm.trans (((valid.here r).unknown early).2.2.2.2.2.2.mpr (by rw [here]; trivial))
      · rw [here] at early
        exact early
    rcases (valid.here r).settled (quiet_returned quiet late) built with closed | reported | attached
    · exact .inr (.inl closed)
    · exact .inr (.inr reported)
    · exact .inl attached
  · have late := known attached
    have leased := (valid.here r).held late ((valid.here r).made late (.inr (.inr attached))) untried
    obtain ⟨last, here⟩ := Option.isSome_iff_exists.mp (List.getLast?_isSome.mpr (List.ne_nil_of_mem leased))
    have same := attached.symm.trans (leased_attached valid quiet (evaluator_leased here))
    exact here.trans same.symm

theorem quiet_sound {bridges : GoString → Bool} {path : List Action} (ok : Along step Ok (new bridges) path)
    (reached : run step (new bridges) path = some k) (quiet : Quiet k) : Sound k :=
  valid_sound (run_valid (new_valid bridges) ok reached) quiet

-- An Enable fails while another is building its sandbox, which attaches its runtime after the cleanup.
def handedRun : List Action :=
  [.enable 0, .enable 1, .newSandbox 0, .snapshot 0, .check 0 true, .leaseEvaluator 0, .initBridges 0 [] false,
    .lock (.enable 0) false, .closeBridges (.enable 0), .newSandbox 1, .closeLease (.enable 0), .closeSandbox (.enable 0) false false,
    .detach (.enable 0), .clear (.enable 0), .snapshot 1, .check 1 true, .leaseEvaluator 1, .initBridges 1 [lit "db"] true,
    .register 1 [] [] true, .attach 1, .globals 1 true, .activate 1]

def untouched : Kernel := new fun _ => false

theorem handedRun_sound :
    ∃ k, run step untouched handedRun = some k ∧ k.jsRuntime = some 1 ∧ (k.runtime 0).closed = true ∧ Sound k := by
  have along : Along step Ok untouched handedRun := by
    apply along_cons trivial rfl
    apply along_cons trivial rfl
    apply along_cons trivial rfl
    apply along_cons trivial rfl
    apply along_cons (fun _ => rfl) rfl
    apply along_cons trivial rfl
    apply along_cons trivial rfl
    apply along_cons trivial rfl
    refine along_cons (fun r here name target => absurd rfl target.2.1) rfl ?_
    apply along_cons trivial rfl
    apply along_cons trivial rfl
    apply along_cons trivial rfl
    apply along_cons trivial rfl
    apply along_cons (by rfl) rfl
    apply along_cons trivial rfl
    apply along_cons (fun _ => rfl) rfl
    apply along_cons trivial rfl
    apply along_cons trivial rfl
    apply along_cons trivial rfl
    apply along_cons (by rfl) rfl
    apply along_cons trivial rfl
    exact along_cons (by rfl) rfl trivial
  refine ⟨_, rfl, rfl, rfl, quiet_sound along rfl ⟨fun e => ?_, fun d => .inl rfl⟩⟩
  rcases e with _ | _ | e
  · exact .inr rfl
  · exact .inr rfl
  · exact .inl rfl

def racedRun : List Action :=
  [.enable 0, .newSandbox 0, .snapshot 0, .check 0 true, .leaseEvaluator 0, .enable 1, .newSandbox 1, .snapshot 1, .check 1 true,
    .leaseEvaluator 1, .initBridges 0 [] true, .initBridges 1 [] true, .register 0 [] [] true, .register 1 [] [] true, .attach 0,
    .attach 1, .globals 0 true, .globals 1 true, .activate 0, .activate 1]

-- The cleanup of an Enable that fails meets the runtime that another has attached meanwhile.
def failedRun : List Action :=
  [.enable 0, .newSandbox 0, .snapshot 0, .check 0 true, .leaseEvaluator 0, .enable 1, .newSandbox 1, .snapshot 1, .check 1 true,
    .leaseEvaluator 1, .initBridges 0 [lit "db"] true, .register 0 [] [] true, .attach 0, .globals 0 true, .activate 0,
    .initBridges 1 [] false, .lock (.enable 1) false, .closeBridges (.enable 1), .bridgeCloses (lit "db") true,
    .closeLease (.enable 1), .closeSandbox (.enable 1) false false, .detach (.enable 1), .clear (.enable 1)]

-- A runtime that is neither attached nor closed, a flag that is not set while a runtime is attached, and a bridge of an attached
-- runtime that is gone.
theorem attachment_broken :
    (∃ k, run step untouched racedRun = some k ∧ Quiet k ∧ (k.runtime 1).built = true ∧ k.jsRuntime = some 0 ∧
      (k.runtime 1).closed = false ∧ (k.runtime 1).reported = false ∧ k.evaluator = some 1) ∧
    (∃ k, run step untouched failedRun = some k ∧ Quiet k ∧ k.jsRuntime = some 0 ∧ k.flag = false ∧
      (k.runtime 0).closeTried = false ∧ (k.runtime 0).opened (lit "db") = true ∧ k.bridges (lit "db") = none) ∧
    ¬ ∀ bridges path k, run step (new bridges) path = some k → Quiet k → Sound k := by
  have raced : ∃ k, run step untouched racedRun = some k ∧ Quiet k ∧ (k.runtime 1).built = true ∧ k.jsRuntime = some 0 ∧
      (k.runtime 1).closed = false ∧ (k.runtime 1).reported = false ∧ k.evaluator = some 1 := by
    refine ⟨_, rfl, ⟨fun e => ?_, fun d => .inl rfl⟩, rfl, rfl, rfl, rfl, rfl⟩
    rcases e with _ | _ | e
    · exact .inr rfl
    · exact .inr rfl
    · exact .inl rfl
  refine ⟨raced, ?_, fun sound => ?_⟩
  · refine ⟨_, rfl, ⟨fun e => ?_, fun d => .inl rfl⟩, rfl, rfl, rfl, rfl, rfl⟩
    rcases e with _ | _ | e
    · exact .inr rfl
    · exact .inr rfl
    · exact .inl rfl
  · obtain ⟨k, reached, quiet, -, attached, -, -, taken⟩ := raced
    cases ((sound _ _ k reached quiet).evaluator 1 taken).symm.trans attached

end

end Brainkit.Attachment
