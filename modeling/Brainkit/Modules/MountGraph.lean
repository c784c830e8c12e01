import Brainkit.Modules.Mounts

set_option autoImplicit false

namespace Brainkit.Modules

open Function (update)
open GoText Transition

-- What the tables say when no call is in flight: one set of modules, its order without repetition, and every
-- requirement of a module before it.
structure MountTable.Sound (t : MountTable) : Prop where
  mounted : ∀ id, t.mounted.lookup id = t.modules.lookup id
  described : ∀ id, id ∈ t.descs ↔ id ∈ t.modules
  nodup : t.mountOrder.Nodup
  ordered : ∀ id, id ∈ t.mountOrder ↔ id ∈ t.mounted
  required : ∀ id desc, t.descs.lookup id = some desc → ∀ dep ∈ desc.requires,
    dep ∈ t.mounted ∧ [dep, id].Sublist t.mountOrder

structure MountTable.Keeps (t next : MountTable) : Prop where
  modules : ∀ id f, t.modules.lookup id = some f → next.modules.lookup id = some f
  mounted : ∀ id f, t.modules.lookup id = some f → t.mounted.lookup id = some f → next.mounted.lookup id = some f
  descs : ∀ id desc, t.descs.lookup id = some desc → next.descs.lookup id = some desc
  order : t.mountOrder <+: next.mountOrder

structure MountTable.Valid (t : MountTable) (count : Nat) (mount : Nat → MountCall) : Prop where
  modules : ∀ id f, t.modules.lookup id = some f →
    f < count ∧ (mount f).id = id ∧ (mount f).phase = .returned none ∧ t.mounted.lookup id = some f
  mounted : ∀ id f, t.mounted.lookup id = some f →
    f < count ∧ (mount f).id = id ∧ ((mount f).phase.holds = true ∨ t.modules.lookup id = some f)
  described : ∀ id, id ∈ t.descs ↔ id ∈ t.modules
  nodup : t.mountOrder.Nodup
  ordered : ∀ id, id ∈ t.mountOrder ↔ id ∈ t.modules
  required : ∀ id desc, t.descs.lookup id = some desc → ∀ dep ∈ desc.requires, [dep, id].Sublist t.mountOrder

structure MountCall.Valid (t : MountTable) (removed : GoString → Nat) (f : Nat) (call : MountCall) : Prop where
  nonempty : [] ∉ call.desc.requires
  counted : ∀ entry ∈ call.found, entry.2 ≤ removed entry.1
  found : ∀ entry ∈ call.found, removed entry.1 = entry.2 → entry.1 ∈ t.modules
  covered : ∀ todo, call.phase.left = some todo → ∀ dep ∈ call.desc.requires,
    dep = call.id ∨ dep ∈ call.found.map Prod.fst ∨ dep ∈ todo
  cleared : call.phase.cleared = true → call.desc.name ∉ call.desc.requires
  stamped : call.stamp ≤ removed call.id
  holding : call.phase.holds = true → removed call.id = call.stamp → t.mounted.lookup call.id = some f
  done : call.phase = .returned none → removed call.id = call.stamp → t.modules.lookup call.id = some f

def UnmountPhase.checked : UnmountPhase → Bool
  | .dependents | .returned _ => false
  | _ => true

structure UnmountCall.Valid (t : MountTable) (recordedAt : GoString → Nat) (clock : Nat) (call : UnmountCall) : Prop where
  past : call.checkedAt ≤ clock
  checked : call.phase.checked = true → ∀ name desc, t.descs.lookup name = some desc → name ≠ call.id →
    call.id ∈ desc.requires → call.checkedAt ≤ recordedAt name

namespace Mounts

structure Valid (s : Mounts) : Prop where
  table : s.table.Valid s.mountCount s.mount
  call : ∀ f < s.mountCount, (s.mount f).Valid s.table s.removed f
  child : ∀ f < s.mountCount, ∀ dep child todo, (s.mount f).phase = .awaiting dep child todo →
    child < s.mountCount ∧ (s.mount child).id = dep
  unmount : ∀ u < s.unmountCount, (s.unmount u).Valid s.table s.recordedAt s.clock

-- The steps that do not come between another call's check and what it does after it. A Mount records its module: Unmount
-- has not taken its entry away, and what Unmount has taken away of the modules it found mounted is mounted again. A Mount
-- cancels its entry: Unmount has not taken it away, or nobody has made another. An Unmount forgets the module: nothing
-- that requires it has been recorded since the check for dependents. And a module that requires its own ID has the ID
-- for its name, so that the preflight knows of it.
def Undisturbed (s : Mounts) : Action → Prop
  | .advance f _ => match (s.mount f).phase with
      | .recording _ => ((s.mount f).id ∈ (s.mount f).desc.requires → (s.mount f).desc.name = (s.mount f).id) ∧
          s.removed (s.mount f).id = (s.mount f).stamp ∧
          ∀ entry ∈ (s.mount f).found, s.removed entry.1 = entry.2 ∨ entry.1 ∈ s.table.modules
      | .cancelling _ => s.removed (s.mount f).id = (s.mount f).stamp ∨ (s.mount f).id ∉ s.table.mounted
      | _ => True
  | .advanceUnmount u _ => match (s.unmount u).phase with
      | .forgetting scope => s.table.mounted.lookup (s.unmount u).id = some scope →
          ∀ entry ∈ s.table.descs.entries, entry.1 ≠ (s.unmount u).id → (s.unmount u).id ∈ entry.2.requires →
            s.recordedAt entry.1 < (s.unmount u).checkedAt
      | _ => True
  | _ => True

def Failed (s : Mounts) : Prop :=
  ∀ f < s.mountCount, ∀ err, (s.mount f).phase = .returned (some err) →
    ∀ id, s.table.modules.lookup id ≠ some f ∧ s.table.mounted.lookup id ≠ some f

def Holds (s : Mounts) : Prop := (s.Quiet → s.table.Sound) ∧ s.Failed

-- A step of a Mount, or the begin of a call, keeps what is mounted. A Mount adds its own module only, when it succeeds.
def Keeps (isPrint : Nat → Bool) (s : Mounts) : Action → Prop
  | .advanceUnmount _ _ => True
  | action => ∀ next, step isPrint s action = some next → s.table.Keeps next.table ∧
      ∀ id f, next.table.modules.lookup id = some f → s.table.modules.lookup id = some f ∨
        (∃ a, action = .advance f a) ∧ (next.mount f).id = id ∧ (next.mount f).phase = .returned none

variable {isPrint : Nat → Bool} {s next : Mounts} {f : Nat}

theorem valid_sound (valid : s.Valid) (quiet : s.Quiet) : s.table.Sound := by
  have mounted : ∀ id, s.table.mounted.lookup id = s.table.modules.lookup id := by
    intro id
    ext f
    constructor
    · intro listed
      obtain ⟨within, -, held⟩ := valid.table.mounted id f listed
      obtain ⟨err, returned⟩ := quiet.1 f within
      exact held.resolve_left (by simp [returned, MountPhase.holds])
    · exact fun listed => (valid.table.modules id f listed).2.2.2
  have members : ∀ id, id ∈ s.table.mounted ↔ id ∈ s.table.modules := fun id => by
    rw [← AList.lookup_isSome, ← AList.lookup_isSome, mounted]
  refine ⟨mounted, valid.table.described, valid.table.nodup, fun id => ?_, fun id desc listed dep requires => ?_⟩
  · rw [valid.table.ordered, members]
  · have before := valid.table.required id desc listed dep requires
    exact ⟨(members dep).mpr ((valid.table.ordered dep).mp (before.subset List.mem_cons_self)), before⟩

theorem valid_failed (valid : s.Valid) : s.Failed := by
  intro f _ err returned id
  constructor
  · intro listed
    obtain ⟨-, -, done, -⟩ := valid.table.modules id f listed
    cases done.symm.trans returned
  · intro listed
    obtain ⟨-, -, held | recorded⟩ := valid.table.mounted id f listed
    · rw [returned] at held
      cases held
    · obtain ⟨-, -, done, -⟩ := valid.table.modules id f recorded
      cases done.symm.trans returned

theorem call_kept {t t' : MountTable} {removed : GoString → Nat} {call : MountCall} (valid : call.Valid t removed f)
    (modules : ∀ dep ∈ t.modules, dep ∈ t'.modules)
    (holding : t.mounted.lookup call.id = some f → t'.mounted.lookup call.id = some f)
    (done : t.modules.lookup call.id = some f → t'.modules.lookup call.id = some f) : call.Valid t' removed f where
  nonempty := valid.nonempty
  counted := valid.counted
  found entry member same := modules entry.1 (valid.found entry member same)
  covered := valid.covered
  cleared := valid.cleared
  stamped := valid.stamped
  holding holds same := holding (valid.holding holds same)
  done returned same := done (valid.done returned same)

theorem setMount_same {f : Nat} {call : MountCall} : (s.setMount f call).mount f = call := by simp [setMount]

theorem setMount_other {f g : Nat} (other : g ≠ f) {call : MountCall} : (s.setMount f call).mount g = s.mount g := by
  simp [setMount, other]

theorem setMount_valid {call : MountCall} (valid : s.Valid) (running : ∀ err, (s.mount f).phase ≠ .returned err)
    (id : call.id = (s.mount f).id) (holds : call.phase.holds = (s.mount f).phase.holds) (own : call.Valid s.table s.removed f)
    (child : ∀ dep child todo, call.phase = .awaiting dep child todo → child < s.mountCount ∧ (s.mount child).id = dep) :
    (s.setMount f call).Valid := by
  have ids : ∀ g, ((s.setMount f call).mount g).id = (s.mount g).id := by
    intro g
    by_cases this : g = f
    · rw [this, setMount_same, id]
    · rw [setMount_other this]
  refine ⟨⟨fun id g listed => ?_, fun id g listed => ?_, valid.table.described, valid.table.nodup, valid.table.ordered,
    valid.table.required⟩, fun g within => ?_, fun g within dep other todo awaits => ?_, valid.unmount⟩
  · obtain ⟨within, named, done, held⟩ := valid.table.modules id g listed
    have other : g ≠ f := by
      rintro rfl
      exact running none done
    exact ⟨within, (ids g).trans named, by rw [setMount_other other, done], held⟩
  · obtain ⟨within, named, held⟩ := valid.table.mounted id g listed
    refine ⟨within, (ids g).trans named, held.imp_left fun held => ?_⟩
    by_cases this : g = f
    · rw [this, setMount_same, holds, ← this, held]
    · rw [setMount_other this, held]
  · by_cases this : g = f
    · rw [this, setMount_same]
      exact own
    · rw [setMount_other this]
      exact valid.call g within
  · rw [ids other]
    by_cases this : g = f
    · rw [this, setMount_same] at awaits
      exact child dep other todo awaits
    · rw [setMount_other this] at awaits
      exact valid.child g within dep other todo awaits

theorem moves_valid {phase : MountPhase} (valid : s.Valid) (within : f < s.mountCount) (moves : Moves s f phase) :
    (s.setPhase f phase).Valid := by
  have own := valid.call f within
  refine setMount_valid valid moves.running rfl moves.holds ⟨own.nonempty, own.counted, own.found, fun todo left => ?_,
    fun clear => ?_, own.stamped, fun held => own.holding (moves.holds ▸ held), fun done => absurd done moves.failed⟩
    fun dep child todo awaits => absurd awaits (moves.alone dep child todo)
  · intro dep requires
    cases moves.left todo left with
    | inl all => exact .inr (.inr (all dep requires))
    | inr before =>
        obtain ⟨earlier, here, later⟩ := before
        obtain same | found | pending := own.covered earlier here dep requires
        · exact .inl same
        · exact .inr (.inl found)
        · obtain rfl | same | still := later dep pending
          · exact absurd requires own.nonempty
          · exact .inl same
          · exact .inr (.inr still)
  · exact (moves.cleared clear).elim own.cleared id

theorem finds_valid {dep : GoString} {stamp : Nat} {todo : List GoString} (valid : s.Valid) (within : f < s.mountCount)
    (finds : Finds s f dep stamp todo) : (s.require f dep stamp todo).Valid := by
  have own := valid.call f within
  have counted : stamp ≤ s.removed dep ∧ (s.removed dep = stamp → dep ∈ s.table.modules) := by
    obtain ⟨mounted, rfl⟩ | ⟨child, awaits, done, rfl⟩ := finds.found
    · exact ⟨le_refl _, fun _ => mounted⟩
    · obtain ⟨begun, named⟩ := valid.child f within dep child todo awaits
      have other := valid.call child begun
      refine ⟨named ▸ other.stamped, fun same => ?_⟩
      have listed := other.done done (named ▸ same)
      exact AList.lookup_isSome.mp (by rw [← named, listed]; rfl)
  refine setMount_valid valid finds.running rfl finds.free.symm ⟨own.nonempty, fun entry member => ?_,
    fun entry member => ?_, fun rest left => ?_, nofun, own.stamped, nofun, nofun⟩ nofun
  · cases List.mem_cons.mp member with
    | inl same => exact same ▸ counted.1
    | inr earlier => exact own.counted entry earlier
  · cases List.mem_cons.mp member with
    | inl same => exact same ▸ counted.2
    | inr earlier => exact own.found entry earlier
  · intro other requires
    cases left
    obtain same | found | pending := own.covered _ finds.left other requires
    · exact .inl same
    · exact .inr (.inl (List.mem_cons_of_mem dep found))
    · cases List.mem_cons.mp pending with
      | inl this => exact .inr (.inl (this ▸ List.mem_cons_self))
      | inr later => exact .inr (.inr later)

theorem newMount_last {id : GoString} {desc : Descriptor} : (s.newMount id desc).mount s.mountCount = .begin id desc :=
  setMount_same

theorem newMount_old {id : GoString} {desc : Descriptor} {g : Nat} (within : g < s.mountCount) :
    (s.newMount id desc).mount g = s.mount g :=
  setMount_other (Nat.ne_of_lt within)

theorem begin_phase (id : GoString) (desc : Descriptor) :
    (MountCall.begin id desc).phase = .checking ∨ ∃ err, (MountCall.begin id desc).phase = .returned (some err) := by
  by_cases missing : id = []
  · exact .inr ⟨_, if_pos missing⟩
  · exact .inl (if_neg missing)

theorem begin_valid (t : MountTable) (removed : GoString → Nat) (f : Nat) (id : GoString) (desc : Descriptor) :
    (MountCall.begin id desc).Valid t removed f := by
  have requires : [] ∉ (MountCall.begin id desc).desc.requires := fun member => (normalized_requires.mp member).2 rfl
  obtain first | ⟨err, first⟩ := begin_phase id desc
  · exact ⟨requires, nofun, nofun, by rw [first]; nofun, by rw [first]; nofun, Nat.zero_le _, by rw [first]; nofun,
      by rw [first]; nofun⟩
  · exact ⟨requires, nofun, nofun, by rw [first]; nofun, by rw [first]; nofun, Nat.zero_le _, by rw [first]; nofun,
      by rw [first]; nofun⟩

theorem newMount_valid (id : GoString) (desc : Descriptor) (valid : s.Valid) : (s.newMount id desc).Valid := by
  refine ⟨⟨fun id g listed => ?_, fun id g listed => ?_, valid.table.described, valid.table.nodup, valid.table.ordered,
    valid.table.required⟩, fun g within => ?_, fun g within dep child todo awaits => ?_, valid.unmount⟩
  · obtain ⟨within, rest⟩ := valid.table.modules id g listed
    rw [newMount_old within]
    exact ⟨Nat.lt_succ_of_lt within, rest⟩
  · obtain ⟨within, rest⟩ := valid.table.mounted id g listed
    rw [newMount_old within]
    exact ⟨Nat.lt_succ_of_lt within, rest⟩
  · cases Nat.lt_succ_iff_lt_or_eq.mp within with
    | inl before =>
        rw [newMount_old before]
        exact valid.call g before
    | inr last =>
        rw [last, newMount_last]
        exact begin_valid s.table s.removed s.mountCount id desc
  · cases Nat.lt_succ_iff_lt_or_eq.mp within with
    | inl before =>
        rw [newMount_old before] at awaits
        obtain ⟨begun, named⟩ := valid.child g before dep child todo awaits
        exact ⟨Nat.lt_succ_of_lt begun, by rw [newMount_old begun, named]⟩
    | inr last =>
        rw [last, newMount_last] at awaits
        obtain first | ⟨err, first⟩ := begin_phase id desc
        · cases first.symm.trans awaits
        · cases first.symm.trans awaits

theorem builds_valid {dep : GoString} {built : Descriptor} {todo : List GoString} (valid : s.Valid)
    (within : f < s.mountCount) (here : (s.mount f).phase = .requiring (dep :: todo)) :
    ((s.setPhase f (.awaiting dep s.mountCount todo)).newMount dep built).Valid := by
  have old : (s.newMount dep built).mount f = s.mount f := newMount_old within
  have same : (s.setPhase f (.awaiting dep s.mountCount todo)).newMount dep built =
      (s.newMount dep built).setPhase f (.awaiting dep s.mountCount todo) := by
    rw [setPhase, setPhase, old]
    simp only [newMount, setMount]
    rw [Function.update_comm (Nat.ne_of_gt within)]
  have own := valid.call f within
  rw [same]
  refine setMount_valid (newMount_valid dep built valid) (by simp [old, here]) (by rw [old]) (by rw [old, here]; rfl) ?_ ?_
  · rw [old]
    refine ⟨own.nonempty, own.counted, own.found, fun rest left => ?_, nofun, own.stamped, nofun, nofun⟩
    cases left
    exact own.covered _ (by rw [here]; rfl)
  · intro other child rest awaits
    cases awaits
    exact ⟨Nat.lt_succ_self _, by rw [newMount_last]; rfl⟩

end Mounts

end Brainkit.Modules
