import Brainkit.Modules.MountGraph

set_option autoImplicit false

namespace Brainkit.Modules

open Function (update)
open GoText Transition

namespace Mounts

variable {isPrint : Nat → Bool} {s next : Mounts} {f u : Nat}

def settled (f : Nat) (call : MountCall) (t : MountTable) (recordedAt : GoString → Nat) (clock : Nat) (s : Mounts) : Mounts :=
  { s.setMount f call with table := t, recordedAt := recordedAt, clock := clock }

theorem settled_valid {call : MountCall} {t : MountTable} {recordedAt : GoString → Nat} {clock : Nat} (valid : s.Valid)
    (id : call.id = (s.mount f).id)
    (table : t.Valid s.mountCount (update s.mount f call)) (own : call.Valid t s.removed f)
    (others : ∀ g < s.mountCount, g ≠ f → (s.mount g).Valid t s.removed g)
    (alone : ∀ dep child todo, call.phase ≠ .awaiting dep child todo)
    (unmount : ∀ u < s.unmountCount, (s.unmount u).Valid t recordedAt clock) :
    (s.settled f call t recordedAt clock).Valid := by
  refine ⟨table, fun g within => ?_, fun g within dep child todo awaits => ?_, unmount⟩
  · by_cases this : g = f
    · rw [this]
      exact setMount_same (s := s) ▸ own
    · have same : (s.settled f call t recordedAt clock).mount g = s.mount g := setMount_other this
      rw [same]
      exact others g within this
  · have other : g ≠ f := by
      rintro rfl
      have here : (s.settled g call t recordedAt clock).mount g = call := setMount_same
      exact alone dep child todo (here ▸ awaits)
    have same : (s.settled f call t recordedAt clock).mount g = s.mount g := setMount_other other
    obtain ⟨begun, named⟩ := valid.child g within dep child todo (same ▸ awaits)
    refine ⟨begun, ?_⟩
    by_cases this : child = f
    · have here : (s.settled f call t recordedAt clock).mount f = call := setMount_same
      rw [this, here, id, ← this, named]
    · have there : (s.settled f call t recordedAt clock).mount child = s.mount child := setMount_other this
      rw [there, named]

theorem unmount_kept {t : MountTable} {call : UnmountCall} (valid : call.Valid s.table s.recordedAt s.clock)
    (descs : t.descs = s.table.descs) : call.Valid t s.recordedAt s.clock :=
  ⟨valid.past, descs ▸ valid.checked⟩

theorem modules_other (valid : s.Valid) {phase : MountPhase} (here : (s.mount f).phase = phase)
    (running : phase ≠ .returned none) {id : GoString} {g : Nat} (listed : s.table.modules.lookup id = some g) : g ≠ f := by
  rintro rfl
  exact running (here ▸ (valid.table.modules id g listed).2.2.1)

theorem reserves_valid (valid : s.Valid) (within : f < s.mountCount) (here : (s.mount f).phase = .reserving)
    (free : (s.mount f).id ∉ s.table.mounted) : (s.reserved f).Valid := by
  have own := valid.call f within
  have away : ∀ {id g}, s.table.mounted.lookup id = some g → id ≠ (s.mount f).id := by
    rintro id g listed rfl
    exact free (AList.lookup_isSome.mp (listed ▸ rfl))
  refine settled_valid valid rfl ⟨fun id g listed => ?_, fun id g listed => ?_, valid.table.described, valid.table.nodup,
    valid.table.ordered, valid.table.required⟩ ?_ (fun g begun other => ?_) nofun
    fun u begun => unmount_kept (valid.unmount u begun) rfl
  · have other := modules_other valid here nofun listed
    obtain ⟨begun, named, done, held⟩ := valid.table.modules id g listed
    rw [Function.update_of_ne other]
    exact ⟨begun, named, done, (AList.lookup_insert_ne (away held)).trans held⟩
  · by_cases this : id = (s.mount f).id
    · subst this
      rw [MountTable.reserve, AList.lookup_insert] at listed
      cases listed
      rw [Function.update_self]
      exact ⟨within, rfl, .inl rfl⟩
    · have held := (AList.lookup_insert_ne this).symm.trans listed
      obtain ⟨begun, named, holds⟩ := valid.table.mounted id g held
      have other : g ≠ f := by
        rintro rfl
        exact this named.symm
      rw [Function.update_of_ne other]
      exact ⟨begun, named, holds⟩
  · exact ⟨own.nonempty, own.counted, own.found, fun todo left => own.covered todo (by rw [here]; exact left),
      fun _ => own.cleared (by rw [here]; rfl), le_refl _, fun _ _ => AList.lookup_insert _, nofun⟩
  · exact call_kept (valid.call g begun) (fun _ => id) (fun held => (AList.lookup_insert_ne (away held)).trans held) id

theorem entry_only {err : GoString} (valid : s.Valid) (within : f < s.mountCount)
    (here : (s.mount f).phase = .cancelling err)
    (undisturbed : s.removed (s.mount f).id = (s.mount f).stamp ∨ (s.mount f).id ∉ s.table.mounted) {g : Nat}
    (listed : s.table.mounted.lookup (s.mount f).id = some g) : g = f := by
  cases undisturbed with
  | inl same =>
      have held := (valid.call f within).holding (by rw [here]; rfl) same
      exact Option.some.inj (listed.symm.trans held)
  | inr absent => exact absurd (AList.lookup_isSome.mp (listed ▸ rfl)) absent

theorem cancels_valid {err text : GoString} (valid : s.Valid) (within : f < s.mountCount)
    (here : (s.mount f).phase = .cancelling err)
    (undisturbed : s.removed (s.mount f).id = (s.mount f).stamp ∨ (s.mount f).id ∉ s.table.mounted) :
    (s.cancelled f text).Valid := by
  have own := valid.call f within
  have only : ∀ {g}, s.table.mounted.lookup (s.mount f).id = some g → g = f := entry_only valid within here undisturbed
  refine settled_valid valid rfl ⟨fun id g listed => ?_, fun id g listed => ?_, valid.table.described, valid.table.nodup,
    valid.table.ordered, valid.table.required⟩ ?_ (fun g begun other => ?_) nofun
    fun u begun => unmount_kept (valid.unmount u begun) rfl
  · have other := modules_other valid here nofun listed
    obtain ⟨begun, named, done, held⟩ := valid.table.modules id g listed
    have away : id ≠ (s.mount f).id := by
      rintro rfl
      exact other (only held)
    rw [Function.update_of_ne other]
    exact ⟨begun, named, done, (AList.lookup_erase_ne away).trans held⟩
  · have away : id ≠ (s.mount f).id := by
      rintro rfl
      rw [MountTable.cancel, AList.lookup_erase] at listed
      cases listed
    obtain ⟨begun, named, holds⟩ := valid.table.mounted id g ((AList.lookup_erase_ne away).symm.trans listed)
    have other : g ≠ f := by
      rintro rfl
      exact away named.symm
    rw [Function.update_of_ne other]
    exact ⟨begun, named, holds⟩
  · exact ⟨own.nonempty, own.counted, own.found, nofun, nofun, own.stamped, nofun, nofun⟩
  · refine call_kept (valid.call g begun) (fun _ => id) (fun held => ?_) id
    have away : (s.mount g).id ≠ (s.mount f).id := fun same => other (only (same ▸ held))
    exact (AList.lookup_erase_ne away).trans held

theorem required_mounted {provided : List CapabilityDescriptor} (valid : s.Valid) (within : f < s.mountCount)
    (here : (s.mount f).phase = .recording provided)
    (named : (s.mount f).id ∈ (s.mount f).desc.requires → (s.mount f).desc.name = (s.mount f).id)
    (back : ∀ entry ∈ (s.mount f).found, s.removed entry.1 = entry.2 ∨ entry.1 ∈ s.table.modules)
    {dep : GoString} (requires : dep ∈ (s.mount f).desc.requires) : dep ∈ s.table.mountOrder := by
  have own := valid.call f within
  obtain rfl | found | pending := own.covered [] (by rw [here]; rfl) dep requires
  · exact absurd (named requires ▸ requires) (own.cleared (by rw [here]; rfl))
  · obtain ⟨entry, member, rfl⟩ := List.mem_map.mp found
    exact (valid.table.ordered entry.1).mpr ((back entry member).elim (own.found entry member) id)
  · exact absurd pending List.not_mem_nil

theorem record_fresh {provided : List CapabilityDescriptor} (valid : s.Valid) (within : f < s.mountCount)
    (here : (s.mount f).phase = .recording provided) (same : s.removed (s.mount f).id = (s.mount f).stamp) {id : GoString}
    {g : Nat} (listed : s.table.modules.lookup id = some g) : id ≠ (s.mount f).id := by
  rintro rfl
  have held := (valid.call f within).holding (by rw [here]; rfl) same
  have other := modules_other valid here nofun listed
  exact other (Option.some.inj ((valid.table.modules _ g listed).2.2.2.symm.trans held))

theorem records_valid {provided : List CapabilityDescriptor} (valid : s.Valid) (within : f < s.mountCount)
    (here : (s.mount f).phase = .recording provided)
    (named : (s.mount f).id ∈ (s.mount f).desc.requires → (s.mount f).desc.name = (s.mount f).id)
    (same : s.removed (s.mount f).id = (s.mount f).stamp)
    (back : ∀ entry ∈ (s.mount f).found, s.removed entry.1 = entry.2 ∨ entry.1 ∈ s.table.modules) :
    (s.recorded f provided).Valid := by
  have own := valid.call f within
  have held := own.holding (by rw [here]; rfl) same
  have away : ∀ {id g}, s.table.modules.lookup id = some g → id ≠ (s.mount f).id := record_fresh valid within here same
  refine settled_valid valid rfl ⟨fun id g listed => ?_, fun id g listed => ?_, fun id => ?_, ?_, fun id => ?_,
    fun id desc listed dep requires => ?_⟩ ?_ (fun g begun other => ?_) nofun fun u begun => ?_
  · by_cases this : id = (s.mount f).id
    · subst this
      rw [MountTable.record, AList.lookup_insert] at listed
      cases listed
      rw [Function.update_self]
      exact ⟨within, rfl, rfl, held⟩
    · have before := (AList.lookup_insert_ne this).symm.trans listed
      have other := modules_other valid here nofun before
      rw [Function.update_of_ne other]
      exact valid.table.modules id g before
  · obtain ⟨begun, known, holds⟩ := valid.table.mounted id g listed
    by_cases this : g = f
    · subst this
      rw [Function.update_self]
      exact ⟨begun, known, .inr (by rw [← known]; exact AList.lookup_insert _)⟩
    · rw [Function.update_of_ne this]
      refine ⟨begun, known, holds.imp_right fun recorded => ?_⟩
      exact (AList.lookup_insert_ne (away recorded)).trans recorded
  · rw [MountTable.record, AList.mem_insert, AList.mem_insert, valid.table.described]
  · refine List.nodup_append.mpr ⟨valid.table.nodup, List.nodup_singleton _, fun id member other last => ?_⟩
    rw [List.mem_singleton.mp last]
    obtain ⟨g, listed⟩ := Option.isSome_iff_exists.mp (AList.lookup_isSome.mpr ((valid.table.ordered id).mp member))
    exact away listed
  · rw [MountTable.record, AList.mem_insert, List.mem_append, List.mem_singleton, valid.table.ordered, or_comm]
  · by_cases this : id = (s.mount f).id
    · subst this
      rw [MountTable.record, AList.lookup_insert] at listed
      cases listed
      have before := required_mounted valid within here named back (mounted_requires.mp requires).1
      exact (List.singleton_sublist.mpr before).append (List.Sublist.refl _)
    · have before := (AList.lookup_insert_ne this).symm.trans listed
      exact (valid.table.required id desc before dep requires).trans (List.sublist_append_left _ _)
  · exact ⟨own.nonempty, own.counted, fun entry member same => (AList.mem_insert _).mpr (.inr (own.found entry member same)),
      fun todo left => own.covered todo (by rw [here]; exact left), nofun, le_refl _, nofun, fun _ _ => AList.lookup_insert _⟩
  · exact call_kept (valid.call g begun) (fun dep listed => (AList.mem_insert _).mpr (.inr listed)) id
      fun done => (AList.lookup_insert_ne (away done)).trans done
  · have earlier := valid.unmount u begun
    refine ⟨Nat.le_succ_of_le earlier.past, fun checked name desc listed other requires => ?_⟩
    by_cases this : name = (s.mount f).id
    · rw [this, Function.update_self]
      exact earlier.past
    · rw [Function.update_of_ne this]
      exact earlier.checked checked name desc ((AList.lookup_insert_ne this).symm.trans listed) other requires

theorem none_requires {scope : Nat} (valid : s.Valid) (within : u < s.unmountCount)
    (here : (s.unmount u).phase = .forgetting scope)
    (undisturbed : ∀ entry ∈ s.table.descs.entries, entry.1 ≠ (s.unmount u).id → (s.unmount u).id ∈ entry.2.requires →
      s.recordedAt entry.1 < (s.unmount u).checkedAt)
    {name : GoString} {desc : Descriptor} (listed : s.table.descs.lookup name = some desc) (other : name ≠ (s.unmount u).id) :
    (s.unmount u).id ∉ desc.requires := by
  intro requires
  have after := (valid.unmount u within).checked (by rw [here]; rfl) name desc listed other requires
  exact absurd (undisturbed ⟨name, desc⟩ (AList.mem_lookup_iff.mp listed) other requires) (not_lt_of_ge after)

theorem setUnmount_same {call : UnmountCall} : (s.setUnmount u call).unmount u = call := by simp [setUnmount]

theorem setUnmount_other {v : Nat} (other : v ≠ u) {call : UnmountCall} :
    (s.setUnmount u call).unmount v = s.unmount v := by
  simp [setUnmount, other]

theorem setUnmount_valid {call : UnmountCall} (valid : s.Valid) (own : call.Valid s.table s.recordedAt s.clock) :
    (s.setUnmount u call).Valid := by
  refine ⟨valid.table, valid.call, valid.child, fun v begun => ?_⟩
  by_cases this : v = u
  · rw [this, setUnmount_same]
    exact own
  · rw [setUnmount_other this]
    exact valid.unmount v begun

theorem newUnmount_valid (id : GoString) (valid : s.Valid) : (s.newUnmount id).Valid := by
  refine ⟨valid.table, valid.call, valid.child, fun v begun => ?_⟩
  cases Nat.lt_succ_iff_lt_or_eq.mp begun with
  | inl before =>
      have same : (s.newUnmount id).unmount v = s.unmount v := setUnmount_other (Nat.ne_of_lt before)
      rw [same]
      exact valid.unmount v before
  | inr last =>
      have here : (s.newUnmount id).unmount s.unmountCount = ⟨id, .dependents, 0⟩ := setUnmount_same
      rw [last, here]
      exact ⟨Nat.zero_le _, nofun⟩

theorem forget_call {t : MountTable} {removed : GoString → Nat} {call : MountCall} (id : GoString)
    (valid : call.Valid t removed f) : call.Valid (t.forget id) (update removed id (removed id + 1)) f := by
  have grown : ∀ name, removed name ≤ update removed id (removed id + 1) name := by
    intro name
    by_cases this : name = id
    · rw [this, Function.update_self]
      exact Nat.le_succ _
    · rw [Function.update_of_ne this]
  have kept : ∀ {name stamp}, stamp ≤ removed name → update removed id (removed id + 1) name = stamp →
      name ≠ id ∧ removed name = stamp := by
    intro name stamp least same
    by_cases this : name = id
    · rw [this, Function.update_self] at same
      rw [this] at least
      omega
    · rw [Function.update_of_ne this] at same
      exact ⟨this, same⟩
  refine ⟨valid.nonempty, fun entry member => le_trans (valid.counted entry member) (grown entry.1), fun entry member same => ?_,
    valid.covered, valid.cleared, le_trans valid.stamped (grown call.id), fun holds same => ?_, fun done same => ?_⟩
  · obtain ⟨away, same⟩ := kept (valid.counted entry member) same
    exact AList.mem_erase.mpr ⟨away, valid.found entry member same⟩
  · obtain ⟨away, same⟩ := kept valid.stamped same
    exact (AList.lookup_erase_ne away).trans (valid.holding holds same)
  · obtain ⟨away, same⟩ := kept valid.stamped same
    exact (AList.lookup_erase_ne away).trans (valid.done done same)

theorem erased_lookup {α : Type} {t : Table α} {id name : GoString} {value : α}
    (listed : (t.erase id).lookup name = some value) : name ≠ id ∧ t.lookup name = some value := by
  by_cases this : name = id
  · rw [this, AList.lookup_erase] at listed
    cases listed
  · exact ⟨this, (AList.lookup_erase_ne this).symm.trans listed⟩

theorem forgotten_valid {scope : Nat} (valid : s.Valid) (within : u < s.unmountCount)
    (here : (s.unmount u).phase = .forgetting scope)
    (undisturbed : ∀ entry ∈ s.table.descs.entries, entry.1 ≠ (s.unmount u).id → (s.unmount u).id ∈ entry.2.requires →
      s.recordedAt entry.1 < (s.unmount u).checkedAt) : (s.forgotten u).Valid := by
  have members : ∀ name, name ∈ s.table.mountOrder.erase (s.unmount u).id ↔
      name ≠ (s.unmount u).id ∧ name ∈ s.table.mountOrder :=
    fun name => valid.table.nodup.mem_erase_iff
  refine ⟨⟨fun id g listed => ?_, fun id g listed => ?_, fun id => ?_, valid.table.nodup.erase _, fun id => ?_,
    fun id desc listed dep requires => ?_⟩, fun g begun => forget_call _ (valid.call g begun), valid.child, fun v begun => ?_⟩
  · obtain ⟨away, before⟩ := erased_lookup listed
    obtain ⟨begun, named, done, held⟩ := valid.table.modules id g before
    exact ⟨begun, named, done, (AList.lookup_erase_ne away).trans held⟩
  · obtain ⟨away, before⟩ := erased_lookup listed
    obtain ⟨begun, named, holds⟩ := valid.table.mounted id g before
    exact ⟨begun, named, holds.imp_right fun recorded => (AList.lookup_erase_ne away).trans recorded⟩
  · rw [forgotten, MountTable.forget, AList.mem_erase, AList.mem_erase, valid.table.described]
  · rw [forgotten, MountTable.forget, AList.mem_erase, members, valid.table.ordered]
  · obtain ⟨away, before⟩ := erased_lookup listed
    have free : dep ≠ (s.unmount u).id := by
      rintro rfl
      exact none_requires valid within here undisturbed before away requires
    have kept : [dep, id].erase (s.unmount u).id = [dep, id] :=
      List.erase_of_not_mem (by simpa using ⟨Ne.symm free, Ne.symm away⟩)
    exact kept ▸ (valid.table.required id desc before dep requires).erase (s.unmount u).id
  · have own : (s.unmount v).Valid (s.forgotten u).table (s.forgotten u).recordedAt (s.forgotten u).clock :=
      ⟨(valid.unmount v begun).past, fun checked name desc listed other requires =>
        (valid.unmount v begun).checked checked name desc (erased_lookup listed).2 other requires⟩
    by_cases this : v = u
    · have returned : (s.forgotten u).unmount v = { s.unmount v with phase := .returned none } := this ▸ setUnmount_same
      rw [returned]
      exact ⟨own.past, nofun⟩
    · have same : (s.forgotten u).unmount v = s.unmount v := setUnmount_other this
      rw [same]
      exact own

theorem advanceUnmount_cases {closed : Option GoString} (valid : s.Valid) (within : u < s.unmountCount)
    (taken : s.advanceUnmount isPrint u closed = some next) :
    (∃ call, next = s.setUnmount u call ∧ call.Valid s.table s.recordedAt s.clock) ∨
      ∃ scope, (s.unmount u).phase = .forgetting scope ∧ s.table.mounted.lookup (s.unmount u).id = some scope ∧
        next = s.forgotten u := by
  have own := valid.unmount u within
  cases here : (s.unmount u).phase with
  | dependents =>
      simp only [advanceUnmount, here] at taken
      split at taken
      case isTrue none =>
          cases taken
          exact .inl ⟨_, rfl, le_refl _, fun _ name desc listed other requires =>
            absurd requires (MountTable.no_dependents none listed other)⟩
      case isFalse =>
          cases taken
          exact .inl ⟨_, rfl, own.past, nofun⟩
  | lookup =>
      simp only [advanceUnmount, here] at taken
      split at taken
      · cases taken
        exact .inl ⟨_, rfl, own.past, nofun⟩
      · cases taken
        exact .inl ⟨_, rfl, own.past, fun _ => own.checked (by rw [here]; rfl)⟩
  | closing scope =>
      simp only [advanceUnmount, here] at taken
      split at taken
      · cases taken
        exact .inl ⟨_, rfl, own.past, nofun⟩
      · cases taken
        exact .inl ⟨_, rfl, own.past, fun _ => own.checked (by rw [here]; rfl)⟩
  | forgetting scope =>
      simp only [advanceUnmount, here] at taken
      split at taken
      case isTrue listed =>
          cases taken
          exact .inr ⟨scope, rfl, listed, rfl⟩
      case isFalse =>
          cases taken
          exact .inl ⟨_, rfl, own.past, nofun⟩
  | returned err =>
      simp only [advanceUnmount, here] at taken
      cases taken

theorem step_valid (s : Mounts) (action : Action) (next : Mounts) (valid : s.Valid) (undisturbed : s.Undisturbed action)
    (taken : step isPrint s action = some next) : next.Valid := by
  cases action with
  | mount id desc =>
      cases taken
      exact newMount_valid id desc valid
  | unmount id =>
      cases taken
      exact newUnmount_valid id valid
  | advance f a =>
      obtain ⟨within, taken⟩ := Option.ite_none_right_eq_some.mp taken
      cases advance_cases taken with
      | moves phase how => exact moves_valid valid within how
      | finds dep stamp todo how => exact finds_valid valid within how
      | builds dep built todo here => exact builds_valid valid within here
      | reserves here free => exact reserves_valid valid within here free
      | cancels err text here =>
          simp only [Undisturbed, here] at undisturbed
          exact cancels_valid valid within here undisturbed
      | records provided here =>
          simp only [Undisturbed, here] at undisturbed
          exact records_valid valid within here undisturbed.1 undisturbed.2.1 undisturbed.2.2
  | advanceUnmount u closed =>
      obtain ⟨within, taken⟩ := Option.ite_none_right_eq_some.mp taken
      obtain ⟨call, rfl, own⟩ | ⟨scope, here, listed, rfl⟩ := advanceUnmount_cases valid within taken
      · exact setUnmount_valid valid own
      · simp only [Undisturbed, here] at undisturbed
        exact forgotten_valid valid within here (undisturbed listed)

theorem keeps_same (t : MountTable) : t.Keeps t :=
  ⟨fun _ _ listed => listed, fun _ _ _ held => held, fun _ _ listed => listed, List.prefix_refl _⟩

theorem advance_keeps {a : Answers} (valid : s.Valid) (within : f < s.mountCount) (undisturbed : s.Undisturbed (.advance f a))
    (taken : s.advance isPrint f a = some next) : s.table.Keeps next.table ∧
      ∀ id g, next.table.modules.lookup id = some g → s.table.modules.lookup id = some g ∨
        g = f ∧ (next.mount f).id = id ∧ (next.mount f).phase = .returned none := by
  cases advance_cases taken with
  | moves phase how => exact ⟨keeps_same _, fun _ _ listed => .inl listed⟩
  | finds dep stamp todo how => exact ⟨keeps_same _, fun _ _ listed => .inl listed⟩
  | builds dep built todo here => exact ⟨keeps_same _, fun _ _ listed => .inl listed⟩
  | reserves here free =>
      refine ⟨⟨fun _ _ listed => listed, fun id g _ held => ?_, fun _ _ listed => listed, List.prefix_refl _⟩,
        fun _ _ listed => .inl listed⟩
      have away : id ≠ (s.mount f).id := by
        rintro rfl
        exact free (AList.lookup_isSome.mp (held ▸ rfl))
      exact (AList.lookup_insert_ne away).trans held
  | cancels err text here =>
      simp only [Undisturbed, here] at undisturbed
      refine ⟨⟨fun _ _ listed => listed, fun id g listed held => ?_, fun _ _ listed => listed, List.prefix_refl _⟩,
        fun _ _ listed => .inl listed⟩
      have away : id ≠ (s.mount f).id := by
        rintro rfl
        exact modules_other valid here nofun listed (entry_only valid within here undisturbed held)
      exact (AList.lookup_erase_ne away).trans held
  | records provided here =>
      simp only [Undisturbed, here] at undisturbed
      have away : ∀ {id g}, s.table.modules.lookup id = some g → id ≠ (s.mount f).id :=
        record_fresh valid within here undisturbed.2.1
      refine ⟨⟨fun id g listed => (AList.lookup_insert_ne (away listed)).trans listed, fun _ _ _ held => held,
        fun id desc listed => ?_, List.prefix_append _ _⟩, fun id g listed => ?_⟩
      · have known : id ∈ s.table.modules := (valid.table.described id).mp (AList.lookup_isSome.mp (listed ▸ rfl))
        obtain ⟨g, recorded⟩ := Option.isSome_iff_exists.mp (AList.lookup_isSome.mpr known)
        exact (AList.lookup_insert_ne (away recorded)).trans listed
      · by_cases this : id = (s.mount f).id
        · subst this
          have same : (s.recorded f provided).table.modules.lookup (s.mount f).id = some f := AList.lookup_insert _
          have finished : (s.recorded f provided).mount f =
              { s.mount f with phase := .returned none, stamp := s.removed (s.mount f).id } := setMount_same
          rw [finished]
          exact .inr ⟨Option.some.inj (listed.symm.trans same), rfl, rfl⟩
        · exact .inl ((AList.lookup_insert_ne this).symm.trans listed)

theorem step_keeps (s : Mounts) (action : Action) (held : s.Valid ∧ s.Undisturbed action) : s.Keeps isPrint action := by
  cases action with
  | mount id desc =>
      intro next taken
      cases taken
      exact ⟨keeps_same _, fun _ _ listed => .inl listed⟩
  | unmount id =>
      intro next taken
      cases taken
      exact ⟨keeps_same _, fun _ _ listed => .inl listed⟩
  | advance f a =>
      intro next taken
      obtain ⟨within, taken⟩ := Option.ite_none_right_eq_some.mp taken
      obtain ⟨kept, added⟩ := advance_keeps held.1 within held.2 taken
      refine ⟨kept, fun id g listed => (added id g listed).imp_right ?_⟩
      rintro ⟨rfl, named⟩
      exact ⟨⟨a, rfl⟩, named⟩
  | advanceUnmount u closed => trivial

theorem new_valid : new.Valid :=
  ⟨⟨nofun, nofun, fun _ => Iff.rfl, List.nodup_nil, fun _ => by simp [new, MountTable.new], nofun⟩, nofun, nofun, nofun⟩

theorem undisturbed_sound {path : List Action} (undisturbed : Along (step isPrint) Undisturbed new path) :
    Always (step isPrint) Holds new path ∧ Along (step isPrint) (Keeps isPrint) new path :=
  ⟨always_mono (fun _ valid => ⟨valid_sound valid, valid_failed valid⟩) (always_along step_valid new_valid undisturbed),
    along_mono step_keeps (along_held step_valid new_valid undisturbed)⟩

instance (phase : MountPhase) : Decidable (∃ err, phase = .returned err) :=
  match phase with
  | .returned err => isTrue ⟨err, rfl⟩
  | .checking | .preflighting | .requiring _ | .awaiting _ _ _ | .rechecking _ _ _ | .checkingAgain
  | .preflightingAgain | .reserving | .mounting | .closing _ | .cancelling _ | .recording _ => isFalse nofun

instance (phase : UnmountPhase) : Decidable (∃ err, phase = .returned err) :=
  match phase with
  | .returned err => isTrue ⟨err, rfl⟩
  | .dependents | .lookup | .closing _ | .forgetting _ => isFalse nofun

instance (s : Mounts) : Decidable s.Quiet := inferInstanceAs (Decidable (_ ∧ _))

instance (s : Mounts) : ∀ action, Decidable (s.Undisturbed action)
  | .mount _ _ | .unmount _ => isTrue trivial
  | .advance f a => match here : (s.mount f).phase with
      | .recording _ => decidable_of_iff
          (((s.mount f).id ∈ (s.mount f).desc.requires → (s.mount f).desc.name = (s.mount f).id) ∧
            s.removed (s.mount f).id = (s.mount f).stamp ∧
            ∀ entry ∈ (s.mount f).found, s.removed entry.1 = entry.2 ∨ entry.1 ∈ s.table.modules)
          (by simp only [Undisturbed, here])
      | .cancelling _ => decidable_of_iff
          (s.removed (s.mount f).id = (s.mount f).stamp ∨ (s.mount f).id ∉ s.table.mounted) (by simp only [Undisturbed, here])
      | .checking | .preflighting | .requiring _ | .awaiting _ _ _ | .rechecking _ _ _ | .checkingAgain
      | .preflightingAgain | .reserving | .mounting | .closing _ | .returned _ => isTrue (by simp [Undisturbed, here])
  | .advanceUnmount u closed => match here : (s.unmount u).phase with
      | .forgetting scope => decidable_of_iff
          (s.table.mounted.lookup (s.unmount u).id = some scope →
            ∀ entry ∈ s.table.descs.entries, entry.1 ≠ (s.unmount u).id → (s.unmount u).id ∈ entry.2.requires →
              s.recordedAt entry.1 < (s.unmount u).checkedAt)
          (by simp only [Undisturbed, here])
      | .dependents | .lookup | .closing _ | .returned _ => isTrue (by simp [Undisturbed, here])

def succeeds : Answers := ⟨none, .ok ⟨[], [], []⟩, .ok []⟩

def jobsPath : List Action :=
  .mount (lit "jobs") ⟨[], [lit "store"], []⟩ :: List.replicate 3 (.advance 0 succeeds) ++
    List.replicate 8 (.advance 1 succeeds) ++ List.replicate 7 (.advance 0 succeeds) ++
    .unmount (lit "jobs") :: List.replicate 4 (.advanceUnmount 0 none)

theorem jobs_sound : Always (step fun _ => true) Holds new jobsPath ∧
    Along (step fun _ => true) (Keeps fun _ => true) new jobsPath :=
  undisturbed_sound (by decide +kernel)

-- The store is mounted, jobs finds it mounted, the store is unmounted, and jobs is mounted.
def orphanedPath : List Action :=
  .mount (lit "store") ⟨[], [], []⟩ :: List.replicate 8 (.advance 0 succeeds) ++
    .mount (lit "jobs") ⟨[], [lit "store"], []⟩ :: List.replicate 3 (.advance 1 succeeds) ++
    .unmount (lit "store") :: List.replicate 4 (.advanceUnmount 0 none) ++ List.replicate 6 (.advance 1 succeeds)

def orphaned (s : Mounts) : Bool :=
  decide s.Quiet && decide (lit "store" ∉ s.table.mounted) &&
    (s.table.descs.lookup (lit "jobs")).any fun desc => desc.requires.contains (lit "store")

theorem orphaned_jobs : ∃ s, Reachable (step fun _ => true) new s ∧ s.Quiet ∧ ¬ s.table.Sound := by
  have found : ∃ s, Reachable (step fun _ => true) new s ∧ s.orphaned = true :=
    reachable_checked orphanedPath orphaned (by decide +kernel)
  obtain ⟨s, reached, checked⟩ := found
  obtain ⟨checked, requires⟩ := Bool.and_eq_true_iff.mp checked
  obtain ⟨quiet, gone⟩ := Bool.and_eq_true_iff.mp checked
  have quiet : s.Quiet := of_decide_eq_true quiet
  have gone : lit "store" ∉ s.table.mounted := of_decide_eq_true gone
  obtain ⟨desc, listed, requires⟩ := (Option.any_eq_true _ _).mp requires
  refine ⟨s, reached, quiet, fun sound => ?_⟩
  exact gone (sound.required (lit "jobs") desc listed (lit "store") (by simpa using requires)).1

end Mounts

end Brainkit.Modules
