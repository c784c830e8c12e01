import Brainkit.Modules.PreflightPlan

set_option autoImplicit false

namespace Brainkit.Modules.Preflight

open GoText Startup Planned

def Faithful (k : Kit) : Prop :=
  ∀ dep factory, k.registry.lookup dep = some factory → ∃ mod, factory.build k.fsRoot = .ok mod ∧ mod.id = dep ∧
    registeredModuleDescriptor k.registry dep = some (describeModule k.registry mod) ∧
    (describeModule k.registry mod).name = dep

-- The module's own Mount and those of the registered modules succeed, and provide what the descriptors declare.
def OwnMounts (ownMount : Module → Kit → Except GoString (List CapabilityDescriptor)) (k : Kit) (mod : Module) : Prop :=
  ∀ m, (m = mod ∨ ∃ dep factory, k.registry.lookup dep = some factory ∧ factory.build k.fsRoot = .ok m) →
    ∀ k', ∃ provided, ownMount m k' = .ok provided ∧
      ∀ name, name ∈ provided.map (·.name) ↔ name ∈ namesOf (describeModule k.registry m) .provided

def Settled (k : Kit) : Prop := ∀ id, id ∈ k.table.mounted ↔ id ∈ k.table.modules

structure Advanced (k : Kit) (s : Plan GoString GoString) (k' : Kit) : Prop where
  registry : k'.registry = k.registry
  fsRoot : k'.fsRoot = k.fsRoot
  core : k'.core = k.core
  settled : Settled k'
  modules : ∀ id, id ∈ k'.table.modules ↔ id ∈ k.table.modules ∨ id ∈ s.order
  order : k'.table.mountOrder = k.table.mountOrder ++ s.order
  caps : ∀ name, name ∈ k'.caps ↔ name ∈ k.caps ∨ name ∈ s.gained

variable {isPrint : Nat → Bool} {ownMount : Module → Kit → Except GoString (List CapabilityDescriptor)} {k k1 k2 : Kit}
  {mod : Module} {id : GoString}

theorem faithful_named (faithful : Faithful k) : Named k.registry := by
  intro dep desc found
  obtain ⟨factory, listed, -⟩ := Option.map_eq_some_iff.mp found
  obtain ⟨mod, -, -, same, named⟩ := faithful dep factory listed
  obtain rfl := Option.some.inj (found.symm.trans same)
  exact named

theorem described_normal (registry : Registry) (mod : Module) : Normal (describeModule registry mod) :=
  normalized_again _ _

theorem advanced_start (settled : Settled k) : Advanced k Plan.empty k := by
  refine ⟨rfl, rfl, rfl, settled, fun id => ?_, ?_, fun name => ?_⟩
  · simp [Plan.empty]
  · simp [Plan.empty]
  · simp [Plan.empty]

theorem advanced_has {s : Plan GoString GoString} (advanced : Advanced k s k1) (name : GoString) :
    k1.world.has name ↔ k.world.has name ∨ name ∈ s.gained := by
  simp only [Kit.world, advanced.caps, advanced.core]
  tauto

theorem advanced_node {s : Plan GoString GoString} (advanced : Advanced k s k1) : k1.world.node = k.world.node := by
  simp only [Kit.world, advanced.registry]

theorem preflight_passes {desc : Descriptor} (names : Named k.registry) (normal : Normal desc) (named : desc.name ≠ [])
    (unmounted : desc.name ∉ k.table.modules) {t : Plan GoString GoString}
    (plans : Plans k.world [desc.name] desc.requires Plan.empty t)
    (takes : ∀ c ∈ namesOf desc .required, k.world.has c ∨ c ∈ t.gained) : preflightModuleMount isPrint k desc = some none := by
  obtain ⟨preflight, answer, ready⟩ := preflight_ready isPrint k names normal named unmounted
  rw [preflightModuleMount, answer, Option.map_some, if_pos (ready.mpr ⟨t, plans, takes⟩)]

theorem mountRequires_append {mountOne : Module → Kit → Option (Option GoString × Kit)} (first rest : List GoString)
    (done : mountRequires isPrint mountOne id first k1 = some (none, k2)) :
    mountRequires isPrint mountOne id (first ++ rest) k1 = mountRequires isPrint mountOne id rest k2 := by
  induction first generalizing k1 with
  | nil =>
      obtain ⟨-, rfl⟩ := Prod.mk.inj (Option.some.inj done)
      rfl
  | cons dep first ih =>
      rw [List.cons_append, mountRequires]
      rw [mountRequires] at done
      split at done
      next skip => rw [if_pos skip, ih done]
      next other =>
        rw [if_neg other]
        split at done
        next there => rw [if_pos there, ih done]
        next absent =>
          rw [if_neg absent]
          split at done
          next => cases Option.some.inj done
          next depMod built =>
            split at done
            next => cases done
            next k' mounted =>
              exact ih done
            next err k' mounted =>
              split at done
              next there =>
                rw [if_pos there, ih done]
              next => cases Option.some.inj done

theorem mountRequires_there {mountOne : Module → Kit → Option (Option GoString × Kit)} (deps : List GoString)
    (there : ∀ dep ∈ deps, dep ∈ k1.table.modules) : mountRequires isPrint mountOne id deps k1 = some (none, k1) := by
  induction deps with
  | nil => rfl
  | cons dep rest ih =>
      have later := ih fun other member => there other (List.mem_cons_of_mem _ member)
      rw [mountRequires]
      split
      next => exact later
      next => rw [if_pos (there dep List.mem_cons_self), later]

theorem plans_there {w : World GoString GoString} {stack deps : List GoString} (s : Plan GoString GoString)
    (there : ∀ dep ∈ deps, w.there dep) : Plans w stack deps s s := by
  induction deps with
  | nil => exact .nil _ _
  | cons dep rest ih =>
      exact .passes (.inl (there dep List.mem_cons_self)) (ih fun other member => there other (List.mem_cons_of_mem _ member))

theorem place_advanced {s : Plan GoString GoString} (advanced : Advanced k s k1) (desc : Descriptor)
    (owns : ∀ k', ∃ provided, ownMount mod k' = .ok provided ∧
      ∀ name, name ∈ provided.map (·.name) ↔ name ∈ namesOf (describeModule k.registry mod) .provided) :
    ∃ k3, place isPrint ownMount mod desc k1 = (none, k3) ∧
      Advanced k (s.close mod.id (nodeOf (describeModule k.registry mod))) k3 := by
  obtain ⟨provided, mounts, exactly⟩ := owns { k1 with table := k1.table.reserve mod.id mod.pointer }
  unfold place
  dsimp only
  rw [mounts]
  refine ⟨_, rfl, advanced.registry, advanced.fsRoot, advanced.core, fun id => ?_, fun id => ?_, ?_, fun name => ?_⟩
  · simp [MountTable.record, MountTable.reserve, advanced.settled id]
  · simp only [MountTable.record, MountTable.reserve, AList.mem_insert, advanced.modules, Plan.close, List.mem_append,
      List.mem_singleton]
    tauto
  · simp [MountTable.record, MountTable.reserve, advanced.order, Plan.close]
  · have given : name ∈ provided.map (·.name) ↔ name ∈ (nodeOf (describeModule k.registry mod)).gives := exactly name
    simp only [List.mem_append, given, advanced.caps, Plan.close]
    tauto

theorem mount_opens {stack : List GoString} {s inner : Plan GoString GoString} (faithful : Faithful k)
    (advanced : Advanced k s k1) (named : (describeModule k.registry mod).name = mod.id) (nonempty : mod.id ≠ [])
    (absent : mod.id ∉ k.table.modules) (fresh : mod.id ∉ s.order)
    (plans : Plans k.world (mod.id :: stack) (describeModule k.registry mod).requires s inner)
    (takes : ∀ c ∈ namesOf (describeModule k.registry mod) .required, k.world.has c ∨ c ∈ inner.gained)
    (owns : ∀ k', ∃ provided, ownMount mod k' = .ok provided ∧
      ∀ name, name ∈ provided.map (·.name) ↔ name ∈ namesOf (describeModule k.registry mod) .provided)
    (requires : ∃ bound k2, (∀ fuel ≥ bound, mountRequires isPrint (mount isPrint ownMount fuel) mod.id
      (describeModule k.registry mod).requires k1 = some (none, k2)) ∧ Advanced k inner k2) :
    ∃ bound k3, (∀ fuel ≥ bound, mount isPrint ownMount fuel mod k1 = some (none, k3)) ∧
      Advanced k (inner.close mod.id (nodeOf (describeModule k.registry mod))) k3 := by
  obtain ⟨bound, k2, walks, after⟩ := requires
  have names := faithful_named faithful
  have normal := described_normal k.registry mod
  have unmounted : mod.id ∉ k1.table.modules := fun listed => ((advanced.modules _).mp listed).elim absent fresh
  have apart := plans_apart plans List.mem_cons_self fresh
  have unmounted2 : mod.id ∉ k2.table.modules := fun listed => ((after.modules _).mp listed).elim absent apart
  have before : preflightModuleMount isPrint k1 (describeModule k.registry mod) = some none := by
    have fewer : [mod.id] ⊆ mod.id :: stack := List.cons_subset_cons _ (List.nil_subset _)
    obtain ⟨t, rfl, own⟩ := plans_within (advanced_node advanced) advanced.modules (advanced_has advanced) plans
      (Plan.append_empty s).symm fewer
    refine preflight_passes (advanced.registry ▸ names) normal (named ▸ nonempty) (named ▸ unmounted) (named ▸ own)
      fun c taken => ?_
    rw [advanced_has advanced, or_assoc]
    exact (takes c taken).imp_right List.mem_append.mp
  have again : preflightModuleMount isPrint k2 (describeModule k.registry mod) = some none := by
    have there : ∀ dep ∈ (describeModule k.registry mod).requires, k2.world.there dep := fun dep member =>
      (after.modules dep).mpr (plans_done plans dep member)
    refine preflight_passes (after.registry ▸ names) normal (named ▸ nonempty) (named ▸ unmounted2)
      (plans_there _ there) fun c taken => .inl ?_
    rw [advanced_has after]
    exact takes c taken
  obtain ⟨k3, placed, closed⟩ := place_advanced after (describeModule k.registry mod) owns
  refine ⟨bound + 1, k3, fun fuel enough => ?_, closed⟩
  obtain ⟨fuel, rfl⟩ : ∃ less, fuel = less + 1 := ⟨fuel - 1, by omega⟩
  have all : mountRequires isPrint (mount isPrint ownMount fuel) mod.id
      (requirements mod.id (describeModule k.registry mod)) k1 = some (none, k2) := by
    rw [requirements, mountRequires_append _ _ (walks fuel (by omega))]
    refine mountRequires_there _ fun dep member => ?_
    split_ifs at member with js
    · rw [List.mem_singleton.mp member]
      exact (after.modules _).mpr (plans_done plans _ js.2)
    · cases member
  rw [mount, if_neg nonempty, advanced.registry]
  dsimp only
  rw [if_neg fun listed => unmounted ((advanced.settled _).mp listed), before]
  dsimp only
  rw [all]
  dsimp only
  rw [if_neg fun listed => unmounted2 ((after.settled _).mp listed), again, placed]

theorem requires_mount (faithful : Faithful k) (owns : OwnMounts ownMount k mod) {stack deps : List GoString}
    {s t : Plan GoString GoString} (plans : Plans k.world stack deps s t) (above : id ∈ stack)
    (named : ∀ dep ∈ deps, dep ≠ []) (advanced : Advanced k s k1) :
    ∃ bound k2, (∀ fuel ≥ bound, mountRequires isPrint (mount isPrint ownMount fuel) id deps k1 = some (none, k2)) ∧
      Advanced k t k2 := by
  induction plans generalizing id k1 with
  | nil => exact ⟨0, k1, fun _ _ => rfl, advanced⟩
  | @passes stack rest dep s t already _ ih =>
      obtain ⟨bound, k2, walks, after⟩ := ih above (fun other member => named other (List.mem_cons_of_mem _ member)) advanced
      refine ⟨bound, k2, fun fuel enough => ?_, after⟩
      have there : dep ∈ k1.table.modules := (advanced.modules dep).mpr already
      by_cases skip : dep = [] ∨ dep = id
      · rw [mountRequires, if_pos skip]
        exact walks fuel enough
      · rw [mountRequires, if_neg skip, if_pos there]
        exact walks fuel enough
  | @opens stack rest dep node s inner t absent fresh alone found needs takes later ihNeeds ihLater =>
      obtain ⟨desc, registered, rfl⟩ := world_node found
      obtain ⟨factory, listed, -⟩ := Option.map_eq_some_iff.mp registered
      obtain ⟨depMod, built, rfl, same, nameSame⟩ := faithful dep factory listed
      obtain rfl := Option.some.inj (registered.symm.trans same)
      have nonempty := named depMod.id List.mem_cons_self
      have own := owns depMod (.inr ⟨depMod.id, factory, listed, built⟩)
      have inside := ihNeeds List.mem_cons_self (normal_requires (described_normal k.registry depMod)) advanced
      obtain ⟨first, k2, mounts, middle⟩ :=
        mount_opens faithful advanced nameSame nonempty absent fresh needs takes own inside
      obtain ⟨second, k3, walks, after⟩ := ihLater above (fun other member => named other (List.mem_cons_of_mem _ member)) middle
      refine ⟨max first second, k3, fun fuel enough => ?_, after⟩
      have different : ¬ (depMod.id = [] ∨ depMod.id = id) := by
        rintro (empty | same)
        · exact nonempty empty
        · exact alone (same ▸ above)
      have missing : depMod.id ∉ k1.table.modules := fun member => ((advanced.modules _).mp member).elim absent fresh
      have builds : buildRegisteredModule isPrint k1.registry k1.fsRoot depMod.id = .ok depMod := by
        rw [advanced.registry, advanced.fsRoot, buildRegisteredModule, listed]
        dsimp only
        rw [built]
      rw [mountRequires, if_neg different, if_neg missing, builds]
      dsimp only
      rw [mounts fuel (by omega)]
      exact walks fuel (by omega)

def requirementsOf (k : Kit) (mod : Module) (id : GoString) : List GoString :=
  if id = mod.id then (describeModule k.registry mod).requires
  else match registeredModuleDescriptor k.registry id with
    | none => []
    | some desc => desc.requires

def RequiresNew (k : Kit) (mod : Module) (a b : GoString) : Prop := b ∈ requirementsOf k mod a ∧ b ∉ k.table.modules

structure MountsNew (k : Kit) (mod : Module) (k' : Kit) (added : List GoString) : Prop where
  order : k'.table.mountOrder = k.table.mountOrder ++ added
  modules : ∀ id, id ∈ k'.table.modules ↔ id ∈ k.table.modules ∨ id ∈ added
  reached : ∀ id, id ∈ added ↔ Relation.ReflTransGen (RequiresNew k mod) mod.id id
  nodup : added.Nodup
  after : ∀ before id rest, added = before ++ id :: rest →
    ∀ dep ∈ requirementsOf k mod id, dep ∈ k.table.modules ∨ dep ∈ before

structure Fits (k : Kit) (mod : Module) : Prop where
  nonempty : mod.id ≠ []
  unmounted : mod.id ∉ k.table.modules
  settled : Settled k
  faithful : Faithful k
  named : (describeModule k.registry mod).name = mod.id

theorem plan_mounts {t : Plan GoString GoString} {k' : Kit}
    (plans : Plans k.world [mod.id] (describeModule k.registry mod).requires Plan.empty t)
    (advanced : Advanced k (t.close mod.id (nodeOf (describeModule k.registry mod))) k') :
    MountsNew k mod k' (t.order ++ [mod.id]) := by
  have placed := plans_placed plans .nil
  have apart : mod.id ∉ t.order := plans_apart plans (List.mem_singleton_self _) List.not_mem_nil
  have own : requirementsOf k mod mod.id = (describeModule k.registry mod).requires := if_pos rfl
  have others : ∀ id node, id ≠ mod.id → k.world.node id = some node → requirementsOf k mod id = node.needs := by
    intro id node other found
    obtain ⟨desc, registered, rfl⟩ := world_node found
    rw [requirementsOf, if_neg other, registered]
    rfl
  have needs : ∀ a b, a ∈ t.order → RequiresNew k mod a b → b ∈ t.order := by
    intro a b member requires
    obtain ⟨node, found⟩ := placed_node placed member
    have other : a ≠ mod.id := fun same => apart (same ▸ member)
    exact placed_needs placed member ⟨node, found, others a node other found ▸ requires.1, requires.2⟩
  refine ⟨advanced.order, advanced.modules, fun id => ⟨fun member => ?_, fun reached => ?_⟩, ?_,
    fun before id rest split dep requires => ?_⟩
  · rcases List.mem_append.mp member with before | same
    · obtain ⟨dep, among, new, reaches⟩ := (plan_order plans id).mp before
      have first : dep ∈ t.order := (plan_order plans dep).mpr ⟨dep, among, new, .refl⟩
      have start : Relation.ReflTransGen (RequiresNew k mod) mod.id dep := .single ⟨own ▸ among, new⟩
      induction reaches with
      | refl => exact start
      | @tail a b reached step ih =>
          have inside := placed_reaches placed first reached
          obtain ⟨node, found, listed, new⟩ := step
          have other : a ≠ mod.id := fun same => apart (same ▸ inside)
          have before := ih (List.mem_append_left _ inside) inside
          exact before.tail ⟨others a node other found ▸ listed, new⟩
    · exact List.mem_singleton.mp same ▸ .refl
  · induction reached with
    | refl => exact List.mem_append_right _ (List.mem_singleton_self _)
    | @tail a b _ step ih =>
        refine List.mem_append_left _ ?_
        rcases List.mem_append.mp ih with before | same
        · exact needs a b before step
        · obtain rfl := List.mem_singleton.mp same
          exact (plans_done plans b (own ▸ step.1)).resolve_left step.2
  · refine List.nodup_append.mpr ⟨placed_nodup placed, List.nodup_singleton _, fun other member last also same => ?_⟩
    exact apart (List.mem_singleton.mp also ▸ same ▸ member)
  · rcases List.eq_nil_or_concat rest with rfl | ⟨middle, last, rfl⟩
    · obtain ⟨rfl, ends⟩ := List.append_inj' split rfl
      obtain ⟨rfl, -⟩ := List.cons.inj ends
      exact plans_done plans dep (own ▸ requires)
    · rw [List.concat_eq_append, ← List.cons_append, ← List.append_assoc] at split
      have inner := (List.append_inj' split rfl).1
      obtain ⟨node, found, after⟩ := placed_split placed inner
      have other : id ≠ mod.id := by
        rintro rfl
        exact apart (inner ▸ List.mem_append_right _ List.mem_cons_self)
      exact after dep (others id node other found ▸ requires)

theorem unready_refused {preflight : ModulePreflight} (k : Kit) (mod : Module)
    (answer : preflightModuleDescriptor isPrint k (describeModule k.registry mod) = some preflight)
    (unready : preflight.ready = false) (fuel : Nat) :
    ∃ err, mount isPrint ownMount (fuel + 1) mod k = some (some err, k) := by
  have refused : preflightModuleMount isPrint k (describeModule k.registry mod) =
      some (some (preflightError isPrint (shownName (describeModule k.registry mod)) preflight)) := by
    rw [preflightModuleMount, answer, Option.map_some, unready]
    rfl
  rw [mount]
  dsimp only
  split_ifs
  · exact ⟨_, rfl⟩
  · exact ⟨_, rfl⟩
  · rw [refused]
    exact ⟨_, rfl⟩

theorem ready_mounts {preflight : ModulePreflight} (fits : Fits k mod) (owns : OwnMounts ownMount k mod)
    (answer : preflightModuleDescriptor isPrint k (describeModule k.registry mod) = some preflight)
    (ready : preflight.ready = true) : ∃ bound k' added,
      (∀ fuel ≥ bound, mount isPrint ownMount fuel mod k = some (none, k')) ∧ MountsNew k mod k' added := by
  have normal := described_normal k.registry mod
  obtain ⟨found, same, iff⟩ := preflight_ready isPrint k (faithful_named fits.faithful) normal (fits.named ▸ fits.nonempty)
    (fits.named ▸ fits.unmounted)
  obtain rfl := Option.some.inj (answer.symm.trans same)
  obtain ⟨t, plans, takes⟩ := iff.mp ready
  rw [fits.named] at plans
  have advanced := advanced_start fits.settled
  obtain ⟨bound, k', mounts, after⟩ := mount_opens fits.faithful advanced fits.named fits.nonempty fits.unmounted
    List.not_mem_nil plans takes (owns mod (.inl rfl))
    (requires_mount fits.faithful owns plans (List.mem_singleton_self _) (normal_requires normal) advanced)
  exact ⟨bound, k', _, mounts, plan_mounts plans after⟩

theorem preflight_agrees_with_mount (isPrint : Nat → Bool)
    (ownMount : Module → Kit → Except GoString (List CapabilityDescriptor)) (k : Kit) (mod : Module) :
    ∃ preflight, preflightModuleDescriptor isPrint k (describeModule k.registry mod) = some preflight ∧
      (preflight.ready = false → ∀ fuel, ∃ err, mount isPrint ownMount (fuel + 1) mod k = some (some err, k)) ∧
      (preflight.ready = true → Fits k mod → OwnMounts ownMount k mod → ∃ bound k' added,
        (∀ fuel ≥ bound, mount isPrint ownMount fuel mod k = some (none, k')) ∧ MountsNew k mod k' added) := by
  obtain ⟨preflight, answer⟩ := preflight_answers isPrint k (described_normal k.registry mod)
  exact ⟨preflight, answer, unready_refused k mod answer, fun ready fits owns => ready_mounts fits owns answer ready⟩

-- What a ready preflight would promise of every module and every set of mounted modules: all of the closure of the
-- requirements that is not mounted, also what only mounted modules require.
def MountsClosure (isPrint : Nat → Bool) (ownMount : Module → Kit → Except GoString (List CapabilityDescriptor)) (k : Kit)
    (mod : Module) : Prop :=
  ∃ bound k' added, (∀ fuel ≥ bound, mount isPrint ownMount fuel mod k = some (none, k')) ∧
    k'.table.mountOrder = k.table.mountOrder ++ added ∧ ∀ id, id ∈ added ↔
      id ∉ k.table.modules ∧ Relation.ReflTransGen (fun a b => b ∈ requirementsOf k mod a) mod.id id

def Promise (isPrint : Nat → Bool) (ownMount : Module → Kit → Except GoString (List CapabilityDescriptor)) (k : Kit)
    (mod : Module) : Prop :=
  ∀ preflight, preflightModuleDescriptor isPrint k (describeModule k.registry mod) = some preflight →
    preflight.ready = true → Settled k → Faithful k → (describeModule k.registry mod).name = mod.id →
      OwnMounts ownMount k mod → MountsClosure isPrint ownMount k mod

def nothing : Module → Kit → Except GoString (List CapabilityDescriptor) := fun _ _ => .ok []

def describedModule (id : GoString) (requires : List GoString) : Module := ⟨0, id, some ⟨id, requires, []⟩⟩

def describedFactory (id : GoString) (requires : List GoString) : Factory :=
  ⟨some ⟨id, requires, []⟩, fun _ => .ok (describedModule id requires)⟩

theorem described_bare (registry : Registry) (id : GoString) :
    describeModule registry (describedModule id []) = ⟨id, [], []⟩ := by
  simp [describeModule, describedModule, normalizeDescriptor, uniqueStrings, sortStrings, normalizeCapabilities]
  exact ite_self id

theorem described_single (registry : Registry) (id dep : GoString) (named : dep ≠ []) :
    describeModule registry (describedModule id [dep]) = ⟨id, [dep], []⟩ := by
  simp [describeModule, describedModule, normalizeDescriptor, uniqueStrings, sortStrings, normalizeCapabilities, named,
    List.eraseDups_cons]
  exact ite_self id

def mountedKit : Kit := ⟨∅, [], fun _ => false, ⟨AList.singleton [97] 0, AList.singleton [97] 0, ∅, [[97]]⟩, []⟩

def gapKit : Kit where
  registry := (AList.singleton [121] (describedFactory [121] [])).insert [120] (describedFactory [120] [[121]])
  fsRoot := []
  core := fun _ => false
  table := ⟨AList.singleton [120] 0, AList.singleton [120] 0, ∅, [[120]]⟩
  caps := []

theorem bare_ready (isPrint : Nat → Bool) (k : Kit) {desc : Descriptor} (normal : Normal desc) (requires : desc.requires = [])
    (capabilities : desc.capabilities = []) :
    ∃ preflight, preflightModuleDescriptor isPrint k desc = some preflight ∧ preflight.ready = true := by
  obtain ⟨acc, walked, done⟩ := check_start isPrint k normal
  refine ⟨_, by rw [preflightModuleDescriptor, normal, done, Option.map_some], ready_clean.mpr ?_⟩
  rw [requires] at walked
  obtain rfl := Option.some.inj walked
  have wanted : ∀ cap ∈ desc.capabilities, Wanted k (Planner.start.enter (shownName desc)) cap := by
    rw [capabilities]
    rintro _ ⟨⟩
  exact (finish_shows (enter_shows start_shows) wanted).2.2 start_clean

theorem nothing_owns (k : Kit) (mod : Module)
    (bare : ∀ m, (m = mod ∨ ∃ dep factory, k.registry.lookup dep = some factory ∧ factory.build k.fsRoot = .ok m) →
      namesOf (describeModule k.registry m) .provided = []) : OwnMounts nothing k mod := by
  intro m among k'
  refine ⟨[], rfl, fun name => ?_⟩
  rw [bare m among]
  rfl

theorem mounted_module_refused : ¬ Promise (fun _ => true) nothing mountedKit (describedModule [97] []) := by
  intro promise
  have described := described_bare mountedKit.registry [97]
  obtain ⟨preflight, answer, ready⟩ := bare_ready (fun _ => true) mountedKit
    (described_normal mountedKit.registry (describedModule [97] [])) (by rw [described]) (by rw [described])
  have settled : Settled mountedKit := fun _ => Iff.rfl
  have faithful : Faithful mountedKit := fun dep factory listed => nomatch listed
  have owns : OwnMounts nothing mountedKit (describedModule [97] []) := by
    refine nothing_owns _ _ fun m among => ?_
    rcases among with rfl | ⟨dep, factory, listed, -⟩
    · rw [described]
      rfl
    · cases listed
  obtain ⟨bound, k', added, mounts, -⟩ := promise preflight answer ready settled faithful (by rw [described]; rfl) owns
  have listed : (describedModule [97] []).id ∈ mountedKit.table.mounted := by decide
  have refused := mounts (bound + 1) (Nat.le_succ bound)
  rw [mount, if_neg (by simp [describedModule]), if_pos listed] at refused
  cases refused

theorem described_named (registry : Registry) (id : GoString) (requires : List GoString) :
    (describeModule registry (describedModule id requires)).name = id := ite_self id

theorem described_gives (registry : Registry) (id : GoString) (requires : List GoString) :
    namesOf (describeModule registry (describedModule id requires)) .provided = [] := by
  simp [namesOf, describeModule, describedModule, normalizeDescriptor, normalizeCapabilities]

theorem gap_registered {dep : GoString} {factory : Factory} (listed : gapKit.registry.lookup dep = some factory) :
    ∃ requires, factory = describedFactory dep requires ∧ (dep = [120] → requires = [[121]]) := by
  by_cases same : dep = [120]
  · subst same
    rw [gapKit, AList.lookup_insert] at listed
    exact ⟨[[121]], (Option.some.inj listed).symm, fun _ => rfl⟩
  · rw [gapKit, AList.lookup_insert_ne same] at listed
    by_cases last : dep = [121]
    · subst last
      exact ⟨[], (Option.some.inj listed).symm, fun no => absurd no same⟩
    · have none : (AList.singleton [121] (describedFactory [121] []) : Registry).lookup dep = none := by
        rw [AList.lookup_eq_none]
        exact fun member => last (List.mem_singleton.mp member)
      cases none.symm.trans listed

theorem gap_faithful : Faithful gapKit := by
  intro dep factory listed
  obtain ⟨requires, rfl, -⟩ := gap_registered listed
  refine ⟨describedModule dep requires, rfl, rfl, ?_, described_named _ _ _⟩
  rw [registeredModuleDescriptor, listed]
  rfl

theorem gap_unmounted : ([97] : GoString) ∉ gapKit.table.modules := by decide

section

variable {dep : GoString}

theorem gap_fits : Fits gapKit (describedModule [97] [dep]) :=
  ⟨List.cons_ne_nil 97 [], gap_unmounted, fun _ => Iff.rfl, gap_faithful, described_named _ _ _⟩

theorem gap_owns : OwnMounts nothing gapKit (describedModule [97] [dep]) := by
  refine nothing_owns _ _ fun m among => ?_
  rcases among with rfl | ⟨other, factory, listed, built⟩
  · exact described_gives _ _ _
  · obtain ⟨requires, rfl, -⟩ := gap_registered listed
    obtain rfl := Except.ok.inj built
    exact described_gives _ _ _

theorem gap_ready (named : dep ≠ []) {t : Plan GoString GoString} (plans : Plans gapKit.world [[97]] [dep] Plan.empty t) :
    ∃ preflight, preflightModuleDescriptor (fun _ => true) gapKit
      (describeModule gapKit.registry (describedModule [97] [dep])) = some preflight ∧ preflight.ready = true := by
  have described := described_single gapKit.registry [97] dep named
  obtain ⟨preflight, answer, iff⟩ := preflight_ready (fun _ => true) gapKit (faithful_named gap_faithful)
    (described_normal gapKit.registry (describedModule [97] [dep])) (by rw [described]; exact List.cons_ne_nil 97 [])
    (by rw [described]; exact gap_unmounted)
  rw [described] at iff answer
  rw [described]
  exact ⟨preflight, answer, iff.mpr ⟨t, plans, fun c taken => nomatch taken⟩⟩

theorem gap_requires (named : dep ≠ []) :
    requirementsOf gapKit (describedModule [97] [dep]) [97] = [dep] := by
  rw [requirementsOf, if_pos (by rfl), described_single _ _ _ named]

end

theorem gap_there : ([120] : GoString) ∈ gapKit.table.modules := by decide

theorem gap_node : gapKit.world.node [121] = some ⟨[], [], []⟩ := by
  have found : registeredModuleDescriptor gapKit.registry [121] =
      some (describeModule gapKit.registry (describedModule [121] [])) := rfl
  change (registeredModuleDescriptor gapKit.registry [121]).map nodeOf = _
  rw [found, described_bare]
  rfl

-- The requirement, which needs nothing, is mounted with the module.
theorem gap_mounts : ∃ bound k' added,
    (∀ fuel ≥ bound, mount (fun _ => true) nothing fuel (describedModule [97] [[121]]) gapKit = some (none, k')) ∧
      MountsNew gapKit (describedModule [97] [[121]]) k' added ∧ [121] ∈ added := by
  have plans : Plans gapKit.world [[97]] [[121]] Plan.empty _ :=
    .opens (by decide : [121] ∉ gapKit.table.modules) nofun (by decide) gap_node (.nil _ _) nofun (.nil _ _)
  obtain ⟨preflight, answer, ready⟩ := gap_ready (by decide) plans
  obtain ⟨other, same, -, mounts⟩ :=
    preflight_agrees_with_mount (fun _ => true) nothing gapKit (describedModule [97] [[121]])
  obtain rfl := Option.some.inj (answer.symm.trans same)
  obtain ⟨bound, k', added, mounted, new⟩ := mounts ready gap_fits gap_owns
  refine ⟨bound, k', added, mounted, new, (new.reached _).mpr (.single ⟨?_, by decide⟩)⟩
  rw [show (describedModule [97] [[121]]).id = [97] from rfl, gap_requires (by decide)]
  exact List.mem_singleton_self _

theorem gap_left : ¬ Promise (fun _ => true) nothing gapKit (describedModule [97] [[120]]) := by
  intro promise
  obtain ⟨preflight, answer, ready⟩ := gap_ready (by decide) (plans_there _ fun dep member =>
    List.mem_singleton.mp member ▸ gap_there)
  have fits : Fits gapKit (describedModule [97] [[120]]) := gap_fits
  obtain ⟨bound, k', added, mounts, order, closure⟩ :=
    promise preflight answer ready fits.settled fits.faithful fits.named gap_owns
  obtain ⟨bound', k'', added', mounts', new⟩ := ready_mounts fits gap_owns answer ready
  have final := (mounts (max bound bound') (Nat.le_max_left _ _)).symm.trans (mounts' _ (Nat.le_max_right _ _))
  obtain ⟨-, rfl⟩ := Prod.mk.inj (Option.some.inj final)
  obtain rfl := List.append_cancel_left (order.symm.trans new.order)
  have first : ([120] : GoString) ∈ requirementsOf gapKit (describedModule [97] [[120]]) [97] := by
    rw [gap_requires (by decide)]
    exact List.mem_singleton_self _
  have second : ([121] : GoString) ∈ requirementsOf gapKit (describedModule [97] [[120]]) [120] := by
    have found : registeredModuleDescriptor gapKit.registry [120] =
        some (describeModule gapKit.registry (describedModule [120] [[121]])) := rfl
    rw [requirementsOf, if_neg (by decide), found, described_single _ _ _ (by decide)]
    exact List.mem_singleton_self _
  have behind := (closure [121]).mpr ⟨by decide, .tail (.single first) second⟩
  rcases Relation.ReflTransGen.cases_head ((new.reached [121]).mp behind) with same | ⟨dep, step, -⟩
  · exact absurd same (by decide)
  · have only := step.1
    rw [show (describedModule [97] [[120]]).id = [97] from rfl, gap_requires (by decide)] at only
    exact step.2 (List.mem_singleton.mp only ▸ gap_there)

-- Two Kits at rest in which a ready module is not mounted with all its closure: its Mount refuses a mounted module, and
-- passes over what a mounted module requires.
theorem ready_without_closure : ¬ (∀ isPrint ownMount k mod, Promise isPrint ownMount k mod) ∧
    ¬ Promise (fun _ => true) nothing mountedKit (describedModule [97] []) ∧
    ¬ Promise (fun _ => true) nothing gapKit (describedModule [97] [[120]]) :=
  ⟨fun promise => mounted_module_refused (promise _ _ _ _), mounted_module_refused, gap_left⟩

end Brainkit.Modules.Preflight
