import Brainkit.Library.Postorder
import Brainkit.Modules.MountTable

set_option autoImplicit false

namespace Brainkit.Modules.Startup

open GoText Postorder

-- A module's instance is its pointer; what it describes is there when it is a Describer.
structure Module where
  pointer : Nat
  id : GoString
  describes : Option Descriptor
deriving DecidableEq

-- The outcome of Build under a root, with no configuration to decode.
structure Factory where
  describes : Option Descriptor
  build : GoString → Except GoString Module

abbrev Registry := Table Factory

def describeModule (registry : Registry) (mod : Module) : Descriptor :=
  let desc : Descriptor := match mod.describes with
    | some described => described
    | none => match registry.lookup mod.id with
      | none => ⟨mod.id, [], []⟩
      | some factory => factory.describes.getD ⟨mod.id, [], []⟩
  normalizeDescriptor mod.id desc

def dependenciesOf (registry : Registry) (mod : Module) : List GoString :=
  sortStrings (describeModule registry mod).requires

def notRegistered (isPrint : Nat → Bool) (id : GoString) : GoString :=
  if id = lit "jsruntime" then
    lit "brainkit: JS runtime requested but module " ++ quote isPrint id ++
      lit " is not registered; import github.com/brainlet/brainkit/modules/jsruntime and mount jsruntime.New()" ++
      lit ", or import github.com/brainlet/brainkit/presets/standard"
  else lit "brainkit: module " ++ quote isPrint id ++ lit " is not registered"

def buildRegisteredModule (isPrint : Nat → Bool) (registry : Registry) (fsRoot id : GoString) : Except GoString Module :=
  match registry.lookup id with
  | none => .error (notRegistered isPrint id)
  | some factory =>
      match factory.build fsRoot with
      | .error err => .error (lit "brainkit: build module " ++ quote isPrint id ++ lit ": " ++ err)
      | .ok mod => .ok mod

def explicitModules : List (Option Module) → Table Module → List GoString → Except GoString (Table Module × List GoString)
  | [], explicit, order => .ok (explicit, order)
  | none :: mods, explicit, order => explicitModules mods explicit order
  | some mod :: mods, explicit, order =>
      if mod.id = [] then .error (lit "brainkit: module ID is required")
      else if mod.id ∈ explicit then explicitModules mods explicit order
      else explicitModules mods (explicit.insert mod.id mod) (order ++ [mod.id])

def opens (isPrint : Nat → Bool) (registry : Registry) (fsRoot : GoString) (explicit : Table Module) (id : GoString) :
    Except GoString (Module × List GoString) :=
  match explicit.lookup id with
  | some mod => .ok (mod, (dependenciesOf registry mod).filter fun dep => dep ≠ [] && dep ≠ id)
  | none =>
      match buildRegisteredModule isPrint registry fsRoot id with
      | .error err => .error err
      | .ok mod => .ok (mod, (dependenciesOf registry mod).filter fun dep => dep ≠ [] && dep ≠ id)

def cycle (isPrint : Nat → Bool) (id : GoString) : GoString :=
  lit "brainkit: module dependency cycle involving " ++ quote isPrint id

structure Started where
  out : List Module
  builds : List GoString
deriving DecidableEq

-- A visit marks a module that is explicit or registered, so that its depth is bounded by their number.
def orderModulesForStartup (isPrint : Nat → Bool) (registry : Registry) (fsRoot : GoString)
    (mods : List (Option Module)) : Option (Except GoString Started) :=
  match explicitModules mods ∅ [] with
  | .error err => some (.error err)
  | .ok (explicit, order) =>
      let fuel := order.length + registry.keys.length + 1
      match each (visit (cycle isPrint) (opens isPrint registry fsRoot explicit) fuel) order Walk.start with
      | none => none
      | some (.error err) => some (.error err)
      | some (.ok walk) =>
          some (.ok ⟨walk.out.map Prod.snd, walk.opened.filter fun id => !decide (id ∈ explicit)⟩)

def explicitOf (mods : List (Option Module)) (id : GoString) : Option Module :=
  (mods.filterMap fun mod => mod).find? fun mod => decide (mod.id = id)

section Graph

variable (registry : Registry) (fsRoot : GoString) (mods : List (Option Module))

def Provides (id : GoString) (mod : Module) : Prop :=
  explicitOf mods id = some mod ∨
    explicitOf mods id = none ∧ ∃ factory, registry.lookup id = some factory ∧ factory.build fsRoot = .ok mod

def Requires (id dep : GoString) : Prop :=
  ∃ mod, Provides registry fsRoot mods id mod ∧ dep ∈ (describeModule registry mod).requires ∧ dep ≠ id

def Needed (id : GoString) : Prop :=
  ∃ mod, some mod ∈ mods ∧ Relation.ReflTransGen (Requires registry fsRoot mods) mod.id id

def Disordered (id : GoString) : Prop :=
  Relation.TransGen (Requires registry fsRoot mods) id id ∨ ∀ mod, ¬ Provides registry fsRoot mods id mod

structure Ordered (result : Started) (names : List GoString) : Prop where
  needed : ∀ id, id ∈ names ↔ Needed registry fsRoot mods id
  once : names.Nodup
  instances : List.Forall₂ (Provides registry fsRoot mods) names result.out
  built : result.builds.Perm (names.filter fun id => (explicitOf mods id).isNone)
  after : ∀ before id later, names = before ++ id :: later → ∀ dep, Requires registry fsRoot mods id dep → dep ∈ before

end Graph

theorem explicit_of_cons {mod : Module} {mods : List (Option Module)} {id : GoString} :
    explicitOf (some mod :: mods) id = if mod.id = id then some mod else explicitOf mods id := by
  unfold explicitOf
  rw [List.filterMap_cons_some (f := fun mod => mod) rfl, List.find?_cons]
  by_cases same : mod.id = id
  · simp [same]
  · simp [same]

theorem explicit_of_none {mods : List (Option Module)} {id : GoString} :
    explicitOf mods id = none ↔ ∀ mod, some mod ∈ mods → mod.id ≠ id := by
  rw [explicitOf, List.find?_eq_none]
  simp

theorem explicit_error {mods : List (Option Module)} {explicit : Table Module} {order : List GoString} :
    (∃ err, explicitModules mods explicit order = .error err) ↔ ∃ mod, some mod ∈ mods ∧ mod.id = [] := by
  induction mods generalizing explicit order with
  | nil => simp [explicitModules]
  | cons first mods ih =>
      cases first with
      | none => simpa [explicitModules] using ih
      | some mod =>
          rw [explicitModules]
          by_cases empty : mod.id = []
          · simp only [if_pos empty]
            exact ⟨fun _ => ⟨mod, List.mem_cons_self, empty⟩, fun _ => ⟨_, rfl⟩⟩
          · rw [if_neg empty]
            have rest : (∃ other, some other ∈ some mod :: mods ∧ other.id = []) ↔
                ∃ other, some other ∈ mods ∧ other.id = [] := by
              refine ⟨?_, fun ⟨other, member, blank⟩ => ⟨other, List.mem_cons_of_mem _ member, blank⟩⟩
              rintro ⟨other, member, blank⟩
              rcases List.mem_cons.mp member with same | member
              · exact absurd (Option.some.inj same ▸ blank) empty
              · exact ⟨other, member, blank⟩
            rw [rest]
            split
            next => exact ih
            next => exact ih

structure Explicit (mods : List (Option Module)) (explicit : Table Module) (order : List GoString) : Prop where
  nodup : order.Nodup
  named : ∀ id, id ∈ order ↔ id ∈ explicit
  first : ∀ id, explicit.lookup id = explicitOf mods id

theorem explicit_modules {mods : List (Option Module)} {before explicit : Table Module} {names order : List GoString}
    (nodup : names.Nodup) (named : ∀ id, id ∈ names ↔ id ∈ before)
    (done : explicitModules mods before names = .ok (explicit, order)) :
    order.Nodup ∧ (∀ id, id ∈ order ↔ id ∈ explicit) ∧
      ∀ id, explicit.lookup id = (before.lookup id).or (explicitOf mods id) := by
  induction mods generalizing before names with
  | nil =>
      obtain ⟨rfl, rfl⟩ := Prod.mk.inj (Except.ok.inj done)
      exact ⟨nodup, named, fun id => by simp [explicitOf]⟩
  | cons first mods ih =>
      cases first with
      | none => simpa [explicitOf] using ih nodup named (by simpa [explicitModules] using done)
      | some mod =>
          rw [explicitModules] at done
          split at done
          next => cases done
          next =>
            split at done
            next inside =>
              obtain ⟨distinct, listed, firsts⟩ := ih nodup named done
              refine ⟨distinct, listed, fun id => ?_⟩
              rw [firsts id, explicit_of_cons]
              split
              next same =>
                obtain ⟨kept, found⟩ := Option.isSome_iff_exists.mp (AList.lookup_isSome.mpr (same ▸ inside))
                simp [found]
              next => rfl
            next outside =>
              have fresh : mod.id ∉ names := fun member => outside ((named mod.id).mp member)
              have listed : ∀ id, id ∈ names ++ [mod.id] ↔ id ∈ before.insert mod.id mod := fun id => by
                rw [List.mem_append, List.mem_singleton, AList.mem_insert, named id, or_comm]
              obtain ⟨distinct, listed, firsts⟩ := ih (nodup_snoc nodup fresh) listed done
              refine ⟨distinct, listed, fun id => ?_⟩
              rw [firsts id, explicit_of_cons]
              by_cases same : mod.id = id
              · have missing : before.lookup id = none := AList.lookup_eq_none.mpr (same ▸ outside)
                rw [if_pos same, missing, ← same, AList.lookup_insert]
                rfl
              · rw [if_neg same, AList.lookup_insert_ne (Ne.symm same)]

theorem explicit_valid {mods : List (Option Module)} {explicit : Table Module} {order : List GoString}
    (done : explicitModules mods ∅ [] = .ok (explicit, order)) : Explicit mods explicit order := by
  obtain ⟨nodup, named, first⟩ := explicit_modules List.nodup_nil (fun id => by simp) done
  exact ⟨nodup, named, fun id => by simpa using first id⟩

section Order

variable {isPrint : Nat → Bool} {registry : Registry} {fsRoot : GoString} {mods : List (Option Module)}
  {explicit : Table Module} {order : List GoString} {id dep : GoString} {mod : Module}

theorem order_mem (valid : Explicit mods explicit order) : id ∈ order ↔ ∃ mod, some mod ∈ mods ∧ mod.id = id := by
  rw [valid.named, ← AList.lookup_isSome, valid.first, ← not_iff_not, Option.not_isSome_iff_eq_none, explicit_of_none]
  simp

theorem opens_provides (valid : Explicit mods explicit order) {needs : List GoString} :
    opens isPrint registry fsRoot explicit id = .ok (mod, needs) ↔ Provides registry fsRoot mods id mod ∧
      needs = (dependenciesOf registry mod).filter fun dep => dep ≠ [] && dep ≠ id := by
  rw [opens, Provides, valid.first]
  cases found : explicitOf mods id with
  | some other =>
      simp only [Except.ok.injEq, Prod.mk.injEq, Option.some.injEq, reduceCtorEq, false_and, or_false]
      constructor
      · rintro ⟨rfl, rfl⟩
        exact ⟨rfl, rfl⟩
      · rintro ⟨rfl, rfl⟩
        exact ⟨rfl, rfl⟩
  | none =>
      rw [buildRegisteredModule]
      cases registered : registry.lookup id with
      | none => simp
      | some factory =>
          cases built : factory.build fsRoot with
          | error err => simp [built]
          | ok other =>
              simp only [built, Except.ok.injEq, Prod.mk.injEq, Option.some.injEq, reduceCtorEq, false_or, true_and]
              constructor
              · rintro ⟨rfl, rfl⟩
                exact ⟨⟨factory, rfl, built⟩, rfl⟩
              · rintro ⟨⟨factory, rfl, same⟩, rfl⟩
                obtain rfl := Except.ok.inj (built.symm.trans same)
                exact ⟨rfl, rfl⟩

theorem needs_requires (valid : Explicit mods explicit order) :
    Needs (opens isPrint registry fsRoot explicit) id dep ↔ Requires registry fsRoot mods id dep := by
  constructor
  · rintro ⟨mod, needs, opening, member⟩
    obtain ⟨provides, rfl⟩ := (opens_provides valid).mp opening
    obtain ⟨listed, kept⟩ := List.mem_filter.mp member
    exact ⟨mod, provides, mem_sortStrings.mp listed, by simpa using (Bool.and_eq_true_iff.mp kept).2⟩
  · rintro ⟨mod, provides, listed, other⟩
    refine ⟨mod, _, (opens_provides valid).mpr ⟨provides, rfl⟩, List.mem_filter.mpr ⟨mem_sortStrings.mpr listed, ?_⟩⟩
    have named : dep ≠ [] := (normalized_requires.mp listed).2
    simp [named, other]

theorem broken_iff (valid : Explicit mods explicit order) :
    Broken (opens isPrint registry fsRoot explicit) id ↔ ∀ mod, ¬ Provides registry fsRoot mods id mod := by
  constructor
  · rintro ⟨err, broken⟩ mod provides
    have opening : opens isPrint registry fsRoot explicit id = _ := (opens_provides valid).mpr ⟨provides, rfl⟩
    cases broken.symm.trans opening
  · intro missing
    cases opening : opens isPrint registry fsRoot explicit id with
    | error err => exact ⟨err, opening⟩
    | ok found => exact absurd ((opens_provides valid).mp opening).1 (missing found.1)

theorem reaches_requires (valid : Explicit mods explicit order) :
    Reaches (opens isPrint registry fsRoot explicit) id dep ↔
      Relation.ReflTransGen (Requires registry fsRoot mods) id dep := by
  have same : Needs (opens isPrint registry fsRoot explicit) = Requires registry fsRoot mods :=
    funext fun _ => funext fun _ => propext (needs_requires valid)
  rw [Reaches, same]

theorem cyclic_requires (valid : Explicit mods explicit order) :
    Cyclic (opens isPrint registry fsRoot explicit) id ↔ Relation.TransGen (Requires registry fsRoot mods) id id := by
  have same : Needs (opens isPrint registry fsRoot explicit) = Requires registry fsRoot mods :=
    funext fun _ => funext fun _ => propext (needs_requires valid)
  rw [Cyclic, same]

theorem reached_needed (valid : Explicit mods explicit order) :
    (∃ root ∈ order, Reaches (opens isPrint registry fsRoot explicit) root id) ↔ Needed registry fsRoot mods id := by
  constructor
  · rintro ⟨root, member, reaches⟩
    obtain ⟨mod, listed, rfl⟩ := (order_mem valid).mp member
    exact ⟨mod, listed, (reaches_requires valid).mp reaches⟩
  · rintro ⟨mod, listed, reaches⟩
    exact ⟨mod.id, (order_mem valid).mpr ⟨mod, listed, rfl⟩, (reaches_requires valid).mpr reaches⟩

theorem fails_disordered (valid : Explicit mods explicit order) :
    Fails (opens isPrint registry fsRoot explicit) order ↔
      ∃ id, Needed registry fsRoot mods id ∧ Disordered registry fsRoot mods id := by
  constructor
  · rintro ⟨root, member, id, reaches, fails⟩
    refine ⟨id, (reached_needed valid).mp ⟨root, member, reaches⟩, ?_⟩
    exact fails.imp (cyclic_requires valid).mp (broken_iff valid).mp
  · rintro ⟨id, needed, disordered⟩
    have reached : ∃ root ∈ order, Reaches (opens isPrint registry fsRoot explicit) root id :=
      (reached_needed valid).mpr needed
    obtain ⟨root, member, reaches⟩ := reached
    exact ⟨root, member, id, reaches, disordered.imp (cyclic_requires valid).mpr (broken_iff valid).mpr⟩

theorem opens_known (valid : Explicit mods explicit order)
    (opened : ¬ Broken (opens isPrint registry fsRoot explicit) id) : id ∈ order ++ registry.keys := by
  rw [broken_iff valid] at opened
  obtain ⟨mod, provides⟩ := not_forall_not.mp opened
  rw [List.mem_append, valid.named, ← AList.lookup_isSome, valid.first]
  rcases provides with explicit | ⟨-, factory, registered, -⟩
  · exact .inl (by simp [explicit])
  · exact .inr (AList.mem_keys.mp (AList.lookup_isSome.mp (by simp [registered])))

theorem placed_provides (valid : Explicit mods explicit order) {out : List (GoString × Module)}
    (placed : Placed (opens isPrint registry fsRoot explicit) out) :
    List.Forall₂ (Provides registry fsRoot mods) (out.map Prod.fst) (out.map Prod.snd) := by
  refine List.forall₂_map_left_iff.mpr (List.forall₂_map_right_iff.mpr (List.forall₂_same.mpr ?_))
  intro entry member
  obtain ⟨before, after, split⟩ := List.append_of_mem member
  have split : out = before ++ (entry.1, entry.2) :: after := split
  obtain ⟨needs, opening, -⟩ := placed_before placed split
  exact ((opens_provides valid).mp opening).1

theorem placed_after (valid : Explicit mods explicit order) {out : List (GoString × Module)}
    (placed : Placed (opens isPrint registry fsRoot explicit) out) {before later : List GoString}
    (split : out.map Prod.fst = before ++ id :: later) (requires : Requires registry fsRoot mods id dep) :
    dep ∈ before := by
  have needing : Needs (opens isPrint registry fsRoot explicit) id dep := (needs_requires valid).mpr requires
  obtain ⟨first, last, rfl, rfl, ends⟩ := List.map_eq_append_iff.mp split
  obtain ⟨⟨other, value⟩, rest, rfl, rfl, rfl⟩ := List.map_eq_cons_iff.mp ends
  obtain ⟨needs, opening, done⟩ := placed_before placed rfl
  obtain ⟨value, names, opened, needed⟩ := needing
  obtain ⟨rfl, rfl⟩ := Prod.mk.inj (Except.ok.inj (opened.symm.trans opening))
  exact done dep needed

theorem walk_ordered (valid : Explicit mods explicit order) {walk : Walk GoString Module}
    (visits : Visits (opens isPrint registry fsRoot explicit) order Walk.start walk) :
    Ordered registry fsRoot mods ⟨walk.out.map Prod.snd, walk.opened.filter fun id => !decide (id ∈ explicit)⟩
      walk.ids where
  needed := fun id => (walk_left visits).trans (reached_needed valid)
  once := visits.valid.nodup
  instances := placed_provides valid visits.valid.placed
  built := by
    have same : (fun id => (explicitOf mods id).isNone) = fun id => !decide (id ∈ explicit) := by
      funext id
      rw [← valid.first]
      by_cases inside : id ∈ explicit
      · obtain ⟨mod, found⟩ := Option.isSome_iff_exists.mp (AList.lookup_isSome.mpr inside)
        simp [inside, found]
      · simp [inside, AList.lookup_eq_none.mpr inside]
    rw [same]
    exact (walk_opened visits).filter _
  after := fun _ _ _ split _ requires => placed_after valid visits.valid.placed split requires

end Order

theorem startup_ordered (isPrint : Nat → Bool) (registry : Registry) (fsRoot : GoString) (mods : List (Option Module)) :
    orderModulesForStartup isPrint registry fsRoot mods ≠ none ∧
      ((∃ err, orderModulesForStartup isPrint registry fsRoot mods = some (.error err)) ↔
        (∃ mod, some mod ∈ mods ∧ mod.id = []) ∨
          ∃ id, Needed registry fsRoot mods id ∧ Disordered registry fsRoot mods id) ∧
      ∀ result, orderModulesForStartup isPrint registry fsRoot mods = some (.ok result) →
        ∃ names, Ordered registry fsRoot mods result names := by
  unfold orderModulesForStartup
  cases found : explicitModules mods ∅ [] with
  | error err =>
      refine ⟨Option.some_ne_none _, ?_, nofun⟩
      exact ⟨fun _ => .inl (explicit_error.mp ⟨err, found⟩), fun _ => ⟨err, rfl⟩⟩
  | ok both =>
      obtain ⟨explicit, order⟩ := both
      have valid := explicit_valid found
      have named : ¬ ∃ mod, some mod ∈ mods ∧ mod.id = [] := fun blank => by
        have failed : ∃ err, explicitModules mods ∅ [] = .error err := explicit_error.mpr blank
        obtain ⟨err, failed⟩ := failed
        cases found.symm.trans failed
      have total : ∀ id, ¬ Broken (opens isPrint registry fsRoot explicit) id → id ∈ order ++ registry.keys :=
        fun _ => opens_known valid
      have enough : (order ++ registry.keys).length < order.length + registry.keys.length + 1 := by
        rw [List.length_append]
        omega
      rw [or_iff_right named, ← fails_disordered valid, ← walk_fails_iff total enough]
      cases done : each (visit (cycle isPrint) (opens isPrint registry fsRoot explicit)
          (order.length + registry.keys.length + 1)) order Walk.start with
      | none =>
          exact absurd done (walk_answers total enough)
      | some outcome =>
          cases outcome with
          | error err => simp [done]
          | ok walk =>
              refine ⟨by simp [done], by simp [done], ?_⟩
              rintro result same
              simp only [done, Option.some.injEq, Except.ok.injEq] at same
              subst same
              exact ⟨walk.ids, walk_ordered valid (walk_visits done)⟩

def plain (pointer : Nat) (id : GoString) (requires : List GoString) : Module := ⟨pointer, id, some ⟨id, requires, []⟩⟩

def storeFactory : Registry := (∅ : Registry).insert (lit "store") ⟨none, fun _ => .ok (plain 9 (lit "store") [])⟩

def failingFactory : Registry := (∅ : Registry).insert (lit "store") ⟨none, fun _ => .error (lit "no disk")⟩

example : orderModulesForStartup (fun _ => true) storeFactory [] [some (plain 1 (lit "web") [lit "store"])] =
    some (.ok ⟨[plain 9 (lit "store") [], plain 1 (lit "web") [lit "store"]], [lit "store"]⟩) := by decide +kernel

theorem startup_ordered_store :
    ∃ names, Ordered storeFactory [] [some (plain 1 (lit "web") [lit "store"])]
      ⟨[plain 9 (lit "store") [], plain 1 (lit "web") [lit "store"]], [lit "store"]⟩ names :=
  (startup_ordered (fun _ => true) storeFactory [] [some (plain 1 (lit "web") [lit "store"])]).2.2 _ (by decide +kernel)

-- A second instance under an ID is left out and a module that requires itself starts; a module without an ID, and a
-- registered module whose factory fails, start nothing.
theorem startup_departs :
    (∃ result, orderModulesForStartup (fun _ => true) ∅ [] [some (plain 1 (lit "web") []), some (plain 2 (lit "web") [])] =
        some (.ok result) ∧ plain 2 (lit "web") [] ∉ result.out) ∧
      (∃ result, orderModulesForStartup (fun _ => true) ∅ [] [some (plain 1 (lit "web") [lit "web"])] =
        some (.ok result) ∧ lit "web" ∈ (describeModule ∅ (plain 1 (lit "web") [lit "web"])).requires) ∧
      (∃ err, orderModulesForStartup (fun _ => true) ∅ [] [some (plain 1 [] [])] = some (.error err) ∧
        (describeModule ∅ (plain 1 [] [])).requires = []) ∧
      ∃ err, orderModulesForStartup (fun _ => true) failingFactory [] [some (plain 1 (lit "web") [lit "store"])] =
        some (.error err) ∧ lit "store" ∈ failingFactory := by
  refine ⟨⟨⟨[plain 1 (lit "web") []], []⟩, by decide +kernel, by decide +kernel⟩, ?_, ?_, ?_⟩
  · exact ⟨⟨[plain 1 (lit "web") [lit "web"]], []⟩, by decide +kernel, by decide +kernel⟩
  · exact ⟨lit "brainkit: module ID is required", by decide +kernel, by decide +kernel⟩
  · exact ⟨lit "brainkit: build module \"store\": no disk", by decide +kernel, by decide +kernel⟩

end Brainkit.Modules.Startup
