import Brainkit.Modules.Preflight

set_option autoImplicit false

namespace Brainkit.Modules.Preflight

open GoText Startup Planned

def Named (registry : Registry) : Prop :=
  ∀ dep desc, registeredModuleDescriptor registry dep = some desc → desc.name = dep

def namesOf (desc : Descriptor) (direction : CapabilityDirection) : List GoString :=
  (desc.capabilities.filter fun cap => cap.name ≠ [] && cap.direction = direction).map (·.name)

def nodeOf (desc : Descriptor) : Node GoString GoString := ⟨desc.requires, namesOf desc .required, namesOf desc .provided⟩

def Kit.world (k : Kit) : World GoString GoString where
  node id := (registeredModuleDescriptor k.registry id).map nodeOf
  there id := id ∈ k.table.modules
  has name := name ∈ k.caps ∨ k.core name = true

def Clean (p : Planner) : Prop := p.missingModules = [] ∧ p.missingCaps = ∅ ∧ p.errors = []

structure Shows (p : Planner) (stack : List GoString) (s : Plan GoString GoString) : Prop where
  stack : p.stack = stack.reverse
  visited : ∀ id, p.visited.lookup id = if id ∈ s.order then some true else none
  planned : ∀ name, name ∈ p.plannedCapabilities ↔ name ∈ s.gained

variable {isPrint : Nat → Bool} {k : Kit} {id : GoString} {p p' : Planner} {ready ready' : Bool} {fuel : Nat}
  {visit : Descriptor → Planner → Option (Bool × Planner)} {desc : Descriptor}

theorem ready_clean : p.result.ready = true ↔ Clean p := by
  have empty : p.missingCaps.entries = [] ↔ p.missingCaps = ∅ := by
    constructor
    · intro none
      exact AList.ext none
    · intro same
      rw [same]
      rfl
  simp [Planner.result, Clean, empty, and_assoc]

theorem not_clean_error (msg : GoString) : ¬ Clean (p.addError msg) := by
  rintro ⟨-, -, none⟩
  exact List.ne_nil_of_mem List.mem_insert_self none

theorem not_clean_missing (dep : GoString) : ¬ Clean (p.missing dep) := by
  rintro ⟨none, -⟩
  exact List.ne_nil_of_mem List.mem_insert_self none

theorem available_iff (moduleName : GoString) (cap : CapabilityDescriptor) (named : cap.name ≠ []) :
    (capabilityAvailability k p moduleName cap).available = true ↔
      cap.name ∈ p.plannedCapabilities ∨ k.world.has cap.name := by
  have source : (k.capabilitySource cap.name).isSome = true ↔ k.world.has cap.name := by
    unfold Kit.capabilitySource Kit.world
    split_ifs <;> simp_all
  unfold capabilityAvailability
  cases found : p.plannedCapabilities.lookup cap.name with
  | none => simpa [found, ← AList.lookup_isSome] using source
  | some provider => simp [← AList.lookup_isSome, found]

structure Beside (p p' : Planner) : Prop where
  planned : p'.plannedCapabilities = p.plannedCapabilities
  stack : p'.stack = p.stack
  visited : p'.visited = p.visited
  missingModules : p'.missingModules = p.missingModules
  errors : p'.errors = p.errors

def Wanted (k : Kit) (p : Planner) (cap : CapabilityDescriptor) : Prop :=
  cap.name ≠ [] → cap.direction = .required → cap.name ∈ p.plannedCapabilities ∨ k.world.has cap.name

theorem insert_ne_empty {α : Type} (table : Table α) (key : GoString) (value : α) : table.insert key value ≠ ∅ := by
  intro none
  have member : key ∈ table.insert key value := AList.mem_insert _ |>.mpr (.inl rfl)
  rw [none] at member
  exact AList.notMem_empty key member

theorem check_capability (k : Kit) (id : GoString) (acc : Bool × Planner) (cap : CapabilityDescriptor) :
    Beside acc.2 (checkCapability k id acc cap).2 ∧
      (Wanted k acc.2 cap →
        (checkCapability k id acc cap).1 = acc.1 ∧ (checkCapability k id acc cap).2.missingCaps = acc.2.missingCaps) ∧
      ((checkCapability k id acc cap).2.missingCaps = ∅ → acc.2.missingCaps = ∅ ∧ Wanted k acc.2 cap) := by
  unfold checkCapability
  by_cases unnamed : cap.name = []
  · rw [if_pos unnamed]
    exact ⟨⟨rfl, rfl, rfl, rfl, rfl⟩, fun _ => ⟨rfl, rfl⟩, fun none => ⟨none, fun named => absurd unnamed named⟩⟩
  · rw [if_neg unnamed]
    have available := @available_iff k acc.2 id cap unnamed
    cases direction : cap.direction with
    | provided =>
        refine ⟨⟨rfl, rfl, rfl, rfl, rfl⟩, fun _ => ⟨rfl, rfl⟩, fun none => ⟨none, fun _ required => ?_⟩⟩
        cases direction.symm.trans required
    | optional =>
        refine ⟨⟨rfl, rfl, rfl, rfl, rfl⟩, fun _ => ⟨rfl, rfl⟩, fun none => ⟨none, fun _ required => ?_⟩⟩
        cases direction.symm.trans required
    | required =>
        dsimp only
        by_cases there : (capabilityAvailability k acc.2 id cap).available = true
        · rw [if_pos there]
          exact ⟨⟨rfl, rfl, rfl, rfl, rfl⟩, fun _ => ⟨rfl, rfl⟩, fun none => ⟨none, fun _ _ => available.mp there⟩⟩
        · rw [if_neg there]
          refine ⟨⟨rfl, rfl, rfl, rfl, rfl⟩, fun wanted => ?_, fun none => absurd none (insert_ne_empty _ _ _)⟩
          exact absurd (available.mpr (wanted unnamed direction)) there

theorem wanted_beside (beside : Beside p p') (cap : CapabilityDescriptor) : Wanted k p' cap ↔ Wanted k p cap := by
  rw [Wanted, Wanted, beside.planned]

theorem check_capabilities (k : Kit) (id : GoString) (caps : List CapabilityDescriptor) (acc : Bool × Planner) :
    Beside acc.2 (caps.foldl (checkCapability k id) acc).2 ∧
      ((∀ cap ∈ caps, Wanted k acc.2 cap) → (caps.foldl (checkCapability k id) acc).1 = acc.1 ∧
        (caps.foldl (checkCapability k id) acc).2.missingCaps = acc.2.missingCaps) ∧
      ((caps.foldl (checkCapability k id) acc).2.missingCaps = ∅ →
        acc.2.missingCaps = ∅ ∧ ∀ cap ∈ caps, Wanted k acc.2 cap) := by
  induction caps generalizing acc with
  | nil => exact ⟨⟨rfl, rfl, rfl, rfl, rfl⟩, fun _ => ⟨rfl, rfl⟩, fun none => ⟨none, fun _ member => nomatch member⟩⟩
  | cons cap caps ih =>
      obtain ⟨first, keeps, asks⟩ := check_capability k id acc cap
      obtain ⟨later, keepsAll, asksAll⟩ := ih (checkCapability k id acc cap)
      rw [List.foldl_cons]
      refine ⟨⟨later.planned.trans first.planned, later.stack.trans first.stack, later.visited.trans first.visited,
        later.missingModules.trans first.missingModules, later.errors.trans first.errors⟩, fun wanted => ?_, fun none => ?_⟩
      · obtain ⟨flag, missing⟩ := keeps (wanted cap List.mem_cons_self)
        obtain ⟨flagAll, missingAll⟩ := keepsAll fun other member =>
          (wanted_beside first other).mpr (wanted other (List.mem_cons_of_mem _ member))
        exact ⟨flagAll.trans flag, missingAll.trans missing⟩
      · obtain ⟨none, wantedAll⟩ := asksAll none
        obtain ⟨none, wanted⟩ := asks none
        refine ⟨none, fun other member => ?_⟩
        rcases List.mem_cons.mp member with rfl | member
        · exact wanted
        · exact (wanted_beside first other).mp (wantedAll other member)

theorem plan_capabilities (id : GoString) (caps : List CapabilityDescriptor) (p : Planner) :
    (caps.foldl (planCapability id) p).stack = p.stack ∧ (caps.foldl (planCapability id) p).visited = p.visited ∧
      (caps.foldl (planCapability id) p).missingModules = p.missingModules ∧
      (caps.foldl (planCapability id) p).missingCaps = p.missingCaps ∧
      (caps.foldl (planCapability id) p).errors = p.errors ∧
      ∀ name, name ∈ (caps.foldl (planCapability id) p).plannedCapabilities ↔
        name ∈ p.plannedCapabilities ∨ ∃ cap ∈ caps, cap.name ≠ [] ∧ cap.direction = .provided ∧ cap.name = name := by
  induction caps generalizing p with
  | nil => simp
  | cons cap caps ih =>
      obtain ⟨stack, visited, modules, missing, errors, planned⟩ := ih (planCapability id p cap)
      rw [List.foldl_cons, stack, visited, modules, missing, errors]
      unfold planCapability at planned ⊢
      split_ifs at planned ⊢ with passed
      · refine ⟨rfl, rfl, rfl, rfl, rfl, fun name => ?_⟩
        rw [planned name]
        simp at passed
        grind
      · refine ⟨rfl, rfl, rfl, rfl, rfl, fun name => ?_⟩
        rw [planned name]
        simp only [AList.mem_insert]
        simp at passed
        grind

theorem mem_names (direction : CapabilityDirection) (name : GoString) : name ∈ namesOf desc direction ↔
    ∃ cap ∈ desc.capabilities, cap.name ≠ [] ∧ cap.direction = direction ∧ cap.name = name := by
  simp [namesOf, and_assoc]

theorem wanted_iff : (∀ cap ∈ desc.capabilities, Wanted k p cap) ↔
    ∀ name ∈ namesOf desc .required, name ∈ p.plannedCapabilities ∨ k.world.has name := by
  constructor
  · intro wanted name member
    obtain ⟨cap, listed, named, required, rfl⟩ := (mem_names _ _).mp member
    exact wanted cap listed named required
  · intro takes cap listed named required
    exact takes cap.name ((mem_names _ _).mpr ⟨cap, listed, named, required, rfl⟩)

theorem finish_stack (acc : Bool × Planner) : (finish k id desc acc).2.stack = acc.2.stack.dropLast := by
  obtain ⟨beside, -⟩ := check_capabilities k id desc.capabilities acc
  unfold finish
  dsimp only [Planner.leave]
  split_ifs
  · rw [(plan_capabilities id desc.capabilities _).1, beside.stack]
  · rw [beside.stack]

theorem finish_clean (acc : Bool × Planner) (clean : Clean (finish k id desc acc).2) :
    Clean acc.2 ∧ ∀ cap ∈ desc.capabilities, Wanted k acc.2 cap := by
  obtain ⟨beside, -, asks⟩ := check_capabilities k id desc.capabilities acc
  have checked : Clean (desc.capabilities.foldl (checkCapability k id) acc).2 := by
    unfold finish at clean
    dsimp only [Planner.leave] at clean
    split_ifs at clean
    · obtain ⟨-, -, modules, missing, errors, -⟩ := plan_capabilities id desc.capabilities
        (desc.capabilities.foldl (checkCapability k id) acc).2
      exact ⟨modules ▸ clean.1, missing ▸ clean.2.1, errors ▸ clean.2.2⟩
    · exact clean
  obtain ⟨none, wanted⟩ := asks checked.2.1
  exact ⟨⟨beside.missingModules ▸ checked.1, none, beside.errors ▸ checked.2.2⟩, wanted⟩

theorem finish_shows {stack : List GoString} {s : Plan GoString GoString} (shows : Shows p (id :: stack) s)
    (wanted : ∀ cap ∈ desc.capabilities, Wanted k p cap) :
    (finish k id desc (true, p)).1 = true ∧ Shows (finish k id desc (true, p)).2 stack (s.close id (nodeOf desc)) ∧
      (Clean p → Clean (finish k id desc (true, p)).2) := by
  obtain ⟨beside, keeps, -⟩ := check_capabilities k id desc.capabilities (true, p)
  obtain ⟨ready, missing⟩ := keeps wanted
  obtain ⟨stacked, visited, modules, missingCaps, errors, planned⟩ := plan_capabilities id desc.capabilities
    (desc.capabilities.foldl (checkCapability k id) (true, p)).2
  unfold finish
  dsimp only [Planner.leave]
  rw [ready, if_pos rfl]
  refine ⟨rfl, ⟨?_, fun other => ?_, fun name => ?_⟩, fun clean => ⟨?_, ?_, ?_⟩⟩
  · simp [stacked, beside.stack, shows.stack]
  · rw [visited, beside.visited]
    by_cases same : other = id
    · rw [same, AList.lookup_insert, if_pos (by simp [Plan.close])]
    · rw [AList.lookup_insert_ne same, shows.visited other]
      exact if_congr (by simp [Plan.close, same]) rfl rfl
  · have closed : name ∈ (s.close id (nodeOf desc)).gained ↔ name ∈ s.gained ∨ name ∈ namesOf desc .provided :=
      List.mem_append
    rw [planned, beside.planned, closed, shows.planned, mem_names]
  · rw [modules, beside.missingModules]
    exact clean.1
  · rw [missingCaps, missing]
    exact clean.2.1
  · rw [errors, beside.errors]
    exact clean.2.2

theorem requires_clean (visits : ∀ desc q r q', visit desc q = some (r, q') → Clean q' → Clean q) (deps : List GoString)
    (done : checkRequires isPrint k visit id deps ready p = some (ready', p')) (clean : Clean p') : Clean p := by
  induction deps generalizing ready p with
  | nil =>
      obtain ⟨-, rfl⟩ := Prod.mk.inj (Option.some.inj done)
      exact clean
  | cons dep rest ih =>
      rw [checkRequires] at done
      dsimp only at done
      split at done
      next => exact ih done
      next =>
        split at done
        next => exact absurd (ih done) (not_clean_error _)
        next =>
          split at done
          next => exact absurd (ih done) (not_clean_missing _)
          next =>
            split at done
            next =>
              have before := ih done
              exact before
            next =>
              split at done
              next => exact absurd (ih done) (not_clean_missing _)
              next depDesc found =>
                split at done
                next => cases done
                next depReady q visited =>
                  have before := visits _ _ _ _ visited (ih done)
                  exact before

theorem check_clean (done : check isPrint k fuel desc p = some (ready', p')) (clean : Clean p') : Clean p := by
  induction fuel generalizing desc p ready' p' with
  | zero => cases done
  | succ fuel ih =>
      rw [check] at done
      split at done
      next =>
        obtain ⟨-, rfl⟩ := Prod.mk.inj (Option.some.inj done)
        exact clean
      next =>
        split at done
        next =>
          obtain ⟨-, rfl⟩ := Prod.mk.inj (Option.some.inj done)
          exact absurd clean (not_clean_error _)
        next =>
          split at done
          next => cases done
          next acc walked =>
            have last : (finish k _ _ acc).2 = p' := congrArg Prod.snd (Option.some.inj done)
            have entered := requires_clean (fun _ _ _ _ visited => ih visited) _ walked (finish_clean acc (last ▸ clean)).1
            exact entered

def Follows (k : Kit) (visit : Descriptor → Planner → Option (Bool × Planner)) : Prop :=
  ∀ dep desc q r q' stack s, registeredModuleDescriptor k.registry dep = some desc → dep ≠ [] → dep ∉ k.table.modules →
    visit desc q = some (r, q') → Clean q' → Shows q stack s →
      r = true ∧ ∃ t, Plans k.world stack [dep] s t ∧ Shows q' stack t

theorem requires_plans (visits : ∀ desc q r q', visit desc q = some (r, q') → Clean q' → Clean q) (follows : Follows k visit)
    {stack : List GoString} {s : Plan GoString GoString} (deps : List GoString) (named : ∀ dep ∈ deps, dep ≠ [])
    (done : checkRequires isPrint k visit id deps ready p = some (ready', p')) (clean : Clean p') (shows : Shows p stack s) :
    ready' = ready ∧ ∃ t, Plans k.world stack deps s t ∧ Shows p' stack t := by
  induction deps generalizing ready p s with
  | nil =>
      obtain ⟨rfl, rfl⟩ := Prod.mk.inj (Option.some.inj done)
      exact ⟨rfl, s, .nil _ _, shows⟩
  | cons dep rest ih =>
      have later := fun other member => named other (List.mem_cons_of_mem _ member)
      rw [checkRequires, if_neg (named dep List.mem_cons_self)] at done
      dsimp only at done
      split at done
      next => exact absurd (requires_clean visits rest done clean) (not_clean_error _)
      next =>
        split at done
        next => exact absurd (requires_clean visits rest done clean) (not_clean_missing _)
        next =>
          split at done
          next mounted =>
            obtain ⟨same, t, plans, shows⟩ := ih later done ⟨shows.stack, shows.visited, shows.planned⟩
            have member : dep ∈ k.table.modules := of_decide_eq_true mounted
            exact ⟨same, t, .passes (.inl member) plans, shows⟩
          next absent =>
            split at done
            next => exact absurd (requires_clean visits rest done clean) (not_clean_missing _)
            next depDesc found =>
              split at done
              next => cases done
              next depReady q visited =>
                have cleanDep := requires_clean visits rest done clean
                have absent : dep ∉ k.table.modules := fun member => absent (decide_eq_true member)
                obtain ⟨rfl, middle, first, shown⟩ := follows dep depDesc _ _ q stack s found (named dep List.mem_cons_self)
                  absent visited cleanDep ⟨shows.stack, shows.visited, shows.planned⟩
                obtain ⟨same, t, plans, shows⟩ := ih later done shown
                exact ⟨same.trans (Bool.and_true ready), t, plans_append first plans, shows⟩

def Normal (desc : Descriptor) : Prop := normalizeDescriptor desc.name desc = desc

theorem registered_normal {dep : GoString} (found : registeredModuleDescriptor k.registry dep = some desc) : Normal desc := by
  obtain ⟨factory, -, rfl⟩ := Option.map_eq_some_iff.mp found
  exact normalized_again _ _

theorem normal_requires (normal : Normal desc) : ∀ dep ∈ desc.requires, dep ≠ [] := by
  intro dep member
  rw [← normal] at member
  exact (normalized_requires.mp member).2

theorem shown_name (named : desc.name ≠ []) : shownName desc = desc.name := if_neg named

theorem enter_shows {stack : List GoString} {s : Plan GoString GoString} (shows : Shows p stack s) :
    Shows (p.enter id) (id :: stack) s :=
  ⟨by simp [Planner.enter, shows.stack], shows.visited, shows.planned⟩

theorem check_opens (normal : Normal desc) (named : desc.name ≠ []) (follows : Follows k (check isPrint k fuel))
    {stack : List GoString} {s : Plan GoString GoString} (shows : Shows p stack s) (fresh : desc.name ∉ s.order)
    (done : check isPrint k (fuel + 1) desc p = some (ready', p')) (clean : Clean p') :
    desc.name ∉ stack ∧ ready' = true ∧ ∃ inner, Plans k.world (desc.name :: stack) desc.requires s inner ∧
      (∀ c ∈ namesOf desc .required, k.world.has c ∨ c ∈ inner.gained) ∧
      Shows p' stack (inner.close desc.name (nodeOf desc)) := by
  have unvisited : p.visited.lookup desc.name = none := by rw [shows.visited, if_neg fresh]
  rw [check, normal, shown_name named, unvisited] at done
  dsimp only at done
  split at done
  next =>
    obtain ⟨-, rfl⟩ := Prod.mk.inj (Option.some.inj done)
    exact absurd clean (not_clean_error _)
  next apart =>
    split at done
    next => cases done
    next acc walked =>
      have result := Option.some.inj done
      have last : (finish k desc.name desc acc).2 = p' := congrArg Prod.snd result
      obtain ⟨cleanAcc, wanted⟩ := finish_clean acc (last ▸ clean)
      obtain ⟨flag, inner, plans, shown⟩ := requires_plans (fun _ _ _ _ => check_clean) follows desc.requires
        (normal_requires normal) walked cleanAcc (enter_shows shows)
      obtain ⟨acc1, acc2⟩ := acc
      dsimp only at flag
      subst flag
      obtain ⟨ready, closed, -⟩ := finish_shows shown wanted
      rw [result] at ready closed
      refine ⟨fun above => apart ?_, ready, inner, plans, fun c taken => ?_, closed⟩
      · rw [shows.stack]
        exact List.mem_reverse.mpr above
      · exact ((wanted_iff.mp wanted c taken).imp_left (shown.planned c).mp).symm

theorem check_follows (names : Named k.registry) : Follows k (check isPrint k fuel) := by
  induction fuel with
  | zero => exact fun _ _ _ _ _ _ _ _ _ _ done => nomatch done
  | succ fuel ih =>
      intro dep desc q r q' stack s found named absent done clean shows
      obtain rfl := names dep desc found
      by_cases fresh : desc.name ∈ s.order
      · have visited : q.visited.lookup desc.name = some true := by rw [shows.visited, if_pos fresh]
        rw [check, registered_normal found, shown_name named, visited] at done
        obtain ⟨rfl, rfl⟩ := Prod.mk.inj (Option.some.inj done)
        exact ⟨rfl, s, .passes (.inr fresh) (.nil _ _), shows⟩
      · obtain ⟨apart, ready, inner, plans, takes, closed⟩ :=
          check_opens (registered_normal found) named ih shows fresh done clean
        have node : k.world.node desc.name = some (nodeOf desc) := by
          dsimp only [Kit.world]
          rw [found, Option.map_some]
        exact ⟨ready, _, .opens absent fresh apart node plans takes (.nil _ _), closed⟩

theorem require_shows {stack : List GoString} {s : Plan GoString GoString} (shows : Shows p stack s)
    (status : ModuleDependencyStatus) : Shows (p.require status) stack s :=
  ⟨shows.stack, shows.visited, shows.planned⟩

theorem world_node {dep : GoString} {node : Node GoString GoString} (found : k.world.node dep = some node) :
    ∃ desc, registeredModuleDescriptor k.registry dep = some desc ∧ nodeOf desc = node :=
  Option.map_eq_some_iff.mp found

theorem requires_visit {dep : GoString} {rest : List GoString} (other : dep ≠ id) (named : dep ≠ [])
    (absent : dep ∉ k.table.modules) (found : registeredModuleDescriptor k.registry dep = some desc)
    (done : checkRequires isPrint k visit id (dep :: rest) ready p = some (ready', p')) :
    ∃ depReady q, visit desc (p.require (dependencyStatus k id dep)) = some (depReady, q) ∧
      checkRequires isPrint k visit id rest (ready && depReady) q = some (ready', p') := by
  have registered : dep ∈ k.registry := by
    obtain ⟨factory, listed, -⟩ := Option.map_eq_some_iff.mp found
    exact AList.lookup_isSome.mp (by rw [listed]; rfl)
  have available : (dependencyStatus k id dep).available = true := by simp [dependencyStatus, registered]
  have unmounted : (dependencyStatus k id dep).mounted = false := decide_eq_false absent
  rw [checkRequires, if_neg named, if_neg other] at done
  dsimp only at done
  rw [available, unmounted, found, Bool.not_true, if_neg Bool.false_ne_true, if_neg Bool.false_ne_true] at done
  dsimp only at done
  split at done
  next => cases done
  next depReady q visited => exact ⟨depReady, q, visited, done⟩

theorem plans_requires (names : Named k.registry) {stack deps : List GoString} {s t : Plan GoString GoString}
    (plans : Plans k.world stack deps s t) (above : id ∈ stack) (apart : ∀ x ∈ stack, x ∉ k.table.modules ∧ x ∉ s.order)
    (placed : Placed k.world s.order) (named : ∀ dep ∈ deps, dep ≠ []) (shows : Shows p stack s)
    (done : checkRequires isPrint k (check isPrint k fuel) id deps ready p = some (ready', p')) :
    ready' = ready ∧ Shows p' stack t ∧ (Clean p → Clean p') := by
  induction plans generalizing fuel id ready p ready' p' with
  | nil =>
      obtain ⟨rfl, rfl⟩ := Prod.mk.inj (Option.some.inj done)
      exact ⟨rfl, shows, fun clean => clean⟩
  | @passes stack rest dep s t already later ih =>
      have namedRest := fun other member => named other (List.mem_cons_of_mem _ member)
      have different : dep ≠ id := by
        rintro rfl
        exact already.elim (apart dep above).1 (apart dep above).2
      by_cases there : dep ∈ k.table.modules
      · have available : (dependencyStatus k id dep).available = true := by simp [dependencyStatus, there]
        have mounted : (dependencyStatus k id dep).mounted = true := decide_eq_true there
        rw [checkRequires, if_neg (named dep List.mem_cons_self), if_neg different] at done
        dsimp only at done
        rw [available, mounted, Bool.not_true] at done
        rw [if_neg Bool.false_ne_true, if_pos rfl] at done
        obtain ⟨same, shown, clean⟩ := ih above apart placed namedRest (require_shows shows _) done
        exact ⟨same, shown, clean⟩
      · have before := already.resolve_left there
        obtain ⟨node, found⟩ := placed_node placed before
        obtain ⟨desc, found, -⟩ := world_node found
        obtain ⟨depReady, q, visited, done⟩ := requires_visit different (named dep List.mem_cons_self) there found done
        cases fuel with
        | zero => cases visited
        | succ fuel =>
            obtain rfl := names dep desc found
            have shows := require_shows shows (dependencyStatus k id desc.name)
            have marked := shows.visited desc.name
            rw [if_pos before] at marked
            rw [check, registered_normal found, shown_name (named _ List.mem_cons_self), marked] at visited
            obtain ⟨rfl, rfl⟩ := Prod.mk.inj (Option.some.inj visited)
            rw [Bool.and_true] at done
            obtain ⟨same, shown, clean⟩ := ih above apart placed namedRest shows done
            exact ⟨same, shown, clean⟩
  | @opens stack rest dep node s inner t absent fresh alone found needs takes later ihNeeds ihLater =>
      have namedRest := fun other member => named other (List.mem_cons_of_mem _ member)
      have different : dep ≠ id := fun same => alone (same ▸ above)
      obtain ⟨desc, registered, rfl⟩ := world_node found
      obtain ⟨depReady, q, visited, done⟩ :=
        requires_visit different (named dep List.mem_cons_self) absent registered done
      cases fuel with
      | zero => cases visited
      | succ fuel =>
          obtain rfl := names dep desc registered
          have normal := registered_normal registered
          have shows := require_shows shows (dependencyStatus k id desc.name)
          have unvisited := shows.visited desc.name
          rw [if_neg fresh] at unvisited
          have entered : desc.name ∉ (p.require (dependencyStatus k id desc.name)).stack := by
            rw [shows.stack]
            exact fun member => alone (List.mem_reverse.mp member)
          rw [check, normal, shown_name (named _ List.mem_cons_self), unvisited] at visited
          dsimp only at visited
          rw [if_neg entered] at visited
          split at visited
          next => cases visited
          next acc walked =>
            have outer : ∀ x ∈ desc.name :: stack, x ∉ k.table.modules ∧ x ∉ s.order := by
              intro x member
              rcases List.mem_cons.mp member with rfl | member
              · exact ⟨absent, fresh⟩
              · exact apart x member
            obtain ⟨flag, shown, clean⟩ := ihNeeds List.mem_cons_self outer placed (normal_requires normal)
              (enter_shows shows) walked
            obtain ⟨acc1, acc2⟩ := acc
            dsimp only at flag shown clean
            subst flag
            have wanted : ∀ cap ∈ desc.capabilities, Wanted k acc2 cap :=
              wanted_iff.mpr fun c taken => (takes c taken).symm.imp_left (shown.planned c).mpr
            obtain ⟨ready, closed, cleans⟩ := finish_shows shown wanted
            have result := Option.some.inj visited
            rw [result] at ready closed cleans
            dsimp only at ready
            subst ready
            rw [Bool.and_true] at done
            have after : ∀ x ∈ stack, x ∉ k.table.modules ∧ x ∉ (inner.close desc.name (nodeOf desc)).order := by
              intro x member
              refine ⟨(apart x member).1, fun listed => ?_⟩
              rcases List.mem_append.mp listed with before | same
              · exact plans_apart needs (List.mem_cons_of_mem _ member) (apart x member).2 before
              · exact alone (List.mem_singleton.mp same ▸ member)
            have placedInner : Placed k.world (inner.close desc.name (nodeOf desc)).order :=
              .snoc (plans_placed needs placed) absent (plans_apart needs List.mem_cons_self fresh) found (plans_done needs)
            obtain ⟨same, shows, cleanRest⟩ := ihLater above after placedInner namedRest closed done
            exact ⟨same, shows, fun start => cleanRest (cleans (clean start))⟩

theorem requires_stack (visits : ∀ desc q r q', visit desc q = some (r, q') → q'.stack = q.stack) (deps : List GoString)
    {stack : List GoString} (done : checkRequires isPrint k visit id deps ready p = some (ready', p'))
    (same : p.stack = stack) : p'.stack = stack := by
  induction deps generalizing ready p with
  | nil =>
      obtain ⟨-, rfl⟩ := Prod.mk.inj (Option.some.inj done)
      exact same
  | cons dep rest ih =>
      rw [checkRequires] at done
      dsimp only at done
      split at done
      next => exact ih done same
      next =>
        split at done
        next => exact ih done same
        next =>
          split at done
          next => exact ih done same
          next =>
            split at done
            next => exact ih done same
            next =>
              split at done
              next => exact ih done same
              next depDesc found =>
                split at done
                next => cases done
                next depReady q visited => exact ih done ((visits _ _ _ _ visited).trans same)

theorem check_stack (done : check isPrint k fuel desc p = some (ready', p')) : p'.stack = p.stack := by
  induction fuel generalizing desc p ready' p' with
  | zero => cases done
  | succ fuel ih =>
      rw [check] at done
      split at done
      next =>
        obtain ⟨-, rfl⟩ := Prod.mk.inj (Option.some.inj done)
        rfl
      next =>
        split at done
        next =>
          obtain ⟨-, rfl⟩ := Prod.mk.inj (Option.some.inj done)
          rfl
        next =>
          split at done
          next => cases done
          next acc walked =>
            have last := congrArg Prod.snd (Option.some.inj done)
            dsimp only at last
            rw [← last, finish_stack, requires_stack (fun _ _ _ _ visited => ih visited) _ walked rfl]
            exact List.dropLast_concat

def known (registry : Registry) : List GoString :=
  registry.keys.filterMap fun key => (registeredModuleDescriptor registry key).map shownName

def unentered (k : Kit) (stack : List GoString) : Nat := (known k.registry).countP fun name => name ∉ stack

theorem known_registered {dep : GoString} (found : registeredModuleDescriptor k.registry dep = some desc) :
    shownName desc ∈ known k.registry := by
  obtain ⟨factory, listed, -⟩ := Option.map_eq_some_iff.mp found
  have key : dep ∈ k.registry.keys := AList.mem_keys.mp (AList.lookup_isSome.mp (by rw [listed]; rfl))
  exact List.mem_filterMap.mpr ⟨dep, key, by rw [found, Option.map_some]⟩

theorem unentered_enter {stack : List GoString} (member : id ∈ known k.registry) (fresh : id ∉ stack) :
    unentered k (stack ++ [id]) < unentered k stack := by
  obtain ⟨before, after, split⟩ := List.append_of_mem member
  have fewer : ∀ names : List GoString,
      (names.countP fun name => name ∉ stack ++ [id]) ≤ names.countP fun name => name ∉ stack := fun names =>
    List.countP_mono_left fun name _ out => by simp at out ⊢; exact out.1
  have first := fewer before
  have last := fewer after
  unfold unentered
  rw [split]
  simp only [List.countP_append, List.countP_cons]
  simp [fresh] at first last ⊢
  omega

theorem requires_answers (answers : ∀ dep desc q, registeredModuleDescriptor k.registry dep = some desc →
      q.stack = p.stack → visit desc q ≠ none)
    (keeps : ∀ desc q r q', visit desc q = some (r, q') → q'.stack = q.stack) (deps : List GoString) {q : Planner}
    (stack : q.stack = p.stack) : checkRequires isPrint k visit id deps ready q ≠ none := by
  induction deps generalizing ready q with
  | nil => exact Option.some_ne_none _
  | cons dep rest ih =>
      rw [checkRequires]
      dsimp only
      split
      next => exact ih stack
      next =>
        split
        next => exact ih stack
        next =>
          split
          next => exact ih stack
          next =>
            split
            next => exact ih stack
            next =>
              split
              next => exact ih stack
              next depDesc found =>
                have answer := answers dep depDesc (q.require (dependencyStatus k id dep)) found stack
                split
                next none => exact absurd none answer
                next depReady q' visited => exact ih ((keeps _ _ _ _ visited).trans stack)

theorem check_answers {dep : GoString} (found : registeredModuleDescriptor k.registry dep = some desc)
    (enough : unentered k p.stack < fuel) : check isPrint k fuel desc p ≠ none := by
  induction fuel generalizing dep desc p with
  | zero => exact absurd enough (Nat.not_lt_zero _)
  | succ fuel ih =>
      rw [check, registered_normal found]
      split
      next => exact Option.some_ne_none _
      next =>
        split
        next => exact Option.some_ne_none _
        next fresh =>
          have fewer := unentered_enter (known_registered found) fresh
          have room : unentered k (p.enter (shownName desc)).stack < fuel :=
            Nat.lt_of_lt_of_le fewer (Nat.le_of_lt_succ enough)
          split
          next none =>
            refine absurd none (requires_answers (fun dep desc q found stack => ih found ?_)
              (fun _ _ _ _ visited => check_stack visited) desc.requires rfl)
            rw [stack]
            exact room
          next => exact Option.some_ne_none _

theorem start_shows : Shows .start [] Plan.empty :=
  ⟨rfl, fun _ => rfl, fun _ => iff_of_false (AList.notMem_empty _) List.not_mem_nil⟩

theorem start_clean : Clean .start := ⟨rfl, rfl, rfl⟩

theorem check_start (isPrint : Nat → Bool) (k : Kit) (normal : Normal desc) : ∃ acc,
    checkRequires isPrint k (check isPrint k (k.registry.keys.length + 1)) (shownName desc) desc.requires true
      (Planner.start.enter (shownName desc)) = some acc ∧
    check isPrint k (k.registry.keys.length + 2) desc .start = some (finish k (shownName desc) desc acc) := by
  have few : unentered k (Planner.start.enter (shownName desc)).stack < k.registry.keys.length + 1 :=
    Nat.lt_succ_of_le (Nat.le_trans List.countP_le_length (List.length_filterMap_le _ _))
  have answers : checkRequires isPrint k (check isPrint k (k.registry.keys.length + 1)) (shownName desc) desc.requires true
      (Planner.start.enter (shownName desc)) ≠ none := by
    refine requires_answers (fun dep desc q found stack => check_answers found ?_)
      (fun _ _ _ _ visited => check_stack visited) desc.requires rfl
    rw [stack]
    exact few
  obtain ⟨acc, walked⟩ := Option.ne_none_iff_exists'.mp answers
  refine ⟨acc, walked, ?_⟩
  rw [check, normal]
  have unvisited : Planner.start.visited.lookup (shownName desc) = none := rfl
  rw [unvisited]
  dsimp only
  rw [if_neg (by exact List.not_mem_nil), walked]

theorem preflight_answers (isPrint : Nat → Bool) (k : Kit) (normal : Normal desc) :
    ∃ preflight, preflightModuleDescriptor isPrint k desc = some preflight := by
  obtain ⟨acc, -, done⟩ := check_start isPrint k normal
  rw [preflightModuleDescriptor, normal, done]
  exact ⟨_, rfl⟩

theorem preflight_ready (isPrint : Nat → Bool) (k : Kit) (names : Named k.registry) (normal : Normal desc)
    (named : desc.name ≠ []) (unmounted : desc.name ∉ k.table.modules) :
    ∃ preflight, preflightModuleDescriptor isPrint k desc = some preflight ∧
      (preflight.ready = true ↔ ∃ t, Plans k.world [desc.name] desc.requires Plan.empty t ∧
        ∀ c ∈ namesOf desc .required, k.world.has c ∨ c ∈ t.gained) := by
  obtain ⟨acc, walked, done⟩ := check_start isPrint k normal
  refine ⟨_, by rw [preflightModuleDescriptor, normal, done, Option.map_some], ?_⟩
  rw [ready_clean]
  constructor
  · intro clean
    obtain ⟨-, -, t, plans, takes, -⟩ := check_opens normal named (check_follows names) start_shows List.not_mem_nil done clean
    exact ⟨t, plans, takes⟩
  · rintro ⟨t, plans, takes⟩
    have apart : ∀ x ∈ [desc.name], x ∉ k.table.modules ∧ x ∉ (Plan.empty : Plan GoString GoString).order := by
      intro x member
      rw [List.mem_singleton.mp member]
      exact ⟨unmounted, List.not_mem_nil⟩
    rw [shown_name named] at walked ⊢
    obtain ⟨acc1, acc2⟩ := acc
    obtain ⟨flag, shown, clean⟩ := plans_requires names plans (List.mem_singleton_self _) apart .nil (normal_requires normal)
      (enter_shows start_shows) walked
    subst flag
    have wanted : ∀ cap ∈ desc.capabilities, Wanted k acc2 cap :=
      wanted_iff.mpr fun c taken => (takes c taken).symm.imp_left (shown.planned c).mpr
    exact (finish_shows shown wanted).2.2 (clean start_clean)

end Brainkit.Modules.Preflight
