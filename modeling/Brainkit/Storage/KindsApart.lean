import Brainkit.Storage.InitBridges

set_option autoImplicit false

namespace Brainkit.Storage

open Function (update)
open GoText Transition

def StoreName.key (i : StoreName) : GoString := i.1.bridgeKey i.2

namespace Manager

def Action.on (m : Manager) : Action → List StoreName
  | .setRuntime _ | .closeRegistry => []
  | .add i _ _ _ => [i]
  | .remove i => [i]
  | .finish key _ => ((m.closingBridges.lookup key).map Prod.snd).toList
  | .initBridges storages _ => storages.map fun entry => (.storage, entry.1)
  | .registerStorage name _ _ _ => [(.storage, name)]
  | .registerVector name _ _ _ _ => [(.vector, name)]

def view (i : StoreName) (m : Manager) : Option Entry × Option Bridge := (m.entries i, m.running (StoreName.key i))

def Independent (isPrint : Nat → Bool) (storages vectors : List GoString) : Prop :=
  ∀ m, Reachable (step isPrint) new m → ∀ action m', step isPrint m action = some m' →
    ((∀ i ∈ action.on m, ∃ s ∈ storages, i = (.storage, s)) →
      ∀ v ∈ vectors, m'.view (.vector, v) = m.view (.vector, v)) ∧
    ((∀ i ∈ action.on m, ∃ v ∈ vectors, i = (.vector, v)) → ∀ s ∈ storages, m'.view (.storage, s) = m.view (.storage, s))

def Keyed (m : Manager) : Prop := ∀ key srv i, m.closingBridges.lookup key = some (srv, i) → StoreName.key i = key

def Apart (i j : StoreName) : Prop := i ≠ j ∧ StoreName.key i ≠ StoreName.key j

section

variable {isPrint : Nat → Bool} {m m' next : Manager} {i j : StoreName}

theorem view_start (apart : Apart i j) (path url : GoString) : (m.start (StoreName.key i) path url).view j = m.view j := by
  rw [view, running_start, Function.update_of_ne apart.2.symm]
  rfl

theorem view_closeBridge (apart : Apart i j) (closeErr : Option GoString) :
    (m.closeBridge isPrint (StoreName.key i) closeErr).1.view j = m.view j := by
  rw [view, closeBridge_entries, running_closeBridge, if_neg fun both => apart.2 both.1.symm, view]

theorem view_entry (apart : Apart i j) (e : Option Entry) :
    ({ m with entries := update m.entries i e } : Manager).view j = m.view j := by
  have kept : update m.entries i e j = m.entries j := Function.update_of_ne apart.1.symm e m.entries
  exact Prod.ext kept rfl

theorem view_register (apart : Apart i j) {registration : Registration} {path : GoString}
    (accepted : m.register isPrint i registration path = .ok next) : next.view j = m.view j := by
  unfold register at accepted
  split_ifs at accepted
  cases accepted
  exact view_entry apart _

theorem view_add (apart : Apart i j) (cfg : StoreConfig) (started : Except GoString GoString) (closeErr : Option GoString) :
    (m.add isPrint i.1 i.2 cfg started closeErr).1.view j = m.view j := by
  have opened := view_start (m := m) apart cfg.path
  unfold add
  split_ifs
  · rfl
  · cases started with
    | error err => rfl
    | ok url =>
        simp only
        split
        · next accepted => exact (view_register apart accepted).trans (opened url)
        · exact (view_closeBridge apart closeErr).trans (opened url)
  · split
    · next accepted => exact view_register apart accepted
    · rfl

theorem view_remove (apart : Apart i j) : (m.remove isPrint i).1.view j = m.view j := by
  unfold remove
  simp only
  split
  · exact view_entry apart none
  · split_ifs <;> rfl

theorem view_finish (apart : Apart i j) (srv : Bridge) (closeErr : Option GoString) :
    (m.finishBridgeClose isPrint (StoreName.key i) (srv, i) closeErr).1.view j = m.view j := by
  unfold finishBridgeClose
  cases closeErr with
  | some err => rfl
  | none =>
      simp only
      split_ifs
      · refine (view_entry apart none).trans (Prod.ext rfl ?_)
        exact AList.lookup_erase_ne apart.2.symm
      · rfl

theorem view_mirror (apart : Apart i j) (cfg : StoreConfig) (bridgeURL : GoString) (close : Bool) (closeErr : Option GoString) :
    (m.mirror isPrint i cfg bridgeURL close closeErr).1.view j = m.view j := by
  unfold mirror
  split
  · next accepted => exact view_register apart accepted
  · simp only
    split_ifs
    · exact view_closeBridge apart closeErr
    · rfl

theorem view_registerVector {name : GoString} (apart : Apart (.vector, name) j) (cfg : StoreConfig) (bridgeURLs : Option Nat)
    (started : Except GoString GoString) (closeErr : Option GoString) :
    (m.registerVector isPrint name cfg bridgeURLs started closeErr).1.view j = m.view j := by
  unfold registerVector
  cases bridgeURLs with
  | none => exact view_mirror apart cfg _ _ closeErr
  | some urls =>
      by_cases own : cfg.type = lit "sqlite" ∧ m.mapped (some urls) cfg = []
      · cases started with
        | error err => simp only [if_pos own]
        | ok url =>
            simp only [if_pos own]
            split_ifs
            · rfl
            · refine (view_mirror apart cfg url _ closeErr).trans ?_
              exact view_start (m := m) apart cfg.path url
      · simp only [if_neg own]
        exact view_mirror apart cfg _ _ closeErr

theorem view_startBridges (closeErr : GoString → Option GoString) (storages : Storages) (names : List GoString)
    (bridgeURLs : GoString → GoString) (apart : ∀ name ∈ names ++ storages.map Prod.fst, StoreName.key j ≠ name) :
    (m.startBridges isPrint closeErr storages names bridgeURLs).1.view j = m.view j := by
  induction storages generalizing m names bridgeURLs with
  | nil => rfl
  | cons entry storages ih =>
      obtain ⟨name, cfg, answer⟩ := entry
      have own : StoreName.key j ≠ name := apart name (by simp)
      have later : ∀ other ∈ names ++ storages.map Prod.fst, StoreName.key j ≠ other := fun other listed =>
        apart other (List.mem_append.mpr ((List.mem_append.mp listed).imp_right (List.mem_cons_of_mem name)))
      rw [startBridges_cons]
      split_ifs
      · exact ih names bridgeURLs later
      · rfl
      · cases answer with
        | error err =>
            have old : StoreName.key j ∉ names := fun listed => apart _ (List.mem_append_left _ listed) rfl
            exact Prod.ext (congrFun (closeStarted_entries m names) j)
              ((running_closeStarted m names _).trans (if_neg fun both => old both.1))
        | ok url =>
            refine (ih (names ++ [name]) _ (by simpa using apart)).trans (Prod.ext rfl ?_)
            exact (congrFun (running_start name cfg.path url) _).trans (Function.update_of_ne own _ _)

theorem step_view {action : Action} (keyed : m.Keyed) (apart : ∀ i ∈ action.on m, Apart i j)
    (taken : step isPrint m action = some next) : next.view j = m.view j := by
  obtain ⟨-, performed⟩ := Option.ite_none_right_eq_some.mp taken
  cases action with
  | setRuntime attached =>
      cases performed
      rfl
  | closeRegistry =>
      cases performed
      rfl
  | add i cfg started closeErr =>
      cases performed
      exact view_add (apart i List.mem_cons_self) cfg started closeErr
  | remove i =>
      cases performed
      exact view_remove (apart i List.mem_cons_self)
  | finish key closeErr =>
      obtain ⟨⟨srv, i⟩, closing, rfl⟩ := Option.map_eq_some_iff.mp performed
      have named : i ∈ (Action.finish key closeErr).on m := by simp [Action.on, closing]
      obtain rfl := keyed key srv i closing
      exact view_finish (apart i named) srv closeErr
  | initBridges storages closeErr =>
      cases performed
      have away : ∀ name ∈ [] ++ storages.map Prod.fst, StoreName.key j ≠ name := by
        intro name listed
        obtain ⟨entry, member, rfl⟩ := List.mem_map.mp listed
        exact (apart (.storage, entry.1) (List.mem_map_of_mem member)).2.symm
      have kept : (m.startBridges isPrint closeErr storages [] fun _ => []).1.view j = m.view j :=
        view_startBridges closeErr storages [] (fun _ => []) away
      unfold initBridges
      split
      · next ran =>
          rw [ran] at kept
          exact kept
      · next ran =>
          rw [ran] at kept
          exact kept
  | registerStorage name cfg bridgeURLs closeErr =>
      obtain ⟨-, performed⟩ := Option.ite_none_right_eq_some.mp performed
      cases performed
      exact view_mirror (apart _ List.mem_cons_self) cfg _ _ closeErr
  | registerVector name cfg bridgeURLs started closeErr =>
      obtain ⟨-, performed⟩ := Option.ite_none_right_eq_some.mp performed
      cases performed
      exact view_registerVector (apart _ List.mem_cons_self) cfg bridgeURLs started closeErr

theorem closing_register {registration : Registration} {path : GoString}
    (accepted : m.register isPrint i registration path = .ok next) : next.closingBridges = m.closingBridges := by
  unfold register at accepted
  split_ifs at accepted
  cases accepted
  rfl

theorem closing_closeBridge (name : GoString) (closeErr : Option GoString) :
    (m.closeBridge isPrint name closeErr).1.closingBridges = m.closingBridges := by
  unfold closeBridge
  split_ifs
  · cases closeErr <;> rfl
  · rfl

theorem closing_mirror (i : StoreName) (cfg : StoreConfig) (bridgeURL : GoString) (close : Bool) (closeErr : Option GoString) :
    (m.mirror isPrint i cfg bridgeURL close closeErr).1.closingBridges = m.closingBridges := by
  unfold mirror
  split
  · next accepted => exact closing_register accepted
  · simp only
    split_ifs
    · exact closing_closeBridge _ closeErr
    · rfl

theorem closing_add (i : StoreName) (cfg : StoreConfig) (started : Except GoString GoString) (closeErr : Option GoString) :
    (m.add isPrint i.1 i.2 cfg started closeErr).1.closingBridges = m.closingBridges := by
  unfold add
  split_ifs
  · rfl
  · cases started with
    | error err => rfl
    | ok url =>
        simp only
        split
        · next accepted =>
            have kept := closing_register accepted
            exact kept
        · exact closing_closeBridge _ closeErr
  · split
    · next accepted => exact closing_register accepted
    · rfl

theorem closing_closeStarted (m : Manager) (closeErr : GoString → Option GoString) (names : List GoString) :
    (m.closeStarted isPrint closeErr names).1.closingBridges = m.closingBridges := by
  induction names generalizing m with
  | nil => rfl
  | cons name names ih => rw [closeStarted, ih, closing_closeBridge]

theorem closing_startBridges (closeErr : GoString → Option GoString) (storages : Storages) (names : List GoString)
    (bridgeURLs : GoString → GoString) :
    (m.startBridges isPrint closeErr storages names bridgeURLs).1.closingBridges = m.closingBridges := by
  induction storages generalizing m names bridgeURLs with
  | nil => rfl
  | cons entry storages ih =>
      obtain ⟨name, cfg, answer⟩ := entry
      rw [startBridges_cons]
      split_ifs
      · exact ih names bridgeURLs
      · rfl
      · cases answer with
        | error err => exact closing_closeStarted m closeErr names
        | ok url => exact ih (names ++ [name]) _

theorem closing_registerVector (name : GoString) (cfg : StoreConfig) (bridgeURLs : Option Nat)
    (started : Except GoString GoString) (closeErr : Option GoString) :
    (m.registerVector isPrint name cfg bridgeURLs started closeErr).1.closingBridges = m.closingBridges := by
  unfold registerVector
  cases bridgeURLs with
  | none => exact closing_mirror _ cfg _ _ closeErr
  | some urls =>
      by_cases own : cfg.type = lit "sqlite" ∧ m.mapped (some urls) cfg = []
      · cases started with
        | error err => simp only [if_pos own]
        | ok url =>
            simp only [if_pos own]
            split_ifs
            · rfl
            · exact closing_mirror _ cfg url _ closeErr
      · simp only [if_neg own]
        exact closing_mirror _ cfg _ _ closeErr

theorem step_closing {action : Action} (taken : step isPrint m action = some next) {key : GoString}
    {target : Bridge × StoreName} (closing : next.closingBridges.lookup key = some target) :
    m.closingBridges.lookup key = some target ∨ StoreName.key target.2 = key := by
  obtain ⟨-, performed⟩ := Option.ite_none_right_eq_some.mp taken
  cases action with
  | setRuntime attached =>
      cases performed
      exact .inl closing
  | closeRegistry =>
      cases performed
      exact .inl closing
  | add i cfg started closeErr =>
      cases performed
      rw [closing_add] at closing
      exact .inl closing
  | remove i =>
      cases performed
      unfold remove at closing
      simp only at closing
      split at closing
      · exact .inl closing
      · split_ifs at closing
        · exact .inl closing
        · by_cases own : key = StoreName.key i
          · subst own
            rw [StoreName.key, AList.lookup_insert] at closing
            cases closing
            exact .inr rfl
          · exact .inl ((AList.lookup_insert_ne own).symm.trans closing)
  | finish other closeErr =>
      obtain ⟨target', -, rfl⟩ := Option.map_eq_some_iff.mp performed
      have kept : target ∈ (m.closingBridges.erase other).lookup key := by
        unfold finishBridgeClose at closing
        cases closeErr with
        | some err => exact closing
        | none =>
            simp only at closing
            split_ifs at closing <;> exact closing
      exact .inl (Modules.lookup_erase_sub kept)
  | initBridges storages closeErr =>
      cases performed
      have kept : (m.startBridges isPrint closeErr storages [] fun _ => []).1.closingBridges = m.closingBridges :=
        closing_startBridges closeErr storages [] fun _ => []
      unfold initBridges at closing
      split at closing
      · next ran =>
          rw [ran] at kept
          exact .inl (kept ▸ closing)
      · next ran =>
          rw [ran] at kept
          exact .inl (kept ▸ closing)
  | registerStorage name cfg bridgeURLs closeErr =>
      obtain ⟨-, performed⟩ := Option.ite_none_right_eq_some.mp performed
      cases performed
      rw [registerStorage, closing_mirror] at closing
      exact .inl closing
  | registerVector name cfg bridgeURLs started closeErr =>
      obtain ⟨-, performed⟩ := Option.ite_none_right_eq_some.mp performed
      cases performed
      rw [closing_registerVector] at closing
      exact .inl closing

theorem reachable_keyed (reached : Reachable (step isPrint) new m) : m.Keyed := by
  have keeps (m : Manager) (action : Action) (next : Manager) (keyed : m.Keyed) (taken : step isPrint m action = some next) :
      next.Keyed := by
    intro key srv i closing
    rcases step_closing taken closing with old | own
    · exact keyed key srv i old
    · exact own
  have initial : new.Keyed := fun key srv i closing => nomatch closing
  exact reachable_invariant keeps initial reached

theorem running_added (runtime : m.jsRuntime = true) (accepts : ¬ m.Refuses i) (absent : StoreName.key i ∉ m.bridges)
    (path url : GoString) (closeErr : Option GoString) :
    (m.add isPrint i.1 i.2 (sqliteStore path) (.ok url) closeErr).1.running =
      update m.running (StoreName.key i) (some ⟨m.started, url, path⟩) := by
  have accepted : (m.start (StoreName.key i) path url).register isPrint i (i.1.toRegistration (sqliteStore path) url) path =
      .ok { m.start (StoreName.key i) path url with
        entries := update m.entries i (some ⟨i.1.toRegistration (sqliteStore path) url, path⟩) } :=
    register_accepted (m := m.start (StoreName.key i) path url) accepts _ path
  unfold StoreName.key at absent accepted ⊢
  unfold add
  rw [if_pos ⟨rfl, runtime⟩, if_neg absent]
  simp only [sqliteStore] at accepted ⊢
  rw [accepted]
  exact running_start (i.1.bridgeKey i.2) path url

theorem storage_bridge_interferes (isPrint : Nat → Bool) (v : GoString) : ∃ m, Reachable (step isPrint) new m ∧
    ∃ action m', step isPrint m action = some m' ∧ action.on m = [(.storage, lit "vec_" ++ v)] ∧
      m'.view (.vector, v) ≠ m.view (.vector, v) := by
  let m : Manager := { new with jsRuntime := true }
  let i : StoreName := (.storage, lit "vec_" ++ v)
  have accepts : ¬ m.Refuses i := by
    have named : lit "vec_" ≠ [] := by decide +kernel
    simp [Refuses, m, i, named, new]
  have url : lit "u" ≠ [] := by decide +kernel
  have free : m.Free [lit "u"] := by
    refine ⟨List.nodup_singleton _, fun other listed => ⟨?_, fun entry running => nomatch running⟩⟩
    simpa [List.mem_singleton.mp listed] using url
  refine ⟨m, ⟨[.setRuntime true], rfl⟩, .add i (sqliteStore []) (.ok (lit "u")) none, _, if_pos free, rfl, fun same => ?_⟩
  have up : (m.add isPrint i.1 i.2 (sqliteStore []) (.ok (lit "u")) none).1.running (lit "vec_" ++ v) = none :=
    congrArg Prod.snd same
  rw [running_added rfl accepts (AList.notMem_empty _), StoreName.key, StoreKind.bridgeKey, Function.update_self] at up
  cases up

-- The bridges of both kinds are in one table, under keys that a storage may have for its name.
theorem kinds_independent_iff (isPrint : Nat → Bool) (storages vectors : List GoString) :
    Independent isPrint storages vectors ↔ ∀ s ∈ storages, ∀ v ∈ vectors, s ≠ lit "vec_" ++ v := by
  constructor
  · rintro independent s named v listed rfl
    obtain ⟨m, reached, action, m', taken, only, differs⟩ := storage_bridge_interferes isPrint v
    refine differs ((independent m reached action m' taken).1 (fun i on => ⟨_, named, ?_⟩) v listed)
    rw [only] at on
    exact List.mem_singleton.mp on
  · intro apart m reached action m' taken
    have keyed := reachable_keyed reached
    constructor
    · intro on v listed
      refine step_view keyed (fun i named => ?_) taken
      obtain ⟨s, member, rfl⟩ := on i named
      exact ⟨by simp, apart s member v listed⟩
    · intro on s listed
      refine step_view keyed (fun i named => ?_) taken
      obtain ⟨v, member, rfl⟩ := on i named
      exact ⟨by simp, (apart s listed v member).symm⟩

end

def removal : List Action :=
  [.setRuntime true, .add (.vector, lit "x") (sqliteStore (lit "x.db")) (.ok (lit "http://127.0.0.1:4001")) none,
    .remove (.storage, lit "vec_x")]

def stopsVector (m : Manager) : Bool :=
  (m.running (lit "vec_x")).isSome && decide ((Action.finish (lit "vec_x") none).on m = [(.storage, lit "vec_x")]) &&
    (step (fun _ => true) m (.finish (lit "vec_x") none)).any fun m' => (m'.running (lit "vec_x")).isNone

theorem removed_storage_stops_vector : ¬ ∀ storages vectors, Independent (fun _ => true) storages vectors := by
  intro independent
  have ran : (run (step fun _ => true) new removal).map stopsVector = some true := by decide +kernel
  obtain ⟨m, reached, stops⟩ := reachable_checked removal stopsVector ran
  simp only [stopsVector, Bool.and_eq_true, decide_eq_true_eq, Option.any_eq_true] at stops
  obtain ⟨⟨up, on⟩, m', taken, down⟩ := stops
  have only (i : StoreName) (named : i ∈ (Action.finish (lit "vec_x") none).on m) : ∃ s ∈ [lit "vec_x"], i = (.storage, s) := by
    rw [on] at named
    exact ⟨lit "vec_x", List.mem_cons_self, List.mem_singleton.mp named⟩
  have kept := (independent [lit "vec_x"] [lit "x"] m reached _ m' taken).1 only (lit "x") List.mem_cons_self
  have key : StoreName.key (.vector, lit "x") = lit "vec_x" := by decide +kernel
  have same : m'.running (lit "vec_x") = m.running (lit "vec_x") := by simpa only [view, key] using congrArg Prod.snd kept
  rw [← same, Option.isNone_iff_eq_none.mp down] at up
  cases up

end Manager

end Brainkit.Storage
