import Brainkit.Runtime.DeployCleanup

set_option autoImplicit false

namespace Brainkit.Runtime.DeployCleanup

open Function (update update_self update_of_ne)
open GoText
open Transition (run Along)

-- What a source leaves is found by its entries: each thing that code has made has an entry of its source, and an entry
-- stands for a thing of its own source.
structure Owned (callerID : GoString) (m : Manager) : Prop where
  covers : ∀ t source, m.works t = true → m.owner t = some source → ∃ e ∈ m.entries, e.source = source ∧
    standsFor callerID e = some t
  owns : ∀ e ∈ m.entries, ∀ t, standsFor callerID e = some t → m.works t = true → m.owner t = some e.source
  typed : ∀ e ∈ m.entries, e.type ∈ entryTypes

structure Invariant (callerID : GoString) (m : Manager) : Prop extends Owned callerID m where
  named : ∀ source, (m.deployments source).isSome → trimSpace source ≠ []
  compartments : ∀ source, m.compartments source = true → (m.deployments source).isSome

structure Gone (source : GoString) (m : Manager) : Prop where
  entries : ∀ e ∈ m.entries, e.source ≠ source
  things : ∀ t, m.works t = true → m.owner t ≠ some source
  compartment : m.compartments source = false
  deployment : m.deployments source = none

structure SameElsewhere (source : GoString) (m next : Manager) : Prop where
  entries : ∀ e, e.source ≠ source → (e ∈ next.entries ↔ e ∈ m.entries)
  things : ∀ t owner, owner ≠ some source → (next.works t = true ∧ next.owner t = owner ↔
    m.works t = true ∧ m.owner t = owner)
  compartments : ∀ other, other ≠ source → next.compartments other = m.compartments other
  deployments : ∀ other, other ≠ source → next.deployments other = m.deployments other
  store : ∀ other, other ≠ source → next.store other = m.store other

def Cleaned (source : GoString) (m next : Manager) : Prop := Gone source next ∧ SameElsewhere source m next

def Move.Ok (callerID : GoString) (caller : Option GoString) (m : Manager) : Move → Prop
  | .makes t => caller = none ∧ (m.works t = true → m.owner t = none) ∧ ∀ e ∈ m.entries, standsFor callerID e ≠ some t
  | .provides e => caller = some e.source ∧ (∀ other ∈ m.entries, other.key = e.key → other.source = e.source) ∧
      ∀ t, standsFor callerID e = some t → (m.works t = true → m.owner t = caller) ∧
        ∀ other ∈ m.entries, standsFor callerID other = some t → other.source = e.source
  | .drops t => m.works t = true → m.owner t = caller

def RanOk (callerID source : GoString) : List Move → Manager → Prop
  | [], _ => True
  | move :: rest, m => move.Ok callerID (some source) m ∧ RanOk callerID source rest (m.act callerID (some source) move)

section

variable (resolve : (GoString → Bool) → GoString → Option GoString) (callerID : GoString)

def EntryOk (entry : Entry × Bool) (m : Manager) : Prop :=
  (∀ name, standsFor callerID entry.1 = some (.tool name) →
    resolve m.toolNames entry.1.id = if m.works (.tool name) then some name else none) ∧
  ∀ id, standsFor callerID entry.1 = some (.schedule id) → m.works (.schedule id) = true → entry.2 = true

def EntriesOk : List (Entry × Bool) → Manager → Prop
  | [], _ => True
  | entry :: rest, m => EntryOk resolve callerID entry m ∧ EntriesOk rest (m.dispatchCleanup resolve entry)

def Cleanup.Ok (source : GoString) (cleanup : Cleanup) (m : Manager) : Prop :=
  EntriesOk resolve callerID cleanup.removed (m.removeBySource source) ∧
    (m.compartments source = true → cleanup.dropped = true)

def PrepareOk (source : GoString) (replaced : Cleanup) (m : Manager) : Prop :=
  (m.deployments source).isSome → replaced.Ok resolve callerID source m

def EvaluationOk (source : GoString) (evaluation : Evaluation × Cleanup) (m : Manager) : Prop :=
  RanOk callerID source evaluation.1.ran
    { m with compartments := if evaluation.1.compartment then update m.compartments source true else m.compartments } ∧
  evaluation.2.Ok resolve callerID source (m.evaluate callerID source evaluation.1)

def Allowed (m : Manager) : Action → Prop
  | .deployFails source replaced evaluation =>
      (trimSpace source = [] ∨ evaluation = none → (m.deployments source).isSome ∨ ∀ e ∈ m.entries, e.source ≠ source) ∧
      PrepareOk resolve callerID source replaced m ∧
      ∀ prepared, m.validateAndPrepareDeploy resolve source replaced = some prepared →
        ∀ ran ∈ evaluation, EvaluationOk resolve callerID source ran prepared
  | .deploySucceeds source replaced evaluation _ _ =>
      PrepareOk resolve callerID source replaced m ∧
      ∀ prepared, m.validateAndPrepareDeploy resolve source replaced = some prepared →
        RanOk callerID source evaluation.ran
          { prepared with
            compartments := if evaluation.compartment then update prepared.compartments source true else prepared.compartments }
  | .teardown source cleanup => cleanup.Ok resolve callerID source m
  | .code caller move => move.Ok callerID caller m
  | .removeResource e unscheduled =>
      EntryOk resolve callerID (e, unscheduled) { m with entries := m.entries.filter (·.key ≠ e.key) }

end

section

variable {callerID source : GoString} {m next : Manager}

theorem cut_unique {sep : UInt8} {before other after rest : GoString} (plain : sep ∉ before) (otherPlain : sep ∉ other)
    (same : before ++ sep :: after = other ++ sep :: rest) : before = other ∧ after = rest := by
  induction before generalizing other with
  | nil => cases other with
    | nil => exact ⟨rfl, (List.cons.inj same).2⟩
    | cons first _ => exact (otherPlain ((List.cons.inj same).1 ▸ List.mem_cons_self)).elim
  | cons first tail ih => cases other with
    | nil => exact (plain ((List.cons.inj same).1 ▸ List.mem_cons_self)).elim
    | cons otherFirst otherTail =>
        obtain ⟨sameFirst, sameTail⟩ := List.cons.inj same
        obtain ⟨sameRest, sameAfter⟩ := ih (fun member => plain (List.mem_cons_of_mem _ member))
          (fun member => otherPlain (List.mem_cons_of_mem _ member)) sameTail
        exact ⟨by rw [sameFirst, sameRest], sameAfter⟩

theorem standsFor_key {e other : Entry} (typed : e.type ∈ entryTypes) (otherTyped : other.type ∈ entryTypes)
    (same : e.key = other.key) : standsFor callerID e = standsFor callerID other := by
  have plain : ∀ type ∈ entryTypes, (58 : UInt8) ∉ type := by decide +kernel
  have colon : lit ":" = [58] := by decide +kernel
  simp only [Entry.key, key, colon, List.append_assoc, List.singleton_append] at same
  obtain ⟨sameType, sameID⟩ := cut_unique (plain _ typed) (plain _ otherTyped) same
  simp only [standsFor, sameType, sameID]

theorem SameElsewhere.refl (source : GoString) (m : Manager) : SameElsewhere source m m :=
  ⟨fun _ _ => .rfl, fun _ _ _ => .rfl, fun _ _ => rfl, fun _ _ => rfl, fun _ _ => rfl⟩

theorem SameElsewhere.trans {middle : Manager} (first : SameElsewhere source m middle) (second : SameElsewhere source middle next) :
    SameElsewhere source m next where
  entries e other := (second.entries e other).trans (first.entries e other)
  things t owner other := (second.things t owner other).trans (first.things t owner other)
  compartments other different := (second.compartments other different).trans (first.compartments other different)
  deployments other different := (second.deployments other different).trans (first.deployments other different)
  store other different := (second.store other different).trans (first.store other different)

theorem Owned.of_same (owned : Owned callerID m) (entries : next.entries = m.entries) (works : next.works = m.works)
    (owner : next.owner = m.owner) : Owned callerID next := by
  refine ⟨?_, ?_, ?_⟩
  · rw [entries, works, owner]
    exact owned.covers
  · rw [entries, works, owner]
    exact owned.owns
  · rw [entries]
    exact owned.typed

-- The running code

theorem register_mem (e other : Entry) (m : Manager) :
    other ∈ (m.register e).entries ↔ other = e ∨ other ∈ m.entries ∧ other.key ≠ e.key := by
  simp only [Manager.register, List.mem_append, List.mem_filter, List.mem_singleton, decide_eq_true_eq]
  exact or_comm

theorem act_rest (callerID : GoString) (caller : Option GoString) (move : Move) (m : Manager) :
    (m.act callerID caller move).compartments = m.compartments ∧
    (m.act callerID caller move).deployments = m.deployments ∧ (m.act callerID caller move).store = m.store := by
  cases move with
  | makes t => exact ⟨rfl, rfl, rfl⟩
  | drops t => exact ⟨rfl, rfl, rfl⟩
  | provides e =>
      simp only [Manager.act]
      split <;> exact ⟨rfl, rfl, rfl⟩

theorem makes_owned {t : Thing} (owned : Owned callerID m) (fresh : m.works t = true → m.owner t = none)
    (free : ∀ e ∈ m.entries, standsFor callerID e ≠ some t) : Owned callerID (m.make none t) where
  covers other source works owner := by
    rcases eq_or_ne other t with rfl | different
    · simp [Manager.make] at owner
    · simp only [Manager.make, update_of_ne different] at works owner
      exact owned.covers other source works owner
  owns e member other stands works := by
    have different : other ≠ t := fun same => free e member (same ▸ stands)
    simp only [Manager.make, update_of_ne different] at works ⊢
    exact owned.owns e member other stands works
  typed := owned.typed

theorem drop_owned (owned : Owned callerID m) (t : Thing) : Owned callerID (m.drop t) where
  covers other source works owner := by
    rcases eq_or_ne other t with rfl | different
    · simp [Manager.drop] at works
    · simp only [Manager.drop, update_of_ne different] at works
      exact owned.covers other source works owner
  owns e member other stands works := by
    rcases eq_or_ne other t with rfl | different
    · simp [Manager.drop] at works
    · simp only [Manager.drop, update_of_ne different] at works
      exact owned.owns e member other stands works
  typed := owned.typed

section

variable (callerID) (caller : Option GoString) (e : Entry) (m)

theorem provides_entries (other : Entry) :
    other ∈ (m.act callerID caller (.provides e)).entries ↔ other = e ∨ other ∈ m.entries ∧ other.key ≠ e.key := by
  simp only [Manager.act]
  split <;> exact register_mem e other _

theorem provides_works (t : Thing) :
    (m.act callerID caller (.provides e)).works t = true ↔ standsFor callerID e = some t ∨ m.works t = true := by
  simp only [Manager.act]
  cases stands : standsFor callerID e with
  | none => simp [Manager.register]
  | some made =>
      rcases eq_or_ne t made with rfl | different
      · simp [Manager.register, Manager.make]
      · simp [Manager.register, Manager.make, update_of_ne different, different.symm]

theorem provides_owner (t : Thing) :
    (m.act callerID caller (.provides e)).owner t = if standsFor callerID e = some t then caller else m.owner t := by
  simp only [Manager.act]
  cases stands : standsFor callerID e with
  | none => simp [Manager.register]
  | some made =>
      rcases eq_or_ne t made with rfl | different
      · simp [Manager.register, Manager.make]
      · simp [Manager.register, Manager.make, update_of_ne different, different.symm]

end

theorem provides_owned {e : Entry} (owned : Owned callerID m) (typed : e.type ∈ entryTypes)
    (free : ∀ t, standsFor callerID e = some t → ∀ other ∈ m.entries, standsFor callerID other = some t →
      other.source = e.source) :
    Owned callerID (m.act callerID (some e.source) (.provides e)) where
  covers t source works owner := by
    rw [provides_owner] at owner
    by_cases stands : standsFor callerID e = some t
    · rw [if_pos stands, Option.some.injEq] at owner
      exact ⟨e, (provides_entries ..).mpr (.inl rfl), owner, stands⟩
    · rw [if_neg stands] at owner
      have worked := ((provides_works ..).mp works).resolve_left stands
      obtain ⟨other, member, ofSource, otherStands⟩ := owned.covers t source worked owner
      have different : other.key ≠ e.key := fun same =>
        stands (standsFor_key (owned.typed other member) typed same ▸ otherStands)
      exact ⟨other, (provides_entries ..).mpr (.inr ⟨member, different⟩), ofSource, otherStands⟩
  owns other member t stands works := by
    rw [provides_owner]
    by_cases provided : standsFor callerID e = some t
    · rw [if_pos provided]
      rcases (provides_entries ..).mp member with rfl | ⟨earlier, -⟩
      · rfl
      · rw [free t provided other earlier stands]
    · rw [if_neg provided]
      have worked := ((provides_works ..).mp works).resolve_left provided
      rcases (provides_entries ..).mp member with rfl | ⟨earlier, -⟩
      · exact (provided stands).elim
      · exact owned.owns other earlier t stands worked
  typed other member := by
    rcases (provides_entries ..).mp member with rfl | ⟨earlier, -⟩
    · exact typed
    · exact owned.typed other earlier

theorem act_owned {caller : Option GoString} {move : Move} (owned : Owned callerID m) (known : move.known = true)
    (ok : move.Ok callerID caller m) : Owned callerID (m.act callerID caller move) := by
  cases move with
  | makes t =>
      obtain ⟨rfl, fresh, free⟩ := ok
      exact makes_owned owned fresh free
  | drops t => exact drop_owned owned t
  | provides e =>
      obtain ⟨rfl, -, free⟩ := ok
      exact provides_owned owned (of_decide_eq_true known) fun t stands => (free t stands).2

theorem act_elsewhere {move : Move} (ok : move.Ok callerID (some source) m) :
    SameElsewhere source m (m.act callerID (some source) move) := by
  obtain ⟨compartments, deployments, store⟩ := act_rest callerID (some source) move m
  refine ⟨?_, ?_, fun other _ => by rw [compartments], fun other _ => by rw [deployments], fun other _ => by rw [store]⟩
  · intro e different
    cases move with
    | makes t => exact .rfl
    | drops t => exact .rfl
    | provides provided =>
        obtain ⟨caller, keys, -⟩ := ok
        rw [Option.some.injEq] at caller
        rw [provides_entries]
        constructor
        · rintro (rfl | ⟨member, -⟩)
          · exact (different caller.symm).elim
          · exact member
        · intro member
          exact .inr ⟨member, fun same => different ((keys e member same).trans caller.symm)⟩
  · intro t owner different
    cases move with
    | makes made => exact absurd ok.1 (by simp)
    | drops dropped =>
        simp only [Manager.act, Manager.drop]
        rcases eq_or_ne t dropped with rfl | other
        · rw [update_self]
          exact iff_of_false (by simp) fun ⟨works, owned⟩ => different (owned.symm.trans (ok works))
        · rw [update_of_ne other]
    | provides provided =>
        rw [provides_works, provides_owner]
        by_cases stands : standsFor callerID provided = some t
        · rw [if_pos stands]
          exact iff_of_false (fun both => different both.2.symm)
            fun ⟨works, owned⟩ => different (owned.symm.trans ((ok.2.2 t stands).1 works))
        · simp only [stands, if_false, false_or]

theorem ran_kept {ran : List Move} (owned : Owned callerID m) (known : ran.all Move.known = true) (ok : RanOk callerID source ran m) :
    Owned callerID (ran.foldl (Manager.act callerID (some source)) m) ∧
    SameElsewhere source m (ran.foldl (Manager.act callerID (some source)) m) := by
  induction ran generalizing m with
  | nil => exact ⟨owned, .refl source m⟩
  | cons move rest ih =>
      obtain ⟨moveKnown, restKnown⟩ := Bool.and_eq_true_iff.mp known
      obtain ⟨restOwned, same⟩ := ih (act_owned owned moveKnown ok.1) restKnown ok.2
      exact ⟨restOwned, (act_elsewhere ok.1).trans same⟩

theorem ran_rest (callerID source : GoString) (ran : List Move) (m : Manager) :
    (ran.foldl (Manager.act callerID (some source)) m).compartments = m.compartments ∧
    (ran.foldl (Manager.act callerID (some source)) m).deployments = m.deployments := by
  induction ran generalizing m with
  | nil => exact ⟨rfl, rfl⟩
  | cons move rest ih =>
      obtain ⟨compartments, deployments, -⟩ := act_rest callerID (some source) move m
      obtain ⟨restCompartments, restDeployments⟩ := ih (m.act callerID (some source) move)
      exact ⟨restCompartments.trans compartments, restDeployments.trans deployments⟩

-- The cleanups

variable {resolve : (GoString → Bool) → GoString → Option GoString}

theorem dispatchCleanup_rest (resolve : (GoString → Bool) → GoString → Option GoString) (entry : Entry × Bool) (m : Manager) :
    ∃ works, m.dispatchCleanup resolve entry = { m with works := works } := by
  unfold Manager.dispatchCleanup
  repeat' split
  all_goals exact ⟨_, rfl⟩

theorem drop_works (t other : Thing) (m : Manager) :
    (m.drop other).works t = true ↔ m.works t = true ∧ other ≠ t := by
  rcases eq_or_ne t other with rfl | different
  · simp [Manager.drop]
  · simp [Manager.drop, update_of_ne different, different.symm]

theorem unmade_works {t made : Thing} (gone : m.works made ≠ true) : m.works t = true ↔ m.works t = true ∧ made ≠ t :=
  ⟨fun works => ⟨works, fun same => gone (same ▸ works)⟩, fun both => both.1⟩

theorem dispatchCleanup_works {entry : Entry × Bool} (ok : EntryOk resolve callerID entry m) (t : Thing) :
    (m.dispatchCleanup resolve entry).works t = true ↔ m.works t = true ∧ standsFor callerID entry.1 ≠ some t := by
  obtain ⟨tools, schedules⟩ := ok
  unfold Manager.dispatchCleanup
  simp only [standsFor] at tools schedules ⊢
  split_ifs at tools schedules ⊢ with tool agent subscription schedule ended
  · have answer := tools _ rfl
    by_cases works : m.works (.tool (Resources.toolFullName callerID entry.1.id)) = true
    · rw [if_pos works] at answer
      simpa only [answer, ne_eq, Option.some.injEq] using drop_works t _ m
    · rw [if_neg works] at answer
      simpa only [answer, ne_eq, Option.some.injEq] using unmade_works works
  · simpa only [ne_eq, Option.some.injEq] using drop_works t _ m
  · simpa only [ne_eq, Option.some.injEq] using drop_works t _ m
  · simpa only [ne_eq, Option.some.injEq] using drop_works t _ m
  · have gone : m.works (.schedule entry.1.id) ≠ true := fun works => ended (schedules _ rfl works)
    simpa only [ne_eq, Option.some.injEq] using unmade_works gone
  · simp

theorem dispatchCleanups_rest (resolve : (GoString → Bool) → GoString → Option GoString) (removed : List (Entry × Bool))
    (m : Manager) : ∃ works, m.dispatchCleanups resolve removed = { m with works := works } := by
  induction removed generalizing m with
  | nil => exact ⟨m.works, rfl⟩
  | cons entry rest ih =>
      obtain ⟨works, first⟩ := dispatchCleanup_rest resolve entry m
      obtain ⟨after, later⟩ := ih { m with works := works }
      exact ⟨after, by rw [← later, ← first]; rfl⟩

theorem dispatchCleanups_works {removed : List (Entry × Bool)} (ok : EntriesOk resolve callerID removed m) (t : Thing) :
    (m.dispatchCleanups resolve removed).works t = true ↔
      m.works t = true ∧ ∀ entry ∈ removed, standsFor callerID entry.1 ≠ some t := by
  induction removed generalizing m with
  | nil => simp [Manager.dispatchCleanups]
  | cons entry rest ih =>
      have later := ih ok.2
      rw [dispatchCleanup_works ok.1, and_assoc] at later
      rw [List.forall_mem_cons]
      exact later

structure TornDown (source : GoString) (m next : Manager) : Prop where
  works : ∀ t, next.works t = true ↔ m.works t = true ∧ m.owner t ≠ some source
  entries : next.entries = m.entries.filter (·.source ≠ source)
  owner : next.owner = m.owner
  compartments : next.compartments = m.compartments
  deployments : next.deployments = m.deployments
  store : next.store = m.store

theorem teardownFile_torn {removed : List (Entry × Bool)} (owned : Owned callerID m)
    (ok : EntriesOk resolve callerID removed (m.removeBySource source)) (taken : m.teardownFile resolve source removed = some next) :
    TornDown source m next := by
  unfold Manager.teardownFile at taken
  split at taken
  case isFalse => exact nomatch taken
  case isTrue listed =>
    obtain rfl := Option.some.inj taken
    obtain ⟨works, rest⟩ := dispatchCleanups_rest resolve removed (m.removeBySource source)
    have ofSource : ∀ e, e ∈ removed.map Prod.fst ↔ e ∈ m.entries ∧ e.source = source := fun e => by
      rw [listed.mem_iff, List.mem_filter, decide_eq_true_eq]
    refine ⟨fun t => ?_, by rw [rest]; rfl, by rw [rest]; rfl, by rw [rest]; rfl, by rw [rest]; rfl, by rw [rest]; rfl⟩
    rw [dispatchCleanups_works ok]
    refine and_congr_right fun (works : m.works t = true) => ?_
    constructor
    · intro unmatched owner
      obtain ⟨e, member, sourced, stands⟩ := owned.covers t source works owner
      obtain ⟨entry, isRemoved, rfl⟩ := List.mem_map.mp ((ofSource e).mpr ⟨member, sourced⟩)
      exact unmatched entry isRemoved stands
    · intro foreign entry isRemoved stands
      obtain ⟨member, sourced⟩ := (ofSource entry.1).mp (List.mem_map_of_mem isRemoved)
      exact foreign (sourced ▸ owned.owns entry.1 member t stands works)

theorem TornDown.owned (torn : TornDown source m next) (owned : Owned callerID m) : Owned callerID next where
  covers t other works owner := by
    rw [torn.owner] at owner
    obtain ⟨worked, foreign⟩ := (torn.works t).mp works
    obtain ⟨e, member, ofSource, stands⟩ := owned.covers t other worked owner
    have kept : e.source ≠ source := fun same => foreign (owner.trans (congrArg some (ofSource.symm.trans same)))
    exact ⟨e, torn.entries ▸ List.mem_filter.mpr ⟨member, decide_eq_true kept⟩, ofSource, stands⟩
  owns e member t stands works := by
    rw [torn.entries] at member
    rw [torn.owner]
    exact owned.owns e (List.mem_filter.mp member).1 t stands ((torn.works t).mp works).1
  typed e member := by
    rw [torn.entries] at member
    exact owned.typed e (List.mem_filter.mp member).1

theorem TornDown.bare (torn : TornDown source m next) : ∀ e ∈ next.entries, e.source ≠ source := by
  intro e member
  rw [torn.entries, List.mem_filter] at member
  exact of_decide_eq_true member.2

theorem TornDown.disowned (torn : TornDown source m next) : ∀ t, next.works t = true → next.owner t ≠ some source := by
  intro t works
  rw [torn.owner]
  exact ((torn.works t).mp works).2

theorem TornDown.elsewhere (torn : TornDown source m next) : SameElsewhere source m next where
  entries e different := by simp [torn.entries, different]
  things t owner different := by
    rw [torn.works, torn.owner, and_assoc]
    refine and_congr_right fun _ => ⟨fun both => both.2, fun same => ⟨same ▸ different, same⟩⟩
  compartments other _ := by rw [torn.compartments]
  deployments other _ := by rw [torn.deployments]
  store other _ := by rw [torn.store]

theorem dropCompartment_elsewhere (source : GoString) (dropped : Bool) (m : Manager) :
    SameElsewhere source m (m.dropCompartment source dropped) where
  entries _ _ := .rfl
  things _ _ _ := .rfl
  compartments other different := by
    unfold Manager.dropCompartment
    split
    · exact update_of_ne different false m.compartments
    · rfl
  deployments _ _ := rfl
  store _ _ := rfl

theorem dropCompartment_gone {dropped : Bool} (ok : m.compartments source = true → dropped = true) :
    (m.dropCompartment source dropped).compartments source = false := by
  unfold Manager.dropCompartment
  cases dropped with
  | true => exact update_self source false m.compartments
  | false => exact Bool.eq_false_iff.mpr fun present => nomatch ok present

-- The deployments

theorem Invariant.of_cleaned (valid : Invariant callerID m) (owned : Owned callerID next) (cleaned : Cleaned source m next) :
    Invariant callerID next := by
  obtain ⟨gone, same⟩ := cleaned
  refine ⟨owned, fun other deployed => ?_, fun other present => ?_⟩
  · rcases eq_or_ne other source with rfl | different
    · simp [gone.deployment] at deployed
    · rw [same.deployments other different] at deployed
      exact valid.named other deployed
  · rcases eq_or_ne other source with rfl | different
    · simp [gone.compartment] at present
    · rw [same.compartments other different] at present
      rw [same.deployments other different]
      exact valid.compartments other present

theorem teardownLocked_cleaned {cleanup : Cleanup} (owned : Owned callerID m) (ok : cleanup.Ok resolve callerID source m)
    (taken : m.teardownLocked resolve source cleanup = some next) : Cleaned source m next ∧ Owned callerID next := by
  obtain ⟨torn, removed, rfl⟩ := Option.map_eq_some_iff.mp taken
  have left := teardownFile_torn owned ok.1 removed
  have dropped := dropCompartment_elsewhere source cleanup.dropped torn
  refine ⟨⟨⟨left.bare, left.disowned, ?_, update_self ..⟩, left.elsewhere.trans ?_⟩, (left.owned owned).of_same rfl rfl rfl⟩
  · exact dropCompartment_gone fun present => ok.2 (left.compartments ▸ present)
  · refine ⟨fun _ _ => .rfl, fun _ _ _ => .rfl, dropped.compartments, fun other different => update_of_ne different .., ?_⟩
    intro other different
    dsimp only
    split
    · exact update_of_ne different none torn.store
    · rfl

theorem undeployed_gone (valid : Invariant callerID m) (undeployed : m.deployments source = none)
    (bare : ∀ e ∈ m.entries, e.source ≠ source) : Gone source m where
  entries := bare
  things t works owner := by
    obtain ⟨e, member, ofSource, -⟩ := valid.covers t source works owner
    exact bare e member ofSource
  compartment := Bool.eq_false_iff.mpr fun present => by simpa [undeployed] using valid.compartments source present
  deployment := undeployed

theorem prepared_kept {replaced : Cleanup} (valid : Invariant callerID m) (ok : PrepareOk resolve callerID source replaced m)
    (taken : m.validateAndPrepareDeploy resolve source replaced = some next) :
    Invariant callerID next ∧ SameElsewhere source m next ∧ next.deployments source = none ∧
      ((m.deployments source).isSome ∨ (∀ e ∈ m.entries, e.source ≠ source) → Gone source next) := by
  unfold Manager.validateAndPrepareDeploy at taken
  split at taken
  case isTrue deployed =>
    obtain ⟨cleaned, owned⟩ := teardownLocked_cleaned valid.toOwned (ok deployed) taken
    exact ⟨valid.of_cleaned owned cleaned, cleaned.2, cleaned.1.deployment, fun _ => cleaned.1⟩
  case isFalse undeployed =>
    obtain rfl := Option.some.inj taken
    have none : m.deployments source = none := Option.not_isSome_iff_eq_none.mp undeployed
    exact ⟨valid, .refl source m, none, fun bare => undeployed_gone valid none (bare.resolve_left undeployed)⟩

theorem evaluate_kept {evaluation : Evaluation} (valid : Invariant callerID m) (known : evaluation.ran.all Move.known = true)
    (ok : RanOk callerID source evaluation.ran
      { m with compartments := if evaluation.compartment then update m.compartments source true else m.compartments }) :
    Owned callerID (m.evaluate callerID source evaluation) ∧ SameElsewhere source m (m.evaluate callerID source evaluation) := by
  let compartment : Manager :=
    { m with compartments := if evaluation.compartment then update m.compartments source true else m.compartments }
  have started : Owned callerID compartment := valid.toOwned.of_same rfl rfl rfl
  obtain ⟨owned, same⟩ := ran_kept started known ok
  have before : SameElsewhere source m compartment := by
    refine ⟨fun _ _ => .rfl, fun _ _ _ => .rfl, fun other different => ?_, fun _ _ => rfl, fun _ _ => rfl⟩
    unfold compartment
    split
    · exact update_of_ne different true m.compartments
    · rfl
  exact ⟨owned, before.trans same⟩

theorem evaluationFailed {evaluation : Evaluation × Cleanup} (valid : Invariant callerID m)
    (undeployed : m.deployments source = none) (known : evaluation.1.ran.all Move.known = true)
    (ok : EvaluationOk resolve callerID source evaluation m)
    (taken : m.evaluationFails resolve callerID source (some evaluation) = some next) :
    Cleaned source m next ∧ Owned callerID next := by
  obtain ⟨torn, removed, rfl⟩ := Option.map_eq_some_iff.mp taken
  obtain ⟨owned, same⟩ := evaluate_kept valid known ok.1
  have left := teardownFile_torn owned ok.2.1 removed
  have deployment : torn.deployments source = none := by
    rw [left.deployments]
    exact (congrFun (ran_rest callerID source evaluation.1.ran _).2 source).trans undeployed
  refine ⟨⟨⟨left.bare, left.disowned, ?_, deployment⟩,
    (same.trans left.elsewhere).trans (dropCompartment_elsewhere source evaluation.2.dropped torn)⟩,
    (left.owned owned).of_same rfl rfl rfl⟩
  · exact dropCompartment_gone fun present => ok.2.2 (left.compartments ▸ present)

theorem deployFails_cleaned {replaced : Cleanup} {evaluation : Option (Evaluation × Cleanup)} (valid : Invariant callerID m)
    (known : (Action.deployFails source replaced evaluation).moves.all Move.known = true)
    (ok : Allowed resolve callerID m (.deployFails source replaced evaluation))
    (taken : m.deployFails resolve callerID source replaced evaluation = some next) :
    Cleaned source m next ∧ Owned callerID next := by
  obtain ⟨bare, prepareOk, evaluationOk⟩ := ok
  unfold Manager.deployFails at taken
  split at taken
  case isTrue blank =>
    obtain rfl := Option.some.inj taken
    have undeployed : ¬ (m.deployments source).isSome := fun deployed => valid.named source deployed blank
    have gone := undeployed_gone valid (Option.not_isSome_iff_eq_none.mp undeployed) ((bare (.inl blank)).resolve_left undeployed)
    exact ⟨⟨gone, .refl source m⟩, valid.toOwned⟩
  case isFalse =>
    obtain ⟨prepared, preparing, failing⟩ := Option.bind_eq_some_iff.mp taken
    obtain ⟨preparedValid, same, undeployed, gone⟩ := prepared_kept valid prepareOk preparing
    cases evaluation with
    | none =>
        obtain rfl := Option.some.inj failing
        exact ⟨⟨gone (bare (.inr rfl)), same⟩, preparedValid.toOwned⟩
    | some evaluation =>
        obtain ⟨cleaned, owned⟩ := evaluationFailed preparedValid undeployed known
          (evaluationOk prepared preparing evaluation rfl) failing
        exact ⟨⟨cleaned.1, same.trans cleaned.2⟩, owned⟩

theorem deploySucceeds_valid {replaced : Cleanup} {evaluation : Evaluation} {order : Nat} {saved : Bool}
    (valid : Invariant callerID m) (known : evaluation.ran.all Move.known = true)
    (ok : Allowed resolve callerID m (.deploySucceeds source replaced evaluation order saved))
    (taken : m.deploySucceeds resolve callerID source replaced evaluation order saved = some next) :
    Invariant callerID next := by
  obtain ⟨prepareOk, ranOk⟩ := ok
  unfold Manager.deploySucceeds at taken
  split at taken
  case isTrue => exact nomatch taken
  case isFalse named =>
    obtain ⟨prepared, preparing, rfl⟩ := Option.map_eq_some_iff.mp taken
    obtain ⟨preparedValid, -⟩ := prepared_kept valid prepareOk preparing
    obtain ⟨owned, same⟩ := evaluate_kept preparedValid known (ranOk prepared preparing)
    refine ⟨owned.of_same rfl rfl rfl, fun other deployed => ?_, fun other present => ?_⟩
    · rcases eq_or_ne other source with rfl | different
      · exact named
      · dsimp only at deployed
        rw [update_of_ne different, same.deployments other different] at deployed
        exact preparedValid.named other deployed
    · dsimp only
      rcases eq_or_ne other source with rfl | different
      · rw [update_self]
        rfl
      · rw [update_of_ne different, same.deployments other different]
        exact preparedValid.compartments other ((same.compartments other different).symm.trans present)

theorem removeResource_valid {e : Entry} {unscheduled : Bool} (valid : Invariant callerID m) (typed : e.type ∈ entryTypes)
    (ok : EntryOk resolve callerID (e, unscheduled) { m with entries := m.entries.filter (·.key ≠ e.key) }) :
    Invariant callerID (m.removeResource resolve e unscheduled) := by
  have worked := dispatchCleanup_works ok
  obtain ⟨works, rest⟩ := dispatchCleanup_rest resolve (e, unscheduled) { m with entries := m.entries.filter (·.key ≠ e.key) }
  rw [rest] at worked
  unfold Manager.removeResource
  rw [rest]
  refine ⟨⟨fun t source works owner => ?_, fun other member t stands works => ?_, fun other member => ?_⟩,
    valid.named, valid.compartments⟩
  · obtain ⟨before, kept⟩ := (worked t).mp works
    obtain ⟨other, member, ofSource, stands⟩ := valid.covers t source before owner
    have different : other.key ≠ e.key := fun same => kept ((standsFor_key (valid.typed other member) typed same).symm.trans stands)
    exact ⟨other, List.mem_filter.mpr ⟨member, decide_eq_true different⟩, ofSource, stands⟩
  · exact valid.owns other (List.mem_filter.mp member).1 t stands ((worked t).mp works).1
  · exact valid.typed other (List.mem_filter.mp member).1

theorem step_valid {action : Action} (valid : Invariant callerID m) (ok : Allowed resolve callerID m action)
    (taken : step resolve callerID m action = some next) : Invariant callerID next := by
  unfold step at taken
  split at taken
  case isFalse => exact nomatch taken
  case isTrue known =>
    cases action with
    | deployFails source replaced evaluation =>
        obtain ⟨cleaned, owned⟩ := deployFails_cleaned valid known ok taken
        exact valid.of_cleaned owned cleaned
    | deploySucceeds source replaced evaluation order saved => exact deploySucceeds_valid valid known ok taken
    | teardown source cleanup =>
        obtain ⟨cleaned, owned⟩ := teardownLocked_cleaned valid.toOwned ok taken
        exact valid.of_cleaned owned cleaned
    | code caller move =>
        obtain rfl := Option.some.inj taken
        have moveKnown : move.known = true := List.all_eq_true.mp known move List.mem_cons_self
        obtain ⟨compartments, deployments, -⟩ := act_rest callerID caller move m
        refine ⟨act_owned valid.toOwned moveKnown ok, ?_, ?_⟩
        · rw [deployments]
          exact valid.named
        · rw [deployments, compartments]
          exact valid.compartments
    | removeResource e unscheduled =>
        dsimp only at taken
        split at taken
        case isFalse => exact nomatch taken
        case isTrue member =>
          obtain rfl := Option.some.inj taken
          exact removeResource_valid valid (valid.typed e member) ok

theorem empty_valid : Invariant callerID empty :=
  ⟨⟨by simp [empty], by simp [empty], by simp [empty]⟩, by simp [empty], by simp [empty]⟩

theorem run_valid {path : List Action} (allowed : Along (step resolve callerID) (Allowed resolve callerID) empty path)
    (reached : run (step resolve callerID) empty path = some m) : Invariant callerID m :=
  Transition.along_invariant (fun _ _ _ valid ok taken => step_valid valid ok taken) empty_valid allowed reached

end

theorem source_cleaned (resolve : (GoString → Bool) → GoString → Option GoString) (callerID : GoString) {path : List Action}
    {m : Manager} (allowed : Along (step resolve callerID) (Allowed resolve callerID) empty path)
    (reached : run (step resolve callerID) empty path = some m) :
    (∀ source replaced evaluation next, Allowed resolve callerID m (.deployFails source replaced evaluation) →
      step resolve callerID m (.deployFails source replaced evaluation) = some next → Cleaned source m next) ∧
    (∀ source cleanup next, Allowed resolve callerID m (.teardown source cleanup) →
      step resolve callerID m (.teardown source cleanup) = some next → Cleaned source m next) := by
  have valid := run_valid allowed reached
  constructor
  · intro source replaced evaluation next ok taken
    unfold step at taken
    split at taken
    case isTrue known => exact (deployFails_cleaned valid known ok taken).1
    case isFalse => exact nomatch taken
  · intro source cleanup next ok taken
    exact (teardownLocked_cleaned valid.toOwned ok taken).1

def sampleAgent : Entry := ⟨lit "agent", lit "b", lit "b", lit "b.ts"⟩

def sampleSubscription : Entry := ⟨lit "subscription", lit "1", lit "1", lit "a.ts"⟩

def sampleDeploy : Action :=
  .deploySucceeds (lit "b.ts") ⟨[], true, true⟩ ⟨true, [.provides sampleAgent]⟩ 1 true

def sampleFailure : Action :=
  .deployFails (lit "a.ts") ⟨[], true, true⟩
    (some (⟨true, [.provides sampleSubscription]⟩, ⟨[(sampleSubscription, true)], true, true⟩))

def sampleRunning : Manager where
  entries := [sampleAgent]
  works := update (fun _ => false) (.agent (lit "b")) true
  owner := update (fun _ => none) (.agent (lit "b")) (some (lit "b.ts"))
  compartments := update (fun _ => false) (lit "b.ts") true
  deployments := update (fun _ => none) (lit "b.ts") (some 1)
  store := update (fun _ => none) (lit "b.ts") (some 1)

theorem sample_cleaned : ∃ next, run (step (fun _ _ => none) (lit "brainkit")) empty [sampleDeploy] = some sampleRunning ∧
    step (fun _ _ => none) (lit "brainkit") sampleRunning sampleFailure = some next ∧ Cleaned (lit "a.ts") sampleRunning next := by
  have named : trimSpace (lit "b.ts") ≠ [] := by decide +kernel
  have failingNamed : trimSpace (lit "a.ts") ≠ [] := by decide +kernel
  have agent : standsFor (lit "brainkit") sampleAgent = some (.agent (lit "b")) := by decide +kernel
  have subscription : standsFor (lit "brainkit") sampleSubscription = some (.subscription (lit "1")) := by decide +kernel
  have agentKnown : sampleAgent.type ∈ entryTypes := by decide +kernel
  have subscriptionKnown : sampleSubscription.type ∈ entryTypes := by decide +kernel
  have other : lit "a.ts" ≠ lit "b.ts" := by decide +kernel
  have keys : sampleAgent.key ≠ sampleSubscription.key := by decide +kernel
  have deployed : step (fun _ _ => none) (lit "brainkit") empty sampleDeploy = some sampleRunning := by
    simp [step, sampleDeploy, Action.moves, Move.known, agentKnown, Manager.deploySucceeds, named,
      Manager.validateAndPrepareDeploy, empty, Manager.evaluate, Manager.act, agent, Manager.make, Manager.register, sampleRunning]
  have reached : run (step (fun _ _ => none) (lit "brainkit")) empty [sampleDeploy] = some sampleRunning := by
    rw [Transition.run_cons, deployed]
    rfl
  have allowedFirst : Allowed (fun _ _ => none) (lit "brainkit") empty sampleDeploy := by
    simp [Allowed, sampleDeploy, PrepareOk, empty, Manager.validateAndPrepareDeploy, RanOk, Move.Ok, sampleAgent]
  have allowed : Along (step (fun _ _ => none) (lit "brainkit")) (Allowed (fun _ _ => none) (lit "brainkit")) empty [sampleDeploy] :=
    ⟨allowedFirst, fun _ _ => trivial⟩
  have allowedFailure : Allowed (fun _ _ => none) (lit "brainkit") sampleRunning sampleFailure := by
    simp [Allowed, sampleFailure, sampleRunning, PrepareOk, Manager.validateAndPrepareDeploy, other, EvaluationOk, RanOk,
      Move.Ok, subscription, Cleanup.Ok, EntriesOk, EntryOk]
    exact ⟨fun blank => (failingNamed blank).elim, rfl, fun same => (keys same).elim, by simp [agent]⟩
  obtain ⟨next, failed⟩ : ∃ next, step (fun _ _ => none) (lit "brainkit") sampleRunning sampleFailure = some next := by
    simp [step, sampleFailure, Action.moves, Move.known, subscriptionKnown, Manager.deployFails, failingNamed,
      Manager.validateAndPrepareDeploy, sampleRunning, other, Manager.evaluationFails, Manager.teardownFile, Manager.evaluate,
      Manager.act, subscription, Manager.make, Manager.register, keys]
    decide +kernel
  exact ⟨next, reached, failed, (source_cleaned _ _ allowed reached).1 _ _ _ next allowedFailure failed⟩

-- The evaluation fails after the deadline of the context, which the evaluation that drops the compartment has too.
theorem source_left : ∃ next, step (fun _ _ => none) (lit "brainkit") empty
      (.deployFails (lit "a.ts") ⟨[], true, true⟩ (some (⟨true, []⟩, ⟨[], false, true⟩))) = some next ∧
    next.compartments (lit "a.ts") = true ∧ ¬ Cleaned (lit "a.ts") empty next := by
  have named : trimSpace (lit "a.ts") ≠ [] := by decide +kernel
  obtain ⟨next, failed, left⟩ : ∃ next, step (fun _ _ => none) (lit "brainkit") empty
      (.deployFails (lit "a.ts") ⟨[], true, true⟩ (some (⟨true, []⟩, ⟨[], false, true⟩))) = some next ∧
      next.compartments (lit "a.ts") = true := by
    simp [step, Action.moves, Manager.deployFails, named, Manager.validateAndPrepareDeploy, empty, Manager.evaluationFails,
      Manager.evaluate, Manager.teardownFile, Manager.dropCompartment, Manager.dispatchCleanups, Manager.removeBySource]
  exact ⟨next, failed, left, fun cleaned => by simp [cleaned.1.compartment] at left⟩

end Brainkit.Runtime.DeployCleanup
