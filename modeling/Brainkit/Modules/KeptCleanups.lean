import Brainkit.Modules.Cleanups
import Brainkit.Modules.KitScopes

set_option autoImplicit false

namespace Brainkit.Modules.Scopes

open Function (update)
open GoText Forest Transition

def Kept (s : Scopes) (recorded : Nat → Prop) : Prop :=
  ∀ i < s.created, s.due i ≠ [] → ∃ t, recorded t ∧ Under s.registered t i

def Live (s : Scopes) (g : Registration) : Prop := g.gone = false ∧ ∀ k, g.cleanup = some k → s.succeeded k = false

def Owned (s : Scopes) (recorded : Nat → Prop) (registrations : List Registration) : Prop :=
  ∀ g ∈ registrations, s.Live g → ∃ t, recorded t ∧ Under s.registered t g.scope

def Tied (s : Scopes) (registrations : List Registration) (t : Nat) : Prop :=
  ∀ g ∈ registrations, g.gone = false → Under s.registered t g.scope → g.cleanup ≠ none

structure Rooted (s : Scopes) (recorded : Nat → Prop) (registrations : List Registration) : Prop where
  roots : ∀ t, recorded t → t < s.created ∧ ∀ j, .close t ∉ s.registered j
  known : ∀ g ∈ registrations, ∀ k, g.cleanup = some k → .fn k ∈ s.registered g.scope

variable {s next : Scopes} {recorded : Nat → Prop} {registrations : List Registration}

theorem root_unique (formed : Formed s) (rooted : Rooted s recorded registrations) {t u i : Nat} (one : recorded t)
    (other : recorded u) (first : Under s.registered t i) (second : Under s.registered u i) : t = u := by
  cases formed.grown.comparable first second with
  | inl nested => exact under_root (rooted.roots u other).2 nested
  | inr nested => exact (under_root (rooted.roots t one).2 nested).symm

theorem dropped_iff {dropped : Nat → Prop} (formed : Formed s) (rooted : Rooted s recorded registrations)
    (within : ∀ t, dropped t → recorded t) (kept : s.Kept recorded) (owned : s.Owned recorded registrations) :
    (s.Kept (fun t => recorded t ∧ ¬ dropped t) ∧ s.Owned (fun t => recorded t ∧ ¬ dropped t) registrations) ↔
      ∀ t, dropped t → s.due t = [] ∧ s.Tied registrations t := by
  constructor
  · rintro ⟨kept, owned⟩ t gone
    have here := within t gone
    constructor
    · by_contra due
      obtain ⟨u, ⟨recorded, still⟩, under⟩ := kept t (rooted.roots t here).1 due
      exact still (under_root (rooted.roots t here).2 under ▸ gone)
    · intro g member held under loose
      obtain ⟨u, ⟨recorded, still⟩, also⟩ := owned g member ⟨held, fun k same => by rw [loose] at same; cases same⟩
      exact still (root_unique formed rooted here recorded under also ▸ gone)
  · intro spent
    constructor
    · intro i start due
      obtain ⟨t, here, under⟩ := kept i start due
      refine ⟨t, ⟨here, fun gone => due ?_⟩, under⟩
      refine List.eq_nil_iff_forall_not_mem.mpr fun k member => ?_
      have above := due_of_under formed (rooted.roots t here).1 under member
      rw [(spent t gone).1] at above
      cases above
    · intro g member live
      obtain ⟨t, here, under⟩ := owned g member live
      refine ⟨t, ⟨here, fun gone => ?_⟩, under⟩
      cases accepted : g.cleanup with
      | none => exact (spent t gone).2 g member live.1 under accepted
      | some k =>
          have above := (mem_due formed (rooted.roots t here).1 k).mpr
            ⟨live.2 k accepted, g.scope, under, rooted.known g member k accepted⟩
          rw [(spent t gone).1] at above
          cases above

theorem Kept.mono {also : Nat → Prop} (more : ∀ t, recorded t → also t) (kept : s.Kept recorded) : s.Kept also :=
  fun i start due => (kept i start due).imp fun t here => here.imp_left (more t)

theorem Owned.mono {also : Nat → Prop} (more : ∀ t, recorded t → also t) (owned : s.Owned recorded registrations) :
    s.Owned also registrations :=
  fun g member live => (owned g member live).imp fun t here => here.imp_left (more t)

theorem live_closed {outcome : Nat → Option GoString} {inside : Nat → Prop} {attempts : List Nat}
    (effect : Effect outcome s next inside attempts) {g : Registration} (live : next.Live g) : s.Live g := by
  refine ⟨live.1, fun k accepted => Bool.eq_false_iff.mpr fun done => ?_⟩
  exact Bool.eq_false_iff.mp (live.2 k accepted) ((effect.succeeded_iff k).mpr (.inl done))

theorem closed_kept {outcome : Nat → Option GoString} {inside : Nat → Prop} {attempts : List Nat} (formed : Formed s)
    (after : Formed next) (effect : Effect outcome s next inside attempts) (kept : s.Kept recorded) : next.Kept recorded := by
  intro i start due
  rw [effect.created] at start
  rw [effect.registered]
  refine kept i start fun empty => due (List.eq_nil_iff_forall_not_mem.mpr fun k member => ?_)
  have before := effect.due_fewer formed after start member
  rw [empty] at before
  cases before

theorem closed_owned {outcome : Nat → Option GoString} {inside : Nat → Prop} {attempts : List Nat}
    (effect : Effect outcome s next inside attempts) (owned : s.Owned recorded registrations) :
    next.Owned recorded registrations := by
  intro g member live
  rw [effect.registered]
  exact owned g member (live_closed effect live)

theorem closed_rooted {outcome : Nat → Option GoString} {inside : Nat → Prop} {attempts : List Nat}
    (effect : Effect outcome s next inside attempts) (rooted : Rooted s recorded registrations) :
    Rooted next recorded registrations := by
  constructor
  · rw [effect.registered, effect.created]
    exact rooted.roots
  · rw [effect.registered]
    exact rooted.known

structure Grows (s next : Scopes) (added : Nat → Nat → Prop) : Prop where
  created : s.created ≤ next.created
  ran : next.ran = s.ran
  listed : ∀ j x, x ∈ s.registered j → x ∈ next.registered j
  children : ∀ j c, .close c ∈ next.registered j → .close c ∈ s.registered j ∨ c = s.created
  bare : ∀ x, x ∉ next.registered s.created
  functions : ∀ j k, .fn k ∈ next.registered j → .fn k ∈ s.registered j ∨ added j k
  shut : ∀ j, (s.scope j).closed = true → j < s.created → next.registered j = s.registered j
  closed : ∀ j, (s.scope j).closed = true → j < s.created → (next.scope j).closed = true

namespace Grows

variable {added : Nat → Nat → Prop}

theorem succeeded (grows : Grows s next added) (k : Nat) : next.succeeded k = s.succeeded k := by
  rw [Scopes.succeeded, Scopes.succeeded, grows.ran]

theorem live (grows : Grows s next added) {g : Registration} (live : next.Live g) : s.Live g :=
  ⟨live.1, fun k accepted => (grows.succeeded k).symm.trans (live.2 k accepted)⟩

theorem under (grows : Grows s next added) {i j : Nat} (under : Under s.registered i j) : Under next.registered i j :=
  under_mono (fun m c member => grows.listed m (.close c) member) under

theorem under_old (grows : Grows s next added) {i j : Nat} (under : Under next.registered i j) :
    Under s.registered i j ∨ j = s.created :=
  under_fresh grows.children (fun c => grows.bare (.close c)) under

theorem rooted (grows : Grows s next added) (rooted : Rooted s recorded registrations) :
    Rooted next recorded registrations := by
  refine ⟨fun t here => ?_, fun g member k accepted => grows.listed _ _ (rooted.known g member k accepted)⟩
  obtain ⟨start, root⟩ := rooted.roots t here
  refine ⟨Nat.lt_of_lt_of_le start grows.created, fun j member => ?_⟩
  cases grows.children j t member with
  | inl before => exact root j before
  | inr same => exact Nat.ne_of_lt start same

theorem owned (grows : Grows s next added) (owned : s.Owned recorded registrations) : next.Owned recorded registrations := by
  intro g member live
  obtain ⟨t, here, under⟩ := owned g member (grows.live live)
  exact ⟨t, here, grows.under under⟩

theorem spent (grows : Grows s next added) (formed : Formed s) {c : Nat} (start : c < s.created)
    (spent : s.Spent (.close c)) : next.Spent (.close c) :=
  spent_scope_apart next formed grows.created grows.ran start grows.shut grows.closed spent

theorem due (grows : Grows s next added) (formed : Formed s) (after : Formed next) {i k : Nat} (start : i < next.created)
    (member : k ∈ next.due i) :
    (i < s.created ∧ k ∈ s.due i) ∨ ∃ j, added j k ∧ Under next.registered i j := by
  obtain ⟨pending, j, under, leaf⟩ := (mem_due after start k).mp member
  cases grows.functions j k leaf with
  | inr new => exact .inr ⟨j, new, under⟩
  | inl before =>
      have place : j < s.created := by
        by_contra beyond
        rw [formed.blank j (Nat.le_of_not_lt beyond)] at before
        cases before
      have same := (grows.under_old under).resolve_right (Nat.ne_of_lt place)
      have within : i < s.created := Nat.lt_of_le_of_lt (formed.grown.le_of_under same) place
      exact .inl ⟨within, (mem_due formed within k).mpr ⟨(grows.succeeded k).symm.trans pending, j, same, before⟩⟩

theorem kept (grows : Grows s next fun _ _ => False) (formed : Formed s) (after : Formed next) (kept : s.Kept recorded) :
    next.Kept recorded := by
  intro i start due
  obtain ⟨k, member⟩ := List.exists_mem_of_ne_nil _ due
  obtain ⟨within, before⟩ := (grows.due formed after start member).resolve_right fun new => new.choose_spec.1
  obtain ⟨t, here, under⟩ := kept i within (List.ne_nil_of_mem before)
  exact ⟨t, here, grows.under under⟩

end Grows

theorem grows_new_scope (formed : Formed s) (id : GoString) : Grows s (s.newScope id) fun _ _ => False where
  created := Nat.le_succ _
  ran := rfl
  listed _ _ member := member
  children _ _ member := .inl member
  bare x member := by
    change x ∈ s.registered s.created at member
    rw [formed.blank s.created (Nat.le_refl _)] at member
    cases member
  functions _ _ member := .inl member
  shut _ _ _ := rfl
  closed j shut start := by
    have same : (s.newScope id).scope j = s.scope j := Function.update_of_ne (Nat.ne_of_lt start) _ s.scope
    rw [same]
    exact shut

theorem grows_append {made : Scopes} {i : Nat} {x : Cleanup} (formed : Formed s) (start : i < s.created)
    (opened : (s.scope i).closed = false) (deferred : Nat) (created : s.created ≤ made.created) (ran : made.ran = s.ran)
    (registered : made.registered = s.registered) (old : ∀ j < s.created, made.scope j = s.scope j)
    (child : ∀ c, x = .close c → c = s.created) :
    Grows s { made.append i x with deferred := deferred } fun j k => j = i ∧ x = .fn k := by
  have own : (made.append i x).registered i = s.registered i ++ [x] := by simp [append, registered]
  have other {j : Nat} (different : j ≠ i) : (made.append i x).registered j = s.registered j := by
    simp [append, different, registered]
  have place {j : Nat} {y : Cleanup} (member : y ∈ (made.append i x).registered j) : y ∈ s.registered j ∨ j = i ∧ y = x := by
    by_cases here : j = i
    · rw [here, own] at member
      exact (List.mem_append.mp member).imp (fun before => here ▸ before) fun new => ⟨here, List.mem_singleton.mp new⟩
    · exact .inl (other here ▸ member)
  have apart {j : Nat} (shut : (s.scope j).closed = true) : j ≠ i := by
    rintro rfl
    rw [opened] at shut
    cases shut
  refine ⟨created, ran, fun j y member => ?_, fun j c member => ?_, fun y member => ?_, fun j k member => ?_,
    fun j shut _ => other (apart shut), fun j shut within => ?_⟩
  · change y ∈ (made.append i x).registered j
    by_cases here : j = i
    · rw [here, own]
      exact List.mem_append_left _ (here ▸ member)
    · rw [other here]
      exact member
  · exact (place member).imp_right fun new => child c new.2.symm
  · cases place member with
    | inl before =>
        rw [formed.blank s.created (Nat.le_refl _)] at before
        cases before
    | inr new => exact Nat.ne_of_gt start new.1
  · exact (place member).imp_right fun new => ⟨new.1, new.2.symm⟩
  · change ((made.append i x).scope j).closed = true
    have same : (made.append i x).scope j = s.scope j := by simp [append, setScope, apart shut, old j within]
    rw [same]
    exact shut

theorem grows_child (formed : Formed s) {i : Nat} (start : i < s.created) (id : GoString) :
    Grows s (s.child i id) fun _ _ => False := by
  unfold child
  dsimp only
  generalize (if (s.scope i).id ≠ [] ∧ id ≠ [] then (s.scope i).id ++ lit "/" ++ id else id) = childID
  have old : ∀ j < s.created, (s.newScope childID).scope j = s.scope j := fun j within =>
    Function.update_of_ne (Nat.ne_of_lt within) _ s.scope
  split
  case isTrue => exact grows_new_scope formed childID
  case isFalse accepted =>
    have grows : Grows s ((s.newScope childID).append i (.close s.created)) _ :=
      grows_append formed start (Bool.eq_false_iff.mpr accepted) s.deferred (Nat.le_succ _) rfl rfl old
        fun c same => (Item.node.inj same).symm
    exact { grows with functions := fun j k member => (grows.functions j k member).imp_right fun new => nomatch new.2 }

theorem grows_defer (formed : Formed s) {i : Nat} (start : i < s.created) (opened : (s.scope i).closed = false) :
    Grows s (s.defer i false) fun j k => j = i ∧ k = s.deferred := by
  have accepts : s.defer i false = { s.append i (.fn s.deferred) with deferred := s.deferred + 1 } := by simp [defer, opened]
  have grows := grows_append formed start opened (s.deferred + 1) (Nat.le_refl _) rfl rfl (fun _ _ => rfl)
    (x := Cleanup.fn s.deferred) nofun
  rw [accepts]
  exact { grows with
    functions := fun j k member => (grows.functions j k member).imp_right fun new => ⟨new.1, (Item.leaf.inj new.2).symm⟩ }

theorem defer_refused {i : Nat} {isNil : Bool} (refused : isNil = true ∨ (s.scope i).closed = true) : s.defer i isNil = s := by
  rw [defer, if_pos (Bool.or_eq_true_iff.mpr refused)]

theorem defer_listed {i : Nat} (opened : (s.scope i).closed = false) :
    .fn s.deferred ∈ (s.defer i false).registered i := by
  have accepts : s.defer i false = { s.append i (.fn s.deferred) with deferred := s.deferred + 1 } := by simp [defer, opened]
  simp [accepts, append]

theorem defer_fresh {i : Nat} (formed : Formed s) (start : i < s.created) (opened : (s.scope i).closed = false) :
    (s.defer i false).succeeded s.deferred = false := by
  rw [(grows_defer formed start opened).succeeded]
  exact decide_eq_false fun ran => Nat.lt_irrefl _ (formed.past _ ran)

theorem under_defer_iff {i t : Nat} (formed : Formed s) (start : i < s.created) (isNil : Bool) :
    Under (s.defer i isNil).registered t i ↔ Under s.registered t i := by
  by_cases refused : isNil = true ∨ (s.scope i).closed = true
  · rw [defer_refused refused]
  · obtain ⟨accepted, opened⟩ := not_or.mp refused
    rw [Bool.not_eq_true] at accepted opened
    subst accepted
    have grows := grows_defer formed start opened
    exact ⟨fun after => (grows.under_old after).resolve_right (Nat.ne_of_lt start), grows.under⟩

theorem defer_kept_iff {i : Nat} (valid : Valid s) (start : i < s.created) (opened : (s.scope i).closed = false)
    (rooted : Rooted s recorded registrations) (kept : s.Kept recorded) :
    (s.defer i false).Kept recorded ↔ ∃ t, recorded t ∧ Under s.registered t i := by
  have formed := valid.formed
  have after := (valid_defer valid start false).formed
  have grows := grows_defer formed start opened
  have fewer {j : Nat} (under : Under (s.defer i false).registered j i) : Under s.registered j i :=
    (grows.under_old under).resolve_right (Nat.ne_of_lt start)
  constructor
  · intro kept
    have within := Nat.lt_of_lt_of_le start grows.created
    have due := (mem_due after within s.deferred).mpr ⟨defer_fresh formed start opened, i, .here, defer_listed opened⟩
    obtain ⟨t, here, under⟩ := kept i within (List.ne_nil_of_mem due)
    exact ⟨t, here, fewer under⟩
  · rintro ⟨t, here, place⟩ j within due
    obtain ⟨k, member⟩ := List.exists_mem_of_ne_nil _ due
    cases grows.due formed after within member with
    | inl before =>
        obtain ⟨u, above, under⟩ := kept j before.1 (List.ne_nil_of_mem before.2)
        exact ⟨u, above, grows.under under⟩
    | inr new =>
        obtain ⟨_, ⟨rfl, -⟩, under⟩ := new
        cases formed.grown.comparable place (fewer under) with
        | inl nested => exact ⟨t, here, grows.under nested⟩
        | inr nested => exact ⟨t, here, under_root (rooted.roots t here).2 nested ▸ .here⟩

end Brainkit.Modules.Scopes
