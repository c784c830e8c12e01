import Brainkit.Modules.KeptCleanups

set_option autoImplicit false

namespace Brainkit.Modules.KitScopes

open Function (update)
open GoText Forest Transition

-- What has been registered with a scope and has not succeeded is in the tree of a scope recorded in the table, so is
-- what is still there of what a host has registered, and closing a scope runs all that has not succeeded in its tree.
structure Holds (s : KitScopes) : Prop where
  kept : s.scopes.Kept s.Recorded
  cleans : s.scopes.Cleans
  owned : s.scopes.Owned s.Recorded s.registrations

-- Something deferred or registered is so in the tree of a recorded scope; in a tree that is closed no cleanup fails under
-- a scope that has no id; and a scope that is taken out of the table has nothing left: what a Mount that has failed
-- closes succeeds, and nothing has been registered through a scope already closed.
def Safe (s : KitScopes) : Action → Prop
  | .defer i isNil => isNil = true ∨ (s.scopes.scope i).closed = true ∨ s.Reached i
  | .register i => s.Reached i
  | .closeScope i outcome => s.scopes.Retains (.close i outcome)
  | .fail _ outcome => ∀ entry, s.mounting = some entry → s.scopes.Retains (.close entry.2 outcome) ∧
      (∀ k ∈ s.scopes.due entry.2, outcome k = none) ∧ s.scopes.Tied s.registrations entry.2
  | .unmount id refused outcome => refused = none → ∀ scope, s.table.mounted.lookup id = some scope →
      s.scopes.Retains (.close scope outcome) ∧
        ((∀ k ∈ s.scopes.due scope, outcome k = none) → s.scopes.Tied s.registrations scope)
  | .closeNext outcome => ∀ entry rest closed errs, s.shutting = some (entry :: rest, closed, errs) →
      s.scopes.Retains (.close entry.2 outcome)
  | .finish => ∀ closed errs, s.shutting = some ([], closed, errs) →
      ∀ entry ∈ closed, s.scopes.Tied s.registrations entry.2
  | _ => True

structure Valid (s : KitScopes) : Prop where
  scopes : s.scopes.Valid
  rooted : Scopes.Rooted s.scopes s.Recorded s.registrations
  single : ∀ id other scope, s.table.mounted.lookup id = some scope → s.table.mounted.lookup other = some scope → id = other
  alone : s.mounting = none ∨ s.shutting = none
  mounting : ∀ entry, s.mounting = some entry → s.table.mounted.lookup entry.1 = some entry.2
  pending : ∀ pending closed errs, s.shutting = some (pending, closed, errs) →
    ∀ entry ∈ pending ++ closed, s.table.mounted.lookup entry.1 = some entry.2
  closed : ∀ pending closed errs, s.shutting = some (pending, closed, errs) →
    ∀ entry ∈ closed, s.scopes.Spent (.close entry.2)

variable {isPrint : Nat → Bool} {s : KitScopes}

theorem valid_scopes {scopes : Scopes} (valid : s.Valid) (after : scopes.Valid)
    (rooted : Scopes.Rooted scopes s.Recorded s.registrations)
    (spent : ∀ t, s.Recorded t → s.scopes.Spent (.close t) → scopes.Spent (.close t)) :
    Valid { s with scopes := scopes } where
  scopes := after
  rooted := rooted
  single := valid.single
  alone := valid.alone
  mounting := valid.mounting
  pending := valid.pending
  closed pending closed errs same entry member := spent entry.2
    ⟨entry.1, valid.pending pending closed errs same entry (List.mem_append_right _ member)⟩
    (valid.closed pending closed errs same entry member)

section

variable {outcome : Nat → Option GoString} {i : Nat}

theorem recorded_start (valid : s.Valid) {t : Nat} (recorded : s.Recorded t) : t < s.scopes.created :=
  (valid.rooted.roots t recorded).1

theorem closed_valid (valid : s.Valid) (start : i < s.scopes.created) (retains : s.scopes.Retains (.close i outcome)) :
    Valid { s with scopes := (s.scopes.close outcome i).1 } := by
  have effect := (Scopes.closes outcome valid.scopes start).1
  have after := Scopes.valid_close valid.scopes start retains
  exact valid_scopes valid after (Scopes.closed_rooted effect valid.rooted) fun t recorded =>
    effect.spent_scope valid.scopes.formed after.formed (recorded_start valid recorded)

theorem closed_holds (valid : s.Valid) (holds : s.Holds) (start : i < s.scopes.created)
    (retains : s.scopes.Retains (.close i outcome)) : Holds { s with scopes := (s.scopes.close outcome i).1 } := by
  have effect := (Scopes.closes outcome valid.scopes start).1
  have after := Scopes.valid_close valid.scopes start retains
  exact ⟨Scopes.closed_kept valid.scopes.formed after.formed effect holds.kept, Scopes.cleans after,
    Scopes.closed_owned effect holds.owned⟩

theorem closed_retains (valid : s.Valid) (start : i < s.scopes.created) (cleans : (s.scopes.close outcome i).1.Cleans) :
    s.scopes.Retains (.close i outcome) := by
  by_contra loses
  exact Scopes.not_cleans valid.scopes start loses cleans

theorem closed_due_iff (valid : s.Valid) (start : i < s.scopes.created) :
    (s.scopes.close outcome i).1.due i = [] ↔ ∀ k ∈ s.scopes.due i, outcome k = none :=
  ((Scopes.cleans valid.scopes i start outcome).2).symm.trans (Scopes.closes outcome valid.scopes start).2

theorem closed_spent (valid : s.Valid) (start : i < s.scopes.created) (fine : (s.scopes.close outcome i).2 = none) :
    (s.scopes.close outcome i).1.Spent (.close i) := by
  obtain ⟨effect, result⟩ := Scopes.closes outcome valid.scopes start
  refine ⟨(closed_due_iff valid start).mpr (result.mp fine), fun j under => ?_⟩
  rw [effect.registered] at under
  exact effect.closed j under

end

theorem dropped_holds_iff {t : MountTable} {dropped : Nat → Prop} (valid : s.Valid) (holds : s.Holds)
    (within : ∀ u, dropped u → s.Recorded u)
    (left : ∀ u, (∃ id, t.mounted.lookup id = some u) ↔ s.Recorded u ∧ ¬ dropped u) (mounting : Option MountedScope)
    (shutting : Option (List MountedScope × List MountedScope × List GoString)) :
    Holds { s with table := t, mounting := mounting, shutting := shutting } ↔
      ∀ u, dropped u → s.scopes.due u = [] ∧ s.scopes.Tied s.registrations u := by
  rw [← Scopes.dropped_iff valid.scopes.formed valid.rooted within holds.kept holds.owned]
  have same : Recorded { s with table := t, mounting := mounting, shutting := shutting } = fun u => s.Recorded u ∧ ¬ dropped u :=
    funext fun u => propext (left u)
  constructor
  · exact fun after => ⟨same ▸ after.kept, same ▸ after.owned⟩
  · exact fun after => ⟨same ▸ after.1, holds.cleans, same ▸ after.2⟩

theorem erased_iff {t : Table Nat} {id name : GoString} {scope : Nat} :
    (t.erase id).lookup name = some scope ↔ name ≠ id ∧ t.lookup name = some scope := by
  by_cases this : name = id
  · rw [this, AList.lookup_erase]
    exact iff_of_false nofun fun both => both.1 rfl
  · rw [AList.lookup_erase_ne this]
    exact (and_iff_right this).symm

theorem erased_recorded (valid : s.Valid) {id : GoString} {scope : Nat} (listed : s.table.mounted.lookup id = some scope)
    (u : Nat) : (∃ name, (s.table.mounted.erase id).lookup name = some u) ↔ s.Recorded u ∧ ¬ u = scope := by
  constructor
  · rintro ⟨name, still⟩
    obtain ⟨other, before⟩ := erased_iff.mp still
    refine ⟨⟨name, before⟩, ?_⟩
    rintro rfl
    exact other (valid.single name id u before listed)
  · rintro ⟨⟨name, before⟩, other⟩
    refine ⟨name, erased_iff.mpr ⟨?_, before⟩⟩
    rintro rfl
    exact other (Option.some.inj (before.symm.trans listed))

theorem grown_valid {scopes : Scopes} {added : Nat → Nat → Prop} (valid : s.Valid) (after : scopes.Valid)
    (grows : Scopes.Grows s.scopes scopes added) : Valid { s with scopes := scopes } :=
  valid_scopes valid after (grows.rooted valid.rooted) fun _ recorded =>
    grows.spent valid.scopes.formed (recorded_start valid recorded)

theorem grown_holds {scopes : Scopes} (valid : s.Valid) (holds : s.Holds) (after : scopes.Valid)
    (grows : Scopes.Grows s.scopes scopes fun _ _ => False) : Holds { s with scopes := scopes } :=
  ⟨grows.kept valid.scopes.formed after.formed holds.kept, Scopes.cleans after, grows.owned holds.owned⟩

section

variable {i : Nat}

theorem child_keeps (valid : s.Valid) (holds : s.Holds) (start : i < s.scopes.created) (id : GoString) :
    Holds { s with scopes := s.scopes.child i id } ∧ Valid { s with scopes := s.scopes.child i id } := by
  have after := Scopes.valid_child valid.scopes start id
  have grows := Scopes.grows_child valid.scopes.formed start id
  exact ⟨grown_holds valid holds after grows, grown_valid valid after grows⟩

theorem defer_holds_iff (valid : s.Valid) (holds : s.Holds) (start : i < s.scopes.created) (isNil : Bool) :
    Holds { s with scopes := s.scopes.defer i isNil } ↔
      isNil = true ∨ (s.scopes.scope i).closed = true ∨ s.Reached i := by
  by_cases refused : isNil = true ∨ (s.scopes.scope i).closed = true
  · rw [Scopes.defer_refused refused]
    exact iff_of_true holds (refused.imp_right .inl)
  · obtain ⟨accepted, opened⟩ := not_or.mp refused
    rw [Bool.not_eq_true] at accepted opened
    subst accepted
    have keeps := Scopes.defer_kept_iff valid.scopes start opened valid.rooted holds.kept
    have grows := Scopes.grows_defer valid.scopes.formed start opened
    constructor
    · exact fun after => .inr (.inr (keeps.mp after.kept))
    · intro allowed
      have reached := (allowed.resolve_left nofun).resolve_left (Bool.not_eq_true _ ▸ opened)
      exact ⟨keeps.mpr reached, Scopes.cleans (Scopes.valid_defer valid.scopes start false), grows.owned holds.owned⟩

theorem defer_valid (valid : s.Valid) (start : i < s.scopes.created) (isNil : Bool) :
    Valid { s with scopes := s.scopes.defer i isNil } := by
  by_cases refused : isNil = true ∨ (s.scopes.scope i).closed = true
  · rw [Scopes.defer_refused refused]
    exact valid
  · obtain ⟨accepted, opened⟩ := not_or.mp refused
    rw [Bool.not_eq_true] at accepted opened
    subst accepted
    exact grown_valid valid (Scopes.valid_defer valid.scopes start false)
      (Scopes.grows_defer valid.scopes.formed start opened)

theorem register_holds_iff (valid : s.Valid) (holds : s.Holds) (start : i < s.scopes.created) :
    (s.register i).Holds ↔ s.Reached i := by
  constructor
  · intro after
    have live : (s.scopes.defer i false).Live
        ⟨i, if (s.scopes.scope i).closed then none else some s.scopes.deferred, false⟩ := by
      refine ⟨rfl, fun k accepted => ?_⟩
      obtain ⟨opened, same⟩ := Option.ite_none_left_eq_some.mp accepted
      rw [← Option.some.inj same]
      exact Scopes.defer_fresh valid.scopes.formed start (Bool.eq_false_iff.mpr opened)
    obtain ⟨t, recorded, under⟩ := after.owned _ (List.mem_append_right _ (List.mem_singleton_self _)) live
    exact ⟨t, recorded, (Scopes.under_defer_iff valid.scopes.formed start false).mp under⟩
  · intro reached
    have before := (defer_holds_iff valid holds start false).mpr (.inr (.inr reached))
    refine ⟨before.kept, before.cleans, fun g member live => ?_⟩
    cases List.mem_append.mp member with
    | inl earlier => exact before.owned g earlier live
    | inr new =>
        obtain rfl := List.mem_singleton.mp new
        obtain ⟨t, recorded, under⟩ := reached
        exact ⟨t, recorded, (Scopes.under_defer_iff valid.scopes.formed start false).mpr under⟩

theorem register_valid (valid : s.Valid) (start : i < s.scopes.created) : (s.register i).Valid := by
  have before := defer_valid valid start false
  refine { before with rooted := ⟨before.rooted.roots, fun g member k accepted => ?_⟩ }
  cases List.mem_append.mp member with
  | inl earlier => exact before.rooted.known g earlier k accepted
  | inr new =>
      obtain rfl := List.mem_singleton.mp new
      obtain ⟨opened, same⟩ := Option.ite_none_left_eq_some.mp accepted
      obtain rfl := Option.some.inj same
      exact Scopes.defer_listed (Bool.eq_false_iff.mpr opened)

end

theorem closed_handle {r : Nat} {g : Registration} {registrations : List Registration}
    (member : g ∈ registrations.modify r fun g => { g with gone := true }) :
    g ∈ registrations ∨ ∃ before ∈ registrations, g = { before with gone := true } := by
  obtain ⟨i, found⟩ := List.mem_iff_getElem?.mp member
  rw [List.getElem?_modify, Option.map_eq_map, Option.map_eq_some_iff] at found
  obtain ⟨before, listed, same⟩ := found
  have member := List.mem_of_getElem? listed
  split at same
  · exact .inr ⟨before, member, same.symm⟩
  · exact .inl (same ▸ member)

theorem close_handle_keeps (valid : s.Valid) (holds : s.Holds) (r : Nat) (err : Option GoString) :
    (s.closeHandle r err).Holds ∧ (s.closeHandle r err).Valid := by
  cases err with
  | some err => exact ⟨holds, valid⟩
  | none =>
      refine ⟨⟨holds.kept, holds.cleans, fun g member live => ?_⟩,
        { valid with rooted := ⟨valid.rooted.roots, fun g member k accepted => ?_⟩ }⟩
      · cases closed_handle member with
        | inl before => exact holds.owned g before live
        | inr gone =>
            obtain ⟨before, _, rfl⟩ := gone
            exact absurd live.1 nofun
      · cases closed_handle member with
        | inl before => exact valid.rooted.known g before k accepted
        | inr gone =>
            obtain ⟨before, listed, rfl⟩ := gone
            exact valid.rooted.known before listed k accepted

theorem reserved_iff {t : Table Nat} {id name : GoString} {n scope : Nat} (free : id ∉ t) :
    (t.insert id n).lookup name = some scope ↔ t.lookup name = some scope ∨ (name = id ∧ scope = n) := by
  by_cases this : name = id
  · rw [this, AList.lookup_insert, AList.lookup_eq_none.mpr free, Option.some.injEq, eq_comm]
    exact ⟨fun same => .inr ⟨rfl, same⟩, fun either => (either.resolve_left nofun).2⟩
  · rw [AList.lookup_insert_ne this]
    exact ⟨.inl, fun either => either.resolve_right fun same => this same.1⟩

theorem mount_keeps (valid : s.Valid) (holds : s.Holds) (idle : s.idle = true) (id : GoString) (refused : Option GoString) :
    (s.mount isPrint id refused).1.Holds ∧ (s.mount isPrint id refused).1.Valid := by
  unfold mount
  split
  · exact ⟨holds, valid⟩
  split
  · exact ⟨holds, valid⟩
  next free =>
    cases refused with
    | some err => exact ⟨holds, valid⟩
    | none =>
        have after := Scopes.valid_new_scope valid.scopes id
        have grows := Scopes.grows_new_scope valid.scopes.formed id
        have before := grown_holds valid holds after grows
        obtain ⟨_, resting⟩ := Bool.and_eq_true_iff.mp idle
        have more (t : Nat) (recorded : s.Recorded t) :
            ∃ name, (s.table.mounted.insert id s.scopes.created).lookup name = some t :=
          recorded.imp fun name listed => (reserved_iff free).mpr (.inl listed)
        refine ⟨⟨before.kept.mono more, before.cleans, before.owned.mono more⟩, ?_⟩
        constructor
        · exact after
        · refine ⟨fun t recorded => ?_, valid.rooted.known⟩
          obtain ⟨name, listed⟩ := recorded
          cases (reserved_iff free).mp listed with
          | inl earlier => exact (grows.rooted valid.rooted).roots t ⟨name, earlier⟩
          | inr new =>
              obtain ⟨-, rfl⟩ := new
              exact ⟨Nat.lt_succ_self _, fun j member => Nat.lt_irrefl _ (valid.scopes.formed.grown.rises j _ member).2⟩
        · intro name other scope first second
          have never {name : GoString} (listed : s.table.mounted.lookup name = some s.scopes.created) : False :=
            Nat.lt_irrefl _ (recorded_start valid ⟨name, listed⟩)
          cases (reserved_iff free).mp first with
          | inl earlier =>
              cases (reserved_iff free).mp second with
              | inl also => exact valid.single name other scope earlier also
              | inr new => exact absurd (new.2 ▸ earlier) never
          | inr new =>
              cases (reserved_iff free).mp second with
              | inl also => exact absurd (new.2 ▸ also) never
              | inr again => exact new.1.trans again.1.symm
        · exact .inr (Option.isNone_iff_eq_none.mp resting)
        · rintro entry same
          obtain rfl := Option.some.inj same
          exact AList.lookup_insert _
        · intro pending closed errs same
          change s.shutting = _ at same
          rw [same] at resting
          cases resting
        · intro pending closed errs same
          change s.shutting = _ at same
          rw [same] at resting
          cases resting

theorem succeed_keeps (valid : s.Valid) (holds : s.Holds) (entry : MountedScope) (desc : Descriptor) :
    (s.succeed entry desc).Holds ∧ (s.succeed entry desc).Valid :=
  ⟨⟨holds.kept, holds.cleans, holds.owned⟩, { valid with alone := .inl rfl, mounting := nofun }⟩

section

variable {outcome : Nat → Option GoString} {id : GoString} {scope : Nat} {t : MountTable}

theorem released_holds_iff (valid : s.Valid) (holds : s.Holds) (listed : s.table.mounted.lookup id = some scope)
    (retains : s.scopes.Retains (.close scope outcome)) (erased : t.mounted = s.table.mounted.erase id)
    (mounting : Option MountedScope) :
    Holds { s with scopes := (s.scopes.close outcome scope).1, table := t, mounting := mounting } ↔
      (∀ k ∈ s.scopes.due scope, outcome k = none) ∧ s.scopes.Tied s.registrations scope := by
  have start := recorded_start valid ⟨id, listed⟩
  have after := closed_valid valid start retains
  have before := closed_holds valid holds start retains
  have effect := (Scopes.closes outcome valid.scopes start).1
  have left (u : Nat) : (∃ name, t.mounted.lookup name = some u) ↔ s.Recorded u ∧ ¬ u = scope := by
    rw [erased]
    exact erased_recorded valid listed u
  have exactly := dropped_holds_iff after before (fun u (same : u = scope) => ⟨id, same ▸ listed⟩) left mounting s.shutting
  have tied : (s.scopes.close outcome scope).1.Tied s.registrations scope ↔ s.scopes.Tied s.registrations scope := by
    rw [Scopes.Tied, Scopes.Tied, effect.registered]
  rw [← closed_due_iff valid start, ← tied]
  exact exactly.trans ⟨fun spent => spent scope rfl, fun spent u same => same ▸ spent⟩

theorem released_valid (valid : s.Valid) (listed : s.table.mounted.lookup id = some scope)
    (retains : s.scopes.Retains (.close scope outcome)) (erased : t.mounted = s.table.mounted.erase id)
    (resting : s.shutting = none) :
    Valid { s with scopes := (s.scopes.close outcome scope).1, table := t, mounting := none } := by
  have start := recorded_start valid ⟨id, listed⟩
  have after := closed_valid valid start retains
  have still {name : GoString} {u : Nat} (kept : t.mounted.lookup name = some u) : s.table.mounted.lookup name = some u := by
    rw [erased] at kept
    exact (erased_iff.mp kept).2
  refine ⟨after.scopes, ⟨fun u recorded => ?_, after.rooted.known⟩, fun name other u first second => ?_, .inl rfl, nofun,
    fun pending closed errs same => ?_, fun pending closed errs same => ?_⟩
  · exact after.rooted.roots u (recorded.imp fun name kept => still kept)
  · exact valid.single name other u (still first) (still second)
  · rw [resting] at same
    cases same
  · rw [resting] at same
    cases same

end

theorem fail_holds_iff (valid : s.Valid) (holds : s.Holds) {entry : MountedScope} (under : s.mounting = some entry)
    (err : GoString) (outcome : Nat → Option GoString) :
    ((s.fail isPrint entry err outcome).1.Holds ↔ s.Safe (.fail err outcome)) ∧
      (s.Safe (.fail err outcome) → (s.fail isPrint entry err outcome).1.Valid) := by
  have listed := valid.mounting entry under
  have resting := valid.alone.resolve_left (by rw [under]; exact nofun)
  have exactly (retains : s.scopes.Retains (.close entry.2 outcome)) :=
    released_holds_iff (t := s.table.cancel entry.1) valid holds listed retains rfl none
  refine ⟨⟨fun after other same => ?_, fun safe => ?_⟩, fun safe => ?_⟩
  · obtain rfl : entry = other := Option.some.inj (under.symm.trans same)
    have retains := closed_retains valid (recorded_start valid ⟨entry.1, listed⟩) after.cleans
    exact ⟨retains, (exactly retains).mp after⟩
  · obtain ⟨retains, spent⟩ := safe entry under
    exact (exactly retains).mpr spent
  · exact released_valid valid listed (safe entry under).1 rfl resting

theorem unmount_holds_iff (valid : s.Valid) (holds : s.Holds) (idle : s.idle = true) (id : GoString)
    (refused : Option GoString) (outcome : Nat → Option GoString) :
    ((s.unmount isPrint id refused outcome).1.Holds ↔ s.Safe (.unmount id refused outcome)) ∧
      (s.Safe (.unmount id refused outcome) → (s.unmount isPrint id refused outcome).1.Valid) := by
  cases refused with
  | some err => exact ⟨iff_of_true holds nofun, fun _ => valid⟩
  | none =>
      cases listed : s.table.mounted.lookup id with
      | none =>
          have same : (s.unmount isPrint id none outcome).1 = s := by simp only [unmount, listed]
          rw [same]
          exact ⟨iff_of_true holds fun _ _ found => (nomatch listed.symm.trans found), fun _ => valid⟩
      | some scope =>
          have start := recorded_start valid ⟨id, listed⟩
          have asks : s.Safe (.unmount id none outcome) ↔ s.scopes.Retains (.close scope outcome) ∧
              ((∀ k ∈ s.scopes.due scope, outcome k = none) → s.scopes.Tied s.registrations scope) :=
            ⟨fun safe => safe rfl scope listed, fun both _ other same => Option.some.inj (listed.symm.trans same) ▸ both⟩
          have result := (Scopes.closes outcome valid.scopes start).2
          rw [asks]
          cases closed : (s.scopes.close outcome scope).2 with
          | some err =>
              have same : (s.unmount isPrint id none outcome).1 = { s with scopes := (s.scopes.close outcome scope).1 } := by
                have whole : s.scopes.close outcome scope = (_, some err) := Prod.ext rfl closed
                unfold unmount
                rw [listed]
                dsimp only
                rw [whole]
              have failing : ¬ ∀ k ∈ s.scopes.due scope, outcome k = none := fun fine => by
                rw [result.mpr fine] at closed
                cases closed
              rw [same]
              refine ⟨⟨fun after => ⟨closed_retains valid start after.cleans, fun fine => absurd fine failing⟩,
                fun safe => ?_⟩,
                fun safe => closed_valid valid start safe.1⟩
              exact closed_holds valid holds start safe.1
          | none =>
              have same : (s.unmount isPrint id none outcome).1 =
                  { s with scopes := (s.scopes.close outcome scope).1, table := s.table.forget id } := by
                have whole : s.scopes.close outcome scope = (_, none) := Prod.ext rfl closed
                unfold unmount
                rw [listed]
                dsimp only
                rw [whole]
              have fine := result.mp closed
              have exactly (retains : s.scopes.Retains (.close scope outcome)) :=
                released_holds_iff (t := s.table.forget id) valid holds listed retains rfl s.mounting
              rw [same]
              refine ⟨⟨fun after => ?_, fun safe => ?_⟩, fun safe => ?_⟩
              · have retains := closed_retains valid start after.cleans
                exact ⟨retains, fun _ => ((exactly retains).mp after).2⟩
              · exact (exactly safe.1).mpr ⟨fine, safe.2 fine⟩
              · obtain ⟨quiet, resting⟩ := Bool.and_eq_true_iff.mp idle
                have after := released_valid (t := s.table.forget id) valid listed safe.1 rfl
                  (Option.isNone_iff_eq_none.mp resting)
                rw [← Option.isNone_iff_eq_none.mp quiet] at after
                exact after

theorem closing_listed {t : MountTable} {entry : MountedScope} (member : entry ∈ closingOrder t) :
    t.mounted.lookup entry.1 = some entry.2 := by
  have found {ids : List GoString}
      (member : entry ∈ ids.filterMap fun id => (t.mounted.lookup id).map fun scope => (id, scope)) :
      t.mounted.lookup entry.1 = some entry.2 := by
    obtain ⟨id, _, same⟩ := List.mem_filterMap.mp member
    obtain ⟨scope, listed, rfl⟩ := Option.map_eq_some_iff.mp same
    exact listed
  cases List.mem_append.mp member with
  | inl ordered => exact found ordered
  | inr remaining => exact found remaining

theorem shutting_valid {pending closed : List MountedScope} (valid : s.Valid) (quiet : s.mounting = none)
    (listed : ∀ entry ∈ pending ++ closed, s.table.mounted.lookup entry.1 = some entry.2)
    (spent : ∀ entry ∈ closed, s.scopes.Spent (.close entry.2)) (errs : List GoString) :
    Valid { s with shutting := some (pending, closed, errs) } := by
  refine { valid with alone := .inl quiet, pending := fun _ _ _ same => ?_, closed := fun _ _ _ same => ?_ }
  · cases same
    exact listed
  · cases same
    exact spent

theorem close_mounted_keeps (valid : s.Valid) (holds : s.Holds) (idle : s.idle = true) :
    s.closeMounted.Holds ∧ s.closeMounted.Valid := by
  obtain ⟨quiet, _⟩ := Bool.and_eq_true_iff.mp idle
  refine ⟨⟨holds.kept, holds.cleans, holds.owned⟩,
    shutting_valid valid (Option.isNone_iff_eq_none.mp quiet) (fun entry member => ?_)
      (fun _ member => absurd member List.not_mem_nil) []⟩
  rw [List.append_nil] at member
  exact closing_listed member

theorem close_next_holds_iff (valid : s.Valid) (holds : s.Holds) {entry : MountedScope} {rest closed : List MountedScope}
    {errs : List GoString} (under : s.shutting = some (entry :: rest, closed, errs)) (outcome : Nat → Option GoString) :
    ((s.closeNext entry rest closed errs outcome).Holds ↔ s.Safe (.closeNext outcome)) ∧
      (s.Safe (.closeNext outcome) → (s.closeNext entry rest closed errs outcome).Valid) := by
  have place := valid.pending _ _ _ under
  have listed := place entry (List.mem_append_left _ List.mem_cons_self)
  have start := recorded_start valid ⟨entry.1, listed⟩
  have quiet := valid.alone.resolve_right (by rw [under]; exact nofun)
  have asks : s.Safe (.closeNext outcome) ↔ s.scopes.Retains (.close entry.2 outcome) := by
    constructor
    · exact fun safe => safe entry rest closed errs under
    · rintro retains other _ _ _ same
      cases under.symm.trans same
      exact retains
  obtain ⟨moved, same, before⟩ : ∃ moved : List MountedScope × List GoString,
      s.closeNext entry rest closed errs outcome =
        { s with scopes := (s.scopes.close outcome entry.2).1, shutting := some (rest, moved) } ∧
      ∀ other ∈ moved.1, other ∈ closed ∨ other = entry ∧ (s.scopes.close outcome entry.2).2 = none := by
    unfold closeNext
    cases result : (s.scopes.close outcome entry.2).2 with
    | some err =>
        have whole : s.scopes.close outcome entry.2 = (_, some err) := Prod.ext rfl result
        rw [whole]
        exact ⟨(closed, errs ++ [err]), rfl, fun _ => .inl⟩
    | none =>
        have whole : s.scopes.close outcome entry.2 = (_, none) := Prod.ext rfl result
        rw [whole]
        refine ⟨(closed ++ [entry], errs), rfl, fun other member => ?_⟩
        exact (List.mem_append.mp member).imp_right fun last => ⟨List.mem_singleton.mp last, rfl⟩
  rw [asks, same]
  refine ⟨⟨fun after => closed_retains valid start after.cleans, fun retains => ?_⟩, fun retains => ?_⟩
  · have after := closed_holds valid holds start retains
    exact ⟨after.kept, after.cleans, after.owned⟩
  · have after := closed_valid valid start retains
    refine shutting_valid after quiet (fun other member => ?_) (fun other member => ?_) moved.2
    · cases List.mem_append.mp member with
      | inl waiting => exact place other (List.mem_append_left _ (List.mem_cons_of_mem _ waiting))
      | inr done =>
          cases before other done with
          | inl earlier => exact place other (List.mem_append_right _ earlier)
          | inr last => exact last.1 ▸ listed
    · cases before other member with
      | inl earlier => exact after.closed _ _ _ under other earlier
      | inr last =>
          rw [last.1]
          exact closed_spent valid start last.2

theorem forgotten_iff {closed : List MountedScope} {t : MountTable} {id : GoString} {u : Nat} :
    (forgetClosed closed t).mounted.lookup id = some u ↔ t.mounted.lookup id = some u ∧ (id, u) ∉ closed := by
  induction closed generalizing t with
  | nil => exact (and_iff_left List.not_mem_nil).symm
  | cons entry rest ih =>
      have head : (if t.mounted.lookup entry.1 = some entry.2 then t.forget entry.1 else t).mounted.lookup id = some u ↔
          t.mounted.lookup id = some u ∧ (id, u) ≠ entry := by
        split
        next listed =>
          refine erased_iff.trans ⟨fun both => ⟨both.2, fun same => both.1 (same ▸ rfl)⟩, fun both => ⟨?_, both.1⟩⟩
          rintro rfl
          exact both.2 (Prod.ext rfl (Option.some.inj (both.1.symm.trans listed)))
        next other =>
          refine ⟨fun listed => ⟨listed, ?_⟩, And.left⟩
          rintro rfl
          exact other listed
      rw [List.mem_cons, not_or, ← and_assoc, ← head]
      exact ih

theorem finish_holds_iff (valid : s.Valid) (holds : s.Holds) {closed : List MountedScope} {errs : List GoString}
    (under : s.shutting = some ([], closed, errs)) :
    ((s.finish closed errs).1.Holds ↔ s.Safe .finish) ∧ (s.finish closed errs).1.Valid := by
  have listed := valid.pending _ _ _ under
  have quiet := valid.alone.resolve_right (by rw [under]; exact nofun)
  have left (u : Nat) : (∃ id, (forgetClosed closed s.table).mounted.lookup id = some u) ↔
      s.Recorded u ∧ ¬ ∃ entry ∈ closed, entry.2 = u := by
    constructor
    · rintro ⟨id, still⟩
      obtain ⟨before, kept⟩ := forgotten_iff.mp still
      refine ⟨⟨id, before⟩, ?_⟩
      rintro ⟨entry, member, rfl⟩
      rw [valid.single id entry.1 entry.2 before (listed entry member)] at kept
      exact kept member
    · rintro ⟨⟨id, before⟩, kept⟩
      exact ⟨id, forgotten_iff.mpr ⟨before, fun member => kept ⟨(id, u), member, rfl⟩⟩⟩
  have within (u : Nat) (gone : ∃ entry ∈ closed, entry.2 = u) : s.Recorded u := by
    obtain ⟨entry, member, rfl⟩ := gone
    exact ⟨entry.1, listed entry member⟩
  have still {id : GoString} {u : Nat} (kept : (forgetClosed closed s.table).mounted.lookup id = some u) :
      s.table.mounted.lookup id = some u := (forgotten_iff.mp kept).1
  constructor
  · refine (dropped_holds_iff valid holds within left s.mounting none).trans ⟨fun spent others errs same entry member => ?_,
      fun safe u gone => ?_⟩
    · cases under.symm.trans same
      exact (spent entry.2 ⟨entry, member, rfl⟩).2
    · obtain ⟨entry, member, rfl⟩ := gone
      exact ⟨(valid.closed _ _ _ under entry member).1, safe closed errs under entry member⟩
  · refine { valid with
      rooted := ⟨fun u recorded => ?_, valid.rooted.known⟩
      single := fun id other u first second => valid.single id other u (still first) (still second)
      alone := .inr rfl
      mounting := fun entry same => nomatch quiet.symm.trans same
      pending := nofun
      closed := nofun }
    exact valid.rooted.roots u (recorded.imp fun id kept => still kept)

theorem valid_new : new.Valid where
  scopes := Scopes.valid_new
  rooted := ⟨fun _ recorded => absurd recorded fun ⟨_, listed⟩ => (nomatch listed),
    fun _ member => absurd member List.not_mem_nil⟩
  single _ _ _ listed := nomatch listed
  alone := .inl rfl
  mounting := nofun
  pending := nofun
  closed := nofun

theorem holds_new : new.Holds :=
  ⟨fun _ within => absurd within (Nat.not_lt_zero _), Scopes.cleans Scopes.valid_new,
    fun _ member => absurd member List.not_mem_nil⟩

theorem holds_iff {next : KitScopes} (valid : s.Valid) (holds : s.Holds) (action : Action)
    (taken : step isPrint s action = some next) : (next.Holds ↔ s.Safe action) ∧ (s.Safe action → next.Valid) := by
  have kept (keeps : next.Holds ∧ next.Valid) (safe : s.Safe action) :
      (next.Holds ↔ s.Safe action) ∧ (s.Safe action → next.Valid) :=
    ⟨iff_of_true keeps.1 safe, fun _ => keeps.2⟩
  cases action with
  | child i id =>
      obtain ⟨start, same⟩ := Option.ite_none_right_eq_some.mp taken
      cases same
      exact kept (child_keeps valid holds start id) trivial
  | defer i isNil =>
      obtain ⟨start, same⟩ := Option.ite_none_right_eq_some.mp taken
      cases same
      exact ⟨defer_holds_iff valid holds start isNil, fun _ => defer_valid valid start isNil⟩
  | register i =>
      obtain ⟨start, same⟩ := Option.ite_none_right_eq_some.mp taken
      cases same
      exact ⟨register_holds_iff valid holds start, fun _ => register_valid valid start⟩
  | closeScope i outcome =>
      obtain ⟨start, same⟩ := Option.ite_none_right_eq_some.mp taken
      cases same
      exact ⟨⟨fun after => closed_retains valid start after.cleans, closed_holds valid holds start⟩,
        closed_valid valid start⟩
  | closeHandle r err =>
      cases taken
      exact kept (close_handle_keeps valid holds r err) trivial
  | mount id refused =>
      obtain ⟨idle, same⟩ := Option.ite_none_right_eq_some.mp taken
      cases same
      exact kept (mount_keeps valid holds idle id refused) trivial
  | succeed desc =>
      obtain ⟨entry, under, rfl⟩ := Option.map_eq_some_iff.mp taken
      exact kept (succeed_keeps valid holds entry desc) trivial
  | fail err outcome =>
      obtain ⟨entry, under, rfl⟩ := Option.map_eq_some_iff.mp taken
      exact fail_holds_iff valid holds under err outcome
  | unmount id refused outcome =>
      obtain ⟨idle, same⟩ := Option.ite_none_right_eq_some.mp taken
      cases same
      exact unmount_holds_iff valid holds idle id refused outcome
  | closeMounted =>
      obtain ⟨idle, same⟩ := Option.ite_none_right_eq_some.mp taken
      cases same
      exact kept (close_mounted_keeps valid holds idle) trivial
  | closeNext outcome =>
      dsimp only [step] at taken
      split at taken
      · next under =>
          cases taken
          exact close_next_holds_iff valid holds under outcome
      · cases taken
  | finish =>
      dsimp only [step] at taken
      split at taken
      · next under =>
          cases taken
          obtain ⟨exactly, after⟩ := finish_holds_iff valid holds under
          exact ⟨exactly, fun _ => after⟩
      · cases taken

theorem always_holds_iff {path : List Action} {final : KitScopes} (reached : run (step isPrint) new path = some final) :
    Always (step isPrint) Holds new path ↔ Along (step isPrint) Safe new path :=
  always_iff_along_held
    (fun _ action _ valid holds kept taken =>
      have exactly := holds_iff valid holds action taken
      exactly.2 (exactly.1.mp kept))
    (fun _ action _ valid holds taken => (holds_iff valid holds action taken).1) valid_new holds_new reached

-- A module registers a command, and the Close of the command fails once: when the module is unmounted, the entry stays
-- and the next Unmount runs it again.
def retried : List Action :=
  [.mount (lit "m") none, .register 0, .succeed ⟨lit "m", [], []⟩,
    .unmount (lit "m") none fun _ => some (lit "close failed"), .unmount (lit "m") none fun _ => none]

theorem sole_retains {outcome : Nat → Option GoString} {k : Nat} (named : (s.scopes.scope 0).id ≠ [])
    (sole : s.scopes.registered 0 = [.fn k]) : s.scopes.Retains (.close 0 outcome) := by
  intro j under none
  cases under_cases under with
  | inl same => exact absurd (same ▸ none) named
  | inr later =>
      obtain ⟨c, member, _⟩ := later
      rw [sole] at member
      cases List.mem_singleton.mp member

theorem sole_tied {t k : Nat} (sole : s.registrations = [⟨0, some k, false⟩]) : s.scopes.Tied s.registrations t := by
  intro g member _ _
  rw [sole] at member
  rw [List.mem_singleton.mp member]
  exact nofun

theorem retried_holds : Always (step fun _ => true) Holds new retried := by
  refine (always_holds_iff rfl).mpr ?_
  refine along_cons trivial rfl (along_cons ⟨0, ⟨lit "m", rfl⟩, .here⟩ rfl (along_cons trivial rfl (along_cons ?_ rfl
    (along_cons ?_ rfl trivial))))
  · rintro - scope listed
    cases listed
    exact ⟨sole_retains (by decide) rfl, fun _ => sole_tied rfl⟩
  · rintro - scope listed
    cases listed
    exact ⟨sole_retains (by decide) rfl, fun _ => sole_tied rfl⟩

theorem failed_lost : ∃ s, run (step fun _ => true) new
      [.mount (lit "m") none, .register 0, .fail (lit "mount failed") fun _ => some (lit "close failed")] = some s ∧
    s.scopes.due 0 = [0] ∧ s.table.mounted.keys = [] ∧ ¬ s.Holds := by
  refine ⟨_, rfl, by decide, rfl, fun holds => ?_⟩
  obtain ⟨t, ⟨id, listed⟩, -⟩ := holds.kept 0 (by decide) (by decide)
  cases listed

end Brainkit.Modules.KitScopes
