import Mathlib.Logic.Function.Basic

set_option autoImplicit false

universe u v

-- A registry of entries with one-shot timers. The callback of a timer runs as a fire of its entry, which may arm the
-- timer again. Entries and fires are numbered; each entry is registered under its own key.
structure Arming (κ : Type u) where
  closed : Bool
  registry : κ → Option Nat
  key : Nat → κ
  timer : Nat → Bool
  created : Nat
  active : Nat → Option Nat

namespace Arming

open Function (update)

def Armed {κ : Type u} (a : Arming κ) : Prop :=
  a.closed = false → ∀ key e, a.registry key = some e → a.timer e = true ∨ ∃ k, a.active k = some e

structure Valid {κ : Type u} (a : Arming κ) : Prop where
  keyed : ∀ key e, a.registry key = some e → a.key e = key
  listed : ∀ key e, a.registry key = some e → e < a.created
  pending : ∀ e, a.timer e = true → e < a.created
  acting : ∀ k e, a.active k = some e → e < a.created ∧ a.timer e = false ∧ ∀ j, a.active j = some e → j = k

def ended {κ : Type u} (a : Arming κ) (k : Nat) : Arming κ := { a with active := update a.active k none }

theorem ended_armed_iff {κ : Type u} (a : Arming κ) (k e : Nat) (valid : Valid a) (armed : Armed a)
    (acting : a.active k = some e) : Armed (a.ended k) ↔ (a.closed = false → a.registry (a.key e) ≠ some e) := by
  obtain ⟨-, stopped, only⟩ := valid.acting k e acting
  constructor
  · intro after opened listed
    rcases after opened (a.key e) e listed with pending | ⟨j, other⟩
    · exact Bool.false_ne_true (stopped.symm.trans pending)
    · by_cases same : j = k
      · simp [ended, same] at other
      · simp only [ended, Function.update_of_ne same] at other
        exact same (only j other)
  · intro unlisted opened key other listed
    refine (armed opened key other listed).imp id ?_
    rintro ⟨j, acts⟩
    refine ⟨j, (Function.update_of_ne ?_ _ _).trans acts⟩
    rintro rfl
    obtain rfl := Option.some.inj (acting.symm.trans acts)
    have own : a.key e = key := valid.keyed key e listed
    exact unlisted opened (own ▸ listed)

variable {κ : Type u}

theorem some_before {ι : Type u} {β : Type v} [DecidableEq ι] {f : ι → Option β} {i j : ι} {x : β}
    (found : update f i none j = some x) : f j = some x := by
  by_cases same : j = i
  · simp [same] at found
  · rwa [Function.update_of_ne same] at found

theorem true_before {f : Nat → Bool} {i j : Nat} (set : update f i false j = true) : f j = true := by
  by_cases same : j = i
  · simp [same] at set
  · rwa [Function.update_of_ne same] at set

theorem false_stays {f : Nat → Bool} {i j : Nat} (unset : f j = false) : update f i false j = false := by
  by_cases same : j = i
  · rw [same, Function.update_self]
  · rwa [Function.update_of_ne same]

theorem fewer_valid (a b : Arming κ) (valid : Valid a) (key : b.key = a.key) (created : b.created = a.created)
    (registry : ∀ key e, b.registry key = some e → a.registry key = some e)
    (timer : ∀ e, b.timer e = true → a.timer e = true) (stopped : ∀ e, a.timer e = false → b.timer e = false)
    (active : ∀ k e, b.active k = some e → a.active k = some e) : Valid b where
  keyed k e listed := key ▸ valid.keyed k e (registry k e listed)
  listed k e listed := created ▸ valid.listed k e (registry k e listed)
  pending e set := created ▸ valid.pending e (timer e set)
  acting k e acts := by
    obtain ⟨known, off, only⟩ := valid.acting k e (active k e acts)
    exact ⟨created ▸ known, stopped e off, fun j also => only j (active j e also)⟩

theorem creates_valid (a : Arming κ) (key : κ) (valid : Valid a) : Valid { a with
    key := update a.key a.created key, timer := update a.timer a.created true, created := a.created + 1 } where
  keyed k e listed := by
    have old : e ≠ a.created := Nat.ne_of_lt (valid.listed k e listed)
    exact (Function.update_of_ne old _ _).trans (valid.keyed k e listed)
  listed k e listed := Nat.lt_succ_of_lt (valid.listed k e listed)
  pending e set := by
    by_cases new : e = a.created
    · exact new ▸ Nat.lt_succ_self _
    · simp only [Function.update_of_ne new] at set
      exact Nat.lt_succ_of_lt (valid.pending e set)
  acting k e acts := by
    obtain ⟨known, off, only⟩ := valid.acting k e acts
    have old : e ≠ a.created := Nat.ne_of_lt known
    exact ⟨Nat.lt_succ_of_lt known, (Function.update_of_ne old _ _).trans off, only⟩

theorem fires_valid (a : Arming κ) (k e : Nat) (valid : Valid a) (pending : a.timer e = true) : Valid { a with
    timer := update a.timer e false, active := update a.active k (some e) } where
  keyed := valid.keyed
  listed := valid.listed
  pending other set := valid.pending other (true_before set)
  acting j other acts := by
    have running : ∀ i, a.active i ≠ some e := fun i acts =>
      Bool.false_ne_true ((valid.acting i e acts).2.1.symm.trans pending)
    have ours : ∀ i x, update a.active k (some e) i = some x → i = k ∧ x = e ∨ a.active i = some x := by
      intro i x acts
      by_cases same : i = k
      · rw [same, Function.update_self, Option.some.injEq] at acts
        exact .inl ⟨same, acts.symm⟩
      · rw [Function.update_of_ne same] at acts
        exact .inr acts
    rcases ours j other acts with ⟨rfl, rfl⟩ | before
    · refine ⟨valid.pending other pending, Function.update_self _ _ _, fun i also => ?_⟩
      rcases ours i other also with ⟨same, _⟩ | earlier
      · exact same
      · exact absurd earlier (running i)
    · obtain ⟨known, off, only⟩ := valid.acting j other before
      refine ⟨known, false_stays off, fun i also => ?_⟩
      rcases ours i other also with ⟨_, rfl⟩ | earlier
      · exact absurd before (running j)
      · exact only i earlier

theorem rearms_valid (a : Arming κ) (k e : Nat) (valid : Valid a) (acting : a.active k = some e) : Valid { a with
    timer := update a.timer e true, active := update a.active k none } where
  keyed := valid.keyed
  listed := valid.listed
  pending other set := by
    by_cases same : other = e
    · exact same ▸ (valid.acting k e acting).1
    · simp only [Function.update_of_ne same] at set
      exact valid.pending other set
  acting j other acts := by
    obtain ⟨known, off, only⟩ := valid.acting j other (some_before acts)
    have apart : other ≠ e := by
      rintro rfl
      simp [only k acting] at acts
    exact ⟨known, (Function.update_of_ne apart _ _).trans off, fun i also => only i (some_before also)⟩

variable [DecidableEq κ]

def inserted (a : Arming κ) (e : Nat) : Arming κ := { a with registry := update a.registry (a.key e) (some e) }

theorem inserted_armed_iff (a : Arming κ) (e : Nat) (armed : Armed a) (opened : a.closed = false) :
    Armed (a.inserted e) ↔ a.timer e = true ∨ ∃ k, a.active k = some e := by
  constructor
  · intro after
    exact after opened (a.key e) e (Function.update_self _ _ _)
  · intro held _ key other listed
    by_cases same : key = a.key e
    · simp only [inserted, same, Function.update_self, Option.some.injEq] at listed
      exact listed ▸ held
    · simp only [inserted, Function.update_of_ne same] at listed
      exact armed opened key other listed

inductive Quiet (a : Arming κ) : Arming κ → Prop where
  | stays : Quiet a a
  | creates (key : κ) : Quiet a { a with
      key := update a.key a.created key, timer := update a.timer a.created true, created := a.created + 1 }
  | stops (e : Nat) (closed : a.closed = true) : Quiet a { a with timer := update a.timer e false }
  | removes (e : Nat) (listed : a.registry (a.key e) = some e) :
      Quiet a { a with registry := update a.registry (a.key e) none, timer := update a.timer e false }
  | fires (k e : Nat) (pending : a.timer e = true) (idle : a.active k = none) :
      Quiet a { a with timer := update a.timer e false, active := update a.active k (some e) }
  | unlists (k e : Nat) (acting : a.active k = some e) :
      Quiet a { a with registry := update a.registry (a.key e) none, active := update a.active k none }
  | rearms (k e : Nat) (acting : a.active k = some e) :
      Quiet a { a with timer := update a.timer e true, active := update a.active k none }
  | closes : Quiet a { a with
      closed := true
      registry := fun _ => none
      timer := fun e => if a.registry (a.key e) = some e then false else a.timer e }

inductive Step (a : Arming κ) : Arming κ → Prop where
  | quiet (b : Arming κ) (quiet : Quiet a b) : Step a b
  | inserts (e : Nat) (known : e < a.created) (opened : a.closed = false) : Step a (a.inserted e)
  | ends (k e : Nat) (acting : a.active k = some e) : Step a (a.ended k)

theorem quiet_valid (a b : Arming κ) (valid : Valid a) (quiet : Quiet a b) : Valid b := by
  cases quiet with
  | stays => exact valid
  | creates key => exact creates_valid a key valid
  | stops e closed =>
      exact fewer_valid a _ valid rfl rfl (fun _ _ => id) (fun _ => true_before) (fun _ => false_stays) fun _ _ => id
  | removes e listed =>
      exact fewer_valid a _ valid rfl rfl (fun _ _ => some_before) (fun _ => true_before) (fun _ => false_stays)
        fun _ _ => id
  | fires k e pending idle => exact fires_valid a k e valid pending
  | unlists k e acting =>
      exact fewer_valid a _ valid rfl rfl (fun _ _ => some_before) (fun _ => id) (fun _ => id) fun _ _ => some_before
  | rearms k e acting => exact rearms_valid a k e valid acting
  | closes =>
      refine fewer_valid a _ valid rfl rfl (fun _ _ no => nomatch no) (fun e set => ?_) (fun e off => ?_) fun _ _ => id
      · dsimp only at set
        split at set
        next => cases set
        next => exact set
      · dsimp only
        split
        next => rfl
        next => exact off

theorem step_valid (a b : Arming κ) (valid : Valid a) (step : Step a b) : Valid b := by
  cases step with
  | quiet _ quiet => exact quiet_valid a b valid quiet
  | inserts e known opened =>
      refine ⟨fun key other listed => ?_, fun key other listed => ?_, valid.pending, valid.acting⟩
      · simp only [inserted, Function.update_apply] at listed
        split at listed
        next same => exact Option.some.inj listed ▸ same.symm
        next => exact valid.keyed key other listed
      · simp only [inserted, Function.update_apply] at listed
        split at listed
        next => exact Option.some.inj listed ▸ known
        next => exact valid.listed key other listed
  | ends k e acting =>
      refine ⟨valid.keyed, valid.listed, valid.pending, fun j other acts => ?_⟩
      obtain ⟨known, stopped, only⟩ := valid.acting j other (some_before acts)
      exact ⟨known, stopped, fun i also => only i (some_before also)⟩

theorem quiet_armed (a b : Arming κ) (valid : Valid a) (armed : Armed a) (quiet : Quiet a b) : Armed b := by
  intro opened key e
  cases quiet with
  | stays => exact armed opened key e
  | creates =>
      intro listed
      have old : e ≠ a.created := Nat.ne_of_lt (valid.listed key e listed)
      simpa only [Function.update_of_ne old] using armed opened key e listed
  | stops other closed => exact absurd (closed.symm.trans opened) (by decide)
  | removes other own =>
      intro listed
      have kept : a.registry key = some e := some_before listed
      have apart : e ≠ other := by
        rintro rfl
        simp [valid.keyed key e kept] at listed
      simpa only [Function.update_of_ne apart] using armed opened key e kept
  | fires k other pending idle =>
      intro listed
      by_cases same : e = other
      · exact .inr ⟨k, by simp [same]⟩
      · rcases armed opened key e listed with held | ⟨j, acts⟩
        · exact .inl (by simpa only [Function.update_of_ne same] using held)
        · refine .inr ⟨j, (Function.update_of_ne ?_ _ _).trans acts⟩
          rintro rfl
          exact absurd (idle.symm.trans acts) (by simp)
  | unlists k other acting =>
      intro listed
      have kept : a.registry key = some e := some_before listed
      have apart : e ≠ other := by
        rintro rfl
        simp [valid.keyed key e kept] at listed
      refine (armed opened key e kept).imp id ?_
      rintro ⟨j, acts⟩
      refine ⟨j, (Function.update_of_ne ?_ _ _).trans acts⟩
      rintro rfl
      exact apart (Option.some.inj (acts.symm.trans acting))
  | rearms k other acting =>
      intro listed
      by_cases same : e = other
      · exact .inl (by simp [same])
      · rcases armed opened key e listed with held | ⟨j, acts⟩
        · exact .inl (by simpa only [Function.update_of_ne same] using held)
        · refine .inr ⟨j, (Function.update_of_ne ?_ _ _).trans acts⟩
          rintro rfl
          exact same (Option.some.inj (acts.symm.trans acting))
  | closes => exact absurd opened (by simp)

end Arming
