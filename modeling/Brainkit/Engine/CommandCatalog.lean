import Brainkit.Library.GoText
import Mathlib.Data.List.Nodup

set_option autoImplicit false

namespace Brainkit.Engine

open Function (update)
open GoText

structure CommandSpec where
  topic : GoString
  mount : Nat
deriving DecidableEq

-- ordered is what the bindings are made from, byTopic what a topic is looked up in. They hold the same commands.
structure CommandRegistry where
  ordered : List CommandSpec
  byTopic : GoString → Option CommandSpec
  agrees : ∀ spec, spec ∈ ordered ↔ byTopic spec.topic = some spec
  keyed : ∀ topic spec, byTopic topic = some spec → spec.topic = topic
  distinct : (ordered.map CommandSpec.topic).Nodup

namespace CommandRegistry

def empty : CommandRegistry := ⟨[], fun _ => none, by simp, by simp, by simp⟩

def hasCommand (topic : GoString) (r : CommandRegistry) : Bool := (r.byTopic topic).isSome

theorem listed_iff (r : CommandRegistry) (topic : GoString) :
    topic ∈ r.ordered.map CommandSpec.topic ↔ r.hasCommand topic = true := by
  rw [hasCommand, Option.isSome_iff_exists, List.mem_map]
  constructor
  · intro ⟨spec, member, same⟩
    exact ⟨spec, same ▸ (r.agrees spec).mp member⟩
  · intro ⟨spec, found⟩
    have same := r.keyed topic spec found
    exact ⟨spec, (r.agrees spec).mpr (same ▸ found), same⟩

def insert (spec : CommandSpec) (r : CommandRegistry) (absent : r.byTopic spec.topic = none) : CommandRegistry where
  ordered := r.ordered ++ [spec]
  byTopic := update r.byTopic spec.topic (some spec)
  agrees other := by
    by_cases same : other.topic = spec.topic
    · have unlisted : other ∉ r.ordered := by
        intro member
        have found := (r.agrees other).mp member
        rw [same, absent] at found
        cases found
      simp [same, unlisted, eq_comm]
    · have different : other ≠ spec := fun equal => same (congrArg CommandSpec.topic equal)
      simp [Function.update_of_ne same, different, r.agrees other]
  keyed topic other found := by
    by_cases same : topic = spec.topic
    · rw [same, Function.update_self, Option.some.injEq] at found
      rw [same, found]
    · rw [Function.update_of_ne same] at found
      exact r.keyed topic other found
  distinct := by
    have fresh : spec.topic ∉ r.ordered.map CommandSpec.topic := by
      rw [listed_iff, hasCommand, absent]
      exact Bool.false_ne_true
    rw [List.map_append, List.map_singleton]
    exact List.Nodup.append r.distinct (List.nodup_singleton _) (by simpa using fresh)

def add (spec : CommandSpec) (r : CommandRegistry) : Except GoString CommandRegistry :=
  if spec.topic = [] then .error (lit "command topic is required")
  else match absent : r.byTopic spec.topic with
    | some _ => .error (lit "duplicate command topic registered: " ++ spec.topic)
    | none => .ok (r.insert spec absent)

theorem mem_erase_topic (specs : List CommandSpec) (topic : GoString) (distinct : (specs.map CommandSpec.topic).Nodup)
    (spec : CommandSpec) : spec ∈ specs.eraseP (fun other => other.topic = topic) ↔ spec ∈ specs ∧ spec.topic ≠ topic := by
  induction specs with
  | nil => simp
  | cons head rest ih =>
      obtain ⟨fresh, tail⟩ := List.nodup_cons.mp distinct
      by_cases here : head.topic = topic
      · have others : ∀ other ∈ rest, other.topic ≠ topic := by
          intro other member same
          exact fresh (List.mem_map.mpr ⟨other, member, same.trans here.symm⟩)
        rw [List.eraseP_cons_of_pos (by simpa using here)]
        constructor
        · exact fun member => ⟨List.mem_cons_of_mem head member, others spec member⟩
        · intro ⟨member, other⟩
          rcases List.mem_cons.mp member with rfl | later
          · exact absurd here other
          · exact later
      · rw [List.eraseP_cons_of_neg (by simpa using here), List.mem_cons, List.mem_cons, ih tail]
        constructor
        · intro either
          rcases either with rfl | ⟨member, other⟩
          · exact ⟨.inl rfl, here⟩
          · exact ⟨.inr member, other⟩
        · intro ⟨either, other⟩
          rcases either with rfl | member
          · exact .inl rfl
          · exact .inr ⟨member, other⟩

def remove (topic : GoString) (r : CommandRegistry) : CommandRegistry where
  ordered := r.ordered.eraseP fun spec => spec.topic = topic
  byTopic := update r.byTopic topic none
  agrees spec := by
    rw [mem_erase_topic r.ordered topic r.distinct]
    by_cases same : spec.topic = topic
    · simp [same]
    · simp [same, r.agrees spec]
  keyed other spec found := by
    by_cases same : other = topic
    · simp [same] at found
    · rw [Function.update_of_ne same] at found
      exact r.keyed other spec found
  distinct := r.distinct.sublist ((List.eraseP_sublist).map CommandSpec.topic)

@[simp] theorem remove_by_topic (topic : GoString) (r : CommandRegistry) :
    (r.remove topic).byTopic = update r.byTopic topic none := rfl

theorem add_ok (spec : CommandSpec) (r next : CommandRegistry) (added : r.add spec = .ok next) :
    spec.topic ≠ [] ∧ r.byTopic spec.topic = none ∧ next.byTopic = update r.byTopic spec.topic (some spec) := by
  unfold add at added
  split at added
  next => cases added
  next named =>
    split at added
    next => cases added
    next absent =>
      cases added
      exact ⟨named, absent, rfl⟩

end CommandRegistry

end Brainkit.Engine
