import Brainkit.Runtime.Resources

set_option autoImplicit false

namespace Brainkit.Runtime

open GoText Modules Tools Transition

namespace Resources

structure Keyed (s : Resources) : Prop where
  entries : ∀ key, ∀ entry ∈ s.entries.lookup key, key = entry.key
  refs : ∀ key, (s.refs.lookup key).isSome → ∃ type id, key = Runtime.key type id

variable {s next : Resources} {callerID : GoString}

theorem mem_bySource {source : GoString} {entry : Entry} :
    entry ∈ s.bySource source ↔ (∃ key, entry ∈ s.entries.lookup key) ∧ entry.source = source := by
  simp only [bySource, AList.mem_lookup_iff, List.mem_filter, List.mem_map, decide_eq_true_eq]
  constructor
  · rintro ⟨⟨⟨key, _⟩, member, rfl⟩, same⟩
    exact ⟨⟨key, member⟩, same⟩
  · rintro ⟨⟨key, member⟩, same⟩
    exact ⟨⟨⟨key, entry⟩, member, rfl⟩, same⟩

theorem remove_entries (removed : List (Entry × Visit)) (swept : Bool) :
    (s.remove removed swept).entries = eraseAll ((removed.map Prod.fst).map Entry.key) s.entries := by
  unfold remove
  dsimp only
  split <;> exact (dispatchCleanups_kept removed).entries

theorem remove_refs (removed : List (Entry × Visit)) (swept : Bool) :
    (s.remove removed swept).refs = if swept then eraseAll ((removed.map Prod.fst).map Entry.key) s.refs else s.refs := by
  unfold remove
  dsimp only
  split
  · exact congrArg (eraseAll _) (dispatchCleanups_kept removed).refs
  · exact (dispatchCleanups_kept removed).refs

theorem lookup_eraseAll_sub {α : Type} {table : Table α} {keys : List GoString} {key : GoString} {value : α}
    (found : value ∈ (eraseAll keys table).lookup key) : value ∈ table.lookup key := by
  rw [lookup_eraseAll] at found
  split at found
  · cases found
  · exact found

end Resources

end Brainkit.Runtime
