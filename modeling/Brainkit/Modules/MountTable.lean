import Mathlib.Data.List.AList
import Brainkit.Modules.Descriptor

set_option autoImplicit false

namespace Brainkit.Modules

open GoText

-- A Go map from module names.
abbrev Table (α : Type) := AList fun _ : GoString => α

theorem lookup_erase_sub {α : Type} {table : Table α} {key other : GoString} {value : α}
    (found : value ∈ (table.erase key).lookup other) : value ∈ table.lookup other := by
  by_cases here : other = key
  · rw [here, AList.lookup_erase] at found
    cases found
  · rwa [AList.lookup_erase_ne here] at found

-- The tables of a Kit under mountMu. A scope and a module are the number of the Mount call that they belong to.
structure MountTable where
  mounted : Table Nat
  modules : Table Nat
  descs : Table Descriptor
  mountOrder : List GoString

namespace MountTable

def new : MountTable := ⟨∅, ∅, ∅, []⟩

def reserve (id : GoString) (scope : Nat) (t : MountTable) : MountTable := { t with mounted := t.mounted.insert id scope }

def record (id : GoString) (mod : Nat) (desc : Descriptor) (t : MountTable) : MountTable :=
  { t with
    modules := t.modules.insert id mod
    descs := t.descs.insert id desc
    mountOrder := t.mountOrder ++ [id] }

def cancel (id : GoString) (t : MountTable) : MountTable := { t with mounted := t.mounted.erase id }

def forget (id : GoString) (t : MountTable) : MountTable :=
  { mounted := t.mounted.erase id
    modules := t.modules.erase id
    descs := t.descs.erase id
    mountOrder := t.mountOrder.erase id }

def mountedDependents (id : GoString) (t : MountTable) : List GoString :=
  sortStrings ((t.descs.entries.filter fun entry => entry.1 ≠ id && entry.2.requires.contains id).map Sigma.fst)

theorem no_dependents {id : GoString} {t : MountTable} (none : t.mountedDependents id = []) {name : GoString}
    {desc : Descriptor} (listed : t.descs.lookup name = some desc) (other : name ≠ id) : id ∉ desc.requires := by
  intro requires
  have member : ⟨name, desc⟩ ∈ t.descs.entries := AList.mem_lookup_iff.mp listed
  have dependent : name ∈ t.mountedDependents id := by
    refine mem_sortStrings.mpr (List.mem_map.mpr ⟨⟨name, desc⟩, List.mem_filter.mpr ⟨member, ?_⟩, rfl⟩)
    simpa using ⟨other, requires⟩
  exact List.not_mem_nil (none ▸ dependent)

end MountTable

end Brainkit.Modules
