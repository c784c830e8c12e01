import Brainkit.Library.GoText

set_option autoImplicit false

namespace Brainkit.Modules

open GoText

inductive CapabilityDirection where
  | provided
  | required
  | optional
deriving DecidableEq

def CapabilityDirection.text : CapabilityDirection → GoString
  | .provided => lit "provided"
  | .required => lit "required"
  | .optional => lit "optional"

structure CapabilityDescriptor where
  name : GoString
  direction : CapabilityDirection
  type : GoString
deriving DecidableEq

-- The parts of a module's manifest that mounting reads.
structure Descriptor where
  name : GoString
  requires : List GoString
  capabilities : List CapabilityDescriptor
deriving DecidableEq

def sortStrings (texts : List GoString) : List GoString := texts.mergeSort fun a b => !decide (b < a)

def uniqueStrings (texts : List GoString) : List GoString := sortStrings (texts.filter (· ≠ [])).eraseDups

def sameCapability (a b : CapabilityDescriptor) : Bool := a.direction = b.direction && a.name = b.name

def capabilityBefore (a b : CapabilityDescriptor) : Bool :=
  if a.name = b.name then !decide (b.direction.text < a.direction.text) else !decide (b.name < a.name)

def normalizeCapabilities (caps : List CapabilityDescriptor) : List CapabilityDescriptor :=
  ((caps.filter (·.name ≠ [])).eraseDupsBy sameCapability).mergeSort capabilityBefore

def normalizeDescriptor (name : GoString) (desc : Descriptor) : Descriptor :=
  { name := if desc.name = [] then name else desc.name
    requires := uniqueStrings desc.requires
    capabilities := normalizeCapabilities desc.capabilities }

def mountedModuleDescriptor (id : GoString) (desc : Descriptor) (mounted : List CapabilityDescriptor) : Descriptor :=
  normalizeDescriptor id { desc with
    capabilities := mounted.foldl (fun caps cap =>
      if cap.name = [] || caps.any (sameCapability cap) then caps else caps ++ [cap]) desc.capabilities }

theorem mem_sortStrings {text : GoString} {texts : List GoString} : text ∈ sortStrings texts ↔ text ∈ texts :=
  List.mem_mergeSort

theorem mem_uniqueStrings {text : GoString} {texts : List GoString} :
    text ∈ uniqueStrings texts ↔ text ∈ texts ∧ text ≠ [] := by
  rw [uniqueStrings, mem_sortStrings, List.mem_eraseDups]
  simp

theorem normalized_requires {name dep : GoString} {desc : Descriptor} :
    dep ∈ (normalizeDescriptor name desc).requires ↔ dep ∈ desc.requires ∧ dep ≠ [] := mem_uniqueStrings

theorem mounted_requires {id dep : GoString} {desc : Descriptor} {mounted : List CapabilityDescriptor} :
    dep ∈ (mountedModuleDescriptor id desc mounted).requires ↔ dep ∈ desc.requires ∧ dep ≠ [] := mem_uniqueStrings

section

variable {α : Type} {keep : α → Bool} {same le : α → α → Bool}

theorem erase_dups_by (symm : ∀ a b, same a b = same b a) (bound : Nat) (l : List α) (within : l.length ≤ bound) :
    (∀ b ∈ l.eraseDupsBy same, b ∈ l) ∧ (l.eraseDupsBy same).Pairwise fun a b => same a b = false := by
  induction bound generalizing l with
  | zero =>
      obtain rfl := List.eq_nil_of_length_eq_zero (Nat.le_zero.mp within)
      exact ⟨fun _ member => member, List.Pairwise.nil⟩
  | succ bound ih =>
      cases l with
      | nil => exact ⟨fun _ member => member, List.Pairwise.nil⟩
      | cons a l =>
          have shorter : (l.filter fun b => same b a = false).length ≤ bound :=
            Nat.le_trans (List.length_filter_le _ l) (Nat.le_of_succ_le_succ within)
          obtain ⟨within, apart⟩ := ih _ shorter
          rw [List.eraseDupsBy_cons]
          refine ⟨fun b member => ?_, List.pairwise_cons.mpr ⟨fun b member => ?_, apart⟩⟩
          · rcases List.mem_cons.mp member with rfl | member
            · exact List.mem_cons_self
            · exact List.mem_cons_of_mem _ (List.mem_filter.mp (within b member)).1
          · rw [symm]
            exact of_decide_eq_true (List.mem_filter.mp (within b member)).2

theorem erase_dups_id (l : List α) (apart : l.Pairwise fun a b => same a b = false) (symm : ∀ a b, same a b = same b a) :
    l.eraseDupsBy same = l := by
  induction apart with
  | nil => rfl
  | cons different _ ih =>
      rw [List.eraseDupsBy_cons, List.filter_eq_self.mpr, ih]
      intro b member
      exact decide_eq_true (symm _ _ ▸ different b member)

theorem normal_again (symm : ∀ a b, same a b = same b a) (trans : ∀ a b c, le a b → le b c → le a c)
    (total : ∀ a b, le a b || le b a) (l : List α) :
    (((((l.filter keep).eraseDupsBy same).mergeSort le).filter keep).eraseDupsBy same).mergeSort le =
      ((l.filter keep).eraseDupsBy same).mergeSort le := by
  obtain ⟨within, apart⟩ := erase_dups_by symm _ (l.filter keep) (Nat.le_refl _)
  have kept : (((l.filter keep).eraseDupsBy same).mergeSort le).filter keep =
      ((l.filter keep).eraseDupsBy same).mergeSort le :=
    List.filter_eq_self.mpr fun a member => (List.mem_filter.mp (within a (List.mem_mergeSort.mp member))).2
  have still := apart.perm (List.mergeSort_perm _ le).symm fun {a b} different => symm a b ▸ different
  rw [kept, erase_dups_id _ still symm, List.mergeSort_of_pairwise (List.pairwise_mergeSort trans total _)]

end

theorem not_before_trans (a b c : GoString) (first : !decide (b < a)) (second : !decide (c < b)) : !decide (c < a) := by
  simp only [Bool.not_eq_true', decide_eq_false_iff_not, List.not_lt] at *
  exact List.le_trans first second

theorem not_before_total (a b : GoString) : (!decide (b < a)) || !decide (a < b) := by
  simp only [Bool.or_eq_true, Bool.not_eq_true', decide_eq_false_iff_not, List.not_lt]
  exact List.le_total a b

theorem unique_again (texts : List GoString) : uniqueStrings (uniqueStrings texts) = uniqueStrings texts :=
  normal_again (fun a b => by rw [Bool.beq_comm]) not_before_trans not_before_total texts

theorem not_before_antisymm (a b : GoString) (first : !decide (b < a)) (second : !decide (a < b)) : a = b := by
  simp only [Bool.not_eq_true', decide_eq_false_iff_not, List.not_lt] at *
  exact List.le_antisymm first second

theorem capability_before_trans (a b c : CapabilityDescriptor) (first : capabilityBefore a b) (second : capabilityBefore b c) :
    capabilityBefore a c := by
  unfold capabilityBefore at *
  by_cases ab : a.name = b.name
  · by_cases bc : b.name = c.name
    · rw [if_pos ab] at first
      rw [if_pos bc] at second
      rw [if_pos (ab.trans bc)]
      exact not_before_trans _ _ _ first second
    · rw [if_neg bc] at second
      rwa [if_neg fun same => bc (ab.symm.trans same), ab]
  · rw [if_neg ab] at first
    by_cases bc : b.name = c.name
    · rwa [if_neg fun same => ab (same.trans bc.symm), ← bc]
    · rw [if_neg bc] at second
      by_cases ac : a.name = c.name
      · exact absurd (not_before_antisymm _ _ first (ac ▸ second)) ab
      · rw [if_neg ac]
        exact not_before_trans _ _ _ first second

theorem capability_before_total (a b : CapabilityDescriptor) : capabilityBefore a b || capabilityBefore b a := by
  unfold capabilityBefore
  by_cases same : a.name = b.name
  · rw [if_pos same, if_pos same.symm]
    exact not_before_total _ _
  · rw [if_neg same, if_neg (Ne.symm same)]
    exact not_before_total _ _

theorem capabilities_again (caps : List CapabilityDescriptor) :
    normalizeCapabilities (normalizeCapabilities caps) = normalizeCapabilities caps := by
  refine normal_again (fun a b => ?_) capability_before_trans capability_before_total caps
  unfold sameCapability
  rw [decide_eq_decide.mpr (@eq_comm _ a.direction b.direction), decide_eq_decide.mpr (@eq_comm _ a.name b.name)]

theorem normalized_again (name : GoString) (desc : Descriptor) :
    normalizeDescriptor (normalizeDescriptor name desc).name (normalizeDescriptor name desc) = normalizeDescriptor name desc := by
  simp only [normalizeDescriptor, unique_again, capabilities_again]
  congr 1
  exact ite_self _

end Brainkit.Modules
