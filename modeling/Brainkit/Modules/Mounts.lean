import Brainkit.Library.Transition
import Brainkit.Modules.MountTable

set_option autoImplicit false

namespace Brainkit.Modules

open Function (update)
open GoText Transition

inductive MountPhase where
  | checking
  | preflighting
  | requiring (todo : List GoString)
  | awaiting (dep : GoString) (child : Nat) (todo : List GoString)
  | rechecking (dep : GoString) (err : GoString) (todo : List GoString)
  | checkingAgain
  | preflightingAgain
  | reserving
  | mounting
  | closing (err : GoString)
  | cancelling (err : GoString)
  | recording (provided : List CapabilityDescriptor)
  | returned (err : Option GoString)
deriving DecidableEq

-- found and stamp are history: the requirements that the call has found mounted, and its own entry, each with the
-- number of times that Unmount had removed a module of that name by then.
structure MountCall where
  id : GoString
  desc : Descriptor
  phase : MountPhase
  found : List (GoString × Nat)
  stamp : Nat
deriving DecidableEq

inductive UnmountPhase where
  | dependents
  | lookup
  | closing (scope : Nat)
  | forgetting (scope : Nat)
  | returned (err : Option GoString)
deriving DecidableEq

structure UnmountCall where
  id : GoString
  phase : UnmountPhase
  checkedAt : Nat
deriving DecidableEq

-- Calls are numbered as they begin. removed, recordedAt and clock are history: how often Unmount has removed a module of
-- a name, and when one was recorded last. The clock counts the records.
structure Mounts where
  table : MountTable
  mount : Nat → MountCall
  mountCount : Nat
  unmount : Nat → UnmountCall
  unmountCount : Nat
  removed : GoString → Nat
  recordedAt : GoString → Nat
  clock : Nat

-- What the code outside mountMu answers: the preflight of the requirements and capabilities, the factory with the
-- descriptor of the module it builds, and the module's own Mount with what it has provided.
structure Answers where
  preflight : Option GoString
  build : Except GoString Descriptor
  mount : Except GoString (List CapabilityDescriptor)

def jsruntime : GoString := lit "jsruntime"

-- What the loop over the requirements and the branch for the JS runtime after it look at.
def requirements (id : GoString) (desc : Descriptor) : List GoString :=
  desc.requires ++ if id ≠ jsruntime ∧ jsruntime ∈ desc.requires then [jsruntime] else []

def MountCall.begin (id : GoString) (desc : Descriptor) : MountCall :=
  { id := id
    desc := normalizeDescriptor id desc
    phase := if id = [] then .returned (some (lit "brainkit: module ID is required")) else .checking
    found := []
    stamp := 0 }

namespace Mounts

def new : Mounts :=
  ⟨.new, fun _ => ⟨[], ⟨[], [], []⟩, .returned none, [], 0⟩, 0, fun _ => ⟨[], .returned none, 0⟩, 0, fun _ => 0,
    fun _ => 0, 0⟩

def setMount (f : Nat) (call : MountCall) (s : Mounts) : Mounts := { s with mount := update s.mount f call }

def setPhase (f : Nat) (phase : MountPhase) (s : Mounts) : Mounts := s.setMount f { s.mount f with phase := phase }

def require (f : Nat) (dep : GoString) (stamp : Nat) (todo : List GoString) (s : Mounts) : Mounts :=
  s.setMount f { s.mount f with phase := .requiring todo, found := (dep, stamp) :: (s.mount f).found }

def setUnmount (u : Nat) (call : UnmountCall) (s : Mounts) : Mounts := { s with unmount := update s.unmount u call }

def setUnmountPhase (u : Nat) (phase : UnmountPhase) (s : Mounts) : Mounts :=
  s.setUnmount u { s.unmount u with phase := phase }

def newMount (id : GoString) (desc : Descriptor) (s : Mounts) : Mounts :=
  { s.setMount s.mountCount (.begin id desc) with mountCount := s.mountCount + 1 }

def newUnmount (id : GoString) (s : Mounts) : Mounts :=
  { s.setUnmount s.unmountCount ⟨id, .dependents, 0⟩ with unmountCount := s.unmountCount + 1 }

section

variable (isPrint : Nat → Bool)

def alreadyMounted (id : GoString) : GoString := lit "brainkit: module " ++ quote isPrint id ++ lit " already mounted"

-- A descriptor that requires its own name is refused; the rest of the verdict is an answer.
def preflight (desc : Descriptor) (verdict : Option GoString) : Option GoString :=
  if desc.name ∈ desc.requires then
    some (verdict.getD (lit "brainkit: module " ++ quote isPrint desc.name ++
      lit " preflight failed before mount: errors: module " ++ quote isPrint desc.name ++ lit " cannot require itself"))
  else verdict

def advance (f : Nat) (a : Answers) (s : Mounts) : Option Mounts :=
  let id := (s.mount f).id
  let desc := (s.mount f).desc
  match (s.mount f).phase with
  | .checking =>
      if id ∈ s.table.mounted then some (s.setPhase f (.returned (some (alreadyMounted isPrint id))))
      else some (s.setPhase f .preflighting)
  | .preflighting => match preflight isPrint desc a.preflight with
      | some err => some (s.setPhase f (.returned (some err)))
      | none => some (s.setPhase f (.requiring (requirements id desc)))
  | .requiring [] => some (s.setPhase f .checkingAgain)
  | .requiring (dep :: todo) =>
      if dep = [] ∨ dep = id then some (s.setPhase f (.requiring todo))
      else if dep ∈ s.table.modules then some (s.require f dep (s.removed dep) todo)
      else match a.build with
        | .error err => some (s.setPhase f (.returned (some err)))
        | .ok built => some ((s.setPhase f (.awaiting dep s.mountCount todo)).newMount dep built)
  | .awaiting dep child todo => match (s.mount child).phase with
      | .returned none => some (s.require f dep (s.mount child).stamp todo)
      | .returned (some err) => some (s.setPhase f (.rechecking dep err todo))
      | _ => none
  | .rechecking dep err todo =>
      if dep ∈ s.table.modules then some (s.require f dep (s.removed dep) todo)
      else some (s.setPhase f (.returned (some err)))
  | .checkingAgain =>
      if id ∈ s.table.mounted then some (s.setPhase f (.returned (some (alreadyMounted isPrint id))))
      else some (s.setPhase f .preflightingAgain)
  | .preflightingAgain => match preflight isPrint desc a.preflight with
      | some err => some (s.setPhase f (.returned (some err)))
      | none => some (s.setPhase f .reserving)
  | .reserving =>
      if id ∈ s.table.mounted then some (s.setPhase f (.returned (some (alreadyMounted isPrint id))))
      else some { s.setMount f { s.mount f with phase := .mounting, stamp := s.removed id } with
        table := s.table.reserve id f }
  | .mounting => match a.mount with
      | .error err => some (s.setPhase f (.closing err))
      | .ok provided => some (s.setPhase f (.recording provided))
  | .closing err => some (s.setPhase f (.cancelling err))
  | .cancelling err =>
      some { s.setPhase f (.returned (some (lit "brainkit: mount " ++ quote isPrint id ++ lit ": " ++ err))) with
        table := s.table.cancel id }
  | .recording provided =>
      some { s.setMount f { s.mount f with phase := .returned none, stamp := s.removed id } with
        table := s.table.record id f (mountedModuleDescriptor id desc provided)
        recordedAt := update s.recordedAt id s.clock
        clock := s.clock + 1 }
  | .returned _ => none

def advanceUnmount (u : Nat) (closed : Option GoString) (s : Mounts) : Option Mounts :=
  let id := (s.unmount u).id
  match (s.unmount u).phase with
  | .dependents =>
      if s.table.mountedDependents id = [] then
        some (s.setUnmount u { s.unmount u with phase := .lookup, checkedAt := s.clock })
      else some (s.setUnmountPhase u (.returned (some (lit "brainkit: module " ++ quote isPrint id ++
        lit " is required by mounted module(s): " ++ (lit ", ").intercalate (s.table.mountedDependents id)))))
  | .lookup => match s.table.mounted.lookup id with
      | none => some (s.setUnmountPhase u (.returned (some (lit "brainkit: module " ++ quote isPrint id ++ lit " is not mounted"))))
      | some scope => some (s.setUnmountPhase u (.closing scope))
  | .closing scope => match closed with
      | some err => some (s.setUnmountPhase u (.returned (some err)))
      | none => some (s.setUnmountPhase u (.forgetting scope))
  | .forgetting scope =>
      if s.table.mounted.lookup id = some scope then
        some { s.setUnmountPhase u (.returned none) with
          table := s.table.forget id
          removed := update s.removed id (s.removed id + 1) }
      else some (s.setUnmountPhase u (.returned none))
  | .returned _ => none

end

inductive Action where
  | mount (id : GoString) (desc : Descriptor)
  | advance (f : Nat) (a : Answers)
  | unmount (id : GoString)
  | advanceUnmount (u : Nat) (closed : Option GoString)

def step (isPrint : Nat → Bool) (s : Mounts) : Action → Option Mounts
  | .mount id desc => some (s.newMount id desc)
  | .advance f a => if f < s.mountCount then s.advance isPrint f a else none
  | .unmount id => some (s.newUnmount id)
  | .advanceUnmount u closed => if u < s.unmountCount then s.advanceUnmount isPrint u closed else none

def Quiet (s : Mounts) : Prop :=
  (∀ f < s.mountCount, ∃ err, (s.mount f).phase = .returned err) ∧
    ∀ u < s.unmountCount, ∃ err, (s.unmount u).phase = .returned err

end Mounts

def MountPhase.left : MountPhase → Option (List GoString)
  | .checking | .preflighting | .returned (some _) => none
  | .requiring todo => some todo
  | .awaiting dep _ todo | .rechecking dep _ todo => some (dep :: todo)
  | _ => some []

def MountPhase.holds : MountPhase → Bool
  | .mounting | .closing _ | .cancelling _ | .recording _ => true
  | _ => false

def MountPhase.cleared : MountPhase → Bool
  | .reserving | .mounting | .closing _ | .cancelling _ | .recording _ => true
  | _ => false

namespace Mounts

variable {isPrint : Nat → Bool} {s next : Mounts} {f u : Nat} {a : Answers}

structure Moves (s : Mounts) (f : Nat) (phase : MountPhase) : Prop where
  running : ∀ err, (s.mount f).phase ≠ .returned err
  failed : phase ≠ .returned none
  alone : ∀ dep child todo, phase ≠ .awaiting dep child todo
  holds : phase.holds = (s.mount f).phase.holds
  cleared : phase.cleared = true → (s.mount f).phase.cleared = true ∨ (s.mount f).desc.name ∉ (s.mount f).desc.requires
  left : ∀ todo, phase.left = some todo → (∀ dep ∈ (s.mount f).desc.requires, dep ∈ todo) ∨
    ∃ before, (s.mount f).phase.left = some before ∧ ∀ dep ∈ before, dep = [] ∨ dep = (s.mount f).id ∨ dep ∈ todo

structure Finds (s : Mounts) (f : Nat) (dep : GoString) (stamp : Nat) (todo : List GoString) : Prop where
  running : ∀ err, (s.mount f).phase ≠ .returned err
  free : (s.mount f).phase.holds = false
  left : (s.mount f).phase.left = some (dep :: todo)
  found : (dep ∈ s.table.modules ∧ stamp = s.removed dep) ∨
    ∃ child, (s.mount f).phase = .awaiting dep child todo ∧ (s.mount child).phase = .returned none ∧
      stamp = (s.mount child).stamp

def reserved (f : Nat) (s : Mounts) : Mounts :=
  { s.setMount f { s.mount f with phase := .mounting, stamp := s.removed (s.mount f).id } with
    table := s.table.reserve (s.mount f).id f }

def cancelled (f : Nat) (err : GoString) (s : Mounts) : Mounts :=
  { s.setPhase f (.returned (some err)) with table := s.table.cancel (s.mount f).id }

def recorded (f : Nat) (provided : List CapabilityDescriptor) (s : Mounts) : Mounts :=
  { s.setMount f { s.mount f with phase := .returned none, stamp := s.removed (s.mount f).id } with
    table := s.table.record (s.mount f).id f (mountedModuleDescriptor (s.mount f).id (s.mount f).desc provided)
    recordedAt := update s.recordedAt (s.mount f).id s.clock
    clock := s.clock + 1 }

def forgotten (u : Nat) (s : Mounts) : Mounts :=
  { s.setUnmountPhase u (.returned none) with
    table := s.table.forget (s.unmount u).id
    removed := update s.removed (s.unmount u).id (s.removed (s.unmount u).id + 1) }

inductive Advances (s : Mounts) (f : Nat) : Mounts → Prop where
  | moves (phase : MountPhase) (how : Moves s f phase) : Advances s f (s.setPhase f phase)
  | finds (dep : GoString) (stamp : Nat) (todo : List GoString) (how : Finds s f dep stamp todo) :
      Advances s f (s.require f dep stamp todo)
  | builds (dep : GoString) (built : Descriptor) (todo : List GoString)
      (here : (s.mount f).phase = .requiring (dep :: todo)) :
      Advances s f ((s.setPhase f (.awaiting dep s.mountCount todo)).newMount dep built)
  | reserves (here : (s.mount f).phase = .reserving) (free : (s.mount f).id ∉ s.table.mounted) :
      Advances s f (s.reserved f)
  | cancels (err text : GoString) (here : (s.mount f).phase = .cancelling err) : Advances s f (s.cancelled f text)
  | records (provided : List CapabilityDescriptor) (here : (s.mount f).phase = .recording provided) :
      Advances s f (s.recorded f provided)

theorem preflight_none {desc : Descriptor} {verdict : Option GoString} (ready : preflight isPrint desc verdict = none) :
    desc.name ∉ desc.requires := by
  unfold preflight at ready
  split at ready
  · cases ready
  · assumption

theorem moves_failed {err : GoString} (running : ∀ err, (s.mount f).phase ≠ .returned err)
    (free : (s.mount f).phase.holds = false) : Moves s f (.returned (some err)) :=
  ⟨running, nofun, nofun, free.symm, nofun, nofun⟩

theorem advance_cases (taken : s.advance isPrint f a = some next) : Advances s f next := by
  cases here : (s.mount f).phase with
  | checking =>
      simp only [advance, here] at taken
      split at taken
      · cases taken
        exact .moves _ (moves_failed (by simp [here]) (by simp [here, MountPhase.holds]))
      · cases taken
        exact .moves _ ⟨by simp [here], nofun, nofun, by simp [here, MountPhase.holds], nofun, nofun⟩
  | preflighting =>
      simp only [advance, here] at taken
      split at taken
      · cases taken
        exact .moves _ (moves_failed (by simp [here]) (by simp [here, MountPhase.holds]))
      · cases taken
        refine .moves _ ⟨by simp [here], nofun, nofun, by simp [here, MountPhase.holds], nofun, fun todo left => .inl ?_⟩
        cases left
        exact fun dep member => List.mem_append_left _ member
  | requiring todo =>
      cases todo with
      | nil =>
          simp only [advance, here] at taken
          cases taken
          refine .moves _ ⟨by simp [here], nofun, nofun, by simp [here, MountPhase.holds], nofun, fun todo left => .inr ?_⟩
          exact ⟨[], by rw [here]; rfl, nofun⟩
      | cons dep todo =>
          simp only [advance, here] at taken
          split at taken
          case isTrue skipped =>
              cases taken
              refine .moves _ ⟨by simp [here], nofun, nofun, by simp [here, MountPhase.holds], nofun, fun rest left => .inr ?_⟩
              cases left
              refine ⟨dep :: todo, by rw [here]; rfl, fun other member => ?_⟩
              cases List.mem_cons.mp member with
              | inl same => exact same ▸ skipped.imp id Or.inl
              | inr later => exact .inr (.inr later)
          case isFalse =>
              split at taken
              case isTrue mounted =>
                  cases taken
                  exact .finds dep _ todo ⟨by simp [here], by rw [here]; rfl, by rw [here]; rfl, .inl ⟨mounted, rfl⟩⟩
              case isFalse =>
                  split at taken
                  · cases taken
                    exact .moves _ (moves_failed (by simp [here]) (by simp [here, MountPhase.holds]))
                  · cases taken
                    exact .builds dep _ todo here
  | awaiting dep child todo =>
      simp only [advance, here] at taken
      split at taken
      case h_1 done =>
          cases taken
          exact .finds dep _ todo ⟨by simp [here], by rw [here]; rfl, by rw [here]; rfl, .inr ⟨child, here, done, rfl⟩⟩
      case h_2 =>
          cases taken
          refine .moves _ ⟨by simp [here], nofun, nofun, by simp [here, MountPhase.holds], nofun, fun rest left => .inr ?_⟩
          cases left
          exact ⟨dep :: todo, by rw [here]; rfl, fun other member => .inr (.inr member)⟩
      case h_3 => cases taken
  | rechecking dep err todo =>
      simp only [advance, here] at taken
      split at taken
      case isTrue mounted =>
          cases taken
          exact .finds dep _ todo ⟨by simp [here], by rw [here]; rfl, by rw [here]; rfl, .inl ⟨mounted, rfl⟩⟩
      case isFalse =>
          cases taken
          exact .moves _ (moves_failed (by simp [here]) (by simp [here, MountPhase.holds]))
  | checkingAgain =>
      simp only [advance, here] at taken
      split at taken
      · cases taken
        exact .moves _ (moves_failed (by simp [here]) (by simp [here, MountPhase.holds]))
      · cases taken
        exact .moves _ ⟨by simp [here], nofun, nofun, by simp [here, MountPhase.holds], nofun,
          fun rest left => .inr ⟨[], by rw [here]; rfl, nofun⟩⟩
  | preflightingAgain =>
      simp only [advance, here] at taken
      split at taken
      · cases taken
        exact .moves _ (moves_failed (by simp [here]) (by simp [here, MountPhase.holds]))
      case h_2 ready =>
        cases taken
        exact .moves _ ⟨by simp [here], nofun, nofun, by simp [here, MountPhase.holds], fun _ => .inr (preflight_none ready),
          fun rest left => .inr ⟨[], by rw [here]; rfl, nofun⟩⟩
  | reserving =>
      simp only [advance, here] at taken
      split at taken
      · cases taken
        exact .moves _ (moves_failed (by simp [here]) (by simp [here, MountPhase.holds]))
      case isFalse free =>
        cases taken
        exact .reserves here free
  | mounting =>
      simp only [advance, here] at taken
      split at taken <;>
      · cases taken
        exact .moves _ ⟨by simp [here], nofun, nofun, by simp [here, MountPhase.holds], fun _ => .inl (by rw [here]; rfl),
          fun rest left => .inr ⟨[], by rw [here]; rfl, nofun⟩⟩
  | closing err =>
      simp only [advance, here] at taken
      cases taken
      exact .moves _ ⟨by simp [here], nofun, nofun, by simp [here, MountPhase.holds], fun _ => .inl (by rw [here]; rfl),
        fun rest left => .inr ⟨[], by rw [here]; rfl, nofun⟩⟩
  | cancelling err =>
      simp only [advance, here] at taken
      cases taken
      exact .cancels err _ here
  | recording provided =>
      simp only [advance, here] at taken
      cases taken
      exact .records provided here
  | returned err =>
      simp only [advance, here] at taken
      cases taken

end Mounts

end Brainkit.Modules
