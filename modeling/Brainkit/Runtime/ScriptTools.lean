import Brainkit.Runtime.ResourceAgreement
import Brainkit.Runtime.ResourceIsolation
import Brainkit.Tools.Resolve

set_option autoImplicit false

-- The tools that deployments register with kit.register, from the Go registry back into JavaScript.
namespace Brainkit.Runtime

open Function (update update_self update_of_ne update_apply)
open Transition (run Along along_cons)
open GoText Modules Tools Plugins Resources

-- What stands behind the number of an executor: a function of Go, or the closure of Domain.Register with its short name.
inductive Executor where
  | go (function : Nat)
  | script (shortName : GoString)
deriving DecidableEq

structure Registration where
  name : GoString
  source : GoString
  ref : Nat
deriving DecidableEq

-- What registrations and removals are to do: the registrations that stand, and the tools by their full names.
structure Meant where
  registrations : List Registration
  tools : GoString → Option RegisteredTool

-- objects are the refs of the entries of __kit_refs.
structure Scripts where
  resources : Resources
  executors : Nat → Executor
  objects : GoString → Option Nat
  meant : Meant

def toolKey (name : GoString) : GoString := key (lit "tool") name

namespace Meant

def registered (callerID : GoString) (registration : Registration) (executor : Nat) (meant : Meant) : Meant where
  registrations := registration :: meant.registrations
  tools :=
    let full := toolFullName callerID registration.name
    update meant.tools full (some (RegisteredTool.mk full (toolShortName registration.name) [] [] [] executor).completed)

def removed (callerID : GoString) (gone : Registration → Bool) (meant : Meant) : Meant where
  registrations := meant.registrations.filter fun registration => !gone registration
  tools name :=
    if meant.registrations.any fun registration => gone registration && toolFullName callerID registration.name = name then none
    else meant.tools name

end Meant

inductive Called where
  | ref (ref : Nat)
  | go (function : Nat)
  | notFound
deriving DecidableEq

namespace Scripts

def new (tools : ToolRegistry) : Scripts where
  resources := { Resources.new false with tools := tools }
  executors := .go
  objects _ := none
  meant := ⟨[], tools.lookup⟩

-- __brainkit.tools.execute
def execute (name : GoString) (s : Scripts) : Called :=
  match s.resources.refs.lookup (toolKey name), s.objects (toolKey name) with
  | some _, some ref => .ref ref
  | _, _ => .notFound

-- Domain.Call
def call (visit : Visit) (name : GoString) (s : Scripts) : Called :=
  match s.resources.tools.resolve name (visit.first s.resources.tools) (visit.second s.resources.tools) with
  | .ok tool => match s.executors tool.executor with
      | .go function => .go function
      | .script shortName => s.execute shortName
  | .error _ => .notFound

inductive Action where
  | register (current name : GoString) (ref executor : Nat)
  | unregister (current : GoString) (visit : Visit) (type name : GoString)
  | teardown (source : GoString) (removed : List (Entry × Visit)) (swept : Bool)

-- The executor of a registration is a new closure. A name that is taken is not registered again.
def step (callerID : GoString) (s : Scripts) : Action → Option Scripts
  | .register current name ref executor =>
      if ∀ tool ∈ s.resources.tools.tools, tool.executor ≠ executor then
        match s.resources.kitRegister callerID current (lit "tool") name executor with
        | .error _ => some s
        | .ok next =>
            if (s.resources.refs.lookup (toolKey name)).isSome then some s
            else some {
              resources := next
              executors := update s.executors executor (.script (toolShortName name))
              objects := update s.objects (toolKey name) (some ref)
              meant := s.meant.registered callerID ⟨name, orElse current (lit "unknown"), ref⟩ executor }
      else none
  | .unregister current visit type name => match s.resources.kitUnregister visit current type name with
      | .error _ => some s
      | .ok next => some { s with
          resources := next
          meant := s.meant.removed callerID fun registration => toolKey registration.name = key type name }
  | .teardown source removed swept => (s.resources.teardownFile source removed swept).map fun next =>
      { s with resources := next, meant := s.meant.removed callerID fun registration => registration.source = source }

structure Sound (callerID : GoString) (s : Scripts) : Prop where
  tools : ∀ name, s.resources.tools.lookup name = s.meant.tools name
  calls : ∀ registration ∈ s.meant.registrations, ∀ visit,
    s.call visit (toolFullName callerID registration.name) = .ref registration.ref

end Scripts

-- The three names of a tool denote one entry where nothing else answers to the plain one.
namespace Scripts

def Answers (name : GoString) (tool : RegisteredTool) : Prop :=
  tool.name = name ∨ isNewFormat name = false ∧ tool.shortName = name

def Stands (s : Scripts) (name : GoString) : Prop := ∃ registration ∈ s.meant.registrations, registration.name = name

def Unmistaken (callerID : GoString) (s : Scripts) (name : GoString) : Prop :=
  (s.Stands name → ∀ tool ∈ s.resources.tools.tools, Answers name tool → tool.name = toolFullName callerID name) ∧
    (¬ s.Stands name → isNewFormat name = false ∧ ∀ tool ∈ s.resources.tools.tools, ¬ Answers name tool)

variable (callerID : GoString)

-- A new name is its own short name and no registration that stands has its full name; and what is removed is not mistaken.
def Ok (s : Scripts) : Action → Prop
  | .register _ name _ _ => s.resources.refs.lookup (toolKey name) = none → toolShortName name = name ∧
      ∀ registration ∈ s.meant.registrations, toolFullName callerID registration.name ≠ toolFullName callerID name
  | .unregister current _ type name => ¬ s.resources.Refused current (key type name) →
      ∀ n, s.resources.cleanups.lookup (key type name) = some (.toolsUnregister n) → s.Unmistaken callerID n
  | .teardown source _ _ => ∀ entry ∈ s.resources.bySource source, s.Unmistaken callerID entry.id

structure Held (s : Scripts) (registration : Registration) : Prop where
  short : toolShortName registration.name = registration.name
  tool : ∃ tool, s.resources.tools.lookup (toolFullName callerID registration.name) = some tool ∧
    tool.shortName = registration.name ∧ s.executors tool.executor = .script registration.name
  ref : (s.resources.refs.lookup (toolKey registration.name)).isSome = true
  object : s.objects (toolKey registration.name) = some registration.ref
  entry : ∃ entry, s.resources.entries.lookup (toolKey registration.name) = some entry ∧ entry.source = registration.source ∧
    entry.id = registration.name
  cleanup : s.resources.cleanups.lookup (toolKey registration.name) = some (.toolsUnregister registration.name)

structure Valid (s : Scripts) : Prop where
  tools : ∀ name, s.resources.tools.lookup name = s.meant.tools name
  apart : ∀ a ∈ s.meant.registrations, ∀ b ∈ s.meant.registrations,
    toolFullName callerID a.name = toolFullName callerID b.name → a = b
  held : ∀ registration ∈ s.meant.registrations, Held callerID s registration
  entries : ∀ k entry, s.resources.entries.lookup k = some entry → entry.type = lit "tool" ∧ k = toolKey entry.id
  cleanups : ∀ k cleanup, s.resources.cleanups.lookup k = some cleanup →
    ∃ name, cleanup = .toolsUnregister name ∧ k = toolKey name

section

variable {callerID} {s next : Scripts}

theorem toolKey_inj {a b : GoString} (same : toolKey a = toolKey b) : a = b := List.append_cancel_left same

theorem new_valid (tools : ToolRegistry) : Valid callerID (new tools) where
  tools _ := rfl
  apart _ here := nomatch here
  held _ here := nomatch here
  entries _ _ here := nomatch here
  cleanups _ _ here := nomatch here

theorem resolve_full {tools : ToolRegistry} {name : GoString} {tool : RegisteredTool} {first second : List RegisteredTool}
    (found : tools.lookup name = some tool) : tools.resolve name first second = .ok tool := by
  unfold ToolRegistry.resolve
  rw [found]

theorem valid_sound (valid : Valid callerID s) : Sound callerID s := by
  refine ⟨valid.tools, fun registration stands visit => ?_⟩
  obtain ⟨-, ⟨tool, found, -, executor⟩, ref, object, -, -⟩ := valid.held registration stands
  obtain ⟨entry, here⟩ := Option.isSome_iff_exists.mp ref
  simp only [call, resolve_full found, executor, execute, here, object]

end

end Scripts

namespace Resources

variable {s : Resources} {callerID name : GoString} {visit : Visit}

theorem full_new (new : isNewFormat name = true) : toolFullName callerID name = name := if_pos new

theorem toolsUnregister_own {tool : RegisteredTool} (found : s.tools.lookup (toolFullName callerID name) = some tool)
    (short : tool.shortName = name)
    (only : ∀ tool ∈ s.tools.tools, Scripts.Answers name tool → tool.name = toolFullName callerID name) :
    s.toolsUnregister visit name = { s with tools := s.tools.unregister (toolFullName callerID name) } := by
  have resolved : s.resolved visit name = some (toolFullName callerID name) := by
    unfold resolved ToolRegistry.resolve
    split
    · next other here =>
        split at here
        · next exact' place =>
            cases here
            obtain ⟨member, same⟩ := ToolRegistry.lookup_some.mp place
            exact congrArg some (only _ member (.inl same))
        · next missing =>
            split at here
            · next new =>
                rw [full_new new, missing] at found
                cases found
            · next plain =>
                cases place : (visit.first s.tools).find? (·.shortName = name) with
                | none =>
                    rw [place] at here
                    cases here
                | some tool' =>
                    have member := (visit.first_perm s.tools).mem_iff.mp (List.mem_of_find?_eq_some place)
                    have same : tool'.shortName = name := by simpa using List.find?_some place
                    rw [place] at here
                    cases here
                    exact congrArg some (only _ member (.inr ⟨Bool.eq_false_of_not_eq_true plain, same⟩))
    · next err here =>
        exfalso
        split at here
        · cases here
        · next missing =>
            split at here
            · next new =>
                rw [full_new new, missing] at found
                cases found
            · obtain ⟨member, -⟩ := ToolRegistry.lookup_some.mp found
              have there : tool ∈ visit.first s.tools := (visit.first_perm s.tools).mem_iff.mpr member
              cases place : (visit.first s.tools).find? (·.shortName = name) with
              | none => exact absurd (by simpa using short) (List.find?_eq_none.mp place tool there)
              | some other =>
                  rw [place] at here
                  cases here
  unfold toolsUnregister
  rw [resolved]

theorem toolsUnregister_none (plain : isNewFormat name = false) (none : ∀ tool ∈ s.tools.tools, ¬ Scripts.Answers name tool) :
    s.toolsUnregister visit name = s := by
  have missing : s.tools.lookup name = .none := by
    cases place : s.tools.lookup name with
    | none => rfl
    | some tool =>
        obtain ⟨member, same⟩ := ToolRegistry.lookup_some.mp place
        exact absurd (.inl same) (none tool member)
  have resolved : s.resolved visit name = .none := by
    have place : (visit.first s.tools).find? (·.shortName = name) = .none := by
      refine List.find?_eq_none.mpr fun tool member short => ?_
      exact none tool ((visit.first_perm s.tools).mem_iff.mp member) (.inr ⟨plain, by simpa using short⟩)
    unfold resolved
    rw [ToolRegistry.resolve_short missing plain, place]
    rfl
  unfold toolsUnregister
  rw [resolved]

theorem kitUnregister_ok {next : Resources} {current type : GoString}
    (done : s.kitUnregister visit current type name = .ok next) :
    ¬ s.Refused current (key type name) ∧ next = s.unregister visit type name := by
  unfold kitUnregister at done
  split at done
  · next entry found =>
      split at done
      · cases done
      · next allowed =>
          refine ⟨fun refused => ?_, (Except.ok.inj done).symm⟩
          obtain ⟨other, here, differs⟩ := refused
          cases found.symm.trans here
          exact allowed differs
  · next missing =>
      refine ⟨fun refused => ?_, (Except.ok.inj done).symm⟩
      obtain ⟨other, here, -⟩ := refused
      cases missing.symm.trans here

theorem kitRegister_tool {next : Resources} {current : GoString} {executor : Nat}
    (done : s.kitRegister callerID current (lit "tool") name executor = .ok next) (fresh : s.refs.lookup (toolKey name) = none) :
    name ≠ [] ∧
    s.tools.register ⟨toolFullName callerID name, toolShortName name, [], [], [], executor⟩ = .ok next.tools ∧
    next.refs = s.refs.insert (toolKey name) ⟨orElse current (lit "unknown"), orElse name name⟩ ∧
    next.entries = s.entries.insert (toolKey name) ⟨lit "tool", name, orElse name name, orElse current (lit "unknown")⟩ ∧
    next.cleanups = s.cleanups.insert (toolKey name) (.toolsUnregister name) := by
  have missing : (s.refs.lookup (key (lit "tool") name)).isSome = false :=
    Option.isSome_eq_false_iff.mpr (Option.isNone_iff_eq_none.mpr fresh)
  unfold kitRegister at done
  rw [missing] at done
  split at done
  · cases done
  split at done
  · cases done
  · next some =>
      rw [if_neg Bool.false_ne_true, if_pos rfl] at done
      unfold toolsRegister at done
      split at done
      · next registered place =>
          split at place
          · next tools here =>
              cases place
              cases done
              exact ⟨some, here, rfl, rfl, rfl⟩
          · cases place
      · cases done

theorem remove_cleanups (removed : List (Entry × Visit)) (swept : Bool) :
    (s.remove removed swept).cleanups =
      if swept then eraseAll ((removed.map Prod.fst).map Entry.key) s.cleanups else s.cleanups := by
  unfold remove
  dsimp only
  split
  · exact congrArg (eraseAll _) (dispatchCleanups_kept removed).cleanups
  · exact (dispatchCleanups_kept removed).cleanups

theorem remove_tools (removed : List (Entry × Visit)) (swept : Bool) :
    (s.remove removed swept).tools = ({ s with
      entries := eraseAll ((removed.map Prod.fst).map Entry.key) s.entries }.dispatchCleanups removed).tools := by
  unfold remove
  dsimp only
  split <;> rfl

end Resources

namespace Scripts

section

variable {callerID : GoString} {s next : Scripts}

theorem completed_short {tool : RegisteredTool} (some : tool.shortName ≠ []) : tool.completed.shortName = tool.shortName := by
  unfold RegisteredTool.completed
  split
  · exact if_neg some
  · exact if_neg some

theorem completed_executor (tool : RegisteredTool) : tool.completed.executor = tool.executor := by
  unfold RegisteredTool.completed
  split <;> rfl

theorem held_frame {registration : Registration} (held : Held callerID s registration)
    (tools : next.resources.tools.lookup (toolFullName callerID registration.name) =
      s.resources.tools.lookup (toolFullName callerID registration.name))
    (executors : ∀ tool ∈ s.resources.tools.tools, next.executors tool.executor = s.executors tool.executor)
    (refs : next.resources.refs.lookup (toolKey registration.name) = s.resources.refs.lookup (toolKey registration.name))
    (objects : next.objects (toolKey registration.name) = s.objects (toolKey registration.name))
    (entries : next.resources.entries.lookup (toolKey registration.name) = s.resources.entries.lookup (toolKey registration.name))
    (cleanups : next.resources.cleanups.lookup (toolKey registration.name) =
      s.resources.cleanups.lookup (toolKey registration.name)) : Held callerID next registration := by
  obtain ⟨tool, found, short, executor⟩ := held.tool
  refine ⟨held.short, ⟨tool, tools.trans found, short, ?_⟩, ?_, objects.trans held.object, ?_, cleanups.trans held.cleanup⟩
  · rw [executors tool (ToolRegistry.lookup_some.mp found).1, executor]
  · rw [refs, held.ref]
  · obtain ⟨entry, here, same⟩ := held.entry
    exact ⟨entry, entries.trans here, same⟩

theorem register_valid {current name : GoString} {ref executor : Nat} {resources : Resources} (valid : Valid callerID s)
    (fresh : ∀ tool ∈ s.resources.tools.tools, tool.executor ≠ executor)
    (done : s.resources.kitRegister callerID current (lit "tool") name executor = .ok resources)
    (new : s.resources.refs.lookup (toolKey name) = none) (short : toolShortName name = name)
    (apart : ∀ registration ∈ s.meant.registrations, toolFullName callerID registration.name ≠ toolFullName callerID name) :
    Valid callerID {
      resources := resources
      executors := update s.executors executor (.script (toolShortName name))
      objects := update s.objects (toolKey name) (some ref)
      meant := s.meant.registered callerID ⟨name, orElse current (lit "unknown"), ref⟩ executor } := by
  obtain ⟨some, registered, refs, entries, cleanups⟩ := kitRegister_tool done new
  have own := ToolRegistry.lookup_register_self registered
  refine ⟨fun n => ?_, fun a here b there same => ?_, fun registration here => ?_, fun k entry here => ?_,
    fun k cleanup here => ?_⟩
  · dsimp only [Meant.registered]
    rw [update_apply]
    split
    · next same => exact same ▸ own
    · next other => exact (ToolRegistry.lookup_register_other registered other).trans (valid.tools n)
  · rcases List.mem_cons.mp here with rfl | here <;> rcases List.mem_cons.mp there with rfl | there
    · rfl
    · exact absurd same.symm (apart b there)
    · exact absurd same (apart a here)
    · exact valid.apart a here b there same
  · rcases List.mem_cons.mp here with rfl | old
    · refine ⟨short, ⟨_, own, ?_, ?_⟩, ?_, update_self .., ?_, ?_⟩
      · have filled : toolShortName name ≠ [] := by rwa [short]
        exact (completed_short filled).trans short
      · rw [completed_executor]
        exact (update_self ..).trans (congrArg Executor.script short)
      · dsimp only
        rw [refs, AList.lookup_insert]
        rfl
      · exact ⟨_, (congrArg (AList.lookup _) entries).trans (AList.lookup_insert _), rfl, rfl⟩
      · exact (congrArg (AList.lookup _) cleanups).trans (AList.lookup_insert _)
    · have differ : toolKey registration.name ≠ toolKey name := fun same =>
        apart registration old (congrArg (toolFullName callerID) (toolKey_inj same))
      refine held_frame (valid.held registration old) (ToolRegistry.lookup_register_other registered (apart registration old))
        (fun tool member => update_of_ne (fresh tool member) ..) ?_ (update_of_ne differ ..) ?_ ?_
      · exact (congrArg (AList.lookup _) refs).trans (AList.lookup_insert_ne differ)
      · exact (congrArg (AList.lookup _) entries).trans (AList.lookup_insert_ne differ)
      · exact (congrArg (AList.lookup _) cleanups).trans (AList.lookup_insert_ne differ)
  · dsimp only at here
    rw [entries] at here
    by_cases same : k = toolKey name
    · subst same
      cases (AList.lookup_insert _).symm.trans here
      exact ⟨rfl, rfl⟩
    · exact valid.entries k entry ((AList.lookup_insert_ne same).symm.trans here)
  · dsimp only at here
    rw [cleanups] at here
    by_cases same : k = toolKey name
    · subst same
      cases (AList.lookup_insert _).symm.trans here
      exact ⟨name, rfl, rfl⟩
    · exact valid.cleanups k cleanup ((AList.lookup_insert_ne same).symm.trans here)

theorem removed_valid {gone : Registration → Bool} {resources : Resources} (valid : Valid callerID s)
    (lost : ∀ registration ∈ s.meant.registrations, gone registration = true →
      resources.tools.lookup (toolFullName callerID registration.name) = none)
    (kept : ∀ name, (∀ registration ∈ s.meant.registrations, gone registration = true →
      toolFullName callerID registration.name ≠ name) → resources.tools.lookup name = s.resources.tools.lookup name)
    (others : ∀ registration ∈ s.meant.registrations, gone registration = false →
      resources.refs.lookup (toolKey registration.name) = s.resources.refs.lookup (toolKey registration.name) ∧
      resources.entries.lookup (toolKey registration.name) = s.resources.entries.lookup (toolKey registration.name) ∧
      resources.cleanups.lookup (toolKey registration.name) = s.resources.cleanups.lookup (toolKey registration.name))
    (entries : ∀ k entry, resources.entries.lookup k = some entry → s.resources.entries.lookup k = some entry)
    (cleanups : ∀ k cleanup, resources.cleanups.lookup k = some cleanup → s.resources.cleanups.lookup k = some cleanup) :
    Valid callerID { s with resources := resources, meant := s.meant.removed callerID gone } := by
  have standing {registration : Registration} (here : registration ∈ (s.meant.removed callerID gone).registrations) :
      registration ∈ s.meant.registrations ∧ gone registration = false := by
    obtain ⟨member, stays⟩ := List.mem_filter.mp here
    exact ⟨member, by simpa using stays⟩
  refine ⟨fun name => ?_, fun a here b there => valid.apart a (standing here).1 b (standing there).1, fun registration here => ?_,
    fun k entry here => valid.entries k entry (entries k entry here),
    fun k cleanup here => valid.cleanups k cleanup (cleanups k cleanup here)⟩
  · dsimp only [Meant.removed]
    split
    · next any =>
        obtain ⟨registration, member, found⟩ := List.any_eq_true.mp any
        obtain ⟨goes, same⟩ := Bool.and_eq_true_iff.mp found
        exact of_decide_eq_true same ▸ lost registration member goes
    · next none =>
        refine (kept name fun registration member goes same => none ?_).trans (valid.tools name)
        exact List.any_eq_true.mpr ⟨registration, member, Bool.and_eq_true_iff.mpr ⟨goes, decide_eq_true same⟩⟩
  · obtain ⟨member, stays⟩ := standing here
    obtain ⟨refs, entry, cleanup⟩ := others registration member stays
    refine held_frame (valid.held registration member) (kept _ fun other there goes same => ?_) (fun _ _ => rfl) refs rfl entry
      cleanup
    cases valid.apart other there registration member same
    cases stays.symm.trans goes

theorem unregister_valid {visit : Visit} {current type name : GoString} {resources : Resources} (valid : Valid callerID s)
    (ok : Ok callerID s (.unregister current visit type name))
    (done : s.resources.kitUnregister visit current type name = .ok resources) :
    Valid callerID { s with
      resources := resources
      meant := s.meant.removed callerID fun registration => toolKey registration.name = key type name } := by
  obtain ⟨allowed, rfl⟩ := kitUnregister_ok done
  cases here : s.resources.cleanups.lookup (key type name) with
  | none =>
      have cleaned : s.resources.cleaned visit (key type name) = s.resources := by
        unfold cleaned
        rw [here]
      have nobody {registration : Registration} (member : registration ∈ s.meant.registrations)
          (same : toolKey registration.name = key type name) : False := by
        have held := (valid.held registration member).cleanup
        rw [same, here] at held
        cases held
      unfold unregister
      rw [cleaned]
      refine removed_valid valid (fun registration member goes => (nobody member (of_decide_eq_true goes)).elim) (fun _ _ => rfl)
        (fun registration member stays => ⟨AList.lookup_erase_ne (of_decide_eq_false stays), rfl, rfl⟩) (fun _ _ => id)
        fun _ _ => id
  | some cleanup =>
      obtain ⟨n, rfl, same⟩ := valid.cleanups _ _ here
      have alone := ok allowed n here
      have cleaned : s.resources.cleaned visit (key type name) =
          { s.resources.toolsUnregister visit n with cleanups := s.resources.cleanups.erase (key type name) } := by
        unfold cleaned
        rw [here]
        rfl
      have goes {registration : Registration} (this : decide (toolKey registration.name = key type name) = true) :
          registration.name = n := toolKey_inj ((of_decide_eq_true this).trans same)
      have sub (k : GoString) (c : Cleanup) (found : (s.resources.cleanups.erase (key type name)).lookup k = some c) :
          s.resources.cleanups.lookup k = some c := lookup_erase_sub found
      unfold unregister
      rw [cleaned]
      by_cases stands : s.Stands n
      · obtain ⟨registration, member, rfl⟩ := stands
        obtain ⟨tool, found, short, -⟩ := (valid.held registration member).tool
        rw [toolsUnregister_own found short (alone.1 ⟨registration, member, rfl⟩)]
        refine removed_valid valid (fun other _ this => ?_) (fun other apart => ?_) (fun other _ stays => ?_) (fun _ _ => id) sub
        · rw [goes this]
          exact ToolRegistry.lookup_unregister_self _ _
        · exact ToolRegistry.lookup_unregister_other (apart registration member (decide_eq_true same.symm)).symm _
        · have differ := of_decide_eq_false stays
          exact ⟨AList.lookup_erase_ne differ, rfl, AList.lookup_erase_ne differ⟩
      · obtain ⟨plain, none⟩ := alone.2 stands
        rw [toolsUnregister_none plain none]
        refine removed_valid valid (fun other member this => (stands ⟨other, member, goes this⟩).elim) (fun _ _ => rfl)
          (fun other _ stays => ?_) (fun _ _ => id) sub
        have differ := of_decide_eq_false stays
        exact ⟨AList.lookup_erase_ne differ, rfl, AList.lookup_erase_ne differ⟩

theorem dispatched {stands : GoString → Prop} (removed : List (Entry × Visit)) {resources : Resources}
    (tools : ∀ e ∈ removed, e.1.type = lit "tool") (once : (removed.map fun e => e.1.id).Nodup)
    (own : ∀ e ∈ removed, stands e.1.id →
      ∃ tool, resources.tools.lookup (toolFullName callerID e.1.id) = some tool ∧ tool.shortName = e.1.id)
    (apart : ∀ a b, stands a → stands b → toolFullName callerID a = toolFullName callerID b → a = b)
    (only : ∀ e ∈ removed, stands e.1.id → ∀ tool ∈ resources.tools.tools, Answers e.1.id tool →
      tool.name = toolFullName callerID e.1.id)
    (stale : ∀ e ∈ removed, ¬ stands e.1.id →
      isNewFormat e.1.id = false ∧ ∀ tool ∈ resources.tools.tools, ¬ Answers e.1.id tool) :
    (∀ e ∈ removed, stands e.1.id → (resources.dispatchCleanups removed).tools.lookup (toolFullName callerID e.1.id) = none) ∧
      ∀ name, (∀ e ∈ removed, stands e.1.id → toolFullName callerID e.1.id ≠ name) →
        (resources.dispatchCleanups removed).tools.lookup name = resources.tools.lookup name := by
  induction removed generalizing resources with
  | nil => exact ⟨nofun, fun _ _ => rfl⟩
  | cons first rest ih =>
      obtain ⟨fresh, once⟩ := List.nodup_cons.mp once
      have tool := tools first List.mem_cons_self
      have cleaned : resources.dispatchCleanup first.1 first.2 = resources.toolsUnregister first.2 first.1.id := if_pos tool
      have unfolded : resources.dispatchCleanups (first :: rest) =
          (resources.toolsUnregister first.2 first.1.id).dispatchCleanups rest := by
        rw [← cleaned, dispatchCleanups, List.foldl_cons, dispatchCleanups]
      rw [unfolded]
      by_cases here : stands first.1.id
      · obtain ⟨mine, found, short⟩ := own first List.mem_cons_self here
        rw [toolsUnregister_own found short (only first List.mem_cons_self here)]
        have different {e : Entry × Visit} (member : e ∈ rest) (other : stands e.1.id) :
            toolFullName callerID e.1.id ≠ toolFullName callerID first.1.id := fun same =>
          fresh (List.mem_map.mpr ⟨e, member, apart _ _ other here same⟩)
        have fewer {tool : RegisteredTool}
            (member : tool ∈ (resources.tools.unregister (toolFullName callerID first.1.id)).tools) :
            tool ∈ resources.tools.tools := List.mem_of_mem_filter member
        have still (e : Entry × Visit) (member : e ∈ rest) (other : stands e.1.id) :
            ∃ tool, (resources.tools.unregister (toolFullName callerID first.1.id)).lookup (toolFullName callerID e.1.id) =
              some tool ∧ tool.shortName = e.1.id := by
          obtain ⟨tool, found', short'⟩ := own e (List.mem_cons_of_mem _ member) other
          exact ⟨tool, (ToolRegistry.lookup_unregister_other (different member other) _).trans found', short'⟩
        obtain ⟨gone, kept⟩ := @ih { resources with tools := resources.tools.unregister (toolFullName callerID first.1.id) }
          (fun e member => tools e (List.mem_cons_of_mem _ member)) once still
          (fun e member other tool there => only e (List.mem_cons_of_mem _ member) other tool (fewer there))
          fun e member other => (stale e (List.mem_cons_of_mem _ member) other).imp_right
            fun none tool there => none tool (fewer there)
        refine ⟨fun e member other => ?_, fun name free => ?_⟩
        · rcases List.mem_cons.mp member with rfl | later
          · refine (kept _ fun e member other => different member other).trans ?_
            exact ToolRegistry.lookup_unregister_self _ _
          · exact gone e later other
        · refine (kept name fun e member other => free e (List.mem_cons_of_mem _ member) other).trans ?_
          exact ToolRegistry.lookup_unregister_other (free first List.mem_cons_self here).symm _
      · obtain ⟨plain, none⟩ := stale first List.mem_cons_self here
        rw [toolsUnregister_none plain none]
        obtain ⟨gone, kept⟩ := ih (fun e member => tools e (List.mem_cons_of_mem _ member)) once
          (fun e member => own e (List.mem_cons_of_mem _ member)) (fun e member => only e (List.mem_cons_of_mem _ member))
          (fun e member => stale e (List.mem_cons_of_mem _ member))
        refine ⟨fun e member other => ?_, fun name free => kept name fun e member => free e (List.mem_cons_of_mem _ member)⟩
        rcases List.mem_cons.mp member with rfl | later
        · exact absurd other here
        · exact gone e later other

theorem bySource_once (valid : Valid callerID s) (source : GoString) : ((s.resources.bySource source).map Entry.id).Nodup := by
  have keys : (s.resources.entries.entries.map Sigma.fst).Nodup := s.resources.entries.nodupKeys
  have same : s.resources.entries.entries.map Sigma.fst =
      ((s.resources.entries.entries.map Sigma.snd).map Entry.id).map toolKey := by
    rw [List.map_map, List.map_map]
    refine List.map_congr_left fun entry member => ?_
    exact (valid.entries entry.1 entry.2 (AList.mem_lookup_iff.mpr member)).2
  rw [same] at keys
  exact keys.of_map.sublist (List.filter_sublist.map _)

theorem teardown_valid {source : GoString} {removed : List (Entry × Visit)} {swept : Bool} (valid : Valid callerID s)
    (ok : ∀ entry ∈ s.resources.bySource source, s.Unmistaken callerID entry.id)
    (perm : (removed.map Prod.fst).Perm (s.resources.bySource source)) :
    Valid callerID { s with
      resources := s.resources.remove removed swept
      meant := s.meant.removed callerID fun registration => registration.source = source } := by
  have listed {e : Entry × Visit} (member : e ∈ removed) : e.1 ∈ s.resources.bySource source :=
    perm.mem_iff.mp (List.mem_map_of_mem member)
  have found {e : Entry × Visit} (member : e ∈ removed) :
      s.resources.entries.lookup (toolKey e.1.id) = some e.1 ∧ e.1.type = lit "tool" ∧ e.1.source = source := by
    obtain ⟨⟨k, here⟩, same⟩ := mem_bySource.mp (listed member)
    obtain ⟨tool, rfl⟩ := valid.entries k e.1 here
    exact ⟨here, tool, same⟩
  have owner {e : Entry × Visit} (member : e ∈ removed) {registration : Registration}
      (stands : registration ∈ s.meant.registrations) (named : registration.name = e.1.id) : registration.source = source := by
    obtain ⟨entry, here, same, -⟩ := (valid.held registration stands).entry
    rw [named] at here
    cases (found member).1.symm.trans here
    exact same.symm.trans (found member).2.2
  have once : (removed.map fun e => e.1.id).Nodup := by
    have := (perm.map Entry.id).nodup_iff.mpr (bySource_once valid source)
    rwa [List.map_map] at this
  obtain ⟨gone, kept⟩ := @dispatched callerID s.Stands removed
    { s.resources with entries := eraseAll ((removed.map Prod.fst).map Entry.key) s.resources.entries }
    (fun e member => (found member).2.1) once
    (fun e member stands => by
      obtain ⟨registration, here, named⟩ := stands
      obtain ⟨tool, found, short, -⟩ := (valid.held registration here).tool
      rw [named] at found short
      exact ⟨tool, found, short⟩)
    (fun a b one other same => by
      obtain ⟨first, here, rfl⟩ := one
      obtain ⟨second, there, rfl⟩ := other
      exact congrArg Registration.name (valid.apart first here second there same))
    (fun e member => (ok e.1 (listed member)).1) fun e member => (ok e.1 (listed member)).2
  have keys {registration : Registration} (stands : registration ∈ s.meant.registrations)
      (other : decide (registration.source = source) = false) :
      toolKey registration.name ∉ (removed.map Prod.fst).map Entry.key := by
    intro here
    obtain ⟨entry, member, same⟩ := List.mem_map.mp here
    obtain ⟨e, inside, rfl⟩ := List.mem_map.mp member
    have key : e.1.key = toolKey e.1.id := congrArg (key · e.1.id) (found inside).2.1
    exact of_decide_eq_false other (owner inside stands (toolKey_inj (key.symm.trans same)).symm)
  refine removed_valid valid (fun registration stands goes => ?_) (fun name free => ?_) (fun registration stands other => ?_)
    (fun k entry here => ?_) fun k cleanup here => ?_
  · obtain ⟨entry, here, same, id⟩ := (valid.held registration stands).entry
    have source := same.trans (of_decide_eq_true goes)
    obtain ⟨e, member, rfl⟩ := List.mem_map.mp (perm.mem_iff.mpr (mem_bySource.mpr ⟨⟨_, here⟩, source⟩))
    rw [remove_tools, ← id]
    exact gone e member ⟨registration, stands, id.symm⟩
  · rw [remove_tools]
    refine kept name fun e member stands => ?_
    obtain ⟨registration, here, named⟩ := stands
    rw [← named]
    exact free registration here (decide_eq_true (owner member here named))
  · refine ⟨?_, ?_, ?_⟩
    · rw [remove_refs]
      split
      · rw [lookup_eraseAll, if_neg (keys stands other)]
      · rfl
    · rw [remove_entries, lookup_eraseAll, if_neg (keys stands other)]
    · rw [remove_cleanups]
      split
      · rw [lookup_eraseAll, if_neg (keys stands other)]
      · rfl
  · rw [remove_entries] at here
    exact lookup_eraseAll_sub here
  · rw [remove_cleanups] at here
    split at here
    · exact lookup_eraseAll_sub here
    · exact here

theorem step_valid {action : Action} (valid : Valid callerID s) (ok : Ok callerID s action)
    (taken : step callerID s action = some next) : Valid callerID next := by
  cases action with
  | register current name ref executor =>
      obtain ⟨fresh, taken⟩ := Option.ite_none_right_eq_some.mp taken
      split at taken
      · cases taken
        exact valid
      · next resources done =>
          split at taken
          · cases taken
            exact valid
          · next unknown =>
              cases taken
              have new : s.resources.refs.lookup (toolKey name) = none := by simpa using unknown
              exact register_valid valid fresh done new (ok new).1 (ok new).2
  | unregister current visit type name =>
      dsimp only [step] at taken
      split at taken
      · cases taken
        exact valid
      · next resources done =>
          cases taken
          exact unregister_valid valid ok done
  | teardown source removed swept =>
      obtain ⟨resources, done, rfl⟩ := Option.map_eq_some_iff.mp taken
      obtain ⟨perm, same⟩ := Option.ite_none_right_eq_some.mp done
      cases same
      exact teardown_valid valid ok perm

theorem scripts_sound {tools : ToolRegistry} {path : List Action} (ok : Along (step callerID) (Ok callerID) (new tools) path)
    (reached : run (step callerID) (new tools) path = some s) : Sound callerID s :=
  valid_sound (Transition.along_invariant (fun _ _ _ valid ok taken => step_valid valid ok taken) (new_valid tools) ok reached)

end

def acmeTool (shortName : GoString) : RegisteredTool :=
  ⟨lit "acme/p@1.0.0/" ++ shortName, shortName, lit "acme", lit "p", lit "1.0.0", 0⟩

def withAcme (shortName : GoString) : ToolRegistry := ⟨[acmeTool shortName], List.nodup_singleton _⟩

def pairRun : List Action :=
  [.register (lit "a.ts") (lit "x") 1 5, .register (lit "b.ts") (lit "z") 2 6,
    .unregister (lit "a.ts") .listed (lit "tool") (lit "x")]

instance (name : GoString) (tool : RegisteredTool) : Decidable (Answers name tool) := inferInstanceAs (Decidable (_ ∨ _ ∧ _))

theorem pairRun_sound : ∃ s, run (step (lit "kit")) (new (withAcme (lit "y"))) pairRun = some s ∧
    s.call .listed (toolFullName (lit "kit") (lit "x")) = .notFound ∧
    s.call .listed (toolFullName (lit "kit") (lit "z")) = .ref 2 ∧ Sound (lit "kit") s := by
  have along : Along (step (lit "kit")) (Ok (lit "kit")) (new (withAcme (lit "y"))) pairRun := by
    apply along_cons (fun _ => ⟨rfl, nofun⟩) rfl
    apply along_cons (fun _ => ⟨rfl, by decide⟩) rfl
    refine along_cons (fun _ n here => ?_) rfl trivial
    cases here
    refine ⟨fun _ => by decide +kernel, fun missing => absurd ⟨⟨lit "x", lit "a.ts", 1⟩, ?_, rfl⟩ missing⟩
    exact List.mem_cons_of_mem _ List.mem_cons_self
  exact ⟨_, rfl, by decide +kernel, by decide +kernel, scripts_sound along rfl⟩

def reversed : Visit :=
  ⟨fun tools => tools.tools.reverse, fun tools => tools.tools.reverse, fun _ => List.reverse_perm _, fun _ => List.reverse_perm _⟩

-- A name with a slash next to a plain one, and a tool of Go with the short name of a script's.
def slashRun : List Action := [.register (lit "a.ts") (lit "x") 1 5, .register (lit "b.ts") (lit "p/x") 2 6]

def sharedRun : List Action := [.register (lit "a.ts") (lit "x") 1 5, .unregister (lit "a.ts") reversed (lit "tool") (lit "x")]

-- The ref of another registration runs, and the tool of another owner is removed.
theorem tools_confused :
    (∃ s, run (step (lit "kit")) (new .new) slashRun = some s ∧
      ⟨lit "p/x", lit "b.ts", 2⟩ ∈ s.meant.registrations ∧ s.call .listed (toolFullName (lit "kit") (lit "p/x")) = .ref 1) ∧
    (∃ s, run (step (lit "kit")) (new (withAcme (lit "x"))) sharedRun = some s ∧
      s.resources.tools.lookup (acmeTool (lit "x")).name = none ∧
      (s.resources.tools.lookup (toolFullName (lit "kit") (lit "x"))).isSome = true) ∧
    ¬ ∀ tools path s, run (step (lit "kit")) (new tools) path = some s → Sound (lit "kit") s := by
  have slash : ∃ s, run (step (lit "kit")) (new .new) slashRun = some s ∧
      ⟨lit "p/x", lit "b.ts", 2⟩ ∈ s.meant.registrations ∧ s.call .listed (toolFullName (lit "kit") (lit "p/x")) = .ref 1 :=
    ⟨_, rfl, List.mem_cons_self, by decide +kernel⟩
  refine ⟨slash, ⟨_, rfl, by decide +kernel, by decide +kernel⟩, fun sound => ?_⟩
  obtain ⟨s, reached, stands, wrong⟩ := slash
  cases wrong.symm.trans ((sound _ _ s reached).calls _ stands .listed)

end Scripts

end Brainkit.Runtime
