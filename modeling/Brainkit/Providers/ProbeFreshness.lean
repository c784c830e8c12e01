import Brainkit.Providers.Configs
import Brainkit.Providers.Host

set_option autoImplicit false

-- The probes of the provider registry, with the entries that they write to step by step.
namespace Brainkit.Providers.Probing

open Function (update)
open GoText
open Brainkit.Modules (Table)
open Transition (run Along)

def textField {type : ConfigType} (config : Config type) (name : String) : GoString :=
  match config.entries.lookup name with
  | some (.text value) => value
  | _ => []

def orDefault (value fallback : GoString) : GoString := if value = [] then fallback else value

-- The providers whose models are listed under a base URL.
def defaultBaseURL : ConfigType → Option String
  | .openAIProviderConfig => some "https://api.openai.com/v1"
  | .anthropicProviderConfig => some "https://api.anthropic.com/v1"
  | .mistralProviderConfig => some "https://api.mistral.ai/v1"
  | .cohereProviderConfig => some "https://api.cohere.com/v2"
  | .groqProviderConfig => some "https://api.groq.com/openai/v1"
  | .perplexityProviderConfig => some "https://api.perplexity.ai"
  | .deepSeekProviderConfig => some "https://api.deepseek.com/v1"
  | .fireworksProviderConfig => some "https://api.fireworks.ai/inference/v1"
  | .togetherAIProviderConfig => some "https://api.together.xyz/v1"
  | .xaiProviderConfig => some "https://api.x.ai/v1"
  | .cerebrasProviderConfig => some "https://api.cerebras.ai/v1"
  | .huggingFaceProviderConfig => some "https://api-inference.huggingface.co"
  | _ => none

def probeEndpoint (reg : Registration) : GoString :=
  match reg.config with
  | none => []
  | some ⟨type, config⟩ =>
      let base := textField config "BaseURL"
      match type, defaultBaseURL type with
      | .googleProviderConfig, _ =>
          orDefault base (lit "https://generativelanguage.googleapis.com/v1beta") ++ lit "/models?key=" ++
            textField config "APIKey"
      | .azureProviderConfig, _ =>
          let resource := textField config "ResourceName"
          let base := if base = [] ∧ resource ≠ [] then
            lit "https://" ++ resource ++ lit ".openai.azure.com/openai" else base
          if base = [] then [] else base ++ lit "/models?api-version=2024-02-01"
      | _, some fallback => orDefault base (lit fallback) ++ lit "/models"
      | _, none => []

-- Where a recorded value comes from: no probe, or a probe of a configuration. A probe may have had none to read.
inductive Origin where
  | unprobed
  | probe (config : Option Nat)
deriving DecidableEq

-- A configuration has the number of the registration or the update that has set it.
structure Entry where
  registration : Registration
  config : Nat
  healthy : Bool
  lastErr : GoString
  healthyOf : Origin
  lastErrOf : Origin

-- ProbeAIProviderContext, ProbeVectorStore and ProbeStorage of the registry hold the entry that they have looked up.
inductive EntryProbe where
  | unborn
  | holding (kind : EntryKind) (entry config : Nat) (reg : Registration)
  | ended

-- ProbeVectorStoreContext and ProbeStorageContext of the Manager know their entry by its name. The script resolves it.
inductive JSProbe where
  | unborn
  | begun (kind : EntryKind) (name : GoString) (registered : Option Nat)
  | resolved (kind : EntryKind) (name : GoString) (config : Option Nat)
  | ended

-- What is recorded of an entry comes from a probe of the configuration that it has, or from none.
def Origin.Of (config : Nat) : Origin → Prop
  | .unprobed => True
  | .probe probed => probed = some config

def Entry.Fresh (e : Entry) : Prop := e.healthyOf.Of e.config ∧ e.lastErrOf.Of e.config

def JSProbe.reads (kind : EntryKind) (name : GoString) : JSProbe → Option (Option Nat)
  | .begun other target registered => if other = kind ∧ target = name then some registered else none
  | .resolved other target config => if other = kind ∧ target = name then some config else none
  | _ => none

-- cache has the configurations of the instances that the JavaScript runtime keeps; given has every configuration so far.
structure Probes where
  closed : Bool
  table : EntryKind → Table Nat
  entry : EntryKind → Nat → Entry
  clock : Nat
  given : Nat → Registration
  entryProbe : Nat → EntryProbe
  jsProbe : Nat → JSProbe
  cache : EntryKind → Table Nat

namespace Probes

def setEntry (kind : EntryKind) (e : Nat) (value : Entry) (s : Probes) : Probes :=
  { s with entry := update s.entry kind (update (s.entry kind) e value) }

def setEntryProbe (i : Nat) (probe : EntryProbe) (s : Probes) : Probes := { s with entryProbe := update s.entryProbe i probe }

def setJSProbe (j : Nat) (probe : JSProbe) (s : Probes) : Probes := { s with jsProbe := update s.jsProbe j probe }

def current (s : Probes) (kind : EntryKind) (name : GoString) : Option Nat :=
  ((s.table kind).lookup name).map fun e => (s.entry kind e).config

def pending (reg : Registration) (config : Nat) : Entry := ⟨reg, config, false, lit "probe pending", .unprobed, .unprobed⟩

-- Entries and configurations are numbered from one clock, and 0 is none of them.
def new : Probes :=
  { closed := false
    table := fun _ => ∅
    entry := fun _ _ => pending ⟨[], none⟩ 0
    clock := 1
    given := fun _ => ⟨[], none⟩
    entryProbe := fun _ => .unborn
    jsProbe := fun _ => .unborn
    cache := fun _ => ∅ }

def configure (reg : Registration) (s : Probes) : Probes :=
  { s with given := update s.given s.clock reg, clock := s.clock + 1 }

-- RegisterAIProvider, RegisterVectorStore and RegisterStorage. A probe of the new entry is one of the probes that follow.
def register (kind : EntryKind) (name : GoString) (reg : Registration) (s : Probes) : Except GoString Probes :=
  if name = [] then .error (kind.label ++ lit " name is required")
  else if s.closed then .error (lit "provider registry is closed")
  else .ok (({ s with table := update s.table kind ((s.table kind).insert name s.clock) }.setEntry kind s.clock
    (pending reg s.clock)).configure reg)

def updateAIProvider (name : GoString) (change : Registration → Except GoString Registration) (s : Probes) :
    Except GoString Probes :=
  if name = [] then .error (lit "provider name is required")
  else if s.closed then .error (lit "provider registry is closed")
  else match (s.table .provider).lookup name with
    | none => .ok s
    | some e => match change (s.entry .provider e).registration with
      | .error err => .error err
      | .ok reg => .ok ((s.setEntry .provider e (pending reg s.clock)).configure reg)

def unregister (kind : EntryKind) (name : GoString) (s : Probes) : Probes :=
  { s with table := update s.table kind ((s.table kind).erase name) }

def updateProbeResult (kind : EntryKind) (name : GoString) (healthy : Bool) (err : GoString) (of : Origin) (s : Probes) :
    Probes :=
  match (s.table kind).lookup name with
  | none => s
  | some e => s.setEntry kind e
      { s.entry kind e with healthy := healthy, lastErr := err, healthyOf := of, lastErrOf := of }

def awaited (of : Origin) (e : Entry) : Entry := { e with lastErr := lit "awaiting JS runtime probe", lastErrOf := of }

def found (healthy : Bool) (err : GoString) (of : Origin) (e : Entry) : Entry :=
  { e with healthy := healthy, lastErr := err, healthyOf := of, lastErrOf := of }

-- What a probe of the registry writes to the entry that it holds. A failure is that of the request.
def outcome (kind : EntryKind) (reg : Registration) (failure : Option GoString) (of : Origin) (e : Entry) : Entry :=
  match kind with
  | .provider =>
      if probeEndpoint reg = [] then found true (lit "probe not available for " ++ reg.type) of e
      else match failure with
        | some err => found false err of e
        | none => found true [] of e
  | .vectorStore => awaited of e
  | .storage => if reg.type = lit "memory" then found true [] of e else awaited of e

inductive Action where
  | register (kind : EntryKind) (name : GoString) (reg : Registration)
  | updateAIProvider (name : GoString) (change : Registration → Except GoString Registration)
  | unregister (kind : EntryKind) (name : GoString)
  | close
  | probe (i : Nat) (kind : EntryKind) (name : GoString)
  | probeEnds (i : Nat) (failure : Option GoString)
  | jsProbe (j : Nat) (kind : EntryKind) (name : GoString)
  | jsResolves (j : Nat)
  | jsProbeEnds (j : Nat) (healthy : Bool) (err : GoString)
  -- A deployment resolves a name, and clearCache.
  | resolves (kind : EntryKind) (name : GoString)
  | clearCache (kind : EntryKind) (name : GoString)

-- An instance that is there is used, else one is built of what is registered, and kept.
def resolve (kind : EntryKind) (name : GoString) (s : Probes) : Option Nat × Probes :=
  match (s.cache kind).lookup name, s.current kind name with
  | some config, _ => (some config, s)
  | none, some config => (some config, { s with cache := update s.cache kind ((s.cache kind).insert name config) })
  | none, none => (none, s)

def attempted (s : Probes) : Except GoString Probes → Probes
  | .ok next => next
  | .error _ => s

-- A probe by the JavaScript runtime can end before its script has resolved the name.
def step (s : Probes) : Action → Option Probes
  | .register kind name reg => some (s.attempted (s.register kind name reg))
  | .updateAIProvider name change => some (s.attempted (s.updateAIProvider name change))
  | .unregister kind name => some (s.unregister kind name)
  | .close => some { s with closed := true }
  | .probe i kind name => match s.entryProbe i with
      | .unborn => match (s.table kind).lookup name with
        | none => some (s.setEntryProbe i .ended)
        | some e => some (s.setEntryProbe i (.holding kind e (s.entry kind e).config (s.entry kind e).registration))
      | _ => none
  | .probeEnds i failure => match s.entryProbe i with
      | .holding kind e config reg => some ((s.setEntry kind e (outcome kind reg failure (.probe (some config))
          (s.entry kind e))).setEntryProbe i .ended)
      | _ => none
  | .jsProbe j kind name => match s.jsProbe j with
      | .unborn => if kind = .provider then none else some (s.setJSProbe j (.begun kind name (s.current kind name)))
      | _ => none
  | .jsResolves j => match s.jsProbe j with
      | .begun kind name _ => some ((s.resolve kind name).2.setJSProbe j (.resolved kind name (s.resolve kind name).1))
      | _ => none
  | .jsProbeEnds j healthy err => match s.jsProbe j with
      | .begun kind name registered =>
          some ((s.updateProbeResult kind name healthy err (.probe registered)).setJSProbe j .ended)
      | .resolved kind name config =>
          some ((s.updateProbeResult kind name healthy err (.probe config)).setJSProbe j .ended)
      | _ => none
  | .resolves kind name => some (s.resolve kind name).2
  | .clearCache kind name => some { s with cache := update s.cache kind ((s.cache kind).erase name) }

def Fresh (s : Probes) : Prop := ∀ kind name e, (s.table kind).lookup name = some e → (s.entry kind e).Fresh

-- No probe holds an entry that is updated, none of a name runs when it is registered anew, and the instance that the
-- JavaScript runtime keeps of a name is of what is registered.
def Ok (s : Probes) : Action → Prop
  | .register kind name _ => ∀ j, (s.jsProbe j).reads kind name = none
  | .updateAIProvider name _ => ∀ e, (s.table .provider).lookup name = some e →
      ∀ i config reg, s.entryProbe i ≠ .holding .provider e config reg
  | .jsResolves j => ∀ kind name registered, s.jsProbe j = .begun kind name registered →
      ∀ config now, (s.cache kind).lookup name = some config → s.current kind name = some now → config = now
  | _ => True

structure Valid (s : Probes) : Prop where
  within : ∀ kind name e, (s.table kind).lookup name = some e → e < s.clock
  fresh : ∀ kind e, (s.entry kind e).Fresh
  given : ∀ kind e, s.given (s.entry kind e).config = (s.entry kind e).registration
  set : ∀ kind e, (s.entry kind e).config < s.clock
  holding : ∀ i kind e config reg, s.entryProbe i = .holding kind e config reg →
    e < s.clock ∧ config = (s.entry kind e).config ∧ reg = (s.entry kind e).registration
  named : ∀ j kind name read, (s.jsProbe j).reads kind name = some read →
    kind ≠ .provider ∧ ∀ now, s.current kind name = some now → read = some now

variable {s : Probes} {kind : EntryKind} {name : GoString} {e : Nat} {value : Entry}

theorem entry_same : (s.setEntry kind e value).entry kind e = value := by simp [setEntry]

theorem entry_other {k : EntryKind} {f : Nat} (other : ¬ (k = kind ∧ f = e)) :
    (s.setEntry kind e value).entry k f = s.entry k f := by
  by_cases here : k = kind
  · subst here
    have apart : f ≠ e := fun same => other ⟨rfl, same⟩
    simp [setEntry, Function.update_of_ne apart]
  · simp [setEntry, Function.update_of_ne here]

theorem entry_kept (config : value.config = (s.entry kind e).config) (k : EntryKind) (f : Nat) :
    ((s.setEntry kind e value).entry k f).config = (s.entry k f).config := by
  by_cases here : k = kind ∧ f = e
  · obtain ⟨rfl, rfl⟩ := here
    rw [entry_same, config]
  · rw [entry_other here]

theorem current_kept (config : value.config = (s.entry kind e).config) (k : EntryKind) (n : GoString) :
    (s.setEntry kind e value).current k n = s.current k n := by
  have same : (fun f => ((s.setEntry kind e value).entry k f).config) = fun f => (s.entry k f).config :=
    funext fun f => entry_kept config k f
  unfold current
  rw [same]
  rfl

theorem written_valid (valid : s.Valid) (config : value.config = (s.entry kind e).config)
    (registration : value.registration = (s.entry kind e).registration) (fresh : value.Fresh) :
    (s.setEntry kind e value).Valid := by
  have same : ∀ k f, ((s.setEntry kind e value).entry k f).registration = (s.entry k f).registration := by
    intro k f
    by_cases here : k = kind ∧ f = e
    · obtain ⟨rfl, rfl⟩ := here
      rw [entry_same, registration]
    · rw [entry_other here]
  refine ⟨valid.within, ?_, ?_, ?_, ?_, ?_⟩
  · intro k f
    by_cases here : k = kind ∧ f = e
    · obtain ⟨rfl, rfl⟩ := here
      rwa [entry_same]
    · rw [entry_other here]
      exact valid.fresh k f
  · intro k f
    rw [entry_kept config, same]
    exact valid.given k f
  · intro k f
    rw [entry_kept config]
    exact valid.set k f
  · intro i k f c reg held
    rw [entry_kept config, same]
    exact valid.holding i k f c reg held
  · intro j k n read reads
    rw [current_kept config]
    exact valid.named j k n read reads

theorem recorded_valid {healthy : Bool} {err : GoString} {of : Origin} (valid : s.Valid)
    (origin : ∀ now, s.current kind name = some now → of.Of now) :
    (s.updateProbeResult kind name healthy err of).Valid := by
  unfold updateProbeResult
  split
  next => exact valid
  next e listed =>
    have fresh := origin (s.entry kind e).config (by simp [current, listed])
    exact written_valid valid rfl rfl ⟨fresh, fresh⟩

theorem outcome_config {reg : Registration} {failure : Option GoString} {of : Origin} :
    (outcome kind reg failure of value).config = value.config := by
  unfold outcome
  repeat' split
  all_goals rfl

theorem outcome_registration {reg : Registration} {failure : Option GoString} {of : Origin} :
    (outcome kind reg failure of value).registration = value.registration := by
  unfold outcome
  repeat' split
  all_goals rfl

theorem outcome_fresh {reg : Registration} {failure : Option GoString} {of : Origin} (fresh : value.Fresh)
    (origin : of.Of value.config) : (outcome kind reg failure of value).Fresh := by
  unfold outcome
  repeat' split
  · exact ⟨origin, origin⟩
  · exact ⟨origin, origin⟩
  · exact ⟨origin, origin⟩
  · exact ⟨fresh.1, origin⟩
  · exact ⟨origin, origin⟩
  · exact ⟨fresh.1, origin⟩

theorem pending_fresh (reg : Registration) (config : Nat) : (pending reg config).Fresh := ⟨trivial, trivial⟩

theorem configured_valid {reg : Registration} {table : EntryKind → Table Nat} (valid : s.Valid)
    (within : ∀ k n f, (table k).lookup n = some f → f < s.clock + 1)
    (unheld : ∀ i config held, s.entryProbe i ≠ .holding kind e config held)
    (named : ∀ j k n read, (s.jsProbe j).reads k n = some read → ∀ f, (table k).lookup n = some f →
      (s.table k).lookup n = some f ∧ ¬ (k = kind ∧ f = e)) :
    (({ s with table := table }.setEntry kind e (pending reg s.clock)).configure reg).Valid := by
  have other : ∀ k f, ¬ (k = kind ∧ f = e) →
      (({ s with table := table }.setEntry kind e (pending reg s.clock)).configure reg).entry k f = s.entry k f :=
    fun k f apart => entry_other apart
  have here : (({ s with table := table }.setEntry kind e (pending reg s.clock)).configure reg).entry kind e =
      pending reg s.clock := entry_same
  refine ⟨within, ?_, ?_, ?_, ?_, ?_⟩
  · intro k f
    by_cases same : k = kind ∧ f = e
    · obtain ⟨rfl, rfl⟩ := same
      rw [here]
      exact pending_fresh reg s.clock
    · rw [other k f same]
      exact valid.fresh k f
  · intro k f
    by_cases same : k = kind ∧ f = e
    · obtain ⟨rfl, rfl⟩ := same
      rw [here]
      exact Function.update_self ..
    · rw [other k f same]
      have older : (s.entry k f).config ≠ s.clock := Nat.ne_of_lt (valid.set k f)
      exact (Function.update_of_ne older ..).trans (valid.given k f)
  · intro k f
    by_cases same : k = kind ∧ f = e
    · obtain ⟨rfl, rfl⟩ := same
      rw [here]
      exact Nat.lt_succ_self s.clock
    · rw [other k f same]
      exact Nat.lt_succ_of_lt (valid.set k f)
  · intro i k f config held holds
    obtain ⟨old, reads⟩ := valid.holding i k f config held holds
    have apart : ¬ (k = kind ∧ f = e) := by
      rintro ⟨rfl, rfl⟩
      exact unheld i config held holds
    rw [other k f apart]
    exact ⟨Nat.lt_succ_of_lt old, reads⟩
  · intro j k n read reads
    obtain ⟨scripted, agrees⟩ := valid.named j k n read reads
    refine ⟨scripted, fun now registered => ?_⟩
    obtain ⟨f, listed, rfl⟩ := Option.map_eq_some_iff.mp registered
    obtain ⟨before, apart⟩ := named j k n read reads f listed
    rw [other k f apart]
    exact agrees _ (by simp [current, before])

theorem register_valid {reg : Registration} {next : Probes} (valid : s.Valid)
    (idle : ∀ j, (s.jsProbe j).reads kind name = none) (done : s.register kind name reg = .ok next) : next.Valid := by
  unfold register at done
  split at done
  next => cases done
  split at done
  next => cases done
  obtain rfl := Except.ok.inj done
  have lookups : ∀ k n f, ((update s.table kind ((s.table kind).insert name s.clock)) k).lookup n = some f →
      (k = kind ∧ n = name ∧ f = s.clock) ∨ (¬ (k = kind ∧ n = name) ∧ (s.table k).lookup n = some f) := by
    intro k n f listed
    by_cases same : k = kind
    · subst same
      rw [Function.update_self] at listed
      by_cases also : n = name
      · subst also
        rw [AList.lookup_insert] at listed
        exact .inl ⟨rfl, rfl, (Option.some.inj listed).symm⟩
      · rw [AList.lookup_insert_ne also] at listed
        exact .inr ⟨fun both => also both.2, listed⟩
    · rw [Function.update_of_ne same] at listed
      exact .inr ⟨fun both => same both.1, listed⟩
  refine configured_valid valid ?_ ?_ ?_
  · intro k n f listed
    rcases lookups k n f listed with ⟨-, -, rfl⟩ | ⟨-, old⟩
    · exact Nat.lt_succ_self s.clock
    · exact Nat.lt_succ_of_lt (valid.within k n f old)
  · intro i config held holds
    exact absurd (valid.holding i kind s.clock config held holds).1 (Nat.lt_irrefl _)
  · intro j k n read reads f listed
    rcases lookups k n f listed with ⟨rfl, rfl, -⟩ | ⟨-, old⟩
    · rw [idle j] at reads
      cases reads
    · exact ⟨old, fun both => absurd (valid.within k n f old) (both.2 ▸ Nat.lt_irrefl _)⟩

theorem updated_valid {change : Registration → Except GoString Registration} {next : Probes} (valid : s.Valid)
    (unheld : ∀ e, (s.table .provider).lookup name = some e →
      ∀ i config reg, s.entryProbe i ≠ .holding .provider e config reg)
    (done : s.updateAIProvider name change = .ok next) : next.Valid := by
  unfold updateAIProvider at done
  split at done
  next => cases done
  split at done
  next => cases done
  split at done
  next => exact Except.ok.inj done ▸ valid
  next e listed =>
    split at done
    next => cases done
    obtain rfl := Except.ok.inj done
    refine configured_valid valid (fun k n f old => Nat.lt_succ_of_lt (valid.within k n f old)) (unheld e listed) ?_
    intro j k n read reads f old
    exact ⟨old, fun both => (valid.named j k n read reads).1 both.1⟩

theorem unregistered_valid (valid : s.Valid) : (s.unregister kind name).Valid := by
  have lookups : ∀ k n f, ((update s.table kind ((s.table kind).erase name)) k).lookup n = some f →
      (s.table k).lookup n = some f := by
    intro k n f listed
    by_cases same : k = kind
    · subst same
      rw [Function.update_self] at listed
      exact Modules.lookup_erase_sub listed
    · rwa [Function.update_of_ne same] at listed
  refine ⟨fun k n f listed => valid.within k n f (lookups k n f listed), valid.fresh, valid.given, valid.set,
    valid.holding, fun j k n read reads => ?_⟩
  obtain ⟨scripted, agrees⟩ := valid.named j k n read reads
  refine ⟨scripted, fun now registered => ?_⟩
  obtain ⟨f, listed, rfl⟩ := Option.map_eq_some_iff.mp registered
  exact agrees _ (by simp [current, lookups k n f listed, unregister])

theorem held_valid {i : Nat} {probe : EntryProbe} (valid : s.Valid)
    (holding : ∀ k f config reg, probe = .holding k f config reg →
      f < s.clock ∧ config = (s.entry k f).config ∧ reg = (s.entry k f).registration) :
    (s.setEntryProbe i probe).Valid := by
  refine ⟨valid.within, valid.fresh, valid.given, valid.set, fun i' k f config reg holds => ?_, valid.named⟩
  by_cases same : i' = i
  · subst same
    exact holding k f config reg ((Function.update_self ..).symm.trans holds)
  · exact valid.holding i' k f config reg ((Function.update_of_ne same ..).symm.trans holds)

theorem scripted_valid {j : Nat} {probe : JSProbe} (valid : s.Valid)
    (named : ∀ k n read, probe.reads k n = some read →
      k ≠ .provider ∧ ∀ now, s.current k n = some now → read = some now) :
    (s.setJSProbe j probe).Valid := by
  refine ⟨valid.within, valid.fresh, valid.given, valid.set, valid.holding, fun j' k n read reads => ?_⟩
  by_cases same : j' = j
  · subst same
    have reads : probe.reads k n = some read := by simpa [setJSProbe] using reads
    exact named k n read reads
  · have reads : (s.jsProbe j').reads k n = some read := by simpa [setJSProbe, Function.update_of_ne same] using reads
    exact valid.named j' k n read reads

theorem resolve_rest : ∃ cache, (s.resolve kind name).2 = { s with cache := cache } := by
  unfold resolve
  split
  next => exact ⟨s.cache, rfl⟩
  next => exact ⟨_, rfl⟩
  next => exact ⟨s.cache, rfl⟩

theorem cached_valid (valid : s.Valid) (cache : EntryKind → Table Nat) : ({ s with cache := cache } : Probes).Valid :=
  ⟨valid.within, valid.fresh, valid.given, valid.set, valid.holding, valid.named⟩

theorem resolved_valid (valid : s.Valid) : (s.resolve kind name).2.Valid := by
  obtain ⟨cache, same⟩ : ∃ cache, (s.resolve kind name).2 = { s with cache := cache } := resolve_rest
  rw [same]
  exact cached_valid valid cache

theorem reads_begun {registered read : Option Nat} {k : EntryKind} {n : GoString}
    (reads : (JSProbe.begun kind name registered).reads k n = some read) : kind = k ∧ name = n ∧ registered = read := by
  have reads : (if kind = k ∧ name = n then some registered else none) = some read := reads
  split at reads
  next same => exact ⟨same.1, same.2, Option.some.inj reads⟩
  next => cases reads

theorem reads_resolved {config read : Option Nat} {k : EntryKind} {n : GoString}
    (reads : (JSProbe.resolved kind name config).reads k n = some read) : kind = k ∧ name = n ∧ config = read := by
  have reads : (if kind = k ∧ name = n then some config else none) = some read := reads
  split at reads
  next same => exact ⟨same.1, same.2, Option.some.inj reads⟩
  next => cases reads

theorem step_valid {action : Action} {next : Probes} (valid : s.Valid) (ok : Ok s action) (taken : step s action = some next) :
    next.Valid := by
  cases action with
  | register kind name reg =>
      obtain rfl := Option.some.inj taken
      cases done : s.register kind name reg with
      | error err => exact valid
      | ok next => exact register_valid valid ok done
  | updateAIProvider name change =>
      obtain rfl := Option.some.inj taken
      cases done : s.updateAIProvider name change with
      | error err => exact valid
      | ok next => exact updated_valid valid ok done
  | unregister kind name => exact Option.some.inj taken ▸ unregistered_valid valid
  | close =>
      obtain rfl := Option.some.inj taken
      exact ⟨valid.within, valid.fresh, valid.given, valid.set, valid.holding, valid.named⟩
  | probe i kind name =>
      simp only [step] at taken
      split at taken
      next =>
        split at taken
        next => exact Option.some.inj taken ▸ held_valid valid nofun
        next e listed =>
          refine Option.some.inj taken ▸ held_valid valid fun k f config reg same => ?_
          obtain ⟨rfl, rfl, rfl, rfl⟩ := EntryProbe.holding.inj same
          exact ⟨valid.within kind name e listed, rfl, rfl⟩
      all_goals cases taken
  | probeEnds i failure =>
      simp only [step] at taken
      split at taken
      next kind e config reg holds =>
        obtain ⟨within, rfl, rfl⟩ := valid.holding i kind e config reg holds
        refine Option.some.inj taken ▸ held_valid ?_ nofun
        exact written_valid valid outcome_config outcome_registration (outcome_fresh (valid.fresh kind e) rfl)
      next => cases taken
  | jsProbe j kind name =>
      simp only [step] at taken
      split at taken
      next =>
        split at taken
        next => cases taken
        next scripted =>
          refine Option.some.inj taken ▸ scripted_valid valid fun k n read reads => ?_
          obtain ⟨rfl, rfl, rfl⟩ := reads_begun reads
          exact ⟨scripted, fun now registered => registered⟩
      all_goals cases taken
  | jsResolves j =>
      simp only [step] at taken
      split at taken
      next kind name registered begun =>
        have reads : (s.jsProbe j).reads kind name = some registered := by simp [begun, JSProbe.reads]
        obtain ⟨scripted, agrees⟩ := valid.named j kind name registered reads
        refine Option.some.inj taken ▸ scripted_valid (resolved_valid valid) fun k n read reads => ?_
        obtain ⟨rfl, rfl, rfl⟩ := reads_resolved reads
        refine ⟨scripted, fun now current => ?_⟩
        obtain ⟨cache, same⟩ : ∃ cache, (s.resolve kind name).2 = { s with cache := cache } := resolve_rest
        have current : s.current kind name = some now := by rwa [same] at current
        -- The script reads the instance that is kept, else what is registered.
        unfold resolve
        split
        next config cached => rw [ok kind name registered begun config now cached current]
        next config _ here => rw [← here, current]
        next none => rw [current] at none; cases none
      all_goals cases taken
  | jsProbeEnds j healthy err =>
      simp only [step] at taken
      split at taken
      next kind name registered begun =>
        have reads : (s.jsProbe j).reads kind name = some registered := by simp [begun, JSProbe.reads]
        refine Option.some.inj taken ▸ scripted_valid (recorded_valid valid ?_) nofun
        exact (valid.named j kind name registered reads).2
      next kind name config resolved =>
        have reads : (s.jsProbe j).reads kind name = some config := by simp [resolved, JSProbe.reads]
        refine Option.some.inj taken ▸ scripted_valid (recorded_valid valid ?_) nofun
        exact (valid.named j kind name config reads).2
      next => cases taken
  | resolves kind name => exact Option.some.inj taken ▸ resolved_valid valid
  | clearCache kind name => exact Option.some.inj taken ▸ cached_valid valid _

theorem new_valid : new.Valid where
  within := nofun
  fresh := fun _ _ => pending_fresh _ _
  given := fun _ _ => rfl
  set := fun _ _ => Nat.one_pos
  holding := nofun
  named := nofun

def openAI (key : GoString) : Registration :=
  ⟨lit "openai", some ⟨.openAIProviderConfig, [("APIKey", .text key), ("BaseURL", .text []), ("Organization", .text []),
    ("Project", .text []), ("Headers", .headers none)], rfl⟩⟩

def store (url : GoString) : Registration :=
  ⟨lit "libsql", some ⟨.libSQLStorageConfig, [("URL", .text url), ("AuthToken", .text []), ("MaxRetries", .int 0),
    ("InitialBackoffMs", .int 0)], rfl⟩⟩

-- A probe that ends after an update of its entry, and one of a name that was registered anew in the meantime.
def updatedRun : List Action :=
  [.register .provider (lit "openai") (openAI (lit "old")), .probe 0 .provider (lit "openai"),
    .updateAIProvider (lit "openai") (fun _ => .ok (openAI (lit "new"))),
    .probeEnds 0 (some (lit "probe: authentication failed (HTTP 401)"))]

end Probes

end Brainkit.Providers.Probing
