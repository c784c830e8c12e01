import Brainkit.Providers.RuntimeCache

set_option autoImplicit false

-- What a resolve yields is of a configuration that is still registered, or has not been replaced by a call that had returned.
namespace Brainkit.RuntimeCache

open Function (update update_self update_of_ne update_apply)
open GoText Kernel
open Providers (EntryKind)
open Transition (run Along along_cons)

def Plain (crossing : Crossing) (name : JsString) : Prop :=
  crossing.payload name = crossing.argument name ∧ crossing.back (crossing.argument name) = name

variable (crossing : Crossing)

-- A script registers and resolves plain names. A name that is not registered is resolved only if no object literal inherits it,
-- the call that has changed it last has returned without an error, and, for a provider, nothing was configured at the start.
def Ok (s : Kernel) : Action → Prop
  | .add _ _ (.script name) _ _ => Plain crossing name
  | .remove _ _ (.script name) => Plain crossing name
  | .resolve _ kind name => Plain crossing name ∧ (s.registry kind (crossing.argument name) = none →
      name ∉ objectProperties ∧ ∀ m, s.last kind (crossing.argument name) = some m → returnedTrue s m = true)
  | .read r => ∀ q, s.resolves r = some q → q.kind = .provider → s.registry q.kind (crossing.argument q.name) = none →
      s.startup q.name = false
  | _ => True

-- The name was registered, and what a call that had returned before has replaced or removed is not what is yielded.
def Answered (s : Kernel) (q : Resolve) : Prop :=
  ∀ source registered, q.outcome = .yielded source registered → registered = true ∧ source ≠ .startup ∧
    ∀ m call, s.calls m = some call → call.kind = q.kind → call.name = crossing.argument q.name → q.before m = true →
      ∀ config ∈ s.replaced m, source ≠ .registered config

def Sound (s : Kernel) : Prop := ∀ r q, s.resolves r = some q → Answered crossing s q

def Spared (s : Kernel) (kind : EntryKind) (name : GoString) (config : Config) : Prop :=
  ∀ m call, s.calls m = some call → call.kind = kind → call.name = name → config ∈ s.replaced m → call.pc ≠ .returned true

def Known (s : Kernel) (kind : EntryKind) (name : GoString) : Prop :=
  s.registry kind name ≠ none ∨ ∃ m call, s.last kind name = some m ∧ s.calls m = some call ∧ call.pc ≠ .returned true

def Held (s : Kernel) (kind : EntryKind) (name : JsString) (source : Source) : Prop :=
  Plain crossing name ∧ ∃ config, source = .registered config ∧ Spared s kind (crossing.argument name) config ∧
    Known s kind (crossing.argument name)

def Unfinished (job : Job) : Prop := ∀ ok, job ≠ .done ok

def Aimed (call : Call) : Prop :=
  call.pc ≠ .returned false → ∀ name, Plain crossing name → crossing.argument name = call.name → call.cleared = name

structure Valid (s : Kernel) : Prop where
  idle : ∀ m, s.calls m = none → s.jobs m = none ∧ s.replaced m = []
  born : ∀ kind name m, .of m ∈ s.past kind name → s.calls m ≠ none
  bequest : ∀ m call, s.calls m = some call → ∀ config ∈ s.replaced m, config ∈ s.past call.kind call.name
  current : ∀ kind name entry, s.registry kind name = some entry → entry.config ∈ s.past kind name ∧
    ∀ m call, s.calls m = some call → call.kind = kind → call.name = name → entry.config ∉ s.replaced m
  last : ∀ kind name m, s.last kind name = some m → ∃ call, s.calls m = some call ∧ call.kind = kind ∧ call.name = name
  working : ∀ m job, s.jobs m = some job → Unfinished job →
    ∃ call, s.calls m = some call ∧ (call.pc = .waiting ∨ call.pc = .returned false)
  aimed : ∀ m call, s.calls m = some call → Aimed crossing call
  reading : ∀ r, s.turn = .reading r → ∃ q, s.resolves r = some q ∧ Plain crossing q.name
  building : ∀ r source, s.turn = .building r source → ∃ q, s.resolves r = some q ∧ Held crossing s q.kind q.name source
  cached : ∀ kind name source, s.cache kind name = some source → Held crossing s kind name source
  before : ∀ r q m, s.resolves r = some q → q.before m = true → returnedTrue s m = true
  sound : Sound crossing s

section

variable {crossing} {s next : Kernel}

theorem returnedTrue_iff {m : Nat} : returnedTrue s m = true ↔ ∃ call, s.calls m = some call ∧ call.pc = .returned true := by
  unfold returnedTrue
  constructor
  · intro here
    split at here
    · next call found => exact ⟨call, found, of_decide_eq_true here⟩
    · cases here
  · rintro ⟨call, found, pc⟩
    rw [found]
    exact decide_eq_true pc

theorem held_mono {kind : EntryKind} {name : JsString} {source : Source} (held : Held crossing s kind name source)
    (spared : ∀ config, Spared s kind (crossing.argument name) config → Spared next kind (crossing.argument name) config)
    (known : Known s kind (crossing.argument name) → Known next kind (crossing.argument name)) :
    Held crossing next kind name source := by
  obtain ⟨plain, config, same, here, there⟩ := held
  exact ⟨plain, config, same, spared config here, known there⟩

theorem new_valid (registry : EntryKind → GoString → Option GoString) (startup : JsString → Bool) (bridges : GoString → Bool) :
    Valid crossing (new registry startup bridges) where
  idle _ _ := ⟨rfl, rfl⟩
  born kind name m here := by
    dsimp only [Kernel.new] at here
    split at here
    · cases List.mem_singleton.mp here
    · cases here
  bequest _ _ here := nomatch here
  current kind name entry here := by
    obtain ⟨type, found, rfl⟩ := Option.map_eq_some_iff.mp here
    refine ⟨?_, nofun⟩
    dsimp only [Kernel.new]
    rw [found]
    exact List.mem_cons_self
  last _ _ _ here := nomatch here
  working _ _ here := nomatch here
  aimed _ _ here := nomatch here
  reading _ here := nomatch here
  building _ _ here := nomatch here
  cached _ _ _ here := nomatch here
  before _ _ _ here := nomatch here
  sound _ _ here := nomatch here

theorem change_valid {m : Nat} {call : Call} {entry : Option Entry} (valid : Valid crossing s) (found : s.calls m = some call)
    (pending : call.pc ≠ .returned true)
    (fresh : ∀ e, entry = some e → e.config = .of m ∧ ∀ kind name, .of m ∉ s.past kind name) :
    Valid crossing (s.change m call.kind call.name entry) := by
  have grows (kind : EntryKind) (name : GoString) {config : Config} (here : config ∈ s.past kind name) :
      config ∈ (s.change m call.kind call.name entry).past kind name := by
    dsimp only [Kernel.change]
    split
    · next same =>
        obtain ⟨rfl, rfl⟩ := same
        exact List.mem_append_right _ here
    · exact here
  have others {n : Nat} (apart : n ≠ m) : (s.change m call.kind call.name entry).replaced n = s.replaced n :=
    update_of_ne apart ..
  have own : (s.change m call.kind call.name entry).replaced m = s.past call.kind call.name := update_self ..
  have held {kind : EntryKind} {name : JsString} {source : Source} (here : Held crossing s kind name source) :
      Held crossing (s.change m call.kind call.name entry) kind name source := by
    refine held_mono here (fun config spared n other calls kind name gone => ?_) fun known => ?_
    · by_cases same : n = m
      · subst same
        cases found.symm.trans calls
        exact pending
      · rw [others same] at gone
        exact spared n other calls kind name gone
    · by_cases same : kind = call.kind ∧ crossing.argument name = call.name
      · exact .inr ⟨m, call, if_pos same, found, pending⟩
      · refine known.imp (fun registered => ?_) fun ⟨n, other, last, rest⟩ => ⟨n, other, (if_neg same).trans last, rest⟩
        dsimp only [Kernel.change]
        rwa [if_neg same]
  refine ⟨fun n none => ?_, fun kind name n here => ?_, fun n other calls config gone => ?_, fun kind name e here => ?_,
    fun kind name n here => ?_, valid.working, valid.aimed, valid.reading, fun r source here => ?_,
    fun kind name source here => held (valid.cached kind name source here), valid.before,
    fun r q here source registered answer => ?_⟩
  · have apart : n ≠ m := fun same => nomatch (same ▸ found).symm.trans none
    rw [others apart]
    exact valid.idle n none
  · dsimp only [Kernel.change] at here
    split at here
    · rcases List.mem_append.mp here with fresh' | old
      · obtain ⟨e, rfl, same⟩ : ∃ e, entry = some e ∧ e.config = .of n := by
          simpa only [Option.mem_toList, Option.map_eq_some_iff] using fresh'
        cases (fresh e rfl).1.symm.trans same
        exact fun none => nomatch found.symm.trans none
      · exact valid.born _ _ n old
    · exact valid.born _ _ n here
  · refine grows _ _ ?_
    by_cases same : n = m
    · subst same
      cases found.symm.trans calls
      rw [own] at gone
      exact gone
    · rw [others same] at gone
      exact valid.bequest n other calls config gone
  · by_cases place : kind = call.kind ∧ name = call.name
    · obtain ⟨rfl, rfl⟩ := place
      have same : entry = some e := (if_pos ⟨rfl, rfl⟩).symm.trans here
      obtain ⟨config, unknown⟩ := fresh e same
      rw [config]
      refine ⟨?_, fun n other calls sameKind sameName gone => ?_⟩
      · dsimp only [Kernel.change]
        rw [if_pos ⟨rfl, rfl⟩, same, Option.map_some, config]
        exact List.mem_cons_self
      · by_cases this : n = m
        · subst this
          rw [own] at gone
          exact unknown _ _ gone
        · rw [others this] at gone
          exact unknown _ _ (valid.bequest n other calls _ gone)
    · obtain ⟨old, kept⟩ := valid.current kind name e ((if_neg place).symm.trans here)
      refine ⟨grows kind name old, fun n other calls sameKind sameName => ?_⟩
      have apart : n ≠ m := by
        rintro rfl
        cases found.symm.trans calls
        exact place ⟨sameKind.symm, sameName.symm⟩
      rw [others apart]
      exact kept n other calls sameKind sameName
  · by_cases place : kind = call.kind ∧ name = call.name
    · cases (if_pos place).symm.trans here
      exact ⟨call, found, place.1.symm, place.2.symm⟩
    · exact valid.last kind name n ((if_neg place).symm.trans here)
  · obtain ⟨q, running, here⟩ := valid.building r source here
    exact ⟨q, running, held here⟩
  · obtain ⟨known, late, answered⟩ := valid.sound r q here source registered answer
    refine ⟨known, late, fun n other calls kind name earlier config gone => ?_⟩
    have apart : n ≠ m := by
      rintro rfl
      obtain ⟨other', calls', returned⟩ := returnedTrue_iff.mp (valid.before r q n here earlier)
      cases found.symm.trans calls'
      exact pending returned
    rw [others apart] at gone
    exact answered n other calls kind name earlier config gone

theorem enter_valid {m : Nat} {call : Call} (valid : Valid crossing s) (new : s.calls m = none) (pc : call.pc ≠ .returned true)
    (aim : Aimed crossing call) (turn : call.script = true → s.turn = .free) : Valid crossing (s.enter m call) := by
  have empty := (valid.idle m new).2
  have apart {n : Nat} {other : Call} (calls : s.calls n = some other) : n ≠ m :=
    fun same => nomatch (same ▸ new).symm.trans calls
  have kept {n : Nat} {other : Call} (calls : s.calls n = some other) : (s.enter m call).calls n = some other :=
    (update_of_ne (apart calls) ..).trans calls
  have either {n : Nat} {other : Call} (calls : (s.enter m call).calls n = some other) :
      n = m ∧ other = call ∨ s.calls n = some other := by
    dsimp only [Kernel.enter] at calls
    rw [update_apply] at calls
    split at calls
    · next same => exact .inl ⟨same, (Option.some.inj calls).symm⟩
    · exact .inr calls
  have held {kind : EntryKind} {name : JsString} {source : Source} (here : Held crossing s kind name source) :
      Held crossing (s.enter m call) kind name source := by
    refine held_mono here (fun config spared n other calls kind name gone => ?_) fun known => ?_
    · rcases either calls with ⟨rfl, rfl⟩ | old
      · exact pc
      · exact spared n other old kind name gone
    · exact known.imp_right fun ⟨n, other, last, calls, rest⟩ => ⟨n, other, last, kept calls, rest⟩
  have turns : (s.enter m call).turn = s.turn ∨ (s.enter m call).turn = .control m := by
    dsimp only [Kernel.enter]
    split
    · split
      · exact .inl rfl
      · exact .inr rfl
    · exact .inl rfl
  refine ⟨fun n none => ?_, fun kind name n here => ?_, fun n other calls config gone => ?_, fun kind name e here => ?_,
    fun kind name n here => ?_, fun n job here unfinished => ?_, fun n other calls => ?_, fun r here => ?_,
    fun r source here => ?_,
    fun kind name source here => held (valid.cached kind name source here), fun r q n here earlier => ?_,
    fun r q here source registered answer => ?_⟩
  · dsimp only [Kernel.enter] at none
    rw [update_apply] at none
    split at none
    · cases none
    · exact valid.idle n none
  · obtain ⟨other, calls⟩ := Option.ne_none_iff_exists'.mp (valid.born kind name n here)
    exact fun none => nomatch (kept calls).symm.trans none
  · rcases either calls with ⟨rfl, rfl⟩ | old
    · cases empty ▸ gone
    · exact valid.bequest n other old config gone
  · obtain ⟨old, fresh⟩ := valid.current kind name e here
    refine ⟨old, fun n other calls sameKind sameName gone => ?_⟩
    rcases either calls with ⟨rfl, rfl⟩ | before
    · cases empty ▸ gone
    · exact fresh n other before sameKind sameName gone
  · obtain ⟨other, calls, same⟩ := valid.last kind name n here
    exact ⟨other, kept calls, same⟩
  · obtain ⟨other, calls, same⟩ := valid.working n job here unfinished
    exact ⟨other, kept calls, same⟩
  · rcases either calls with ⟨rfl, rfl⟩ | old
    · exact aim
    · exact valid.aimed n other old
  · rcases turns with same | control
    · exact valid.reading r (same.symm.trans here)
    · cases control.symm.trans here
  · rcases turns with same | control
    · obtain ⟨q, running, this⟩ := valid.building r source (same.symm.trans here)
      exact ⟨q, running, held this⟩
    · cases control.symm.trans here
  · obtain ⟨other, calls, returned⟩ := returnedTrue_iff.mp (valid.before r q n here earlier)
    exact returnedTrue_iff.mpr ⟨other, kept calls, returned⟩
  · obtain ⟨known, late, answered⟩ := valid.sound r q here source registered answer
    refine ⟨known, late, fun n other calls kind name earlier config gone => ?_⟩
    rcases either calls with ⟨rfl, rfl⟩ | old
    · cases empty ▸ gone
    · exact answered n other old kind name earlier config gone

theorem move_valid {m : Nat} {call : Call} {pc : CallPc} {cache : EntryKind → JsString → Option Source} {turn : Turn}
    (valid : Valid crossing s) (found : s.calls m = some call) (pending : call.pc ≠ .returned true)
    (aim : pc ≠ .returned false → call.pc ≠ .returned false)
    (job : ∀ job, s.jobs m = some job → Unfinished job → pc = .waiting ∨ pc = .returned false)
    (fewer : ∀ kind name source, cache kind name = some source → s.cache kind name = some source)
    (turns : turn = s.turn ∨ turn = .free)
    (settled : pc = .returned true → turn = .free ∧
      ∀ name, Plain crossing name → call.name = crossing.argument name → cache call.kind name = none) :
    Valid crossing { s with calls := update s.calls m (some { call with pc := pc }), cache := cache, turn := turn } := by
  have either {n : Nat} {other : Call} (calls : update s.calls m (some { call with pc := pc }) n = some other) :
      n = m ∧ other = { call with pc := pc } ∨ n ≠ m ∧ s.calls n = some other := by
    rw [update_apply] at calls
    split at calls
    · next same => exact .inl ⟨same, (Option.some.inj calls).symm⟩
    · next apart => exact .inr ⟨apart, calls⟩
  have there {n : Nat} {other : Call} (calls : s.calls n = some other) :
      ∃ other', update s.calls m (some { call with pc := pc }) n = some other' ∧ other'.kind = other.kind ∧
        other'.name = other.name := by
    by_cases same : n = m
    · subst same
      cases found.symm.trans calls
      exact ⟨_, update_self .., rfl, rfl⟩
    · exact ⟨other, (update_of_ne same ..).trans calls, rfl, rfl⟩
  have held {kind : EntryKind} {name : JsString} {source : Source} (here : Held crossing s kind name source)
      (apart : pc ≠ .returned true ∨ ¬ (call.kind = kind ∧ call.name = crossing.argument name)) :
      Held crossing { s with calls := update s.calls m (some { call with pc := pc }), cache := cache, turn := turn }
        kind name source := by
    refine held_mono here (fun config spared n other calls sameKind sameName gone => ?_) fun known => ?_
    · rcases either calls with ⟨rfl, rfl⟩ | ⟨-, old⟩
      · exact apart.resolve_right fun differ => differ ⟨sameKind, sameName⟩
      · exact spared n other old sameKind sameName gone
    · refine known.imp_right fun ⟨n, other, last, calls, rest⟩ => ?_
      by_cases same : n = m
      · subst same
        refine ⟨n, { call with pc := pc }, last, update_self .., apart.resolve_right fun differ => differ ?_⟩
        obtain ⟨other', calls', place⟩ := valid.last _ _ n last
        cases found.symm.trans calls'
        exact place
      · exact ⟨n, other, last, (update_of_ne same ..).trans calls, rest⟩
  refine ⟨fun n none => ?_, fun kind name n here => ?_, fun n other calls config gone => ?_, fun kind name e here => ?_,
    fun kind name n here => ?_, fun n job' here unfinished => ?_, fun n other calls => ?_, fun r here => ?_,
    fun r source here => ?_,
    fun kind name source here => held (valid.cached kind name source (fewer _ _ _ here)) ?_, fun r q n here earlier => ?_,
    fun r q here source registered answer => ?_⟩
  · dsimp only at none
    rw [update_apply] at none
    split at none
    · cases none
    · exact valid.idle n none
  · obtain ⟨other, calls⟩ := Option.ne_none_iff_exists'.mp (valid.born kind name n here)
    obtain ⟨other', calls', -⟩ := there calls
    exact fun none => nomatch calls'.symm.trans none
  · rcases either calls with ⟨rfl, rfl⟩ | ⟨-, old⟩
    · exact valid.bequest n call found config gone
    · exact valid.bequest n other old config gone
  · obtain ⟨old, fresh⟩ := valid.current kind name e here
    refine ⟨old, fun n other calls sameKind sameName => ?_⟩
    rcases either calls with ⟨rfl, rfl⟩ | ⟨-, before⟩
    · exact fresh n call found sameKind sameName
    · exact fresh n other before sameKind sameName
  · obtain ⟨other, calls, sameKind, sameName⟩ := valid.last kind name n here
    obtain ⟨other', calls', kind', name'⟩ := there calls
    exact ⟨other', calls', kind'.trans sameKind, name'.trans sameName⟩
  · by_cases same : n = m
    · subst same
      exact ⟨_, update_self .., job job' here unfinished⟩
    · obtain ⟨other, calls, rest⟩ := valid.working n job' here unfinished
      exact ⟨other, (update_of_ne same ..).trans calls, rest⟩
  · rcases either calls with ⟨rfl, rfl⟩ | ⟨-, old⟩
    · exact fun unreturned => valid.aimed n call found (aim unreturned)
    · exact valid.aimed n other old
  · rcases turns with rfl | rfl
    · exact valid.reading r here
    · cases here
  · rcases turns with rfl | rfl
    · obtain ⟨q, running, this⟩ := valid.building r source here
      refine ⟨q, running, held this (.inl fun returned => ?_)⟩
      cases (settled returned).1.symm.trans here
    · cases here
  · by_cases returned : pc = .returned true
    · refine .inr fun place => ?_
      obtain ⟨rfl, same⟩ := place
      cases ((settled returned).2 name (valid.cached _ name source (fewer _ _ _ here)).1 same).symm.trans here
    · exact .inl returned
  · obtain ⟨other, calls, returned⟩ := returnedTrue_iff.mp (valid.before r q n here earlier)
    have apart : n ≠ m := by
      rintro rfl
      cases found.symm.trans calls
      exact pending returned
    exact returnedTrue_iff.mpr ⟨other, (update_of_ne apart ..).trans calls, returned⟩
  · obtain ⟨known, late, answered⟩ := valid.sound r q here source registered answer
    refine ⟨known, late, fun n other calls kind name earlier config gone => ?_⟩
    rcases either calls with ⟨rfl, rfl⟩ | ⟨-, old⟩
    · exact answered n call found kind name earlier config gone
    · exact answered n other old kind name earlier config gone

theorem goto_valid {m : Nat} {call : Call} {pc : CallPc} (valid : Valid crossing s) (found : s.calls m = some call)
    (pending : call.pc ≠ .returned true) (next : pc ≠ .returned true) (aim : pc ≠ .returned false → call.pc ≠ .returned false)
    (job : ∀ job, s.jobs m = some job → Unfinished job → pc = .waiting ∨ pc = .returned false) :
    Valid crossing (s.goto m call pc) :=
  move_valid valid found pending aim job (fun _ _ _ => id) (.inl rfl) fun returned => absurd returned next

theorem leave_valid {m : Nat} {call : Call} {cache : EntryKind → JsString → Option Source} (valid : Valid crossing s)
    (found : s.calls m = some call) (pending : call.pc ≠ .returned true)
    (fewer : ∀ kind name source, cache kind name = some source → s.cache kind name = some source) :
    Valid crossing ({ s with cache := cache }.leave m call false) := by
  refine move_valid valid found pending (fun other => absurd rfl other) (fun _ _ _ => .inr rfl) fewer ?_ nofun
  dsimp only
  split
  · exact .inr rfl
  · exact .inl rfl

theorem clear_fewer {kind : EntryKind} {cleared : JsString} (k : EntryKind) (name : JsString) (source : Source)
    (here : (s.clearCache kind cleared).cache k name = some source) : s.cache k name = some source := by
  dsimp only [Kernel.clearCache] at here
  split at here
  · cases here
  · exact here

theorem finish_valid {m : Nat} {call : Call} (valid : Valid crossing s) (found : s.calls m = some call)
    (changed : call.pc = .changed) (turn : s.turn = if call.script = true then .control m else .free) :
    Valid crossing ((s.clearCache call.kind call.cleared).leave m call true) := by
  have free : (if call.script = true then Turn.free else s.turn) = .free := by
    split
    · rfl
    · next manager => rw [turn, if_neg manager]
  refine move_valid valid found (by rw [changed]; exact nofun) (fun _ => by rw [changed]; exact nofun)
    (fun job here unfinished => ?_) clear_fewer (.inr free) fun _ => ⟨free, fun name plain same => ?_⟩
  · obtain ⟨other, calls, waiting⟩ := valid.working m job here unfinished
    cases found.symm.trans calls
    rw [changed] at waiting
    rcases waiting with waiting | returned
    · cases waiting
    · cases returned
  · have aimed := valid.aimed m call found (by rw [changed]; exact nofun) name plain same.symm
    dsimp only [Kernel.clearCache]
    rw [aimed]
    exact if_pos ⟨rfl, .inr rfl⟩

theorem setJob_valid {m : Nat} {call : Call} {job : Job} (valid : Valid crossing s) (found : s.calls m = some call)
    (working : Unfinished job → call.pc = .waiting ∨ call.pc = .returned false) : Valid crossing (s.setJob m job) := by
  refine ⟨fun n none => ?_, valid.born, valid.bequest, valid.current, valid.last, fun n other here unfinished => ?_, valid.aimed,
    valid.reading, valid.building, valid.cached, valid.before, valid.sound⟩
  · have apart : n ≠ m := fun same => nomatch (same ▸ found).symm.trans none
    exact ⟨(update_of_ne apart ..).trans (valid.idle n none).1, (valid.idle n none).2⟩
  · by_cases same : n = m
    · subst same
      cases (update_self ..).symm.trans here
      exact ⟨call, found, working unfinished⟩
    · exact valid.working n other ((update_of_ne same ..).symm.trans here) unfinished

theorem bridges_valid {bridges : GoString → Option Config} {closingBridges : GoString → Bool} (valid : Valid crossing s) :
    Valid crossing { s with bridges := bridges, closingBridges := closingBridges } :=
  ⟨valid.idle, valid.born, valid.bequest, valid.current, valid.last, valid.working, valid.aimed, valid.reading, valid.building,
    valid.cached, valid.before, valid.sound⟩

theorem setResolve_valid {r : Nat} {q : Resolve} {turn : Turn} (valid : Valid crossing s)
    (before : ∀ m, q.before m = true → returnedTrue s m = true) (answered : Answered crossing s q)
    (reading : ∀ r', turn = .reading r' → r' = r ∧ Plain crossing q.name)
    (building : ∀ r' source, turn = .building r' source → r' = r ∧ Held crossing s q.kind q.name source) :
    Valid crossing (s.setResolve r q turn) := by
  have own : (s.setResolve r q turn).resolves r = some q := update_self ..
  have either {r' : Nat} {q' : Resolve} (here : (s.setResolve r q turn).resolves r' = some q') :
      q' = q ∨ s.resolves r' = some q' := by
    dsimp only [Kernel.setResolve] at here
    rw [update_apply] at here
    split at here
    · exact .inl (Option.some.inj here).symm
    · exact .inr here
  refine ⟨valid.idle, valid.born, valid.bequest, valid.current, valid.last, valid.working, valid.aimed, fun r' here => ?_,
    fun r' source here => ?_, valid.cached, fun r' q' m here => ?_, fun r' q' here => ?_⟩
  · obtain ⟨rfl, plain⟩ := reading r' here
    exact ⟨q, own, plain⟩
  · obtain ⟨rfl, held⟩ := building r' source here
    exact ⟨q, own, held⟩
  · rcases either here with rfl | old
    · exact before m
    · exact valid.before r' q' m old
  · rcases either here with rfl | old
    · exact answered
    · exact valid.sound r' q' old

theorem held_answered {kind : EntryKind} {name : JsString} {before : Nat → Bool} {source : Source}
    (earlier : ∀ m, before m = true → returnedTrue s m = true) (held : Held crossing s kind name source) :
    Answered crossing s ⟨kind, name, before, .yielded source true⟩ := by
  obtain ⟨-, config, rfl, spared, -⟩ := held
  rintro source registered answer
  cases answer
  refine ⟨rfl, nofun, fun m call calls sameKind sameName listed config' gone same => ?_⟩
  cases same
  obtain ⟨other, calls', returned⟩ := returnedTrue_iff.mp (earlier m listed)
  cases calls.symm.trans calls'
  exact spared m call calls sameKind sameName gone returned

theorem failed_answered {kind : EntryKind} {name : JsString} {before : Nat → Bool} :
    Answered crossing s ⟨kind, name, before, .failed⟩ := nofun

theorem resolve_valid {r : Nat} {kind : EntryKind} {name : JsString} (valid : Valid crossing s)
    (ok : Ok crossing s (.resolve r kind name)) : Valid crossing (resolve crossing s r kind name) := by
  obtain ⟨plain, missing⟩ := ok
  have earlier (m : Nat) (here : returnedTrue s m = true) : returnedTrue s m = true := here
  unfold resolve
  split
  · next source hit =>
      have registered : s.registry kind (crossing.argument name) ≠ none := by
        intro none
        obtain ⟨own, settled⟩ := missing none
        rw [cached, if_neg own] at hit
        obtain ⟨-, config, -, -, known⟩ := valid.cached kind name source hit
        rcases known with here | ⟨m, call, last, calls, pending⟩
        · exact here none
        · obtain ⟨other, calls', returned⟩ := returnedTrue_iff.mp (settled m last)
          cases calls.symm.trans calls'
          exact pending returned
      rw [Option.isSome_iff_ne_none.mpr registered]
      refine setResolve_valid valid (fun _ => id) ?_ nofun nofun
      rw [cached] at hit
      split at hit
      · cases hit
        rintro source known answer
        cases answer
        exact ⟨rfl, nofun, fun _ _ _ _ _ _ _ _ => nofun⟩
      · exact held_answered earlier (valid.cached kind name source hit)
  · refine setResolve_valid valid (fun _ => id) nofun ?_ nofun
    rintro r' here
    cases here
    exact ⟨rfl, plain⟩

theorem read_valid {r : Nat} {q : Resolve} (valid : Valid crossing s) (found : s.resolves r = some q) (turn : s.turn = .reading r)
    (ok : Ok crossing s (.read r)) : Valid crossing (read crossing s r q) := by
  have before (m : Nat) (here : q.before m = true) := valid.before r q m found here
  have plain : Plain crossing q.name := by
    obtain ⟨q', here, plain⟩ := valid.reading r turn
    cases found.symm.trans here
    exact plain
  have failed : Valid crossing (s.setResolve r { q with outcome := .failed } .free) :=
    setResolve_valid valid before failed_answered nofun nofun
  dsimp only [read]
  split
  · next entry here =>
      generalize (if q.kind = .provider ∧ entry.type = [] then crossing.argument q.name else entry.type) = type
      split
      · refine setResolve_valid valid before (valid.sound r q found) nofun ?_
        rintro r' source same
        cases same
        obtain ⟨-, fresh⟩ := valid.current _ _ _ here
        refine ⟨rfl, plain, entry.config, rfl,
          fun m call calls kind name gone => absurd gone (fresh m call calls kind name), .inl ?_⟩
        rw [here]
        exact nofun
      · exact failed
  · next none =>
      split
      · next started =>
          cases (ok q found started.1 none).symm.trans started.2.1
      · exact failed

theorem build_valid {r : Nat} {q : Resolve} {source : Source} {ok : Bool} (valid : Valid crossing s)
    (found : s.resolves r = some q) (turn : s.turn = .building r source) : Valid crossing (build s r q source ok) := by
  have before (m : Nat) (here : q.before m = true) := valid.before r q m found here
  have held : Held crossing s q.kind q.name source := by
    obtain ⟨q', here, held⟩ := valid.building r source turn
    cases found.symm.trans here
    exact held
  unfold build
  split
  · have late : decide (source ≠ .startup) = true := by
      obtain ⟨-, config, rfl, -⟩ := held
      rfl
    rw [late]
    have answered : Valid crossing (s.setResolve r { q with outcome := .yielded source true } .free) :=
      setResolve_valid valid before (held_answered before held) nofun nofun
    refine ⟨answered.idle, answered.born, answered.bequest, answered.current, answered.last, answered.working, answered.aimed,
      answered.reading, answered.building, fun kind name other here => ?_, answered.before, answered.sound⟩
    dsimp only at here
    split at here
    · next same =>
        obtain ⟨rfl, rfl⟩ := same
        cases here
        exact held
    · exact valid.cached kind name other here
  · exact setResolve_valid valid before failed_answered nofun nofun

theorem origin_aimed {kind : EntryKind} {origin : Origin} {pc : CallPc}
    (plain : ∀ name, origin = .script name → Plain crossing name) : Aimed crossing (origin.call crossing kind pc) := by
  rintro - name here same
  cases origin with
  | manager own => exact (congrArg crossing.back same).symm.trans here.2
  | script own =>
      have mine := plain own rfl
      exact (mine.2.symm.trans (congrArg crossing.back (mine.1.symm.trans same.symm))).trans here.2

theorem admitted {m : Nat} {call : Call} (admits : Admits s m call) : s.calls m = none := Option.isNone_iff_eq_none.mp admits.1

theorem aimed_pc {call : Call} {pc : CallPc} (aimed : Aimed crossing call) (unreturned : call.pc ≠ .returned false) :
    Aimed crossing { call with pc := pc } := fun _ => aimed unreturned

theorem add_valid {m : Nat} {call : Call} {type : GoString} {sqlite : Bool} (valid : Valid crossing s) (admits : Admits s m call)
    (changed : call.pc = .changed) (aimed : Aimed crossing call) : Valid crossing (add s m call type sqlite) := by
  have new := admitted admits
  have unreturned : call.pc ≠ .returned false := by rw [changed]; exact nofun
  have pending : call.pc ≠ .returned true := by rw [changed]; exact nofun
  have registered : Valid crossing ((s.enter m call).change m call.kind call.name (some ⟨.of m, type⟩)) := by
    refine change_valid (enter_valid valid new pending aimed admits.2) (update_self ..) pending ?_
    rintro e same
    cases same
    exact ⟨rfl, fun kind name here => valid.born kind name m here new⟩
  unfold add
  split
  · exact registered
  · split
    · exact enter_valid valid new nofun (aimed_pc aimed unreturned) admits.2
    · exact bridges_valid registered

theorem remove_valid {m : Nat} {call : Call} (valid : Valid crossing s) (admits : Admits s m call) (changed : call.pc = .changed)
    (aimed : Aimed crossing call) : Valid crossing (remove s m call) := by
  have new := admitted admits
  have unreturned : call.pc ≠ .returned false := by rw [changed]; exact nofun
  have pending : call.pc ≠ .returned true := by rw [changed]; exact nofun
  unfold remove
  split
  · exact change_valid (enter_valid valid new pending aimed admits.2) (update_self ..) pending nofun
  split
  · exact enter_valid valid new nofun (aimed_pc aimed unreturned) admits.2
  split
  · exact enter_valid valid new nofun (aimed_pc aimed unreturned) admits.2
  · have waiting : Valid crossing (s.enter m { call with pc := .waiting }) :=
      enter_valid valid new nofun (aimed_pc aimed unreturned) admits.2
    exact bridges_valid (setJob_valid waiting (update_self ..) fun _ => .inl rfl)

theorem finishBridgeClose_valid {m : Nat} {key : GoString} {bridge : Config} {ok : Bool} (valid : Valid crossing s)
    (closing : s.jobs m = some (.closing key bridge)) : Valid crossing (finishBridgeClose s m key bridge ok) := by
  obtain ⟨call, found, working⟩ := valid.working m _ closing nofun
  have unmarked : Valid crossing { s with closingBridges := update s.closingBridges key false } := bridges_valid valid
  dsimp only [finishBridgeClose]
  split
  · exact setJob_valid unmarked found fun unfinished => absurd rfl (unfinished false)
  split
  · exact bridges_valid (setJob_valid unmarked found fun _ => working)
  · exact setJob_valid unmarked found fun unfinished => absurd rfl (unfinished true)

theorem step_valid {action : Action} (valid : Valid crossing s) (ok : Ok crossing s action)
    (taken : step crossing s action = some next) : Valid crossing next := by
  cases action with
  | add m kind origin type sqlite =>
      obtain ⟨⟨admits, -⟩, same⟩ := Option.ite_none_right_eq_some.mp taken
      cases same
      exact add_valid valid admits (by cases origin <;> rfl) (origin_aimed (by rintro name rfl; exact ok))
  | addFails m kind origin left =>
      obtain ⟨admits, same⟩ := Option.ite_none_right_eq_some.mp taken
      cases same
      have returned : (origin.call crossing kind (.returned false)).pc = .returned false := by cases origin <;> rfl
      refine bridges_valid (enter_valid valid (admitted admits) ?_ (absurd returned) admits.2)
      rw [returned]
      exact nofun
  | remove m kind origin =>
      obtain ⟨admits, same⟩ := Option.ite_none_right_eq_some.mp taken
      cases same
      exact remove_valid valid admits (by cases origin <;> rfl) (origin_aimed (by rintro name rfl; exact ok))
  | unregister m =>
      dsimp only [step] at taken
      split at taken
      · next call found =>
          obtain ⟨pc, same⟩ := Option.ite_none_right_eq_some.mp taken
          cases same
          have changed : Valid crossing (s.goto m call .changed) := by
            refine goto_valid valid found (by rw [pc]; exact nofun) nofun (fun _ => by rw [pc]; exact nofun)
              fun job here unfinished => ?_
            obtain ⟨other, calls, working⟩ := valid.working m job here unfinished
            cases found.symm.trans calls
            rw [pc] at working
            rcases working with working | working <;> cases working
          have here : (s.goto m call .changed).calls m = some { call with pc := .changed } := update_self ..
          exact @change_valid crossing (s.goto m call .changed) m { call with pc := .changed } none changed here nofun nofun
      · cases taken
  | bridgeCloses m ok' =>
      dsimp only [step] at taken
      split at taken
      · next closing =>
          cases taken
          exact finishBridgeClose_valid valid closing
      · cases taken
  | jobUnregisters m =>
      dsimp only [step] at taken
      split at taken
      · next call found job =>
          cases taken
          obtain ⟨other, calls, working⟩ := valid.working m _ job nofun
          cases found.symm.trans calls
          have done : Valid crossing (s.setJob m (.done true)) :=
            setJob_valid valid found fun unfinished => absurd rfl (unfinished true)
          refine change_valid done found ?_ nofun
          rcases working with working | working <;> rw [working] <;> exact nofun
      · cases taken
  | closed m =>
      dsimp only [step] at taken
      split at taken
      · next call result found job =>
          obtain ⟨pc, same⟩ := Option.ite_none_right_eq_some.mp taken
          cases same
          have pending : call.pc ≠ .returned true := by rw [pc]; exact nofun
          split
          · refine goto_valid valid found pending nofun (fun _ => by rw [pc]; exact nofun) fun other here unfinished => ?_
            cases job.symm.trans here
            exact absurd rfl (unfinished result)
          · exact leave_valid valid found pending fun _ _ _ => id
      · cases taken
  | timesOut m =>
      dsimp only [step] at taken
      split at taken
      · next call found =>
          obtain ⟨pc, same⟩ := Option.ite_none_right_eq_some.mp taken
          cases same
          exact leave_valid valid found (by rw [pc]; exact nofun) fun _ _ _ => id
      · cases taken
  | invalidate m ok' cleared =>
      dsimp only [step] at taken
      split at taken
      · next call found =>
          obtain ⟨⟨changed, turn⟩, same⟩ := Option.ite_none_right_eq_some.mp taken
          cases same
          by_cases fine : call.script = true ∨ ok' = true
          · have clears : call.script = true ∨ ok' = true ∨ cleared = true := fine.imp_right .inl
            rw [if_pos clears, decide_eq_true fine]
            exact finish_valid valid found changed (turn clears)
          · have pending : call.pc ≠ .returned true := by rw [changed]; exact nofun
            rw [decide_eq_false fine]
            split
            · exact leave_valid valid found pending clear_fewer
            · exact leave_valid valid found pending fun _ _ _ => id
      · cases taken
  | resolve r kind name =>
      obtain ⟨-, same⟩ := Option.ite_none_right_eq_some.mp taken
      cases same
      exact resolve_valid valid ok
  | read r =>
      dsimp only [step] at taken
      split at taken
      · next q found =>
          obtain ⟨turn, same⟩ := Option.ite_none_right_eq_some.mp taken
          cases same
          exact read_valid valid found turn ok
      · cases taken
  | build r ok' =>
      dsimp only [step] at taken
      split at taken
      · next q r' source found turn =>
          obtain ⟨rfl, same⟩ := Option.ite_none_right_eq_some.mp taken
          cases same
          exact build_valid valid found turn
      · cases taken

theorem run_valid {path : List Action} (valid : Valid crossing s) (ok : Along (step crossing) (Ok crossing) s path)
    (reached : run (step crossing) s path = some next) : Valid crossing next :=
  Transition.along_invariant (fun _ _ _ valid ok taken => step_valid valid ok taken) valid ok reached

theorem resolves_sound {registry : EntryKind → GoString → Option GoString} {startup : JsString → Bool}
    {bridges : GoString → Bool}
    {path : List Action} (ok : Along (step crossing) (Ok crossing) (new registry startup bridges) path)
    (reached : run (step crossing) (new registry startup bridges) path = some s) : Sound crossing s :=
  (run_valid (new_valid registry startup bridges) ok reached).sound

end

def asciiCrossing : Crossing where
  argument name := name.map UInt16.toUInt8
  payload name := name.map UInt16.toUInt8
  back name := name.map UInt8.toUInt16

def updatedRun : List Action :=
  [.add 0 .storage (.manager (lit "a")) (lit "memory") false, .invalidate 0 true true, .resolve 0 .storage (jsLit "a"), .read 0,
    .build 0 true, .add 1 .storage (.manager (lit "a")) (lit "postgres") false, .resolve 1 .storage (jsLit "a"),
    .invalidate 1 true true, .resolve 2 .storage (jsLit "a"), .read 2, .build 2 true, .remove 2 .storage (.script (jsLit "a")),
    .unregister 2, .invalidate 2 true true, .resolve 3 .storage (jsLit "a"), .read 3]

def outcome (s : Kernel) (r : Nat) : Option Outcome := (s.resolves r).map Resolve.outcome

def bare : Kernel := new (fun _ _ => none) (fun _ => false) fun _ => false

theorem updatedRun_sound : ∃ s, run (step asciiCrossing) bare updatedRun = some s ∧
    outcome s 1 = some (.yielded (.registered (.of 0)) true) ∧ outcome s 2 = some (.yielded (.registered (.of 1)) true) ∧
    outcome s 3 = some .failed ∧ Sound asciiCrossing s := by
  have along : Along (step asciiCrossing) (Ok asciiCrossing) bare updatedRun := by
    have plain : Plain asciiCrossing (jsLit "a") := ⟨rfl, rfl⟩
    apply along_cons trivial rfl
    apply along_cons trivial rfl
    apply along_cons ⟨plain, fun none => nomatch none⟩ rfl
    refine along_cons (fun q here storage => ?_) rfl ?_
    · cases here
      cases storage
    apply along_cons trivial rfl
    apply along_cons trivial rfl
    apply along_cons ⟨plain, fun none => nomatch none⟩ rfl
    apply along_cons trivial rfl
    apply along_cons ⟨plain, fun none => nomatch none⟩ rfl
    refine along_cons (fun q here storage => ?_) rfl ?_
    · cases here
      cases storage
    apply along_cons trivial rfl
    apply along_cons (by exact plain) rfl
    apply along_cons trivial rfl
    apply along_cons trivial rfl
    refine along_cons ⟨plain, fun _ => ⟨by decide, fun m last => ?_⟩⟩ rfl ?_
    · cases last
      rfl
    refine along_cons (fun q here storage => ?_) rfl trivial
    cases here
    cases storage
  exact ⟨_, rfl, rfl, rfl, rfl, resolves_sound along rfl⟩

-- A name that an object literal inherits, a provider that is removed after it was configured at the start, and a removal that
-- gives up and unregisters later.
def inheritedRun : List Action := [.resolve 0 .storage (jsLit "toString")]

def startupRun : List Action :=
  [.remove 0 .provider (.manager (lit "openai")), .invalidate 0 true true, .resolve 0 .provider (jsLit "openai"), .read 0,
    .build 0 true]

def timedOutRun : List Action :=
  [.add 0 .storage (.manager (lit "a")) (lit "libsql") true, .invalidate 0 true true, .resolve 0 .storage (jsLit "a"), .read 0,
    .build 0 true, .remove 1 .storage (.manager (lit "a")), .timesOut 1, .bridgeCloses 1 true, .jobUnregisters 1,
    .resolve 1 .storage (jsLit "a")]

def configured : Kernel :=
  new (fun kind name => if kind = .provider ∧ name = lit "openai" then some (lit "openai") else none) (· = jsLit "openai")
    fun _ => false

theorem unregistered_yielded :
    (∃ s, run (step asciiCrossing) bare inheritedRun = some s ∧ outcome s 0 = some (.yielded .inherited false)) ∧
    (∃ s, run (step asciiCrossing) configured startupRun = some s ∧ outcome s 0 = some (.yielded .startup false)) ∧
    (∃ s, run (step asciiCrossing) bare timedOutRun = some s ∧ outcome s 1 = some (.yielded (.registered (.of 0)) false)) ∧
    ¬ ∀ registry startup bridges path s, run (step asciiCrossing) (new registry startup bridges) path = some s →
      Sound asciiCrossing s := by
  refine ⟨⟨_, rfl, rfl⟩, ⟨_, rfl, rfl⟩, ⟨_, rfl, rfl⟩, fun sound => ?_⟩
  obtain ⟨s, reached, answer⟩ : ∃ s, run (step asciiCrossing) bare inheritedRun = some s ∧
    outcome s 0 = some (.yielded .inherited false) := ⟨_, rfl, rfl⟩
  obtain ⟨q, found, yielded⟩ := Option.map_eq_some_iff.mp answer
  cases (sound _ _ _ _ s reached 0 q found _ _ yielded).1

end Brainkit.RuntimeCache
