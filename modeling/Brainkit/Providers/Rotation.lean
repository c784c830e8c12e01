import Brainkit.Library.GoText
import Brainkit.Library.Transition

set_option autoImplicit false

-- Calls of secrets.rotate for one secret, interleaved at the store, the provider registry and the plugins.
namespace Brainkit.Secrets

open Function (update update_self update_of_ne)
open GoText

-- The secret, whether the module has the capability of the provider refresh, and the key mapping of the provider host; a
-- secret that is not mapped is mapped to the empty name. isPrint is the table of the verb %q.
structure Setup where
  isPrint : Nat → Bool
  name : GoString
  refresher : Bool
  providerKeyMapping : GoString → GoString
  explicitKeyMapping : Bool

structure RunningPlugin where
  name : GoString
  env : List (GoString × GoString)

def pluginUsesSecret (plugin : RunningPlugin) (secretName : GoString) : Bool :=
  plugin.env.any fun entry => entry.2 = lit "$secret:" ++ secretName

def errRestart (setup : Setup) (plugin err : GoString) : GoString :=
  lit "restart plugin " ++ quote setup.isPrint plugin ++ lit " after rotating secret " ++ quote setup.isPrint setup.name ++
    lit ": " ++ err

def errNotRegistered (setup : Setup) : GoString :=
  lit "provider " ++ quote setup.isPrint (setup.providerKeyMapping setup.name) ++ lit " mapped from secret " ++
    quote setup.isPrint setup.name ++ lit " is not registered"

def errRuntimeCache (setup : Setup) (err : GoString) : GoString :=
  lit "refresh provider " ++ quote setup.isPrint (setup.providerKeyMapping setup.name) ++ lit " runtime cache: " ++ err

def restartPlugins (setup : Setup) (plugins : List (RunningPlugin × Option GoString)) : List GoString × List GoString :=
  let users := plugins.filter fun entry => pluginUsesSecret entry.1 setup.name
  (users.filterMap fun entry => if entry.2.isNone then some entry.1.name else none,
    users.filterMap fun entry => entry.2.map (errRestart setup entry.1.name))

-- changed says whether the registry had the new credential when the refresh failed.
inductive Failure where
  | name
  | store (err : GoString)
  | refresh (changed : Bool) (err : GoString)
  | plugins (errs : List GoString)

inductive Pc where
  | set
  | version
  | refresh
  | runtime
  | restart
  | returned (result : Except Failure (Nat × List GoString))

-- created and clean are history: the version that the call's own write made, and whether the lookup found the version
-- with no other write since.
structure Rotation where
  newValue : GoString
  restart : Bool
  version : Nat
  pc : Pc
  created : Option Nat
  clean : Bool

-- The row of the secret with its version, the credential of the provider that it is mapped to, if this one is
-- registered, and the calls. writes and refreshes are history: the calls that have changed the one and the other.
structure Rotations where
  row : Option (GoString × Nat)
  credential : Option GoString
  calls : Nat → Option Rotation
  writes : List Nat
  refreshes : List Nat

-- What the provider host answers: its operations are closed or the context is done, or the update of the registry has
-- been tried and has failed or not.
inductive RefreshAnswer where
  | closed (err : GoString)
  | tried (err : Option GoString)

-- What is answered to a call at the point where it stands; refresh ends before the call into the runtime.
inductive Event where
  | set (err : Option GoString)
  | version (err : Option GoString)
  | refresh (answer : RefreshAnswer)
  | runtime (err : Option GoString)
  | restart (plugins : Option (List (RunningPlugin × Option GoString)))

inductive Action where
  | rotate (id : Nat) (newValue : GoString) (restart : Bool)
  | advance (id : Nat) (event : Event)

namespace Rotations

def start (row : Option (GoString × Nat)) (credential : Option GoString) : Rotations :=
  ⟨row, credential, fun _ => none, [], []⟩

def put (id : Nat) (call : Rotation) (s : Rotations) : Rotations := { s with calls := update s.calls id (some call) }

def goTo (id : Nat) (call : Rotation) (pc : Pc) (s : Rotations) : Rotations := s.put id { call with pc := pc }

def nextVersion (s : Rotations) : Nat :=
  match s.row with
  | none => 1
  | some (_, version) => version + 1

def write (id : Nat) (call : Rotation) (s : Rotations) : Rotations :=
  { s with row := some (call.newValue, s.nextVersion), writes := s.writes ++ [id] }.put id
    { call with pc := .version, created := some s.nextVersion }

-- An error of List is dropped, and the version is then 1.
def lookup (err : Option GoString) (s : Rotations) : Nat :=
  match err, s.row with
  | none, some (_, version) => version
  | _, _ => 1

def refresh (setup : Setup) (id : Nat) (call : Rotation) (answer : RefreshAnswer) (s : Rotations) : Rotations :=
  match answer with
  | .closed err => s.goTo id call (.returned (.error (.refresh false err)))
  | .tried err =>
      if setup.providerKeyMapping setup.name = [] then s.goTo id call .restart
      else match err, s.credential with
        | some err, _ => s.goTo id call (.returned (.error (.refresh false err)))
        | none, some _ =>
            { s with credential := some call.newValue, refreshes := s.refreshes ++ [id] }.goTo id call .runtime
        | none, none =>
            if setup.explicitKeyMapping then s.goTo id call (.returned (.error (.refresh false (errNotRegistered setup))))
            else s.goTo id call .restart

def restart (setup : Setup) (id : Nat) (call : Rotation) (plugins : Option (List (RunningPlugin × Option GoString)))
    (s : Rotations) : Rotations :=
  let (restarted, errs) := if call.restart then restartPlugins setup (plugins.getD []) else ([], [])
  s.goTo id call (.returned (if errs = [] then .ok (call.version, restarted) else .error (.plugins errs)))

def advance (setup : Setup) (id : Nat) (call : Rotation) (event : Event) (s : Rotations) : Option Rotations :=
  match call.pc, event with
  | .set, .set none => some (s.write id call)
  | .set, .set (some err) => some (s.goTo id call (.returned (.error (.store err))))
  | .version, .version err => some (s.put id { call with
      version := s.lookup err
      pc := if setup.refresher then .refresh else .restart
      clean := err.isNone && s.writes.getLast? = some id })
  | .refresh, .refresh answer => some (s.refresh setup id call answer)
  | .runtime, .runtime none => some (s.goTo id call .restart)
  | .runtime, .runtime (some err) => some (s.goTo id call (.returned (.error (.refresh true (errRuntimeCache setup err)))))
  | .restart, .restart plugins => some (s.restart setup id call plugins)
  | _, _ => none

def step (setup : Setup) (s : Rotations) : Action → Option Rotations
  | .rotate id newValue restart => match s.calls id with
      | some _ => none
      | none =>
          let pc := if setup.name = [] then .returned (.error .name) else .set
          some (s.put id ⟨newValue, restart, 0, pc, none, false⟩)
  | .advance id event => (s.calls id).bind fun call => s.advance setup id call event

def Quiet (s : Rotations) : Prop := ∀ id call, s.calls id = some call → ∃ result, call.pc = .returned result

def Refreshes (setup : Setup) (s : Rotations) : Prop :=
  setup.refresher = true ∧ setup.providerKeyMapping setup.name ≠ [] ∧ s.credential.isSome = true

def Reports (call : Rotation) (version : Nat) : Prop := ∃ restarted, call.pc = .returned (.ok (version, restarted))

structure Agreed (setup : Setup) (s : Rotations) : Prop where
  credential : s.Quiet → s.Refreshes setup → ∀ value version, s.row = some (value, version) → s.credential = some value
  version : ∀ id call version, s.calls id = some call → Reports call version → call.created = some version

-- What a rotation that comes between another one's steps does to this one is left out: the credential that it refreshes
-- after the other one, and the version that is looked up after its write. So is a lookup that fails.
structure Settled (setup : Setup) (row : Option (GoString × Nat)) (credential : Option GoString) (s : Rotations) : Prop where
  unwritten : s.writes = [] → s.row = row
  unrefreshed : s.refreshes = [] → s.credential = credential
  stored : ∀ id, s.writes.getLast? = some id →
    ∃ call version, s.calls id = some call ∧ s.row = some (call.newValue, version)
  agreed : s.Quiet → s.Refreshes setup → ∀ id call, s.writes.getLast? = some id → s.calls id = some call →
    (∀ err, call.pc ≠ .returned (.error (.refresh false err))) →
    (∀ other, s.refreshes.getLast? = some other → other = id) → s.credential = some call.newValue
  failed : ∀ id call err, s.calls id = some call → call.pc = .returned (.error (.refresh false err)) → id ∉ s.refreshes
  version : ∀ id call version, s.calls id = some call → Reports call version → call.clean = true →
    call.created = some version
  distinct : ∀ id other call rotation version, s.calls id = some call → s.calls other = some rotation → id ≠ other →
    Reports call version → Reports rotation version → ¬ (call.clean = true ∧ rotation.clean = true)

def Stands (changes : Prop) (id : Nat) (refreshes : List Nat) (call : Rotation) : Prop :=
  match call.pc with
  | .set | .returned (.error (.store _)) | .returned (.error .name) => call.created = none ∧ id ∉ refreshes
  | .version | .refresh | .returned (.error (.refresh false _)) => call.created.isSome = true ∧ id ∉ refreshes
  | .runtime | .restart | .returned (.ok _) | .returned (.error (.plugins _)) | .returned (.error (.refresh true _)) =>
      call.created.isSome = true ∧ (changes → id ∈ refreshes)

structure Kept (setup : Setup) (row : Option (GoString × Nat)) (credential : Option GoString) (s : Rotations) : Prop where
  writer : match s.writes.getLast? with
    | none => s.row = row
    | some id => ∃ call version, s.calls id = some call ∧ s.row = some (call.newValue, version) ∧
        call.created = some version
  refresher : match s.refreshes.getLast? with
    | none => s.credential = credential
    | some id => ∃ call, s.calls id = some call ∧ s.credential = some call.newValue
  registered : s.credential.isSome = credential.isSome
  begun : ∀ id ∈ s.refreshes, s.calls id ≠ none
  stands : ∀ id call, s.calls id = some call → Stands (s.Refreshes setup) id s.refreshes call
  bound : ∀ id call created, s.calls id = some call → call.created = some created →
    ∃ value version, s.row = some (value, version) ∧ created ≤ version
  apart : ∀ id other call rotation created, s.calls id = some call → s.calls other = some rotation →
    call.created = some created → rotation.created = some created → id = other
  clean : ∀ id call, s.calls id = some call → call.clean = true → call.created = some call.version
  version : ∀ id call version, s.calls id = some call → Reports call version → version = call.version

variable {setup : Setup} {row : Option (GoString × Nat)} {credential : Option GoString} {s : Rotations}

theorem start_kept : Kept setup row credential (start row credential) where
  writer := rfl
  refresher := rfl
  registered := rfl
  begun _ none := nomatch none
  stands _ _ none := nomatch none
  bound _ _ _ none := nomatch none
  apart _ _ _ _ _ none := nomatch none
  clean _ _ none := nomatch none
  version _ _ _ none := nomatch none

theorem put_same (id : Nat) (call : Rotation) : (s.put id call).calls id = some call := update_self ..

theorem put_other {id other : Nat} (apart : other ≠ id) (call : Rotation) : (s.put id call).calls other = s.calls other :=
  update_of_ne apart ..

theorem put_begun {id other : Nat} (begun : s.calls other ≠ none) (call : Rotation) : (s.put id call).calls other ≠ none := by
  by_cases same : other = id
  · subst same
    rw [put_same]
    exact Option.some_ne_none call
  · rwa [put_other same]

theorem put_cases {id other : Nat} {call rotation : Rotation} (here : (s.put id call).calls other = some rotation) :
    other = id ∧ rotation = call ∨ other ≠ id ∧ s.calls other = some rotation := by
  by_cases same : other = id
  · subst same
    rw [put_same] at here
    exact .inl ⟨rfl, (Option.some.inj here).symm⟩
  · rw [put_other same] at here
    exact .inr ⟨same, here⟩

theorem put_kept (kept : Kept setup row credential s) {id : Nat} {next : Rotation}
    (grows : ∀ call, s.calls id = some call → next.newValue = call.newValue ∧ next.created = call.created)
    (begins : s.calls id = none → next.created = none)
    (stands : Stands (s.Refreshes setup) id s.refreshes next)
    (clean : next.clean = true → next.created = some next.version)
    (version : ∀ version, Reports next version → version = next.version) : Kept setup row credential (s.put id next) := by
  have older {other : Nat} {rotation : Rotation} {created : Nat} (here : (s.put id next).calls other = some rotation)
      (made : rotation.created = some created) : ∃ before, s.calls other = some before ∧ before.created = some created := by
    rcases put_cases here with ⟨rfl, rfl⟩ | ⟨_, before⟩
    · cases found : s.calls other with
      | none =>
          rw [begins found] at made
          cases made
      | some call => exact ⟨call, rfl, (grows call found).2 ▸ made⟩
    · exact ⟨rotation, before, made⟩
  have newer {other : Nat} {before : Rotation} (here : s.calls other = some before) :
      ∃ rotation, (s.put id next).calls other = some rotation ∧ rotation.newValue = before.newValue ∧
        rotation.created = before.created := by
    by_cases same : other = id
    · subst same
      exact ⟨next, put_same other next, grows before here⟩
    · exact ⟨before, (put_other same next).trans here, rfl, rfl⟩
  refine ⟨?_, ?_, kept.registered, fun other member => put_begun (kept.begun other member) _, ?_, ?_, ?_, ?_, ?_⟩
  · have writer := kept.writer
    show match s.writes.getLast? with | none => _ | some id => _
    cases last : s.writes.getLast? with
    | none => rwa [last] at writer
    | some other =>
        rw [last] at writer
        obtain ⟨before, version, here, stored, made⟩ := writer
        obtain ⟨rotation, there, same, kept⟩ := newer here
        exact ⟨rotation, version, there, by rw [same]; exact stored, kept.trans made⟩
  · have refresher := kept.refresher
    show match s.refreshes.getLast? with | none => _ | some id => _
    cases last : s.refreshes.getLast? with
    | none => rwa [last] at refresher
    | some other =>
        rw [last] at refresher
        obtain ⟨before, here, changed⟩ := refresher
        obtain ⟨rotation, there, same, _⟩ := newer here
        exact ⟨rotation, there, by rw [same]; exact changed⟩
  · intro other rotation here
    rcases put_cases here with ⟨rfl, rfl⟩ | ⟨_, before⟩
    · exact stands
    · exact kept.stands other rotation before
  · intro other rotation made here same
    obtain ⟨before, there, equal⟩ := older here same
    exact kept.bound other before made there equal
  · intro first second one two made here there same equal
    obtain ⟨before, found₁, created₁⟩ := older here same
    obtain ⟨after, found₂, created₂⟩ := older there equal
    exact kept.apart first second before after made found₁ found₂ created₁ created₂
  · intro other rotation here flagged
    rcases put_cases here with ⟨rfl, rfl⟩ | ⟨_, before⟩
    · exact clean flagged
    · exact kept.clean other rotation before flagged
  · intro other rotation reported here reports
    rcases put_cases here with ⟨rfl, rfl⟩ | ⟨_, before⟩
    · exact version reported reports
    · exact kept.version other rotation reported before reports

theorem same_call {id : Nat} {call next : Rotation} (found : s.calls id = some call) (value : next.newValue = call.newValue)
    (created : next.created = call.created) :
    ∀ before, s.calls id = some before → next.newValue = before.newValue ∧ next.created = before.created := by
  intro before here
  cases found.symm.trans here
  exact ⟨value, created⟩

theorem not_begun {id : Nat} {call next : Rotation} (found : s.calls id = some call) :
    s.calls id = none → next.created = none := fun absent => nomatch found.symm.trans absent

theorem goTo_kept (kept : Kept setup row credential s) {id : Nat} {call : Rotation} (found : s.calls id = some call) {pc : Pc}
    (stands : Stands (s.Refreshes setup) id s.refreshes { call with pc := pc })
    (version : ∀ version restarted, pc = .returned (.ok (version, restarted)) → version = call.version) :
    Kept setup row credential (s.goTo id call pc) :=
  put_kept kept (same_call found rfl rfl) (not_begun found) stands (kept.clean id call found)
    fun reported ⟨restarted, same⟩ => version reported restarted same

theorem set_fresh (kept : Kept setup row credential s) {id : Nat} {call : Rotation} (found : s.calls id = some call)
    (stood : call.pc = .set) : call.created = none ∧ id ∉ s.refreshes := by
  have stands := kept.stands id call found
  rw [Stands, stood] at stands
  exact stands

theorem below_next (kept : Kept setup row credential s) {id : Nat} {call : Rotation} {created : Nat}
    (found : s.calls id = some call) (made : call.created = some created) : created < s.nextVersion := by
  obtain ⟨value, version, stored, bound⟩ := kept.bound id call created found made
  rw [nextVersion, stored]
  exact Nat.lt_succ_of_le bound

theorem write_kept (kept : Kept setup row credential s) {id : Nat} {call : Rotation} (found : s.calls id = some call)
    (stood : call.pc = .set) : Kept setup row credential (s.write id call) := by
  obtain ⟨fresh, untouched⟩ := set_fresh kept found stood
  have clean : call.clean = false := by
    cases flagged : call.clean with
    | false => rfl
    | true =>
        have made := kept.clean id call found flagged
        rw [fresh] at made
        cases made
  unfold write
  refine ⟨?_, ?_, kept.registered, fun other member => put_begun (kept.begun other member) _, ?_, ?_, ?_, ?_, ?_⟩
  · show match (s.writes ++ [id]).getLast? with | none => _ | some id => _
    rw [List.getLast?_concat]
    exact ⟨_, s.nextVersion, put_same .., rfl, rfl⟩
  · have refresher := kept.refresher
    show match s.refreshes.getLast? with | none => _ | some id => _
    cases last : s.refreshes.getLast? with
    | none => rwa [last] at refresher
    | some other =>
        rw [last] at refresher
        obtain ⟨before, here, changed⟩ := refresher
        have apart : other ≠ id := fun same => untouched (same ▸ List.mem_of_getLast? last)
        exact ⟨before, (put_other apart _).trans here, changed⟩
  · intro other rotation here
    rcases put_cases here with ⟨rfl, rfl⟩ | ⟨_, before⟩
    · exact ⟨rfl, untouched⟩
    · exact kept.stands other rotation before
  · intro other rotation made here same
    refine ⟨call.newValue, s.nextVersion, rfl, ?_⟩
    rcases put_cases here with ⟨rfl, rfl⟩ | ⟨_, before⟩
    · cases same
      exact Nat.le_refl _
    · exact Nat.le_of_lt (below_next kept before same)
  · intro first second one two made here there same equal
    rcases put_cases here with ⟨rfl, rfl⟩ | ⟨_, before⟩ <;> rcases put_cases there with ⟨rfl, rfl⟩ | ⟨_, after⟩
    · rfl
    · cases same
      exact absurd (below_next kept after equal) (Nat.lt_irrefl _)
    · cases equal
      exact absurd (below_next kept before same) (Nat.lt_irrefl _)
    · exact kept.apart first second one two made before after same equal
  · intro other rotation here flagged
    rcases put_cases here with ⟨rfl, rfl⟩ | ⟨_, before⟩
    · rw [clean] at flagged
      cases flagged
    · exact kept.clean other rotation before flagged
  · intro other rotation version here reports
    rcases put_cases here with ⟨rfl, rfl⟩ | ⟨_, before⟩
    · obtain ⟨restarted, none⟩ := reports
      cases none
    · exact kept.version other rotation version before reports

theorem stands_grows {changes : Prop} {id other : Nat} (apart : other ≠ id) {refreshes : List Nat} {call : Rotation}
    (stands : Stands changes other refreshes call) : Stands changes other (refreshes ++ [id]) call := by
  have iff : other ∈ refreshes ++ [id] ↔ other ∈ refreshes := by simp [apart]
  unfold Stands at stands ⊢
  simpa only [iff] using stands

theorem changed_kept (kept : Kept setup row credential s) {id : Nat} {call : Rotation} (found : s.calls id = some call)
    (stood : call.pc = .refresh) {old : GoString} (registered : s.credential = some old) :
    Kept setup row credential
      ({ s with credential := some call.newValue, refreshes := s.refreshes ++ [id] }.goTo id call .runtime) := by
  have stands := kept.stands id call found
  rw [Stands, stood] at stands
  have still : s.credential.isSome = (some call.newValue).isSome := by rw [registered]; rfl
  have older {other : Nat} {rotation : Rotation}
      (here : (s.goTo id call .runtime).calls other = some rotation) :
      ∃ before, s.calls other = some before ∧ rotation.newValue = before.newValue ∧ rotation.created = before.created := by
    rcases put_cases here with ⟨rfl, rfl⟩ | ⟨_, before⟩
    · exact ⟨call, found, rfl, rfl⟩
    · exact ⟨rotation, before, rfl, rfl⟩
  refine ⟨?_, ?_, still.symm.trans kept.registered, ?_, ?_, ?_, ?_, ?_, ?_⟩
  · have writer := kept.writer
    show match s.writes.getLast? with | none => _ | some id => _
    cases last : s.writes.getLast? with
    | none => rwa [last] at writer
    | some other =>
        rw [last] at writer
        obtain ⟨before, version, here, stored, made⟩ := writer
        by_cases same : other = id
        · subst same
          cases found.symm.trans here
          exact ⟨_, version, put_same .., stored, made⟩
        · exact ⟨before, version, (put_other same _).trans here, stored, made⟩
  · show match (s.refreshes ++ [id]).getLast? with | none => _ | some id => _
    rw [List.getLast?_concat]
    exact ⟨_, put_same .., rfl⟩
  · intro other member
    apply put_begun
    rcases List.mem_append.mp member with earlier | last
    · exact kept.begun other earlier
    · obtain rfl := List.mem_singleton.mp last
      exact fun absent => nomatch found.symm.trans absent
  · have changes : Refreshes setup
        ({ s with credential := some call.newValue, refreshes := s.refreshes ++ [id] }.goTo id call .runtime) ↔
          s.Refreshes setup := by
      show (_ ∧ _ ∧ (some call.newValue).isSome = true) ↔ (_ ∧ _ ∧ s.credential.isSome = true)
      rw [still]
    intro other rotation here
    rw [changes]
    rcases put_cases here with ⟨rfl, rfl⟩ | ⟨apart, before⟩
    · exact ⟨stands.1, fun _ => List.mem_append_right _ List.mem_cons_self⟩
    · exact stands_grows apart (kept.stands other rotation before)
  · intro other rotation made here same
    obtain ⟨before, there, _, equal⟩ := older here
    exact kept.bound other before made there (equal ▸ same)
  · intro first second one two made here there same equal
    obtain ⟨before, found₁, _, created₁⟩ := older here
    obtain ⟨after, found₂, _, created₂⟩ := older there
    exact kept.apart first second before after made found₁ found₂ (created₁ ▸ same) (created₂ ▸ equal)
  · intro other rotation here flagged
    rcases put_cases here with ⟨rfl, rfl⟩ | ⟨_, before⟩
    · exact kept.clean other call found flagged
    · exact kept.clean other rotation before flagged
  · intro other rotation version here reports
    rcases put_cases here with ⟨rfl, rfl⟩ | ⟨_, before⟩
    · obtain ⟨restarted, none⟩ := reports
      cases none
    · exact kept.version other rotation version before reports

theorem refresh_kept (kept : Kept setup row credential s) {id : Nat} {call : Rotation} (found : s.calls id = some call)
    (stood : call.pc = .refresh) (answer : RefreshAnswer) : Kept setup row credential (s.refresh setup id call answer) := by
  have stands := kept.stands id call found
  rw [Stands, stood] at stands
  unfold refresh
  split
  · exact goTo_kept kept found stands nofun
  · split
    next unmapped => exact goTo_kept kept found ⟨stands.1, fun changes => absurd unmapped changes.2.1⟩ nofun
    next mapped =>
      split
      · exact goTo_kept kept found stands nofun
      next registered => exact changed_kept kept found stood registered
      next unregistered =>
        split
        · exact goTo_kept kept found stands nofun
        · refine goTo_kept kept found ⟨stands.1, fun changes => ?_⟩ nofun
          have registered := changes.2.2
          rw [unregistered] at registered
          cases registered

theorem restart_kept (kept : Kept setup row credential s) {id : Nat} {call : Rotation} (found : s.calls id = some call)
    (stood : call.pc = .restart) (plugins : Option (List (RunningPlugin × Option GoString))) :
    Kept setup row credential (s.restart setup id call plugins) := by
  have stands := kept.stands id call found
  rw [Stands, stood] at stands
  unfold restart
  generalize (if call.restart then restartPlugins setup (plugins.getD []) else ([], [])) = outcome
  obtain ⟨restarted, errs⟩ := outcome
  dsimp only
  split
  · exact goTo_kept kept found stands fun version restarted same => by cases same; rfl
  · exact goTo_kept kept found stands nofun

theorem advance_kept (kept : Kept setup row credential s) {id : Nat} {call : Rotation} (found : s.calls id = some call)
    {event : Event} {next : Rotations} (taken : s.advance setup id call event = some next) :
    Kept setup row credential next := by
  have stands := kept.stands id call found
  unfold advance at taken
  split at taken
  next stood => exact Option.some.inj taken ▸ write_kept kept found stood
  next err stood =>
    cases taken
    rw [Stands, stood] at stands
    exact goTo_kept kept found stands nofun
  next err stood =>
    cases taken
    rw [Stands, stood] at stands
    refine put_kept kept ?_ ?_ ?_ ?_ ?_
    · exact same_call found rfl rfl
    · exact not_begun found
    · by_cases refreshes : setup.refresher = true
      · simp only [refreshes, if_true]
        exact stands
      · simp only [refreshes, Bool.false_eq_true, if_false]
        exact ⟨stands.1, fun changes => absurd changes.1 refreshes⟩
    · intro flagged
      simp only [Bool.and_eq_true, decide_eq_true_eq, Option.isNone_iff_eq_none] at flagged
      obtain ⟨rfl, last⟩ := flagged
      have writer := kept.writer
      rw [last] at writer
      obtain ⟨before, version, here, stored, made⟩ := writer
      cases found.symm.trans here
      have looked : s.lookup none = version := by simp only [lookup, stored]
      show call.created = some (s.lookup none)
      rw [looked]
      exact made
    · rintro version ⟨restarted, same⟩
      dsimp only at same
      split at same <;> cases same
  next answer stood => exact Option.some.inj taken ▸ refresh_kept kept found stood answer
  next stood =>
    cases taken
    rw [Stands, stood] at stands
    exact goTo_kept kept found stands nofun
  next err stood =>
    cases taken
    rw [Stands, stood] at stands
    exact goTo_kept kept found stands nofun
  next plugins stood => exact Option.some.inj taken ▸ restart_kept kept found stood plugins
  next => cases taken

theorem step_kept (setup : Setup) (s : Rotations) (action : Action) (next : Rotations) (kept : Kept setup row credential s)
    (taken : step setup s action = some next) : Kept setup row credential next := by
  cases action with
  | rotate id newValue restart =>
      simp only [step] at taken
      split at taken
      · cases taken
      next absent =>
        cases taken
        have untouched : id ∉ s.refreshes := fun member => kept.begun id member absent
        refine put_kept kept (fun call here => nomatch absent.symm.trans here) (fun _ => rfl) ?_ nofun ?_
        · by_cases unnamed : setup.name = []
          · simp only [unnamed, if_true]
            exact ⟨rfl, untouched⟩
          · simp only [unnamed, if_false]
            exact ⟨rfl, untouched⟩
        · rintro version ⟨restarted, same⟩
          dsimp only at same
          split at same <;> cases same
  | advance id event =>
      obtain ⟨call, found, moved⟩ := Option.bind_eq_some_iff.mp taken
      exact advance_kept kept found moved

theorem settled_of_kept (kept : Kept setup row credential s) : Settled setup row credential s where
  unwritten none := by
    have writer := kept.writer
    rwa [none] at writer
  unrefreshed none := by
    have refresher := kept.refresher
    rwa [none] at refresher
  stored id last := by
    have writer := kept.writer
    rw [last] at writer
    obtain ⟨call, version, found, stored, _⟩ := writer
    exact ⟨call, version, found, stored⟩
  agreed quiet refreshes id call last found changed alone := by
    have writer := kept.writer
    rw [last] at writer
    obtain ⟨before, version, here, _, made⟩ := writer
    cases found.symm.trans here
    have stands := kept.stands id call found
    obtain ⟨result, pc⟩ := quiet id call found
    have member : id ∈ s.refreshes := by
      rw [Stands, pc] at stands
      rcases result with (_ | _ | ⟨_ | _, err⟩ | _) | _
      · cases made.symm.trans stands.1
      · cases made.symm.trans stands.1
      · exact absurd pc (changed err)
      · exact stands.2 refreshes
      · exact stands.2 refreshes
      · exact stands.2 refreshes
    have refresher := kept.refresher
    cases final : s.refreshes.getLast? with
    | none =>
        rw [List.getLast?_eq_none_iff.mp final] at member
        cases member
    | some other =>
        rw [final] at refresher
        obtain ⟨rotation, there, credential⟩ := refresher
        obtain rfl := alone other final
        cases found.symm.trans there
        exact credential
  failed id call err found pc := by
    have stands := kept.stands id call found
    rw [Stands, pc] at stands
    exact stands.2
  version id call version found reports clean := by
    rw [kept.version id call version found reports]
    exact kept.clean id call found clean
  distinct id other call rotation version found there apart reports again := by
    rintro ⟨clean, flagged⟩
    have first := kept.clean id call found clean
    have second := kept.clean other rotation there flagged
    rw [← kept.version id call version found reports] at first
    rw [← kept.version other rotation version there again] at second
    exact apart (kept.apart id other call rotation version found there first second)

theorem rotations_settled (setup : Setup) (row : Option (GoString × Nat)) (credential : Option GoString) (path : List Action) :
    Transition.Always (step setup) (Settled setup row credential) (start row credential) path :=
  Transition.always_mono (fun _ kept => settled_of_kept kept)
    (Transition.always_invariant (step_kept setup) start_kept path)

def mapped : Setup where
  isPrint _ := true
  name := lit "OPENAI_API_KEY"
  refresher := true
  providerKeyMapping name := if name = lit "OPENAI_API_KEY" then lit "openai" else []
  explicitKeyMapping := true

-- The operations of the provider host are closed between the write and the refresh.
def closing : List Action :=
  [.rotate 0 (lit "new") false, .advance 0 (.set none), .advance 0 (.version none),
    .advance 0 (.refresh (.closed (lit "context canceled")))]

theorem rotation_left_apart : ¬ ∀ (setup : Setup) (value : GoString) (version : Nat) (path : List Action),
    Transition.Always (step setup) (Agreed setup) (start (some (value, version)) (some value)) path := by
  intro all
  have always := all mapped (lit "old") 1 closing
  have agreed := ((((always.2 _ rfl).2 _ rfl).2 _ rfl).2 _ rfl).credential
  have same := agreed ?_ ⟨rfl, by decide, rfl⟩ _ _ rfl
  · revert same
    decide
  · intro id call here
    by_cases zero : id = 0
    · subst zero
      cases here
      exact ⟨_, rfl⟩
    · rcases put_cases here with ⟨same, _⟩ | ⟨_, earlier⟩
      · exact absurd same zero
      · rcases put_cases earlier with ⟨same, _⟩ | ⟨_, earlier⟩
        · exact absurd same zero
        · rcases put_cases earlier with ⟨same, _⟩ | ⟨_, earlier⟩
          · exact absurd same zero
          · rcases put_cases earlier with ⟨same, _⟩ | ⟨_, none⟩
            · exact absurd same zero
            · cases none

end Rotations

end Brainkit.Secrets
