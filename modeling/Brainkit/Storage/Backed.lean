import Brainkit.Library.Provision
import Brainkit.Storage.Manager

set_option autoImplicit false

namespace Brainkit.Storage

open Function (update)
open GoText Transition Provision

def Entry.uses (e : Entry) : Option (GoString × GoString) :=
  match e.registration.config with
  | .libsql url => if url = [] then none else some (url, e.path)
  | _ => none

namespace Bridge

def Listens (srv : Bridge) (url : GoString) : Prop := srv.url = url
def Serves (srv : Bridge) (database : GoString × GoString) : Prop := srv.url = database.1 ∧ srv.path = database.2

end Bridge

namespace Manager

def running (m : Manager) (key : GoString) : Option Bridge := m.bridges.lookup key

def Serving (m : Manager) (url path : GoString) : Prop := ∃ key srv, m.running key = some srv ∧ srv.url = url ∧ srv.path = path

def Running (m : Manager) : Prop :=
  ∀ i e url, m.entries i = some e → e.registration.config = .libsql url → m.Serving url e.path

def Backed (m : Manager) : Prop :=
  ∀ i e url, m.entries i = some e → e.registration.config = .libsql url → url ≠ [] → m.Serving url e.path

def used (m : Manager) (i : StoreName) : Option (GoString × GoString) := (m.entries i).bind Entry.uses

def Uses (m : Manager) (i : StoreName) (srv : Bridge) : Prop := m.used i = some (srv.url, srv.path)

def Refuses (m : Manager) (i : StoreName) : Prop := i.2 = [] ∨ m.registryClosed = true

-- A URL that is taken from a map is that of a running bridge on the path, and when the entry is refused nobody uses the
-- bridge that is closed in its place.
def Mirrors (m : Manager) (i : StoreName) (bridgeURL path : GoString) (closeErr : Option GoString) : Prop :=
  bridgeURL ≠ [] → (¬ m.Refuses i → m.Serving bridgeURL path) ∧
    (m.Refuses i → closeErr = none → ∀ srv, m.running (i.1.bridgeKey i.2) = some srv → ∀ j, ¬ m.Uses j srv)

def Spares (m : Manager) : Action → Prop
  | .finish key none => ∀ srv i, m.closingBridges.lookup key = some (srv, i) → m.running key = some srv →
      ∀ j, m.Uses j srv → j = i
  | .registerStorage name cfg bridgeURLs closeErr => m.Mirrors (.storage, name) (m.mapped bridgeURLs cfg) cfg.path closeErr
  | .registerVector name cfg bridgeURLs _ closeErr => m.Mirrors (.vector, name) (m.mapped bridgeURLs cfg) cfg.path closeErr
  | _ => True

def Valid (m : Manager) : Prop := Exclusive m.running Bridge.Listens

variable {m : Manager} {isPrint : Nat → Bool}

theorem uses_some {e : Entry} {url path : GoString} :
    e.uses = some (url, path) ↔ e.registration.config = .libsql url ∧ url ≠ [] ∧ e.path = path := by
  unfold Entry.uses
  constructor
  · intro uses
    split at uses
    · next bound =>
        obtain ⟨given, same⟩ := Option.ite_none_left_eq_some.mp uses
        cases same
        exact ⟨bound, given, rfl⟩
    · cases uses
  · rintro ⟨bound, given, rfl⟩
    rw [bound]
    exact if_neg given

theorem backed_iff : m.Backed ↔ Provision.Backed m.used m.running Bridge.Serves := by
  constructor
  · intro backed i ⟨url, path⟩ uses
    obtain ⟨e, listed, bound⟩ := Option.bind_eq_some_iff.mp uses
    obtain ⟨config, given, rfl⟩ := uses_some.mp bound
    exact backed i e url listed config given
  · intro backed i e url listed config given
    exact backed i (url, e.path) (Option.bind_eq_some_iff.mpr ⟨e, listed, uses_some.mpr ⟨config, given, rfl⟩⟩)

theorem serves_exclusive (valid : m.Valid) : Exclusive m.running Bridge.Serves :=
  exclusive_finer valid Prod.fst fun _ _ served => served.1

theorem running_start (key path url : GoString) :
    (m.start key path url).running = update m.running key (some ⟨m.started, url, path⟩) := by
  funext other
  by_cases this : other = key
  · rw [this, Function.update_self]
    exact AList.lookup_insert _
  · rw [Function.update_of_ne this]
    exact AList.lookup_insert_ne this

theorem running_erase (key : GoString) :
    ({ m with bridges := m.bridges.erase key } : Manager).running = update m.running key none := by
  funext other
  by_cases this : other = key
  · rw [this, Function.update_self]
    exact AList.lookup_erase key m.bridges
  · rw [Function.update_of_ne this]
    exact AList.lookup_erase_ne this

theorem used_update (i : StoreName) (e : Option Entry) :
    ({ m with entries := update m.entries i e } : Manager).used = update m.used i (e.bind Entry.uses) := by
  funext j
  by_cases this : j = i
  · simp only [this, used, Function.update_self]
  · simp only [used, Function.update_of_ne this]

theorem absent_running {key : GoString} (absent : key ∉ m.bridges) : m.running key = none := AList.lookup_eq_none.mpr absent

theorem free_iff {urls : List GoString} : m.Free urls ↔
    urls.Nodup ∧ ∀ url ∈ urls, url ≠ [] ∧ ∀ key srv, m.running key = some srv → srv.url ≠ url := by
  refine and_congr_right fun _ => forall₂_congr fun url _ => and_congr_right fun _ => ?_
  constructor
  · exact fun apart key srv runs => apart ⟨key, srv⟩ (AList.mem_lookup_iff.mp runs)
  · exact fun apart entry member => apart entry.1 entry.2 (AList.mem_lookup_iff.mpr member)

theorem free_head {url : GoString} {urls : List GoString} (free : m.Free (url :: urls)) (key : GoString) (srv : Bridge)
    (runs : m.running key = some srv) : srv.url ≠ url :=
  ((free_iff.mp free).2 url List.mem_cons_self).2 key srv runs

theorem free_start {url : GoString} {urls : List GoString} (free : m.Free (url :: urls)) (key path : GoString) :
    (m.start key path url).Free urls := by
  obtain ⟨distinct, apart⟩ := free_iff.mp free
  obtain ⟨other, rest⟩ := List.nodup_cons.mp distinct
  refine free_iff.mpr ⟨rest, fun next member => ⟨(apart next (List.mem_cons_of_mem url member)).1, fun key' srv runs => ?_⟩⟩
  rw [running_start] at runs
  by_cases this : key' = key
  · rw [this, Function.update_self] at runs
    cases runs
    rintro rfl
    exact other member
  · rw [Function.update_of_ne this] at runs
    exact (apart next (List.mem_cons_of_mem url member)).2 key' srv runs

theorem free_append {first second : List GoString} (free : m.Free (first ++ second)) : m.Free second := by
  obtain ⟨distinct, apart⟩ := free
  exact ⟨(List.nodup_append.mp distinct).2.1, fun url member => apart url (List.mem_append_right first member)⟩

theorem start_valid {url : GoString} {urls : List GoString} (valid : m.Valid) (free : m.Free (url :: urls)) (key path : GoString) :
    (m.start key path url).Valid := by
  rw [Valid, running_start]
  refine exclusive_open valid key _ fun other srv listened runs new also => ?_
  exact free_head free other srv runs (also.trans new.symm)

theorem start_backed (backed : m.Backed) {key : GoString} (absent : key ∉ m.bridges) (path url : GoString) :
    (m.start key path url).Backed := by
  have before := backed_iff.mp backed
  refine backed_iff.mpr (backed_more before fun other srv runs => ?_)
  have away : other ≠ key := by
    rintro rfl
    exact nomatch (absent_running absent).symm.trans runs
  rw [running_start, Function.update_of_ne away]
  exact runs

theorem start_unused {url : GoString} {urls : List GoString} (backed : m.Backed) (free : m.Free (url :: urls))
    (key path : GoString) (srv : Bridge) (started : (m.start key path url).running key = some srv) (i : StoreName) :
    ¬ (m.start key path url).Uses i srv := by
  intro uses
  rw [running_start, Function.update_self] at started
  cases started
  obtain ⟨other, before, runs, served⟩ := backed_iff.mp backed i (url, path) uses
  exact free_head free other before runs served.1

theorem start_serving (key path url : GoString) : (m.start key path url).Serving url path :=
  ⟨key, ⟨m.started, url, path⟩, by rw [running_start, Function.update_self], rfl, rfl⟩

theorem register_accepted {i : StoreName} (accepts : ¬ m.Refuses i) (registration : Registration) (path : GoString) :
    m.register isPrint i registration path = .ok { m with entries := update m.entries i (some ⟨registration, path⟩) } := by
  obtain ⟨named, live⟩ := not_or.mp accepts
  rw [register, if_neg named, if_neg live]

theorem register_refused (isPrint : Nat → Bool) {i : StoreName} (refuses : m.Refuses i) (registration : Registration)
    (path : GoString) :
    ∃ err, m.register isPrint i registration path = .error err := by
  unfold register
  by_cases unnamed : i.2 = []
  · exact ⟨_, if_pos unnamed⟩
  · exact ⟨_, (if_neg unnamed).trans (if_pos (refuses.resolve_left unnamed))⟩

theorem to_registration_url {kind : StoreKind} {cfg : StoreConfig} {bridgeURL url : GoString} :
    (kind.toRegistration cfg bridgeURL).config = .libsql url ↔ cfg.type = lit "sqlite" ∧ bridgeURL = url := by
  by_cases sqlite : cfg.type = lit "sqlite"
  · cases kind <;> simp [StoreKind.toRegistration, storageToRegistration, vectorToRegistration, sqlite]
  · cases kind
    · simp only [StoreKind.toRegistration, storageToRegistration, sqlite, if_false, false_and, iff_false]
      split_ifs <;> simp
    · simp only [StoreKind.toRegistration, vectorToRegistration, sqlite, if_false, false_and, iff_false]
      split_ifs <;> simp

theorem set_backed_iff (backed : m.Backed) (i : StoreName) (cfg : StoreConfig) (bridgeURL : GoString) :
    ({ m with entries := update m.entries i (some ⟨i.1.toRegistration cfg bridgeURL, cfg.path⟩) } : Manager).Backed ↔
      (cfg.type = lit "sqlite" → bridgeURL ≠ [] → m.Serving bridgeURL cfg.path) := by
  rw [backed_iff, used_update]
  refine (backed_set_iff (backed_iff.mp backed) i _).trans ?_
  constructor
  · intro served sqlite given
    exact served (bridgeURL, cfg.path) (uses_some.mpr ⟨to_registration_url.mpr ⟨sqlite, rfl⟩, given, rfl⟩)
  · intro serving ⟨url, path⟩ uses
    obtain ⟨bound, given, rfl⟩ := uses_some.mp uses
    obtain ⟨sqlite, rfl⟩ := to_registration_url.mp bound
    exact serving sqlite given

theorem unregister_backed (backed : m.Backed) (i : StoreName) : (m.unregister i).Backed := by
  have before := backed_iff.mp backed
  refine backed_iff.mpr (backed_fewer before fun j database uses => ?_)
  rw [unregister, used_update] at uses
  by_cases this : j = i
  · rw [this, Function.update_self] at uses
    cases uses
  · rwa [Function.update_of_ne this] at uses

theorem closeBridge_entries (name : GoString) (closeErr : Option GoString) :
    (m.closeBridge isPrint name closeErr).1.entries = m.entries := by
  unfold closeBridge
  split_ifs
  · cases closeErr <;> rfl
  · rfl

theorem closeBridge_running (name : GoString) (closeErr : Option GoString) :
    (m.closeBridge isPrint name closeErr).1.running = if closeErr = none then update m.running name none else m.running := by
  unfold closeBridge
  split_ifs with present closed closed
  · rw [closed]
    exact running_erase name
  · obtain ⟨err, rfl⟩ := Option.ne_none_iff_exists'.mp closed
    rfl
  · exact (Function.update_eq_self_iff.mpr (absent_running present).symm).symm
  · rfl

theorem closeBridge_valid (valid : m.Valid) (name : GoString) (closeErr : Option GoString) :
    (m.closeBridge isPrint name closeErr).1.Valid := by
  rw [Valid, closeBridge_running]
  split
  · exact exclusive_close valid name
  · exact valid

theorem closeBridge_backed_iff (valid : m.Valid) (backed : m.Backed) (name : GoString) (closeErr : Option GoString) :
    (m.closeBridge isPrint name closeErr).1.Backed ↔
      (closeErr = none → ∀ srv, m.running name = some srv → ∀ i, ¬ m.Uses i srv) := by
  have unchanged : (m.closeBridge isPrint name closeErr).1.used = m.used := by
    funext i
    rw [used, closeBridge_entries, used]
  rw [backed_iff, unchanged, closeBridge_running]
  split
  · next closed =>
      refine (backed_close_iff (backed_iff.mp backed) (serves_exclusive valid) name).trans ?_
      rw [imp_iff_right closed]
      refine forall₂_congr fun srv _ => forall_congr' fun i => ?_
      constructor
      · exact fun apart uses => apart _ uses ⟨rfl, rfl⟩
      · rintro apart ⟨url, path⟩ uses ⟨rfl, rfl⟩
        exact apart uses
  · next failed => exact iff_of_true (backed_iff.mp backed) fun closed => absurd closed failed

theorem closeStarted_keeps (closeErr : GoString → Option GoString) (names : List GoString) (valid : m.Valid) :
    (m.closeStarted isPrint closeErr names).1.Valid ∧ (m.closeStarted isPrint closeErr names).1.entries = m.entries ∧
      ∀ key, key ∉ names → (m.closeStarted isPrint closeErr names).1.running key = m.running key := by
  induction names generalizing m with
  | nil => exact ⟨valid, rfl, fun _ _ => rfl⟩
  | cons name rest ih =>
      obtain ⟨kept, entries, others⟩ := ih (closeBridge_valid valid name (closeErr name))
      refine ⟨kept, entries.trans (closeBridge_entries name _), fun key other => (others key ?_).trans ?_⟩
      · exact fun later => other (List.mem_cons_of_mem name later)
      · rw [closeBridge_running]
        split
        · exact Function.update_of_ne (List.ne_of_not_mem_cons other) none m.running
        · rfl

theorem startBridges_keeps (closeErr : GoString → Option GoString)
    (storages : List (GoString × StoreConfig × Except GoString GoString)) (names : List GoString)
    (bridgeURLs : GoString → GoString) (valid : m.Valid) (free : m.Free (storages.flatMap fun entry => answered entry.2.2)) :
    (m.startBridges isPrint closeErr storages names bridgeURLs).1.Valid ∧
      (m.startBridges isPrint closeErr storages names bridgeURLs).1.entries = m.entries ∧
      ∀ key srv, key ∉ names → m.running key = some srv →
        (m.startBridges isPrint closeErr storages names bridgeURLs).1.running key = some srv := by
  induction storages generalizing m names bridgeURLs with
  | nil => exact ⟨valid, rfl, fun _ _ _ runs => runs⟩
  | cons entry rest ih =>
      obtain ⟨name, cfg, started⟩ := entry
      rw [List.flatMap_cons] at free
      unfold startBridges
      split_ifs with other present
      · exact ih names bridgeURLs valid (free_append free)
      · exact ⟨valid, rfl, fun _ _ _ runs => runs⟩
      · cases started with
        | error err =>
            obtain ⟨kept, entries, others⟩ := @closeStarted_keeps m isPrint closeErr names valid
            exact ⟨kept, entries, fun key srv old runs => (others key old).trans runs⟩
        | ok url =>
            obtain ⟨kept, entries, others⟩ := ih (names ++ [name]) (update bridgeURLs cfg.path url)
              (start_valid valid free name cfg.path) (free_start free name cfg.path)
            refine ⟨kept, entries, fun key srv old runs => others key srv ?_ ?_⟩
            · intro member
              cases List.mem_append.mp member with
              | inl before => exact old before
              | inr here =>
                  rw [List.mem_singleton.mp here, absent_running present] at runs
                  cases runs
            · rw [running_start, Function.update_of_ne]
              · exact runs
              · rintro rfl
                exact nomatch (absent_running present).symm.trans runs

theorem add_keeps (valid : m.Valid) (backed : m.Backed) (kind : StoreKind) (name : GoString) (cfg : StoreConfig)
    {started : Except GoString GoString} (free : m.Free (answered started)) (closeErr : Option GoString) :
    (m.add isPrint kind name cfg started closeErr).1.Backed ∧ (m.add isPrint kind name cfg started closeErr).1.Valid := by
  unfold add
  split_ifs with sqlite present
  · exact ⟨backed, valid⟩
  · cases started with
    | error err => exact ⟨backed, valid⟩
    | ok url =>
        have opened := start_valid valid free (kind.bridgeKey name) cfg.path
        have kept := start_backed backed present cfg.path url
        by_cases refuses : (m.start (kind.bridgeKey name) cfg.path url).Refuses (kind, name)
        · obtain ⟨err, refused⟩ := register_refused isPrint refuses (kind.toRegistration cfg url) cfg.path
          simp only [refused]
          exact ⟨(closeBridge_backed_iff opened kept (kind.bridgeKey name) closeErr).mpr fun _ => start_unused backed free _ _,
            closeBridge_valid opened _ closeErr⟩
        · simp only [register_accepted refuses]
          exact ⟨(set_backed_iff kept (kind, name) cfg url).mpr fun _ _ => start_serving _ _ _, opened⟩
  · by_cases refuses : m.Refuses (kind, name)
    · obtain ⟨err, refused⟩ := register_refused isPrint refuses (kind.toRegistration cfg []) cfg.path
      simp only [refused]
      exact ⟨backed, valid⟩
    · simp only [register_accepted refuses]
      exact ⟨(set_backed_iff backed (kind, name) cfg []).mpr fun _ given => absurd rfl given, valid⟩

theorem remove_keeps (valid : m.Valid) (backed : m.Backed) (i : StoreName) :
    (m.remove isPrint i).1.Backed ∧ (m.remove isPrint i).1.Valid := by
  unfold remove
  dsimp only
  split
  · exact ⟨unregister_backed backed i, valid⟩
  · split <;> exact ⟨backed, valid⟩

theorem closed_valid (valid : m.Valid) (key : GoString) (i : StoreName) :
    (({ m with bridges := m.bridges.erase key, closingBridges := m.closingBridges.erase key } : Manager).unregister i).Valid := by
  have rest : Exclusive (update m.running key none) Bridge.Listens := exclusive_close valid key
  rw [← running_erase] at rest
  exact rest

theorem closed_backed_iff (valid : m.Valid) (backed : m.Backed) {key : GoString} {srv : Bridge}
    (runs : m.running key = some srv) (i : StoreName) :
    (({ m with bridges := m.bridges.erase key, closingBridges := m.closingBridges.erase key } : Manager).unregister i).Backed ↔
      ∀ j, m.Uses j srv → j = i := by
  have entries : (m.unregister i).used = update m.used i none := used_update i none
  have closes := backed_close_iff (backed_iff.mp (unregister_backed backed i)) (serves_exclusive valid) key
  rw [← running_erase] at closes
  refine backed_iff.trans (closes.trans ?_)
  rw [entries]
  constructor
  · intro apart j uses
    by_contra other
    exact apart srv runs j (srv.url, srv.path) ((Function.update_of_ne other none m.used).trans uses) ⟨rfl, rfl⟩
  · rintro alone other same j ⟨url, path⟩ uses ⟨rfl, rfl⟩
    cases runs.symm.trans same
    by_cases this : j = i
    · rw [this, Function.update_self] at uses
      cases uses
    · rw [Function.update_of_ne this] at uses
      exact this (alone j uses)

theorem finish_backed_iff (valid : m.Valid) (backed : m.Backed) {key : GoString} {target : Bridge × StoreName}
    (closing : m.closingBridges.lookup key = some target) (closeErr : Option GoString) :
    ((m.finishBridgeClose isPrint key target closeErr).1.Backed ↔ m.Spares (.finish key closeErr)) ∧
      (m.finishBridgeClose isPrint key target closeErr).1.Valid := by
  cases closeErr with
  | some err => exact ⟨iff_of_true backed trivial, valid⟩
  | none =>
      obtain ⟨srv, i⟩ := target
      have only : m.Spares (.finish key none) ↔ (m.running key = some srv → ∀ j, m.Uses j srv → j = i) := by
        constructor
        · exact fun spares => spares srv i closing
        · intro spares other j same
          cases closing.symm.trans same
          exact spares
      rw [only]
      by_cases current : m.running key = some srv
      · have whole : m.finishBridgeClose isPrint key (srv, i) none =
            (({ m with bridges := m.bridges.erase key, closingBridges := m.closingBridges.erase key } : Manager).unregister i, none) :=
          if_pos current
        rw [whole]
        exact ⟨(closed_backed_iff valid backed current i).trans (imp_iff_right current).symm, closed_valid valid key i⟩
      · have whole : m.finishBridgeClose isPrint key (srv, i) none =
            ({ m with closingBridges := m.closingBridges.erase key }, none) := if_neg current
        rw [whole]
        exact ⟨iff_of_true backed fun runs => absurd runs current, valid⟩

theorem initBridges_keeps (valid : m.Valid) (backed : m.Backed)
    {storages : List (GoString × StoreConfig × Except GoString GoString)} (closeErr : GoString → Option GoString)
    (free : m.Free (storages.flatMap fun entry => answered entry.2.2)) :
    (m.initBridges isPrint storages closeErr).1.Backed ∧ (m.initBridges isPrint storages closeErr).1.Valid := by
  obtain ⟨kept, entries, others⟩ := @startBridges_keeps m isPrint closeErr storages [] (fun _ => []) valid free
  have still : (m.startBridges isPrint closeErr storages [] fun _ => []).1.Backed := by
    intro i e url listed config given
    obtain ⟨key, srv, runs, served⟩ := backed i e url (entries ▸ listed) config given
    exact ⟨key, srv, others key srv List.not_mem_nil runs, served⟩
  unfold initBridges
  split
  · next after bridgeURLs same =>
      rw [same] at kept still
      exact ⟨still, kept⟩
  · next after err same =>
      rw [same] at kept still
      exact ⟨still, kept⟩

theorem mapped_sqlite {bridgeURLs : Option Nat} {cfg : StoreConfig} (given : m.mapped bridgeURLs cfg ≠ []) :
    cfg.type = lit "sqlite" := by
  by_contra other
  exact given (if_neg other)

theorem mirror_backed_iff (valid : m.Valid) (backed : m.Backed) (i : StoreName) {cfg : StoreConfig} {bridgeURL : GoString}
    (sqlite : bridgeURL ≠ [] → cfg.type = lit "sqlite") {close : Bool} (closes : close = true ↔ bridgeURL ≠ [])
    (closeErr : Option GoString) :
    ((m.mirror isPrint i cfg bridgeURL close closeErr).1.Backed ↔ m.Mirrors i bridgeURL cfg.path closeErr) ∧
      (m.mirror isPrint i cfg bridgeURL close closeErr).1.Valid := by
  unfold mirror Mirrors
  by_cases refuses : m.Refuses i
  · obtain ⟨err, refused⟩ := register_refused isPrint refuses (i.1.toRegistration cfg bridgeURL) cfg.path
    simp only [refused]
    split
    · next closing =>
        refine ⟨(closeBridge_backed_iff valid backed (i.1.bridgeKey i.2) closeErr).trans ?_,
          closeBridge_valid valid (i.1.bridgeKey i.2) closeErr⟩
        constructor
        · exact fun unused _ => ⟨fun accepts => absurd refuses accepts, fun _ => unused⟩
        · exact fun mirrors => (mirrors (closes.mp closing)).2 refuses
    · next open' => exact ⟨iff_of_true backed fun given => absurd (closes.mpr given) open', valid⟩
  · simp only [register_accepted refuses]
    refine ⟨(set_backed_iff backed i cfg bridgeURL).trans ?_, valid⟩
    constructor
    · exact fun serving given => ⟨fun _ => serving (sqlite given) given, fun refused => absurd refused refuses⟩
    · exact fun mirrors _ given => (mirrors given).1 refuses

theorem mirror_keeps (valid : m.Valid) (backed : m.Backed) (i : StoreName) {cfg : StoreConfig} {bridgeURL : GoString}
    (sqlite : cfg.type = lit "sqlite") {close : Bool} (closes : close = true ↔ bridgeURL ≠ [])
    (serving : m.Serving bridgeURL cfg.path)
    (alone : ∀ srv, m.running (i.1.bridgeKey i.2) = some srv → ∀ j, ¬ m.Uses j srv) (closeErr : Option GoString) :
    (m.mirror isPrint i cfg bridgeURL close closeErr).1.Backed ∧ (m.mirror isPrint i cfg bridgeURL close closeErr).1.Valid := by
  obtain ⟨exactly, kept⟩ := mirror_backed_iff valid backed i (fun _ => sqlite) closes closeErr
  exact ⟨exactly.mpr fun _ => ⟨fun _ => serving, fun _ _ => alone⟩, kept⟩

theorem registerStorage_backed_iff (valid : m.Valid) (backed : m.Backed) (name : GoString) (cfg : StoreConfig)
    (bridgeURLs : Option Nat) (closeErr : Option GoString) :
    ((m.registerStorage isPrint name cfg bridgeURLs closeErr).1.Backed ↔
        m.Spares (.registerStorage name cfg bridgeURLs closeErr)) ∧
      (m.registerStorage isPrint name cfg bridgeURLs closeErr).1.Valid :=
  mirror_backed_iff valid backed (.storage, name) mapped_sqlite
    ⟨fun close => (of_decide_eq_true close).2, fun given => decide_eq_true ⟨mapped_sqlite given, given⟩⟩ closeErr

theorem registerVector_backed_iff (valid : m.Valid) (backed : m.Backed) (name : GoString) (cfg : StoreConfig)
    (bridgeURLs : Option Nat) {started : Except GoString GoString} (free : m.Free (answered started))
    (closeErr : Option GoString) :
    ((m.registerVector isPrint name cfg bridgeURLs started closeErr).1.Backed ↔
        m.Spares (.registerVector name cfg bridgeURLs started closeErr)) ∧
      (m.registerVector isPrint name cfg bridgeURLs started closeErr).1.Valid := by
  cases bridgeURLs with
  | none =>
      have unmapped : m.mapped none cfg = [] := ite_self []
      exact mirror_backed_iff valid backed (.vector, name) mapped_sqlite
        (iff_of_false Bool.false_ne_true fun given => given unmapped) closeErr
  | some urls =>
      unfold registerVector
      dsimp only
      split
      · next missing =>
          have spared : m.Spares (.registerVector name cfg (some urls) started closeErr) := fun given => absurd missing.2 given
          cases started with
          | error err => exact ⟨iff_of_true backed spared, valid⟩
          | ok url =>
              dsimp only
              split
              · exact ⟨iff_of_true backed spared, valid⟩
              · next absent =>
                  refine And.imp_left (iff_of_true · spared) (mirror_keeps ?_ ?_ (.vector, name) missing.1
                    decide_eq_true_iff ?_ ?_ closeErr)
                  · exact start_valid valid free _ cfg.path
                  · exact start_backed backed absent cfg.path url
                  · exact start_serving _ _ _
                  · exact start_unused backed free _ _
      · exact mirror_backed_iff valid backed (.vector, name) mapped_sqlite
            ⟨fun close => (of_decide_eq_true close).2, fun given => decide_eq_true ⟨mapped_sqlite given, given⟩⟩ closeErr

theorem backed_step_iff {next : Manager} (valid : m.Valid) (backed : m.Backed) (action : Action)
    (taken : step isPrint m action = some next) : (next.Backed ↔ m.Spares action) ∧ next.Valid := by
  obtain ⟨free, performed⟩ := Option.ite_none_right_eq_some.mp taken
  cases action with
  | setRuntime attached =>
      cases performed
      exact ⟨iff_of_true backed trivial, valid⟩
  | closeRegistry =>
      cases performed
      exact ⟨iff_of_true backed trivial, valid⟩
  | add i cfg started closeErr =>
      cases performed
      obtain ⟨kept, after⟩ := add_keeps valid backed i.1 i.2 cfg free closeErr
      exact ⟨iff_of_true kept trivial, after⟩
  | remove i =>
      cases performed
      obtain ⟨kept, after⟩ := remove_keeps valid backed i
      exact ⟨iff_of_true kept trivial, after⟩
  | finish key closeErr =>
      obtain ⟨target, closing, rfl⟩ := Option.map_eq_some_iff.mp performed
      exact finish_backed_iff valid backed closing closeErr
  | initBridges storages closeErr =>
      cases performed
      obtain ⟨kept, after⟩ := initBridges_keeps valid backed closeErr free
      exact ⟨iff_of_true kept trivial, after⟩
  | registerStorage name cfg bridgeURLs closeErr =>
      obtain ⟨_, same⟩ := Option.ite_none_right_eq_some.mp performed
      cases same
      exact registerStorage_backed_iff valid backed name cfg bridgeURLs closeErr
  | registerVector name cfg bridgeURLs started closeErr =>
      obtain ⟨_, same⟩ := Option.ite_none_right_eq_some.mp performed
      cases same
      exact registerVector_backed_iff valid backed name cfg bridgeURLs free closeErr

theorem valid_new : new.Valid := fun _ _ _ _ _ runs => nomatch runs

theorem backed_new : new.Backed := fun _ _ _ listed => nomatch listed

theorem always_backed_iff {path : List Action} {final : Manager} (reached : run (step isPrint) new path = some final) :
    Always (step isPrint) Backed new path ↔ Along (step isPrint) Spares new path :=
  always_iff_along_held (fun _ action _ valid backed _ taken => (backed_step_iff valid backed action taken).2)
    (fun _ action _ valid backed taken => (backed_step_iff valid backed action taken).1) valid_new backed_new reached

def ordered : List Action :=
  [.setRuntime true, .add (.storage, lit "memory") (sqliteStore (lit "/m.db")) (.ok (lit "http://127.0.0.1:4001")) none,
    .initBridges [(lit "default", sqliteStore (lit "/d.db"), .ok (lit "http://127.0.0.1:4002"))] fun _ => none,
    .registerStorage (lit "default") (sqliteStore (lit "/d.db")) (some 0) none,
    .registerVector (lit "docs") (sqliteStore (lit "/d.db")) (some 0) (.error (lit "not called")) none,
    .remove (.vector, lit "docs"), .remove (.storage, lit "default"), .finish (lit "default") none]

theorem ordered_backed : Always (step fun _ => true) Backed new ordered := by
  refine (always_backed_iff rfl).mpr ?_
  refine along_cons trivial rfl (along_cons trivial rfl (along_cons trivial rfl (along_cons ?_ rfl (along_cons ?_ rfl
    (along_cons trivial rfl (along_cons trivial rfl (along_cons ?_ rfl trivial)))))))
  · exact fun _ => ⟨fun _ => ⟨lit "default", _, rfl, rfl, rfl⟩, fun refuses => absurd refuses (by rintro (h | h) <;> cases h)⟩
  · exact fun _ => ⟨fun _ => ⟨lit "default", _, rfl, rfl, rfl⟩, fun refuses => absurd refuses (by rintro (h | h) <;> cases h)⟩
  · intro srv i closing _ j uses
    cases closing
    change (update (update (update (update (fun _ => none) (.storage, lit "memory")
      (some ⟨⟨lit "libsql", .libsql (lit "http://127.0.0.1:4001")⟩, lit "/m.db"⟩)) (.storage, lit "default")
      (some ⟨⟨lit "libsql", .libsql (lit "http://127.0.0.1:4002")⟩, lit "/d.db"⟩)) (.vector, lit "docs")
      (some ⟨⟨lit "libsql", .libsql (lit "http://127.0.0.1:4002")⟩, lit "/d.db"⟩))
        (.vector, lit "docs") none j).bind Entry.uses =
      some (lit "http://127.0.0.1:4002", lit "/d.db") at uses
    by_contra other
    by_cases docs : j = (.vector, lit "docs")
    · rw [docs, Function.update_self] at uses
      cases uses
    · rw [Function.update_of_ne docs, Function.update_of_ne docs, Function.update_of_ne other] at uses
      by_cases memory : j = (.storage, lit "memory")
      · rw [memory, Function.update_self] at uses
        exact absurd uses (by decide)
      · rw [Function.update_of_ne memory] at uses
        cases uses

def detached : List Action := [.add (.vector, lit "docs") (sqliteStore (lit "/d.db")) (.error (lit "not called")) none]

def shared : List Action := [.setRuntime true,
    .initBridges [(lit "default", sqliteStore (lit "/d.db"), .ok (lit "http://127.0.0.1:4002"))] fun _ => none,
    .registerStorage (lit "default") (sqliteStore (lit "/d.db")) (some 0) none,
    .registerVector (lit "docs") (sqliteStore (lit "/d.db")) (some 0) (.error (lit "not called")) none,
    .remove (.storage, lit "default"), .finish (lit "default") none]

theorem not_always_running : ∃ s t, run (step fun _ => true) new detached = some s ∧
    run (step fun _ => true) new shared = some t ∧ s.bridges.keys = [] ∧ t.bridges.keys = [] ∧
    s.entries (.vector, lit "docs") = some ⟨⟨lit "libsql", .libsql []⟩, lit "/d.db"⟩ ∧
    t.entries (.vector, lit "docs") = some ⟨⟨lit "libsql", .libsql (lit "http://127.0.0.1:4002")⟩, lit "/d.db"⟩ ∧
    ¬ s.Running ∧ ¬ t.Running := by
  refine ⟨_, _, rfl, rfl, by decide, by decide, by decide, by decide, fun running => ?_, fun running => ?_⟩
  · obtain ⟨key, srv, runs, -⟩ := running (.vector, lit "docs") _ _ rfl rfl
    cases runs
  · obtain ⟨key, srv, runs, -⟩ := running (.vector, lit "docs") _ _ rfl rfl
    cases runs

end Manager

end Brainkit.Storage
