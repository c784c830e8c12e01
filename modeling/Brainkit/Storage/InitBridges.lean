import Brainkit.Storage.Backed

set_option autoImplicit false

namespace Brainkit.Storage

open Function (update)
open GoText

-- The storages of the configuration in the order of the range statement, each with the answer of newBridge.
abbrev Storages := List (GoString × StoreConfig × Except GoString GoString)

def sqliteNames (storages : Storages) : List GoString :=
  (storages.filter fun entry => entry.2.1.type = lit "sqlite").map Prod.fst

namespace Manager

def ComesUp (m : Manager) (entry : GoString × StoreConfig × Except GoString GoString) : Prop :=
  entry.2.1.type = lit "sqlite" → entry.1 ∉ m.bridges ∧ ∃ url, entry.2.2 = .ok url

-- The storages before are up when the one after them fails. A name that is taken leaves nothing behind when it is the
-- first, and an error of newBridge when the bridges of the call can be closed.
def Undone (closeErr : GoString → Option GoString) (storages : Storages) (m : Manager) : Prop :=
  ∃ before name cfg answer rest, storages = before ++ (name, cfg, answer) :: rest ∧ (∀ entry ∈ before, m.ComesUp entry) ∧
    cfg.type = lit "sqlite" ∧
    (name ∈ m.bridges ∧ sqliteNames before = [] ∨
      name ∉ m.bridges ∧ (∃ err, answer = .error err) ∧ ∀ started ∈ sqliteNames before, closeErr started = none)

structure Opened (names : List GoString) (m m' : Manager) : Prop where
  other : ∀ key, key ∉ names → m'.running key = m.running key
  up : ∀ key ∈ names, m.running key = none ∧ m'.running key ≠ none
  maps : m'.maps = m.maps

theorem mem_bridges_iff {key : GoString} {m : Manager} : key ∈ m.bridges ↔ m.running key ≠ none := by
  rw [running, ne_eq, AList.lookup_eq_none, not_not]

section

variable {isPrint : Nat → Bool} {closeErr : GoString → Option GoString} {m m' : Manager} {names : List GoString}

theorem opened_self (m : Manager) : Opened [] m m where
  other _ _ := rfl
  up _ listed := absurd listed List.not_mem_nil
  maps := rfl

theorem mem_opened (opened : Opened names m m') {name : GoString} (fresh : name ∉ names) :
    name ∈ m'.bridges ↔ name ∈ m.bridges := by
  rw [mem_bridges_iff, mem_bridges_iff, opened.other name fresh]

theorem opened_start (opened : Opened names m m') {name : GoString} (free : name ∉ m.bridges) (path url : GoString) :
    Opened (names ++ [name]) m (m'.start name path url) where
  other key fresh := by
    obtain ⟨outside, different⟩ : key ∉ names ∧ key ≠ name := by simpa using fresh
    rw [running_start, Function.update_of_ne different, opened.other key outside]
  up key listed := by
    rw [running_start]
    by_cases this : key = name
    · rw [this, Function.update_self]
      exact ⟨absent_running free, Option.some_ne_none _⟩
    · rw [Function.update_of_ne this]
      exact opened.up key (by simpa [this] using listed)
  maps := opened.maps

theorem same_iff_none_opened (opened : Opened names m m') : m'.running = m.running ↔ names = [] := by
  constructor
  · intro same
    refine List.eq_nil_iff_forall_not_mem.mpr fun key listed => ?_
    obtain ⟨before, after⟩ := opened.up key listed
    exact after (by rw [same, before])
  · rintro rfl
    exact funext fun key => opened.other key List.not_mem_nil

theorem running_closeBridge (name key : GoString) (err : Option GoString) :
    (m.closeBridge isPrint name err).1.running key = if key = name ∧ err = none then none else m.running key := by
  rw [closeBridge_running]
  by_cases closed : err = none
  · by_cases this : key = name
    · rw [if_pos closed, if_pos ⟨this, closed⟩, this, Function.update_self]
    · rw [if_pos closed, if_neg fun both => this both.1, Function.update_of_ne this]
  · rw [if_neg closed, if_neg fun both => closed both.2]

theorem maps_closeBridge (name : GoString) (err : Option GoString) : (m.closeBridge isPrint name err).1.maps = m.maps := by
  unfold closeBridge
  split
  · cases err <;> rfl
  · rfl

theorem running_closeStarted (m : Manager) (names : List GoString) (key : GoString) :
    (m.closeStarted isPrint closeErr names).1.running key =
      if key ∈ names ∧ closeErr key = none then none else m.running key := by
  induction names generalizing m with
  | nil => simp [closeStarted]
  | cons name names ih =>
      rw [closeStarted, ih, running_closeBridge]
      by_cases this : key = name
      · by_cases closes : closeErr key = none <;> simp [← this, closes]
      · simp [this]

theorem maps_closeStarted (m : Manager) (names : List GoString) :
    (m.closeStarted isPrint closeErr names).1.maps = m.maps := by
  induction names generalizing m with
  | nil => rfl
  | cons name names ih => rw [closeStarted, ih, maps_closeBridge]

theorem closeStarted_entries (m : Manager) (names : List GoString) :
    (m.closeStarted isPrint closeErr names).1.entries = m.entries := by
  induction names generalizing m with
  | nil => rfl
  | cons name names ih => rw [closeStarted, ih, closeBridge_entries]

theorem same_iff_all_close (opened : Opened names m m') :
    (m'.closeStarted isPrint closeErr names).1.running = m.running ↔ ∀ started ∈ names, closeErr started = none := by
  constructor
  · intro same started listed
    by_contra fails
    obtain ⟨before, after⟩ := opened.up started listed
    have left := congrFun same started
    rw [running_closeStarted, if_neg fun both => fails both.2] at left
    exact after (left.trans before)
  · intro closes
    funext key
    rw [running_closeStarted]
    by_cases listed : key ∈ names
    · rw [if_pos ⟨listed, closes key listed⟩, (opened.up key listed).1]
    · rw [if_neg fun both => listed both.1, opened.other key listed]

theorem sqliteNames_cons (entry : GoString × StoreConfig × Except GoString GoString) (storages : Storages) :
    sqliteNames (entry :: storages) =
      if entry.2.1.type = lit "sqlite" then entry.1 :: sqliteNames storages else sqliteNames storages := by
  by_cases sqlite : entry.2.1.type = lit "sqlite" <;> simp [sqliteNames, sqlite]

theorem startBridges_cons (name : GoString) (cfg : StoreConfig) (answer : Except GoString GoString) (rest : Storages)
    (bridgeURLs : GoString → GoString) :
    startBridges isPrint closeErr ((name, cfg, answer) :: rest) names bridgeURLs m =
      if cfg.type ≠ lit "sqlite" then startBridges isPrint closeErr rest names bridgeURLs m
      else if name ∈ m.bridges then (m, .error (lit "storage " ++ quote isPrint name ++ lit " bridge already exists"))
      else match answer with
        | .error err => ((m.closeStarted isPrint closeErr names).1, .error
            ((Modules.joinErrors (bridgeError isPrint name err :: (m.closeStarted isPrint closeErr names).2)).getD []))
        | .ok url =>
            startBridges isPrint closeErr rest (names ++ [name]) (update bridgeURLs cfg.path url)
              (m.start name cfg.path url) := by
  exact startBridges.eq_def isPrint closeErr ((name, cfg, answer) :: rest) names bridgeURLs m

theorem startBridges_before (isPrint : Nat → Bool) (closeErr : GoString → Option GoString) (before rest : Storages)
    (bridgeURLs : GoString → GoString) (opened : Opened names m m')
    (distinct : (names ++ sqliteNames before).Nodup) (up : ∀ entry ∈ before, m.ComesUp entry) :
    ∃ bridgeURLs' m'', startBridges isPrint closeErr (before ++ rest) names bridgeURLs m' =
      startBridges isPrint closeErr rest (names ++ sqliteNames before) bridgeURLs' m'' ∧
      Opened (names ++ sqliteNames before) m m'' := by
  induction before generalizing names bridgeURLs m' with
  | nil => exact ⟨bridgeURLs, m', by simp [sqliteNames], by simpa [sqliteNames] using opened⟩
  | cons entry before ih =>
      obtain ⟨name, cfg, answer⟩ := entry
      have later := fun entry listed => up entry (List.mem_cons_of_mem (name, cfg, answer) listed)
      rw [sqliteNames_cons] at distinct ⊢
      rw [List.cons_append, startBridges_cons]
      by_cases sqlite : cfg.type = lit "sqlite"
      · obtain ⟨free, url, rfl⟩ := up _ List.mem_cons_self sqlite
        rw [if_pos sqlite, List.append_cons names name (sqliteNames before)] at distinct ⊢
        have fresh : name ∉ names := fun listed =>
          (List.nodup_append.mp (List.nodup_append.mp distinct).1).2.2 name listed name List.mem_cons_self rfl
        rw [if_neg (not_not.mpr sqlite), if_neg fun taken => free ((mem_opened opened fresh).mp taken)]
        exact ih (update bridgeURLs cfg.path url) (opened_start opened free cfg.path url) distinct later
      · rw [if_neg sqlite] at distinct ⊢
        rw [if_pos sqlite]
        exact ih bridgeURLs opened distinct later

theorem startBridges_error_split {storages : Storages} {bridgeURLs : GoString → GoString} {after : Manager} {err : GoString}
    (opened : Opened names m m') (distinct : (names ++ sqliteNames storages).Nodup)
    (failed : startBridges isPrint closeErr storages names bridgeURLs m' = (after, .error err)) :
    ∃ before name cfg answer rest, storages = before ++ (name, cfg, answer) :: rest ∧
      (∀ entry ∈ before, m.ComesUp entry) ∧ cfg.type = lit "sqlite" ∧
        (name ∈ m.bridges ∨ ∃ err, answer = .error err) := by
  induction storages generalizing names bridgeURLs m' with
  | nil => cases failed
  | cons entry storages ih =>
      obtain ⟨name, cfg, answer⟩ := entry
      rw [sqliteNames_cons] at distinct
      rw [startBridges_cons] at failed
      by_cases sqlite : cfg.type = lit "sqlite"
      · rw [if_pos sqlite, List.append_cons] at distinct
        have fresh : name ∉ names := fun listed =>
          (List.nodup_append.mp (List.nodup_append.mp distinct).1).2.2 name listed name List.mem_cons_self rfl
        by_cases taken : name ∈ m.bridges
        · exact ⟨[], name, cfg, answer, storages, rfl, fun _ listed => absurd listed List.not_mem_nil, sqlite, .inl taken⟩
        · rw [if_neg (not_not.mpr sqlite), if_neg fun listed => taken ((mem_opened opened fresh).mp listed)] at failed
          cases answer with
          | error text =>
              exact ⟨[], name, cfg, _, storages, rfl, fun _ listed => absurd listed List.not_mem_nil, sqlite, .inr ⟨text, rfl⟩⟩
          | ok url =>
              obtain ⟨before, name', cfg', answer', rest, rfl, up, found⟩ :=
                ih (opened_start opened taken cfg.path url) distinct failed
              refine ⟨(name, cfg, .ok url) :: before, name', cfg', answer', rest, rfl, ?_, found⟩
              exact List.forall_mem_cons.mpr ⟨fun _ => ⟨taken, url, rfl⟩, up⟩
      · rw [if_neg sqlite] at distinct
        rw [if_pos sqlite] at failed
        obtain ⟨before, name', cfg', answer', rest, rfl, up, found⟩ := ih opened distinct failed
        refine ⟨(name, cfg, answer) :: before, name', cfg', answer', rest, rfl, ?_, found⟩
        exact List.forall_mem_cons.mpr ⟨fun listed => absurd listed sqlite, up⟩

theorem exit_restores_iff {before rest : Storages} {name : GoString} {cfg : StoreConfig} {answer : Except GoString GoString}
    {bridgeURLs : GoString → GoString} {after : Manager} {result : Except GoString (GoString → GoString)}
    (distinct : (sqliteNames (before ++ (name, cfg, answer) :: rest)).Nodup) (up : ∀ entry ∈ before, m.ComesUp entry)
    (sqlite : cfg.type = lit "sqlite") (fails : name ∈ m.bridges ∨ ∃ err, answer = .error err)
    (ran : startBridges isPrint closeErr (before ++ (name, cfg, answer) :: rest) [] bridgeURLs m = (after, result)) :
    after.maps = m.maps ∧ (after.running = m.running ↔
      name ∈ m.bridges ∧ sqliteNames before = [] ∨
        name ∉ m.bridges ∧ (∃ err, answer = .error err) ∧ ∀ started ∈ sqliteNames before, closeErr started = none) := by
  have distinct : (sqliteNames before ++ name :: sqliteNames rest).Nodup := by
    simpa [sqliteNames, sqlite] using distinct
  have fresh : name ∉ sqliteNames before := fun listed =>
    (List.nodup_append.mp distinct).2.2 name listed name List.mem_cons_self rfl
  obtain ⟨urls, m', rewound, opened⟩ := startBridges_before isPrint closeErr before
    ((name, cfg, answer) :: rest) bridgeURLs (opened_self m) (List.nodup_append.mp distinct).1 up
  rw [List.nil_append] at rewound opened
  rw [rewound, startBridges_cons, if_neg (not_not.mpr sqlite)] at ran
  by_cases taken : name ∈ m.bridges
  · rw [if_pos ((mem_opened opened fresh).mpr taken)] at ran
    cases ran
    simp [taken, opened.maps, same_iff_none_opened opened]
  · obtain ⟨text, rfl⟩ := fails.resolve_left taken
    rw [if_neg fun listed => taken ((mem_opened opened fresh).mp listed)] at ran
    cases ran
    simp [taken, maps_closeStarted, opened.maps, same_iff_all_close opened]

-- The exit for a name that is taken closes none of the bridges started before it.
theorem init_error_restores_iff (isPrint : Nat → Bool) (closeErr : GoString → Option GoString) (storages : Storages)
    (m after : Manager) (err : GoString) (map : (storages.map Prod.fst).Nodup)
    (failed : m.initBridges isPrint storages closeErr = (after, .error err)) :
    after.running = m.running ∧ after.maps = m.maps ↔ Undone closeErr storages m := by
  have distinct : (sqliteNames storages).Nodup := map.sublist (List.filter_sublist.map Prod.fst)
  have ran : startBridges isPrint closeErr storages [] (fun _ => []) m = (after, .error err) := by
    unfold initBridges at failed
    split at failed
    · cases failed
    · next ran =>
        cases failed
        exact ran
  constructor
  · rintro ⟨same, -⟩
    obtain ⟨before, name, cfg, answer, rest, rfl, up, sqlite, fails⟩ := startBridges_error_split (opened_self m)
      (by simpa using distinct) ran
    exact ⟨before, name, cfg, answer, rest, rfl, up, sqlite, (exit_restores_iff distinct up sqlite fails ran).2.mp same⟩
  · rintro ⟨before, name, cfg, answer, rest, rfl, up, sqlite, undone⟩
    have fails := undone.imp (fun found => found.1) fun found => found.2.1
    obtain ⟨maps, restores⟩ := exit_restores_iff distinct up sqlite fails ran
    exact ⟨restores.mpr undone, maps⟩

end

def holding : Manager := new.start (lit "b") (lit "b.db") (lit "http://127.0.0.1:4001")

def pair (answer : Except GoString GoString) : Storages :=
  [(lit "a", sqliteStore (lit "a.db"), .ok (lit "http://127.0.0.1:4002")), (lit "b", sqliteStore (lit "b.db"), answer)]

theorem pair_distinct (answer : Except GoString GoString) : ((pair answer).map Prod.fst).Nodup := by
  have different : [lit "a", lit "b"].Nodup := by decide +kernel
  exact different

theorem initBridges_fails (isPrint : Nat → Bool) (closeErr : GoString → Option GoString) (storages : Storages) (m : Manager)
    (none : (m.initBridges isPrint storages closeErr).2.toOption.isNone = true) :
    ∃ err, m.initBridges isPrint storages closeErr = ((m.initBridges isPrint storages closeErr).1, .error err) := by
  cases result : (m.initBridges isPrint storages closeErr).2 with
  | error err => exact ⟨err, Prod.ext rfl result⟩
  | ok bridgeURLs => simp [result, Except.toOption] at none

theorem init_error_restores : ∃ after err,
    new.initBridges (fun _ => true) (pair (.error (lit "listen"))) (fun _ => none) = (after, .error err) ∧
      (after.running = new.running ∧ after.maps = new.maps ↔ Undone (fun _ => none) (pair (.error (lit "listen"))) new) := by
  obtain ⟨err, failed⟩ := initBridges_fails (fun _ => true) (fun _ => none) (pair (.error (lit "listen"))) new
    (by decide +kernel)
  exact ⟨_, err, failed, init_error_restores_iff _ _ _ _ _ err (pair_distinct _) failed⟩

theorem taken_name_leaves_started_bridge :
    ¬ ∀ (isPrint : Nat → Bool) (closeErr : GoString → Option GoString) (storages : Storages) (m after : Manager)
      (err : GoString), (storages.map Prod.fst).Nodup → m.initBridges isPrint storages closeErr = (after, .error err) →
      after.running = m.running ∧ after.maps = m.maps := by
  intro restores
  obtain ⟨err, failed⟩ := initBridges_fails (fun _ => true) (fun _ => none) (pair (.ok (lit "http://127.0.0.1:4003"))) holding
    (by decide +kernel)
  obtain ⟨same, -⟩ := restores _ _ _ _ _ err (pair_distinct _) failed
  exact absurd (congrFun same (lit "a")) (by decide +kernel)

end Manager

end Brainkit.Storage
