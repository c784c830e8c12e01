import Brainkit.Libsql.ServerMoves

set_option autoImplicit false

namespace Brainkit.Libsql.Server

open Function (update)
open GoText DatabaseSql Transition

variable {R : Type}

def Isolated (s : Server R) : Prop := ∀ r ∈ s.resolved, r.found = r.own

def looksUp (stmt : StmtRequest) : Option Int := if stmt.sql = [] then stmt.sqlId else none

-- The stream that stored or closed the id last is the one that asks, or left under it what the one that asks did.
def Uncrossed (s : Server R) (stream : Nat) (stmt : StmtRequest) : Prop :=
  ∀ id, looksUp stmt = some id → ∀ other, s.writer id = some other → s.stored other id = s.stored stream id

def Apart (s : Server R) : Action R → Prop
  | .receive _ _ _ | .respond => True
  | .next _ => ∀ p, s.pipeline = some p → match p.batch with
      | none => match p.requests with
          | .execute (some stmt) :: _ => s.Uncrossed p.stream stmt
          | _ => True
      | some run => match run.steps with
          | [] => True
          | step :: _ => run.verdict step = some true → s.Uncrossed p.stream step.stmt

structure Cached (s : Server R) : Prop where
  shared : ∀ id other, s.writer id = some other → s.sqlCache id = s.stored other id
  unwritten : ∀ id, s.writer id = none → s.sqlCache id = none ∧ ∀ stream, s.stored stream id = none

theorem new_cached : Cached (new : Server R) where
  shared _ _ no := nomatch no
  unwritten _ _ := ⟨rfl, fun _ => rfl⟩

theorem cached_same {s next : Server R} (cached : Cached s) (sqlCache : next.sqlCache = s.sqlCache)
    (stored : next.stored = s.stored) (writer : next.writer = s.writer) : Cached next := by
  constructor
  · rw [sqlCache, stored, writer]
    exact cached.shared
  · rw [sqlCache, stored, writer]
    exact cached.unwritten

theorem cached_write {s next : Server R} (cached : Cached s) (stream : Nat) (id : Int) (text : Option GoString)
    (sqlCache : next.sqlCache = update s.sqlCache id text)
    (stored : next.stored = update s.stored stream (update (s.stored stream) id text))
    (writer : next.writer = update s.writer id (some stream)) : Cached next := by
  have elsewhere : ∀ other key, key ≠ id → next.stored other key = s.stored other key := by
    intro other key different
    rw [stored]
    by_cases same : other = stream
    · rw [same, Function.update_self, Function.update_of_ne different]
    · rw [Function.update_of_ne same]
  constructor
  · intro key other last
    by_cases same : key = id
    · rw [writer, same, Function.update_self] at last
      obtain rfl : stream = other := Option.some.inj last
      rw [sqlCache, stored, same, Function.update_self, Function.update_self, Function.update_self]
    · rw [writer, Function.update_of_ne same] at last
      rw [sqlCache, Function.update_of_ne same, elsewhere other key same]
      exact cached.shared key other last
  · intro key unwritten
    by_cases same : key = id
    · rw [writer, same, Function.update_self] at unwritten
      cases unwritten
    · rw [writer, Function.update_of_ne same] at unwritten
      obtain ⟨absent, never⟩ := cached.unwritten key unwritten
      refine ⟨by rw [sqlCache, Function.update_of_ne same, absent], fun other => ?_⟩
      rw [elsewhere other key same, never other]

structure SameCache (s next : Server R) : Prop where
  sqlCache : next.sqlCache = s.sqlCache
  stored : next.stored = s.stored
  writer : next.writer = s.writer
  resolved : next.resolved = s.resolved

theorem same_cache_note (s : Server R) (text : GoString) (inside : Option Nat) : SameCache s (s.note text inside) := by
  rw [note_frame]
  exact ⟨rfl, rfl, rfl, rfl⟩

theorem same_cache_on_tx (s : Server R) (t : Nat) (text : GoString) (db : Pool) : SameCache s (s.onTx t text db) := by
  cases alive : (s.db.tx t).done with
  | true =>
      rw [on_tx_done s t text db alive]
      exact ⟨rfl, rfl, rfl, rfl⟩
  | false =>
      rw [on_tx_alive s t text db alive]
      exact ⟨rfl, rfl, rfl, rfl⟩

theorem same_cache_executed {s next : Server R} {tx newTx : Option Nat} {reply : Reply R}
    {looked : Except GoString GoString} {sql : GoString} (moves : ExecMoves s tx reply looked next sql newTx) :
    SameCache s next := by
  cases moves with
  | missing => exact ⟨rfl, rfl, rfl, rfl⟩
  | refused sql =>
      obtain ⟨sqlCache, stored, writer, resolved⟩ := same_cache_note s sql none
      exact ⟨sqlCache, stored, writer, resolved⟩
  | begun sql =>
      obtain ⟨sqlCache, stored, writer, resolved⟩ := same_cache_note s sql none
      exact ⟨sqlCache, stored, writer, resolved⟩
  | nothing => exact ⟨rfl, rfl, rfl, rfl⟩
  | commit => exact same_cache_on_tx s _ _ _
  | rollback => exact same_cache_on_tx s _ _ _
  | inside => exact same_cache_on_tx s _ _ _
  | outside sql =>
      obtain ⟨sqlCache, stored, writer, resolved⟩ := same_cache_note s sql none
      exact ⟨sqlCache, stored, writer, resolved⟩

theorem resolved_lookup {s : Server R} {p : Pipeline R} (under : s.pipeline = some p) (stmt : StmtRequest) :
    (s.resolveSql stmt).1.resolved =
      s.resolved ++ ((looksUp stmt).map fun id => ⟨s.sqlCache id, s.stored p.stream id⟩).toList := by
  unfold resolveSql looksUp
  split
  · split
    next id named => simp only [named, noteLookup, under, Option.map_some, Option.toList_some]
    next named => simp only [named, Option.map_none, Option.toList_none, List.append_nil]
  · simp only [Option.map_none, Option.toList_none, List.append_nil]

theorem found_own_iff {s : Server R} (cached : Cached s) (stream : Nat) (id : Int) :
    s.sqlCache id = s.stored stream id ↔ ∀ other, s.writer id = some other → s.stored other id = s.stored stream id := by
  cases last : s.writer id with
  | none =>
      obtain ⟨absent, never⟩ := cached.unwritten id last
      simp only [absent, never, reduceCtorEq, implies_true]
  | some other =>
      simp only [cached.shared id other last, Option.some.injEq, forall_eq']

theorem isolated_statement {s next : Server R} {p : Pipeline R} {stmt : StmtRequest} {tx newTx : Option Nat}
    {reply : Reply R} {sql : GoString} {result : Except GoString (ExecResult R)} (cached : Cached s)
    (under : s.pipeline = some p) (taken : s.executeStmt stmt tx reply = some (next, sql, result, newTx)) :
    Isolated next ↔ Isolated s ∧ s.Uncrossed p.stream stmt := by
  have same := same_cache_executed (exec_moves s next stmt tx newTx reply sql result taken)
  rw [Isolated, same.resolved, resolved_lookup under, Uncrossed]
  simp only [List.mem_append, or_imp, forall_and, Option.mem_toList, Option.map_eq_some_iff, forall_exists_index, and_imp,
    forall_apply_eq_imp_iff₂, found_own_iff cached]
  exact Iff.rfl

theorem cached_statement {s next : Server R} {stmt : StmtRequest} {tx newTx : Option Nat} {reply : Reply R} {sql : GoString}
    {result : Except GoString (ExecResult R)} (cached : Cached s)
    (taken : s.executeStmt stmt tx reply = some (next, sql, result, newTx)) : Cached next := by
  have same := same_cache_executed (exec_moves s next stmt tx newTx reply sql result taken)
  rw [resolve_frame] at same
  exact cached_same cached same.sqlCache same.stored same.writer

theorem cached_step (s : Server R) (action : Action R) (next : Server R) (cached : Cached s)
    (taken : step s action = some next) : Cached next := by
  cases moves_of_step s action next taken with
  | execute reply p stmt rest under plain head after sql newTx result executed =>
      exact cached_same (cached_statement cached executed) rfl rfl rfl
  | batchStep reply p run batchStep rest under batch head verdict after sql newTx result executed =>
      exact cached_same (cached_statement cached executed) rfl rfl rfl
  | sequence reply p sql rest under plain head db result ran =>
      obtain ⟨sqlCache, stored, writer, -⟩ := same_cache_note s sql none
      exact cached_same cached sqlCache stored writer
  | storeSql reply p sqlId sql rest =>
      cases sqlId with
      | none => exact cached_same cached rfl rfl rfl
      | some id =>
          cases sql with
          | none => exact cached_same cached rfl rfl rfl
          | some text => exact cached_write cached p.stream id (some text) rfl rfl rfl
  | closeSql reply p sqlId rest =>
      cases sqlId with
      | none => exact cached_same cached rfl rfl rfl
      | some id => exact cached_write cached p.stream id none rfl rfl rfl
  | close reply p rest =>
      cases p.tx <;> exact cached_same cached rfl rfl rfl
  | _ => exact cached_same cached rfl rfl rfl

theorem apart_plain {s : Server R} {p : Pipeline R} {entry : PipelineEntry} {rest : List PipelineEntry} (reply : Reply R)
    (under : s.pipeline = some p) (plain : p.batch = none) (head : p.requests = entry :: rest)
    (execute : ∀ stmt, entry ≠ .execute (some stmt)) : s.Apart (.next reply) := by
  intro q same
  obtain rfl : p = q := Option.some.inj (under.symm.trans same)
  simp only [plain, head]
  cases entry with
  | execute stmt =>
      cases stmt with
      | none => trivial
      | some stmt => exact absurd rfl (execute stmt)
  | _ => trivial

theorem apart_batch {s : Server R} {p : Pipeline R} {run : BatchRun R} (reply : Reply R) (under : s.pipeline = some p)
    (batch : p.batch = some run) (unmet : ∀ step ∈ run.steps.head?, run.verdict step ≠ some true) :
    s.Apart (.next reply) := by
  intro q same
  obtain rfl : p = q := Option.some.inj (under.symm.trans same)
  simp only [batch]
  cases steps : run.steps with
  | nil => trivial
  | cons step rest =>
      rw [steps] at unmet
      exact fun met => absurd met (unmet step rfl)

theorem isolated_apart {s next : Server R} {action : Action R} (resolved : next.resolved = s.resolved)
    (apart : s.Apart action) : Isolated next ↔ Isolated s ∧ s.Apart action := by
  rw [Isolated, resolved]
  exact (and_iff_left apart).symm

theorem isolated_step (s : Server R) (action : Action R) (next : Server R) (cached : Cached s)
    (taken : step s action = some next) : Isolated next ↔ Isolated s ∧ s.Apart action := by
  cases moves_of_step s action next taken with
  | receive => exact (and_iff_left trivial).symm
  | answer reply p entry rest under plain head atOnce result =>
      exact isolated_apart rfl (apart_plain reply under plain head (ne_execute_of_quiet atOnce))
  | execute reply p stmt rest under plain head after sql newTx result executed =>
      have isolated := isolated_statement cached under executed
      rw [Apart]
      simp only [under, Option.some.injEq, forall_eq', plain, head]
      exact isolated
  | beginBatch reply p steps rest under plain head =>
      exact isolated_apart rfl (apart_plain reply under plain head nofun)
  | sequence reply p sql rest under plain head db result ran =>
      exact isolated_apart (same_cache_note s sql none).resolved (apart_plain reply under plain head nofun)
  | storeSql reply p sqlId sql rest under plain head =>
      have resolved : (s.storeSql p sqlId sql).resolved = s.resolved := by cases sqlId <;> cases sql <;> rfl
      exact isolated_apart resolved (apart_plain reply under plain head nofun)
  | closeSql reply p sqlId rest under plain head =>
      have resolved : (s.closeSql p sqlId).resolved = s.resolved := by cases sqlId <;> rfl
      exact isolated_apart resolved (apart_plain reply under plain head nofun)
  | close reply p rest under plain head =>
      have resolved : (s.close p.tx).resolved = s.resolved := by cases p.tx <;> rfl
      exact isolated_apart resolved (apart_plain reply under plain head nofun)
  | panic reply p run batchStep rest under batch head verdict =>
      exact isolated_apart rfl (apart_batch reply under batch (by simp [head, verdict]))
  | skip reply p run batchStep rest under batch head verdict =>
      exact isolated_apart rfl (apart_batch reply under batch (by simp [head, verdict]))
  | batchStep reply p run batchStep rest under batch head verdict after sql newTx result executed results errors =>
      have isolated := isolated_statement cached under executed
      rw [Apart]
      simp only [under, Option.some.injEq, forall_eq', batch, head, verdict, forall_const]
      exact isolated
  | endBatch reply p run under batch done result =>
      exact isolated_apart rfl (apart_batch reply under batch (by simp [done]))
  | respond p under plain done empty => exact (and_iff_left trivial).symm
  | rotate p under plain done t current => exact (and_iff_left trivial).symm

theorem always_isolated_iff {s : Server R} {path : List (Action R)} (reached : run step new path = some s) :
    Always step Isolated new path ↔ Along step Apart new path := by
  have exactly : ∀ (state : Server R) action next, Cached state → Isolated state → step state action = some next →
      (Isolated next ↔ state.Apart action) := by
    intro state action next cached isolated taken
    rw [isolated_step state action next cached taken, and_iff_right isolated]
  have initial : Isolated (new : Server R) := fun _ no => nomatch no
  exact always_iff_along cached_step exactly new_cached initial reached

def storing (id : Int) (text : String) : PipelineEntry := .storeSql (some id) (some (lit text))

def byId (id : Int) : PipelineEntry := .execute (some ⟨[], some id⟩)

def numbered : List (Action Unit) :=
  [.receive 0 none [storing 1 "SELECT 1"], .next (answered false), .respond,
    .receive 1 none [storing 2 "SELECT 2"], .next (answered false), .respond,
    .receive 0 none [byId 1], .next (answered false), .respond]

theorem numbered_isolated : Always step Isolated new numbered := by
  have apart : Along step Apart new numbered := by
    refine along_cons trivial rfl ?_
    refine along_cons (by rintro p ⟨⟩; trivial) rfl ?_
    refine along_cons trivial rfl ?_
    refine along_cons trivial rfl ?_
    refine along_cons (by rintro p ⟨⟩; trivial) rfl ?_
    refine along_cons trivial rfl ?_
    refine along_cons trivial rfl ?_
    refine along_cons ?_ rfl ?_
    · rintro p ⟨⟩ id ⟨⟩ other ⟨⟩
      rfl
    exact along_cons trivial rfl trivial
  exact (always_isolated_iff rfl).mpr apart

def collided : List (Action Unit) :=
  [.receive 0 none [storing 1 "SELECT 1"], .next (answered false), .respond,
    .receive 1 none [storing 1 "DELETE FROM t"], .next (answered false), .respond,
    .receive 0 none [byId 1], .next (answered false), .respond]

theorem collided_not_isolated : ∃ s, run step new collided = some s ∧ ¬ Isolated s := by
  refine ⟨_, rfl, fun isolated => ?_⟩
  have same := isolated ⟨some (lit "DELETE FROM t"), some (lit "SELECT 1")⟩ (.head _)
  exact absurd same (by decide)

end Brainkit.Libsql.Server
