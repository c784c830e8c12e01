import Brainkit.Libsql.Server

set_option autoImplicit false

namespace Brainkit.Libsql.Server

open Function (update)
open GoText DatabaseSql

variable {R : Type}

inductive ExecMoves (s : Server R) (tx : Option Nat) (reply : Reply R) :
    Except GoString GoString → Server R → GoString → Option Nat → Prop where
  | missing (err : GoString) : ExecMoves s tx reply (.error err) s [] none
  | refused (sql err : GoString) (begins : command (trimSpace sql) = .begin) (db : Pool)
      (begun : s.db.begin reply = some (db, .error err)) :
      ExecMoves s tx reply (.ok sql) { s.note sql none with db := db } sql none
  | begun (sql : GoString) (begins : command (trimSpace sql) = .begin) (db : Pool) (t : Nat)
      (begun : s.db.begin reply = some (db, .ok t)) :
      ExecMoves s tx reply (.ok sql) { s.note sql none with db := db } sql (some t)
  | nothing (sql : GoString) (ends : command (trimSpace sql) = .commit ∨ command (trimSpace sql) = .rollback)
      (empty : tx = none) : ExecMoves s tx reply (.ok sql) s sql none
  | commit (sql : GoString) (commits : command (trimSpace sql) = .commit) (t : Nat) (current : tx = some t) :
      ExecMoves s tx reply (.ok sql) (s.onTx t sql (s.db.commit t reply).1) sql none
  | rollback (sql : GoString) (rolls : command (trimSpace sql) = .rollback) (t : Nat) (current : tx = some t) :
      ExecMoves s tx reply (.ok sql) (s.onTx t sql (s.db.rollback t)) sql none
  | inside (sql : GoString) (plain : command (trimSpace sql) = .statement) (t : Nat) (current : tx = some t) :
      ExecMoves s tx reply (.ok sql) (s.onTx t sql (s.db.execTx t reply).1) sql none
  | outside (sql : GoString) (plain : command (trimSpace sql) = .statement) (empty : tx = none) (db : Pool)
      (result : Except GoString R) (ran : s.db.exec reply = some (db, result)) :
      ExecMoves s tx reply (.ok sql) { s.note sql none with db := db } sql none

theorem resolve_error (s : Server R) (stmt : StmtRequest) (err : GoString) (missed : (s.resolveSql stmt).2 = .error err) :
    stmt.sql = [] := by
  unfold resolveSql at missed
  split at missed
  next empty => exact empty
  next => cases missed

theorem exec_moves (s next : Server R) (stmt : StmtRequest) (tx newTx : Option Nat) (reply : Reply R) (sql : GoString)
    (result : Except GoString (ExecResult R)) (taken : s.executeStmt stmt tx reply = some (next, sql, result, newTx)) :
    ExecMoves (s.resolveSql stmt).1 tx reply (s.resolveSql stmt).2 next sql newTx := by
  have empty := s.resolve_error stmt
  unfold executeStmt at taken
  generalize s.resolveSql stmt = looked at taken empty ⊢
  obtain ⟨after, text⟩ := looked
  cases text with
  | error err =>
      cases taken
      rw [empty err rfl]
      exact .missing err
  | ok text =>
      simp only at taken
      split at taken
      next begins =>
        simp only [beginTx, Option.map_map, Option.map_eq_some_iff] at taken
        obtain ⟨⟨db, begun⟩, opened, same⟩ := taken
        cases same
        cases begun with
        | error err => exact .refused _ err begins db opened
        | ok t => exact .begun _ begins db t opened
      next commits =>
        cases tx with
        | none =>
            cases taken
            exact .nothing _ (.inl commits) rfl
        | some t =>
            cases taken
            exact .commit _ commits t rfl
      next rolls =>
        cases tx with
        | none =>
            cases taken
            exact .nothing _ (.inr rolls) rfl
        | some t =>
            cases taken
            exact .rollback _ rolls t rfl
      next plain =>
        cases tx with
        | none =>
            simp only [execStmt, Option.map_map, Option.map_eq_some_iff] at taken
            obtain ⟨⟨db, answered⟩, ran, same⟩ := taken
            cases same
            exact .outside _ plain rfl db answered ran
        | some t =>
            cases taken
            exact .inside _ plain t rfl

theorem resolve_frame (s : Server R) (stmt : StmtRequest) :
    (s.resolveSql stmt).1 = { s with resolved := (s.resolveSql stmt).1.resolved } := by
  unfold resolveSql noteLookup
  split
  · split
    · split <;> rfl
    · rfl
  · rfl

theorem note_frame (s : Server R) (text : GoString) (inside : Option Nat) :
    s.note text inside = { s with ran := (s.note text inside).ran } := by
  unfold note
  split <;> rfl

theorem on_tx_done (s : Server R) (t : Nat) (text : GoString) (db : Pool) (done : (s.db.tx t).done = true) :
    s.onTx t text db = s := by
  simp [onTx, done]

theorem on_tx_alive (s : Server R) (t : Nat) (text : GoString) (db : Pool) (alive : (s.db.tx t).done = false) :
    s.onTx t text db = { s with
      ran := (s.note text (if s.db.Open t then some t else none)).ran
      db := db
      concluded := update s.concluded t (s.concluded t || !db.inTx (s.db.conn t)) } := by
  simp only [onTx, alive, Bool.false_eq_true, if_false]
  rw [note_frame]

def quiet : PipelineEntry → Bool
  | .execute none | .batch none | .sequence none | .getAutocommit | .other _ => true
  | .execute (some _) | .batch (some _) | .sequence (some _) | .storeSql _ _ | .closeSql _ | .close => false

theorem ne_execute_of_quiet {entry : PipelineEntry} (atOnce : quiet entry = true) (stmt : StmtRequest) :
    entry ≠ .execute (some stmt) := by
  intro same
  rw [same] at atOnce
  cases atOnce

inductive Moves (s : Server R) : Action R → Server R → Prop where
  | receive (stream : Nat) (baton : Option GoString) (requests : List PipelineEntry) (idle : s.pipeline = none) :
      Moves s (.receive stream baton requests) { s with
        pipeline := some ⟨stream, baton, s.lookup baton, s.lookup baton, requests, none, []⟩ }
  | answer (reply : Reply R) (p : Pipeline R) (entry : PipelineEntry) (rest : List PipelineEntry)
      (under : s.pipeline = some p) (plain : p.batch = none) (head : p.requests = entry :: rest)
      (atOnce : quiet entry = true) (result : PipelineResult R) :
      Moves s (.next reply) (s.answer { p with requests := rest } result)
  | execute (reply : Reply R) (p : Pipeline R) (stmt : StmtRequest) (rest : List PipelineEntry)
      (under : s.pipeline = some p) (plain : p.batch = none) (head : p.requests = .execute (some stmt) :: rest)
      (next : Server R) (sql : GoString) (newTx : Option Nat) (result : Except GoString (ExecResult R))
      (taken : s.executeStmt stmt p.tx reply = some (next, sql, result, newTx)) :
      Moves s (.next reply) (next.answer { p with requests := rest, tx := newTx.or p.tx } (result.map .execute))
  | beginBatch (reply : Reply R) (p : Pipeline R) (steps : List BatchStep) (rest : List PipelineEntry)
      (under : s.pipeline = some p) (plain : p.batch = none) (head : p.requests = .batch (some steps) :: rest) :
      Moves s (.next reply) { s with pipeline := some { p with requests := rest, batch := some ⟨steps, [], [], p.tx⟩ } }
  | sequence (reply : Reply R) (p : Pipeline R) (sql : GoString) (rest : List PipelineEntry)
      (under : s.pipeline = some p) (plain : p.batch = none) (head : p.requests = .sequence (some sql) :: rest)
      (db : Pool) (result : Except GoString R) (ran : s.db.exec reply = some (db, result)) :
      Moves s (.next reply) (answer { p with requests := rest } (result.map fun _ => .sequence)
        { s.note sql none with db := db })
  | storeSql (reply : Reply R) (p : Pipeline R) (sqlId : Option Int) (sql : Option GoString) (rest : List PipelineEntry)
      (under : s.pipeline = some p) (plain : p.batch = none) (head : p.requests = .storeSql sqlId sql :: rest) :
      Moves s (.next reply) ((s.storeSql p sqlId sql).answer { p with requests := rest } (.ok .storeSql))
  | closeSql (reply : Reply R) (p : Pipeline R) (sqlId : Option Int) (rest : List PipelineEntry)
      (under : s.pipeline = some p) (plain : p.batch = none) (head : p.requests = .closeSql sqlId :: rest) :
      Moves s (.next reply) ((s.closeSql p sqlId).answer { p with requests := rest } (.ok .closeSql))
  | close (reply : Reply R) (p : Pipeline R) (rest : List PipelineEntry) (under : s.pipeline = some p)
      (plain : p.batch = none) (head : p.requests = .close :: rest) :
      Moves s (.next reply) ((s.close p.tx).answer { p with requests := rest, tx := none } (.ok .close))
  | panic (reply : Reply R) (p : Pipeline R) (run : BatchRun R) (step : BatchStep) (rest : List BatchStep)
      (under : s.pipeline = some p) (batch : p.batch = some run) (head : run.steps = step :: rest)
      (verdict : run.verdict step = none) : Moves s (.next reply) { s with pipeline := none }
  | skip (reply : Reply R) (p : Pipeline R) (run : BatchRun R) (step : BatchStep) (rest : List BatchStep)
      (under : s.pipeline = some p) (batch : p.batch = some run) (head : run.steps = step :: rest)
      (verdict : run.verdict step = some false) : Moves s (.next reply) { s with pipeline := some { p with
        batch := some ⟨rest, run.stepResults ++ [none], run.stepErrors ++ [none], run.tx⟩ } }
  | batchStep (reply : Reply R) (p : Pipeline R) (run : BatchRun R) (step : BatchStep) (rest : List BatchStep)
      (under : s.pipeline = some p) (batch : p.batch = some run) (head : run.steps = step :: rest)
      (verdict : run.verdict step = some true) (next : Server R) (sql : GoString) (newTx : Option Nat)
      (result : Except GoString (ExecResult R))
      (taken : s.executeStmt step.stmt run.tx reply = some (next, sql, result, newTx))
      (results : List (Option (ExecResult R))) (errors : List (Option GoString)) :
      Moves s (.next reply) { next with pipeline := some { p with
        batch := some ⟨rest, results, errors, if endsTx (trimSpace sql) then p.tx else newTx.or run.tx⟩ } }
  | endBatch (reply : Reply R) (p : Pipeline R) (run : BatchRun R) (under : s.pipeline = some p)
      (batch : p.batch = some run) (done : run.steps = []) (result : PipelineResult R) :
      Moves s (.next reply) (s.answer { p with batch := none } result)
  | respond (p : Pipeline R) (under : s.pipeline = some p) (plain : p.batch = none) (done : p.requests = [])
      (empty : p.tx = none) : Moves s .respond { s with pipeline := none }
  | rotate (p : Pipeline R) (under : s.pipeline = some p) (plain : p.batch = none) (done : p.requests = []) (t : Nat)
      (current : p.tx = some t) : Moves s .respond { s with
        batonID := s.batonID + 1
        batons := update s.batons (batonName (s.batonID + 1)) (some t)
        pipeline := none }

theorem moves_of_entry (s : Server R) (p : Pipeline R) (entry : PipelineEntry) (rest : List PipelineEntry)
    (reply : Reply R) (next : Server R) (under : s.pipeline = some p) (plain : p.batch = none)
    (head : p.requests = entry :: rest)
    (taken : s.handleEntry { p with requests := rest } entry reply = some next) : Moves s (.next reply) next := by
  cases entry with
  | execute stmt =>
      cases stmt with
      | none =>
          cases taken
          exact .answer reply p _ rest under plain head rfl _
      | some stmt =>
          simp only [handleEntry, Server.execute, Option.map_eq_some_iff] at taken
          obtain ⟨⟨after, sql, result, newTx⟩, executed, rfl⟩ := taken
          exact .execute reply p stmt rest under plain head after sql newTx result executed
  | batch steps =>
      cases steps with
      | none =>
          cases taken
          exact .answer reply p _ rest under plain head rfl _
      | some steps =>
          cases taken
          exact .beginBatch reply p steps rest under plain head
  | sequence sql =>
      cases sql with
      | none =>
          cases taken
          exact .answer reply p _ rest under plain head rfl _
      | some sql =>
          simp only [handleEntry, Server.sequence, Option.map_eq_some_iff] at taken
          obtain ⟨⟨db, result⟩, ran, rfl⟩ := taken
          exact .sequence reply p sql rest under plain head db result ran
  | getAutocommit =>
      cases taken
      exact .answer reply p _ rest under plain head rfl _
  | storeSql sqlId sql =>
      cases taken
      exact .storeSql reply p sqlId sql rest under plain head
  | closeSql sqlId =>
      cases taken
      exact .closeSql reply p sqlId rest under plain head
  | close =>
      cases taken
      exact .close reply p rest under plain head
  | other type =>
      cases taken
      exact .answer reply p _ rest under plain head rfl _

theorem moves_of_batch_step (s : Server R) (p : Pipeline R) (run : BatchRun R) (step : BatchStep) (rest : List BatchStep)
    (reply : Reply R) (next : Server R) (under : s.pipeline = some p) (batch : p.batch = some run)
    (head : run.steps = step :: rest) (taken : s.batchStep p run step rest reply = some next) :
    Moves s (.next reply) next := by
  unfold Server.batchStep at taken
  split at taken
  next verdict =>
    cases taken
    exact .panic reply p run step rest under batch head verdict
  next verdict =>
    cases taken
    exact .skip reply p run step rest under batch head verdict
  next verdict =>
    obtain ⟨⟨after, sql, result, newTx⟩, executed, rfl⟩ := Option.map_eq_some_iff.mp taken
    exact .batchStep reply p run step rest under batch head verdict after sql newTx result executed _ _

theorem moves_of_step (s : Server R) (action : Action R) (next : Server R) (taken : step s action = some next) :
    Moves s action next := by
  cases action with
  | receive stream baton requests =>
      simp only [step, Server.receive] at taken
      split at taken
      · cases taken
      next idle =>
        cases taken
        exact .receive stream baton requests idle
  | next reply =>
      simp only [step, handleNext] at taken
      split at taken
      · cases taken
      next p under =>
        split at taken
        next run batch =>
          split at taken
          next step rest head => exact moves_of_batch_step s p run step rest reply next under batch head taken
          next done =>
            cases taken
            exact .endBatch reply p run under batch done _
        next plain =>
          split at taken
          next entry rest head => exact moves_of_entry s p entry rest reply next under plain head taken
          · cases taken
  | respond =>
      simp only [step, Server.respond] at taken
      split at taken
      next stream baton denoted tx results under =>
        cases tx with
        | none =>
            cases taken
            exact .respond _ under rfl rfl rfl
        | some t =>
            cases taken
            exact .rotate _ under rfl rfl t rfl
      · cases taken

end Brainkit.Libsql.Server
