import Brainkit.Library.DatabaseSql
import Brainkit.Library.Transition

set_option autoImplicit false

namespace Brainkit.Libsql

open Function (update)
open GoText DatabaseSql

-- The arguments of a statement go to the driver as they are; what it makes of them is in its reply.
structure StmtRequest where
  sql : GoString
  sqlId : Option Int
deriving DecidableEq

inductive BatchCondition where
  | ok (step : Option Int)
  | error (step : Option Int)
  | not (cond : Option BatchCondition)
  | and (conds : List BatchCondition)
  | or (conds : List BatchCondition)
  | isAutocommit
  | other

structure BatchStep where
  stmt : StmtRequest
  condition : Option BatchCondition

inductive PipelineEntry where
  | execute (stmt : Option StmtRequest)
  | batch (steps : Option (List BatchStep))
  | sequence (sql : Option GoString)
  | getAutocommit
  | storeSql (sqlId : Option Int) (sql : Option GoString)
  | closeSql (sqlId : Option Int)
  | close
  | other (type : GoString)

-- emptyResult, or what the driver returned.
inductive ExecResult (R : Type) where
  | empty
  | rows (value : R)

inductive Response (R : Type) where
  | execute (result : ExecResult R)
  | batch (stepResults : List (Option (ExecResult R))) (stepErrors : List (Option GoString))
  | sequence
  | getAutocommit (isAutocommit : Bool)
  | storeSql
  | closeSql
  | close

abbrev PipelineResult (R : Type) := Except GoString (Response R)

-- executeBatch: the steps to come, the results and errors of the steps before them, and batchTx. The slices of the
-- source have all their slots from the start; the later ones are nil.
structure BatchRun (R : Type) where
  steps : List BatchStep
  stepResults : List (Option (ExecResult R))
  stepErrors : List (Option GoString)
  tx : Option Nat

-- handlePipeline. The stream that sent the pipeline and the transaction its baton denoted at the lookup are history.
structure Pipeline (R : Type) where
  stream : Nat
  baton : Option GoString
  denoted : Option Nat
  tx : Option Nat
  requests : List PipelineEntry
  batch : Option (BatchRun R)
  results : List (PipelineResult R)

-- A statement that reached the driver: whether its pipeline presented a baton and what this denoted, and the open
-- transaction it ran in.
structure Ran where
  meant : Option (Option Nat)
  text : GoString
  inside : Option Nat

-- A lookup of a stored text: what the cache had, and what the stream had last stored itself.
structure Resolved where
  found : Option GoString
  own : Option GoString

-- ran, resolved, stored, writer and concluded are history: the statements and lookups so far, what each stream has stored
-- and not closed, the stream whose store_sql or close_sql was the last one for an id, and the transactions that were
-- committed, rolled back or left by a closed stream. dbMu admits one pipeline that needs to write; those that only
-- query share it, and are taken one after the other.
structure Server (R : Type) where
  batons : GoString → Option Nat
  batonID : Nat
  sqlCache : Int → Option GoString
  db : Pool
  pipeline : Option (Pipeline R)
  ran : List Ran
  resolved : List Resolved
  stored : Nat → Int → Option GoString
  writer : Int → Option Nat
  concluded : Nat → Bool

def isCmd (s cmd : GoString) : Bool :=
  if s.length < cmd.length then false
  else if !equalFold (s.take cmd.length) cmd then false
  else match s[cmd.length]? with
    | none => true
    | some next => next = 32 || next = 9 || next = 10 || next = 13 || next = 59 || next = 40

-- The switch of executeStmt on a trimmed text; it is entered from five bytes on.
inductive Command where
  | begin
  | commit
  | rollback
  | statement
deriving DecidableEq

def command (trimmed : GoString) : Command :=
  if trimmed.length < 5 then .statement
  else if isCmd trimmed (lit "BEGIN") then .begin
  else if isCmd trimmed (lit "COMMIT") || isCmd trimmed (lit "END") then .commit
  else if isCmd trimmed (lit "ROLLBACK") then .rollback
  else .statement

-- The test of executeBatch after a step; it asks for no length.
def endsTx (trimmed : GoString) : Bool :=
  isCmd trimmed (lit "COMMIT") || isCmd trimmed (lit "END") || isCmd trimmed (lit "ROLLBACK")

-- results[i] != nil for an index below len(results); a negative index panics.
def slot {α : Type} (slots : List (Option α)) : Option Int → Option Bool
  | none => some false
  | some (.ofNat i) => some (slots[i]?.join.isSome)
  | some (.negSucc _) => none

section

variable {R : Type}

-- none is a panic.
mutual

def evalCondition (results : List (Option (ExecResult R))) (errors : List (Option GoString)) :
    BatchCondition → Option Bool
  | .ok step => slot results step
  | .error step => slot errors step
  | .not none => some true
  | .not (some cond) => (evalCondition results errors cond).map Bool.not
  | .and conds => evalAll results errors conds
  | .or conds => evalAny results errors conds
  | .isAutocommit => some true
  | .other => some true

def evalAll (results : List (Option (ExecResult R))) (errors : List (Option GoString)) :
    List BatchCondition → Option Bool
  | [] => some true
  | cond :: rest => match evalCondition results errors cond with
      | some true => evalAll results errors rest
      | verdict => verdict

def evalAny (results : List (Option (ExecResult R))) (errors : List (Option GoString)) :
    List BatchCondition → Option Bool
  | [] => some false
  | cond :: rest => match evalCondition results errors cond with
      | some false => evalAny results errors rest
      | verdict => verdict

end

namespace Server

def new : Server R where
  batons _ := none
  batonID := 0
  sqlCache _ := none
  db := .new
  pipeline := none
  ran := []
  resolved := []
  stored _ _ := none
  writer _ := none
  concluded _ := false

end Server

def Pipeline.meant (p : Pipeline R) : Option (Option Nat) := if p.baton.any (· ≠ []) then some p.denoted else none

def Pipeline.inner (p : Pipeline R) : Option Nat :=
  match p.batch with
  | none => p.tx
  | some run => run.tx

def BatchRun.verdict (run : BatchRun R) (step : BatchStep) : Option Bool :=
  match step.condition with
  | none => some true
  | some cond => evalCondition run.stepResults run.stepErrors cond

def Pipeline.push (result : PipelineResult R) (p : Pipeline R) : Pipeline R := { p with results := p.results ++ [result] }

namespace Server

def note (text : GoString) (inside : Option Nat) (s : Server R) : Server R :=
  match s.pipeline with
  | some p => { s with ran := s.ran ++ [⟨p.meant, text, inside⟩] }
  | none => s

def noteLookup (id : Int) (s : Server R) : Server R :=
  match s.pipeline with
  | some p => { s with resolved := s.resolved ++ [⟨s.sqlCache id, s.stored p.stream id⟩] }
  | none => s

-- A call on a transaction that is not done reaches the driver and leaves the pool as db.
def onTx (t : Nat) (text : GoString) (db : Pool) (s : Server R) : Server R :=
  if (s.db.tx t).done then s
  else { s.note text (if s.db.Open t then some t else none) with
    db := db
    concluded := update s.concluded t (s.concluded t || !db.inTx (s.db.conn t)) }

def beginTx (text : GoString) (reply : Reply R) (s : Server R) :
    Option (Server R × Except GoString (ExecResult R) × Option Nat) :=
  (s.db.begin reply).map fun (db, result) =>
    ({ s.note text none with db := db }, result.map fun _ => .empty, result.toOption)

def commitTx (text : GoString) (tx : Option Nat) (reply : Reply R) (s : Server R) :
    Server R × Except GoString (ExecResult R) :=
  match tx with
  | none => (s, .ok .empty)
  | some t =>
      let (db, result) := s.db.commit t reply
      (s.onTx t text db, result.map fun _ => .empty)

def rollbackTx (text : GoString) (tx : Option Nat) (s : Server R) : Server R :=
  match tx with
  | none => s
  | some t => s.onTx t text (s.db.rollback t)

-- executeQuery and executeExec: isQuery chooses between two calls of one and the same executor.
def execStmt (text : GoString) (tx : Option Nat) (reply : Reply R) (s : Server R) :
    Option (Server R × Except GoString (ExecResult R)) :=
  match tx with
  | some t =>
      let (db, result) := s.db.execTx t reply
      some (s.onTx t text db, result.map .rows)
  | none => (s.db.exec reply).map fun (db, result) => ({ s.note text none with db := db }, result.map .rows)

def resolveSql (stmt : StmtRequest) (s : Server R) : Server R × Except GoString GoString :=
  if stmt.sql = [] then
    match stmt.sqlId with
    | some id => (s.noteLookup id, match s.sqlCache id with
        | some cached => .ok cached
        | none => .error (lit "sql_id " ++ decimal id ++ lit " not found in cache"))
    | none => (s, .ok stmt.sql)
  else (s, .ok stmt.sql)

def executeStmt (stmt : StmtRequest) (tx : Option Nat) (reply : Reply R) (s : Server R) :
    Option (Server R × GoString × Except GoString (ExecResult R) × Option Nat) :=
  let (s, text) := s.resolveSql stmt
  match text with
  | .error err => some (s, stmt.sql, .error err, none)
  | .ok sql => match command (trimSpace sql) with
      | .begin => (s.beginTx sql reply).map fun (s, result, newTx) => (s, sql, result, newTx)
      | .commit =>
          let (s, result) := s.commitTx sql tx reply
          some (s, sql, result, none)
      | .rollback => some (s.rollbackTx sql tx, sql, .ok .empty, none)
      | .statement => (s.execStmt sql tx reply).map fun (s, result) => (s, sql, result, none)

def lookup (baton : Option GoString) (s : Server R) : Option Nat :=
  baton.bind fun name => if name = [] then none else s.batons name

def receive (stream : Nat) (baton : Option GoString) (requests : List PipelineEntry) (s : Server R) : Option (Server R) :=
  match s.pipeline with
  | some _ => none
  | none =>
      let tx := s.lookup baton
      some { s with pipeline := some ⟨stream, baton, tx, tx, requests, none, []⟩ }

def answer (p : Pipeline R) (result : PipelineResult R) (s : Server R) : Server R := { s with pipeline := some (p.push result) }

def execute (p : Pipeline R) (stmt : StmtRequest) (reply : Reply R) (s : Server R) : Option (Server R) :=
  (s.executeStmt stmt p.tx reply).map fun (s, _, result, newTx) =>
    s.answer { p with tx := newTx.or p.tx } (result.map .execute)

def sequence (p : Pipeline R) (sql : GoString) (reply : Reply R) (s : Server R) : Option (Server R) :=
  (s.db.exec reply).map fun (db, result) =>
    answer p (result.map fun _ => .sequence) { s.note sql none with db := db }

def storeSql (p : Pipeline R) (sqlId : Option Int) (sql : Option GoString) (s : Server R) : Server R :=
  match sqlId, sql with
  | some id, some text => { s with
      sqlCache := update s.sqlCache id (some text)
      stored := update s.stored p.stream (update (s.stored p.stream) id (some text))
      writer := update s.writer id (some p.stream) }
  | _, _ => s

def closeSql (p : Pipeline R) (sqlId : Option Int) (s : Server R) : Server R :=
  match sqlId with
  | some id => { s with
      sqlCache := update s.sqlCache id none
      stored := update s.stored p.stream (update (s.stored p.stream) id none)
      writer := update s.writer id (some p.stream) }
  | none => s

-- Every baton of the stream's transaction goes; the transaction is left as it is.
def close (tx : Option Nat) (s : Server R) : Server R :=
  match tx with
  | some t => { s with
      batons := fun name => if s.batons name = some t then none else s.batons name
      concluded := update s.concluded t true }
  | none => s

def handleEntry (p : Pipeline R) (entry : PipelineEntry) (reply : Reply R) (s : Server R) : Option (Server R) :=
  match entry with
  | .execute none => some (s.answer p (.error (lit "missing stmt")))
  | .execute (some stmt) => s.execute p stmt reply
  | .batch none => some (s.answer p (.error (lit "missing batch")))
  | .batch (some steps) => some { s with pipeline := some { p with batch := some ⟨steps, [], [], p.tx⟩ } }
  | .sequence none => some (s.answer p (.ok .sequence))
  | .sequence (some sql) => s.sequence p sql reply
  | .getAutocommit => some (s.answer p (.ok (.getAutocommit p.tx.isNone)))
  | .storeSql sqlId sql => some ((s.storeSql p sqlId sql).answer p (.ok .storeSql))
  | .closeSql sqlId => some ((s.closeSql p sqlId).answer p (.ok .closeSql))
  | .close => some ((s.close p.tx).answer { p with tx := none } (.ok .close))
  | .other type => some (s.answer p (.error (lit "unsupported request type: " ++ type)))

-- One step of executeBatch. A panic ends the request: net/http recovers it and the deferred unlock runs.
def batchStep (p : Pipeline R) (run : BatchRun R) (step : BatchStep) (rest : List BatchStep) (reply : Reply R)
    (s : Server R) : Option (Server R) :=
  match run.verdict step with
  | none => some { s with pipeline := none }
  | some false => some { s with pipeline := some { p with
      batch := some ⟨rest, run.stepResults ++ [none], run.stepErrors ++ [none], run.tx⟩ } }
  | some true => (s.executeStmt step.stmt run.tx reply).map fun (s, sql, result, newTx) =>
      { s with pipeline := some { p with
        batch := some {
          steps := rest
          stepResults := run.stepResults ++ [result.toOption]
          stepErrors := run.stepErrors ++ [match result with | .error err => some err | .ok _ => none]
          tx := if endsTx (trimSpace sql) then p.tx else newTx.or run.tx } } }

def handleNext (reply : Reply R) (s : Server R) : Option (Server R) :=
  match s.pipeline with
  | none => none
  | some p => match p.batch with
      | some run => match run.steps with
          | step :: rest => s.batchStep p run step rest reply
          | [] => some (s.answer { p with batch := none } (.ok (.batch run.stepResults run.stepErrors)))
      | none => match p.requests with
          | entry :: rest => s.handleEntry { p with requests := rest } entry reply
          | [] => none

def batonName (id : Nat) : GoString := lit "baton-" ++ decimal id

def respond (s : Server R) : Option (Server R × Option GoString × List (PipelineResult R)) :=
  match s.pipeline with
  | some ⟨_, _, _, tx, [], none, results⟩ => match tx with
      | none => some ({ s with pipeline := none }, none, results)
      | some t =>
          let id := s.batonID + 1
          some ({ s with batonID := id, batons := update s.batons (batonName id) (some t), pipeline := none },
            some (batonName id), results)
  | _ => none

inductive Action (R : Type) where
  | receive (stream : Nat) (baton : Option GoString) (requests : List PipelineEntry)
  | next (reply : Reply R)
  | respond

def step (s : Server R) : Action R → Option (Server R)
  | .receive stream baton requests => s.receive stream baton requests
  | .next reply => s.handleNext reply
  | .respond => s.respond.map Prod.fst

theorem baton_name_injective {i j : Nat} (same : batonName i = batonName j) : i = j :=
  decimal_nat_injective (List.append_cancel_left same)

def sent (text : String) : PipelineEntry := .execute (some ⟨lit text, none⟩)

def answered (inTx : Bool) : Reply Unit := ⟨0, .ok (), inTx⟩

-- A transaction as the client library runs it: the stream is closed in the pipeline of its COMMIT.
def insertion : List (Action Unit) :=
  [.receive 0 none [sent "BEGIN"], .next (answered true), .respond,
    .receive 0 (some (batonName 1)) [sent "INSERT INTO t VALUES (1)", sent "COMMIT", .close],
    .next (answered true), .next (answered false), .next (answered false), .respond]

end Server

end

end Brainkit.Libsql
