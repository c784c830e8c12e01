import Brainkit.Libsql.Classification
import Brainkit.Libsql.ServerMoves

set_option autoImplicit false

namespace Brainkit.Libsql

open Function (update)
open GoText DatabaseSql

def sqlText (sqlCache : Int → Option GoString) : PipelineEntry → GoString
  | .execute (some stmt) => if stmt.sql = [] then ((stmt.sqlId.bind sqlCache).getD []) else stmt.sql
  | _ => []

def entryNeedsWrite (sqlCache : Int → Option GoString) (entry : PipelineEntry) : Bool :=
  match entry with
  | .batch _ | .sequence _ => true
  | .execute _ => sqlText sqlCache entry ≠ [] && !isQuery (trimSpace (sqlText sqlCache entry))
  | .storeSql _ _ | .closeSql _ | .close => true
  | .getAutocommit | .other _ => false

-- pipelineNeedsWrite under way: the requests it has not come to, the texts it has looked at, and whether it has returned
-- true. It takes no lock but the one on the cache, for one request at a time.
structure Look where
  stream : Nat
  baton : Option GoString
  requests : List PipelineEntry
  left : List PipelineEntry
  seen : List GoString
  write : Bool

-- The pipelines that have not got dbMu yet, by the number of their HTTP request, and the one that the server works on or
-- worked on last. It has the lock shared when its look found nothing to write.
structure Locked (R : Type) where
  server : Server R
  waiting : Nat → Option Look
  holder : Option Look

-- How a text goes to the driver: executeQuery, executeExec, the Exec of a sequence, or a call on the transaction.
inductive Manner where
  | query
  | exec
  | sequence
  | transaction
deriving DecidableEq

structure Call where
  text : GoString
  sqlId : Option Int
  manner : Manner

-- The rows that a text has, and after how many of them the driver fails, if it does. Next is false there as at the end;
-- executeQuery does not ask for rows.Err.
structure Outcome (V : Type) where
  rows : List (List V)
  fails : Option Nat

namespace Outcome

variable {V : Type}

def read (outcome : Outcome V) : List (List V) :=
  match outcome.fails with
  | none => outcome.rows
  | some count => outcome.rows.take count

def Whole (outcome : Outcome V) : Prop := ∀ count, outcome.fails = some count → outcome.rows.length ≤ count

theorem read_iff (outcome : Outcome V) : outcome.read = outcome.rows ↔ outcome.Whole := by
  unfold read Whole
  cases outcome.fails with
  | none => simp
  | some count => simp

end Outcome

def Manner.rows {V : Type} (outcome : Outcome V) : Manner → List (List V)
  | .query => outcome.read
  | .exec | .sequence | .transaction => []

section

variable {R : Type}

namespace Server

def manner (sql : GoString) : Manner :=
  match command (trimSpace sql) with
  | .statement => if isQuery (trimSpace sql) then .query else .exec
  | _ => .transaction

def stmtCall (stmt : StmtRequest) (s : Server R) : Option Call :=
  match (s.resolveSql stmt).2 with
  | .error _ => none
  | .ok sql => some ⟨sql, if stmt.sql = [] then stmt.sqlId else none, manner sql⟩

def call (s : Server R) : Option Call :=
  match s.pipeline with
  | none => none
  | some p => match p.batch with
      | some run => match run.steps with
          | step :: _ => if run.verdict step = some true then s.stmtCall step.stmt else none
          | [] => none
      | none => match p.requests with
          | .execute (some stmt) :: _ => s.stmtCall stmt
          | .sequence (some sql) :: _ => some ⟨sql, none, .sequence⟩
          | _ => none

-- What the call returns: a statement in a transaction that is done does not get to the driver.
def returned (reply : Reply R) (s : Server R) : Except GoString R :=
  match s.pipeline.bind Pipeline.inner with
  | some t => (s.db.execTx t reply).2
  | none => reply.result

end Server

inductive LockAction (R : Type) where
  | arrive (id stream : Nat) (baton : Option GoString) (requests : List PipelineEntry)
  | look (id : Nat)
  | lock (id : Nat)
  | next (reply : Reply R)
  | respond

namespace Locked

def new : Locked R := ⟨.new, fun _ => none, none⟩

def shared (s : Locked R) : Bool := s.holder.any fun look => !look.write

def lookNext (sqlCache : Int → Option GoString) (look : Look) : Option Look :=
  match look.write, look.left with
  | false, entry :: left => some { look with
      left := left
      seen := look.seen ++ [sqlText sqlCache entry]
      write := entryNeedsWrite sqlCache entry }
  | _, _ => none

def step (s : Locked R) : LockAction R → Option (Locked R)
  | .arrive id stream baton requests => match s.waiting id with
      | some _ => none
      | none => some { s with
          waiting := update s.waiting id (some ⟨stream, baton, requests, requests, [], baton.any (· ≠ [])⟩) }
  | .look id => ((s.waiting id).bind (lookNext s.server.sqlCache)).map fun look =>
      { s with waiting := update s.waiting id (some look) }
  | .lock id => (s.waiting id).bind fun look =>
      if look.write || look.left.isEmpty then
        (s.server.receive look.stream look.baton look.requests).map fun server =>
          ⟨server, update s.waiting id none, some look⟩
      else none
  | .next reply => (s.server.handleNext reply).map fun server => { s with server := server }
  | .respond => s.server.respond.map fun answer => { s with server := answer.1 }

def seen (s : Locked R) : List GoString := (s.holder.map Look.seen).getD []

end Locked

def Admitted (seen : List GoString) : PipelineEntry → Prop
  | .execute (some stmt) => stmt.sql ≠ [] → stmt.sql ∈ seen
  | .execute none | .getAutocommit | .other _ => True
  | .batch _ | .sequence _ | .storeSql _ _ | .closeSql _ | .close => False

structure Look.Kept (look : Look) : Prop where
  reads : ∀ text ∈ look.seen, text = [] ∨ isQuery (trimSpace text) = true
  admits : ∀ entry ∈ look.requests, entry ∈ look.left ∨ Admitted look.seen entry

def Admits (s : Server R) (seen : List GoString) : Prop :=
  ∀ p, s.pipeline = some p → p.batch = none ∧ ∀ entry ∈ p.requests, Admitted seen entry

structure Locked.Kept (s : Locked R) : Prop where
  waits : ∀ id look, s.waiting id = some look → look.write = false → look.Kept
  holds : ∀ look, s.holder = some look → look.write = false → look.Kept ∧ Admits s.server look.seen

theorem Admitted.mono {seen more : List GoString} (within : seen ⊆ more) {entry : PipelineEntry}
    (admitted : Admitted seen entry) : Admitted more entry := by
  cases entry with
  | execute stmt =>
      cases stmt with
      | none => trivial
      | some stmt => exact fun given => within (admitted given)
  | getAutocommit => trivial
  | other type => trivial
  | batch | sequence | storeSql | closeSql | close => exact admitted

theorem look_kept {sqlCache : Int → Option GoString} {look next : Look} (kept : look.write = false → look.Kept)
    (taken : Locked.lookNext sqlCache look = some next) (reads : next.write = false) : next.Kept := by
  unfold Locked.lookNext at taken
  split at taken
  next entry left unwritten remaining =>
    cases taken
    have before := kept unwritten
    refine ⟨fun text member => ?_, fun other member => ?_⟩
    · rcases List.mem_append.mp member with earlier | last
      · exact before.reads text earlier
      · obtain rfl := List.mem_singleton.mp last
        cases entry with
        | execute stmt =>
            by_cases empty : sqlText sqlCache (.execute stmt) = []
            · exact .inl empty
            · right
              simpa [entryNeedsWrite, empty] using reads
        | _ => exact .inl rfl
    · rcases before.admits other member with waiting | admitted
      · rw [remaining] at waiting
        rcases List.mem_cons.mp waiting with rfl | later
        · right
          cases other with
          | execute stmt =>
              cases stmt with
              | none => trivial
              | some stmt =>
                  intro given
                  simp [sqlText, given]
          | getAutocommit => trivial
          | other type => trivial
          | batch | sequence | storeSql | closeSql | close => cases reads
        · exact .inl later
      · exact .inr (admitted.mono (List.subset_append_left _ _))
  next => cases taken

theorem next_admits {s next : Server R} {seen : List GoString} {reply : Reply R} (admits : Admits s seen)
    (moves : Server.Moves s (.next reply) next) : Admits next seen := by
  have rest {p : Pipeline R} {entry : PipelineEntry} {left : List PipelineEntry} (under : s.pipeline = some p)
      (head : p.requests = entry :: left) : ∀ other ∈ left, Admitted seen other := fun other member =>
    (admits p under).2 other (head ▸ List.mem_cons_of_mem _ member)
  have refused {p : Pipeline R} {entry : PipelineEntry} {left : List PipelineEntry} (under : s.pipeline = some p)
      (head : p.requests = entry :: left) : Admitted seen entry := (admits p under).2 entry (head ▸ List.mem_cons_self)
  intro p' under'
  cases moves with
  | answer _ p entry left under plain head =>
      cases under'
      exact ⟨plain, rest under head⟩
  | execute _ p stmt left under plain head =>
      cases under'
      exact ⟨plain, rest under head⟩
  | beginBatch _ p steps left under plain head => exact (refused under head).elim
  | sequence _ p sql left under plain head => exact (refused under head).elim
  | storeSql _ p sqlId sql left under plain head => exact (refused under head).elim
  | closeSql _ p sqlId left under plain head => exact (refused under head).elim
  | close _ p left under plain head => exact (refused under head).elim
  | panic => cases under'
  | skip _ p run step left under batch =>
      have plain := (admits p under).1
      rw [plain] at batch
      cases batch
  | batchStep _ p run step left under batch =>
      have plain := (admits p under).1
      rw [plain] at batch
      cases batch
  | endBatch _ p run under batch =>
      have plain := (admits p under).1
      rw [plain] at batch
      cases batch

theorem step_kept (s : Locked R) (action : LockAction R) (next : Locked R) (kept : s.Kept)
    (taken : Locked.step s action = some next) : next.Kept := by
  cases action with
  | arrive id stream baton requests =>
      simp only [Locked.step] at taken
      split at taken
      · cases taken
      next =>
        cases taken
        refine ⟨fun other look waiting => ?_, kept.holds⟩
        dsimp only at waiting
        by_cases same : other = id
        · subst same
          rw [Function.update_self] at waiting
          cases waiting
          exact fun _ => ⟨fun _ member => (nomatch member), fun _ member => .inl member⟩
        · rw [Function.update_of_ne same] at waiting
          exact kept.waits other look waiting
  | look id =>
      simp only [Locked.step, Option.map_eq_some_iff, Option.bind_eq_some_iff] at taken
      obtain ⟨after, ⟨before, held, turned⟩, rfl⟩ := taken
      refine ⟨fun other look waiting => ?_, kept.holds⟩
      dsimp only at waiting
      by_cases same : other = id
      · subst same
        rw [Function.update_self] at waiting
        cases waiting
        exact look_kept (kept.waits other before held) turned
      · rw [Function.update_of_ne same] at waiting
        exact kept.waits other look waiting
  | lock id =>
      simp only [Locked.step, Option.bind_eq_some_iff] at taken
      obtain ⟨look, held, entered⟩ := taken
      split at entered
      next finished =>
        obtain ⟨server, received, rfl⟩ := Option.map_eq_some_iff.mp entered
        refine ⟨fun other waiting found => ?_, fun holder same reads => ?_⟩
        · dsimp only at found
          by_cases same : other = id
          · subst same
            rw [Function.update_self] at found
            cases found
          · rw [Function.update_of_ne same] at found
            exact kept.waits other waiting found
        · cases same
          have looked := kept.waits id look held reads
          refine ⟨looked, fun p under => ?_⟩
          have done : look.left = [] := by simpa [reads] using finished
          cases Server.moves_of_step s.server (.receive look.stream look.baton look.requests) server received
          cases under
          refine ⟨rfl, fun entry member => ?_⟩
          rcases looked.admits entry member with waiting | admitted
          · rw [done] at waiting
            cases waiting
          · exact admitted
      next => cases entered
  | next reply =>
      obtain ⟨server, handled, rfl⟩ := Option.map_eq_some_iff.mp taken
      refine ⟨kept.waits, fun look same reads => ?_⟩
      have held := kept.holds look same reads
      exact ⟨held.1, next_admits held.2 (Server.moves_of_step _ _ _ handled)⟩
  | respond =>
      obtain ⟨answer, responded, rfl⟩ := Option.map_eq_some_iff.mp taken
      refine ⟨kept.waits, fun look same reads => ?_⟩
      have held := kept.holds look same reads
      have moves := Server.moves_of_step s.server .respond answer.1 (by rw [Server.step, responded]; rfl)
      refine ⟨held.1, fun p under => ?_⟩
      dsimp only at under
      generalize answer.1 = after at moves under
      cases moves <;> cases under

theorem new_kept : (Locked.new : Locked R).Kept := ⟨fun _ _ no => (nomatch no), fun _ no => (nomatch no)⟩

theorem shared_call {s : Locked R} (kept : s.Kept) (shared : s.shared = true) {call : Call}
    (calls : s.server.call = some call) (same : call.sqlId.isSome = true → call.text ∈ s.seen) :
    call.text = [] ∨ isQuery (trimSpace call.text) = true := by
  cases held : s.holder with
  | none => simp [Locked.shared, held] at shared
  | some look =>
      have reads : look.write = false := by simpa [Locked.shared, held] using shared
      obtain ⟨looked, admits⟩ := kept.holds look held reads
      have seen : s.seen = look.seen := by simp [Locked.seen, held]
      rw [seen] at same
      unfold Server.call at calls
      split at calls
      · cases calls
      next p under =>
        obtain ⟨plain, admitted⟩ := admits p under
        rw [plain] at calls
        simp only at calls
        split at calls
        next stmt left head =>
          have admitted : Admitted look.seen (.execute (some stmt)) := admitted _ (head ▸ List.mem_cons_self)
          unfold Server.stmtCall Server.resolveSql at calls
          split at calls
          · cases calls
          next sql found =>
            cases calls
            by_cases empty : stmt.sql = []
            · rw [if_pos empty] at found same
              cases given : stmt.sqlId with
              | none =>
                  rw [given, empty] at found
                  cases found
                  exact .inl rfl
              | some id => exact looked.reads sql (same (by rw [given]; rfl))
            · rw [if_neg empty] at found
              cases found
              exact looked.reads _ (admitted empty)
        next sql left head =>
          have refused : Admitted look.seen (.sequence (some sql)) := admitted _ (head ▸ List.mem_cons_self)
          exact refused.elim
        · cases calls

theorem call_manner {s : Server R} {call : Call} (calls : s.call = some call) :
    call.manner = .sequence ∨ call.manner = Server.manner call.text := by
  have ofStmt {stmt : StmtRequest} (made : s.stmtCall stmt = some call) : call.manner = Server.manner call.text := by
    unfold Server.stmtCall at made
    split at made
    · cases made
    · cases made
      rfl
  unfold Server.call at calls
  split at calls
  · cases calls
  · split at calls
    · split at calls
      · exact .inr (ofStmt (Option.ite_none_right_eq_some.mp calls).2)
      · cases calls
    · split at calls
      · exact .inr (ofStmt calls)
      · cases calls
        exact .inl rfl
      · cases calls

theorem manner_query {text : GoString} :
    Server.manner text = .query ↔ command (trimSpace text) = .statement ∧ isQuery (trimSpace text) = true := by
  unfold Server.manner
  split
  next plain =>
    split
    next query => exact iff_of_true rfl ⟨plain, query⟩
    next exec => exact iff_of_false (fun no => nomatch no) fun both => exec both.2
  next other => exact iff_of_false (fun no => nomatch no) fun both => other both.1

end

section

variable {V : Type} (sql : Sqlite)

-- A text that runs under the shared lock modifies nothing, and a text that returns rows is a query all of whose rows
-- are in the result.
def Sound (s : Locked (Outcome V)) : LockAction (Outcome V) → Prop
  | .next reply => ∀ call, s.server.call = some call →
      (s.shared = true → ¬ sql.modifies call.text) ∧
      (sql.returnsRows call.text → call.manner = .query ∧
        ∀ outcome, s.server.returned reply = .ok outcome → call.manner.rows outcome = outcome.rows)
  | _ => True

-- A PRAGMA, a WITH, a text of several statements and stored SQL that is not what pipelineNeedsWrite has looked at modify
-- nothing where they have the shared lock. A text that returns rows is not sent as a sequence, has nothing but blanks
-- before one of the four words, and is read without a failure before its last row.
def Fits (s : Locked (Outcome V)) : LockAction (Outcome V) → Prop
  | .next reply => ∀ call, s.server.call = some call →
      (s.shared = true →
        opening call.text ∈ [lit "PRAGMA", lit "WITH"] ∨ ¬ sql.single call.text ∨
          call.sqlId.isSome = true ∧ call.text ∉ s.seen →
        ¬ sql.modifies call.text) ∧
      (sql.returnsRows call.text → call.manner ≠ .sequence ∧ opening call.text ∈ queries ∧
        ∀ outcome, s.server.returned reply = .ok outcome → outcome.Whole)
  | _ => True

variable {sql}

theorem reads_only (documented : sql.Documented) {text : GoString} (looked : text = [] ∨ isQuery (trimSpace text) = true)
    (other : opening text ∉ [lit "PRAGMA", lit "WITH"]) (single : sql.single text) : ¬ sql.modifies text := by
  rcases looked with rfl | query
  · exact (documented.refused [] rfl (by decide)).1
  · obtain ⟨found, known | unknown⟩ := query_opening query
    · apply documented.reads text single
      simp only [queries, List.mem_cons, List.not_mem_nil, or_false, not_or] at known other ⊢
      tauto
    · exact (documented.refused text found unknown).1

theorem shared_iff (documented : sql.Documented) {s : Locked (Outcome V)} (kept : s.Kept) {call : Call}
    (calls : s.server.call = some call) (shared : s.shared = true) :
    ¬ sql.modifies call.text ↔ (opening call.text ∈ [lit "PRAGMA", lit "WITH"] ∨ ¬ sql.single call.text ∨
      call.sqlId.isSome = true ∧ call.text ∉ s.seen → ¬ sql.modifies call.text) := by
  refine ⟨fun reads _ => reads, fun fits => ?_⟩
  by_cases doubtful : opening call.text ∈ [lit "PRAGMA", lit "WITH"] ∨ ¬ sql.single call.text ∨
      call.sqlId.isSome = true ∧ call.text ∉ s.seen
  · exact fits doubtful
  · simp only [not_or, not_and, not_not] at doubtful
    exact reads_only documented (shared_call kept shared calls doubtful.2.2) doubtful.1 doubtful.2.1

theorem rows_iff (documented : sql.Documented) {s : Server (Outcome V)} {call : Call} (calls : s.call = some call)
    (returns : sql.returnsRows call.text) (reply : Reply (Outcome V)) :
    (call.manner = .query ∧ ∀ outcome, s.returned reply = .ok outcome → call.manner.rows outcome = outcome.rows) ↔
      call.manner ≠ .sequence ∧ opening call.text ∈ queries ∧
        ∀ outcome, s.returned reply = .ok outcome → outcome.Whole := by
  have reads (query : call.manner = .query) (outcome : Outcome V) :
      call.manner.rows outcome = outcome.rows ↔ outcome.Whole := by rw [query, ← outcome.read_iff]; rfl
  constructor
  · rintro ⟨query, all⟩
    have plain : call.manner ≠ .sequence := by simp [query]
    have manner := (call_manner calls).resolve_left plain
    obtain ⟨found, known | unknown⟩ := query_opening (manner_query.mp (manner.symm.trans query)).2
    · exact ⟨plain, known, fun outcome ok => (reads query outcome).mp (all outcome ok)⟩
    · exact absurd returns (documented.refused call.text found unknown).2
  · rintro ⟨plain, opens, whole⟩
    have manner := (call_manner calls).resolve_left plain
    have query : call.manner = .query := manner.trans (manner_query.mpr (opening_query opens))
    exact ⟨query, fun outcome ok => (reads query outcome).mpr (whole outcome ok)⟩

theorem sound_iff (documented : sql.Documented) (s : Locked (Outcome V)) (action : LockAction (Outcome V)) (kept : s.Kept) :
    Sound sql s action ↔ Fits sql s action := by
  cases action with
  | next reply =>
      refine forall_congr' fun call => forall_congr' fun calls => and_congr ?_ ?_
      · exact forall_congr' fun shared => shared_iff documented kept calls shared
      · exact forall_congr' fun returns => rows_iff documented calls returns reply
  | arrive | look | lock | respond => exact Iff.rfl

theorem readLock_iff (documented : sql.Documented) (path : List (LockAction (Outcome V))) :
    Transition.Along Locked.step (Sound sql) Locked.new path ↔ Transition.Along Locked.step (Fits sql) Locked.new path := by
  have keeps {ok : Locked (Outcome V) → LockAction (Outcome V) → Prop}
      (along : Transition.Along Locked.step ok Locked.new path) :=
    Transition.along_held (fun s action next kept _ taken => step_kept s action next kept taken) new_kept along
  constructor
  · intro sound
    exact Transition.along_mono (fun s action both => (sound_iff documented s action both.1).mp both.2) (keeps sound)
  · intro fits
    exact Transition.along_mono (fun s action both => (sound_iff documented s action both.1).mpr both.2) (keeps fits)

end

namespace Locked

def withInsert : GoString := lit "WITH d AS (SELECT 1) INSERT INTO t SELECT * FROM d"

def insertOnly : Sqlite where
  single _ := True
  modifies text := text = withInsert
  returnsRows text := text = lit "SELECT 1"

theorem insertOnly_documented : insertOnly.Documented where
  refused text passed unknown := by
    constructor
    · rintro rfl
      exact unknown (by decide)
    · rintro rfl
      exact unknown (by decide)
  reads text _ opens := by
    rintro rfl
    revert opens
    decide

def alone (text : GoString) (reply : Reply (Outcome Unit)) : List (LockAction (Outcome Unit)) :=
  [.arrive 0 0 none [.execute (some ⟨text, none⟩)], .look 0, .lock 0, .next reply, .respond]

theorem readLock_select : Transition.Along step (Sound insertOnly) new
    (alone (lit "SELECT 1") ⟨0, .ok ⟨[[()]], none⟩, false⟩) := by
  refine (readLock_iff insertOnly_documented _).mpr ?_
  refine Transition.along_cons trivial rfl (Transition.along_cons trivial rfl (Transition.along_cons trivial rfl ⟨?_, ?_⟩))
  · intro call calls
    cases calls
    refine ⟨fun _ _ => ?_, fun _ => ⟨by decide, by decide, fun outcome ok => ?_⟩⟩
    · show lit "SELECT 1" ≠ withInsert
      decide
    · cases ok
      exact fun _ no => nomatch no
  · exact fun _ _ => ⟨trivial, fun _ _ => trivial⟩

theorem readLock_with_insert : ¬ ∀ sql : Sqlite, sql.Documented → ∀ path : List (LockAction (Outcome Unit)),
    Transition.Along step (Sound sql) new path := by
  intro all
  have along := all insertOnly insertOnly_documented (alone withInsert ⟨0, .ok ⟨[], none⟩, false⟩)
  have sound := (((along.2 _ rfl).2 _ rfl).2 _ rfl).1
  exact (sound _ rfl).1 (by decide) rfl

end Locked

end Brainkit.Libsql
