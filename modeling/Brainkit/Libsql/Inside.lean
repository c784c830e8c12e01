import Brainkit.Libsql.ServerMoves

set_option autoImplicit false

namespace Brainkit.Libsql

open GoText DatabaseSql DatabaseSql.Pool Transition

variable {R : Type}

def Ran.Right (r : Ran) : Prop := ∀ denoted, r.meant = some denoted → ∃ t, denoted = some t ∧ r.inside = some t

def Pipeline.Presents (p : Pipeline R) : Prop := p.meant = some p.denoted

theorem meant_cases (p : Pipeline R) : p.meant = none ∨ p.Presents := by
  unfold Pipeline.Presents Pipeline.meant
  split
  · exact .inr rfl
  · exact .inl rfl

theorem right_unpresented {r : Ran} (unpresented : r.meant = none) : r.Right := by
  intro denoted presented
  rw [unpresented] at presented
  cases presented

theorem right_presented {p : Pipeline R} (presents : p.Presents) (text : GoString) (inside : Option Nat) :
    Ran.Right ⟨p.meant, text, inside⟩ ↔ ∃ t, p.denoted = some t ∧ inside = some t := by
  constructor
  · exact fun right => right p.denoted presents
  · intro here denoted presented
    obtain rfl : p.denoted = denoted := Option.some.inj (presents.symm.trans presented)
    exact here

namespace Server

-- Whatever reached the driver from a pipeline with a baton ran in the baton's transaction; so nothing did where the
-- baton is unknown.
def Inside (s : Server R) : Prop := ∀ r ∈ s.ran, r.Right

-- A call on the transaction goes nowhere, as it is done, or to the open transaction.
def Confined (s : Server R) (t : Nat) : Prop := (s.db.tx t).done = true ∨ s.db.Open t

def Stays (s : Server R) (tx : Option Nat) (sql : GoString) : Prop :=
  match command (trimSpace sql) with
  | .begin => False
  | .commit | .rollback => ∀ t, tx = some t → s.Confined t
  | .statement => ∃ t, tx = some t ∧ s.Confined t

-- In a pipeline that presents a baton no sequence has a text and no BEGIN is reached, and any other statement finds a
-- transaction that is done or open; a COMMIT or ROLLBACK may find none.
def Keeps (s : Server R) : Action R → Prop
  | .receive _ _ _ | .respond => True
  | .next _ => ∀ p, s.pipeline = some p → p.Presents → match p.batch with
      | none => match p.requests with
          | .execute (some stmt) :: _ => ∀ sql, (s.resolveSql stmt).2 = .ok sql → s.Stays p.tx sql
          | .sequence (some _) :: _ => False
          | _ => True
      | some run => match run.steps with
          | [] => True
          | step :: _ => run.verdict step = some true →
              ∀ sql, (s.resolveSql step.stmt).2 = .ok sql → s.Stays run.tx sql

theorem inside_same {s next : Server R} (ran : next.ran = s.ran) : Inside next ↔ Inside s := by
  rw [Inside, Inside, ran]

theorem right_push (log : List Ran) (last : Ran) :
    (∀ r ∈ log ++ [last], r.Right) ↔ (∀ r ∈ log, r.Right) ∧ last.Right := by
  simp only [List.mem_append, List.mem_singleton, or_imp, forall_and, forall_eq]

theorem note_ran {s : Server R} {p : Pipeline R} (under : s.pipeline = some p) (text : GoString) (inside : Option Nat) :
    (s.note text inside).ran = s.ran ++ [⟨p.meant, text, inside⟩] := by
  rw [note, under]

theorem inside_outside {s : Server R} {p : Pipeline R} (text : GoString) (db : Pool) (under : s.pipeline = some p) :
    Inside { s.note text none with db := db } ↔ Inside s ∧ ¬ p.Presents := by
  rw [Inside, note_ran under text none, right_push]
  apply and_congr_right
  intro _
  obtain unpresented | presents := meant_cases p
  · apply iff_of_true (right_unpresented unpresented)
    rw [Pipeline.Presents, unpresented]
    exact nofun
  · apply iff_of_false
    · rw [right_presented presents]
      exact fun ⟨_, _, no⟩ => nomatch no
    · exact not_not_intro presents

theorem inside_on_tx {s : Server R} {p : Pipeline R} {t : Nat} {db : Pool} (text : GoString) (under : s.pipeline = some p)
    (own : p.Presents → p.denoted = some t) :
    Inside (s.onTx t text db) ↔ Inside s ∧ (p.Presents → s.Confined t) := by
  cases alive : (s.db.tx t).done with
  | true =>
      rw [on_tx_done s t text db alive]
      exact (and_iff_left fun _ => .inl alive).symm
  | false =>
      rw [on_tx_alive s t text db alive, Inside, note_ran under, right_push]
      apply and_congr_right
      intro _
      obtain unpresented | presents := meant_cases p
      · apply iff_of_true (right_unpresented unpresented)
        rw [Pipeline.Presents, unpresented]
        exact nofun
      · rw [right_presented presents]
        simp only [own presents, presents, forall_const, Option.some.injEq, Confined, alive, Bool.false_eq_true, false_or]
        split
        next opened => simp [opened]
        next closed => simp [closed]

theorem inside_executed {s next : Server R} {p : Pipeline R} {tx newTx : Option Nat} {reply : Reply R}
    {looked : Except GoString GoString} {sql : GoString} (under : s.pipeline = some p)
    (own : p.Presents → ∀ t, tx = some t → p.denoted = some t) (moves : ExecMoves s tx reply looked next sql newTx) :
    Inside next ↔ Inside s ∧ (p.Presents → ∀ sql, looked = .ok sql → s.Stays tx sql) := by
  cases moves with
  | missing err => exact (and_iff_left fun _ _ no => nomatch no).symm
  | refused sql err begins db begun =>
      rw [inside_outside sql db under]
      simp only [Except.ok.injEq, forall_eq', Stays, begins, Pipeline.Presents, imp_false]
  | begun sql begins db t begun =>
      rw [inside_outside sql db under]
      simp only [Except.ok.injEq, forall_eq', Stays, begins, Pipeline.Presents, imp_false]
  | nothing sql ends empty =>
      refine (and_iff_left fun _ other same => ?_).symm
      cases same
      obtain commits | rolls := ends
      · simp only [Stays, commits, empty]
        exact fun t no => nomatch no
      · simp only [Stays, rolls, empty]
        exact fun t no => nomatch no
  | commit sql commits t current =>
      rw [inside_on_tx sql under fun presents => own presents t current]
      simp only [Except.ok.injEq, forall_eq', Stays, commits, current, Option.some.injEq]
  | rollback sql rolls t current =>
      rw [inside_on_tx sql under fun presents => own presents t current]
      simp only [Except.ok.injEq, forall_eq', Stays, rolls, current, Option.some.injEq]
  | inside sql plain t current =>
      rw [inside_on_tx sql under fun presents => own presents t current]
      simp only [Except.ok.injEq, forall_eq', Stays, plain, current, Option.some.injEq, exists_eq_left']
  | outside sql plain empty db result ran =>
      rw [inside_outside sql db under]
      simp only [Except.ok.injEq, forall_eq', Stays, plain, empty, Pipeline.Presents, reduceCtorEq, false_and, exists_false,
        imp_false]

theorem note_grows (s : Server R) (text : GoString) (inside : Option Nat) : s.ran <+: (s.note text inside).ran := by
  unfold note
  split
  · exact List.prefix_append _ _
  · exact List.prefix_rfl

theorem on_tx_grows (s : Server R) (t : Nat) (text : GoString) (db : Pool) : s.ran <+: (s.onTx t text db).ran := by
  unfold onTx
  split
  · exact List.prefix_rfl
  · exact note_grows s text _

theorem executed_grows {s next : Server R} {tx newTx : Option Nat} {reply : Reply R}
    {looked : Except GoString GoString} {sql : GoString} (moves : ExecMoves s tx reply looked next sql newTx) :
    s.ran <+: next.ran := by
  cases moves with
  | missing => exact List.prefix_rfl
  | refused => exact note_grows s _ _
  | begun => exact note_grows s _ _
  | nothing => exact List.prefix_rfl
  | commit => exact on_tx_grows s _ _ _
  | rollback => exact on_tx_grows s _ _ _
  | inside => exact on_tx_grows s _ _ _
  | outside => exact note_grows s _ _

def Owned (s : Server R) : Prop :=
  ∀ p, s.pipeline = some p → p.Presents → ∀ t, p.tx = some t ∨ p.inner = some t → p.denoted = some t

theorem inside_statement {s next : Server R} {p : Pipeline R} {stmt : StmtRequest} {tx newTx : Option Nat}
    {reply : Reply R} {sql : GoString} {result : Except GoString (ExecResult R)} (under : s.pipeline = some p)
    (own : p.Presents → ∀ t, tx = some t → p.denoted = some t)
    (taken : s.executeStmt stmt tx reply = some (next, sql, result, newTx)) :
    Inside next ↔ Inside s ∧ (p.Presents → ∀ sql, (s.resolveSql stmt).2 = .ok sql → s.Stays tx sql) := by
  have moves := exec_moves s next stmt tx newTx reply sql result taken
  rw [resolve_frame] at moves
  have looked : ({ s with resolved := (s.resolveSql stmt).1.resolved } : Server R).pipeline = some p := under
  have inside := inside_executed looked own moves
  exact inside

theorem statement_grows {s next : Server R} {stmt : StmtRequest} {tx newTx : Option Nat} {reply : Reply R} {sql : GoString}
    {result : Except GoString (ExecResult R)} (taken : s.executeStmt stmt tx reply = some (next, sql, result, newTx)) :
    s.ran <+: next.ran := by
  have moves := exec_moves s next stmt tx newTx reply sql result taken
  rw [resolve_frame] at moves
  have grows := executed_grows moves
  exact grows

theorem kept_tx {s next : Server R} {stmt : StmtRequest} {tx newTx : Option Nat} {reply : Reply R} {sql : GoString}
    {result : Except GoString (ExecResult R)} (taken : s.executeStmt stmt tx reply = some (next, sql, result, newTx))
    (stays : ∀ sql, (s.resolveSql stmt).2 = .ok sql → s.Stays tx sql) : newTx = none := by
  have moves := exec_moves s next stmt tx newTx reply sql result taken
  generalize resolved : (s.resolveSql stmt).2 = looked at moves
  cases moves with
  | begun sql begins db t begun =>
      have stays := stays sql resolved
      simp only [Stays, begins] at stays
  | _ => rfl

theorem step_grows (s : Server R) (action : Action R) (next : Server R) (taken : step s action = some next) :
    s.ran <+: next.ran := by
  cases moves_of_step s action next taken with
  | execute reply p stmt rest under plain head after sql newTx result executed =>
      have grows := statement_grows executed
      exact grows
  | batchStep reply p run batchStep rest under batch head verdict after sql newTx result executed =>
      have grows := statement_grows executed
      exact grows
  | sequence reply p sql rest under plain head db result ran => exact note_grows s sql none
  | storeSql reply p sqlId sql rest => cases sqlId <;> cases sql <;> exact List.prefix_rfl
  | closeSql reply p sqlId rest => cases sqlId <;> exact List.prefix_rfl
  | close reply p rest =>
      simp only [Server.close]
      split <;> exact List.prefix_rfl
  | _ => exact List.prefix_rfl

theorem keeps_plain {s : Server R} {p : Pipeline R} {entry : PipelineEntry} {rest : List PipelineEntry} (reply : Reply R)
    (under : s.pipeline = some p) (plain : p.batch = none) (head : p.requests = entry :: rest)
    (execute : ∀ stmt, entry ≠ .execute (some stmt)) (sequence : ∀ sql, entry ≠ .sequence (some sql)) :
    s.Keeps (.next reply) := by
  intro q same _
  obtain rfl : p = q := Option.some.inj (under.symm.trans same)
  simp only [plain, head]
  cases entry with
  | execute stmt =>
      cases stmt with
      | none => trivial
      | some stmt => exact absurd rfl (execute stmt)
  | sequence sql =>
      cases sql with
      | none => trivial
      | some sql => exact absurd rfl (sequence sql)
  | _ => trivial

theorem keeps_batch {s : Server R} {p : Pipeline R} {run : BatchRun R} (reply : Reply R) (under : s.pipeline = some p)
    (batch : p.batch = some run) (unmet : ∀ step ∈ run.steps.head?, run.verdict step ≠ some true) :
    s.Keeps (.next reply) := by
  intro q same _
  obtain rfl : p = q := Option.some.inj (under.symm.trans same)
  simp only [batch]
  cases steps : run.steps with
  | nil => trivial
  | cons step rest =>
      rw [steps] at unmet
      exact fun met => absurd met (unmet step rfl)

theorem inside_kept {s next : Server R} {action : Action R} (ran : next.ran = s.ran) (keeps : s.Keeps action) :
    Inside next ↔ Inside s ∧ s.Keeps action :=
  (inside_same ran).trans (and_iff_left keeps).symm

theorem inside_step (s : Server R) (action : Action R) (next : Server R) (owned : Owned s)
    (taken : step s action = some next) : Inside next ↔ Inside s ∧ s.Keeps action := by
  cases moves_of_step s action next taken with
  | receive => exact (and_iff_left trivial).symm
  | answer reply p entry rest under plain head atOnce result =>
      have sequence : ∀ sql, entry ≠ .sequence (some sql) := by
        intro sql same
        rw [same] at atOnce
        cases atOnce
      exact inside_kept rfl (keeps_plain reply under plain head (ne_execute_of_quiet atOnce) sequence)
  | execute reply p stmt rest under plain head after sql newTx result executed =>
      have own : p.Presents → ∀ t, p.tx = some t → p.denoted = some t :=
        fun presents t current => owned p under presents t (.inl current)
      rw [Keeps]
      simp only [under, Option.some.injEq, forall_eq', plain, head]
      have inside := inside_statement under own executed
      exact inside
  | beginBatch reply p steps rest under plain head =>
      exact inside_kept rfl (keeps_plain reply under plain head nofun nofun)
  | sequence reply p sql rest under plain head db result ran =>
      rw [Keeps]
      simp only [under, Option.some.injEq, forall_eq', plain, head, imp_false]
      exact inside_outside sql db under
  | storeSql reply p sqlId sql rest under plain head =>
      have ran : (s.storeSql p sqlId sql).ran = s.ran := by cases sqlId <;> cases sql <;> rfl
      exact inside_kept ran (keeps_plain reply under plain head nofun nofun)
  | closeSql reply p sqlId rest under plain head =>
      have ran : (s.closeSql p sqlId).ran = s.ran := by cases sqlId <;> rfl
      exact inside_kept ran (keeps_plain reply under plain head nofun nofun)
  | close reply p rest under plain head =>
      have ran : (s.close p.tx).ran = s.ran := by cases p.tx <;> rfl
      exact inside_kept ran (keeps_plain reply under plain head nofun nofun)
  | panic reply p run batchStep rest under batch head verdict =>
      exact inside_kept rfl (keeps_batch reply under batch (by simp [head, verdict]))
  | skip reply p run batchStep rest under batch head verdict =>
      exact inside_kept rfl (keeps_batch reply under batch (by simp [head, verdict]))
  | batchStep reply p run batchStep rest under batch head verdict after sql newTx result executed results errors =>
      have own : p.Presents → ∀ t, run.tx = some t → p.denoted = some t := by
        intro presents t current
        apply owned p under presents t
        rw [Pipeline.inner, batch]
        exact .inr current
      rw [Keeps]
      simp only [under, Option.some.injEq, forall_eq', batch, head, verdict, forall_const]
      have inside := inside_statement under own executed
      exact inside
  | endBatch reply p run under batch done result =>
      exact inside_kept rfl (keeps_batch reply under batch (by simp [done]))
  | respond p under plain done empty => exact (and_iff_left trivial).symm
  | rotate p under plain done t current => exact (and_iff_left trivial).symm

theorem owned_next {s next : Server R} {p q : Pipeline R} (owned : Owned s) (under : s.pipeline = some p)
    (after : next.pipeline = some q) (baton : q.baton = p.baton) (denoted : q.denoted = p.denoted)
    (kept : p.Presents → ∀ t, q.tx = some t ∨ q.inner = some t → p.tx = some t ∨ p.inner = some t) : Owned next := by
  intro r same presents t held
  obtain rfl : q = r := Option.some.inj (after.symm.trans same)
  have before : p.Presents := by
    simpa only [Pipeline.Presents, Pipeline.meant, baton, denoted] using presents
  rw [denoted]
  exact owned p under before t (kept before t held)

theorem owned_step (s : Server R) (action : Action R) (next : Server R) (owned : Owned s) (keeps : s.Keeps action)
    (taken : step s action = some next) : Owned next := by
  cases moves_of_step s action next taken with
  | receive stream baton requests idle =>
      intro p same presents t held
      cases same
      exact held.elim id id
  | answer reply p entry rest under plain head atOnce result =>
      exact owned_next owned under rfl rfl rfl fun _ _ held => held
  | execute reply p stmt rest under plain head after sql newTx result executed =>
      refine owned_next owned under rfl rfl rfl fun presents t held => ?_
      have stays := keeps p under presents
      simp only [plain, head] at stays
      have none := kept_tx executed stays
      have same : (newTx.or p.tx) = p.tx := by rw [none, Option.none_or]
      simp only [Pipeline.push, Pipeline.inner, plain, same] at held
      exact .inl (held.elim id id)
  | beginBatch reply p steps rest under plain head =>
      exact owned_next owned under rfl rfl rfl fun _ _ held => .inl (held.elim id id)
  | sequence reply p sql rest under plain head db result ran =>
      exact owned_next owned under rfl rfl rfl fun _ _ held => held
  | storeSql reply p sqlId sql rest under plain head =>
      exact owned_next owned under rfl rfl rfl fun _ _ held => held
  | closeSql reply p sqlId rest under plain head =>
      exact owned_next owned under rfl rfl rfl fun _ _ held => held
  | close reply p rest under plain head =>
      refine owned_next owned under rfl rfl rfl fun _ t held => ?_
      simp only [Pipeline.push, Pipeline.inner, plain, reduceCtorEq, or_self] at held
  | panic reply p run batchStep rest under batch head verdict => exact fun _ no => nomatch no
  | skip reply p run batchStep rest under batch head verdict =>
      refine owned_next owned under rfl rfl rfl fun _ t held => ?_
      rw [Pipeline.inner, batch]
      exact held
  | batchStep reply p run batchStep rest under batch head verdict after sql newTx result executed results errors =>
      refine owned_next owned under rfl rfl rfl fun presents t held => ?_
      have stays := keeps p under presents
      simp only [batch, head] at stays
      have none := kept_tx executed (stays verdict)
      rw [Pipeline.inner, batch]
      obtain outer | inner := held
      · exact .inl outer
      · simp only [Pipeline.inner, none, Option.none_or] at inner
        split at inner
        · exact .inl inner
        · exact .inr inner
  | endBatch reply p run under batch done result =>
      exact owned_next owned under rfl rfl rfl fun _ _ held => .inl (held.elim id id)
  | respond p under plain done empty => exact fun _ no => nomatch no
  | rotate p under plain done t current => exact fun _ no => nomatch no

theorem always_inside_iff {s : Server R} {path : List (Action R)} (reached : run step new path = some s) :
    Always step Inside new path ↔ Along step Keeps new path := by
  have keeps : ∀ (state : Server R) action next, (Inside state → Owned state) → step state action = some next →
      Inside next → Owned next := by
    intro state action next owned taken inside
    have before : Inside state := fun r member => inside r ((step_grows state action next taken).subset member)
    have kept := (inside_step state action next (owned before) taken).mp inside
    exact owned_step state action next (owned before) kept.2 taken
  have exactly : ∀ (state : Server R) action next, (Inside state → Owned state) → Inside state →
      step state action = some next → (Inside next ↔ state.Keeps action) := by
    intro state action next owned inside taken
    rw [inside_step state action next (owned inside) taken, and_iff_right inside]
  have initial : Inside (new : Server R) := fun _ no => nomatch no
  have unowned : Inside (new : Server R) → Owned (new : Server R) := fun _ _ no => nomatch no
  exact always_iff_along keeps exactly unowned initial reached

theorem insertion_inside : Always step Inside new insertion := by
  have kept : Along step Keeps new insertion := by
    refine along_cons trivial rfl ?_
    refine along_cons ?_ rfl ?_
    · rintro p ⟨⟩ no
      exact nomatch no
    refine along_cons trivial rfl ?_
    refine along_cons trivial rfl ?_
    refine along_cons ?_ rfl ?_
    · rintro p ⟨⟩ presents sql ⟨⟩
      exact ⟨0, rfl, .inr (by decide)⟩
    refine along_cons ?_ rfl ?_
    · rintro p ⟨⟩ presents sql ⟨⟩ t ⟨⟩
      exact .inr (by decide)
    refine along_cons ?_ rfl ?_
    · rintro p ⟨⟩ presents
      trivial
    exact along_cons trivial rfl trivial
  exact (always_inside_iff rfl).mpr kept

def sequenced : List (Action Unit) :=
  [.receive 0 none [sent "BEGIN"], .next (answered true), .respond,
    .receive 0 (some (batonName 1)) [.sequence (some (lit "INSERT INTO t VALUES (1)")), sent "ROLLBACK", .close],
    .next ⟨1, .ok (), false⟩, .next (answered false), .next (answered false), .respond]

theorem sequenced_outside : ∃ s, run step new sequenced = some s ∧ ¬ Inside s := by
  refine ⟨_, rfl, fun inside => ?_⟩
  obtain ⟨t, -, no⟩ := inside ⟨some (some 0), lit "INSERT INTO t VALUES (1)", none⟩ (.tail _ (.head _)) (some 0) rfl
  cases no

end Server

end Brainkit.Libsql
