import Brainkit.Libsql.Accounts

set_option autoImplicit false

namespace Brainkit.Libsql.Server

open Function (update)
open GoText DatabaseSql DatabaseSql.Pool Transition

variable {R : Type}

def Denotes (s : Server R) (name : GoString) (c : Nat) : Prop :=
  ∃ t, s.batons name = some t ∧ (s.db.tx t).done = false ∧ s.db.conn t = c

-- Every transaction open in the database is denoted by exactly one baton; one that was committed, rolled back or left
-- by a closed stream is denoted by none and is finished.
structure InStep (s : Server R) : Prop where
  one : ∀ c, s.db.inTx c = true → ∃! name, s.Denotes name c
  concluded : ∀ t, s.concluded t = true → ¬ s.Denoted t ∧ ¬ s.db.Open t

-- What the driver does not do: leave a transaction open behind a failed COMMIT, a text that opens one, or one reopened.
def Calm (s : Server R) (tx : Option Nat) (reply : Reply R) (sql : GoString) : Prop :=
  match command (trimSpace sql) with
  | .begin | .rollback => True
  | .commit => ∀ t err, tx = some t → s.db.Open t → reply.result = .error err → reply.inTx = false
  | .statement => match tx with
      | none => reply.inTx = false
      | some t => reply.inTx = true → (s.db.tx t).done = false → s.db.Open t

-- A statement of a batch: a BEGIN that succeeds, or a bare END, which reaches the driver as a statement, leaves the
-- batch's transaction behind.
def BatchCalm (s : Server R) (outer inner : Option Nat) (reply : Reply R) (sql : GoString) : Prop :=
  match command (trimSpace sql) with
  | .begin => ∀ value, reply.result = .ok value → s.MayRevert outer inner
  | .statement => endsTx (trimSpace sql) = true → reply.inTx = true → s.MayRevert outer inner
  | .commit | .rollback => True

def text (s : Server R) (stmt : StmtRequest) : Option GoString := (s.resolveSql stmt).2.toOption

-- A pipeline gives up its transaction only when a baton has it or it is finished and no baton has it; what it gives a
-- baton is open and has none; close finds it finished; and the driver opens no transaction by itself.
def Settles (s : Server R) : Action R → Prop
  | .receive _ _ _ => True
  | .next reply => ∀ p, s.pipeline = some p → match p.batch with
      | none => match p.requests with
          | .execute (some stmt) :: _ => ∀ sql, s.text stmt = some sql → s.Calm p.tx reply sql ∧
              (command (trimSpace sql) = .begin → ∀ value, reply.result = .ok value → s.MayLeave p.tx)
          | .sequence (some _) :: _ => reply.inTx = false
          | .close :: _ => ∀ t, p.tx = some t → ¬ s.db.Open t
          | _ => True
      | some run => match run.steps with
          | [] => s.MayRevert p.tx run.tx
          | step :: _ => match run.verdict step with
              | none => s.MayLeave p.tx ∧ s.MayRevert p.tx run.tx
              | some false => True
              | some true => ∀ sql, s.text step.stmt = some sql → s.Calm run.tx reply sql ∧
                  s.BatchCalm p.tx run.tx reply sql
  | .respond => ∀ p, s.pipeline = some p → ∀ t, p.tx = some t → s.db.Open t ∧ ¬ s.Denoted t

theorem balanced_in_step {s : Server R} (accounts : Accounts s none none) : InStep s := by
  constructor
  · intro c opened
    obtain ⟨t, alive, here, denoted | no | no⟩ := accounts.reachable c opened
    · obtain ⟨name, baton⟩ := denoted
      have alone : ∀ other, s.Denotes other c → other = name := by
        intro other denotes
        obtain ⟨u, another, living, there⟩ := denotes
        obtain rfl : u = t := accounts.valid.alone u t living alive (there.trans here.symm)
        exact accounts.injective other name u another baton
      exact ⟨name, ⟨t, baton, alive, here⟩, alone⟩
    · cases no
    · cases no
  · intro t concluded
    have undenoted : ¬ s.Denoted t := by
      intro denoted
      cases accounts.stale t concluded denoted
    exact ⟨undenoted, accounts.finished t concluded⟩

theorem is_cmd_head {s cmd : GoString} {letter : UInt8} {rest : GoString} (is : isCmd s cmd = true)
    (word : cmd = letter :: rest) : ∃ first tail, s = first :: tail ∧ upper first = upper letter := by
  subst word
  unfold isCmd at is
  cases s with
  | nil => simp at is
  | cons first tail =>
      refine ⟨first, tail, rfl, ?_⟩
      split at is
      · cases is
      · split at is
        · cases is
        next folds =>
          simp only [Bool.not_eq_true, Bool.not_eq_false', equalFold, decide_eq_true_eq, List.length_cons,
            List.take_succ_cons, List.map_cons, List.cons.injEq] at folds
          exact folds.1

theorem begin_not_ends (trimmed : GoString) (begins : command trimmed = .begin) : endsTx trimmed = false := by
  have is : isCmd trimmed (lit "BEGIN") = true := by
    unfold command at begins
    split at begins
    · cases begins
    · split at begins
      · assumption
      · split at begins
        · cases begins
        · split at begins <;> cases begins
  obtain ⟨first, tail, rfl, letter⟩ := is_cmd_head is rfl
  by_contra ends
  simp only [endsTx, Bool.not_eq_false, Bool.or_eq_true] at ends
  obtain (commit | end_) | rollback := ends
  · obtain ⟨_, _, same, other⟩ := is_cmd_head commit rfl
    cases same
    exact absurd (letter.symm.trans other) (by decide)
  · obtain ⟨_, _, same, other⟩ := is_cmd_head end_ rfl
    cases same
    exact absurd (letter.symm.trans other) (by decide)
  · obtain ⟨_, _, same, other⟩ := is_cmd_head rollback rfl
    cases same
    exact absurd (letter.symm.trans other) (by decide)

theorem accounts_on_tx {s : Server R} {outer inner : Option Nat} {t : Nat} {db : Pool} (sql : GoString)
    (accounts : Accounts s outer inner) (current : inner = some t) (valid : db.Valid)
    (called : (s.db.tx t).done = false → s.db.Called t false db ∨ db = s.db ∧ s.db.Open t) :
    Accounts (s.onTx t sql db) outer inner := by
  cases alive : (s.db.tx t).done with
  | true => rwa [on_tx_done s t sql db alive]
  | false =>
      rw [on_tx_alive s t sql db alive]
      obtain called | ⟨rfl, opened⟩ := called alive
      · refine accounts_closed accounts current valid called.inTx called.begun called.conn called.done rfl rfl ?_
        simp only [called.inTx, Function.update_self, Bool.not_false, Bool.or_true]
      · have here : s.db.inTx (s.db.conn t) = true := opened.2
        refine accounts_same accounts rfl rfl rfl ?_
        simp only [here, Bool.not_true, Bool.or_false, Function.update_eq_self]

theorem accounts_executed {s next : Server R} {outer inner : Option Nat} {reply : Reply R}
    {looked : Except GoString GoString} {sql : GoString} (accounts : Accounts s outer inner)
    (moves : ExecMoves s inner reply looked next sql none)
    (calm : ∀ sql, looked = .ok sql → s.Calm inner reply sql) : Accounts next outer inner := by
  cases moves with
  | missing err => exact accounts
  | refused sql err begins db begun =>
      apply accounts_same accounts (begin_error begun)
      all_goals rw [note_frame]
  | nothing sql ends empty => exact accounts
  | commit sql commits t current =>
      have calm := calm sql rfl
      simp only [Calm, commits] at calm
      apply accounts_on_tx sql accounts current (commit_valid accounts.valid t reply)
      exact fun alive => .inl (commit_called alive fun err => calm t err current)
  | rollback sql rolls t current =>
      apply accounts_on_tx sql accounts current (rollback_valid accounts.valid t)
      exact fun alive => .inl (rollback_called alive)
  | inside sql plain t current =>
      have calm := calm sql rfl
      simp only [Calm, plain, current] at calm
      apply accounts_on_tx sql accounts current (exec_tx_valid accounts.valid t reply)
      intro alive
      exact (exec_tx_called alive fun opens => calm opens alive).imp_right And.right
  | outside sql plain empty db result ran =>
      have calm := calm sql rfl
      simp only [Calm, plain, empty] at calm
      have pool := (exec_ok ran).2
      rw [calm] at pool
      exact accounts_outside accounts pool (by rw [note_frame]) (by rw [note_frame]) (by rw [note_frame])

theorem on_tx_closed (s : Server R) (t : Nat) (sql : GoString) (db : Pool)
    (called : (s.db.tx t).done = false → s.db.Called t false db) : ¬ (s.onTx t sql db).db.Open t := by
  cases alive : (s.db.tx t).done with
  | true =>
      rw [on_tx_done s t sql db alive]
      intro opened
      exact Bool.false_ne_true (opened.1.symm.trans alive)
  | false =>
      rw [on_tx_alive s t sql db alive]
      exact called_closed (called alive)

theorem may_revert_executed {s next : Server R} {outer inner : Option Nat} {reply : Reply R}
    {looked : Except GoString GoString} {sql : GoString} {newTx : Option Nat}
    (moves : ExecMoves s inner reply looked next sql newTx) (ends : endsTx (trimSpace sql) = true)
    (calm : ∀ sql, looked = .ok sql → s.Calm inner reply sql ∧ s.BatchCalm outer inner reply sql) :
    newTx = none ∧ next.MayRevert outer inner := by
  cases moves with
  | missing err => cases ends
  | refused sql err begins db begun =>
      rw [begin_not_ends _ begins] at ends
      cases ends
  | begun sql begins db t begun =>
      rw [begin_not_ends _ begins] at ends
      cases ends
  | nothing sql _ empty =>
      refine ⟨rfl, fun t some => ?_⟩
      rw [empty] at some
      cases some
  | commit sql commits t current =>
      have calm := (calm sql rfl).1
      simp only [Calm, commits] at calm
      refine ⟨rfl, fun u here => .inr ?_⟩
      obtain rfl : t = u := Option.some.inj (current.symm.trans here)
      exact on_tx_closed s t sql _ fun alive => commit_called alive fun err => calm t err current
  | rollback sql rolls t current =>
      refine ⟨rfl, fun u here => .inr ?_⟩
      obtain rfl : t = u := Option.some.inj (current.symm.trans here)
      exact on_tx_closed s t sql _ rollback_called
  | inside sql plain t current =>
      obtain ⟨calm, reverts⟩ := calm sql rfl
      simp only [Calm, plain, current] at calm
      simp only [BatchCalm, plain] at reverts
      refine ⟨rfl, fun u here => ?_⟩
      obtain rfl : t = u := Option.some.inj (current.symm.trans here)
      cases after : reply.inTx with
      | false =>
          refine .inr (on_tx_closed s t sql _ fun alive => ?_)
          have never : reply.inTx = true → s.db.Open t := fun opens => nomatch after.symm.trans opens
          exact (exec_tx_called alive never).resolve_right fun opens => nomatch after.symm.trans opens.1
      | true =>
          cases alive : (s.db.tx t).done with
          | true =>
              rw [on_tx_done s t sql _ alive]
              exact reverts ends after t current
          | false => exact .inl ((reverts ends after t current).resolve_right (not_not_intro (calm after alive)))
  | outside sql plain empty db result ran =>
      refine ⟨rfl, fun t some => ?_⟩
      rw [empty] at some
      cases some

def Balanced (s : Server R) : Prop :=
  match s.pipeline with
  | none => Accounts s none none
  | some p => Accounts s p.tx p.inner

theorem balanced_under {s : Server R} {p : Pipeline R} (under : s.pipeline = some p) :
    Balanced s ↔ Accounts s p.tx p.inner := by
  rw [Balanced, under]

theorem inner_plain {p : Pipeline R} (plain : p.batch = none) : p.inner = p.tx := by
  rw [Pipeline.inner, plain]

theorem inner_batch {p : Pipeline R} {run : BatchRun R} (batch : p.batch = some run) : p.inner = run.tx := by
  rw [Pipeline.inner, batch]

theorem balanced_inner {next : Server R} {p q : Pipeline R} {tx : Option Nat} (accounts : Accounts next tx tx)
    (under : next.pipeline = some q) (same : q.tx = tx) (plain : p.batch = none) (kept : q.batch = p.batch) :
    Balanced next := by
  rw [balanced_under under, inner_plain (kept.trans plain), same]
  exact accounts

theorem text_resolved {s : Server R} {stmt : StmtRequest} {sql : GoString} (resolved : (s.resolveSql stmt).2 = .ok sql) :
    s.text stmt = some sql := by
  rw [text, resolved]
  rfl

theorem resume_lookup (s : Server R) (baton : Option GoString) (t : Nat) (found : s.lookup baton = some t) : s.Denoted t := by
  obtain ⟨name, presented, found⟩ := Option.bind_eq_some_iff.mp found
  split at found
  · cases found
  · exact ⟨name, found⟩

theorem accounts_execute {s next : Server R} {tx newTx : Option Nat} {reply : Reply R} {stmt : StmtRequest} {sql : GoString}
    {result : Except GoString (ExecResult R)} (accounts : Accounts s tx tx)
    (calm : ∀ sql, s.text stmt = some sql → s.Calm tx reply sql ∧
      (command (trimSpace sql) = .begin → ∀ value, reply.result = .ok value → s.MayLeave tx))
    (taken : s.executeStmt stmt tx reply = some (next, sql, result, newTx)) :
    Accounts next (newTx.or tx) (newTx.or tx) := by
  have moves := exec_moves s next stmt tx newTx reply sql result taken
  rw [resolve_frame] at moves
  generalize (s.resolveSql stmt).1.resolved = looks at moves
  generalize resolved : (s.resolveSql stmt).2 = looked at moves
  have accounts : Accounts { s with resolved := looks } tx tx := accounts_same accounts rfl rfl rfl rfl
  cases newTx with
  | none =>
      apply accounts_executed accounts moves
      intro sql here
      exact (calm sql (text_resolved (resolved.trans here))).1
  | some t =>
      cases moves with
      | begun sql begins db t begun =>
          obtain ⟨value, answered⟩ := begin_answered begun
          have leaves := (calm sql (text_resolved resolved)).2 begins value answered
          have alone : Accounts { s with resolved := looks } none none := accounts_forget accounts leaves
          apply accounts_leave
          · exact accounts_begin alone begun rfl (by rw [note_frame]) (by rw [note_frame]) (by rw [note_frame])
          · exact fun _ no => nomatch no

theorem accounts_batch_step {s next : Server R} {outer inner newTx : Option Nat} {reply : Reply R} {stmt : StmtRequest}
    {sql : GoString} {result : Except GoString (ExecResult R)} (accounts : Accounts s outer inner)
    (calm : ∀ sql, s.text stmt = some sql → s.Calm inner reply sql ∧ s.BatchCalm outer inner reply sql)
    (taken : s.executeStmt stmt inner reply = some (next, sql, result, newTx)) :
    Accounts next outer (if endsTx (trimSpace sql) then outer else newTx.or inner) := by
  have moves := exec_moves s next stmt inner newTx reply sql result taken
  rw [resolve_frame] at moves
  generalize (s.resolveSql stmt).1.resolved = looks at moves
  generalize resolved : (s.resolveSql stmt).2 = looked at moves
  have accounts : Accounts { s with resolved := looks } outer inner := accounts_same accounts rfl rfl rfl rfl
  have calm : ∀ sql, looked = .ok sql → s.Calm inner reply sql ∧ s.BatchCalm outer inner reply sql := by
    intro sql here
    exact calm sql (text_resolved (resolved.trans here))
  split
  next ends =>
    obtain ⟨rfl, reverts⟩ := may_revert_executed moves ends calm
    exact accounts_revert (accounts_executed accounts moves fun sql here => (calm sql here).1) reverts
  next =>
    cases newTx with
    | none => exact accounts_executed accounts moves fun sql here => (calm sql here).1
    | some t =>
        cases moves with
        | begun sql begins db t begun =>
            obtain ⟨value, answered⟩ := begin_answered begun
            have reverts := (calm sql rfl).2
            simp only [BatchCalm, begins] at reverts
            have own : Accounts { s with resolved := looks } outer outer := accounts_revert accounts (reverts value answered)
            exact accounts_begin own begun rfl (by rw [note_frame]) (by rw [note_frame]) (by rw [note_frame])

theorem balanced_step (s : Server R) (action : Action R) (next : Server R) (balanced : Balanced s)
    (settles : s.Settles action) (taken : step s action = some next) : Balanced next := by
  cases moves_of_step s action next taken with
  | receive stream baton requests idle =>
      rw [Balanced, idle] at balanced
      exact accounts_same (accounts_resume balanced (resume_lookup s baton)) rfl rfl rfl rfl
  | answer reply p entry rest under plain head atOnce result =>
      have accounts := (balanced_under under).mp balanced
      exact accounts_same accounts rfl rfl rfl rfl
  | execute reply p stmt rest under plain head after sql newTx result executed =>
      have accounts := (balanced_under under).mp balanced
      rw [inner_plain plain] at accounts
      have calm := settles p under
      simp only [plain, head] at calm
      have later := accounts_execute accounts calm executed
      exact balanced_inner (accounts_same later rfl rfl rfl rfl) rfl rfl plain rfl
  | beginBatch reply p steps rest under plain head =>
      have accounts := (balanced_under under).mp balanced
      rw [inner_plain plain] at accounts
      exact accounts_same accounts rfl rfl rfl rfl
  | sequence reply p sql rest under plain head db result ran =>
      have accounts := (balanced_under under).mp balanced
      have closed := settles p under
      simp only [plain, head] at closed
      have pool := (exec_ok ran).2
      rw [closed] at pool
      rw [note_frame]
      exact accounts_outside accounts pool rfl rfl rfl
  | storeSql reply p sqlId sql rest under plain head =>
      have accounts := (balanced_under under).mp balanced
      cases sqlId <;> cases sql <;> exact accounts_same accounts rfl rfl rfl rfl
  | closeSql reply p sqlId rest under plain head =>
      have accounts := (balanced_under under).mp balanced
      cases sqlId <;> exact accounts_same accounts rfl rfl rfl rfl
  | close reply p rest under plain head =>
      have accounts := (balanced_under under).mp balanced
      rw [inner_plain plain] at accounts
      have closed := settles p under
      simp only [plain, head] at closed
      have later := accounts_close accounts closed
      exact balanced_inner (accounts_same later rfl rfl rfl rfl) rfl rfl plain rfl
  | panic reply p run batchStep rest under batch head verdict =>
      have accounts := (balanced_under under).mp balanced
      rw [inner_batch batch] at accounts
      have leaves := settles p under
      simp only [batch, head, verdict] at leaves
      exact accounts_same (accounts_forget (accounts_revert accounts leaves.2) leaves.1) rfl rfl rfl rfl
  | skip reply p run batchStep rest under batch head verdict =>
      have accounts := (balanced_under under).mp balanced
      rw [inner_batch batch] at accounts
      exact accounts_same accounts rfl rfl rfl rfl
  | batchStep reply p run batchStep rest under batch head verdict after sql newTx result executed results errors =>
      have accounts := (balanced_under under).mp balanced
      rw [inner_batch batch] at accounts
      have calm := settles p under
      simp only [batch, head, verdict] at calm
      exact accounts_same (accounts_batch_step accounts calm executed) rfl rfl rfl rfl
  | endBatch reply p run under batch done result =>
      have accounts := (balanced_under under).mp balanced
      rw [inner_batch batch] at accounts
      have reverts := settles p under
      simp only [batch, done] at reverts
      exact accounts_same (accounts_revert accounts reverts) rfl rfl rfl rfl
  | respond p under plain done empty =>
      have accounts := (balanced_under under).mp balanced
      rw [inner_plain plain, empty] at accounts
      exact accounts_same accounts rfl rfl rfl rfl
  | rotate p under plain done t current =>
      have accounts := (balanced_under under).mp balanced
      rw [inner_plain plain, current] at accounts
      obtain ⟨opened, undenoted⟩ := settles p under t current
      exact accounts_rotate accounts opened undenoted rfl rfl rfl rfl

theorem in_step_of_settled {s : Server R} {path : List (Action R)} (settled : Along step Settles new path)
    (reached : run step new path = some s) (between : s.pipeline = none) : InStep s := by
  have initial : Balanced (new : Server R) := new_accounts
  have balanced : Balanced s := along_invariant balanced_step initial settled reached
  rw [Balanced, between] at balanced
  exact balanced_in_step balanced

theorem insertion_in_step : ∃ s, run step new insertion = some s ∧ InStep s := by
  have settled : Along step Settles new insertion := by
    refine along_cons trivial rfl ?_
    refine along_cons ?_ rfl ?_
    · rintro p ⟨⟩ sql ⟨⟩
      exact ⟨trivial, fun _ _ _ t no => nomatch no⟩
    refine along_cons ?_ rfl ?_
    · rintro p ⟨⟩ t ⟨⟩
      exact ⟨by decide, fun ⟨_, no⟩ => nomatch no⟩
    refine along_cons trivial rfl ?_
    refine along_cons ?_ rfl ?_
    · rintro p ⟨⟩ sql ⟨⟩
      exact ⟨fun _ _ => by decide, fun no => nomatch no⟩
    refine along_cons ?_ rfl ?_
    · rintro p ⟨⟩ sql ⟨⟩
      exact ⟨fun _ _ _ _ _ => rfl, fun no => nomatch no⟩
    refine along_cons ?_ rfl ?_
    · rintro p ⟨⟩ t ⟨⟩
      decide
    refine along_cons ?_ rfl trivial
    rintro p ⟨⟩ t no
    exact nomatch no
  exact ⟨_, rfl, in_step_of_settled settled rfl rfl⟩

def abandoned : List (Action Unit) :=
  [.receive 0 none [sent "BEGIN"], .next (answered true), .respond,
    .receive 0 (some (batonName 1)) [.close], .next (answered true), .respond]

theorem abandoned_stays_open : ∃ s, run step new abandoned = some s ∧ s.pipeline = none ∧ ¬ InStep s := by
  refine ⟨_, rfl, rfl, fun inStep => ?_⟩
  exact (inStep.concluded 0 (by decide)).2 (by decide)

end Brainkit.Libsql.Server
