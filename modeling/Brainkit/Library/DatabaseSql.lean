import Brainkit.Library.GoText

set_option autoImplicit false

-- Go's database/sql over a driver whose connections are in a transaction or not. A transaction of the package holds one
-- pooled connection until it is done; a statement outside of one takes a free connection. What the driver does is the
-- caller's reply.
namespace DatabaseSql

open Function (update)
open GoText

structure Tx where
  conn : Nat
  done : Bool
deriving DecidableEq

-- The transactions are numbered in the order of their Begin; numbers not yet given count as done.
structure Pool where
  inTx : Nat → Bool
  tx : Nat → Tx
  begun : Nat

-- One answer: the free connection that the pool picks, what the call returns, and whether the connection is in a
-- transaction afterwards.
structure Reply (R : Type) where
  conn : Nat
  result : Except GoString R
  inTx : Bool

def errTxDone : GoString := lit "sql: transaction has already been committed or rolled back"

namespace Pool

def new : Pool := ⟨fun _ => false, fun _ => ⟨0, true⟩, 0⟩

def conn (p : Pool) (t : Nat) : Nat := (p.tx t).conn

def Open (p : Pool) (t : Nat) : Prop := (p.tx t).done = false ∧ p.inTx (p.conn t) = true

instance (p : Pool) (t : Nat) : Decidable (p.Open t) := inferInstanceAs (Decidable (_ ∧ _))

def held (p : Pool) (c : Nat) : Bool := (List.range p.begun).any fun t => !(p.tx t).done && p.conn t = c

variable {R : Type}

-- Begin on a free connection; the driver refuses where one is in a transaction already.
def begin (reply : Reply R) (p : Pool) : Option (Pool × Except GoString Nat) :=
  if p.held reply.conn then none
  else match reply.result with
    | .error err => some (p, .error err)
    | .ok _ =>
        if p.inTx reply.conn then none
        else some ({
          inTx := update p.inTx reply.conn true
          tx := update p.tx p.begun ⟨reply.conn, false⟩
          begun := p.begun + 1 }, .ok p.begun)

def finish (t : Nat) (inTx : Bool) (p : Pool) : Pool :=
  { p with inTx := update p.inTx (p.conn t) inTx, tx := update p.tx t ⟨p.conn t, true⟩ }

-- Commit gives the connection back whatever the driver says; after an error it may still be in its transaction.
def commit (t : Nat) (reply : Reply R) (p : Pool) : Pool × Except GoString Unit :=
  if (p.tx t).done then (p, .error errTxDone)
  else match reply.result with
    | .ok _ => (p.finish t false, .ok ())
    | .error err => (p.finish t (p.inTx (p.conn t) && reply.inTx), .error err)

def rollback (t : Nat) (p : Pool) : Pool := if (p.tx t).done then p else p.finish t false

-- A statement in a transaction that is done never reaches the driver.
def execTx (t : Nat) (reply : Reply R) (p : Pool) : Pool × Except GoString R :=
  if (p.tx t).done then (p, .error errTxDone)
  else ({ p with inTx := update p.inTx (p.conn t) reply.inTx }, reply.result)

def exec (reply : Reply R) (p : Pool) : Option (Pool × Except GoString R) :=
  if p.held reply.conn then none
  else some ({ p with inTx := update p.inTx reply.conn reply.inTx }, reply.result)

structure Valid (p : Pool) : Prop where
  unborn : ∀ t, p.begun ≤ t → (p.tx t).done = true
  alone : ∀ t u, (p.tx t).done = false → (p.tx u).done = false → p.conn t = p.conn u → t = u

theorem new_valid : Valid new := ⟨fun _ _ => rfl, fun _ _ no => nomatch no⟩

theorem born {p : Pool} (valid : Valid p) {t : Nat} (alive : (p.tx t).done = false) : t < p.begun := by
  by_contra beyond
  have done := valid.unborn t (Nat.le_of_not_lt beyond)
  exact Bool.false_ne_true (alive.symm.trans done)

theorem not_held {p : Pool} (valid : Valid p) {c : Nat} (free : p.held c = false) {t : Nat}
    (alive : (p.tx t).done = false) : p.conn t ≠ c := by
  rintro rfl
  have here : p.held (p.conn t) = true := by
    simp only [held, List.any_eq_true, List.mem_range]
    exact ⟨t, born valid alive, by simp [alive]⟩
  exact Bool.false_ne_true (free.symm.trans here)

theorem begin_ok {p next : Pool} {reply : Reply R} {t : Nat} (begun : p.begin reply = some (next, .ok t)) :
    p.held reply.conn = false ∧ p.inTx reply.conn = false ∧ t = p.begun ∧ next = {
      inTx := update p.inTx reply.conn true
      tx := update p.tx p.begun ⟨reply.conn, false⟩
      begun := p.begun + 1 } := by
  unfold begin at begun
  split at begun
  · cases begun
  next free =>
    split at begun
    · cases begun
    · split at begun
      · cases begun
      next closed =>
        cases begun
        exact ⟨by simpa using free, by simpa using closed, rfl, rfl⟩

theorem begin_answered {p next : Pool} {reply : Reply R} {t : Nat} (begun : p.begin reply = some (next, .ok t)) :
    ∃ value, reply.result = .ok value := by
  unfold begin at begun
  split at begun
  · cases begun
  · split at begun
    · cases begun
    next value answered => exact ⟨value, answered⟩

theorem begin_error {p next : Pool} {reply : Reply R} {err : GoString} (failed : p.begin reply = some (next, .error err)) :
    next = p := by
  unfold begin at failed
  split at failed
  · cases failed
  · split at failed
    · cases failed
      rfl
    · split at failed <;> cases failed

theorem exec_ok {p next : Pool} {reply : Reply R} {result : Except GoString R} (ran : p.exec reply = some (next, result)) :
    p.held reply.conn = false ∧ next = { p with inTx := update p.inTx reply.conn reply.inTx } := by
  unfold exec at ran
  split at ran
  · cases ran
  next free =>
    cases ran
    exact ⟨by simpa using free, rfl⟩

theorem begin_valid {p next : Pool} {reply : Reply R} {result : Except GoString Nat} (valid : Valid p)
    (taken : p.begin reply = some (next, result)) : Valid next := by
  cases result with
  | error err => exact begin_error taken ▸ valid
  | ok t =>
      obtain ⟨free, closed, rfl, rfl⟩ := begin_ok taken
      constructor
      · intro t beyond
        simp only [Function.update_of_ne (Nat.ne_of_gt beyond)]
        exact valid.unborn t (Nat.le_of_succ_le beyond)
      · intro t u alive living same
        by_cases this : t = p.begun
        · by_cases that : u = p.begun
          · exact this.trans that.symm
          · simp only [conn, this, Function.update_self, Function.update_of_ne that] at living same
            exact absurd same.symm (not_held valid free living)
        · simp only [conn, Function.update_of_ne this] at alive same
          by_cases that : u = p.begun
          · simp only [that, Function.update_self] at same
            exact absurd same (not_held valid free alive)
          · simp only [Function.update_of_ne that] at living same
            exact valid.alone t u alive living same

theorem finish_done (p : Pool) (t : Nat) (inTx : Bool) (u : Nat) :
    ((p.finish t inTx).tx u).done = if u = t then true else (p.tx u).done := by
  by_cases same : u = t
  · simp [finish, same]
  · simp [finish, same]

theorem finish_conn (p : Pool) (t : Nat) (inTx : Bool) (u : Nat) : (p.finish t inTx).conn u = p.conn u := by
  by_cases same : u = t
  · simp [finish, conn, same]
  · simp [finish, conn, same]

theorem finish_valid {p : Pool} (valid : Valid p) (t : Nat) (inTx : Bool) : Valid (p.finish t inTx) := by
  constructor
  · intro u beyond
    rw [finish_done, valid.unborn u beyond, ite_self]
  · intro u v alive living same
    rw [finish_done] at alive living
    rw [finish_conn, finish_conn] at same
    split at alive
    · cases alive
    · split at living
      · cases living
      · exact valid.alone u v alive living same

theorem in_tx_valid {p : Pool} (valid : Valid p) (inTx : Nat → Bool) : Valid { p with inTx := inTx } :=
  ⟨valid.unborn, valid.alone⟩

theorem commit_valid {p : Pool} (valid : Valid p) (t : Nat) (reply : Reply R) : Valid (p.commit t reply).1 := by
  unfold commit
  split
  · exact valid
  · split <;> exact finish_valid valid t _

theorem rollback_valid {p : Pool} (valid : Valid p) (t : Nat) : Valid (p.rollback t) := by
  unfold rollback
  split
  · exact valid
  · exact finish_valid valid t false

theorem exec_tx_valid {p : Pool} (valid : Valid p) (t : Nat) (reply : Reply R) : Valid (p.execTx t reply).1 := by
  unfold execTx
  split
  · exact valid
  · exact in_tx_valid valid _

structure Called (p : Pool) (t : Nat) (inTx : Bool) (q : Pool) : Prop where
  inTx : q.inTx = update p.inTx (p.conn t) inTx
  begun : q.begun = p.begun
  conn : ∀ u, q.conn u = p.conn u
  done : ∀ u, u ≠ t → (q.tx u).done = (p.tx u).done

theorem finish_called (p : Pool) (t : Nat) (inTx : Bool) : p.Called t inTx (p.finish t inTx) where
  inTx := rfl
  begun := rfl
  conn := finish_conn p t inTx
  done u other := by rw [finish_done, if_neg other]

theorem called_closed {p q : Pool} {t : Nat} (called : p.Called t false q) : ¬ q.Open t := by
  simp [Open, called.conn, called.inTx]

theorem commit_called {p : Pool} {t : Nat} {reply : Reply R} (alive : (p.tx t).done = false)
    (closes : ∀ err, p.Open t → reply.result = .error err → reply.inTx = false) :
    p.Called t false (p.commit t reply).1 := by
  simp only [commit, alive, Bool.false_eq_true, if_false]
  split
  · exact finish_called p t false
  next err failed =>
    have closed : (p.inTx (p.conn t) && reply.inTx) = false := by
      cases here : p.inTx (p.conn t) with
      | false => rfl
      | true => rw [closes err ⟨alive, here⟩ failed, Bool.and_false]
    rw [closed]
    exact finish_called p t false

theorem rollback_called {p : Pool} {t : Nat} (alive : (p.tx t).done = false) : p.Called t false (p.rollback t) := by
  simp only [rollback, alive, Bool.false_eq_true, if_false]
  exact finish_called p t false

theorem exec_tx_called {p : Pool} {t : Nat} {reply : Reply R} (alive : (p.tx t).done = false)
    (opens : reply.inTx = true → p.Open t) :
    p.Called t false (p.execTx t reply).1 ∨ reply.inTx = true ∧ (p.execTx t reply).1 = p ∧ p.Open t := by
  simp only [execTx, alive, Bool.false_eq_true, if_false]
  cases after : reply.inTx with
  | false => exact .inl ⟨rfl, rfl, fun _ => rfl, fun _ _ => rfl⟩
  | true =>
      have opened := opens after
      refine .inr ⟨rfl, ?_, opened⟩
      rw [← opened.2, Function.update_eq_self]

end Pool

end DatabaseSql
