import Brainkit.Library.Headcount

set_option autoImplicit false

universe u v

open Function (update)
open Headcount (Counts counts_nobody counts_enter counts_leave counts_zero_iff)

-- The one goroutine that waits until nobody is inside and then closes the channel that a closer waits for.
inductive GateWaiter where
  | idle
  | waiting
  | passed
  | done
deriving DecidableEq

-- A closed flag under a lock, a wait group that is entered under the lock while the flag is not set, and its waiter.
structure Gate where
  closed : Bool
  count : Nat
  waiter : GateWaiter
deriving DecidableEq

namespace Gate

def new : Gate := ⟨false, 0, .idle⟩

def enter (g : Gate) : Gate := { g with count := g.count + 1 }

def leave (g : Gate) : Gate := { g with count := g.count - 1 }

-- The first close starts the waiter.
def close (g : Gate) : Gate := { g with closed := true, waiter := if g.waiter = .idle then .waiting else g.waiter }

def pass (g : Gate) : Option Gate := if g.waiter = .waiting ∧ g.count = 0 then some { g with waiter := .passed } else none

def finish (g : Gate) : Option Gate := if g.waiter = .passed then some { g with waiter := .done } else none

structure Valid {ι : Type u} (inside : ι → Bool) (g : Gate) : Prop where
  counts : Counts inside g.count
  shut : g.waiter ≠ .idle → g.closed = true
  drained : g.waiter = .passed ∨ g.waiter = .done → g.count = 0

section

variable {ι : Type u} {inside : ι → Bool} {g next : Gate}

theorem valid_new : new.Valid fun _ : ι => false where
  counts := counts_nobody
  shut started := absurd rfl started
  drained passed := nomatch passed

theorem valid_enter [DecidableEq ι] (valid : g.Valid inside) (open' : g.closed = false) (k : ι) (absent : inside k = false) :
    g.enter.Valid (update inside k true) where
  counts := counts_enter valid.counts k absent
  shut := valid.shut
  drained passed := by
    have started : g.waiter ≠ .idle := by rcases passed with here | here <;> simp_all [enter]
    cases open'.symm.trans (valid.shut started)

theorem valid_leave [DecidableEq ι] (valid : g.Valid inside) (k : ι) (present : inside k = true) :
    g.leave.Valid (update inside k false) where
  counts := counts_leave valid.counts k present
  shut := valid.shut
  drained passed := by simp only [leave, valid.drained passed]

theorem valid_close (valid : g.Valid inside) : g.close.Valid inside where
  counts := valid.counts
  shut _ := rfl
  drained passed := by
    dsimp only [close] at passed
    split at passed
    · simp at passed
    · exact valid.drained passed

theorem valid_pass (valid : g.Valid inside) (taken : g.pass = some next) : next.Valid inside := by
  obtain ⟨⟨waiting, none⟩, result⟩ := Option.ite_none_right_eq_some.mp taken
  cases result
  exact ⟨valid.counts, fun _ => valid.shut (by simp [waiting]), fun _ => none⟩

theorem valid_finish (valid : g.Valid inside) (taken : g.finish = some next) : next.Valid inside := by
  obtain ⟨passed, result⟩ := Option.ite_none_right_eq_some.mp taken
  cases result
  exact ⟨valid.counts, fun _ => valid.shut (by simp [passed]), fun _ => valid.drained (.inl passed)⟩

theorem drained_nobody (valid : g.Valid inside) (done : g.waiter = .done) (k : ι) : inside k = false := by
  have none := valid.drained (.inr done)
  exact counts_zero_iff.mp (none ▸ valid.counts) k

theorem drained_closed (valid : g.Valid inside) (done : g.waiter = .done) : g.closed = true := valid.shut (by simp [done])

theorem valid_update [DecidableEq ι] {α : Type v} {f : α → Bool} {pcs : ι → α} (n : ι) (pc : α)
    (valid : g.Valid (update (fun k => f (pcs k)) n (f pc))) : g.Valid fun k => f (update pcs n pc k) := by
  have same : (fun k => f (update pcs n pc k)) = update (fun k => f (pcs k)) n (f pc) := by
    funext k
    exact Function.apply_update (fun _ => f) pcs n pc k
  rwa [same]

theorem valid_same [DecidableEq ι] {α : Type v} {f : α → Bool} {pcs : ι → α} {n : ι} {pc : α}
    (valid : g.Valid fun k => f (pcs k)) (same : f pc = f (pcs n)) : g.Valid fun k => f (update pcs n pc k) := by
  refine valid_update n pc ?_
  rwa [same, Function.update_eq_self n fun k => f (pcs k)]

theorem close_done (done : g.waiter = .done) : g.close.waiter = .done := by simp [close, done]

theorem pass_done (taken : g.pass = some next) : g.waiter ≠ .done := by
  obtain ⟨⟨waiting, -⟩, -⟩ := Option.ite_none_right_eq_some.mp taken
  simp [waiting]

theorem finish_done (taken : g.finish = some next) : next.waiter = .done := by
  obtain ⟨-, result⟩ := Option.ite_none_right_eq_some.mp taken
  cases result
  rfl

end

end Gate
