import Brainkit.Libsql.ServerMoves

set_option autoImplicit false

namespace Brainkit.Libsql.Server

open Function (update)
open GoText DatabaseSql DatabaseSql.Pool

variable {R : Type}

def Denoted (s : Server R) (t : Nat) : Prop := ∃ name, s.batons name = some t

def MayLeave (s : Server R) (tx : Option Nat) : Prop := ∀ t, tx = some t → (s.db.Open t ↔ s.Denoted t)

def MayRevert (s : Server R) (outer inner : Option Nat) : Prop := ∀ t, inner = some t → outer = some t ∨ ¬ s.db.Open t

-- The books while a pipeline runs: outer is its transaction, inner the one its statements go to (a batch's own, or
-- outer). An open transaction without a baton is one of these; a finished one with a baton is outer.
structure Accounts (s : Server R) (outer inner : Option Nat) : Prop where
  valid : s.db.Valid
  injective : ∀ a b t, s.batons a = some t → s.batons b = some t → a = b
  issued : ∀ name t, s.batons name = some t → ∃ k, k ≤ s.batonID ∧ name = batonName k
  known : ∀ t, s.Denoted t ∨ s.concluded t = true ∨ outer = some t ∨ inner = some t → t < s.db.begun
  reachable : ∀ c, s.db.inTx c = true →
    ∃ t, (s.db.tx t).done = false ∧ s.db.conn t = c ∧ (s.Denoted t ∨ outer = some t ∨ inner = some t)
  finished : ∀ t, s.concluded t = true → ¬ s.db.Open t
  stale : ∀ t, s.concluded t = true → s.Denoted t → outer = some t
  own : ∀ t, inner = some t → outer = some t ∨ ¬ s.Denoted t

theorem new_accounts : Accounts (new : Server R) none none where
  valid := Pool.new_valid
  injective _ _ _ no := nomatch no
  issued _ _ no := nomatch no
  known t some := by
    rcases some with ⟨_, no⟩ | no | no | no <;> cases no
  reachable _ no := nomatch no
  finished _ no := nomatch no
  stale _ no := nomatch no
  own _ no := nomatch no

theorem accounts_same {s next : Server R} {outer inner : Option Nat} (accounts : Accounts s outer inner)
    (db : next.db = s.db) (batons : next.batons = s.batons) (batonID : next.batonID = s.batonID)
    (concluded : next.concluded = s.concluded) : Accounts next outer inner := by
  have denoted : ∀ t, next.Denoted t ↔ s.Denoted t := by
    intro t
    rw [Denoted, Denoted, batons]
  obtain ⟨valid, injective, issued, known, reachable, finished, stale, own⟩ := accounts
  constructor
  · rwa [db]
  · rwa [batons]
  · rwa [batons, batonID]
  · simpa only [denoted, db, concluded] using known
  · simpa only [denoted, db] using reachable
  · rwa [db, concluded]
  · simpa only [denoted, concluded] using stale
  · simpa only [denoted] using own

theorem accounts_turn {s : Server R} {outer inner outer' inner' : Option Nat} (accounts : Accounts s outer inner)
    (known : ∀ t, outer' = some t ∨ inner' = some t → s.Denoted t ∨ outer = some t ∨ inner = some t)
    (kept : ∀ t, s.db.Open t → outer = some t ∨ inner = some t → s.Denoted t ∨ outer' = some t ∨ inner' = some t)
    (stale : ∀ t, s.Denoted t → ¬ s.db.Open t → outer = some t → outer' = some t)
    (own : ∀ t, inner' = some t → outer' = some t ∨ ¬ s.Denoted t) : Accounts s outer' inner' := by
  constructor
  · exact accounts.valid
  · exact accounts.injective
  · exact accounts.issued
  · intro t taken
    apply accounts.known
    obtain denoted | concluded | current := taken
    · exact .inl denoted
    · exact .inr (.inl concluded)
    · exact (known t current).imp_right .inr
  · intro c opened
    obtain ⟨t, alive, here, denoted | current⟩ := accounts.reachable c opened
    · exact ⟨t, alive, here, .inl denoted⟩
    · exact ⟨t, alive, here, kept t ⟨alive, here ▸ opened⟩ current⟩
  · exact accounts.finished
  · intro t concluded denoted
    exact stale t denoted (accounts.finished t concluded) (accounts.stale t concluded denoted)
  · exact own

theorem accounts_revert {s : Server R} {outer inner : Option Nat} (accounts : Accounts s outer inner)
    (leaves : s.MayRevert outer inner) : Accounts s outer outer := by
  apply accounts_turn accounts
  · intro t current
    exact .inr (.inl (current.elim id id))
  · intro t opened current
    obtain outer | inner := current
    · exact .inr (.inl outer)
    · exact .inr (.inl ((leaves t inner).resolve_right (not_not_intro opened)))
  · exact fun t _ _ outer => outer
  · exact fun t outer => .inl outer

theorem accounts_leave {s : Server R} {outer inner : Option Nat} (accounts : Accounts s outer inner)
    (leaves : s.MayLeave outer) : Accounts s inner inner := by
  apply accounts_turn accounts
  · intro t current
    exact .inr (.inr (current.elim id id))
  · intro t opened current
    obtain outer | inner := current
    · exact .inl ((leaves t outer).mp opened)
    · exact .inr (.inl inner)
  · exact fun t denoted closed outer => absurd ((leaves t outer).mpr denoted) closed
  · exact fun t inner => .inl inner

theorem accounts_forget {s : Server R} {outer : Option Nat} (accounts : Accounts s outer outer)
    (leaves : s.MayLeave outer) : Accounts s none none := by
  apply accounts_turn accounts
  · exact fun t no => no.elim nofun nofun
  · exact fun t opened outer => .inl ((leaves t (outer.elim id id)).mp opened)
  · exact fun t denoted closed outer => absurd ((leaves t outer).mpr denoted) closed
  · exact fun t no => nomatch no

theorem accounts_resume {s : Server R} {tx : Option Nat} (accounts : Accounts s none none)
    (resumed : ∀ t, tx = some t → s.Denoted t) : Accounts s tx tx := by
  apply accounts_turn accounts
  · exact fun t current => .inl (resumed t (current.elim id id))
  · exact fun t _ no => no.elim nofun nofun
  · exact fun t _ _ no => nomatch no
  · exact fun t current => .inl current

theorem accounts_begin {s next : Server R} {outer : Option Nat} {reply : Reply R} {db : Pool} {t : Nat}
    (accounts : Accounts s outer outer) (begun : s.db.begin reply = some (db, .ok t)) (pool : next.db = db)
    (batons : next.batons = s.batons) (batonID : next.batonID = s.batonID) (concluded : next.concluded = s.concluded) :
    Accounts next outer (some t) := by
  have denoted : ∀ u, next.Denoted u ↔ s.Denoted u := by
    intro u
    rw [Denoted, Denoted, batons]
  have valid := begin_valid accounts.valid begun
  obtain ⟨free, closed, rfl, rfl⟩ := begin_ok begun
  have older : ∀ u, u < s.db.begun → next.db.tx u = s.db.tx u := by
    intro u before
    simp only [pool, Function.update_of_ne (Nat.ne_of_lt before)]
  constructor
  · rwa [pool]
  · rw [batons]
    exact accounts.injective
  · rw [batons, batonID]
    exact accounts.issued
  · intro u taken
    rw [pool]
    rw [denoted, concluded] at taken
    obtain denoted | concluded | outer | new := taken
    · exact Nat.lt_succ_of_lt (accounts.known u (.inl denoted))
    · exact Nat.lt_succ_of_lt (accounts.known u (.inr (.inl concluded)))
    · exact Nat.lt_succ_of_lt (accounts.known u (.inr (.inr (.inl outer))))
    · exact Option.some.inj new ▸ Nat.lt_succ_self _
  · intro c opened
    by_cases same : c = reply.conn
    · exact ⟨s.db.begun, by simp [pool], by simp [pool, Pool.conn, same], .inr (.inr rfl)⟩
    · simp only [pool, Function.update_of_ne same] at opened
      obtain ⟨u, alive, here, place⟩ := accounts.reachable c opened
      have kept := older u (born accounts.valid alive)
      refine ⟨u, by rw [kept, alive], by rw [Pool.conn, kept, ← here, Pool.conn], ?_⟩
      rw [denoted]
      exact place.imp_right fun current => .inl (current.elim id id)
  · intro u ended opened
    rw [concluded] at ended
    have kept := older u (accounts.known u (.inr (.inl ended)))
    rw [Pool.Open, Pool.conn, kept] at opened
    have other : (s.db.tx u).conn ≠ reply.conn := not_held accounts.valid free opened.1
    simp only [pool, Function.update_of_ne other] at opened
    exact accounts.finished u ended opened
  · intro u ended had
    rw [concluded] at ended
    exact accounts.stale u ended ((denoted u).mp had)
  · intro u new
    refine .inr fun had => ?_
    have before := accounts.known u (.inl ((denoted u).mp had))
    exact absurd (Option.some.inj new) (Nat.ne_of_gt before)

theorem accounts_closed {s next : Server R} {outer inner : Option Nat} {t : Nat} (accounts : Accounts s outer inner)
    (current : inner = some t) (valid : next.db.Valid) (inTx : next.db.inTx = update s.db.inTx (s.db.conn t) false)
    (begun : next.db.begun = s.db.begun) (conn : ∀ u, next.db.conn u = s.db.conn u)
    (done : ∀ u, u ≠ t → (next.db.tx u).done = (s.db.tx u).done) (batons : next.batons = s.batons)
    (batonID : next.batonID = s.batonID) (concluded : next.concluded = update s.concluded t true) : Accounts next outer inner := by
  have denoted : ∀ u, next.Denoted u ↔ s.Denoted u := by
    intro u
    rw [Denoted, Denoted, batons]
  have ended : ∀ u, next.concluded u = true → u = t ∨ s.concluded u = true := by
    intro u concluded_u
    by_cases same : u = t
    · exact .inl same
    · rw [concluded, Function.update_of_ne same] at concluded_u
      exact .inr concluded_u
  have closed : ¬ next.db.Open t := by
    simp [Pool.Open, conn, inTx]
  have opened : ∀ u, next.db.Open u → s.db.Open u := by
    intro u open_u
    have other : u ≠ t := by
      rintro rfl
      exact closed open_u
    rw [Pool.Open, conn, inTx, done u other] at open_u
    refine ⟨open_u.1, ?_⟩
    by_cases same : s.db.conn u = s.db.conn t
    · simp [same] at open_u
    · simpa [same] using open_u.2
  constructor
  · exact valid
  · rw [batons]
    exact accounts.injective
  · rw [batons, batonID]
    exact accounts.issued
  · intro u taken
    rw [begun]
    rw [denoted] at taken
    obtain denoted | concluded | place := taken
    · exact accounts.known u (.inl denoted)
    · obtain rfl | concluded := ended u concluded
      · exact accounts.known u (.inr (.inr (.inr current)))
      · exact accounts.known u (.inr (.inl concluded))
    · exact accounts.known u (.inr (.inr place))
  · intro c still
    have other : c ≠ s.db.conn t := by
      rintro rfl
      simp [inTx] at still
    rw [inTx, Function.update_of_ne other] at still
    obtain ⟨u, alive, here, place⟩ := accounts.reachable c still
    have distinct : u ≠ t := by
      rintro rfl
      exact other here.symm
    exact ⟨u, by rw [done u distinct, alive], by rw [conn, here], by rwa [denoted]⟩
  · intro u concluded_u open_u
    obtain rfl | before := ended u concluded_u
    · exact closed open_u
    · exact accounts.finished u before (opened u open_u)
  · intro u concluded_u had
    rw [denoted] at had
    obtain rfl | before := ended u concluded_u
    · exact (accounts.own u current).resolve_right (not_not_intro had)
    · exact accounts.stale u before had
  · intro u here
    rw [denoted]
    exact accounts.own u here

theorem accounts_outside {s next : Server R} {outer inner : Option Nat} {conn : Nat} (accounts : Accounts s outer inner)
    (pool : next.db = { s.db with inTx := update s.db.inTx conn false }) (batons : next.batons = s.batons)
    (batonID : next.batonID = s.batonID) (concluded : next.concluded = s.concluded) : Accounts next outer inner := by
  have denoted : ∀ u, next.Denoted u ↔ s.Denoted u := by
    intro u
    rw [Denoted, Denoted, batons]
  have still : ∀ c, next.db.inTx c = true → s.db.inTx c = true := by
    intro c opened
    rw [pool] at opened
    by_cases same : c = conn
    · simp [same] at opened
    · simpa [same] using opened
  have tx : next.db.tx = s.db.tx := by rw [pool]
  constructor
  · rw [pool]
    exact in_tx_valid accounts.valid _
  · rw [batons]
    exact accounts.injective
  · rw [batons, batonID]
    exact accounts.issued
  · intro u taken
    rw [denoted, concluded] at taken
    rw [pool]
    exact accounts.known u taken
  · intro c opened
    obtain ⟨u, alive, here, place⟩ := accounts.reachable c (still c opened)
    exact ⟨u, by rw [tx, alive], by rw [Pool.conn, tx, ← here, Pool.conn], by rwa [denoted]⟩
  · intro u ended opened
    rw [concluded] at ended
    rw [Pool.Open, Pool.conn, tx] at opened
    exact accounts.finished u ended ⟨opened.1, still _ opened.2⟩
  · intro u ended had
    rw [concluded] at ended
    exact accounts.stale u ended ((denoted u).mp had)
  · intro u here
    rw [denoted]
    exact accounts.own u here

theorem accounts_close {s : Server R} {tx : Option Nat} (accounts : Accounts s tx tx)
    (closed : ∀ t, tx = some t → ¬ s.db.Open t) : Accounts (s.close tx) none none := by
  cases tx with
  | none => exact accounts
  | some t =>
      have gone : ∀ name u, (s.close (some t)).batons name = some u ↔ s.batons name = some u ∧ u ≠ t := by
        intro name u
        simp only [Server.close]
        split
        next same => simp [same, eq_comm]
        next other =>
          constructor
          · intro here
            exact ⟨here, fun same => other (same ▸ here)⟩
          · exact And.left
      have denoted : ∀ u, (s.close (some t)).Denoted u → s.Denoted u ∧ u ≠ t := by
        intro u had
        obtain ⟨name, here⟩ := had
        have both := (gone name u).mp here
        exact ⟨⟨name, both.1⟩, both.2⟩
      have ended : ∀ u, (s.close (some t)).concluded u = true → u = t ∨ s.concluded u = true := by
        intro u concluded
        by_cases same : u = t
        · exact .inl same
        · simp only [Server.close, Function.update_of_ne same] at concluded
          exact .inr concluded
      constructor
      · exact accounts.valid
      · intro a b u first second
        exact accounts.injective a b u ((gone a u).mp first).1 ((gone b u).mp second).1
      · intro name u here
        exact accounts.issued name u ((gone name u).mp here).1
      · intro u taken
        obtain had | concluded | no | no := taken
        · exact accounts.known u (.inl (denoted u had).1)
        · obtain rfl | before := ended u concluded
          · exact accounts.known u (.inr (.inr (.inl rfl)))
          · exact accounts.known u (.inr (.inl before))
        · cases no
        · cases no
      · intro c opened
        obtain ⟨u, alive, here, place⟩ := accounts.reachable c opened
        have other : u ≠ t := by
          rintro rfl
          exact closed u rfl ⟨alive, here ▸ opened⟩
        obtain ⟨name, baton⟩ : s.Denoted u := place.resolve_right fun current =>
          other (Option.some.inj (current.elim id id)).symm
        exact ⟨u, alive, here, .inl ⟨name, (gone name u).mpr ⟨baton, other⟩⟩⟩
      · intro u concluded
        obtain rfl | before := ended u concluded
        · exact closed u rfl
        · exact accounts.finished u before
      · intro u concluded had
        obtain ⟨had, other⟩ := denoted u had
        have before := (ended u concluded).resolve_left other
        exact absurd (Option.some.inj (accounts.stale u before had)).symm other
      · rintro u ⟨⟩

theorem accounts_rotate {s next : Server R} {t : Nat} (accounts : Accounts s (some t) (some t)) (opened : s.db.Open t)
    (undenoted : ¬ s.Denoted t) (db : next.db = s.db)
    (batons : next.batons = update s.batons (batonName (s.batonID + 1)) (some t))
    (batonID : next.batonID = s.batonID + 1) (concluded : next.concluded = s.concluded) : Accounts next none none := by
  have fresh : ∀ name u, s.batons name = some u → name ≠ batonName (s.batonID + 1) := by
    intro name u here same
    obtain ⟨k, bound, rfl⟩ := accounts.issued name u here
    have := baton_name_injective same
    omega
  have kept : ∀ name u, s.batons name = some u → next.batons name = some u := by
    intro name u here
    rw [batons, Function.update_of_ne (fresh name u here), here]
  have given : ∀ name u, next.batons name = some u →
      name = batonName (s.batonID + 1) ∧ u = t ∨ s.batons name = some u ∧ u ≠ t := by
    intro name u here
    by_cases same : name = batonName (s.batonID + 1)
    · rw [batons, same, Function.update_self] at here
      exact .inl ⟨same, (Option.some.inj here).symm⟩
    · rw [batons, Function.update_of_ne same] at here
      exact .inr ⟨here, fun same => undenoted ⟨name, same ▸ here⟩⟩
  constructor
  · rw [db]
    exact accounts.valid
  · intro a b u first second
    obtain ⟨rfl, rfl⟩ | ⟨here, other⟩ := given a u first
    · obtain ⟨rfl, -⟩ | ⟨-, other⟩ := given b u second
      · rfl
      · exact absurd rfl other
    · obtain ⟨-, same⟩ | ⟨there, -⟩ := given b u second
      · exact absurd same other
      · exact accounts.injective a b u here there
  · intro name u here
    rw [batonID]
    obtain ⟨same, -⟩ | ⟨here, -⟩ := given name u here
    · exact ⟨_, Nat.le_refl _, same⟩
    · obtain ⟨k, bound, same⟩ := accounts.issued name u here
      exact ⟨k, Nat.le_succ_of_le bound, same⟩
  · intro u taken
    rw [db]
    obtain ⟨name, here⟩ | ended | no | no := taken
    · obtain ⟨-, rfl⟩ | ⟨here, -⟩ := given name u here
      · exact accounts.known u (.inr (.inr (.inl rfl)))
      · exact accounts.known u (.inl ⟨name, here⟩)
    · rw [concluded] at ended
      exact accounts.known u (.inr (.inl ended))
    · cases no
    · cases no
  · intro c still
    rw [db] at still ⊢
    obtain ⟨u, alive, here, ⟨name, baton⟩ | current⟩ := accounts.reachable c still
    · exact ⟨u, alive, here, .inl ⟨name, kept name u baton⟩⟩
    · obtain rfl : t = u := Option.some.inj (current.elim id id)
      exact ⟨t, alive, here, .inl ⟨_, by rw [batons, Function.update_self]⟩⟩
  · rw [db, concluded]
    exact accounts.finished
  · intro u ended had
    rw [concluded] at ended
    obtain ⟨name, here⟩ := had
    obtain ⟨-, rfl⟩ | ⟨here, other⟩ := given name u here
    · exact absurd opened (accounts.finished u ended)
    · exact absurd (Option.some.inj (accounts.stale u ended ⟨name, here⟩)).symm other
  · exact fun u no => nomatch no

end Brainkit.Libsql.Server
