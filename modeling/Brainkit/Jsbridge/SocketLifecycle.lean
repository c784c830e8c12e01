import Brainkit.Library.Transition

set_option autoImplicit false

-- The connections of one socket in net.go. The bridge's context stays alive; when it ends, the JS side does too.
namespace Brainkit.Jsbridge.SocketLifecycle

open Function (update update_self update_of_ne)
open Transition (run Along)

inductive Phase where
  | reading
  | returned (failed : Bool)
  | leaving (closes reports : Bool)
  | finished
deriving DecidableEq

def Phase.going : Phase → Bool
  | .reading | .returned _ => true
  | .leaving _ _ | .finished => false

inductive Session where
  | none
  | handshaking
  | established
  | failed
  | ended
deriving DecidableEq

def Session.uses : Session → Bool
  | .handshaking | .established => true
  | .none | .failed | .ended => false

structure GoConn where
  id : Nat
  -- How often done has been closed; the second time panics.
  closes : Nat
  phase : Phase
  session : Session
  -- The connection under the TLS session that this one is.
  base : Option Nat
deriving DecidableEq

structure Sockets where
  -- _id and _destroyed, and whether end or destroy has been called since the last connect.
  id : Option Nat
  destroyed : Bool
  ended : Bool
  nextID : Nat
  dialing : Nat → Bool
  conns : Nat → Option Nat
  gcs : Nat → GoConn
  made : Nat
  -- The connection whose handshake holds the JS thread.
  handshake : Option Nat
  -- Calls of _onClose that are scheduled.
  closing : Nat
  -- A plain loop has read what came after the upgrade was requested, or closed the connection under its session.
  stolen : Bool
  broken : Bool

def absent : GoConn := ⟨0, 0, .finished, .none, none⟩

def idle : Sockets :=
  ⟨none, false, false, 0, fun _ => false, fun _ => none, fun _ => absent, 0, none, 0, false, false⟩

inductive Event where
  | connect
  | dialFails (id : Nat)
  | dialed (id : Nat)
  -- late says that there are bytes which came after a request to upgrade the connection.
  | loopRead (conn : Nat) (late failed : Bool)
  | loopCheck (conn : Nat)
  | loopLeave (conn : Nat)
  | onClose
  | ends
  | destroy
  | upgrade
  | handshakes (ok : Bool)

namespace Sockets

def setConn (s : Sockets) (conn : Nat) (gc : GoConn) : Sockets := { s with gcs := update s.gcs conn gc }

def connect (s : Sockets) : Sockets :=
  { s with id := some (s.nextID + 1), ended := false, nextID := s.nextID + 1, dialing := update s.dialing (s.nextID + 1) true }

def register (s : Sockets) (id : Nat) (base : Option Nat) : Sockets :=
  { s with
    conns := update s.conns id (some s.made)
    gcs := update s.gcs s.made ⟨id, 0, .reading, .none, base⟩
    made := s.made + 1 }

def deleteConn (s : Sockets) (id expected : Nat) : Sockets :=
  if s.conns id = some expected then { s with conns := update s.conns id none } else s

def closeDone (s : Sockets) (conn : Nat) : Sockets :=
  s.setConn conn { s.gcs conn with closes := (s.gcs conn).closes + 1 }

def loopRead (s : Sockets) (conn : Nat) (late failed : Bool) : Sockets :=
  { s.setConn conn { s.gcs conn with phase := .returned failed } with
    stolen := s.stolen || (late && (s.gcs conn).session != .none) }

-- done first, then the error of the Read; a loop over a TLS session closes it either way.
def checked (gc : GoConn) (failed : Bool) : Phase :=
  if 0 < gc.closes then .leaving true false
  else if failed then .leaving gc.base.isSome true
  else .reading

def sessionEnds (s : Sockets) : Option Nat → Sockets
  | none => s
  | some base => s.setConn base { s.gcs base with session := .ended }

def loopLeave (s : Sockets) (conn : Nat) (closes reports : Bool) : Sockets :=
  let gc := s.gcs conn
  let gone := (s.setConn conn { gc with phase := .finished }).deleteConn gc.id conn
  ({ gone with
    closing := s.closing + reports.toNat
    broken := s.broken || (closes && gc.session.uses) }).sessionEnds gc.base

def goEnd (s : Sockets) : Sockets :=
  match s.id.bind s.conns, s.id with
  | some conn, some id => { s with conns := update s.conns id none }.closeDone conn
  | _, _ => s

def ends (s : Sockets) : Sockets := { s.goEnd with destroyed := true, ended := true }

def destroy (s : Sockets) : Sockets := if s.destroyed then { s with ended := true } else s.ends

-- __go_net_tls_upgrade up to the handshake; without an entry it answers false.
def upgrade (s : Sockets) : Sockets :=
  match s.id.bind s.conns with
  | none => s
  | some conn =>
      let stopped := s.closeDone conn
      { stopped.setConn conn { stopped.gcs conn with session := .handshaking } with handshake := some conn }

def handshakes (s : Sockets) (conn : Nat) (ok : Bool) : Sockets :=
  let gc := s.gcs conn
  if ok then { s.setConn conn { gc with session := .established } with handshake := none }.register gc.id (some conn)
  else { s.setConn conn { gc with session := .failed } with handshake := none }

end Sockets

-- The JS thread makes one bridge call at a time, and a handshake is such a call.
def step (s : Sockets) : Event → Option Sockets
  | .connect => if s.handshake = none then some s.connect else none
  | .dialFails id => if s.dialing id then some { s with dialing := update s.dialing id false } else none
  | .dialed id => if s.dialing id then some ({ s with dialing := update s.dialing id false }.register id none) else none
  | .loopRead conn late failed => if (s.gcs conn).phase = .reading then some (s.loopRead conn late failed) else none
  | .loopCheck conn =>
      match (s.gcs conn).phase with
      | .returned failed => some (s.setConn conn { s.gcs conn with phase := Sockets.checked (s.gcs conn) failed })
      | _ => none
  | .loopLeave conn =>
      match (s.gcs conn).phase with
      | .leaving closes reports => some (s.loopLeave conn closes reports)
      | _ => none
  | .onClose =>
      if s.handshake = none ∧ 0 < s.closing then some { s with closing := s.closing - 1, destroyed := true } else none
  | .ends => if s.handshake = none then some s.ends else none
  | .destroy => if s.handshake = none then some s.destroy else none
  | .upgrade => if s.handshake = none then some s.upgrade else none
  | .handshakes ok => s.handshake.map fun conn => s.handshakes conn ok

structure Live (s : Sockets) (id conn : Nat) : Prop where
  registered : s.conns id = some conn
  unstopped : (s.gcs conn).closes = 0
  going : (s.gcs conn).phase.going = true

structure Sound (s : Sockets) : Prop where
  closedOnce : ∀ conn, (s.gcs conn).closes ≤ 1
  stopped : s.ended = true → ∀ id conn, ¬Live s id conn
  own : s.stolen = false ∧ s.broken = false

-- One connection at a time, no dial that outlives the socket, no destroy that the flag turns away from a live
-- connection, and no upgrade of a registered one.
def Allowed (s : Sockets) : Event → Prop
  | .connect => (∀ id, s.dialing id = false) ∧ ∀ id conn, ¬Live s id conn
  | .dialed _ => s.ended = false
  | .destroy => s.destroyed = true → ∀ id conn, s.id = some id → ¬Live s id conn
  | .upgrade => ∀ id, s.id = some id → s.conns id = none
  | _ => True

structure Valid (s : Sockets) : Prop where
  unheld : s.handshake = none
  -- An entry is made for its id, and nobody has closed its done.
  entry : ∀ id conn, s.conns id = some conn →
    conn < s.made ∧ (s.gcs conn).id = id ∧ (s.gcs conn).closes = 0 ∧ (s.gcs conn).phase ≠ .finished
  once : ∀ conn, (s.gcs conn).closes ≤ 1
  plain : ∀ conn, (s.gcs conn).session = .none ∧ (s.gcs conn).base = none
  unmade : ∀ conn, s.made ≤ conn → (s.gcs conn).phase = .finished
  current : ∀ id conn, Live s id conn → s.id = some id ∧ s.ended = false
  dialed : ∀ id, s.dialing id = true → s.id = some id ∧ s.conns id = none ∧ ∀ other conn, ¬Live s other conn
  numbered : ∀ id, s.dialing id = true ∨ s.conns id ≠ none ∨ s.id = some id → id ≤ s.nextID
  own : s.stolen = false ∧ s.broken = false

theorem Valid.sound {s : Sockets} (valid : Valid s) : Sound s where
  closedOnce := valid.once
  stopped ended id conn live := by
    have running := (valid.current id conn live).2
    cases running.symm.trans ended
  own := valid.own

theorem idle_valid : Valid idle where
  unheld := rfl
  entry _ _ here := nomatch here
  once _ := Nat.zero_le 1
  plain _ := ⟨rfl, rfl⟩
  unmade _ _ := rfl
  current _ _ live := nomatch live.registered
  dialed _ here := nomatch here
  numbered id here := by rcases here with here | here | here <;> simp [idle] at here
  own := ⟨rfl, rfl⟩

theorem gained {f : Nat → Bool} {key other : Nat} (here : update f key true other = true) : other = key ∨ f other = true := by
  rw [Function.update_apply] at here
  split at here
  · next same => exact .inl same
  · exact .inr here

theorem dropped {f : Nat → Bool} {key other : Nat} (here : update f key false other = true) :
    other ≠ key ∧ f other = true := by
  rw [Function.update_apply] at here
  split at here
  · cases here
  · next apart => exact ⟨apart, here⟩

section

variable {s : Sockets} {id conn : Nat}

theorem connect_valid (valid : Valid s) (alone : (∀ id, s.dialing id = false) ∧ ∀ id conn, ¬Live s id conn) :
    Valid s.connect where
  unheld := valid.unheld
  entry := valid.entry
  once := valid.once
  plain := valid.plain
  unmade := valid.unmade
  current other found live := absurd ⟨live.registered, live.unstopped, live.going⟩ (alone.2 other found)
  dialed other here := by
    rcases gained here with rfl | before
    · refine ⟨rfl, ?_, fun id conn live => alone.2 id conn ⟨live.registered, live.unstopped, live.going⟩⟩
      by_contra some
      have old := valid.numbered _ (.inr (.inl some))
      omega
    · cases (alone.1 other).symm.trans before
  numbered other here := by
    change other ≤ s.nextID + 1
    rcases here with here | here | here
    · rcases gained here with rfl | before
      · exact Nat.le_refl _
      · exact Nat.le_succ_of_le (valid.numbered other (.inl before))
    · exact Nat.le_succ_of_le (valid.numbered other (.inr (.inl here)))
    · exact Nat.le_of_eq (Option.some.inj here).symm
  own := valid.own

theorem dialFails_valid (valid : Valid s) : Valid { s with dialing := update s.dialing id false } where
  unheld := valid.unheld
  entry := valid.entry
  once := valid.once
  plain := valid.plain
  unmade := valid.unmade
  current other found live := valid.current other found ⟨live.registered, live.unstopped, live.going⟩
  dialed other here := by
    have before := (dropped here).2
    obtain ⟨current, none, dead⟩ := valid.dialed other before
    exact ⟨current, none, fun id conn live => dead id conn ⟨live.registered, live.unstopped, live.going⟩⟩
  numbered other here := valid.numbered other (here.imp_left fun here => (dropped here).2)
  own := valid.own

theorem register_valid (valid : Valid s) (dialing : s.dialing id = true) (running : s.ended = false) :
    Valid ({ s with dialing := update s.dialing id false }.register id none) where
  unheld := valid.unheld
  entry other found here := by
    have here : update s.conns id (some s.made) other = some found := here
    change found < s.made + 1 ∧ (update s.gcs s.made _ found).id = other ∧ (update s.gcs s.made _ found).closes = 0 ∧
      (update s.gcs s.made _ found).phase ≠ .finished
    rw [Function.update_apply] at here
    split at here
    · next same =>
        cases here
        rw [update_self]
        exact ⟨Nat.lt_succ_self _, same.symm, rfl, nofun⟩
    · obtain ⟨made, rest⟩ := valid.entry other found here
      rw [update_of_ne (Nat.ne_of_lt made)]
      exact ⟨Nat.lt_succ_of_lt made, rest⟩
  once found := by
    change (update s.gcs s.made _ found).closes ≤ 1
    rw [Function.update_apply]
    split
    · exact Nat.zero_le 1
    · exact valid.once found
  plain found := by
    change (update s.gcs s.made _ found).session = _ ∧ (update s.gcs s.made _ found).base = _
    rw [Function.update_apply]
    split
    · exact ⟨rfl, rfl⟩
    · exact valid.plain found
  unmade found above := by
    have above : s.made + 1 ≤ found := above
    change (update s.gcs s.made _ found).phase = _
    rw [update_of_ne (by omega)]
    exact valid.unmade found (by omega)
  current other found live := by
    refine ⟨?_, running⟩
    have here : update s.conns id (some s.made) other = some found := live.registered
    rw [Function.update_apply] at here
    split at here
    · next same => exact same ▸ (valid.dialed id dialing).1
    · have apart : found ≠ s.made := Nat.ne_of_lt (valid.entry other found here).1
      have unstopped : (update s.gcs s.made _ found).closes = 0 := live.unstopped
      have going : (update s.gcs s.made _ found).phase.going = true := live.going
      rw [update_of_ne apart] at unstopped going
      exact (valid.current other found ⟨here, unstopped, going⟩).1
  dialed other here := by
    obtain ⟨apart, before⟩ := dropped here
    have same := (valid.dialed other before).1.symm.trans (valid.dialed id dialing).1
    exact absurd (Option.some.inj same) apart
  numbered other here := by
    rcases here with here | here | here
    · exact valid.numbered other (.inl (dropped here).2)
    · have here : update s.conns id (some s.made) other ≠ none := here
      rw [Function.update_apply] at here
      split at here
      · next same => exact same ▸ valid.numbered id (.inl dialing)
      · exact valid.numbered other (.inr (.inl here))
    · exact valid.numbered other (.inr (.inr here))
  own := valid.own

theorem phase_valid (valid : Valid s) (phase : Phase) (before : (s.gcs conn).phase ≠ .finished) (after : phase ≠ .finished)
    (goes : phase.going = true → (s.gcs conn).phase.going = true) :
    Valid (s.setConn conn { s.gcs conn with phase := phase }) where
  unheld := valid.unheld
  entry other found here := by
    obtain ⟨made, mine, unstopped, phases⟩ := valid.entry other found here
    by_cases same : found = conn
    · subst same
      simp only [Sockets.setConn, update_self]
      exact ⟨made, mine, unstopped, after⟩
    · simp only [Sockets.setConn, update_of_ne same]
      exact ⟨made, mine, unstopped, phases⟩
  once found := by
    simp only [Sockets.setConn, Function.update_apply]
    split
    · exact valid.once conn
    · exact valid.once found
  plain found := by
    simp only [Sockets.setConn, Function.update_apply]
    split
    · exact valid.plain conn
    · exact valid.plain found
  unmade found above := by
    have apart : found ≠ conn := by
      rintro rfl
      exact before (valid.unmade found above)
    simp only [Sockets.setConn, update_of_ne apart]
    exact valid.unmade found above
  current other found live := by
    obtain ⟨registered, unstopped, going⟩ := live
    by_cases same : found = conn
    · subst same
      simp only [Sockets.setConn, update_self] at unstopped going
      exact valid.current other found ⟨registered, unstopped, goes going⟩
    · simp only [Sockets.setConn, update_of_ne same] at unstopped going
      exact valid.current other found ⟨registered, unstopped, going⟩
  dialed other here := by
    obtain ⟨current, none, dead⟩ := valid.dialed other here
    refine ⟨current, none, fun id found live => ?_⟩
    obtain ⟨registered, unstopped, going⟩ := live
    by_cases same : found = conn
    · subst same
      simp only [Sockets.setConn, update_self] at unstopped going
      exact dead id found ⟨registered, unstopped, goes going⟩
    · simp only [Sockets.setConn, update_of_ne same] at unstopped going
      exact dead id found ⟨registered, unstopped, going⟩
  numbered := valid.numbered
  own := valid.own

theorem loopRead_eq (valid : Valid s) (late failed : Bool) :
    s.loopRead conn late failed = s.setConn conn { s.gcs conn with phase := .returned failed } := by
  have plain := (valid.plain conn).1
  simp [Sockets.loopRead, Sockets.setConn, plain]

theorem checked_phase (gc : GoConn) (failed : Bool) : Sockets.checked gc failed ≠ .finished := by
  unfold Sockets.checked
  split
  · nofun
  · split <;> nofun

theorem loopLeave_eq (valid : Valid s) (closes reports : Bool) :
    s.loopLeave conn closes reports =
      { s with
        conns := if s.conns (s.gcs conn).id = some conn then update s.conns (s.gcs conn).id none else s.conns
        gcs := update s.gcs conn { s.gcs conn with phase := .finished }
        closing := s.closing + reports.toNat } := by
  obtain ⟨session, base⟩ := valid.plain conn
  have quiet : (closes && Session.none.uses) = false := Bool.and_false closes
  simp only [Sockets.loopLeave, Sockets.deleteConn, Sockets.setConn, base, Sockets.sessionEnds, session, quiet, Bool.or_false]
  split <;> rfl

theorem leave_valid (valid : Valid s) (closes reports : Bool) : Valid (s.loopLeave conn closes reports) := by
  have kept : ∀ {other found : Nat},
      (if s.conns (s.gcs conn).id = some conn then update s.conns (s.gcs conn).id none else s.conns) other = some found →
        s.conns other = some found ∧ found ≠ conn := by
    intro other found here
    have was : s.conns other = some found := by
      split at here
      · rw [Function.update_apply] at here
        split at here
        · cases here
        · exact here
      · exact here
    refine ⟨was, ?_⟩
    rintro rfl
    have mine := (valid.entry other found was).2.1
    rw [mine, if_pos was, update_self] at here
    cases here
  rw [loopLeave_eq valid]
  have back : ∀ {other found : Nat}, Live { s with
      conns := if s.conns (s.gcs conn).id = some conn then update s.conns (s.gcs conn).id none else s.conns
      gcs := update s.gcs conn { s.gcs conn with phase := .finished }
      closing := s.closing + reports.toNat } other found → Live s other found := by
    intro other found live
    obtain ⟨registered, unstopped, going⟩ := live
    obtain ⟨was, apart⟩ := kept registered
    simp only [update_of_ne apart] at unstopped going
    exact ⟨was, unstopped, going⟩
  exact {
    unheld := valid.unheld
    entry := fun other found here => by
      obtain ⟨was, apart⟩ := kept here
      simp only [update_of_ne apart]
      exact valid.entry other found was
    once := fun found => by
      simp only [Function.update_apply]
      split
      · exact valid.once conn
      · exact valid.once found
    plain := fun found => by
      simp only [Function.update_apply]
      split
      · exact valid.plain conn
      · exact valid.plain found
    unmade := fun found above => by
      simp only [Function.update_apply]
      split
      · rfl
      · exact valid.unmade found above
    current := fun other found live => valid.current other found (back live)
    dialed := fun other here => by
      obtain ⟨current, none, dead⟩ := valid.dialed other here
      refine ⟨current, ?_, fun id found live => dead id found (back live)⟩
      by_contra some
      obtain ⟨found, here⟩ := Option.ne_none_iff_exists'.mp some
      cases none.symm.trans (kept here).1
    numbered := fun other here => by
      refine valid.numbered other (here.imp_right (Or.imp_left fun some => ?_))
      obtain ⟨found, here⟩ := Option.ne_none_iff_exists'.mp some
      rw [(kept here).1]
      nofun
    own := valid.own }

theorem onClose_valid (valid : Valid s) : Valid { s with closing := s.closing - 1, destroyed := true } where
  unheld := valid.unheld
  entry := valid.entry
  once := valid.once
  plain := valid.plain
  unmade := valid.unmade
  current id conn live := valid.current id conn ⟨live.registered, live.unstopped, live.going⟩
  dialed id here := by
    obtain ⟨current, none, dead⟩ := valid.dialed id here
    exact ⟨current, none, fun id conn live => dead id conn ⟨live.registered, live.unstopped, live.going⟩⟩
  numbered := valid.numbered
  own := valid.own

theorem over_valid (valid : Valid s) (destroyed : Bool) (dead : ∀ id conn, ¬Live s id conn) :
    Valid { s with destroyed := destroyed, ended := true } where
  unheld := valid.unheld
  entry := valid.entry
  once := valid.once
  plain := valid.plain
  unmade := valid.unmade
  current id conn live := absurd ⟨live.registered, live.unstopped, live.going⟩ (dead id conn)
  dialed id here := by
    obtain ⟨current, none, -⟩ := valid.dialed id here
    exact ⟨current, none, fun id conn live => dead id conn ⟨live.registered, live.unstopped, live.going⟩⟩
  numbered := valid.numbered
  own := valid.own

theorem goEnd_some {id : Nat} (current : s.id = some id) (here : s.conns id = some conn) :
    s.goEnd = { s with conns := update s.conns id none }.closeDone conn := by
  simp [Sockets.goEnd, current, here]

theorem goEnd_none (none : s.id.bind s.conns = none) : s.goEnd = s := by
  simp [Sockets.goEnd, none]

theorem closed_valid {id : Nat} (valid : Valid s) (here : s.conns id = some conn) :
    Valid ({ s with conns := update s.conns id none }.closeDone conn) ∧
      ∀ other found, Live ({ s with conns := update s.conns id none }.closeDone conn) other found →
        other ≠ id ∧ Live s other found := by
  obtain ⟨made, mine, unstopped, -⟩ := valid.entry id conn here
  have kept : ∀ {other found : Nat}, update s.conns id none other = some found →
      other ≠ id ∧ s.conns other = some found ∧ found ≠ conn := by
    intro other found there
    rw [Function.update_apply] at there
    split at there
    · cases there
    · next apart =>
        refine ⟨apart, there, ?_⟩
        rintro rfl
        exact apart ((valid.entry other found there).2.1.symm.trans mine)
  have back : ∀ other found, Live ({ s with conns := update s.conns id none }.closeDone conn) other found →
      other ≠ id ∧ Live s other found := by
    intro other found live
    obtain ⟨registered, unstopped, going⟩ := live
    obtain ⟨apart, was, different⟩ := kept registered
    simp only [Sockets.closeDone, Sockets.setConn, update_of_ne different] at unstopped going
    exact ⟨apart, was, unstopped, going⟩
  refine ⟨?_, back⟩
  exact {
    unheld := valid.unheld
    entry := fun other found there => by
      obtain ⟨-, was, different⟩ := kept there
      simp only [Sockets.closeDone, Sockets.setConn, update_of_ne different]
      exact valid.entry other found was
    once := fun found => by
      simp only [Sockets.closeDone, Sockets.setConn, Function.update_apply]
      split
      · exact Nat.le_of_eq (congrArg (· + 1) unstopped)
      · exact valid.once found
    plain := fun found => by
      simp only [Sockets.closeDone, Sockets.setConn, Function.update_apply]
      split
      · exact valid.plain conn
      · exact valid.plain found
    unmade := fun found above => by
      have apart : found ≠ conn := Nat.ne_of_gt (Nat.lt_of_lt_of_le made above)
      simp only [Sockets.closeDone, Sockets.setConn, update_of_ne apart]
      exact valid.unmade found above
    current := fun other found live => valid.current other found (back other found live).2
    dialed := fun other there => by
      obtain ⟨current, none, dead⟩ := valid.dialed other there
      refine ⟨current, ?_, fun id found live => dead id found (back id found live).2⟩
      by_contra some
      obtain ⟨found, here⟩ := Option.ne_none_iff_exists'.mp some
      cases none.symm.trans (kept here).2.1
    numbered := fun other there => by
      refine valid.numbered other (there.imp_right (Or.imp_left fun some => ?_))
      obtain ⟨found, here⟩ := Option.ne_none_iff_exists'.mp some
      rw [(kept here).2.1]
      nofun
    own := valid.own }

theorem goEnd_valid (valid : Valid s) : Valid s.goEnd ∧ ∀ id conn, ¬Live s.goEnd id conn := by
  cases current : s.id with
  | none =>
      have same : s.goEnd = s := goEnd_none (by rw [current]; rfl)
      rw [same]
      refine ⟨valid, fun id conn live => ?_⟩
      cases current.symm.trans (valid.current id conn live).1
  | some id =>
      cases here : s.conns id with
      | none =>
          have same : s.goEnd = s := goEnd_none (by rw [current]; exact here)
          rw [same]
          refine ⟨valid, fun other conn live => ?_⟩
          cases current.symm.trans (valid.current other conn live).1
          cases here.symm.trans live.registered
      | some conn =>
          rw [goEnd_some current here]
          obtain ⟨next, back⟩ := closed_valid valid here
          refine ⟨next, fun other found live => ?_⟩
          obtain ⟨apart, was⟩ := back other found live
          exact apart (Option.some.inj ((valid.current other found was).1.symm.trans current))

theorem ends_valid (valid : Valid s) : Valid s.ends := by
  obtain ⟨next, dead⟩ := goEnd_valid valid
  exact over_valid next true dead

theorem destroy_valid (valid : Valid s) (turned : s.destroyed = true → ∀ id conn, s.id = some id → ¬Live s id conn) :
    Valid s.destroy := by
  unfold Sockets.destroy
  split
  · next destroyed =>
      exact over_valid valid s.destroyed fun id conn live => turned destroyed id conn (valid.current id conn live).1 live
  · exact ends_valid valid

theorem upgrade_eq (unregistered : ∀ id, s.id = some id → s.conns id = none) : s.upgrade = s := by
  have none : s.id.bind s.conns = none := Option.bind_eq_none_iff.mpr unregistered
  simp [Sockets.upgrade, none]

end

theorem step_valid {s next : Sockets} {event : Event} (valid : Valid s) (allowed : Allowed s event)
    (taken : step s event = some next) : Valid next := by
  cases event with
  | connect =>
      obtain ⟨-, taken⟩ := Option.ite_none_right_eq_some.mp taken
      cases taken
      exact connect_valid valid allowed
  | dialFails id =>
      obtain ⟨-, taken⟩ := Option.ite_none_right_eq_some.mp taken
      cases taken
      exact dialFails_valid valid
  | dialed id =>
      obtain ⟨dialing, taken⟩ := Option.ite_none_right_eq_some.mp taken
      cases taken
      exact register_valid valid dialing allowed
  | loopRead conn late failed =>
      obtain ⟨reading, taken⟩ := Option.ite_none_right_eq_some.mp taken
      cases taken
      rw [loopRead_eq valid]
      exact phase_valid valid _ (reading ▸ nofun) nofun fun _ => reading ▸ rfl
  | loopCheck conn =>
      simp only [step] at taken
      split at taken
      · next failed returned =>
          cases taken
          exact phase_valid valid _ (returned ▸ nofun) (checked_phase _ _) fun _ => returned ▸ rfl
      · cases taken
  | loopLeave conn =>
      simp only [step] at taken
      split at taken
      · cases taken
        exact leave_valid valid _ _
      · cases taken
  | onClose =>
      obtain ⟨-, taken⟩ := Option.ite_none_right_eq_some.mp taken
      cases taken
      exact onClose_valid valid
  | ends =>
      obtain ⟨-, taken⟩ := Option.ite_none_right_eq_some.mp taken
      cases taken
      exact ends_valid valid
  | destroy =>
      obtain ⟨-, taken⟩ := Option.ite_none_right_eq_some.mp taken
      cases taken
      exact destroy_valid valid allowed
  | upgrade =>
      obtain ⟨-, taken⟩ := Option.ite_none_right_eq_some.mp taken
      cases taken
      rw [upgrade_eq allowed]
      exact valid
  | handshakes ok =>
      have none : step s (.handshakes ok) = none := by rw [step, valid.unheld]; rfl
      cases none.symm.trans taken

theorem run_valid {path : List Event} {s : Sockets} (allowed : Along step Allowed idle path)
    (reached : run step idle path = some s) : Valid s :=
  Transition.along_invariant (fun _ _ _ valid ok taken => step_valid valid ok taken) idle_valid allowed reached

def Departs (s : Sockets) : Prop := ∃ more final, run step s more = some final ∧ ¬Sound final

section

variable {s next : Sockets}

theorem step_ends (unheld : s.handshake = none) : step s .ends = some s.ends := if_pos unheld

theorem step_dialed {id : Nat} (dialing : s.dialing id = true) :
    step s (.dialed id) = some ({ s with dialing := update s.dialing id false }.register id none) :=
  if_pos dialing

theorem run_two {middle final : Sockets} {first second : Event} (toMiddle : step s first = some middle)
    (toFinal : step middle second = some final) : run step s [first, second] = some final := by
  rw [Transition.run_cons, toMiddle, Option.bind_some, Transition.run_cons, toFinal]
  rfl

theorem registered_unsound (s : Sockets) (id : Nat) (ended : s.ended = true) : ¬Sound (s.register id none) := by
  intro sound
  refine sound.stopped ended id s.made ⟨update_self id _ s.conns, ?_, ?_⟩
  · exact congrArg GoConn.closes (update_self s.made _ s.gcs)
  · exact congrArg (fun gc : GoConn => gc.phase.going) (update_self s.made _ s.gcs)

theorem dialed_departs {id : Nat} (ended : s.ended = true) :
    Departs ({ s with dialing := update s.dialing id false }.register id none) :=
  ⟨[], _, rfl, registered_unsound _ id ended⟩

theorem connect_ends (valid : Valid s) : s.connect.ends = { s.connect with destroyed := true, ended := true } := by
  have unknown : s.conns (s.nextID + 1) = none := by
    by_contra some
    have old := valid.numbered _ (.inr (.inl some))
    omega
  have same : s.connect.goEnd = s.connect := goEnd_none unknown
  rw [Sockets.ends, same]

theorem connect_departs (valid : Valid s) (unheld : s.handshake = none) (other : ¬Allowed s .connect) : Departs s.connect := by
  have ends : step s.connect .ends = some s.connect.ends := step_ends unheld
  rw [connect_ends valid] at ends
  rcases not_and_or.mp other with other | other
  · obtain ⟨id, dialing⟩ := not_forall.mp other
    have dialing : s.dialing id = true := (Bool.not_eq_false _).mp dialing
    have apart : id ≠ s.nextID + 1 := Nat.ne_of_lt (Nat.lt_succ_of_le (valid.numbered id (.inl dialing)))
    have still : update s.dialing (s.nextID + 1) true id = true := by rwa [update_of_ne apart]
    exact ⟨_, _, run_two ends (step_dialed still), registered_unsound _ id rfl⟩
  · obtain ⟨id, conn, live⟩ : ∃ id conn, Live s id conn := by simpa using other
    refine ⟨[.ends], _, by rw [Transition.run_cons, ends]; rfl, fun sound => ?_⟩
    exact sound.stopped rfl id conn ⟨live.registered, live.unstopped, live.going⟩

theorem destroy_departs (other : ¬Allowed s .destroy) : Departs s.destroy := by
  obtain ⟨destroyed, id, -, conn, live⟩ : s.destroyed = true ∧ ∃ id, s.id = some id ∧ ∃ conn, Live s id conn := by
    simpa [Allowed] using other
  have flagged : s.destroy = { s with ended := true } := if_pos destroyed
  refine ⟨[], _, rfl, fun sound => ?_⟩
  rw [flagged] at sound
  exact sound.stopped rfl id conn ⟨live.registered, live.unstopped, live.going⟩

theorem upgrade_departs (other : ¬Allowed s .upgrade) : Departs s.upgrade := by
  obtain ⟨id, current, conn, here⟩ : ∃ id, s.id = some id ∧ ∃ conn, s.conns id = some conn := by
    simpa [Allowed, Option.ne_none_iff_exists'] using other
  have begun : s.upgrade = { (s.closeDone conn).setConn conn { (s.closeDone conn).gcs conn with session := .handshaking } with
      handshake := some conn } := by
    simp [Sockets.upgrade, current, here]
  have failed : step s.upgrade (.handshakes false) = some (s.upgrade.handshakes conn false) := by rw [begun]; rfl
  have registered :
      (s.upgrade.handshakes conn false).id = some id ∧ (s.upgrade.handshakes conn false).conns id = some conn := by
    rw [begun]
    exact ⟨current, here⟩
  have closes : ((s.upgrade.handshakes conn false).gcs conn).closes = (s.gcs conn).closes + 1 := by
    rw [begun]
    simp [Sockets.handshakes, Sockets.setConn, Sockets.closeDone]
  have ends : step (s.upgrade.handshakes conn false) .ends = some (s.upgrade.handshakes conn false).ends := by
    have unheld : (s.upgrade.handshakes conn false).handshake = none := rfl
    exact step_ends unheld
  refine ⟨_, _, run_two failed ends, fun sound => ?_⟩
  have once := sound.closedOnce conn
  rw [Sockets.ends, goEnd_some registered.1 registered.2] at once
  simp only [Sockets.closeDone, Sockets.setConn, update_self, closes] at once
  omega

end

theorem step_departs {s next : Sockets} {event : Event} (valid : Valid s) (other : ¬Allowed s event)
    (taken : step s event = some next) : Departs next := by
  cases event with
  | connect =>
      obtain ⟨unheld, taken⟩ := Option.ite_none_right_eq_some.mp taken
      cases taken
      exact connect_departs valid unheld other
  | dialed id =>
      obtain ⟨-, taken⟩ := Option.ite_none_right_eq_some.mp taken
      cases taken
      exact dialed_departs ((Bool.not_eq_false _).mp other)
  | destroy =>
      obtain ⟨-, taken⟩ := Option.ite_none_right_eq_some.mp taken
      cases taken
      exact destroy_departs other
  | upgrade =>
      obtain ⟨-, taken⟩ := Option.ite_none_right_eq_some.mp taken
      cases taken
      exact upgrade_departs other
  | _ => exact absurd trivial other

theorem sockets_sound (path : List Event) (s : Sockets) (allowed : Along step Allowed idle path)
    (reached : run step idle path = some s) :
    Sound s ∧ ∀ event next, ¬Allowed s event → step s event = some next → Departs next :=
  ⟨(run_valid allowed reached).sound, fun _ _ other taken => step_departs (run_valid allowed reached) other taken⟩

def served : List Event := [.connect, .upgrade, .dialed 1, .loopRead 0 false false, .loopCheck 0]

def closed : List Event := served ++ [.ends, .loopRead 0 false true, .loopCheck 0, .loopLeave 0, .destroy]

-- An upgrade that comes too early finds nothing; one that finds the connection leads out of the sound states. After the
-- end the loop leaves, and a destroy finds nothing to stop.
theorem served_sound :
    (∃ s, run step idle served = some s ∧ s.conns 1 = some 0 ∧ Sound s ∧ Departs s.upgrade) ∧
      ∃ s, run step idle closed = some s ∧ s.ended = true ∧ s.conns 1 = none ∧ Sound s := by
  have opened (rest : List Event) (later : ∀ s, run step idle served = some s → Along step Allowed s rest) :
      Along step Allowed idle (served ++ rest) := by
    apply Transition.along_cons (by exact ⟨fun _ => rfl, fun _ _ live => nomatch live.registered⟩) rfl
    apply Transition.along_cons (by exact fun _ _ => rfl) rfl
    apply Transition.along_cons (by exact rfl) rfl
    apply Transition.along_cons trivial rfl
    exact Transition.along_cons trivial rfl (later _ rfl)
  constructor
  · obtain ⟨sound, departs⟩ := sockets_sound served _ (opened [] fun _ _ => trivial) rfl
    refine ⟨_, rfl, rfl, sound, departs .upgrade _ (fun unregistered => ?_) rfl⟩
    cases unregistered 1 rfl
  · refine ⟨_, rfl, rfl, rfl, (sockets_sound closed _ (opened _ ?_) rfl).1⟩
    rintro s reached
    cases reached
    apply Transition.along_cons trivial rfl
    apply Transition.along_cons trivial rfl
    apply Transition.along_cons trivial rfl
    apply Transition.along_cons trivial rfl
    refine Transition.along_cons (fun _ id conn same live => ?_) rfl trivial
    cases same
    cases live.registered

-- A handshake that fails, an end before the dial is through, and an upgrade under the loop that still reads.
theorem sockets_unsound :
    (∃ s, run step idle [.connect, .dialed 1, .upgrade, .handshakes false, .ends] = some s ∧ ¬Sound s) ∧
      (∃ s, run step idle [.connect, .ends, .dialed 1] = some s ∧ ¬Sound s) ∧
      (∃ s, run step idle [.connect, .dialed 1, .upgrade, .loopRead 0 true false] = some s ∧ ¬Sound s) ∧
      (∃ s, run step idle [.connect, .dialed 1, .upgrade, .handshakes true, .loopRead 0 false false, .loopCheck 0,
        .loopLeave 0] = some s ∧ ¬Sound s) :=
  ⟨⟨_, rfl, fun sound => absurd (sound.closedOnce 0) (by decide)⟩,
    ⟨_, rfl, fun sound => sound.stopped rfl 1 0 ⟨rfl, rfl, rfl⟩⟩,
    ⟨_, rfl, fun sound => absurd sound.own.1 (by decide)⟩,
    ⟨_, rfl, fun sound => absurd sound.own.2 (by decide)⟩⟩

end Brainkit.Jsbridge.SocketLifecycle
