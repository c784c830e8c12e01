import Brainkit.Library.Numbered

set_option autoImplicit false

universe u

-- A log that requests write one after the other, and a reader that follows it over several connections: what is written
-- goes to the connection of the writer, and a new connection is sent what the buffer has after the last entry read.
namespace Replay

open Function (update)

-- writing includes every point of a request between the start of its writing and the last entry; drawn has taken the
-- number of the entry that it is about to write. closing has written the last entry, leaving writes no more.
inductive Role where
  | idle
  | queued (last : Nat)
  | primed (last : Nat)
  | writing
  | drawn (id : Nat)
  | closing
  | leaving
  | finished

namespace Role

def live : Role → Bool
  | writing | drawn _ => true
  | idle | queued _ | primed _ | closing | leaving | finished => false

def engaged : Role → Bool
  | primed _ | writing | drawn _ | closing | leaving => true
  | idle | queued _ | finished => false

theorem engaged_of_live {role : Role} (live : role.live = true) : role.engaged = true := by
  cases role with
  | writing | drawn => rfl
  | idle | queued | primed | closing | leaving | finished => cases live

end Role

-- gone says that the connection of a request has been closed by the reader.
structure Reading (ε : Type u) where
  buffer : List (Nat × ε)
  nextID : Nat
  terminal : Bool
  role : Nat → Role
  gone : Nat → Bool
  connected : Nat → Bool
  wire : Nat → List ε
  observed : List ε
  ended : Bool

variable {ε : Type u} {number : ε → Nat} {ends : ε → Bool}

namespace Reading

def entries (v : Reading ε) : List ε := v.buffer.map Prod.snd

def later (last : Nat) (v : Reading ε) : List ε := (v.buffer.filter fun entry => last < entry.1).map Prod.snd

def turn (r : Nat) (role : Role) (v : Reading ε) : Reading ε := { v with role := update v.role r role }

def write (r : Nat) (written : List ε) (v : Reading ε) : Reading ε :=
  { v with wire := if v.connected r then update v.wire r (v.wire r ++ written) else v.wire }

def Sealed (v : Reading ε) : Prop := v.terminal = true ∨ ∃ r, v.role r = .closing

def Whole (v : Reading ε) (log : List ε) : Prop :=
  v.observed = log ∨ ∃ r, v.connected r = true ∧ v.observed ++ v.wire r = log

end Reading

inductive Step (number : ε → Nat) (ends : ε → Bool) (v : Reading ε) : Reading ε → Prop where
  | rest : Step number ends v v
  | draw (r : Nat) (role : v.role r = .writing) :
      Step number ends v { v.turn r (.drawn v.nextID) with nextID := v.nextID + 1 }
  | append (r : Nat) (entry : ε) (role : v.role r = .writing) (id : number entry = v.nextID) (more : ends entry = false) :
      Step number ends v { v.write r [entry] with
        buffer := v.buffer ++ [(v.nextID, entry)]
        nextID := v.nextID + 1 }
  | sealed (r : Nat) (entry : ε) (role : v.role r = .writing) (id : number entry = v.nextID) (last : ends entry = true) :
      Step number ends v { (v.write r [entry]).turn r .closing with
        buffer := v.buffer ++ [(v.nextID, entry)]
        nextID := v.nextID + 1 }
  | sealedDrawn (r : Nat) (entry : ε) (role : v.role r = .drawn (number entry)) (last : ends entry = true) :
      Step number ends v { (v.write r [entry]).turn r .closing with buffer := v.buffer ++ [(v.nextID - 1, entry)] }
  | told (r : Nat) (entry : ε) (role : v.role r = .writing) (id : number entry = v.nextID) (last : ends entry = true)
      (connected : v.connected r = true) : Step number ends v ((v.write r [entry]).turn r .closing)
  | toldDrawn (r : Nat) (entry : ε) (role : v.role r = .drawn (number entry)) (last : ends entry = true)
      (connected : v.connected r = true) : Step number ends v ((v.write r [entry]).turn r .closing)
  | terminate (r : Nat) (role : v.role r = .closing) : Step number ends v { v.turn r .leaving with terminal := true }
  | interrupted (r : Nat) (role : v.role r = .writing) (closing : v.gone r = true ∨ v.terminal = true) :
      Step number ends v (v.turn r .leaving)
  | leave (r : Nat) (role : v.role r = .leaving) : Step number ends v (v.turn r .finished)
  | dismissed (r : Nat) (role : v.role r = .writing ∨ ∃ last, v.role r = .queued last) :
      Step number ends v { v.turn r .finished with connected := update v.connected r false }
  | reconnect (r last : Nat) (role : v.role r = .idle) (none : ∀ q, v.connected q = false)
      (read : v.observed.getLast?.map number = some last) :
      Step number ends v { v.turn r (.queued last) with connected := update v.connected r true }
  | tick (r last : Nat) (role : v.role r = .queued last) (free : ∀ q, (v.role q).engaged = false) :
      Step number ends v (v.turn r (.primed last))
  | replay (r last : Nat) (role : v.role r = .primed last) :
      Step number ends v ((v.write r (v.later last)).turn r (if v.terminal then .finished else .writing))
  | read (r : Nat) (entry : ε) (rest : List ε) (connected : v.connected r = true) (head : v.wire r = entry :: rest) :
      Step number ends v { v with wire := update v.wire r rest, observed := v.observed ++ [entry] }
  | disconnect (r : Nat) (connected : v.connected r = true) (buffered : ∀ entry ∈ v.wire r, entry ∈ v.entries) :
      Step number ends v { v with
        connected := update v.connected r false
        gone := update v.gone r true
        wire := update v.wire r [] }
  | eof (r : Nat) (role : v.role r = .finished) (connected : v.connected r = true) (empty : v.wire r = []) :
      Step number ends v { v with connected := update v.connected r false, ended := true }

def Reads (isSealed : Prop) (observed log wire : List ε) : Role → Prop
  | .idle => False
  | .queued last | .primed last => wire = [] ∧ observed.length = last + 1
  | .writing | .drawn _ | .closing => observed ++ wire = log
  | .leaving | .finished => observed ++ wire = log ∧ isSealed

theorem reads_mono {before after : Prop} {observed log wire : List ε} {role : Role} (more : before → after)
    (reads : Reads before observed log wire role) : Reads after observed log wire role := by
  cases role with
  | leaving | finished => exact ⟨reads.1, more reads.2⟩
  | idle | queued | primed | writing | drawn | closing => exact reads

structure Logged (number : ε → Nat) (ends : ε → Bool) (v : Reading ε) (log : List ε) : Prop where
  index : ∀ entry ∈ v.buffer, entry.1 = number entry.2
  numbered : Numbered number log
  more : ∀ entry ∈ log.dropLast, ends entry = false
  kept : log = v.entries ∨ v.Whole log ∧ ∃ entry, ends entry = true ∧ log = v.entries ++ [entry]
  closed : v.Sealed ↔ ∃ entry ∈ log, ends entry = true
  seen : v.observed <+: log
  ended : v.ended = true → v.observed = log ∧ v.Sealed
  single : ∀ a b, (v.role a).engaged = true → (v.role b).engaged = true → a = b
  alone : ∀ a b, v.connected a = true → v.connected b = true → a = b
  live : ∀ r, (v.role r).live = true → v.terminal = false
  next : ¬ v.Sealed → (∀ r id, v.role r ≠ .drawn id) → v.nextID = v.buffer.length
  token : ∀ r id, v.role r = .drawn id → id = v.buffer.length ∧ v.nextID = v.buffer.length + 1
  reads : ∀ r, v.connected r = true → Reads v.Sealed v.observed log (v.wire r) (v.role r)
  gone : ∀ r, v.gone r = true → v.connected r = false ∧ v.role r ≠ .idle
  dry : ∀ r, v.role r = .idle → v.wire r = []

namespace Logged

variable {v : Reading ε} {log : List ε}

theorem only {r q : Nat} (logged : Logged number ends v log) (engaged : (v.role r).engaged = true) (other : q ≠ r) :
    (v.role q).engaged = false :=
  Bool.eq_false_iff.mpr fun both => other (logged.single q r both engaged)

theorem open_of_live {r : Nat} (logged : Logged number ends v log) (live : (v.role r).live = true) : ¬ v.Sealed := by
  intro closed
  cases closed with
  | inl terminal => exact Bool.false_ne_true ((logged.live r live).symm.trans terminal)
  | inr closing =>
      obtain ⟨q, closing⟩ := closing
      have same : q = r := logged.single q r (by rw [closing]; rfl) (Role.engaged_of_live live)
      rw [← same, closing] at live
      cases live

theorem log_of_open (logged : Logged number ends v log) (unsealed : ¬ v.Sealed) : log = v.entries := by
  cases logged.kept with
  | inl same => exact same
  | inr more =>
      obtain ⟨_, entry, last, same⟩ := more
      have member : entry ∈ log := by
        rw [same]
        exact List.mem_append_right _ List.mem_cons_self
      exact absurd (logged.closed.mpr ⟨entry, member, last⟩) unsealed

theorem more_of_open (logged : Logged number ends v log) (unsealed : ¬ v.Sealed) : ∀ entry ∈ log, ends entry = false :=
  fun entry member => Bool.eq_false_iff.mpr fun last => unsealed (logged.closed.mpr ⟨entry, member, last⟩)

theorem length_of_open (logged : Logged number ends v log) (unsealed : ¬ v.Sealed) : log.length = v.buffer.length := by
  rw [logged.log_of_open unsealed, Reading.entries, List.length_map]

theorem undrawn {r : Nat} (logged : Logged number ends v log) (role : v.role r = .writing) (q id : Nat) :
    v.role q ≠ .drawn id := by
  intro drawn
  have same : q = r := logged.single q r (by rw [drawn]; rfl) (by rw [role]; rfl)
  rw [same, role] at drawn
  cases drawn

theorem next_of_writing {r : Nat} (logged : Logged number ends v log) (role : v.role r = .writing) :
    v.nextID = v.buffer.length := by
  have unsealed : ¬ v.Sealed := logged.open_of_live (by rw [role]; rfl)
  exact logged.next unsealed (logged.undrawn role)

theorem queued_of_other {r q : Nat} (logged : Logged number ends v log) (live : (v.role r).live = true) (other : q ≠ r)
    (connected : v.connected q = true) :
    ∃ last, v.role q = .queued last ∧ v.wire q = [] ∧ v.observed.length = last + 1 := by
  have idle := logged.only (Role.engaged_of_live live) other
  have reads := logged.reads q connected
  cases role : v.role q with
  | queued last =>
      rw [role] at reads
      exact ⟨last, rfl, reads⟩
  | idle =>
      rw [role] at reads
      exact reads.elim
  | finished =>
      rw [role] at reads
      exact absurd reads.2 (logged.open_of_live live)
  | primed | writing | drawn | closing | leaving =>
      rw [role] at idle
      cases idle

theorem on_wire {r : Nat} (logged : Logged number ends v log) (live : (v.role r).live = true)
    (connected : v.connected r = true) : v.observed ++ v.wire r = log := by
  have reads := logged.reads r connected
  cases role : v.role r with
  | writing | drawn =>
      rw [role] at reads
      exact reads
  | idle | queued | primed | closing | leaving | finished =>
      rw [role] at live
      cases live

end Logged

theorem wire_of_ne {r q : Nat} (v : Reading ε) (written : List ε) (other : q ≠ r) :
    (v.write r written).wire q = v.wire q := by
  unfold Reading.write
  split
  · exact Function.update_of_ne other _ _
  · rfl

theorem wire_self {r : Nat} (v : Reading ε) (written : List ε) (connected : v.connected r = true) :
    (v.write r written).wire r = v.wire r ++ written := by
  simp [Reading.write, connected]

namespace Logged

variable {v : Reading ε} {log : List ε} {r : Nat}

theorem append (logged : Logged number ends v log) {entry : ε} (role : v.role r = .writing) (id : number entry = v.nextID)
    (more : ends entry = false) : Logged number ends { v.write r [entry] with
      buffer := v.buffer ++ [(v.nextID, entry)]
      nextID := v.nextID + 1 } (log ++ [entry]) := by
  have live : (v.role r).live = true := by rw [role]; rfl
  have unsealed : ¬ v.Sealed := logged.open_of_live live
  have length := logged.length_of_open unsealed
  have next := logged.next_of_writing role
  exact {
    index := by
      intro kept member
      cases List.mem_append.mp member with
      | inl before => exact logged.index kept before
      | inr last =>
          cases List.mem_singleton.mp last
          exact id.symm
    numbered := (Numbered.concat_iff log entry).mpr ⟨logged.numbered, by rw [id, next, length]⟩
    more := by
      rw [List.dropLast_concat]
      exact logged.more_of_open unsealed
    kept := by
      left
      rw [logged.log_of_open unsealed]
      simp [Reading.entries]
    closed := by
      apply iff_of_false unsealed
      intro ⟨last, member, final⟩
      cases List.mem_append.mp member with
      | inl before => exact Bool.false_ne_true ((logged.more_of_open unsealed last before).symm.trans final)
      | inr here =>
          cases List.mem_singleton.mp here
          exact Bool.false_ne_true (more.symm.trans final)
    seen := logged.seen.trans (List.prefix_append log [entry])
    ended := fun ended => absurd (logged.ended ended).2 unsealed
    single := logged.single
    alone := logged.alone
    live := logged.live
    next := by
      intro _ _
      simp [next]
    token := fun q id drawn => absurd drawn (logged.undrawn role q id)
    reads := by
      intro q connected
      change Reads v.Sealed v.observed (log ++ [entry]) ((v.write r [entry]).wire q) (v.role q)
      by_cases same : q = r
      · subst same
        rw [role, wire_self v [entry] connected, ← logged.on_wire live connected]
        exact (List.append_assoc _ _ _).symm
      · obtain ⟨last, queued, empty, read⟩ := logged.queued_of_other live same connected
        rw [queued, wire_of_ne v [entry] same]
        exact ⟨empty, read⟩
    gone := logged.gone
    dry := by
      intro q idle
      have other : q ≠ r := by
        intro same
        cases idle.symm.trans (same ▸ role)
      simp only [wire_of_ne v [entry] other]
      exact logged.dry q idle }

theorem engaged_turn {role : Role} (engaged : (v.role r).engaged = true) {q : Nat}
    (after : (update v.role r role q).engaged = true) : (v.role q).engaged = true := by
  by_cases same : q = r
  · rwa [same]
  · rwa [Function.update_of_ne same] at after

theorem role_of_turn {role other : Role} {q : Nat} (after : update v.role r role q = other) (differ : role ≠ other) :
    q ≠ r ∧ v.role q = other := by
  by_cases same : q = r
  · rw [same, Function.update_self] at after
    exact absurd after differ
  · rw [Function.update_of_ne same] at after
    exact ⟨same, after⟩

theorem closing (logged : Logged number ends v log) {entry : ε} (live : (v.role r).live = true)
    (id : number entry = v.buffer.length) (last : ends entry = true) {buffer : List (Nat × ε)} (nextID : Nat)
    (kept : buffer = v.buffer ++ [(v.buffer.length, entry)] ∨ buffer = v.buffer ∧ v.connected r = true) :
    Logged number ends { (v.write r [entry]).turn r .closing with buffer := buffer, nextID := nextID } (log ++ [entry]) := by
  have unsealed : ¬ v.Sealed := logged.open_of_live live
  have length := logged.length_of_open unsealed
  have engaged := Role.engaged_of_live live
  have isSealed : Reading.Sealed { (v.write r [entry]).turn r .closing with buffer := buffer, nextID := nextID } :=
    .inr ⟨r, Function.update_self _ _ _⟩
  exact {
    index := by
      intro stored member
      cases kept with
      | inl grown =>
          rw [grown] at member
          cases List.mem_append.mp member with
          | inl before => exact logged.index stored before
          | inr here =>
              cases List.mem_singleton.mp here
              exact id.symm
      | inr told =>
          rw [told.1] at member
          exact logged.index stored member
    numbered := (Numbered.concat_iff log entry).mpr ⟨logged.numbered, by rw [id, length]⟩
    more := by
      rw [List.dropLast_concat]
      exact logged.more_of_open unsealed
    kept := by
      rw [logged.log_of_open unsealed]
      cases kept with
      | inl grown =>
          left
          simp [Reading.entries, grown]
      | inr told =>
          right
          refine ⟨.inr ⟨r, told.2, ?_⟩, entry, last, by simp [Reading.entries, told.1]⟩
          change v.observed ++ (v.write r [entry]).wire r = _
          rw [wire_self v [entry] told.2, ← List.append_assoc, logged.on_wire live told.2, logged.log_of_open unsealed]
    closed := iff_of_true isSealed ⟨entry, List.mem_append_right _ List.mem_cons_self, last⟩
    seen := logged.seen.trans (List.prefix_append log [entry])
    ended := fun ended => absurd (logged.ended ended).2 unsealed
    single := fun a b first second => logged.single a b (engaged_turn engaged first) (engaged_turn engaged second)
    alone := logged.alone
    live := by
      intro q still
      change (update v.role r .closing q).live = true at still
      by_cases same : q = r
      · rw [same, Function.update_self] at still
        cases still
      · rw [Function.update_of_ne same] at still
        exact logged.live q still
    next := fun again => absurd isSealed again
    token := by
      intro q id drawn
      obtain ⟨other, before⟩ := role_of_turn (v := v) drawn nofun
      have idle := logged.only engaged other
      rw [before] at idle
      cases idle
    reads := by
      intro q connected
      change Reads _ v.observed (log ++ [entry]) ((v.write r [entry]).wire q) (update v.role r .closing q)
      by_cases same : q = r
      · subst same
        rw [Function.update_self, wire_self v [entry] connected, ← logged.on_wire live connected]
        exact (List.append_assoc _ _ _).symm
      · obtain ⟨read, queued, empty, length⟩ := logged.queued_of_other live same connected
        rw [Function.update_of_ne same, queued, wire_of_ne v [entry] same]
        exact ⟨empty, length⟩
    gone := by
      intro q gone
      refine ⟨(logged.gone q gone).1, fun idle => ?_⟩
      exact (logged.gone q gone).2 (role_of_turn (v := v) idle nofun).2
    dry := by
      intro q idle
      obtain ⟨other, before⟩ := role_of_turn (v := v) idle nofun
      change (v.write r [entry]).wire q = []
      rw [wire_of_ne v [entry] other]
      exact logged.dry q before }

theorem turned (logged : Logged number ends v log) {role : Role} {wire : Nat → List ε} {connected : Nat → Bool}
    (elsewhere : ∀ q, q ≠ r → wire q = v.wire q ∧ connected q = v.connected q)
    (before : v.role r ≠ .closing ∧ ∀ id, v.role r ≠ .drawn id)
    (after : role ≠ .idle ∧ role ≠ .closing ∧ ∀ id, role ≠ .drawn id)
    (engaged : role.engaged = true → ∀ q, q ≠ r → (v.role q).engaged = false)
    (live : role.live = true → v.terminal = false)
    (there : connected r = true →
      Reads v.Sealed v.observed log (wire r) role ∧ v.gone r = false ∧ ∀ q, q ≠ r → v.connected q = false)
    (whole : log ≠ v.entries → v.connected r = true → v.observed ++ v.wire r = log →
      v.observed = log ∨ connected r = true ∧ v.observed ++ wire r = log) :
    Logged number ends { v.turn r role with wire := wire, connected := connected } log := by
  have unchanged : Reading.Sealed { v.turn r role with wire := wire, connected := connected } ↔ v.Sealed := by
    constructor
    · intro closed
      cases closed with
      | inl terminal => exact .inl terminal
      | inr closing =>
          obtain ⟨q, closing⟩ := closing
          exact .inr ⟨q, (role_of_turn (v := v) closing after.2.1).2⟩
    · intro closed
      cases closed with
      | inl terminal => exact .inl terminal
      | inr closing =>
          obtain ⟨q, closing⟩ := closing
          have other : q ≠ r := fun same => before.1 (same ▸ closing)
          have still : update v.role r role q = .closing := by rw [Function.update_of_ne other, closing]
          exact .inr ⟨q, still⟩
  exact {
    index := logged.index
    numbered := logged.numbered
    more := logged.more
    kept := by
      cases logged.kept with
      | inl same => exact .inl same
      | inr told =>
          obtain ⟨complete, last⟩ := told
          have longer : log ≠ v.entries := by
            obtain ⟨entry, _, same⟩ := last
            rw [same]
            simp
          right
          refine ⟨?_, last⟩
          cases complete with
          | inl read => exact .inl read
          | inr coming =>
              obtain ⟨q, reader, all⟩ := coming
              by_cases same : q = r
              · subst same
                cases whole longer reader all with
                | inl read => exact .inl read
                | inr still => exact .inr ⟨q, still⟩
              · obtain ⟨wires, readers⟩ := elsewhere q same
                have still : v.observed ++ wire q = log := by rw [wires, all]
                exact .inr ⟨q, readers.trans reader, still⟩
    closed := unchanged.trans logged.closed
    seen := logged.seen
    ended := fun ended => ⟨(logged.ended ended).1, unchanged.mpr (logged.ended ended).2⟩
    single := by
      have only {a b : Nat} (first : (update v.role r role a).engaged = true)
          (second : (update v.role r role b).engaged = true) (here : a = r) : b = r := by
        subst here
        rw [Function.update_self] at first
        by_contra other
        rw [Function.update_of_ne other, engaged first b other] at second
        cases second
      intro a b first second
      by_cases here : a = r
      · exact here.trans (only first second here).symm
      · by_cases there : b = r
        · exact absurd (only second first there) here
        · refine logged.single a b ?_ ?_
          · exact (Function.update_of_ne here role v.role) ▸ first
          · exact (Function.update_of_ne there role v.role) ▸ second
    alone := by
      have only {a b : Nat} (first : connected a = true) (second : connected b = true) (here : a = r) : b = r := by
        subst here
        by_contra other
        rw [(elsewhere b other).2, (there first).2.2 b other] at second
        cases second
      intro a b first second
      by_cases here : a = r
      · exact here.trans (only first second here).symm
      · by_cases too : b = r
        · exact absurd (only second first too) here
        · exact logged.alone a b ((elsewhere a here).2 ▸ first) ((elsewhere b too).2 ▸ second)
    live := by
      intro q still
      by_cases same : q = r
      · subst same
        exact live ((Function.update_self q role v.role) ▸ still)
      · exact logged.live q ((Function.update_of_ne same role v.role) ▸ still)
    next := by
      intro unsealed undrawn
      refine logged.next (fun closed => unsealed (unchanged.mpr closed)) fun q id drawn => ?_
      have other : q ≠ r := fun same => before.2 id (same ▸ drawn)
      have still : update v.role r role q = .drawn id := by rw [Function.update_of_ne other, drawn]
      exact undrawn q id still
    token := fun q id drawn => logged.token q id (role_of_turn (v := v) drawn (after.2.2 id)).2
    reads := by
      intro q reader
      change Reads _ v.observed log (wire q) (update v.role r role q)
      by_cases same : q = r
      · subst same
        rw [Function.update_self]
        exact reads_mono unchanged.mpr (there reader).1
      · rw [Function.update_of_ne same, (elsewhere q same).1]
        exact reads_mono unchanged.mpr (logged.reads q ((elsewhere q same).2 ▸ reader))
    gone := by
      intro q gone
      refine ⟨?_, fun idle => (logged.gone q gone).2 (role_of_turn (v := v) idle after.1).2⟩
      change connected q = false
      by_cases same : q = r
      · subst same
        refine Bool.eq_false_iff.mpr fun reader => ?_
        exact Bool.false_ne_true ((there reader).2.1.symm.trans gone)
      · exact (elsewhere q same).2.trans (logged.gone q gone).1
    dry := by
      intro q idle
      obtain ⟨other, was⟩ := role_of_turn (v := v) idle after.1
      exact (elsewhere q other).1.trans (logged.dry q was) }

theorem draw (logged : Logged number ends v log) (role : v.role r = .writing) :
    Logged number ends { v.turn r (.drawn v.nextID) with nextID := v.nextID + 1 } log := by
  have live : (v.role r).live = true := by rw [role]; rfl
  have engaged := Role.engaged_of_live live
  have unsealed : ¬ v.Sealed := logged.open_of_live live
  have still : ¬ Reading.Sealed { v.turn r (.drawn v.nextID) with nextID := v.nextID + 1 } := by
    intro closed
    cases closed with
    | inl terminal => exact unsealed (.inl terminal)
    | inr closing =>
        obtain ⟨q, closing⟩ := closing
        exact unsealed (.inr ⟨q, (role_of_turn (v := v) closing nofun).2⟩)
  exact {
    index := logged.index
    numbered := logged.numbered
    more := logged.more
    kept := .inl (logged.log_of_open unsealed)
    closed := (iff_of_false still unsealed).trans logged.closed
    seen := logged.seen
    ended := fun ended => absurd (logged.ended ended).2 unsealed
    single := fun a b first second => logged.single a b (engaged_turn engaged first) (engaged_turn engaged second)
    alone := logged.alone
    live := fun _ _ => logged.live r live
    next := fun _ undrawn => absurd (Function.update_self r _ v.role) (undrawn r v.nextID)
    token := by
      intro q id drawn
      have next := logged.next_of_writing role
      change update v.role r (.drawn v.nextID) q = .drawn id at drawn
      by_cases same : q = r
      · rw [same, Function.update_self, Role.drawn.injEq] at drawn
        exact ⟨drawn.symm.trans next, congrArg (· + 1) next⟩
      · rw [Function.update_of_ne same] at drawn
        exact absurd drawn (logged.undrawn role q id)
    reads := by
      intro q connected
      change Reads _ v.observed log (v.wire q) (update v.role r (.drawn v.nextID) q)
      by_cases same : q = r
      · subst same
        rw [Function.update_self]
        exact logged.on_wire live connected
      · obtain ⟨last, queued, read⟩ := logged.queued_of_other live same connected
        rw [Function.update_of_ne same, queued]
        exact read
    gone := fun q gone =>
      ⟨(logged.gone q gone).1, fun idle => (logged.gone q gone).2 (role_of_turn (v := v) idle nofun).2⟩
    dry := fun q idle => logged.dry q (role_of_turn (v := v) idle nofun).2 }

theorem terminate (logged : Logged number ends v log) (role : v.role r = .closing) :
    Logged number ends { v.turn r .leaving with terminal := true } log := by
  have engaged : (v.role r).engaged = true := by rw [role]; rfl
  have before : v.Sealed := .inr ⟨r, role⟩
  have after : Reading.Sealed { v.turn r .leaving with terminal := true } := .inl rfl
  have idle {q : Nat} {other : Role} (turned : update v.role r .leaving q = other) (differ : Role.leaving ≠ other)
      (busy : other.engaged = true) : False := by
    obtain ⟨elsewhere, was⟩ := role_of_turn turned differ
    have free := logged.only engaged elsewhere
    rw [was, busy] at free
    cases free
  exact {
    index := logged.index
    numbered := logged.numbered
    more := logged.more
    kept := logged.kept
    closed := iff_of_true after (logged.closed.mp before)
    seen := logged.seen
    ended := fun ended => ⟨(logged.ended ended).1, after⟩
    single := fun a b first second => logged.single a b (engaged_turn engaged first) (engaged_turn engaged second)
    alone := logged.alone
    live := by
      intro q still
      change (update v.role r .leaving q).live = true at still
      by_cases same : q = r
      · rw [same, Function.update_self] at still
        cases still
      · rw [Function.update_of_ne same] at still
        exact absurd before (logged.open_of_live still)
    next := fun again => absurd after again
    token := fun q id drawn => (idle drawn nofun rfl).elim
    reads := by
      intro q connected
      change Reads _ v.observed log (v.wire q) (update v.role r .leaving q)
      have reads := logged.reads q connected
      by_cases same : q = r
      · subst same
        rw [role] at reads
        rw [Function.update_self]
        exact ⟨reads, after⟩
      · rw [Function.update_of_ne same]
        exact reads_mono (fun _ => after) reads
    gone := fun q gone =>
      ⟨(logged.gone q gone).1, fun idle => (logged.gone q gone).2 (role_of_turn (v := v) idle nofun).2⟩
    dry := fun q idle => logged.dry q (role_of_turn (v := v) idle nofun).2 }

theorem numbered_entries (logged : Logged number ends v log) : Numbered number v.entries := by
  cases logged.kept with
  | inl same => exact same ▸ logged.numbered
  | inr told =>
      obtain ⟨_, entry, _, same⟩ := told
      exact logged.numbered.of_prefix (same ▸ List.prefix_append _ _)

theorem later_eq (logged : Logged number ends v log) (last : Nat) : v.later last = v.entries.drop (last + 1) := by
  have same : (v.buffer.filter fun entry => last < entry.1) = v.buffer.filter fun entry => last < number entry.2 := by
    apply List.filter_congr
    intro entry member
    rw [logged.index entry member]
  rw [← logged.numbered_entries.filter_after last, Reading.later, same, Reading.entries, List.filter_map]
  rfl

theorem read_all (logged : Logged number ends v log) (connected : v.connected r = true) (empty : v.wire r = [])
    (whole : v.Whole log) : v.observed = log := by
  cases whole with
  | inl read => exact read
  | inr coming =>
      obtain ⟨q, reader, all⟩ := coming
      rw [logged.alone q r reader connected, empty, List.append_nil] at all
      exact all

theorem caught_up (logged : Logged number ends v log) {last : Nat} (connected : v.connected r = true)
    (empty : v.wire r = []) (read : v.observed.length = last + 1) : v.observed ++ v.later last = log := by
  rw [logged.later_eq]
  cases logged.kept with
  | inl same =>
      have seen := List.prefix_iff_eq_take.mp logged.seen
      rw [read, same] at seen
      rw [seen, List.take_append_drop, same]
  | inr told =>
      obtain ⟨whole, entry, _, same⟩ := told
      have all := logged.read_all connected empty whole
      have length : v.entries.length = last := by
        rw [all, same, List.length_append] at read
        exact Nat.succ.inj read
      rw [List.drop_eq_nil_of_le (by omega), List.append_nil, all]

theorem unseen (logged : Logged number ends v log) (connected : v.connected r = true) : v.gone r = false :=
  Bool.eq_false_iff.mpr fun gone => Bool.false_ne_true ((logged.gone r gone).1.symm.trans connected)

theorem nobody_but (logged : Logged number ends v log) (connected : v.connected r = true) (q : Nat) (other : q ≠ r) :
    v.connected q = false :=
  Bool.eq_false_iff.mpr fun reader => other (logged.alone q r reader connected)

theorem unmarked {was : Role} (role : v.role r = was) (neither : was ≠ .closing ∧ ∀ id, was ≠ .drawn id) :
    v.role r ≠ .closing ∧ ∀ id, v.role r ≠ .drawn id := by
  rw [role]
  exact neither

theorem replay (logged : Logged number ends v log) {last : Nat} (role : v.role r = .primed last) :
    Logged number ends ((v.write r (v.later last)).turn r (if v.terminal then .finished else .writing)) log := by
  have engaged : (v.role r).engaged = true := by rw [role]; rfl
  have before := unmarked role ⟨nofun, nofun⟩
  have state (connected : v.connected r = true) : v.wire r = [] ∧ v.observed.length = last + 1 := by
    have reads := logged.reads r connected
    rw [role] at reads
    exact reads
  have sent (connected : v.connected r = true) : v.observed ++ (v.write r (v.later last)).wire r = log := by
    obtain ⟨empty, read⟩ := state connected
    rw [wire_self v _ connected, empty, List.nil_append, logged.caught_up connected empty read]
  change Logged number ends { v.turn r (if v.terminal then .finished else .writing) with
    wire := (v.write r (v.later last)).wire
    connected := v.connected } log
  refine logged.turned (fun q other => ⟨wire_of_ne v _ other, rfl⟩) before ?_ ?_ ?_ ?_ ?_
  · split
    · exact ⟨nofun, nofun, nofun⟩
    · exact ⟨nofun, nofun, nofun⟩
  · exact fun _ q other => logged.only engaged other
  · intro live
    by_cases terminal : v.terminal = true
    · rw [if_pos terminal] at live
      cases live
    · exact Bool.eq_false_iff.mpr terminal
  · intro connected
    refine ⟨?_, logged.unseen connected, logged.nobody_but connected⟩
    by_cases terminal : v.terminal = true
    · rw [if_pos terminal]
      exact ⟨sent connected, .inl terminal⟩
    · rw [if_neg terminal]
      exact sent connected
  · intro _ connected _
    exact .inr ⟨connected, sent connected⟩

theorem read (logged : Logged number ends v log) {entry : ε} {rest : List ε} (connected : v.connected r = true)
    (head : v.wire r = entry :: rest) :
    Logged number ends { v with wire := update v.wire r rest, observed := v.observed ++ [entry] } log := by
  have reads := logged.reads r connected
  have coming : v.observed ++ v.wire r = log := by
    cases role : v.role r with
    | idle =>
        rw [role] at reads
        exact reads.elim
    | queued | primed =>
        rw [role, head] at reads
        cases reads.1
    | writing | drawn | closing =>
        rw [role] at reads
        exact reads
    | leaving | finished =>
        rw [role] at reads
        exact reads.1
  have after : v.observed ++ [entry] ++ rest = log := by
    rw [List.append_assoc, ← coming, head]
    rfl
  have unread : v.observed ≠ log := by
    intro all
    rw [← all, head] at coming
    exact absurd (congrArg List.length coming) (by simp)
  exact {
    index := logged.index
    numbered := logged.numbered
    more := logged.more
    kept := by
      cases logged.kept with
      | inl same => exact .inl same
      | inr told =>
          refine .inr ⟨.inr ⟨r, connected, ?_⟩, told.2⟩
          change v.observed ++ [entry] ++ update v.wire r rest r = log
          rw [Function.update_self, after]
    closed := logged.closed
    seen := ⟨rest, after⟩
    ended := fun ended => absurd (logged.ended ended).1 unread
    single := logged.single
    alone := logged.alone
    live := logged.live
    next := logged.next
    token := logged.token
    reads := by
      intro q reader
      have same : q = r := logged.alone q r reader connected
      subst same
      change Reads v.Sealed (v.observed ++ [entry]) log (update v.wire q rest q) (v.role q)
      rw [Function.update_self]
      cases role : v.role q with
      | idle =>
          rw [role] at reads
          exact reads.elim
      | queued | primed =>
          rw [role, head] at reads
          cases reads.1
      | writing | drawn | closing => exact after
      | leaving | finished =>
          rw [role] at reads
          exact ⟨after, reads.2⟩
    gone := logged.gone
    dry := by
      intro q idle
      have other : q ≠ r := by
        intro same
        rw [← same, idle] at reads
        exact reads
      exact (Function.update_of_ne other rest v.wire).trans (logged.dry q idle) }

theorem nobody_else (logged : Logged number ends v log) (connected : v.connected r = true) (q : Nat) :
    update v.connected r false q = false := by
  by_cases same : q = r
  · rw [same, Function.update_self]
  · rw [Function.update_of_ne same]
    exact Bool.eq_false_iff.mpr fun reader => same (logged.alone q r reader connected)

theorem disconnect (logged : Logged number ends v log) (connected : v.connected r = true)
    (buffered : ∀ entry ∈ v.wire r, entry ∈ v.entries) : Logged number ends { v with
      connected := update v.connected r false
      gone := update v.gone r true
      wire := update v.wire r [] } log := by
  have busy : v.role r ≠ .idle := by
    intro idle
    have reads := logged.reads r connected
    rw [idle] at reads
    exact reads
  exact {
    index := logged.index
    numbered := logged.numbered
    more := logged.more
    kept := by
      cases logged.kept with
      | inl same => exact .inl same
      | inr told =>
          obtain ⟨whole, entry, last, same⟩ := told
          refine .inr ⟨.inl ?_, entry, last, same⟩
          cases whole with
          | inl read => exact read
          | inr coming =>
              -- What is not in the buffer would be the last entry on the wire.
              obtain ⟨q, reader, all⟩ := coming
              rw [logged.alone q r reader connected] at all
              cases wire : v.wire r using List.reverseRecOn with
              | nil =>
                  rw [wire, List.append_nil] at all
                  exact all
              | append_singleton front final =>
                  rw [wire, ← List.append_assoc, same] at all
                  have stored := buffered final (by rw [wire]; exact List.mem_append_right _ List.mem_cons_self)
                  have number_final := ((Numbered.concat_iff _ entry).mp (same ▸ logged.numbered)).2
                  rw [← List.singleton_inj.mp (List.append_inj' all rfl).2] at number_final
                  exact absurd (logged.numbered_entries.number_lt stored) (by omega)
    closed := logged.closed
    seen := logged.seen
    ended := logged.ended
    single := logged.single
    alone := fun a _ first => absurd ((logged.nobody_else connected a).symm.trans first) Bool.false_ne_true
    live := logged.live
    next := logged.next
    token := logged.token
    reads := fun q reader => absurd ((logged.nobody_else connected q).symm.trans reader) Bool.false_ne_true
    gone := by
      intro q gone
      refine ⟨logged.nobody_else connected q, ?_⟩
      by_cases same : q = r
      · rw [same]
        exact busy
      · exact (logged.gone q ((Function.update_of_ne same true v.gone) ▸ gone)).2
    dry := by
      intro q idle
      have other : q ≠ r := fun same => busy (same ▸ idle)
      exact (Function.update_of_ne other [] v.wire).trans (logged.dry q idle) }

theorem eof (logged : Logged number ends v log) (role : v.role r = .finished) (connected : v.connected r = true)
    (empty : v.wire r = []) :
    Logged number ends { v with connected := update v.connected r false, ended := true } log := by
  have reads := logged.reads r connected
  rw [role, empty] at reads
  obtain ⟨all, isSealed⟩ := reads
  rw [List.append_nil] at all
  exact {
    index := logged.index
    numbered := logged.numbered
    more := logged.more
    kept := logged.kept.imp_right fun told => ⟨.inl all, told.2⟩
    closed := logged.closed
    seen := logged.seen
    ended := fun _ => ⟨all, isSealed⟩
    single := logged.single
    alone := fun a _ first => absurd ((logged.nobody_else connected a).symm.trans first) Bool.false_ne_true
    live := logged.live
    next := logged.next
    token := logged.token
    reads := fun q reader => absurd ((logged.nobody_else connected q).symm.trans reader) Bool.false_ne_true
    gone := fun q gone => ⟨logged.nobody_else connected q, (logged.gone q gone).2⟩
    dry := logged.dry }

theorem interrupted (logged : Logged number ends v log) (role : v.role r = .writing)
    (left : v.gone r = true ∨ v.terminal = true) : Logged number ends (v.turn r .leaving) log := by
  have live : (v.role r).live = true := by rw [role]; rfl
  have disconnected : v.connected r = false := by
    cases left with
    | inl gone => exact (logged.gone r gone).1
    | inr terminal => cases (logged.live r live).symm.trans terminal
  have before := unmarked role ⟨nofun, nofun⟩
  refine logged.turned (fun _ _ => ⟨rfl, rfl⟩) before ⟨nofun, nofun, nofun⟩ ?_ nofun ?_ ?_
  · exact fun _ q other => logged.only (Role.engaged_of_live live) other
  · exact fun connected => absurd (disconnected.symm.trans connected) Bool.false_ne_true
  · exact fun _ connected => absurd (disconnected.symm.trans connected) Bool.false_ne_true

theorem leave (logged : Logged number ends v log) (role : v.role r = .leaving) :
    Logged number ends (v.turn r .finished) log := by
  have before := unmarked role ⟨nofun, nofun⟩
  refine logged.turned (fun _ _ => ⟨rfl, rfl⟩) before ⟨nofun, nofun, nofun⟩ nofun nofun ?_ ?_
  · intro connected
    have reads := logged.reads r connected
    rw [role] at reads
    exact ⟨reads, logged.unseen connected, logged.nobody_but connected⟩
  · exact fun _ connected all => .inr ⟨connected, all⟩

theorem dismissed (logged : Logged number ends v log) (role : v.role r = .writing ∨ ∃ last, v.role r = .queued last) :
    Logged number ends { v.turn r .finished with connected := update v.connected r false } log := by
  have before : v.role r ≠ .closing ∧ ∀ id, v.role r ≠ .drawn id := by
    cases role with
    | inl writing => exact unmarked writing ⟨nofun, nofun⟩
    | inr queued =>
        obtain ⟨last, queued⟩ := queued
        exact unmarked queued ⟨nofun, nofun⟩
  have left : update v.connected r false r = false := Function.update_self r false v.connected
  refine logged.turned (fun q other => ⟨rfl, Function.update_of_ne other false v.connected⟩) before ⟨nofun, nofun, nofun⟩
    nofun nofun ?_ ?_
  · exact fun connected => absurd (left.symm.trans connected) Bool.false_ne_true
  · intro longer connected all
    left
    cases role with
    | inl writing =>
        have unsealed : ¬ v.Sealed := logged.open_of_live (by rw [writing]; rfl)
        exact absurd (logged.log_of_open unsealed) longer
    | inr queued =>
        obtain ⟨last, queued⟩ := queued
        have reads := logged.reads r connected
        rw [queued] at reads
        rw [reads.1, List.append_nil] at all
        exact all

theorem reconnect (logged : Logged number ends v log) {last : Nat} (role : v.role r = .idle)
    (none : ∀ q, v.connected q = false) (read : v.observed.getLast?.map number = some last) :
    Logged number ends { v.turn r (.queued last) with connected := update v.connected r true } log := by
  have before := unmarked role ⟨nofun, nofun⟩
  obtain ⟨entry, latest, same⟩ := Option.map_eq_some_iff.mp read
  have length : v.observed.length = last + 1 := same ▸ (logged.numbered.of_prefix logged.seen).length_of_last latest
  refine logged.turned (fun q other => ⟨rfl, Function.update_of_ne other true v.connected⟩) before ⟨nofun, nofun, nofun⟩
    nofun nofun ?_ ?_
  · intro _
    refine ⟨⟨logged.dry r role, length⟩, ?_, fun q _ => none q⟩
    exact Bool.eq_false_iff.mpr fun gone => (logged.gone r gone).2 role
  · exact fun _ connected => absurd ((none r).symm.trans connected) Bool.false_ne_true

theorem tick (logged : Logged number ends v log) {last : Nat} (role : v.role r = .queued last)
    (free : ∀ q, (v.role q).engaged = false) : Logged number ends (v.turn r (.primed last)) log := by
  have before := unmarked role ⟨nofun, nofun⟩
  refine logged.turned (fun _ _ => ⟨rfl, rfl⟩) before ⟨nofun, nofun, nofun⟩ (fun _ q _ => free q) nofun ?_ ?_
  · intro connected
    have reads := logged.reads r connected
    rw [role] at reads
    exact ⟨reads, logged.unseen connected, logged.nobody_but connected⟩
  · exact fun _ connected all => .inr ⟨connected, all⟩

theorem step (logged : Logged number ends v log) {w : Reading ε} (taken : Step number ends v w) :
    ∃ after, Logged number ends w after := by
  have writing {r : Nat} (role : v.role r = .writing) : (v.role r).live = true := by rw [role]; rfl
  have drawn {r id : Nat} (role : v.role r = .drawn id) : (v.role r).live = true := by rw [role]; rfl
  cases taken with
  | rest => exact ⟨log, logged⟩
  | draw r role => exact ⟨log, logged.draw role⟩
  | append r entry role id more => exact ⟨log ++ [entry], logged.append role id more⟩
  | sealed r entry role id last =>
      have next := logged.next_of_writing role
      exact ⟨log ++ [entry], logged.closing (writing role) (id.trans next) last _ (.inl (by rw [next]))⟩
  | sealedDrawn r entry role last =>
      obtain ⟨id, next⟩ := logged.token r _ role
      exact ⟨log ++ [entry], logged.closing (drawn role) id last _ (.inl (by rw [next]; rfl))⟩
  | told r entry role id last connected =>
      have next := logged.next_of_writing role
      exact ⟨log ++ [entry], logged.closing (writing role) (id.trans next) last v.nextID (.inr ⟨rfl, connected⟩)⟩
  | toldDrawn r entry role last connected =>
      obtain ⟨id, next⟩ := logged.token r _ role
      exact ⟨log ++ [entry], logged.closing (drawn role) id last v.nextID (.inr ⟨rfl, connected⟩)⟩
  | terminate r role => exact ⟨log, logged.terminate role⟩
  | interrupted r role left => exact ⟨log, logged.interrupted role left⟩
  | leave r role => exact ⟨log, logged.leave role⟩
  | dismissed r role => exact ⟨log, logged.dismissed role⟩
  | reconnect r last role none read => exact ⟨log, logged.reconnect role none read⟩
  | tick r last role free => exact ⟨log, logged.tick role free⟩
  | replay r last role => exact ⟨log, logged.replay role⟩
  | read r entry rest connected head => exact ⟨log, logged.read connected head⟩
  | disconnect r connected buffered => exact ⟨log, logged.disconnect connected buffered⟩
  | eof r role connected empty => exact ⟨log, logged.eof role connected empty⟩

end Logged

-- The first request is there, and nothing has been written.
def Reading.fresh (r : Nat) : Reading ε where
  buffer := []
  nextID := 0
  terminal := false
  role := update (fun _ => .idle) r .writing
  gone _ := false
  connected := update (fun _ => false) r true
  wire _ := []
  observed := []
  ended := false

theorem fresh_writing (r : Nat) : (Reading.fresh r : Reading ε).role r = .writing := by
  simp [Reading.fresh]

theorem fresh_role (r q : Nat) : q = r ∨ (Reading.fresh r : Reading ε).role q = .idle := by
  by_cases same : q = r
  · exact .inl same
  · right
    simp [Reading.fresh, Function.update_of_ne same]

theorem fresh_connected {r q : Nat} (connected : (Reading.fresh r : Reading ε).connected q = true) : q = r := by
  by_contra other
  simp [Reading.fresh, Function.update_of_ne other] at connected

theorem fresh_engaged {r q : Nat} (engaged : ((Reading.fresh r : Reading ε).role q).engaged = true) : q = r := by
  cases fresh_role r q with
  | inl same => exact same
  | inr idle =>
      rw [idle] at engaged
      cases engaged

theorem fresh_open (r : Nat) : ¬ (Reading.fresh r : Reading ε).Sealed := by
  intro closed
  cases closed with
  | inl terminal => cases terminal
  | inr closing =>
      obtain ⟨q, closing⟩ := closing
      have same : q = r := fresh_engaged (by rw [closing]; rfl)
      rw [same, fresh_writing] at closing
      cases closing

theorem Logged.fresh (r : Nat) : Logged number ends (Reading.fresh r) [] where
  index := nofun
  numbered := Numbered.nil
  more := nofun
  kept := .inl rfl
  closed := iff_of_false (fresh_open r) nofun
  seen := List.prefix_rfl
  ended := nofun
  single := fun _ _ first second => (fresh_engaged first).trans (fresh_engaged second).symm
  alone := fun _ _ first second => (fresh_connected first).trans (fresh_connected second).symm
  live := fun _ _ => rfl
  next := fun _ _ => rfl
  token := by
    intro q id drawn
    have same : q = r := fresh_engaged (by rw [drawn]; rfl)
    rw [same, fresh_writing] at drawn
    cases drawn
  reads := by
    intro q connected
    rw [fresh_connected connected, fresh_writing]
    rfl
  gone := nofun
  dry := fun _ _ => rfl

-- The numbers come in order, each once; what ends the log is the last; and a reader who has come to the end has all of
-- the buffer and what ends the log.
structure Observes (number : ε → Nat) (ends : ε → Bool) (v : Reading ε) : Prop where
  inOrder : v.observed.map number = List.range v.observed.length
  endsLast : ∀ entry ∈ v.observed.dropLast, ends entry = false
  complete : v.ended = true →
    (∀ entry ∈ v.entries, entry ∈ v.observed) ∧ ∃ entry, v.observed.getLast? = some entry ∧ ends entry = true

theorem Logged.observes {v : Reading ε} {log : List ε} (logged : Logged number ends v log) : Observes number ends v where
  inOrder := logged.numbered.of_prefix logged.seen
  endsLast := by
    intro entry member
    apply logged.more
    obtain ⟨rest, same⟩ := logged.seen
    cases rest with
    | nil => rwa [← same, List.append_nil]
    | cons first rest =>
        rw [← same, List.dropLast_append_of_ne_nil (List.cons_ne_nil first rest)]
        exact List.mem_append_left _ (List.dropLast_subset _ member)
  complete := by
    intro ended
    obtain ⟨all, isSealed⟩ := logged.ended ended
    rw [all]
    constructor
    · intro entry member
      cases logged.kept with
      | inl same => exact same ▸ member
      | inr told =>
          obtain ⟨_, last, _, same⟩ := told
          rw [same]
          exact List.mem_append_left _ member
    · obtain ⟨entry, member, last⟩ := logged.closed.mp isSealed
      cases log using List.reverseRecOn with
      | nil => cases member
      | append_singleton front final =>
          have more := logged.more
          rw [List.dropLast_concat] at more
          cases List.mem_append.mp member with
          | inl before => exact absurd ((more entry before).symm.trans last) Bool.false_ne_true
          | inr here =>
              cases List.mem_singleton.mp here
              exact ⟨entry, List.getLast?_concat, last⟩

end Replay
