import Brainkit.Browser.Manager

set_option autoImplicit false

namespace Brainkit.Browser

open Function (update update_self update_of_ne)
open Transition (run Along Reachable along_cons)

structure Valid (m : Manager) : Prop where
  -- A session has come from a call of Launch that is over.
  launched : ∀ n, n ∈ m.sessions ∨ Taken m n → m.launches n = .returned
  held : ∀ n, m.running n = true → InCall m n ∨ Tracked m n
  ended : ∀ c sessions failed, m.contexts c = .closing sessions failed → ∀ n ∈ failed, m.running n = false
  swept : ∀ c, Closing m c → m.sessions = []
  shut : m.closed = true → m.sessions = []
  clean : ∀ c, m.contexts c = .returned true → m.closed = true

theorem new_valid : Valid new where
  launched n member := by
    rcases member with here | ⟨k, here⟩ | ⟨c, sessions, failed, here, -⟩ <;> cases here
  held n running := nomatch running
  ended c sessions failed here := nomatch here
  swept c closing := by
    obtain ⟨sessions, failed, here⟩ := closing
    cases here
  shut closed := nomatch closed
  clean c here := nomatch here

section

variable {m next : Manager} {n : Nat}

theorem unlaunched_stopped (valid : Valid m) (early : m.launches n = .idle ∨ m.launches n = .preparing) : m.running n = false := by
  rw [Bool.eq_false_iff]
  intro running
  have back : n ∈ m.sessions ∨ Taken m n → False := fun member => by
    have ended := valid.launched n member
    rcases early with here | here <;> cases here.symm.trans ended
  rcases valid.held n running with (here | taken) | tracked
  · rcases here with here | here | here <;> rcases early with early | early <;> cases here.symm.trans early
  · exact back (.inr taken)
  · exact back (.inl tracked.1)

theorem apart_of_launched {other : Nat} (valid : Valid m) (before : m.launches n ≠ .returned)
    (member : other ∈ m.sessions ∨ Taken m other) : other ≠ n := by
  rintro rfl
  exact before (valid.launched other member)

theorem launch_valid (pc : LaunchCall) (valid : Valid m) (before : m.launches n ≠ .returned)
    (keeps : m.running n = true → pc = .waiting ∨ pc = .abandoning ∨ pc = .late) :
    Valid { m with launches := update m.launches n pc } where
  launched other member := by
    change update m.launches n pc other = _
    rw [update_of_ne (apart_of_launched valid before member)]
    exact valid.launched other member
  held other running := by
    by_cases same : other = n
    · subst same
      refine .inl (.inl ?_)
      unfold Launching
      dsimp only
      rw [update_self]
      exact keeps running
    · rcases valid.held other running with (here | taken) | tracked
      · refine .inl (.inl ?_)
        unfold Launching
        dsimp only
        rw [update_of_ne same]
        exact here
      · exact .inl (.inr taken)
      · exact .inr tracked
  ended := valid.ended
  swept := valid.swept
  shut := valid.shut
  clean := valid.clean

theorem start_valid (valid : Valid m) (preparing : m.launches n = .preparing) (ownedProfile : Bool) :
    Valid { m with
      launches := update m.launches n .waiting
      running := update m.running n true
      profile := update m.profile n ownedProfile } where
  launched other member := by
    have before : m.launches n ≠ .returned := preparing ▸ nofun
    change update m.launches n _ other = _
    rw [update_of_ne (apart_of_launched valid before member)]
    exact valid.launched other member
  held other running := by
    by_cases same : other = n
    · subst same
      exact .inl (.inl (.inl (update_self other _ m.launches)))
    · have ran : m.running other = true := by
        rw [← running]
        exact (update_of_ne same true m.running).symm
      rcases valid.held other ran with (here | taken) | tracked
      · refine .inl (.inl ?_)
        unfold Launching
        dsimp only
        rw [update_of_ne same]
        exact here
      · exact .inl (.inr taken)
      · refine .inr ⟨tracked.1, tracked.2.1, fun dir => tracked.2.2 ?_⟩
        rw [← dir]
        exact (update_of_ne same ownedProfile m.profile).symm
  ended c sessions failed here other member := by
    have before : m.launches n ≠ .returned := preparing ▸ nofun
    have taken : Taken m other := .inr ⟨c, sessions, failed, here, .inr member⟩
    change update m.running n true other = false
    rw [update_of_ne (apart_of_launched valid before (.inr taken))]
    exact valid.ended c sessions failed here other member
  swept := valid.swept
  shut := valid.shut
  clean := valid.clean

theorem exit_valid (valid : Valid m) : Valid { m with running := update m.running n false } where
  launched := valid.launched
  held other running := by
    have same : update m.running n false other = true := running
    rw [Function.update_apply] at same
    split at same
    · cases same
    · exact valid.held other same
  ended c sessions failed here other member := by
    change update m.running n false other = false
    rw [Function.update_apply, valid.ended c sessions failed here other member, ite_self]
  swept := valid.swept
  shut := valid.shut
  clean := valid.clean

theorem stopped_valid (object : Session) (dir : Bool) (valid : Valid m) (stopped : m.running n = false) :
    Valid { m with session := update m.session n object, profile := update m.profile n dir } where
  launched := valid.launched
  held other running := by
    have apart : other ≠ n := by
      rintro rfl
      cases stopped.symm.trans running
    rcases valid.held other running with call | ⟨member, cmd, dirs⟩
    · exact .inl call
    · refine .inr ⟨member, ?_⟩
      dsimp only
      rw [update_of_ne apart, update_of_ne apart]
      exact ⟨cmd, dirs⟩
  ended := valid.ended
  swept := valid.swept
  shut := valid.shut
  clean := valid.clean

theorem discard_valid {removed : Bool} (valid : Valid m) (before : m.launches n ≠ .returned) (stopped : m.running n = false) :
    Valid (m.discard n removed) := by
  have moved := launch_valid .returned valid before fun running => nomatch stopped.symm.trans running
  have same := stopped_valid (m.session n) (m.profile n && !removed) moved stopped
  rw [Function.update_eq_self] at same
  exact same

theorem register_valid (valid : Valid m) (waiting : m.launches n = .waiting)
    (free : m.closed = false → ∀ c, ¬ Closing m c) : Valid (m.register n) := by
  have before : m.launches n ≠ .returned := waiting ▸ nofun
  unfold Manager.register
  split
  · exact launch_valid .late valid before fun _ => .inr (.inr rfl)
  next opened =>
    have free := free (Bool.eq_false_iff.mpr opened)
    refine ⟨?_, ?_, valid.ended, fun c closing => absurd closing (free c), fun closed => absurd closed opened, valid.clean⟩
    · intro other member
      dsimp only
      by_cases same : other = n
      · rw [same, update_self]
      · rw [update_of_ne same]
        refine valid.launched other (member.imp_left fun here => ?_)
        exact (List.mem_cons.mp here).resolve_left same
    · intro other running
      by_cases same : other = n
      · subst same
        refine .inr ⟨List.mem_cons_self, ?_⟩
        dsimp only
        rw [update_self]
        exact ⟨rfl, id⟩
      · rcases valid.held other running with (here | taken) | ⟨member, cmd, dirs⟩
        · refine .inl (.inl ?_)
          unfold Launching
          dsimp only
          rw [update_of_ne same]
          exact here
        · exact .inl (.inr taken)
        · refine .inr ⟨List.mem_cons_of_mem n member, ?_⟩
          dsimp only
          rw [update_of_ne same]
          exact ⟨cmd, dirs⟩

theorem taken_closes {k : Nat} {pc : CloseCall} {other : Nat} (taken : Taken { m with closes := update m.closes k pc } other) :
    pc = .closing other ∨ Taken m other := by
  rcases taken with ⟨j, here⟩ | there
  · change update m.closes k pc j = _ at here
    rw [Function.update_apply] at here
    split at here
    · exact .inl here
    · exact .inr (.inl ⟨j, here⟩)
  · exact .inr (.inr there)

theorem taken_returned {k other : Nat} (taken : Taken { m with closes := update m.closes k .returned } other) : Taken m other :=
  (taken_closes taken).resolve_left nofun

theorem taken_kept {k : Nat} (pc : CloseCall) {other : Nat} (taken : Taken m other) (apart : m.closes k ≠ .closing other) :
    Taken { m with closes := update m.closes k pc } other := by
  rcases taken with ⟨j, here⟩ | there
  · refine .inl ⟨j, ?_⟩
    have differ : j ≠ k := by
      rintro rfl
      exact apart here
    dsimp only
    rw [update_of_ne differ]
    exact here
  · exact .inr there

theorem close_valid {k id : Nat} (valid : Valid m) (idle : m.closes k = .idle) : Valid (m.close k id) := by
  have fresh (other : Nat) : m.closes k ≠ .closing other := idle ▸ nofun
  unfold Manager.close
  split
  · next found =>
      refine ⟨?_, ?_, valid.ended, ?_, ?_, valid.clean⟩
      · rintro other (member | taken)
        · exact valid.launched other (.inl (List.mem_filter.mp member).1)
        · rcases taken_closes taken with same | taken
          · cases same
            exact valid.launched id (.inl found)
          · exact valid.launched other (.inr taken)
      · intro other running
        rcases valid.held other running with (here | taken) | ⟨member, kept⟩
        · exact .inl (.inl here)
        · exact .inl (.inr (taken_kept (.closing id) taken (fresh other)))
        · by_cases same : other = id
          · subst same
            exact .inl (.inr (.inl ⟨k, update_self k _ m.closes⟩))
          · exact .inr ⟨List.mem_filter.mpr ⟨member, decide_eq_true same⟩, kept⟩
      · intro c closing
        cases (valid.swept c closing) ▸ found
      · intro closed
        cases (valid.shut closed) ▸ found
  · refine ⟨fun other member => valid.launched other (member.imp_right taken_returned), fun other running => ?_, valid.ended,
      valid.swept, valid.shut, valid.clean⟩
    rcases valid.held other running with (here | taken) | tracked
    · exact .inl (.inl here)
    · exact .inl (.inr (taken_kept .returned taken (fresh other)))
    · exact .inr tracked

theorem closed_valid {k id : Nat} (valid : Valid m) (closing : m.closes k = .closing id) (stopped : m.running id = false) :
    Valid { m with closes := update m.closes k .returned } where
  launched other member := valid.launched other (member.imp_right taken_returned)
  held other running := by
    have apart : m.closes k ≠ .closing other := by
      rintro same
      cases closing.symm.trans same
      cases stopped.symm.trans running
    rcases valid.held other running with (here | taken) | tracked
    · exact .inl (.inl here)
    · exact .inl (.inr (taken_kept .returned taken apart))
    · exact .inr tracked
  ended := valid.ended
  swept := valid.swept
  shut := valid.shut
  clean := valid.clean

theorem shut_valid {id : Nat} {err removed : Bool} (valid : Valid m) (stopped : m.running id = false)
    (done : m.shut id err removed = some next) : Valid next ∧ next.closes = m.closes ∧ next.contexts = m.contexts ∧
      next.running = m.running := by
  unfold Manager.shut at done
  obtain ⟨-, same⟩ := Option.ite_none_left_eq_some.mp done
  cases same
  exact ⟨stopped_valid ⟨false, false⟩ _ valid stopped, rfl, rfl, rfl⟩

theorem taken_contexts {c : Nat} {pc : CloseContextCall} {other : Nat}
    (taken : Taken { m with contexts := update m.contexts c pc } other) :
    (∃ sessions failed, pc = .closing sessions failed ∧ (other ∈ sessions ∨ other ∈ failed)) ∨ Taken m other := by
  rcases taken with there | ⟨d, sessions, failed, here, member⟩
  · exact .inr (.inl there)
  · change update m.contexts c pc d = _ at here
    rw [Function.update_apply] at here
    split at here
    · exact .inl ⟨sessions, failed, here, member⟩
    · exact .inr (.inr ⟨d, sessions, failed, here, member⟩)

theorem taken_moved {c : Nat} (pc : CloseContextCall) {other : Nat} (taken : Taken m other)
    (keeps : ∀ sessions failed, m.contexts c = .closing sessions failed → other ∈ sessions ∨ other ∈ failed →
      ∃ sessions' failed', pc = .closing sessions' failed' ∧ (other ∈ sessions' ∨ other ∈ failed')) :
    Taken { m with contexts := update m.contexts c pc } other := by
  rcases taken with there | ⟨d, sessions, failed, here, member⟩
  · exact .inl there
  · by_cases same : d = c
    · subst same
      obtain ⟨sessions', failed', moved, kept⟩ := keeps sessions failed here member
      exact .inr ⟨d, sessions', failed', (update_self d pc m.contexts).trans moved, kept⟩
    · exact .inr ⟨d, sessions, failed, (update_of_ne same pc m.contexts).trans here, member⟩

theorem closing_moved {c d : Nat} {pc : CloseContextCall} (closing : Closing { m with contexts := update m.contexts c pc } d) :
    (d = c ∧ ∃ sessions failed, pc = .closing sessions failed) ∨ d ≠ c ∧ Closing m d := by
  obtain ⟨sessions, failed, here⟩ := closing
  change update m.contexts c pc d = _ at here
  rw [Function.update_apply] at here
  split at here
  · next same => exact .inl ⟨same, sessions, failed, here⟩
  · next apart => exact .inr ⟨apart, sessions, failed, here⟩

theorem closeContext_valid {c : Nat} (valid : Valid m) (idle : m.contexts c = .idle) :
    Valid { m with sessions := [], closing := true, contexts := update m.contexts c (.closing m.sessions []) } where
  launched other member := by
    refine valid.launched other ?_
    rcases taken_contexts (member.resolve_left List.not_mem_nil) with ⟨sessions, failed, same, here⟩ | taken
    · cases same
      exact .inl (here.resolve_right List.not_mem_nil)
    · exact .inr taken
  held other running := by
    rcases valid.held other running with (here | taken) | ⟨member, -⟩
    · exact .inl (.inl here)
    · exact .inl (.inr (taken_moved _ taken fun sessions failed here => nomatch idle.symm.trans here))
    · exact .inl (.inr (.inr ⟨c, m.sessions, [], update_self c _ m.contexts, .inl member⟩))
  ended d sessions failed here other member := by
    change update m.contexts c _ d = _ at here
    rw [Function.update_apply] at here
    split at here
    · cases here
      cases member
    · exact valid.ended d sessions failed here other member
  swept _ _ := rfl
  shut _ := rfl
  clean d here := by
    change update m.contexts c _ d = _ at here
    rw [Function.update_apply] at here
    split at here
    · cases here
    · exact valid.clean d here

theorem contextClosed_valid {c id : Nat} {err : Bool} {sessions failed : List Nat} (valid : Valid m)
    (closing : m.contexts c = .closing sessions failed) (member : id ∈ sessions) (stopped : m.running id = false) :
    Valid { m with
      contexts := update m.contexts c (.closing (sessions.filter (· ≠ id)) (if err then id :: failed else failed)) } := by
  have inside {other : Nat} (here : other ∈ if err then id :: failed else failed) : other = id ∨ other ∈ failed := by
    split at here
    · exact List.mem_cons.mp here
    · exact .inr here
  have whole (other : Nat) (here : other ∈ sessions ∨ other ∈ failed) : Taken m other :=
    .inr ⟨c, sessions, failed, closing, here⟩
  refine ⟨?_, ?_, ?_, ?_, valid.shut, ?_⟩
  · intro other here
    refine valid.launched other (here.imp_right fun taken => ?_)
    rcases taken_contexts taken with ⟨sessions', failed', same, here⟩ | taken
    · cases same
      rcases here with here | here
      · exact whole other (.inl (List.mem_filter.mp here).1)
      · rcases inside here with rfl | here
        · exact whole other (.inl member)
        · exact whole other (.inr here)
    · exact taken
  · intro other running
    have apart : other ≠ id := by
      rintro rfl
      cases stopped.symm.trans running
    rcases valid.held other running with (here | taken) | tracked
    · exact .inl (.inl here)
    · refine .inl (.inr (taken_moved _ taken fun before failed' same here => ⟨_, _, rfl, ?_⟩))
      cases closing.symm.trans same
      rcases here with here | here
      · exact .inl (List.mem_filter.mpr ⟨here, decide_eq_true apart⟩)
      · refine .inr ?_
        split
        · exact List.mem_cons_of_mem id here
        · exact here
    · exact .inr tracked
  · intro d sessions' failed' here other inFailed
    change update m.contexts c _ d = _ at here
    rw [Function.update_apply] at here
    split at here
    · cases here
      rcases inside inFailed with rfl | before
      · exact stopped
      · exact valid.ended c sessions failed closing other before
    · exact valid.ended d sessions' failed' here other inFailed
  · intro d here
    rcases closing_moved here with ⟨-, -⟩ | ⟨-, before⟩
    · exact valid.swept c ⟨sessions, failed, closing⟩
    · exact valid.swept d before
  · intro d here
    change update m.contexts c _ d = _ at here
    rw [Function.update_apply] at here
    split at here
    · cases here
    · exact valid.clean d here

theorem decide_valid {c : Nat} {failed : List Nat} (valid : Valid m) (closing : m.contexts c = .closing [] failed)
    (alone : failed ≠ [] → m.closed = false ∧ ∀ other ≠ c, ¬ Closing m other) : Valid (m.decide c failed) := by
  have empty : m.sessions = [] := valid.swept c ⟨[], failed, closing⟩
  have back {clean : Bool} {other : Nat} (taken : Taken { m with contexts := update m.contexts c (.returned clean) } other) :
      Taken m other :=
    (taken_contexts taken).resolve_left fun ⟨_, _, same, _⟩ => nomatch same
  -- What failed does not run, so that nothing runs that the call had.
  have kept (clean : Bool) {other : Nat} (running : m.running other = true) (taken : Taken m other) :
      Taken { m with contexts := update m.contexts c (.returned clean) } other := by
    refine taken_moved _ taken fun sessions' failed' same here => ?_
    cases closing.symm.trans same
    have member := here.resolve_left List.not_mem_nil
    cases (valid.ended c [] failed closing other member).symm.trans running
  have ended (clean : Bool) (d : Nat) (sessions' failed' : List Nat)
      (here : update m.contexts c (.returned clean) d = .closing sessions' failed') : ∀ n ∈ failed', m.running n = false := by
    rw [Function.update_apply] at here
    split at here
    · cases here
    · exact valid.ended d sessions' failed' here
  unfold Manager.decide
  split
  · refine ⟨fun other member => valid.launched other (member.imp_right back), fun other running => ?_, ended true, fun _ _ => empty,
      fun _ => empty, fun _ _ => rfl⟩
    rcases valid.held other running with (here | taken) | tracked
    · exact .inl (.inl here)
    · exact .inl (.inr (kept true running taken))
    · exact .inr tracked
  · next some =>
      obtain ⟨opened, others⟩ := alone some
      refine ⟨?_, ?_, ended false, ?_, fun closed => (nomatch opened.symm.trans closed), ?_⟩
      · rintro other (member | taken)
        · refine valid.launched other ?_
          rcases List.mem_append.mp member with here | here
          · exact .inr (.inr ⟨c, [], failed, closing, .inr here⟩)
          · exact .inl here
        · exact valid.launched other (.inr (back taken))
      · intro other running
        rcases valid.held other running with (here | taken) | ⟨member, kept'⟩
        · exact .inl (.inl here)
        · exact .inl (.inr (kept false running taken))
        · exact .inr ⟨List.mem_append_right failed member, kept'⟩
      · intro d here
        rcases closing_moved here with ⟨-, sessions', failed', same⟩ | ⟨apart, before⟩
        · cases same
        · exact absurd before (others d apart)
      · intro d here
        change update m.contexts c _ d = _ at here
        rw [Function.update_apply] at here
        split at here
        · cases here
        · exact valid.clean d here

theorem step_valid {action : Action} (valid : Valid m) (ok : Ok m action) (taken : step m action = some next) : Valid next := by
  cases action with
  | launch n =>
      obtain ⟨idle, same⟩ := Option.ite_none_right_eq_some.mp taken
      cases same
      refine launch_valid _ valid (idle ▸ nofun) fun running => ?_
      cases (unlaunched_stopped valid (.inl idle)).symm.trans running
  | fail n =>
      obtain ⟨preparing, same⟩ := Option.ite_none_right_eq_some.mp taken
      cases same
      refine launch_valid .returned valid (preparing ▸ nofun) fun running => ?_
      cases (unlaunched_stopped valid (.inr preparing)).symm.trans running
  | start n ownedProfile =>
      obtain ⟨preparing, same⟩ := Option.ite_none_right_eq_some.mp taken
      cases same
      exact start_valid valid preparing ownedProfile
  | exit n =>
      obtain ⟨-, same⟩ := Option.ite_none_right_eq_some.mp taken
      cases same
      exact exit_valid valid
  | waitFailed n =>
      obtain ⟨waiting, same⟩ := Option.ite_none_right_eq_some.mp taken
      cases same
      exact launch_valid .abandoning valid (waiting ▸ nofun) fun _ => .inr (.inl rfl)
  | abandoned n removed =>
      obtain ⟨abandoning, same⟩ := Option.ite_none_right_eq_some.mp taken
      cases same
      exact discard_valid valid (abandoning ▸ nofun) ok
  | register n =>
      obtain ⟨waiting, same⟩ := Option.ite_none_right_eq_some.mp taken
      cases same
      exact register_valid valid waiting ok
  | lateClosed n removed =>
      obtain ⟨late, same⟩ := Option.ite_none_right_eq_some.mp taken
      cases same
      exact discard_valid valid (late ▸ nofun) ok
  | close k id =>
      obtain ⟨idle, same⟩ := Option.ite_none_right_eq_some.mp taken
      cases same
      exact close_valid valid idle
  | closed k err removed =>
      dsimp only [step] at taken
      split at taken
      · next id closing =>
          obtain ⟨after, done, same⟩ := Option.map_eq_some_iff.mp taken
          cases same
          have stopped := ok id closing
          obtain ⟨validAfter, closes, -, running⟩ := shut_valid valid stopped done
          exact closed_valid validAfter (closes ▸ closing) (running ▸ stopped)
      · cases taken
  | closeContext c =>
      obtain ⟨idle, same⟩ := Option.ite_none_right_eq_some.mp taken
      cases same
      exact closeContext_valid valid idle
  | contextClosed c id err removed =>
      dsimp only [step] at taken
      split at taken
      · next sessions failed closing =>
          obtain ⟨member, rest⟩ := Option.ite_none_right_eq_some.mp taken
          obtain ⟨after, done, same⟩ := Option.map_eq_some_iff.mp rest
          cases same
          obtain ⟨validAfter, -, contexts, running⟩ := shut_valid valid ok done
          exact contextClosed_valid validAfter (contexts ▸ closing) member (running ▸ ok)
      · cases taken
  | decide c =>
      dsimp only [step] at taken
      split at taken
      · next failed closing =>
          cases taken
          exact decide_valid valid closing (ok failed closing)
      · cases taken

theorem valid_sound (valid : Valid m) : Sound m where
  held := valid.held
  swept c clean := by
    have empty := valid.shut (valid.clean c clean)
    refine ⟨empty, fun n running => (valid.held n running).resolve_right fun tracked => ?_⟩
    cases empty ▸ tracked.1

theorem run_sound {path : List Action} (along : Along step Ok new path) (reached : run step new path = some m) : Sound m :=
  valid_sound (Transition.along_invariant (fun _ _ _ => step_valid) new_valid along reached)

end

def quitRun : List Action :=
  [.launch 0, .start 0 true, .register 0, .launch 1, .start 1 false, .closeContext 0, .exit 0, .contextClosed 0 0 false true, .decide 0,
    .register 1, .exit 1, .lateClosed 1 true]

theorem quitRun_sound : ∃ m, run step new quitRun = some m ∧ m.contexts 0 = .returned true ∧ Sound m := by
  have along : Along step Ok new quitRun := by
    apply along_cons trivial rfl
    apply along_cons trivial rfl
    -- No CloseContext has begun when the first session is registered, and the second comes after the flag.
    refine along_cons (fun _ c closing => ?_) rfl ?_
    · obtain ⟨sessions, failed, here⟩ := closing
      cases here
    apply along_cons trivial rfl
    apply along_cons trivial rfl
    apply along_cons trivial rfl
    apply along_cons trivial rfl
    apply along_cons (by rfl) rfl
    refine along_cons (fun failed here some => ?_) rfl ?_
    · cases here
      exact absurd rfl some
    apply along_cons (fun opened => nomatch opened) rfl
    apply along_cons trivial rfl
    exact along_cons (by rfl) rfl trivial
  exact ⟨_, rfl, rfl, run_sound along rfl⟩

def lostRun : List Action := [.launch 0, .start 0 true, .register 0, .close 0 0, .closed 0 true true]

def overtakenRun : List Action := [.launch 0, .start 0 true, .closeContext 0, .register 0, .decide 0]

theorem processes_lost :
    (¬ ∀ m, Reachable step new m → ∀ n, m.running n = true → InCall m n ∨ Tracked m n) ∧
      ¬ ∀ m, Reachable step new m → ∀ c, m.contexts c = .returned true → m.sessions = [] := by
  refine ⟨fun held => ?_, fun swept => ?_⟩
  · have wrong := held _ ⟨lostRun, rfl⟩ 0 rfl
    rcases wrong with (launching | taken) | tracked
    · rcases launching with here | here | here <;> exact absurd here (by decide)
    · rcases taken with ⟨k, here⟩ | ⟨c, sessions, failed, here, -⟩
      · change update (update new.closes 0 (.closing 0)) 0 .returned k = .closing 0 at here
        rw [Function.update_idem, Function.update_apply] at here
        split at here <;> cases here
      · cases here
    · exact absurd tracked.1 (by decide)
  · exact absurd (swept _ ⟨overtakenRun, rfl⟩ 0 rfl) (by decide)

end Brainkit.Browser
