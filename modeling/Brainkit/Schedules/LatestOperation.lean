import Brainkit.Library.Writeback
import Brainkit.Schedules.Armed

set_option autoImplicit false

namespace Brainkit.Schedules

open Function (update)
open Transition GoText

def FirePc.acts : FirePc → Option Nat
  | .admitted e | .claiming e | .publishing e | .published e | .rearming e _ => some e
  | .idle | .begun _ | .deleting _ | .saving _ | .reporting | .done => none

namespace Scheduler

theorem fire_acts_set (s t : Scheduler) (j k e : Nat) (pc : FirePc) (same : t.fire = s.fire)
    (keeps : pc.acts = some e → (s.fire j).acts = some e) (acts : ((t.setFire j pc).fire k).acts = some e) :
    (s.fire k).acts = some e := by
  by_cases here : k = j
  · subst here
    simp only [setFire, Function.update_self] at acts
    exact keeps acts
  · simpa only [setFire, Function.update_of_ne here, same] using acts

theorem fire_set_stays (s t : Scheduler) (j k : Nat) (pc wanted : FirePc) (same : t.fire = s.fire) (none : pc ≠ wanted)
    (reached : (t.setFire j pc).fire k = wanted) : s.fire k = wanted := by
  by_cases here : k = j
  · subst here
    simp only [setFire, Function.update_self] at reached
    exact absurd reached none
  · simpa only [setFire, Function.update_of_ne here, same] using reached

theorem acts_step (host : Host) (s next : Scheduler) (action : Action) (moves : Moves host s action next) (k e : Nat)
    (acts : (next.fire k).acts = some e) : (s.fire k).acts = some e ∨ s.schedules (s.entry e).id = some e := by
  cases moves with
  | admits j f begun opened listed =>
      by_cases here : k = j
      · simp only [setFire, here, Function.update_self, FirePc.acts, Option.some.injEq] at acts
        subst acts
        exact .inr (by simpa [current] using listed)
      · simp only [setFire, Function.update_of_ne here] at acts
        exact .inl acts
  | timerFires j | dismisses j => exact .inl (fire_acts_set s _ j k e _ rfl (by simp [FirePc.acts]) acts)
  | drains j _ acting | goesOn j _ acting | loses j _ _ acting | wins j _ _ _ acting | firePublish j _ acting
  | finishClosed j _ _ acting | rearms j _ _ acting | replaced j _ _ acting | fireDelete j _ acting
  | fireReport j acting => exact .inl (fire_acts_set s _ j k e _ rfl (by simp [acting, FirePc.acts]) acts)
  | finishOneTime j | timerReset j | fireSave j =>
      exact .inl (fire_acts_set s _ j k e _ rfl (by split <;> simp [FirePc.acts]) acts)
  | adds | addsSaving | restoreAdd =>
      simp only [setCall, insert] at acts
      split at acts <;> exact .inl acts
  | _ => exact .inl acts

theorem listed_insert (s : Scheduler) (e f : Nat) (id : GoString) (listed : (s.insert e).schedules id = some f) :
    s.schedules id = some f ∨ f = e := by
  unfold insert at listed
  split at listed
  next => exact .inl listed
  next =>
    by_cases same : id = (s.entry e).id
    · subst same
      simp only [Function.update_self, Option.some.injEq] at listed
      exact .inr listed.symm
    · simp only [Function.update_of_ne same] at listed
      exact .inl listed

theorem call_set_stays (s t : Scheduler) (j k : Nat) (pc wanted : CallPc) (same : t.call = s.call) (none : pc ≠ wanted)
    (reached : (t.setCall j pc).call k = wanted) : s.call k = wanted := by
  by_cases here : k = j
  · subst here
    simp only [setCall, Function.update_self] at reached
    exact absurd reached none
  · simpa only [setCall, Function.update_of_ne here, same] using reached

theorem insert_call_eq (s : Scheduler) (e : Nat) : (s.insert e).call = s.call := by
  unfold insert
  split <;> rfl

theorem listed_clear (schedules : GoString → Option Nat) (other id : GoString) (e : Nat)
    (listed : update schedules other none id = some e) : schedules id = some e := by
  by_cases same : id = other
  · simp [same] at listed
  · rwa [Function.update_of_ne same] at listed

theorem listed_step (host : Host) (s next : Scheduler) (action : Action) (moves : Moves host s action next)
    (calls : action ≠ .restoreAdd) (id : GoString) (e : Nat) (listed : next.schedules id = some e) :
    s.schedules id = some e ∨ ∃ k, s.call k = .adding e ∧ next.call k ≠ .adding e := by
  cases moves with
  | adds k f adding | addsSaving k f adding =>
      rcases listed_insert s f e id listed with before | rfl
      · exact .inl before
      · exact .inr ⟨k, adding, by simp [setCall]⟩
  | restoreAdd => exact absurd rfl calls
  | unschedules | finishOneTime => exact .inl (listed_clear s.schedules _ id e listed)
  | close => cases listed
  | _ => exact .inl listed

inductive AddingMoves (s next : Scheduler) (action : Action) (k e : Nat) : Prop where
  | stays (before : s.call k = .adding e)
  | creates (cfg : ScheduleConfig) (uuid : GoString) (creation : Nat) (now : Int)
      (called : action = .schedule k cfg uuid creation now) (fresh : e = s.created) (fire : next.fire = s.fire)
      (schedules : next.schedules = s.schedules) (others : ∀ j, j ≠ k → next.call j = s.call j)

theorem adding_moves (host : Host) (s next : Scheduler) (action : Action) (moves : Moves host s action next) (k e : Nat)
    (adding : next.call k = .adding e) : AddingMoves s next action k e := by
  cases moves with
  | schedules j cfg uuid creation now =>
      by_cases here : k = j
      · subst here
        simp only [setCall, afterFunc, Function.update_self, CallPc.adding.injEq] at adding
        exact .creates cfg uuid creation now rfl adding.symm rfl rfl fun j other => Function.update_of_ne other _ _
      · simp only [setCall, afterFunc, Function.update_of_ne here] at adding
        exact .stays adding
  | adds j f | addsSaving j f =>
      exact .stays (call_set_stays s _ j k _ _ (insert_call_eq s f) (by simp) adding)
  | refused j | persistenceError j | unknown j | deleteSchedule j =>
      exact .stays (call_set_stays s s j k _ _ rfl (by simp) adding)
  | saveSchedule j saved => exact .stays (call_set_stays s s j k _ _ rfl (by cases saved <;> simp) adding)
  | unschedules j => exact .stays (call_set_stays s _ j k _ _ rfl (by split <;> simp) adding)
  | restoreAdd now f =>
      refine .stays ?_
      rw [← insert_call_eq s f]
      exact adding
  | _ => exact .stays adding

theorem saving_step (host : Host) (s next : Scheduler) (action : Action) (moves : Moves host s action next) (k : Nat)
    (ps : PersistedSchedule) (saving : next.call k = .saving ps) :
    s.call k = .saving ps ∨ ∃ e, s.call k = .adding e ∧ ps = s.entry e := by
  cases moves with
  | addsSaving j e adding =>
      by_cases here : k = j
      · subst here
        simp only [setCall, Function.update_self, CallPc.saving.injEq] at saving
        exact .inr ⟨e, adding, saving.symm⟩
      · simp only [setCall, Function.update_of_ne here, insert_call_eq] at saving
        exact .inl saving
  | adds j e => exact .inl (call_set_stays s _ j k _ _ (insert_call_eq s e) (by simp) saving)
  | schedules j | refused j | persistenceError j | unknown j | deleteSchedule j =>
      exact .inl (call_set_stays s _ j k _ _ rfl (by simp) saving)
  | saveSchedule j saved => exact .inl (call_set_stays s s j k _ _ rfl (by cases saved <;> simp) saving)
  | unschedules j => exact .inl (call_set_stays s _ j k _ _ rfl (by split <;> simp) saving)
  | restoreAdd now e =>
      refine .inl ?_
      rw [← insert_call_eq s e]
      exact saving
  | _ => exact .inl saving

theorem reporting_step (host : Host) (s next : Scheduler) (action : Action) (moves : Moves host s action next) (k : Nat)
    (reporting : next.call k = .reporting) : s.call k = .reporting ∨ ∃ ps, s.call k = .saving ps := by
  cases moves with
  | saveSchedule j saved ps saving =>
      by_cases here : k = j
      · exact .inr ⟨ps, here ▸ saving⟩
      · simp only [setCall, Function.update_of_ne here] at reporting
        exact .inl reporting
  | adds j e | addsSaving j e => exact .inl (call_set_stays s _ j k _ _ (insert_call_eq s e) (by simp) reporting)
  | schedules j | refused j | persistenceError j | unknown j | deleteSchedule j =>
      exact .inl (call_set_stays s _ j k _ _ rfl (by simp) reporting)
  | unschedules j => exact .inl (call_set_stays s _ j k _ _ rfl (by split <;> simp) reporting)
  | restoreAdd now e =>
      refine .inl ?_
      rw [← insert_call_eq s e]
      exact reporting
  | _ => exact .inl reporting

structure EntryKept (s next : Scheduler) (e : Nat) : Prop where
  known : e < next.created
  id : (next.entry e).id = (s.entry e).id
  oneTime : (next.entry e).oneTime = (s.entry e).oneTime

theorem entry_kept_created (s next : Scheduler) (ps : PersistedSchedule) (e : Nat) (known : e < s.created)
    (created : next.created = s.created + 1) (entry : next.entry = update s.entry s.created ps) : EntryKept s next e := by
  have same : next.entry e = s.entry e := by rw [entry, Function.update_of_ne (Nat.ne_of_lt known)]
  exact ⟨by omega, by rw [same], by rw [same]⟩

theorem entry_kept (host : Host) (s next : Scheduler) (action : Action) (moves : Moves host s action next) (e : Nat)
    (known : e < s.created) : EntryKept s next e := by
  cases moves with
  | schedules | restores | restoresNext => exact entry_kept_created s _ _ e known rfl rfl
  | rearms k f =>
      by_cases same : e = f
      · subst same
        exact ⟨known, by simp [setFire, PersistedSchedule.rearmed], by simp [setFire, PersistedSchedule.rearmed]⟩
      · exact ⟨known, by simp [setFire, Function.update_of_ne same], by simp [setFire, Function.update_of_ne same]⟩
  | adds k f | addsSaving k f =>
      simp only [insert]
      split <;> exact ⟨known, rfl, rfl⟩
  | restoreAdd now f =>
      simp only [insert]
      split <;> exact ⟨known, rfl, rfl⟩
  | _ => exact ⟨known, rfl, rfl⟩

theorem published_set (s t : Scheduler) (j k e : Nat) (pc : FirePc) (same : t.fire = s.fire)
    (busy : s.fire j ≠ .published e) (published : s.fire k = .published e) :
    (t.setFire j pc).fire k = .published e := by
  have other : k ≠ j := by
    rintro rfl
    exact busy published
  simpa only [setFire, Function.update_of_ne other, same] using published

theorem published_step (host : Host) (s next : Scheduler) (action : Action) (moves : Moves host s action next) (k e : Nat)
    (opened : s.closed = false) (published : s.fire k = .published e) :
    next.fire k = .published e ∨ (s.entry e).oneTime = false ∨ next.schedules (s.entry e).id = none := by
  cases moves with
  | timerFires j _ acting | admits j _ acting | dismisses j _ acting | drains j _ acting | goesOn j _ acting
  | loses j _ _ acting | wins j _ _ _ acting | firePublish j _ acting | timerReset j _ _ acting | fireSave j _ _ acting
  | fireDelete j _ acting | fireReport j acting =>
      exact .inl (published_set s _ j k e _ rfl (by simp [acting]) published)
  | finishClosed j _ _ _ closed => exact absurd (closed.symm.trans opened) (by decide)
  | finishOneTime j f now acting =>
      by_cases same : f = e
      · exact .inr (.inr (by simp [setFire, same]))
      · exact .inl (published_set s _ j k e _ rfl (by simp [acting, same]) published)
  | rearms j f now acting _ recurring | replaced j f now acting _ recurring =>
      by_cases same : f = e
      · exact .inr (.inl (same ▸ recurring))
      · exact .inl (published_set s _ j k e _ rfl (by simp [acting, same]) published)
  | adds | addsSaving | restoreAdd =>
      refine .inl ?_
      simp only [setCall, insert]
      split <;> exact published
  | _ => exact .inl published

theorem published_origin (host : Host) (s next : Scheduler) (action : Action) (moves : Moves host s action next)
    (k e : Nat) (published : next.fire k = .published e) :
    s.fire k = .published e ∨ action = .firePublish k ∧ s.fire k = .publishing e := by
  cases moves with
  | firePublish j f publishing =>
      by_cases here : k = j
      · subst here
        simp only [setFire, Function.update_self, FirePc.published.injEq] at published
        exact .inr ⟨rfl, published ▸ publishing⟩
      · simp only [setFire, Function.update_of_ne here] at published
        exact .inl published
  | timerFires j | admits j | dismisses j | drains j | goesOn j | loses j | wins j | finishClosed j | rearms j | replaced j
  | fireDelete j | fireReport j => exact .inl (fire_set_stays s _ j k _ _ rfl (by simp) published)
  | finishOneTime j | timerReset j | fireSave j =>
      exact .inl (fire_set_stays s _ j k _ _ rfl (by split <;> simp) published)
  | adds | addsSaving | restoreAdd =>
      simp only [setCall, insert] at published
      split at published <;> exact .inl published
  | _ => exact .inl published

inductive ListMoves (s next : Scheduler) (action : Action) (id : GoString) : Prop where
  | stays (schedules : next.schedules id = s.schedules id)
      (entry : ∀ e, s.schedules id = some e → next.entry e = s.entry e)
  | call (k : Nat) (record : Option PersistedSchedule) (owes : (next.call k).owes = some (id, record))
  | rearms (k : Nat) (record : Option PersistedSchedule) (schedules : next.schedules id = s.schedules id)
      (owes : (next.fire k).owes = some (id, record))
  | ends (k e : Nat) (now : Int) (called : action = .fireFinish k now) (published : s.fire k = .published e)
      (oneTime : (s.entry e).oneTime = true) (here : (s.entry e).id = id) (gone : next.schedules id = none)
      (owes : (next.fire k).owes = some (id, none))

theorem list_moves (host : Host) (s next : Scheduler) (action : Action) (stored : host.hasStore = true)
    (sound : Sound s) (opened : s.closed = false) (calls : action ≠ .restoreAdd ∧ action ≠ .close)
    (moves : Moves host s action next) (id : GoString) : ListMoves s next action id := by
  have listed : ∀ e, s.schedules id = some e → e < s.created := fun e => sound.valid.listed id e
  cases moves with
  | schedules | restores | restoresNext =>
      exact .stays rfl fun e member => Function.update_of_ne (Nat.ne_of_lt (listed e member)) _ _
  | adds k e adding unsaved => exact absurd unsaved (by simp [opened, stored])
  | addsSaving k e adding saved =>
      by_cases same : id = (s.entry e).id
      · exact .call k (some (s.entry e)) (by simp [setCall, CallPc.owes, same])
      · refine .stays ?_ fun f _ => ?_ <;> simp [setCall, insert, opened, Function.update_of_ne same]
  | unschedules k other e idle present =>
      by_cases same : id = other
      · exact .call k none (by simp [setCall, stored, CallPc.owes, same])
      · exact .stays (Function.update_of_ne same _ _) fun _ _ => rfl
  | finishOneTime k e now published _ oneTime =>
      by_cases same : id = (s.entry e).id
      · exact .ends k e now rfl published oneTime same.symm (by simp [setFire, same])
          (by simp [setFire, stored, FirePc.owes, same])
      · exact .stays (Function.update_of_ne same _ _) fun _ _ => rfl
  | rearms k e now published _ recurring current =>
      by_cases same : id = (s.entry e).id
      · exact .rearms k (some ((s.entry e).rearmed now)) rfl
          (by simp [setFire, FirePc.owes, PersistedSchedule.rearmed, same])
      · refine .stays rfl fun f member => ?_
        have other : f ≠ e := by
          rintro rfl
          exact same (sound.valid.keyed id f member).symm
        exact Function.update_of_ne other _ _
  | restoreAdd => exact absurd rfl calls.1
  | close => exact absurd rfl calls.2
  | _ => exact .stays rfl fun _ _ => rfl

inductive CallMoves (s next : Scheduler) (action : Action) (k : Nat) : Prop where
  | stays (same : next.call k = s.call k)
  | enters (idle : s.call k = .idle)
  | adds (e : Nat) (adding : s.call k = .adding e)
  | saves (saved : Bool) (ps : PersistedSchedule) (called : action = .saveSchedule k saved) (saving : s.call k = .saving ps)
      (after : next.call k = if saved then .done else .reporting)
  | reports (called : action = .persistenceError k) (reporting : s.call k = .reporting)
  | deletes (id : GoString) (called : action = .deleteSchedule k) (deleting : s.call k = .deleting id)

theorem call_moves_set (s t : Scheduler) (action : Action) (j k : Nat) (pc : CallPc) (same : t.call = s.call)
    (own : CallMoves s (t.setCall j pc) action j) : CallMoves s (t.setCall j pc) action k := by
  by_cases here : k = j
  · exact here ▸ own
  · exact .stays (by simp [setCall, Function.update_of_ne here, same])

theorem calls_moves (host : Host) (s next : Scheduler) (action : Action) (moves : Moves host s action next) (k : Nat) :
    CallMoves s next action k := by
  cases moves with
  | refused j _ _ _ _ idle | schedules j _ _ _ _ _ _ idle | unknown j _ idle | unschedules j _ _ idle =>
      exact call_moves_set s _ _ j k _ rfl (.enters idle)
  | adds j e adding | addsSaving j e adding => exact call_moves_set s _ _ j k _ (insert_call_eq s e) (.adds e adding)
  | saveSchedule j saved ps saving =>
      exact call_moves_set s _ _ j k _ rfl (.saves saved ps rfl saving (by simp [setCall]))
  | persistenceError j reporting => exact call_moves_set s _ _ j k _ rfl (.reports rfl reporting)
  | deleteSchedule j id deleting => exact call_moves_set s _ _ j k _ rfl (.deletes id rfl deleting)
  | restoreAdd now e => exact .stays (congrFun (insert_call_eq s e) k)
  | _ => exact .stays rfl

theorem fire_owes_set (s t : Scheduler) (j k : Nat) (pc : FirePc) (owed : GoString × Option PersistedSchedule)
    (same : t.fire = s.fire) (keeps : (s.fire j).owes = some owed → pc.owes = some owed)
    (owes : (s.fire k).owes = some owed) : ((t.setFire j pc).fire k).owes = some owed := by
  by_cases here : k = j
  · subst here
    simpa only [setFire, Function.update_self] using keeps owes
  · simpa only [setFire, Function.update_of_ne here, same] using owes

theorem fire_owes_step (host : Host) (s next : Scheduler) (action : Action) (stored : host.hasStore = true)
    (moves : Moves host s action next) (k : Nat) (owed : GoString × Option PersistedSchedule)
    (owes : (s.fire k).owes = some owed) :
    (next.fire k).owes = some owed ∨ (∃ saved, action = .fireSave k saved) ∨ action = .fireDelete k := by
  cases moves with
  | fireSave j saved =>
      by_cases here : k = j
      · exact .inr (.inl ⟨saved, here ▸ rfl⟩)
      · exact .inl (by simpa [setFire, Function.update_of_ne here] using owes)
  | fireDelete j =>
      by_cases here : k = j
      · exact .inr (.inr (here ▸ rfl))
      · exact .inl (by simpa [setFire, Function.update_of_ne here] using owes)
  | timerFires j _ acting | admits j _ acting | dismisses j _ acting | drains j _ acting | goesOn j _ acting
  | loses j _ _ acting | wins j _ _ _ acting | firePublish j _ acting | finishClosed j _ _ acting
  | finishOneTime j _ _ acting | rearms j _ _ acting | replaced j _ _ acting | fireReport j acting =>
      exact .inl (fire_owes_set s _ j k _ owed rfl (by simp [acting, FirePc.owes]) owes)
  | timerReset j e snapshot acting =>
      exact .inl (fire_owes_set s _ j k _ owed rfl (by simp [acting, stored, FirePc.owes]) owes)
  | adds | addsSaving | restoreAdd =>
      refine .inl ?_
      simp only [setCall, insert]
      split <;> exact owes
  | _ => exact .inl owes

end Scheduler

namespace Persisted

structure Taken (host : Host) (s : Persisted) (a : Action) (next : Persisted) : Prop where
  moves : Scheduler.Moves host s.scheduler a.action next.scheduler
  stepped : Scheduler.step host s.scheduler a.action = some next.scheduler
  ofCalls : a.ofCalls = true
  store : next.store = s.written a
  made : next.made = s.recordMade a
  fired : next.fired = s.recordFired a
  completed : next.completed = s.recordCompleted a

theorem taken_of_step (host : Host) (s next : Persisted) (a : Action) (taken : step host s a = some next) :
    Taken host s a next := by
  unfold step at taken
  split at taken
  next ofCalls =>
    obtain ⟨scheduler, stepped, rfl⟩ := Option.map_eq_some_iff.mp taken
    exact ⟨Scheduler.moves_of_step host s.scheduler scheduler a.action stepped, stepped, ofCalls, rfl, rfl, rfl, rfl⟩
  next => cases taken

structure Fresh (s : Persisted) (k e : Nat) : Prop where
  made : s.made k = e
  unfired : s.fired e = false
  unlisted : ∀ id, s.scheduler.schedules id ≠ some e
  unseen : ∀ j, (s.scheduler.fire j).acts ≠ some e
  alone : ∀ j, s.scheduler.call j = .adding e → j = k

structure Sane (s : Persisted) : Prop where
  sound : Scheduler.Sound s.scheduler
  opened : s.scheduler.closed = false
  fresh : ∀ k e, s.scheduler.call k = .adding e → Fresh s k e
  saving : ∀ k ps, s.scheduler.call k = .saving ps →
    s.made k < s.scheduler.created ∧ (s.scheduler.entry (s.made k)).id = ps.id
  reporting : ∀ k, s.scheduler.call k = .reporting → s.made k < s.scheduler.created
  known : ∀ e, s.fired e = true → e < s.scheduler.created
  recorded : ∀ id e, s.completed id = some (.scheduled e) → e < s.scheduler.created
  fired : ∀ id e, s.scheduler.schedules id = some e → (s.scheduler.entry e).oneTime = true → s.fired e = true →
    ∃ k, s.scheduler.fire k = .published e
  published : ∀ k e, s.scheduler.fire k = .published e → s.fired e = true

theorem start_sane : Sane start where
  sound := Scheduler.start_sound
  opened := rfl
  fresh _ _ adding := nomatch adding
  saving _ _ saving := nomatch saving
  reporting _ reporting := nomatch reporting
  known _ fired := nomatch fired
  recorded _ _ completed := nomatch completed
  fired _ _ listed := nomatch listed
  published _ _ published := nomatch published

theorem closed_stays (host : Host) (s next : Persisted) (a : Action) (opened : s.scheduler.closed = false)
    (taken : Taken host s a next) : next.scheduler.closed = false := by
  obtain ⟨moves, -, ofCalls, -⟩ := taken
  obtain ⟨action, deleted⟩ := a
  obtain ⟨scheduler, store, made, fired, completed⟩ := next
  cases moves with
  | adds | addsSaving | restoreAdd =>
      simp only [Scheduler.insert]
      split <;> exact opened
  | close => cases ofCalls
  | _ => exact opened

theorem acts_entry (pc : FirePc) (e : Nat) (acts : pc.acts = some e) : pc.entry = some e := by
  cases pc <;> first | exact acts | cases acts

theorem acts_known (s : Persisted) (sane : Sane s) (k e : Nat) (acts : (s.scheduler.fire k).acts = some e) :
    e < s.scheduler.created :=
  (sane.sound.valid.acting k e (acts_entry _ e acts)).1

theorem record_fired_cases (s : Persisted) (a : Action) (e : Nat) (fired : s.recordFired a e = true) :
    s.fired e = true ∨ ∃ k, a.action = .firePublish k ∧ s.scheduler.fire k = .publishing e := by
  obtain ⟨action, deleted⟩ := a
  cases action with
  | firePublish k =>
      cases publishing : s.scheduler.fire k with
      | publishing f =>
          simp only [recordFired, publishing] at fired
          by_cases same : e = f
          · exact .inr ⟨k, rfl, same ▸ publishing⟩
          · rw [Function.update_of_ne same] at fired
            exact .inl fired
      | _ =>
          simp only [recordFired, publishing] at fired
          exact .inl fired
  | _ => exact .inl fired

theorem calls_not_restore (a : Action) (ofCalls : a.ofCalls = true) : a.action ≠ .restoreAdd := by
  intro called
  simp [Action.ofCalls, called] at ofCalls

theorem record_made_stays (host : Host) (s next : Persisted) (a : Action) (taken : Taken host s a next) (k : Nat)
    (busy : s.scheduler.call k ≠ .idle) : next.made k = s.made k := by
  rw [taken.made]
  obtain ⟨action, deleted⟩ := a
  cases action with
  | schedule j cfg uuid creation now =>
      have idle : s.scheduler.call j = .idle := by
        have moves := taken.moves
        generalize next.scheduler = after at moves
        cases moves <;> assumption
      exact Function.update_of_ne (by rintro rfl; exact busy idle) _ _
  | _ => rfl

theorem fresh_step (host : Host) (s next : Persisted) (a : Action) (sane : Sane s) (taken : Taken host s a next)
    (k e : Nat) (adding : next.scheduler.call k = .adding e) : Fresh next k e := by
  have listed := fun id => Scheduler.listed_step host _ _ _ taken.moves (calls_not_restore a taken.ofCalls) id e
  have acts := fun j => Scheduler.acts_step host _ _ _ taken.moves j e
  have others := fun j => Scheduler.adding_moves host _ _ _ taken.moves j e
  cases Scheduler.adding_moves host _ _ _ taken.moves k e adding with
  | stays before =>
      have known := sane.sound.known.calls k e before
      obtain ⟨made, unfired, unlisted, unseen, alone⟩ := sane.fresh k e before
      refine ⟨?_, ?_, fun id after => ?_, fun j after => ?_, fun j after => ?_⟩
      · rw [record_made_stays host s next a taken k (by simp [before]), made]
      · by_contra fires
        rw [Bool.not_eq_false, taken.fired] at fires
        rcases record_fired_cases s a e fires with before | ⟨j, -, publishing⟩
        · exact Bool.false_ne_true (unfired.symm.trans before)
        · exact unseen j (by rw [publishing]; rfl)
      · rcases listed id after with before | ⟨j, added, gone⟩
        · exact unlisted id before
        · exact gone (alone j added ▸ adding)
      · rcases acts j after with before | current
        · exact unseen j before
        · exact unlisted _ current
      · cases others j after with
        | stays before => exact alone j before
        | creates _ _ _ _ _ fresh => omega
  | creates cfg uuid creation now called fresh fire schedules others =>
      refine ⟨?_, ?_, fun id after => ?_, fun j after => ?_, fun j after => ?_⟩
      · simp [taken.made, recordMade, called, fresh]
      · by_contra fires
        rw [Bool.not_eq_false, taken.fired] at fires
        rcases record_fired_cases s a e fires with before | ⟨j, publishes, -⟩
        · exact absurd (sane.known e before) (by omega)
        · cases called.symm.trans publishes
      · rw [schedules] at after
        exact absurd (sane.sound.valid.listed id e after) (by simp [fresh, Scheduler.arming])
      · rw [fire] at after
        exact absurd (acts_known s sane j e after) (by omega)
      · by_contra other
        rw [others j other] at after
        exact absurd (sane.sound.known.calls j e after) (by omega)

theorem saving_kept (host : Host) (s next : Persisted) (a : Action) (sane : Sane s) (taken : Taken host s a next) (k : Nat)
    (ps : PersistedSchedule) (saving : next.scheduler.call k = .saving ps) :
    next.made k < next.scheduler.created ∧ (next.scheduler.entry (next.made k)).id = ps.id := by
  rcases Scheduler.saving_step host _ _ _ taken.moves k ps saving with before | ⟨e, adding, rfl⟩
  · obtain ⟨known, id⟩ := sane.saving k ps before
    rw [record_made_stays host s next a taken k (by simp [before])]
    have kept := Scheduler.entry_kept host _ _ _ taken.moves _ known
    exact ⟨kept.known, kept.id.trans id⟩
  · have known := sane.sound.known.calls k e adding
    rw [record_made_stays host s next a taken k (by simp [adding]), (sane.fresh k e adding).made]
    have kept := Scheduler.entry_kept host _ _ _ taken.moves e known
    exact ⟨kept.known, kept.id⟩

theorem made_known (s : Persisted) (sane : Sane s) (k : Nat)
    (busy : s.scheduler.call k = .reporting ∨ ∃ ps, s.scheduler.call k = .saving ps) : s.made k < s.scheduler.created := by
  rcases busy with reporting | ⟨ps, saving⟩
  · exact sane.reporting k reporting
  · exact (sane.saving k ps saving).1

theorem reporting_kept (host : Host) (s next : Persisted) (a : Action) (sane : Sane s) (taken : Taken host s a next)
    (k : Nat) (reporting : next.scheduler.call k = .reporting) : next.made k < next.scheduler.created := by
  have busy := Scheduler.reporting_step host _ _ _ taken.moves k reporting
  have known := made_known s sane k busy
  rw [record_made_stays host s next a taken k (by rcases busy with same | ⟨ps, same⟩ <;> simp [same])]
  exact (Scheduler.entry_kept host _ _ _ taken.moves _ known).known

theorem record_fired_seen (s : Persisted) (a : Action) (e : Nat) (fired : s.recordFired a e = true) :
    s.fired e = true ∨ ∃ k, (s.scheduler.fire k).acts = some e := by
  refine (record_fired_cases s a e fired).imp id ?_
  rintro ⟨k, -, publishing⟩
  exact ⟨k, by rw [publishing]; rfl⟩

theorem fired_known (host : Host) (s next : Persisted) (a : Action) (sane : Sane s) (taken : Taken host s a next) (e : Nat)
    (fired : next.fired e = true) : e < next.scheduler.created := by
  rw [taken.fired] at fired
  have known : e < s.scheduler.created := by
    rcases record_fired_seen s a e fired with before | ⟨k, acts⟩
    · exact sane.known e before
    · exact acts_known s sane k e acts
  exact (Scheduler.entry_kept host _ _ _ taken.moves e known).known

inductive ReturnMoves (s : Persisted) (a : Action) (k : Nat) (id : GoString) (outcome : Outcome) : Prop where
  | scheduled (returning : s.returning k = some id) (same : outcome = .scheduled (s.made k))
      (busy : s.scheduler.call k = .reporting ∨ ∃ ps, s.scheduler.call k = .saving ps)
  | unscheduled (returning : s.returning k = some id) (same : outcome = .unscheduled)
  | unknown (called : a.action = .unschedule k id) (idle : s.scheduler.call k = .idle)
      (absent : s.scheduler.schedules id = none) (same : outcome = .unscheduled)

theorem returns_some (s : Persisted) (j k : Nat) (id : GoString) (made outcome : Outcome)
    (returns : ((s.returning j).map fun id => (j, id, made)) = some (k, id, outcome)) :
    k = j ∧ s.returning k = some id ∧ outcome = made := by
  obtain ⟨found, returning, same⟩ := Option.map_eq_some_iff.mp returns
  simp only [Prod.mk.injEq] at same
  obtain ⟨rfl, rfl, rfl⟩ := same
  exact ⟨rfl, returning, rfl⟩

theorem return_moves (host : Host) (s next : Persisted) (a : Action) (taken : Taken host s a next) (k : Nat)
    (id : GoString) (outcome : Outcome) (returns : s.returns a = some (k, id, outcome)) :
    ReturnMoves s a k id outcome := by
  have moves := taken.moves
  clear taken
  obtain ⟨action, deleted⟩ := a
  generalize next.scheduler = after at moves
  cases moves with
  | saveSchedule j saved ps saving =>
      cases saved with
      | true =>
          obtain ⟨rfl, returning, same⟩ := returns_some s j k id _ outcome returns
          exact .scheduled returning same (.inr ⟨ps, saving⟩)
      | false => cases returns
  | persistenceError j reporting =>
      obtain ⟨rfl, returning, same⟩ := returns_some s j k id _ outcome returns
      exact .scheduled returning same (.inl reporting)
  | deleteSchedule j other deleting =>
      obtain ⟨rfl, returning, same⟩ := returns_some s j k id _ outcome returns
      exact .unscheduled returning same
  | unknown j other idle absent =>
      simp only [Persisted.returns, absent, if_true, Option.some.injEq, Prod.mk.injEq] at returns
      obtain ⟨rfl, rfl, rfl⟩ := returns
      exact .unknown rfl idle absent rfl
  | unschedules j other e idle listed =>
      simp only [Persisted.returns, listed, reduceCtorEq, if_false] at returns
  | _ => cases returns

theorem completed_cases (s : Persisted) (a : Action) (id : GoString) :
    (s.recordCompleted a id = s.completed id ∧ ∀ k outcome, s.returns a ≠ some (k, id, outcome)) ∨
      ∃ k outcome, s.returns a = some (k, id, outcome) ∧ s.recordCompleted a id = some outcome := by
  cases returns : s.returns a with
  | none => exact .inl ⟨by simp only [recordCompleted, returns], by simp⟩
  | some returned =>
      obtain ⟨k, other, outcome⟩ := returned
      by_cases same : id = other
      · subst same
        exact .inr ⟨k, outcome, rfl, by simp only [recordCompleted, returns, Function.update_self]⟩
      · refine .inl ⟨by simp only [recordCompleted, returns, Function.update_of_ne same], fun j found alike => ?_⟩
        simp only [Option.some.injEq, Prod.mk.injEq] at alike
        exact same alike.2.1.symm

theorem recorded_kept (host : Host) (s next : Persisted) (a : Action) (sane : Sane s) (taken : Taken host s a next)
    (id : GoString) (e : Nat) (recorded : next.completed id = some (.scheduled e)) : e < next.scheduler.created := by
  have known : e < s.scheduler.created := by
    rw [taken.completed] at recorded
    rcases completed_cases s a id with ⟨same, -⟩ | ⟨k, outcome, returns, same⟩
    · exact sane.recorded id e (same ▸ recorded)
    · obtain rfl := Option.some.inj (same.symm.trans recorded)
      cases return_moves host s next a taken k id _ returns with
      | scheduled _ same busy =>
          obtain rfl := Outcome.scheduled.inj same
          exact made_known s sane k busy
      | unscheduled _ same | unknown _ _ _ same => cases same
  exact (Scheduler.entry_kept host _ _ _ taken.moves e known).known

theorem fired_grows (s : Persisted) (a : Action) (e : Nat) (fired : s.fired e = true) : s.recordFired a e = true := by
  obtain ⟨action, deleted⟩ := a
  cases action with
  | firePublish k =>
      cases publishing : s.scheduler.fire k with
      | publishing f =>
          by_cases same : e = f
          · simp [recordFired, publishing, same]
          · simpa only [recordFired, publishing, Function.update_of_ne same] using fired
      | _ => simpa only [recordFired, publishing] using fired
  | _ => exact fired

theorem listed_fired_kept (host : Host) (s next : Persisted) (a : Action) (sane : Sane s) (taken : Taken host s a next)
    (id : GoString) (e : Nat) (listed : next.scheduler.schedules id = some e)
    (oneTime : (next.scheduler.entry e).oneTime = true) (fired : next.fired e = true) :
    ∃ k, next.scheduler.fire k = .published e := by
  rw [taken.fired] at fired
  rcases Scheduler.listed_step host _ _ _ taken.moves (calls_not_restore a taken.ofCalls) id e listed with
    before | ⟨k, adding, -⟩
  · have known : e < s.scheduler.created := sane.sound.valid.listed id e before
    have kept := Scheduler.entry_kept host _ _ _ taken.moves e known
    have keyed : (s.scheduler.entry e).id = id := sane.sound.valid.keyed id e before
    rcases record_fired_cases s a e fired with earlier | ⟨k, called, publishing⟩
    · obtain ⟨k, published⟩ := sane.fired id e before (kept.oneTime ▸ oneTime) earlier
      rcases Scheduler.published_step host _ _ _ taken.moves k e sane.opened published with still | recurring | gone
      · exact ⟨k, still⟩
      · cases recurring.symm.trans (kept.oneTime.symm.trans oneTime)
      · rw [keyed] at gone
        cases gone.symm.trans listed
    · have moves := taken.moves
      rw [called] at moves
      generalize next.scheduler = after at moves
      cases moves with
      | firePublish _ f publishes =>
          obtain rfl := FirePc.publishing.inj (publishing.symm.trans publishes)
          exact ⟨k, by simp [Scheduler.setFire]⟩
  · obtain ⟨-, unfired, -, unseen, -⟩ := sane.fresh k e adding
    rcases record_fired_seen s a e fired with before | ⟨j, acts⟩
    · exact absurd before (by simp [unfired])
    · exact absurd acts (unseen j)

theorem published_kept (host : Host) (s next : Persisted) (a : Action) (sane : Sane s) (taken : Taken host s a next)
    (k e : Nat) (published : next.scheduler.fire k = .published e) : next.fired e = true := by
  rw [taken.fired]
  rcases Scheduler.published_origin host _ _ _ taken.moves k e published with before | ⟨called, publishing⟩
  · exact fired_grows s a e (sane.published k e before)
  · obtain ⟨action, deleted⟩ := a
    obtain rfl : action = .firePublish k := called
    simp [recordFired, publishing]

theorem sane_step (host : Host) (s : Persisted) (a : Action) (next : Persisted) (sane : Sane s)
    (taken : step host s a = some next) : Sane next := by
  have moved := taken_of_step host s next a taken
  exact {
    sound := Scheduler.sound_step host _ _ _ sane.sound moved.stepped
    opened := closed_stays host s next a sane.opened moved
    fresh := fresh_step host s next a sane moved
    saving := saving_kept host s next a sane moved
    reporting := reporting_kept host s next a sane moved
    known := fired_known host s next a sane moved
    recorded := recorded_kept host s next a sane moved
    fired := listed_fired_kept host s next a sane moved
    published := published_kept host s next a sane moved }

theorem owes_step (host : Host) (s next : Persisted) (a : Action) (stored : host.hasStore = true)
    (taken : Taken host s a next) (w : Writer) (owed : GoString × Option PersistedSchedule)
    (owes : s.owes w = some owed) : next.owes w = some owed ∨ ∃ ok, a.write = some (w, ok) := by
  obtain ⟨action, deleted⟩ := a
  cases w with
  | call k =>
      change (s.scheduler.call k).owes = some owed at owes
      cases Scheduler.calls_moves host _ _ _ taken.moves k with
      | stays same => exact .inl (by simpa only [Persisted.owes, same] using owes)
      | enters before | reports _ before | adds _ before => simp [before, CallPc.owes] at owes
      | saves saved ps called => exact .inr ⟨saved, by simp only at called; simp [Action.write, called]⟩
      | deletes id called => exact .inr ⟨deleted, by simp only at called; simp [Action.write, called]⟩
  | fire k =>
      rcases Scheduler.fire_owes_step host _ _ _ stored taken.moves k owed owes with still | ⟨saved, called⟩ | called
      · exact .inl still
      · exact .inr ⟨saved, by simp only at called; simp [Action.write, called]⟩
      · exact .inr ⟨deleted, by simp only at called; simp [Action.write, called]⟩

theorem returning_step (host : Host) (s next : Persisted) (a : Action) (sane : Sane s) (taken : Taken host s a next)
    (k : Nat) (id : GoString) (returning : s.returning k = some id) :
    next.returning k = some id ∨ ∃ outcome, s.returns a = some (k, id, outcome) := by
  obtain ⟨action, deleted⟩ := a
  have busy : s.scheduler.call k ≠ .idle := by
    intro idle
    simp [Persisted.returning, idle] at returning
  have made := record_made_stays host s next _ taken k busy
  have kept := fun known => (Scheduler.entry_kept host _ _ _ taken.moves (s.made k) known).id
  cases Scheduler.calls_moves host _ _ _ taken.moves k with
  | stays same =>
      refine .inl ?_
      cases before : s.scheduler.call k <;> simp only [Persisted.returning, before, same, made] at returning ⊢ <;>
        first | exact returning | rw [kept (sane.reporting k before), returning]
  | enters idle => exact absurd idle busy
  | adds e adding => simp [Persisted.returning, adding] at returning
  | saves saved ps called saving after =>
      simp only at called
      subst called
      cases saved with
      | true => exact .inr ⟨.scheduled (s.made k), by simp [Persisted.returns, returning]⟩
      | false =>
          refine .inl ?_
          obtain ⟨known, id_eq⟩ := sane.saving k ps saving
          simp only [Persisted.returning, saving, Option.some.injEq] at returning
          simp [Persisted.returning, after, made, kept known, id_eq, returning]
  | reports called reporting =>
      simp only at called
      subst called
      exact .inr ⟨.scheduled (s.made k), by simp [Persisted.returns, returning]⟩
  | deletes other called deleting =>
      simp only at called
      subst called
      exact .inr ⟨.unscheduled, by simp [Persisted.returns, returning]⟩

theorem written_cases (s : Persisted) (a : Action) (id : GoString) :
    s.written a id = s.store id ∨
      ∃ w record, a.write = some (w, true) ∧ s.owes w = some (id, record) ∧ s.written a id = record := by
  match write : a.write with
  | none | some (_, false) => exact .inl (by simp only [written, write])
  | some (w, true) =>
      cases owes : s.owes w with
      | none => exact .inl (by simp only [written, write, owes])
      | some owed =>
          obtain ⟨other, record⟩ := owed
          by_cases same : id = other
          · subst same
            exact .inr ⟨w, record, rfl, owes, by simp only [written, write, owes, Function.update_self]⟩
          · exact .inl (by simp only [written, write, owes, Function.update_of_ne same])

theorem list_moves_of_taken (host : Host) (s next : Persisted) (a : Action) (stored : host.hasStore = true)
    (sane : Sane s) (taken : Taken host s a next) (id : GoString) :
    Scheduler.ListMoves s.scheduler next.scheduler a.action id := by
  refine Scheduler.list_moves host _ _ _ stored sane.sound sane.opened ⟨calls_not_restore a taken.ofCalls, ?_⟩
    taken.moves id
  intro called
  have ofCalls := taken.ofCalls
  simp [Action.ofCalls, called] at ofCalls

theorem live_step (host : Host) (s next : Persisted) (a : Action) (stored : host.hasStore = true) (sane : Sane s)
    (taken : Taken host s a next) (id : GoString) :
    next.live id = s.live id ∨ ∃ w record, next.owes w = some (id, record) := by
  cases list_moves_of_taken host s next a stored sane taken id with
  | stays schedules entry =>
      refine .inl ?_
      rw [live, live, schedules]
      exact Option.map_congr fun e listed => entry e listed
  | call k record owes => exact .inr ⟨.call k, record, owes⟩
  | rearms k record _ owes => exact .inr ⟨.fire k, record, owes⟩
  | ends k _ _ _ _ _ _ _ owes => exact .inr ⟨.fire k, none, owes⟩

theorem write_settles (host : Host) (s next : Persisted) (a : Action) (stored : host.hasStore = true) (sane : Sane s)
    (taken : Taken host s a next) (together : StaysTogether s a) (w : Writer) (ok : Bool) (id : GoString)
    (record : Option PersistedSchedule) (write : a.write = some (w, ok)) (owes : s.owes w = some (id, record)) :
    next.store id = next.live id ∨ ∃ w record, next.owes w = some (id, record) := by
  rcases together.writes w ok id record write owes with ⟨rfl, rfl⟩ | ⟨other, record, different, still⟩
  · rcases live_step host s next a stored sane taken id with same | owed
    · refine .inl ?_
      rw [taken.store, same]
      simp only [written, write, owes, Function.update_self]
    · exact .inr owed
  · rcases owes_step host s next a stored taken other (id, record) still with after | ⟨ok, writes⟩
    · exact .inr ⟨other, record, after⟩
    · simp only [write, Option.some.injEq, Prod.mk.injEq] at writes
      exact absurd writes.1.symm different

-- The two ways in which the live map is followed: by the store, through the writes that are still to come, and by the
-- latest return, through the calls that have still to return.
structure InStep (s : Persisted) : Prop where
  store : Writeback.Follows (fun id => s.store id = s.live id) fun w id => ∃ record, s.owes w = some (id, record)
  returned : Writeback.Follows (fun id => s.Fits id (s.completed id)) fun k id => s.returning k = some id

theorem start_in_step : InStep start := ⟨fun _ => .inl rfl, fun _ => .inl rfl⟩

theorem store_step (host : Host) (s next : Persisted) (a : Action) (stored : host.hasStore = true) (sane : Sane s)
    (inStep : InStep s) (taken : Taken host s a next) (together : StaysTogether s a) :
    Writeback.Follows (fun id => next.store id = next.live id) fun w id => ∃ record, next.owes w = some (id, record) := by
  refine Writeback.follows_step inStep.store (fun id agreed => ?_) ?_
  · rcases written_cases s a id with same | ⟨w, record, write, owes, -⟩
    · rcases live_step host s next a stored sane taken id with live | owed
      · exact .inl (by rw [taken.store, same, live, agreed])
      · exact .inr owed
    · exact write_settles host s next a stored sane taken together w true id record write owes
  · rintro w id ⟨record, owes⟩
    rcases owes_step host s next a stored taken w (id, record) owes with still | ⟨ok, write⟩
    · exact .inr ⟨w, record, still⟩
    · exact write_settles host s next a stored sane taken together w ok id record write owes

theorem fits_same (host : Host) (s next : Persisted) (a : Action) (taken : Taken host s a next) (id : GoString)
    (outcome : Option Outcome) (known : ∀ e, outcome = some (.scheduled e) → e < s.scheduler.created)
    (schedules : next.scheduler.schedules id = s.scheduler.schedules id) (fits : s.Fits id outcome) :
    next.Fits id outcome := by
  match outcome with
  | none | some .unscheduled => exact schedules.trans fits
  | some (.scheduled e) =>
      have kept := Scheduler.entry_kept host _ _ _ taken.moves e (known e rfl)
      rcases fits with listed | ⟨gone, oneTime, fired⟩
      · exact .inl (schedules.trans listed)
      · exact .inr ⟨schedules.trans gone, kept.oneTime.trans oneTime, taken.fired ▸ fired_grows s a e fired⟩

theorem owes_returning (s : Persisted) (k : Nat) (id : GoString) (record : Option PersistedSchedule)
    (owes : (s.scheduler.call k).owes = some (id, record)) : s.returning k = some id := by
  cases pc : s.scheduler.call k <;> simp_all [Persisted.returning, CallPc.owes]

theorem fits_step (host : Host) (s next : Persisted) (a : Action) (stored : host.hasStore = true) (sane : Sane s)
    (taken : Taken host s a next) (together : StaysTogether s a) (id : GoString) (outcome : Option Outcome)
    (known : ∀ e, outcome = some (.scheduled e) → e < s.scheduler.created) (fits : s.Fits id outcome) :
    next.Fits id outcome ∨ ∃ k, next.returning k = some id := by
  cases list_moves_of_taken host s next a stored sane taken id with
  | stays schedules => exact .inl (fits_same host s next a taken id outcome known schedules fits)
  | rearms _ _ schedules => exact .inl (fits_same host s next a taken id outcome known schedules fits)
  | call k record owes => exact .inr ⟨k, owes_returning next k id record owes⟩
  | ends k e now called published oneTime here gone =>
      subst here
      rcases together.finishes k now e called published oneTime with own | absent | ⟨other, returning⟩
      · match outcome with
        | none | some .unscheduled => cases own.symm.trans fits
        | some (.scheduled f) =>
            rcases fits with listed | ⟨absent, -⟩
            · obtain rfl := Option.some.inj (own.symm.trans listed)
              have kept := Scheduler.entry_kept host _ _ _ taken.moves e (known e rfl)
              refine .inl (.inr ⟨gone, kept.oneTime.trans oneTime, ?_⟩)
              exact taken.fired ▸ fired_grows s a e (sane.published k e published)
            · cases own.symm.trans absent
      · exact .inl (fits_same host s next a taken _ outcome known (gone.trans absent.symm) fits)
      · refine .inr ⟨other, ?_⟩
        rcases returning_step host s next a sane taken other _ returning with still | ⟨outcome, returns⟩
        · exact still
        · simp [Persisted.returns, called] at returns

theorem return_settles (host : Host) (s next : Persisted) (a : Action) (stored : host.hasStore = true) (sane : Sane s)
    (taken : Taken host s a next) (together : StaysTogether s a) (k : Nat) (id : GoString) (outcome : Outcome)
    (returns : s.returns a = some (k, id, outcome)) :
    next.Fits id (some outcome) ∨ ∃ k, next.returning k = some id := by
  rcases together.returns k id outcome returns with fits | ⟨other, different, returning⟩
  · refine fits_step host s next a stored sane taken together id (some outcome) (fun e same => ?_) fits
    obtain rfl := Option.some.inj same
    cases return_moves host s next a taken k id _ returns with
    | scheduled _ same busy =>
        obtain rfl := Outcome.scheduled.inj same
        exact made_known s sane k busy
    | unscheduled _ same | unknown _ _ _ same => cases same
  · rcases returning_step host s next a sane taken other id returning with still | ⟨found, also⟩
    · exact .inr ⟨other, still⟩
    · simp only [returns, Option.some.injEq, Prod.mk.injEq] at also
      exact absurd also.1.symm different

theorem returned_step (host : Host) (s next : Persisted) (a : Action) (stored : host.hasStore = true) (sane : Sane s)
    (inStep : InStep s) (taken : Taken host s a next) (together : StaysTogether s a) :
    Writeback.Follows (fun id => next.Fits id (next.completed id)) fun k id => next.returning k = some id := by
  have settles : ∀ k id outcome, s.returns a = some (k, id, outcome) →
      next.Fits id (next.completed id) ∨ ∃ k, next.returning k = some id := by
    intro k id outcome returns
    have completed : next.completed id = some outcome := by
      simp only [taken.completed, recordCompleted, returns, Function.update_self]
    rw [completed]
    exact return_settles host s next a stored sane taken together k id outcome returns
  refine Writeback.follows_step inStep.returned (fun id fits => ?_) fun k id returning => ?_
  · rcases completed_cases s a id with ⟨same, -⟩ | ⟨k, outcome, returns, -⟩
    · rw [taken.completed, same]
      exact fits_step host s next a stored sane taken together id _ (fun e => sane.recorded id e) fits
    · exact settles k id outcome returns
  · rcases returning_step host s next a sane taken k id returning with still | ⟨outcome, returns⟩
    · exact .inr ⟨k, still⟩
    · exact settles k id outcome returns

theorem agrees_of_quiet (s : Persisted) (sane : Sane s) (inStep : InStep s) (quiet : Quiet s) (id : GoString) :
    Agrees s id := by
  have noWriter : ∀ w, ¬ ∃ record, s.owes w = some (id, record) := by
    rintro (k | k) ⟨record, owes⟩
    · rcases quiet.1 k with pc | pc <;> simp [Persisted.owes, pc, CallPc.owes] at owes
    · rcases quiet.2 k with pc | pc <;> simp [Persisted.owes, pc, FirePc.owes] at owes
  have noCall : ∀ k, s.returning k ≠ some id := by
    intro k returning
    rcases quiet.1 k with pc | pc <;> simp [Persisted.returning, pc] at returning
  refine ⟨Writeback.settled inStep.store id noWriter, ?_⟩
  have fits := Writeback.settled inStep.returned id noCall
  unfold expected
  split
  next e completed =>
    rw [completed] at fits
    rcases fits with listed | ⟨gone, oneTime, fired⟩
    · have unfired : ((s.scheduler.entry e).oneTime && s.fired e) = false := by
        by_contra both
        simp only [Bool.not_eq_false, Bool.and_eq_true] at both
        obtain ⟨k, published⟩ := sane.fired id e listed both.1 both.2
        rcases quiet.2 k with pc | pc <;> cases pc.symm.trans published
      simpa [unfired] using listed
    · simpa [oneTime, fired] using gone
  next completed => rwa [completed] at fits
  next completed => rwa [completed] at fits

theorem latest_operation_holds (host : Host) (stored : host.hasStore = true) (path : List Action) (s : Persisted)
    (together : Along (step host) StaysTogether start path) (reached : run (step host) start path = some s)
    (quiet : Quiet s) (id : GoString) : Agrees s id := by
  have keeps : ∀ s a next, Sane s ∧ InStep s → StaysTogether s a → step host s a = some next →
      Sane next ∧ InStep next := by
    rintro s a next ⟨sane, inStep⟩ together taken
    have moved := taken_of_step host s next a taken
    exact ⟨sane_step host s a next sane taken, store_step host s next a stored sane inStep moved together,
      returned_step host s next a stored sane inStep moved together⟩
  obtain ⟨sane, inStep⟩ := along_invariant keeps ⟨start_sane, start_in_step⟩ together reached
  exact agrees_of_quiet s sane inStep quiet id

def inOneSecond : ScheduleConfig := ⟨lit "tick", lit "in 1s", lit "clock", lit "null"⟩

def calls (actions : List Scheduler.Action) : List Action := actions.map fun action => ⟨action, true⟩

def oneTimeFire : List Action :=
  calls [.schedule 0 inOneSecond [] 0 0, .add 0, .saveSchedule 0 true, .timerFires 0 0, .fireAdmit 0,
    .fireDraining 0 false, .fireClaim 0 ⟨0, 0⟩ .claimed, .firePublish 0, .fireFinish 0 0, .fireDelete 0]

theorem calm_stays (s : Persisted) (a : Action) (write : a.write = none) (returns : s.returns a = none)
    (other : ∀ k now, a.action ≠ .fireFinish k now) : StaysTogether s a := by
  refine ⟨fun w ok id record writes => ?_, fun k id outcome returned => ?_, fun k now e called => absurd called (other k now)⟩
  · cases write.symm.trans writes
  · cases returns.symm.trans returned

theorem one_time_fire_stays : Along (step Scheduler.secondHost) StaysTogether start oneTimeFire := by
  apply along_cons (calm_stays _ _ rfl rfl (by simp)) rfl
  apply along_cons (calm_stays _ _ rfl rfl (by simp)) rfl
  refine along_cons ⟨?_, ?_, fun _ _ _ no => nomatch no⟩ rfl ?_
  · rintro _ _ _ _ ⟨⟩ ⟨⟩
    exact .inl ⟨rfl, rfl⟩
  · rintro _ _ _ ⟨⟩
    exact .inl (.inl rfl)
  apply along_cons (calm_stays _ _ rfl rfl (by simp)) rfl
  apply along_cons (calm_stays _ _ rfl rfl (by simp)) rfl
  apply along_cons (calm_stays _ _ rfl rfl (by simp)) rfl
  apply along_cons (calm_stays _ _ rfl rfl (by simp)) rfl
  apply along_cons (calm_stays _ _ rfl rfl (by simp)) rfl
  refine along_cons ⟨fun _ _ _ _ no => (nomatch no), fun _ _ _ no => (nomatch no), ?_⟩ rfl ?_
  · rintro _ _ _ ⟨⟩ ⟨⟩ _
    exact .inl rfl
  refine along_cons ⟨?_, fun _ _ _ no => (nomatch no), fun _ _ _ no => nomatch no⟩ rfl trivial
  rintro _ _ _ _ ⟨⟩ ⟨⟩
  exact .inl ⟨rfl, rfl⟩

theorem one_time_fire_agrees : ∃ s, run (step Scheduler.secondHost) start oneTimeFire = some s ∧
    s.completed (lit "tick") = some (.scheduled 0) ∧ s.fired 0 = true ∧ Agrees s (lit "tick") := by
  refine ⟨_, rfl, rfl, rfl, ?_⟩
  refine latest_operation_holds Scheduler.secondHost rfl oneTimeFire _ one_time_fire_stays rfl ⟨fun k => ?_, fun k => ?_⟩
    (lit "tick")
  · cases k with
    | zero => exact .inr rfl
    | succ => exact .inl rfl
  · cases k with
    | zero => exact .inr rfl
    | succ => exact .inl rfl

-- The fire of a one-time schedule is publishing when a recurring schedule is made under the same id. The tail of that
-- fire removes the new schedule from the map and from the store.
theorem late_fire_removes_new_schedule : ∃ s, Reachable (step Scheduler.secondHost) start s ∧ Quiet s ∧
    s.completed (lit "tick") = some (.scheduled 1) ∧ (s.scheduler.entry 1).oneTime = false ∧
    s.scheduler.schedules (lit "tick") = none ∧ s.store (lit "tick") = none := by
  refine ⟨_, ⟨calls [.schedule 0 inOneSecond [] 0 0, .add 0, .saveSchedule 0 true, .timerFires 0 0, .fireAdmit 0,
    .fireDraining 0 false, .fireClaim 0 ⟨0, 0⟩ .claimed, .schedule 1 Scheduler.everySecond [] 1 0, .add 1,
    .saveSchedule 1 true, .firePublish 0, .fireFinish 0 0, .fireDelete 0], rfl⟩, ⟨fun k => ?_, fun k => ?_⟩, rfl, rfl, rfl,
    rfl⟩
  · match k with
    | 0 | 1 => exact .inr rfl
    | k + 2 => exact .inl rfl
  · cases k with
    | zero => exact .inr rfl
    | succ => exact .inl rfl

end Persisted

end Brainkit.Schedules
