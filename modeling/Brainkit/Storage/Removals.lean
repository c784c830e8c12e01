import Brainkit.Storage.KindsApart

set_option autoImplicit false

namespace Brainkit.Storage

open Function (update)
open GoText Transition
open Modules (Table)

-- onSuccess of a removal. since is history: how many registrations there were when the removal took the lock.
structure Callback where
  entry : StoreName
  since : Nat
deriving DecidableEq

structure Target where
  name : GoString
  bridge : Nat
  onSuccess : Option Callback
deriving DecidableEq

-- The manager between its locked sections; what its operations return and what they register is in Manager. A bridge is
-- the number it was started with, an entry the number of its registration. jobs are the closes that have not got to
-- finishBridgeClose, whether or not their caller still waits, and callbacks the calls of onSuccess that are to come
-- after an unlock. unregistered is history.
structure Host where
  bridges : Table Nat
  closingBridges : Table Unit
  activeCloseJobs : Nat
  closing : Bool
  entries : StoreName → Option Nat
  registryClosed : Bool
  jsRuntime : Bool
  started : Nat
  registered : Nat
  jobs : List Target
  callbacks : List Callback
  unregistered : List (Callback × Option Nat)

namespace Host

def new : Host := ⟨∅, ∅, 0, false, fun _ => none, false, false, 0, 0, [], [], []⟩

def accepts (i : StoreName) (h : Host) : Bool := i.2 ≠ [] && !h.registryClosed

def register (i : StoreName) (h : Host) : Host :=
  if h.accepts i then { h with entries := update h.entries i (some h.registered), registered := h.registered + 1 } else h

def start (key : GoString) (h : Host) : Host :=
  { h with bridges := h.bridges.insert key h.started, started := h.started + 1 }

-- closed says that CloseContext has no error.
def closeBridgeLocked (key : GoString) (closed : Bool) (h : Host) : Host :=
  if closed then { h with bridges := h.bridges.erase key } else h

-- AddStorage and AddVector, which hold the lock; answers says that newBridge has no error.
def add (i : StoreName) (sqlite answers closed : Bool) (h : Host) : Host :=
  if sqlite && h.jsRuntime then
    if StoreName.key i ∈ h.bridges || !answers then h
    else
      let opened := h.start (StoreName.key i)
      if opened.accepts i then opened.register i else opened.closeBridgeLocked (StoreName.key i) closed
  else h.register i

def markBridgeClosingLocked (name : GoString) (onSuccess : Option Callback) (h : Host) : Option Host :=
  match h.bridges.lookup name with
  | none => none
  | some srv =>
      if name ∈ h.closingBridges then none
      else some { h with
        closingBridges := h.closingBridges.insert name ()
        activeCloseJobs := h.activeCloseJobs + 1
        closing := true
        jobs := h.jobs ++ [⟨name, srv, onSuccess⟩] }

-- removeBridgeContext up to its unlock. Without a bridge the callback comes next; a close in progress is an error.
def remove (i : StoreName) (h : Host) : Host :=
  let onSuccess : Callback := ⟨i, h.registered⟩
  match h.markBridgeClosingLocked (StoreName.key i) (some onSuccess) with
  | some marked => marked
  | none => if StoreName.key i ∈ h.bridges then h else { h with callbacks := h.callbacks ++ [onSuccess] }

-- CloseExceptContext; with nothing to keep, CloseAllContext.
def closeExcept (keep : List GoString) (h : Host) : Host :=
  (h.bridges.keys.filter fun name => name ∉ keep).foldl (fun h name => (h.markBridgeClosingLocked name none).getD h) h

-- The locked section of finishBridgeClose.
def finishBridgeClose (target : Target) (closed : Bool) (h : Host) : Option Host :=
  if target ∈ h.jobs then
    let found := closed && h.bridges.lookup target.name = some target.bridge
    some { h with
      bridges := if found then h.bridges.erase target.name else h.bridges
      closingBridges := h.closingBridges.erase target.name
      activeCloseJobs := h.activeCloseJobs - 1
      closing := if h.activeCloseJobs - 1 = 0 then false else h.closing
      jobs := h.jobs.erase target
      callbacks := if found then h.callbacks ++ target.onSuccess.toList else h.callbacks }
  else none

def callback (c : Callback) (h : Host) : Option Host :=
  if c ∈ h.callbacks then some { h with
    entries := update h.entries c.entry none
    callbacks := h.callbacks.erase c
    unregistered := h.unregistered ++ [(c, h.entries c.entry)] }
  else none

inductive Action where
  | setRuntime (attached : Bool)
  | closeRegistry
  | add (i : StoreName) (sqlite answers closed : Bool)
  | start (key : GoString)
  | register (i : StoreName)
  | close (key : GoString) (closed : Bool)
  | remove (i : StoreName)
  | closeExcept (keep : List GoString)
  | finish (target : Target) (closed : Bool)
  | callback (c : Callback)

def step (h : Host) : Action → Option Host
  | .setRuntime attached => some { h with jsRuntime := attached }
  | .closeRegistry => some { h with registryClosed := true }
  | .add i sqlite answers closed => some (h.add i sqlite answers closed)
  | .start key => if key ∈ h.bridges then none else some (h.start key)
  | .register i => some (h.register i)
  | .close key closed => some (h.closeBridgeLocked key closed)
  | .remove i => some (h.remove i)
  | .closeExcept keep => some (h.closeExcept keep)
  | .finish target closed => h.finishBridgeClose target closed
  | .callback c => h.callback c

def Counted (h : Host) : Prop := h.activeCloseJobs = h.closingBridges.keys.length ∧ h.jobs.length = h.activeCloseJobs

def Spared (h : Host) : Prop := ∀ c n, (c, some n) ∈ h.unregistered → n < c.since

def Due (c : Callback) (h : Host) : Prop :=
  c ∈ h.callbacks ∨
    ∃ target ∈ h.jobs, h.bridges.lookup target.name = some target.bridge ∧ target.onSuccess = some c

def Removing (i : StoreName) (h : Host) : Prop := ∃ c, h.Due c ∧ c.entry = i

def registers (h : Host) : Action → Option StoreName
  | .add i sqlite answers _ =>
      if h.accepts i && !(sqlite && h.jsRuntime && (StoreName.key i ∈ h.bridges || !answers)) then some i else none
  | .register i => if h.accepts i then some i else none
  | _ => none

def Waits (h : Host) (action : Action) : Prop := ∀ i, h.registers action = some i → ¬ h.Removing i

instance (i : StoreName) (h : Host) : Decidable (h.Removing i) :=
  decidable_of_iff ((∃ c ∈ h.callbacks, c.entry = i) ∨ ∃ target ∈ h.jobs,
      h.bridges.lookup target.name = some target.bridge ∧ ∃ c ∈ target.onSuccess, c.entry = i) <| by
    constructor
    · rintro (⟨c, listed, same⟩ | ⟨target, listed, current, c, held, same⟩)
      · exact ⟨c, .inl listed, same⟩
      · exact ⟨c, .inr ⟨target, listed, current, held⟩, same⟩
    · rintro ⟨c, listed | ⟨target, listed, current, held⟩, same⟩
      · exact .inl ⟨c, listed, same⟩
      · exact .inr ⟨target, listed, current, c, held, same⟩

instance (h : Host) (action : Action) : Decidable (h.Waits action) :=
  inferInstanceAs (Decidable (∀ i ∈ h.registers action, ¬ h.Removing i))

theorem insert_keys_length {α β : Type} [DecidableEq α] {table : AList fun _ : α => β} {key : α} (fresh : key ∉ table)
    (value : β) : (table.insert key value).keys.length = table.keys.length + 1 := by
  rw [AList.keys_insert, List.erase_of_not_mem fun listed => fresh (AList.mem_keys.mpr listed), List.length_cons]

theorem erase_keys_length {α β : Type} [DecidableEq α] {table : AList fun _ : α => β} {key : α} (listed : key ∈ table) :
    (table.erase key).keys.length = table.keys.length - 1 := by
  rw [AList.keys_erase, List.length_erase_of_mem (AList.mem_keys.mp listed)]

structure Valid (h : Host) : Prop where
  counted : h.Counted
  marked : ∀ target ∈ h.jobs, target.name ∈ h.closingBridges
  distinct : (h.jobs.map Target.name).Nodup
  named : ∀ target ∈ h.jobs, ∀ c, target.onSuccess = some c → StoreName.key c.entry = target.name
  running : ∀ key srv, h.bridges.lookup key = some srv → srv < h.started
  earlier : ∀ target ∈ h.jobs, target.bridge < h.started
  dated : ∀ i n, h.entries i = some n → n < h.registered
  taken : ∀ target ∈ h.jobs, ∀ c, target.onSuccess = some c → c.since ≤ h.registered
  due : ∀ c ∈ h.callbacks, c.since ≤ h.registered

def Safe (h : Host) : Prop := ∀ c, h.Due c → ∀ n, h.entries c.entry = some n → n < c.since

variable {h next : Host}

theorem new_valid : new.Valid where
  counted := ⟨rfl, rfl⟩
  marked _ listed := nomatch listed
  distinct := List.nodup_nil
  named _ listed := nomatch listed
  running _ _ found := nomatch found
  earlier _ listed := nomatch listed
  dated _ _ found := nomatch found
  taken _ listed := nomatch listed
  due _ listed := nomatch listed

theorem register_cases (i : StoreName) (h : Host) : h.accepts i = true ∧
    h.register i = { h with entries := update h.entries i (some h.registered), registered := h.registered + 1 } ∨
    h.accepts i = false ∧ h.register i = h := by
  unfold register
  cases accepted : h.accepts i with
  | true => exact .inl ⟨rfl, if_pos rfl⟩
  | false => exact .inr ⟨rfl, if_neg Bool.false_ne_true⟩

theorem register_valid (valid : h.Valid) (i : StoreName) : (h.register i).Valid := by
  rcases register_cases i h with ⟨-, same⟩ | ⟨-, same⟩
  · rw [same]
    refine { valid with dated := fun j n found => ?_, taken := ?_, due := ?_ }
    · by_cases own : j = i
      · subst own
        cases (Function.update_self j _ h.entries).symm.trans found
        exact Nat.lt_succ_self _
      · exact Nat.lt_succ_of_lt (valid.dated j n ((Function.update_of_ne own _ h.entries).symm.trans found))
    · exact fun target listed c held => Nat.le_succ_of_le (valid.taken target listed c held)
    · exact fun c listed => Nat.le_succ_of_le (valid.due c listed)
  · rwa [same]

theorem start_valid (valid : h.Valid) (key : GoString) : (h.start key).Valid := by
  refine { valid with running := fun other srv found => ?_, earlier := ?_ }
  · by_cases own : other = key
    · rw [own] at found
      cases (AList.lookup_insert _).symm.trans found
      exact Nat.lt_succ_self _
    · exact Nat.lt_succ_of_lt (valid.running other srv ((AList.lookup_insert_ne own).symm.trans found))
  · exact fun target listed => Nat.lt_succ_of_lt (valid.earlier target listed)

theorem close_valid (valid : h.Valid) (key : GoString) (closed : Bool) : (h.closeBridgeLocked key closed).Valid := by
  unfold closeBridgeLocked
  cases closed with
  | false => exact valid
  | true => exact { valid with running := fun other srv found => valid.running other srv (Modules.lookup_erase_sub found) }

theorem mark_some {name : GoString} {onSuccess : Option Callback}
    (marks : h.markBridgeClosingLocked name onSuccess = some next) :
    ∃ srv, h.bridges.lookup name = some srv ∧ name ∉ h.closingBridges ∧ next = { h with
      closingBridges := h.closingBridges.insert name ()
      activeCloseJobs := h.activeCloseJobs + 1
      closing := true
      jobs := h.jobs ++ [⟨name, srv, onSuccess⟩] } := by
  unfold markBridgeClosingLocked at marks
  cases found : h.bridges.lookup name with
  | none => simp [found] at marks
  | some srv =>
      rw [found] at marks
      obtain ⟨fresh, same⟩ := Option.ite_none_left_eq_some.mp marks
      exact ⟨srv, rfl, fresh, (Option.some.inj same).symm⟩

theorem mark_valid (valid : h.Valid) {name : GoString} {onSuccess : Option Callback}
    (own : ∀ c, onSuccess = some c → StoreName.key c.entry = name ∧ c.since ≤ h.registered)
    (marks : h.markBridgeClosingLocked name onSuccess = some next) : next.Valid := by
  obtain ⟨srv, found, fresh, rfl⟩ := mark_some marks
  obtain ⟨count, jobs⟩ := valid.counted
  have unmarked : name ∉ h.jobs.map Target.name := fun listed => by
    obtain ⟨target, member, same⟩ := List.mem_map.mp listed
    exact fresh (same ▸ valid.marked target member)
  have both {P : Target → Prop} (old : ∀ target ∈ h.jobs, P target) (added : P ⟨name, srv, onSuccess⟩) :
      ∀ target ∈ h.jobs ++ [⟨name, srv, onSuccess⟩], P target := fun target listed => by
    rcases List.mem_append.mp listed with earlier | last
    · exact old target earlier
    · exact List.mem_singleton.mp last ▸ added
  refine { valid with
    counted := ⟨?_, by simp [jobs]⟩
    marked := both (fun target listed => ?_) ?_
    distinct := ?_
    named := both valid.named fun c held => (own c held).1
    earlier := both valid.earlier (valid.running name srv found)
    taken := both valid.taken fun c held => (own c held).2 }
  · exact (congrArg (· + 1) count).trans (insert_keys_length fresh ()).symm
  · exact (AList.mem_insert _).mpr (.inr (valid.marked target listed))
  · exact (AList.mem_insert _).mpr (.inl rfl)
  · rw [List.map_append, List.nodup_append]
    refine ⟨valid.distinct, List.nodup_singleton _, fun a listed b last same => ?_⟩
    rw [same, List.mem_singleton.mp last] at listed
    exact unmarked listed

theorem remove_cases (i : StoreName) (h : Host) :
    h.markBridgeClosingLocked (StoreName.key i) (some ⟨i, h.registered⟩) = some (h.remove i) ∨ h.remove i = h ∨
      StoreName.key i ∉ h.bridges ∧ h.remove i = { h with callbacks := h.callbacks ++ [⟨i, h.registered⟩] } := by
  unfold remove
  cases marks : h.markBridgeClosingLocked (StoreName.key i) (some ⟨i, h.registered⟩) with
  | some marked => simp [marks]
  | none => by_cases there : StoreName.key i ∈ h.bridges <;> simp [marks, there]

theorem remove_valid (valid : h.Valid) (i : StoreName) : (h.remove i).Valid := by
  rcases remove_cases i h with marks | same | ⟨-, same⟩
  · refine mark_valid valid (fun c held => ?_) marks
    cases held
    exact ⟨rfl, Nat.le_refl _⟩
  · rwa [same]
  · rw [same]
    refine { valid with due := fun c listed => ?_ }
    rcases List.mem_append.mp listed with earlier | last
    · exact valid.due c earlier
    · rw [List.mem_singleton.mp last]

theorem closeExcept_keeps {P : Host → Prop} (keep : List GoString) (holds : P h)
    (marks : ∀ before name after, P before → before.markBridgeClosingLocked name none = some after → P after) :
    P (h.closeExcept keep) := by
  unfold closeExcept
  induction h.bridges.keys.filter (fun name => name ∉ keep) generalizing h with
  | nil => exact holds
  | cons name names ih =>
      rw [List.foldl_cons]
      cases marked : h.markBridgeClosingLocked name none with
      | none => exact ih holds
      | some after => exact ih (marks h name after holds marked)

theorem finish_some {target : Target} {closed : Bool} (finishes : h.finishBridgeClose target closed = some next) :
    target ∈ h.jobs ∧
      next.closingBridges = h.closingBridges.erase target.name ∧ next.activeCloseJobs = h.activeCloseJobs - 1 ∧
      next.jobs = h.jobs.erase target ∧ next.entries = h.entries ∧ next.started = h.started ∧
      next.registered = h.registered ∧ next.unregistered = h.unregistered ∧
      (closed = true ∧ h.bridges.lookup target.name = some target.bridge ∧ next.bridges = h.bridges.erase target.name ∧
          next.callbacks = h.callbacks ++ target.onSuccess.toList ∨
        ¬ (closed = true ∧ h.bridges.lookup target.name = some target.bridge) ∧ next.bridges = h.bridges ∧
          next.callbacks = h.callbacks) := by
  obtain ⟨listed, same⟩ := Option.ite_none_right_eq_some.mp finishes
  cases same
  refine ⟨listed, rfl, rfl, rfl, rfl, rfl, rfl, rfl, ?_⟩
  by_cases found : closed = true ∧ h.bridges.lookup target.name = some target.bridge
  · exact .inl ⟨found.1, found.2, by simp [found], by simp [found]⟩
  · exact .inr ⟨found, by simp [found], by simp [found]⟩

theorem finish_valid (valid : h.Valid) {target : Target} {closed : Bool}
    (finishes : h.finishBridgeClose target closed = some next) : next.Valid := by
  obtain ⟨listed, closing, active, jobs, entries, started, registered, -, outcome⟩ := finish_some finishes
  obtain ⟨count, length⟩ := valid.counted
  have member := valid.marked target listed
  have sub : ∀ other ∈ next.jobs, other ∈ h.jobs := fun other stays => List.mem_of_mem_erase (jobs ▸ stays)
  have names : (next.jobs.map Target.name).Nodup := by
    rw [jobs]
    exact valid.distinct.sublist (List.erase_sublist.map Target.name)
  refine ⟨⟨?_, ?_⟩, fun other stays => ?_, names, fun other stays => valid.named other (sub other stays), ?_, ?_, ?_, ?_, ?_⟩
  · rw [active, closing, erase_keys_length member, count]
  · rw [active, jobs, List.length_erase_of_mem listed, length]
  · rw [closing, AList.mem_erase]
    refine ⟨fun same => ?_, valid.marked other (sub other stays)⟩
    have apart := ((List.perm_cons_erase listed).map Target.name).nodup_iff.mp valid.distinct
    exact (List.nodup_cons.mp apart).1 (same ▸ List.mem_map_of_mem (jobs ▸ stays))
  · intro key srv found
    rw [started]
    rcases outcome with ⟨-, -, bridges, -⟩ | ⟨-, bridges, -⟩
    · exact valid.running key srv (Modules.lookup_erase_sub (bridges ▸ found))
    · exact valid.running key srv (bridges ▸ found)
  · exact fun other stays => started ▸ valid.earlier other (sub other stays)
  · exact fun i n found => registered ▸ valid.dated i n (entries ▸ found)
  · exact fun other stays c held => registered ▸ valid.taken other (sub other stays) c held
  · intro c stays
    rw [registered]
    rcases outcome with ⟨-, -, -, callbacks⟩ | ⟨-, -, callbacks⟩
    · rw [callbacks] at stays
      rcases List.mem_append.mp stays with earlier | last
      · exact valid.due c earlier
      · exact valid.taken target listed c (Option.mem_toList.mp last)
    · exact valid.due c (callbacks ▸ stays)

theorem add_cases (i : StoreName) (sqlite answers closed : Bool) (h : Host) :
    h.registers (.add i sqlite answers closed) = none ∧ (h.add i sqlite answers closed = h ∨
        h.add i sqlite answers closed = (h.start (StoreName.key i)).closeBridgeLocked (StoreName.key i) closed) ∨
      h.registers (.add i sqlite answers closed) = some i ∧ h.accepts i = true ∧
        (h.add i sqlite answers closed = h.register i ∨
          StoreName.key i ∉ h.bridges ∧ h.add i sqlite answers closed = (h.start (StoreName.key i)).register i) := by
  have same : (h.start (StoreName.key i)).accepts i = h.accepts i := rfl
  unfold add registers
  cases accepted : h.accepts i with
  | false =>
      refine .inl ⟨by simp [accepted], ?_⟩
      split_ifs
      · exact .inl rfl
      · simp [same, accepted]
      · exact .inl (by simp [register, accepted])
  | true =>
      by_cases bridge : (sqlite && h.jsRuntime) = true
      · by_cases refused : (decide (StoreName.key i ∈ h.bridges) || !answers) = true
        · exact .inl ⟨by simp [bridge, refused], .inl (by simp [bridge, refused])⟩
        · have free : StoreName.key i ∉ h.bridges := fun there => refused (by simp [there])
          exact .inr ⟨by simp [accepted, bridge, refused], rfl, .inr ⟨free, by simp [bridge, refused, same, accepted]⟩⟩
      · exact .inr ⟨by simp [accepted, bridge], rfl, .inl (by simp [bridge])⟩

theorem step_valid {action : Action} (valid : h.Valid) (taken : h.step action = some next) : next.Valid := by
  cases action with
  | setRuntime attached =>
      cases taken
      exact { valid with }
  | closeRegistry =>
      cases taken
      exact { valid with }
  | add i sqlite answers closed =>
      cases taken
      rcases add_cases i sqlite answers closed h with ⟨-, same | same⟩ | ⟨-, -, same | ⟨-, same⟩⟩ <;> rw [same]
      · exact valid
      · exact close_valid (start_valid valid _) _ closed
      · exact register_valid valid i
      · exact register_valid (start_valid valid _) i
  | start key =>
      obtain ⟨-, same⟩ := Option.ite_none_left_eq_some.mp taken
      cases same
      exact start_valid valid key
  | register i =>
      cases taken
      exact register_valid valid i
  | close key closed =>
      cases taken
      exact close_valid valid key closed
  | remove i =>
      cases taken
      exact remove_valid valid i
  | closeExcept keep =>
      cases taken
      exact closeExcept_keeps keep valid fun before name after kept marks => mark_valid kept (by simp) marks
  | finish target closed => exact finish_valid valid taken
  | callback c =>
      obtain ⟨-, same⟩ := Option.ite_none_right_eq_some.mp taken
      cases same
      refine { valid with dated := fun i n found => ?_, due := fun other stays => valid.due other (List.mem_of_mem_erase stays) }
      by_cases own : i = c.entry
      · subst own
        have gone : update h.entries c.entry none c.entry = some n := found
        rw [Function.update_self] at gone
        cases gone
      · exact valid.dated i n ((Function.update_of_ne own none h.entries).symm.trans found)

theorem due_start (valid : h.Valid) {key : GoString} {c : Callback} (due : (h.start key).Due c) : h.Due c := by
  rcases due with listed | ⟨target, listed, current, held⟩
  · exact .inl listed
  · by_cases own : target.name = key
    · subst own
      have fresh : h.started = target.bridge := Option.some.inj ((AList.lookup_insert _).symm.trans current)
      exact absurd (valid.earlier target listed) (fresh ▸ Nat.lt_irrefl _)
    · exact .inr ⟨target, listed, (AList.lookup_insert_ne own).symm.trans current, held⟩

theorem due_close {key : GoString} {closed : Bool} {c : Callback} (due : (h.closeBridgeLocked key closed).Due c) : h.Due c := by
  cases closed with
  | false => exact due
  | true => exact due.imp_right fun ⟨target, listed, current, held⟩ => ⟨target, listed, Modules.lookup_erase_sub current, held⟩

theorem due_register (i : StoreName) (c : Callback) : (h.register i).Due c ↔ h.Due c := by
  rcases register_cases i h with ⟨-, same⟩ | ⟨-, same⟩ <;> rw [same]
  rfl

theorem due_mark {name : GoString} {onSuccess : Option Callback} {c : Callback}
    (marks : h.markBridgeClosingLocked name onSuccess = some next) (due : next.Due c) : h.Due c ∨ onSuccess = some c := by
  obtain ⟨srv, found, -, rfl⟩ := mark_some marks
  rcases due with listed | ⟨target, listed, current, held⟩
  · exact .inl (.inl listed)
  · rcases List.mem_append.mp listed with earlier | last
    · exact .inl (.inr ⟨target, earlier, current, held⟩)
    · rw [List.mem_singleton.mp last] at held
      exact .inr held

theorem step_due {action : Action} {c : Callback} (valid : h.Valid) (taken : h.step action = some next) (due : next.Due c) :
    h.Due c ∨ action = .remove c.entry ∧ c.since = h.registered := by
  cases action with
  | setRuntime attached =>
      cases taken
      exact .inl due
  | closeRegistry =>
      cases taken
      exact .inl due
  | add i sqlite answers closed =>
      cases taken
      rcases add_cases i sqlite answers closed h with ⟨-, same | same⟩ | ⟨-, -, same | ⟨-, same⟩⟩ <;> rw [same] at due
      · exact .inl due
      · exact .inl (due_start valid (due_close due))
      · exact .inl ((due_register i c).mp due)
      · exact .inl (due_start valid ((due_register i c).mp due))
  | start key =>
      obtain ⟨-, same⟩ := Option.ite_none_left_eq_some.mp taken
      cases same
      exact .inl (due_start valid due)
  | register i =>
      cases taken
      exact .inl ((due_register i c).mp due)
  | close key closed =>
      cases taken
      exact .inl (due_close due)
  | remove i =>
      cases taken
      rcases remove_cases i h with marks | same | ⟨-, same⟩
      · refine (due_mark marks due).imp_right fun held => ?_
        cases held
        exact ⟨rfl, rfl⟩
      · exact .inl (same ▸ due)
      · rw [same] at due
        rcases due with listed | working
        · refine (List.mem_append.mp listed).imp .inl fun last => ?_
          cases List.mem_singleton.mp last
          exact ⟨rfl, rfl⟩
        · exact .inl (.inr working)
  | closeExcept keep =>
      cases taken
      refine .inl (closeExcept_keeps (P := fun after => after.Due c → h.Due c) keep id ?_ due)
      exact fun before name after kept marks due => kept ((due_mark marks due).resolve_right (by simp))
  | finish target closed =>
      obtain ⟨listed, -, -, jobs, -, -, -, -, outcome⟩ := finish_some taken
      left
      rcases outcome with ⟨-, current, bridges, callbacks⟩ | ⟨-, bridges, callbacks⟩
      · rcases due with stays | ⟨other, stays, found, held⟩
        · rw [callbacks] at stays
          refine (List.mem_append.mp stays).imp id fun last => ?_
          exact ⟨target, listed, current, Option.mem_toList.mp last⟩
        · rw [bridges] at found
          exact .inr ⟨other, List.mem_of_mem_erase (jobs ▸ stays), Modules.lookup_erase_sub found, held⟩
      · rcases due with stays | ⟨other, stays, found, held⟩
        · exact .inl (callbacks ▸ stays)
        · exact .inr ⟨other, List.mem_of_mem_erase (jobs ▸ stays), bridges ▸ found, held⟩
  | callback other =>
      obtain ⟨-, same⟩ := Option.ite_none_right_eq_some.mp taken
      cases same
      exact .inl (due.imp_left List.mem_of_mem_erase)

theorem mark_kept {name : GoString} {onSuccess : Option Callback}
    (marks : h.markBridgeClosingLocked name onSuccess = some next) :
    next.entries = h.entries ∧ next.unregistered = h.unregistered := by
  obtain ⟨srv, -, -, rfl⟩ := mark_some marks
  exact ⟨rfl, rfl⟩

theorem closeExcept_kept (keep : List GoString) :
    (h.closeExcept keep).entries = h.entries ∧ (h.closeExcept keep).unregistered = h.unregistered :=
  closeExcept_keeps (P := fun after => after.entries = h.entries ∧ after.unregistered = h.unregistered) keep ⟨rfl, rfl⟩
    fun _ _ _ kept marks => ⟨(mark_kept marks).1.trans kept.1, (mark_kept marks).2.trans kept.2⟩

theorem remove_kept (i : StoreName) : (h.remove i).entries = h.entries ∧ (h.remove i).unregistered = h.unregistered := by
  rcases remove_cases i h with marks | same | ⟨-, same⟩
  · exact mark_kept marks
  · rw [same]
    exact ⟨rfl, rfl⟩
  · rw [same]
    exact ⟨rfl, rfl⟩

theorem close_kept (key : GoString) (closed : Bool) : (h.closeBridgeLocked key closed).entries = h.entries ∧
    (h.closeBridgeLocked key closed).unregistered = h.unregistered := by
  cases closed <;> exact ⟨rfl, rfl⟩

theorem register_kept (i : StoreName) : (h.register i).unregistered = h.unregistered := by
  rcases register_cases i h with ⟨-, same⟩ | ⟨-, same⟩ <;> rw [same]

theorem entries_register {i j : StoreName} {n : Nat} (found : (h.register i).entries j = some n) :
    h.entries j = some n ∨ h.accepts i = true ∧ j = i ∧ n = h.registered := by
  rcases register_cases i h with ⟨accepted, same⟩ | ⟨-, same⟩ <;> rw [same] at found
  · by_cases own : j = i
    · subst own
      have new : update h.entries j (some h.registered) j = some n := found
      rw [Function.update_self] at new
      exact .inr ⟨accepted, rfl, (Option.some.inj new).symm⟩
    · exact .inl ((Function.update_of_ne own _ h.entries).symm.trans found)
  · exact .inl found

theorem step_entries {action : Action} {j : StoreName} {n : Nat} (taken : h.step action = some next)
    (found : next.entries j = some n) : h.entries j = some n ∨ h.registers action = some j ∧ n = h.registered := by
  cases action with
  | setRuntime attached =>
      cases taken
      exact .inl found
  | closeRegistry =>
      cases taken
      exact .inl found
  | add i sqlite answers closed =>
      cases taken
      rcases add_cases i sqlite answers closed h with ⟨-, same | same⟩ |
        ⟨registers, -, same | ⟨-, same⟩⟩ <;> rw [same] at found
      · exact .inl found
      · exact .inl ((congrFun (close_kept (h := h.start (StoreName.key i)) _ closed).1 j).symm.trans found)
      · exact (entries_register found).imp_right fun ⟨_, own, new⟩ => ⟨own ▸ registers, new⟩
      · exact (entries_register found).imp_right fun ⟨_, own, new⟩ => ⟨own ▸ registers, new⟩
  | start key =>
      obtain ⟨-, same⟩ := Option.ite_none_left_eq_some.mp taken
      cases same
      exact .inl found
  | register i =>
      cases taken
      exact (entries_register found).imp_right fun ⟨accepted, own, new⟩ => ⟨by simp [registers, accepted, own], new⟩
  | close key closed =>
      cases taken
      exact .inl ((congrFun (close_kept key closed).1 j).symm.trans found)
  | remove i =>
      cases taken
      exact .inl ((congrFun (remove_kept i).1 j).symm.trans found)
  | closeExcept keep =>
      cases taken
      exact .inl ((congrFun (closeExcept_kept keep).1 j).symm.trans found)
  | finish target closed =>
      obtain ⟨-, -, -, -, entries, -⟩ := finish_some taken
      exact .inl (entries ▸ found)
  | callback c =>
      obtain ⟨-, same⟩ := Option.ite_none_right_eq_some.mp taken
      cases same
      by_cases own : j = c.entry
      · subst own
        have gone : update h.entries c.entry none c.entry = some n := found
        rw [Function.update_self] at gone
        cases gone
      · exact .inl ((Function.update_of_ne own none h.entries).symm.trans found)

theorem step_unregistered {action : Action} {c : Callback} {n : Nat} (taken : h.step action = some next)
    (gone : (c, some n) ∈ next.unregistered) : (c, some n) ∈ h.unregistered ∨ h.Due c ∧ h.entries c.entry = some n := by
  cases action with
  | setRuntime attached =>
      cases taken
      exact .inl gone
  | closeRegistry =>
      cases taken
      exact .inl gone
  | add i sqlite answers closed =>
      cases taken
      rcases add_cases i sqlite answers closed h with ⟨-, same | same⟩ | ⟨-, -, same | ⟨-, same⟩⟩ <;> rw [same] at gone
      · exact .inl gone
      · exact .inl ((close_kept (h := h.start (StoreName.key i)) _ closed).2 ▸ gone)
      · exact .inl (register_kept i ▸ gone)
      · exact .inl (register_kept (h := h.start (StoreName.key i)) i ▸ gone)
  | start key =>
      obtain ⟨-, same⟩ := Option.ite_none_left_eq_some.mp taken
      cases same
      exact .inl gone
  | register i =>
      cases taken
      exact .inl (register_kept i ▸ gone)
  | close key closed =>
      cases taken
      exact .inl ((close_kept key closed).2 ▸ gone)
  | remove i =>
      cases taken
      exact .inl ((remove_kept i).2 ▸ gone)
  | closeExcept keep =>
      cases taken
      exact .inl ((closeExcept_kept keep).2 ▸ gone)
  | finish target closed =>
      obtain ⟨-, -, -, -, -, -, -, unregistered, -⟩ := finish_some taken
      exact .inl (unregistered ▸ gone)
  | callback other =>
      obtain ⟨listed, same⟩ := Option.ite_none_right_eq_some.mp taken
      cases same
      refine (List.mem_append.mp gone).imp_right fun last => ?_
      obtain ⟨rfl, found⟩ := Prod.mk.inj (List.mem_singleton.mp last)
      exact ⟨.inl listed, found.symm⟩

theorem step_safe {action : Action} (valid : h.Valid) (safe : h.Safe) (waits : h.Waits action)
    (taken : h.step action = some next) : next.Safe := by
  intro c due n found
  rcases step_due valid taken due with before | ⟨removal, since⟩
  · rcases step_entries taken found with old | ⟨registers, -⟩
    · exact safe c before n old
    · exact absurd ⟨c, before, rfl⟩ (waits c.entry registers)
  · rcases step_entries taken found with old | ⟨registers, -⟩
    · exact since ▸ valid.dated c.entry n old
    · rw [removal] at registers
      cases registers

theorem step_spared {action : Action} (safe : h.Safe) (spared : h.Spared) (taken : h.step action = some next) :
    next.Spared := by
  intro c n gone
  rcases step_unregistered taken gone with before | ⟨due, found⟩
  · exact spared c n before
  · exact safe c due n found

theorem due_unregisters {c : Callback} {n : Nat} (due : h.Due c) (found : h.entries c.entry = some n) (late : c.since ≤ n) :
    ∃ more final, run step h more = some final ∧ ¬ final.Spared := by
  have lost (at_ : Host) (listed : c ∈ at_.callbacks) (there : at_.entries c.entry = some n) :
      ∃ final, at_.step (.callback c) = some final ∧ ¬ final.Spared := by
    refine ⟨_, if_pos listed, fun spared => ?_⟩
    exact absurd (spared c n (List.mem_append_right _ (by simp [there]))) (Nat.not_lt.mpr late)
  rcases due with listed | ⟨target, listed, current, held⟩
  · obtain ⟨final, taken, loses⟩ := lost h listed found
    exact ⟨[.callback c], final, by rw [run_cons, taken]; rfl, loses⟩
  · obtain ⟨closed, finishes⟩ : ∃ closed, h.step (.finish target true) = some closed := ⟨_, if_pos listed⟩
    obtain ⟨-, -, -, -, entries, -, -, -, outcome⟩ := finish_some finishes
    have calls : c ∈ closed.callbacks := by
      rcases outcome with ⟨-, -, -, callbacks⟩ | ⟨other, -⟩
      · rw [callbacks, held]
        exact List.mem_append_right _ List.mem_cons_self
      · exact absurd ⟨rfl, current⟩ other
    obtain ⟨final, taken, loses⟩ := lost closed calls (entries ▸ found)
    exact ⟨[.finish target true, .callback c], final, by rw [run_cons, finishes, Option.bind_some, run_cons, taken]; rfl, loses⟩

theorem register_entry {i : StoreName} (accepted : h.accepts i = true) : (h.register i).entries i = some h.registered := by
  rw [register, if_pos accepted]
  exact Function.update_self i _ h.entries

theorem registered_due {action : Action} {c : Callback} (valid : h.Valid) (registers : h.registers action = some c.entry)
    (due : h.Due c) (taken : h.step action = some next) : next.Due c ∧ next.entries c.entry = some h.registered := by
  cases action with
  | add i sqlite answers closed =>
      cases taken
      rcases add_cases i sqlite answers closed h with ⟨none, -⟩ | ⟨own, accepted, outcome⟩
      · rw [none] at registers
        cases registers
      · obtain rfl : i = c.entry := Option.some.inj (own.symm.trans registers)
        rcases outcome with same | ⟨free, same⟩ <;> rw [same]
        · exact ⟨(due_register c.entry c).mpr due, register_entry accepted⟩
        · refine ⟨(due_register c.entry c).mpr (.inl ?_), register_entry (h := h.start (StoreName.key c.entry)) accepted⟩
          rcases due with listed | ⟨target, listed, current, held⟩
          · exact listed
          · rw [← valid.named target listed c held] at current
            exact absurd (AList.lookup_isSome.mp (by simp [current])) free
  | register i =>
      cases taken
      obtain ⟨accepted, same⟩ := Option.ite_none_right_eq_some.mp registers
      cases same
      exact ⟨(due_register c.entry c).mpr due, register_entry accepted⟩
  | _ => cases registers

theorem due_since {c : Callback} (valid : h.Valid) (due : h.Due c) : c.since ≤ h.registered := by
  rcases due with listed | ⟨target, listed, -, held⟩
  · exact valid.due c listed
  · exact valid.taken target listed c held

theorem valid_step (h : Host) (action : Action) (next : Host) (valid : h.Valid) (taken : h.step action = some next) :
    next.Valid :=
  step_valid valid taken

theorem removal_spares_waiting_registrations (path : List Action) :
    Always step Counted new path ∧ (Along step Waits new path → Always step Spared new path) ∧
      ∀ h action next, run step new path = some h → h.step action = some next → ¬ h.Waits action →
        ∃ more final, run step next more = some final ∧ ¬ final.Spared := by
  refine ⟨?_, fun waits => ?_, fun h action next reached taken early => ?_⟩
  · have always := always_invariant valid_step new_valid path
    exact always_mono (fun h valid => valid.counted) always
  · have keeps (h : Host) (action : Action) (next : Host) (holds : h.Valid ∧ h.Safe ∧ h.Spared) (waits : h.Waits action)
        (taken : h.step action = some next) : next.Valid ∧ next.Safe ∧ next.Spared :=
      ⟨step_valid holds.1 taken, step_safe holds.1 holds.2.1 waits taken, step_spared holds.2.1 holds.2.2 taken⟩
    have initial : new.Valid ∧ new.Safe ∧ new.Spared := by
      refine ⟨new_valid, fun c due => ?_, fun c n gone => nomatch gone⟩
      rcases due with listed | ⟨target, listed, -⟩
      · cases listed
      · cases listed
    exact always_mono (fun h holds => holds.2.2) (always_along keeps initial waits)
  · have valid : h.Valid := run_invariant valid_step new_valid reached
    obtain ⟨i, registers, c, due, rfl⟩ : ∃ i, h.registers action = some i ∧ h.Removing i := by
      simpa [Waits] using early
    obtain ⟨stays, found⟩ := registered_due valid registers due taken
    exact due_unregisters stays found (due_since valid due)

theorem closing_once (path : List Action) (h : Host) (reached : run step new path = some h) :
    (∀ name, name ∈ h.closingBridges ↔ ∃ target ∈ h.jobs, target.name = name) ∧ (h.jobs.map Target.name).Nodup ∧
      (∀ target ∈ h.jobs, ∀ c, target.onSuccess = some c → StoreName.key c.entry = target.name ∧ c.since ≤ h.registered) ∧
      (∀ target ∈ h.jobs, target.bridge < h.started) ∧ ∀ key srv, h.bridges.lookup key = some srv → srv < h.started := by
  have valid : h.Valid := run_invariant valid_step new_valid reached
  refine ⟨fun name => ⟨fun closing => ?_, ?_⟩, valid.distinct, fun target listed c held =>
    ⟨valid.named target listed c held, valid.taken target listed c held⟩, valid.earlier, valid.running⟩
  · have inside : h.jobs.map Target.name ⊆ h.closingBridges.keys := by
      intro other listed
      obtain ⟨target, member, rfl⟩ := List.mem_map.mp listed
      exact AList.mem_keys.mp (valid.marked target member)
    have enough : h.closingBridges.keys.length ≤ (h.jobs.map Target.name).length := by
      rw [List.length_map, valid.counted.2, valid.counted.1]
    have all := (List.subperm_of_subset valid.distinct inside).perm_of_length_le enough
    exact List.mem_map.mp (all.mem_iff.mpr (AList.mem_keys.mp closing))
  · rintro ⟨target, member, rfl⟩
    exact valid.marked target member

def files : StoreName := (.storage, lit "files")

theorem files_closing_once : ∃ h, run step new [.setRuntime true, .add files true true true, .remove files] = some h ∧
    StoreName.key files ∈ h.closingBridges :=
  ⟨_, rfl, ((closing_once [.setRuntime true, .add files true true true, .remove files] _ rfl).1 _).mpr
    ⟨⟨StoreName.key files, 0, some ⟨files, 1⟩⟩, by decide +kernel, rfl⟩⟩

def readded : List Action := [.add files false true true, .remove files, .callback ⟨files, 1⟩, .add files false true true]

theorem readded_spared : Always step Spared new readded :=
  (removal_spares_waiting_registrations readded).2.1 (by decide +kernel)

-- The removal has found no bridge and left the lock, and its call is still to come.
def readdedEarly : List Action := [.add files false true true, .remove files, .add files false true true, .callback ⟨files, 1⟩]

theorem readded_entry_lost : ¬ ∀ path h, run step new path = some h → h.Spared ∧ h.Counted := by
  intro spared
  have lost : (run step new readdedEarly).map (fun h => decide ((⟨files, 1⟩, some 1) ∈ h.unregistered)) = some true := by
    decide +kernel
  obtain ⟨h, reached, gone⟩ := Option.map_eq_some_iff.mp lost
  exact absurd ((spared readdedEarly h reached).1 ⟨files, 1⟩ 1 (of_decide_eq_true gone)) (Nat.lt_irrefl 1)

end Host

end Brainkit.Storage
