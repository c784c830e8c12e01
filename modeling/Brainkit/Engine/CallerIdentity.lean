import Brainkit.Engine.CurrentSource

set_option autoImplicit false

namespace Brainkit.Engine.JSRuntime

open GoText Transport Transition

variable {P : Type}

def Names (source : GoString) (msg : BusMessage P) : Prop :=
  msg.metadata callerKind = some (lit "deployment") ∧ msg.metadata callerSource = some source

-- A call whose goroutine comes to read the source now is published under the deployment that has issued it.
def Due (k : Kernel P) (s : JSRuntime P) (source : GoString) (op : BusOp P) : Prop :=
  ∀ msg, k.perform (op.read s.currentSource) = .ok msg → Names source msg

-- What deployments have called is published under their sources, and what they are calling will be.
structure Stamped (k : Kernel P) (s : JSRuntime P) : Prop where
  published : ∀ source msg, (.deployment source, msg) ∈ s.published → Names source msg
  due : ∀ source op, (.deployment source, op) ∈ s.calls → s.Due k source op

-- No call of a deployment is outstanding that would find another source in the slot.
def Spared (s : JSRuntime P) (value : GoString) : Prop :=
  ∀ source op, (.deployment source, op) ∈ s.calls → trimSpace value = source

-- Code of a deployment calls only while the slot holds its source, and the slot is not set to another value while a
-- call is outstanding.
def Undisturbed (k : Kernel P) (s : JSRuntime P) : Action P → Prop
  | .deploy source => trimSpace source ≠ [] → s.Spared source
  | .returned => s.Spared []
  | .handle i => ∀ sub, s.subscriptions[i]? = some sub → s.Spared sub.source
  | .leave => ∀ frame rest, s.frames = frame :: rest → frame.kind = .handler → s.Spared []
  | .call op => ∀ source msg, s.running = some (.deployment source) → k.perform op = .ok msg →
      trimSpace s.currentSource = source
  | _ => True

structure Valid (k : Kernel P) (s : JSRuntime P) : Prop where
  deployed : ∀ source ∈ s.deployed, source ≠ []
  lifecycle : ∀ source evaluated, s.lifecycle = some (source, evaluated) → source ≠ []
  running : ∀ code, s.running = some code → s.Known code
  frames : ∀ frame ∈ s.frames, ∀ code, frame.resumes = some code → s.Known code
  subscriptions : ∀ sub ∈ s.subscriptions, s.Known sub.owner
  calls : ∀ entry ∈ s.calls, s.Known entry.1
  accepted : ∀ entry ∈ s.calls, entry.2.current.isSome ∧ ∃ msg, k.perform entry.2 = .ok msg

variable {k : Kernel P} {s : JSRuntime P}

theorem perform_read {op : BusOp P} (calls : op.current.isSome) {msg : BusMessage P} (accepted : k.perform op = .ok msg)
    (current : GoString) : ∃ inbox topic payload id cfg, k.perform (op.read current) = .ok (k.request inbox cfg topic payload id) ∧
      cfg.metadata = (callerCfg cfg.targetNamespace current).metadata := by
  have configured (targetNS : GoString) : (callerCfg targetNS current).targetNamespace = targetNS := by
    by_cases blank : trimSpace current = []
    · simp [callerCfg, blank]
    · simp [callerCfg, blank]
  cases op with
  | send topic payload id => cases calls
  | publish topic payload id => cases calls
  | emit topic payload id => cases calls
  | call topic payload targetNS timeoutMs old id =>
      simp only [Kernel.perform] at accepted
      split at accepted
      · cases accepted
      split at accepted
      · cases accepted
      split at accepted
      · cases accepted
      next given timed _ inbox found =>
        refine ⟨inbox, topic, payload, id, callerCfg targetNS current, ?_, by rw [configured]⟩
        simp only [BusOp.read, Kernel.perform, if_neg given, if_neg timed, found]
  | callStream topic payload targetNS timeoutMs streamID bufferSize bufferPolicy old id =>
      simp only [Kernel.perform] at accepted
      split at accepted
      · cases accepted
      split at accepted
      · cases accepted
      split at accepted
      · cases accepted
      split at accepted
      · cases accepted
      split at accepted
      · cases accepted
      split at accepted
      · cases accepted
      next given timed streamed sized _ policy parsed _ inbox found =>
        refine ⟨inbox, topic, payload, id, busCallerCfg targetNS current bufferSize policy, ?_, by rw [busCallerCfg, configured]⟩
        simp only [BusOp.read, Kernel.perform, if_neg given, if_neg timed, if_neg streamed, if_neg sized, parsed, found]

theorem request_metadata (inbox : GoString) (cfg : CallerConfig) (topic : GoString) (payload : P) (id key : GoString)
    (unstamped : key ∉ Sender.stamped) : (k.request inbox cfg topic payload id).metadata key = cfg.metadata key := by
  unfold Kernel.request
  split
  · exact Sender.publish_raw_unstamped k.remote _ topic payload id unstamped
  · exact Sender.publish_raw_unstamped k.remote _ topic payload id unstamped

theorem due_iff {op : BusOp P} {source : GoString} (calls : op.current.isSome) (accepted : ∃ msg, k.perform op = .ok msg)
    (given : source ≠ []) : s.Due k source op ↔ trimSpace s.currentSource = source := by
  obtain ⟨_, accepted⟩ := accepted
  obtain ⟨inbox, topic, payload, id, cfg, performs, metadata⟩ := perform_read calls accepted s.currentSource
  have named : s.Due k source op ↔ Names source (k.request inbox cfg topic payload id) := by
    constructor
    · exact fun due => due _ performs
    · intro names msg same
      cases performs.symm.trans same
      exact names
  rw [named, Names, request_metadata inbox cfg topic payload id callerKind (by decide),
    request_metadata inbox cfg topic payload id callerSource (by decide), metadata]
  by_cases blank : trimSpace s.currentSource = []
  · simp [callerCfg, blank, Metadata.empty, given.symm]
  · have other : callerKind ≠ callerSource := by decide
    simp [callerCfg, blank, Metadata.set, other]

theorem entry_due_iff (valid : s.Valid k) {source : GoString} {op : BusOp P} (member : (.deployment source, op) ∈ s.calls) :
    s.Due k source op ↔ trimSpace s.currentSource = source := by
  obtain ⟨calls, accepted⟩ := valid.accepted _ member
  exact due_iff calls accepted (valid.deployed source (valid.calls _ member))

theorem set_stamped_iff (next : JSRuntime P) (valid : s.Valid k) (stamped : s.Stamped k) (calls : next.calls = s.calls)
    (published : next.published = s.published) : next.Stamped k ↔ s.Spared next.currentSource := by
  have exactly {source : GoString} {op : BusOp P} (member : (.deployment source, op) ∈ s.calls) :
      next.Due k source op ↔ trimSpace next.currentSource = source := by
    obtain ⟨calls, accepted⟩ := valid.accepted _ member
    exact due_iff calls accepted (valid.deployed source (valid.calls _ member))
  constructor
  · exact fun after source op member => (exactly member).mp (after.due source op (calls ▸ member))
  · intro spared
    constructor
    · rw [published]
      exact stamped.published
    · intro source op member
      rw [calls] at member
      exact (exactly member).mpr (spared source op member)

theorem spared_current (valid : s.Valid k) (stamped : s.Stamped k) : s.Spared s.currentSource :=
  fun source op member => (entry_due_iff valid member).mp (stamped.due source op member)

theorem same_stamped {next : JSRuntime P} (valid : s.Valid k) (stamped : s.Stamped k) (calls : next.calls = s.calls)
    (published : next.published = s.published) (slot : next.currentSource = s.currentSource) : next.Stamped k := by
  refine (set_stamped_iff next valid stamped calls published).mpr ?_
  rw [slot]
  exact spared_current valid stamped

theorem call_stamped_iff (stamped : s.Stamped k) (valid : s.Valid k) {code : Code} (here : s.running = some code) {op : BusOp P}
    (calls : op.current.isSome) : (s.call k code op).Stamped k ↔ s.Undisturbed k (.call op) := by
  unfold call
  split
  next err refused =>
    exact iff_of_true stamped fun source msg _ accepted => nomatch refused.symm.trans accepted
  next msg accepted =>
    have exactly (source : GoString) (same : code = .deployment source) :
        s.Due k source op ↔ trimSpace s.currentSource = source := by
      have known := valid.running code here
      rw [same] at known
      exact due_iff calls ⟨msg, accepted⟩ (valid.deployed source known)
    constructor
    · intro after source other same _
      rw [here, Option.some.injEq] at same
      refine (exactly source same).mp (after.due source op ?_)
      exact List.mem_append_right _ (by rw [same]; exact List.mem_singleton_self _)
    · intro allowed
      refine ⟨stamped.published, fun source other member => ?_⟩
      cases List.mem_append.mp member with
      | inl before => exact stamped.due source other before
      | inr new =>
          cases List.mem_singleton.mp new
          exact (exactly source rfl).mpr (allowed source msg here accepted)

theorem read_stamped (stamped : s.Stamped k) {i : Nat} {code : Code} {op : BusOp P} (listed : s.calls[i]? = some (code, op)) :
    (s.read k i code op).Stamped k := by
  have fewer {entry : Code × BusOp P} (member : entry ∈ s.calls.eraseIdx i) : entry ∈ s.calls := List.mem_of_mem_eraseIdx member
  unfold read
  split
  · exact ⟨stamped.published, fun source other member => stamped.due source other (fewer member)⟩
  next msg sent =>
    refine ⟨fun source other member => ?_, fun source other member => stamped.due source other (fewer member)⟩
    cases List.mem_append.mp member with
    | inl before => exact stamped.published source other before
    | inr new =>
        cases List.mem_singleton.mp new
        exact stamped.due source op (List.mem_of_getElem? listed) msg sent

theorem valid_new : (new : JSRuntime P).Valid k where
  deployed _ member := absurd member List.not_mem_nil
  lifecycle := nofun
  running := nofun
  frames _ member := absurd member List.not_mem_nil
  subscriptions _ member := absurd member List.not_mem_nil
  calls _ member := absurd member List.not_mem_nil
  accepted _ member := absurd member List.not_mem_nil

theorem stamped_new : (new : JSRuntime P).Stamped k :=
  ⟨fun _ _ member => absurd member List.not_mem_nil, fun _ _ member => absurd member List.not_mem_nil⟩

theorem given_of_trimmed {source : GoString} (given : trimSpace source ≠ []) : source ≠ [] := by
  rintro rfl
  exact given rfl

theorem deploy_valid (valid : s.Valid k) (source : GoString) : (s.deploy source).Valid k := by
  unfold deploy
  split
  · exact valid
  next given =>
    refine { valid with lifecycle := fun other evaluated same => ?_ }
    cases same
    exact given_of_trimmed given

theorem evaluate_valid (valid : s.Valid k) {source : GoString} (given : source ≠ []) : (s.evaluate source).Valid k := by
  have still (code : Code) (known : s.Known code) : (s.evaluate source).Known code := by
    cases code with
    | direct => exact trivial
    | deployment other => exact List.mem_append_left _ known
  constructor
  · intro other member
    cases List.mem_append.mp member with
    | inl before => exact valid.deployed other before
    | inr new => exact List.mem_singleton.mp new ▸ given
  · intro other evaluated same
    cases same
    exact given
  · intro code same
    cases same
    exact List.mem_append_right _ (List.mem_singleton_self _)
  · intro frame member code resumes
    cases member with
    | head => exact still code (valid.running code resumes)
    | tail _ before => exact still code (valid.frames frame before code resumes)
  · exact fun sub member => still _ (valid.subscriptions sub member)
  · exact fun entry member => still _ (valid.calls entry member)
  · exact valid.accepted

theorem pushed_valid (valid : s.Valid k) {code : Code} (known : s.Known code) (slot : GoString) (kind : FrameKind)
    {resumes : Option Code} (interrupted : ∀ before, resumes = some before → s.Known before) :
    Valid k { s with currentSource := slot, frames := ⟨kind, resumes⟩ :: s.frames, running := some code } := by
  refine { valid with running := fun other same => ?_, frames := fun frame member other resumes => ?_ }
  · cases same
    exact known
  · cases member with
    | head => exact interrupted other resumes
    | tail _ before => exact valid.frames frame before other resumes

theorem call_valid (valid : s.Valid k) {code : Code} (here : s.running = some code) {op : BusOp P} (calls : op.current.isSome) :
    (s.call k code op).Valid k := by
  unfold call
  split
  · exact valid
  next msg accepted =>
    refine { valid with calls := fun entry member => ?_, accepted := fun entry member => ?_ }
    · cases List.mem_append.mp member with
      | inl before => exact valid.calls entry before
      | inr new =>
          cases List.mem_singleton.mp new
          exact valid.running code here
    · cases List.mem_append.mp member with
      | inl before => exact valid.accepted entry before
      | inr new =>
          cases List.mem_singleton.mp new
          exact ⟨calls, msg, accepted⟩

theorem read_valid (valid : s.Valid k) (i : Nat) (code : Code) (op : BusOp P) : (s.read k i code op).Valid k := by
  unfold read
  split
  · exact { valid with
      calls := fun entry member => valid.calls entry (List.mem_of_mem_eraseIdx member)
      accepted := fun entry member => valid.accepted entry (List.mem_of_mem_eraseIdx member) }
  · exact { valid with
      calls := fun entry member => valid.calls entry (List.mem_of_mem_eraseIdx member)
      accepted := fun entry member => valid.accepted entry (List.mem_of_mem_eraseIdx member) }

theorem step_valid {next : JSRuntime P} (valid : s.Valid k) (action : Action P) (taken : step k s action = some next) :
    next.Valid k := by
  cases action with
  | deploy source =>
      obtain ⟨_, same⟩ := Option.ite_none_right_eq_some.mp taken
      cases same
      exact deploy_valid valid source
  | evaluate =>
      dsimp only [step] at taken
      split at taken
      next source here =>
        cases taken
        exact evaluate_valid valid (valid.lifecycle source false here)
      · cases taken
  | returned =>
      obtain ⟨entry, here, rfl⟩ := Option.map_eq_some_iff.mp taken
      exact { valid with lifecycle := nofun }
  | loop =>
      obtain ⟨_, same⟩ := Option.ite_none_right_eq_some.mp taken
      cases same
      refine { valid with frames := fun frame member code resumes => ?_ }
      cases List.mem_singleton.mp member
      cases resumes
  | run code =>
      obtain ⟨known, same⟩ := Option.ite_none_right_eq_some.mp taken
      cases same
      exact pushed_valid valid known s.currentSource .evaluation valid.running
  | handle i =>
      obtain ⟨_, same⟩ := Option.ite_none_right_eq_some.mp taken
      obtain ⟨sub, listed, rfl⟩ := Option.map_eq_some_iff.mp same
      exact pushed_valid valid (valid.subscriptions sub (List.mem_of_getElem? listed)) sub.source .handler nofun
  | resume code =>
      obtain ⟨known, same⟩ := Option.ite_none_right_eq_some.mp taken
      cases same
      refine { valid with running := fun other same => ?_ }
      cases same
      exact known.2.2
  | yield =>
      obtain ⟨code, here, rfl⟩ := Option.map_eq_some_iff.mp taken
      exact { valid with running := nofun }
  | leave =>
      dsimp only [step] at taken
      split at taken
      next frame rest idle under =>
        cases taken
        refine { valid with running := fun code resumes => ?_, frames := fun other member => ?_ }
        · exact valid.frames frame (under ▸ List.mem_cons_self) code resumes
        · exact valid.frames other (under ▸ List.mem_cons_of_mem frame member)
      · cases taken
  | subscribe =>
      obtain ⟨code, here, rfl⟩ := Option.map_eq_some_iff.mp taken
      refine { valid with subscriptions := fun sub member => ?_ }
      cases List.mem_append.mp member with
      | inl before => exact valid.subscriptions sub before
      | inr new =>
          cases List.mem_singleton.mp new
          exact valid.running code here
  | call op =>
      obtain ⟨calls, same⟩ := Option.ite_none_right_eq_some.mp taken
      obtain ⟨code, here, rfl⟩ := Option.map_eq_some_iff.mp same
      exact call_valid valid here calls
  | read i =>
      obtain ⟨entry, listed, rfl⟩ := Option.map_eq_some_iff.mp taken
      exact read_valid valid i entry.1 entry.2

theorem step_stamped_iff {next : JSRuntime P} (valid : s.Valid k) (stamped : s.Stamped k) (action : Action P)
    (taken : step k s action = some next) : next.Stamped k ↔ s.Undisturbed k action := by
  have kept (calls : next.calls = s.calls) (published : next.published = s.published)
      (slot : next.currentSource = s.currentSource) : next.Stamped k := same_stamped valid stamped calls published slot
  cases action with
  | deploy source =>
      obtain ⟨_, same⟩ := Option.ite_none_right_eq_some.mp taken
      cases same
      by_cases blank : trimSpace source = []
      · rw [deploy, if_pos blank]
        exact iff_of_true stamped fun given => absurd blank given
      · rw [deploy, if_neg blank]
        exact Iff.trans (set_stamped_iff _ valid stamped rfl rfl) ⟨fun spared _ => spared, fun spared => spared blank⟩
  | evaluate =>
      dsimp only [step] at taken
      split at taken
      · cases taken
        exact iff_of_true (kept rfl rfl rfl) trivial
      · cases taken
  | returned =>
      obtain ⟨entry, here, rfl⟩ := Option.map_eq_some_iff.mp taken
      exact set_stamped_iff _ valid stamped rfl rfl
  | loop =>
      obtain ⟨_, same⟩ := Option.ite_none_right_eq_some.mp taken
      cases same
      exact iff_of_true (kept rfl rfl rfl) trivial
  | run code =>
      obtain ⟨_, same⟩ := Option.ite_none_right_eq_some.mp taken
      cases same
      exact iff_of_true (kept rfl rfl rfl) trivial
  | handle i =>
      obtain ⟨_, same⟩ := Option.ite_none_right_eq_some.mp taken
      obtain ⟨sub, listed, rfl⟩ := Option.map_eq_some_iff.mp same
      refine (set_stamped_iff (s.handle sub) valid stamped rfl rfl).trans ⟨fun spared other same => ?_,
        fun spared => spared sub listed⟩
      cases listed.symm.trans same
      exact spared
  | resume code =>
      obtain ⟨_, same⟩ := Option.ite_none_right_eq_some.mp taken
      cases same
      exact iff_of_true (kept rfl rfl rfl) trivial
  | yield =>
      obtain ⟨code, here, rfl⟩ := Option.map_eq_some_iff.mp taken
      exact iff_of_true (kept rfl rfl rfl) trivial
  | leave =>
      dsimp only [step] at taken
      split at taken
      next frame rest idle under =>
        cases taken
        have asks : s.Undisturbed k .leave ↔ (frame.kind = .handler → s.Spared []) := by
          constructor
          · exact fun spared => spared frame rest under
          · intro spared other _ same
            cases under.symm.trans same
            exact spared
        rw [asks]
        by_cases handles : frame.kind = .handler
        · have slot : (s.leave frame rest).currentSource = [] := if_pos handles
          rw [set_stamped_iff (s.leave frame rest) valid stamped rfl rfl, slot]
          exact ⟨fun spared _ => spared, fun spared => spared handles⟩
        · exact iff_of_true (kept rfl rfl (if_neg handles)) fun same => absurd same handles
      · cases taken
  | subscribe =>
      obtain ⟨code, here, rfl⟩ := Option.map_eq_some_iff.mp taken
      exact iff_of_true (kept rfl rfl rfl) trivial
  | call op =>
      obtain ⟨calls, same⟩ := Option.ite_none_right_eq_some.mp taken
      obtain ⟨code, here, rfl⟩ := Option.map_eq_some_iff.mp same
      exact call_stamped_iff stamped valid here calls
  | read i =>
      obtain ⟨entry, listed, rfl⟩ := Option.map_eq_some_iff.mp taken
      exact iff_of_true (read_stamped stamped listed) trivial

theorem always_stamped_iff (k : Kernel P) {path : List (Action P)} {final : JSRuntime P}
    (reached : run (step k) new path = some final) :
    Always (step k) (Stamped k) new path ↔ Along (step k) (Undisturbed k) new path :=
  always_iff_along (fun _ action _ valid taken => step_valid valid action taken)
    (fun _ action _ valid stamped taken => step_stamped_iff valid stamped action taken) valid_new stamped_new reached

def plain : Kernel Unit where
  remote := ⟨.memory, lit "main", lit "main", [], []⟩
  catalog := .empty
  event _ _ := none
  inbox := some (lit "_brainkit.inbox.main")

def asking : BusOp Unit := .call (lit "tools.ask") () [] 1000 [] (lit "id")

def deploying (source : String) : List (Action Unit) :=
  [.deploy (lit source), .evaluate, .subscribe, .yield, .leave, .returned]

theorem nobody_spared {value : GoString} (none : s.calls = []) : s.Spared value := by
  intro source op member
  rw [none] at member
  cases member

-- A handler that calls while it runs alone, and ends after its call has been published.
theorem lone_handler_stamped :
    Always (step plain) (Stamped plain) new (deploying "a.ts" ++ [.loop, .handle 0, .call asking, .read 0, .yield, .leave]) := by
  refine (always_stamped_iff plain rfl).mpr ?_
  refine along_cons (fun _ => nobody_spared rfl) rfl (along_cons trivial rfl (along_cons trivial rfl (along_cons trivial rfl
    (along_cons (fun _ _ _ _ => nobody_spared rfl) rfl (along_cons (nobody_spared rfl) rfl (along_cons trivial rfl
    (along_cons (fun _ _ => nobody_spared rfl) rfl (along_cons ?_ rfl (along_cons trivial rfl (along_cons trivial rfl
    (along_cons (fun _ _ _ _ => nobody_spared rfl) rfl trivial)))))))))))
  intro source msg here _
  cases here
  decide

-- The handler of a.ts is suspended, the handler of b.ts begins, and a.ts goes on with a call.
theorem suspended_stamped_as_other : ∃ s msg,
    run (step plain) new (deploying "a.ts" ++ deploying "b.ts" ++
      [.loop, .handle 0, .yield, .handle 1, .yield, .resume (.deployment (lit "a.ts")), .call asking, .read 0]) = some s ∧
    (.deployment (lit "a.ts"), msg) ∈ s.published ∧ msg.metadata callerSource = some (lit "b.ts") ∧ ¬ s.Stamped plain := by
  refine ⟨_, _, rfl, List.mem_singleton_self _, by decide, fun stamped => ?_⟩
  have named := (stamped.published (lit "a.ts") _ (List.mem_singleton_self _)).2
  revert named
  decide

end Brainkit.Engine.JSRuntime
