import Brainkit.Providers.Host

set_option autoImplicit false

namespace Brainkit.Providers

open Function (update)
open GoText Transition

def OperationPc.inside (pc : OperationPc) : Bool := decide (pc = .running)

def ProbePc.inside (pc : ProbePc) : Bool := decide (pc = .running)

namespace Host

variable {R : Type} {s next : Host R} {probeOnRegister : Bool}

structure Valid (s : Host R) : Prop where
  operations : s.operations.Valid fun n => (s.operation n).inside
  probes : s.probes.Valid fun i => (s.probe i).inside
  fresh : ∀ i, s.probeCount ≤ i → s.probe i = .unborn
  awaiting : ∀ k, s.close k = .awaitingOperations [] → s.probes.waiter = .done
  returned : ∀ k, s.close k = .returned [] → s.operations.waiter = .done ∧ s.probes.waiter = .done

theorem valid_start : (new : Host R).Valid where
  operations := Gate.valid_new
  probes := Gate.valid_new
  fresh _ _ := rfl
  awaiting _ here := nomatch here
  returned _ here := nomatch here

theorem put_valid (valid : s.Valid) (kind : EntryKind) (name : GoString) (entry : Entry R) : (s.put kind name entry).Valid :=
  { valid with }

theorem startProbe_valid (valid : s.Valid) (unclosed : s.probes.closed = false) : s.startProbe.Valid := by
  have fresh := valid.fresh s.probeCount (Nat.le_refl _)
  refine { valid with
    probes := Gate.valid_update (f := ProbePc.inside) s.probeCount .running
      (Gate.valid_enter valid.probes unclosed s.probeCount (by rw [fresh]; rfl))
    fresh := fun i above => ?_
    awaiting := valid.awaiting
    returned := valid.returned }
  change update s.probe s.probeCount .running i = .unborn
  rw [Function.update_of_ne (Nat.ne_of_gt above)]
  exact valid.fresh i (Nat.le_of_succ_le above)

theorem probeIf_valid (valid : s.Valid) (unclosed : s.probes.closed = false) (probe : Bool) : (s.probeIf probe).Valid := by
  cases probe with
  | false => exact valid
  | true => exact startProbe_valid valid unclosed

theorem register_valid (valid : s.Valid) {kind : EntryKind} {name : GoString} {reg : R}
    (taken : s.register probeOnRegister kind name reg = .ok next) : next.Valid := by
  unfold register at taken
  split at taken
  · cases taken
  · split at taken
    · cases taken
    · next unclosed =>
        cases taken
        exact probeIf_valid (put_valid valid kind name _) (Bool.eq_false_of_not_eq_true unclosed) _

theorem updateAIProvider_valid (valid : s.Valid) {name : GoString} {change : R → Except GoString R}
    (taken : s.updateAIProvider probeOnRegister name change = .ok next) : next.Valid := by
  unfold updateAIProvider at taken
  split at taken
  · cases taken
  · split at taken
    · cases taken
    · next unclosed =>
        split at taken
        · cases taken
          exact valid
        · split at taken
          · cases taken
          · cases taken
            exact probeIf_valid (put_valid valid .provider name _) (Bool.eq_false_of_not_eq_true unclosed) _

theorem attempted_valid (valid : s.Valid) {result : Except GoString (Host R)} (made : ∀ next, result = .ok next → next.Valid) :
    (s.attempted result).Valid := by
  cases result with
  | error err => exact valid
  | ok next => exact made next rfl

theorem updateProbeResult_valid (valid : s.Valid) (kind : EntryKind) (name : GoString) (healthy : Bool) (err : GoString) :
    (s.updateProbeResult kind name healthy err).Valid := by
  unfold updateProbeResult
  split
  · exact valid
  · exact put_valid valid kind name _

theorem beginOperation_valid (valid : s.Valid) {n : Nat} (unborn : s.operation n = .unborn) : (s.beginOperation n).Valid := by
  unfold beginOperation
  split
  · exact { valid with operations := Gate.valid_same (f := OperationPc.inside) valid.operations (by rw [unborn]; rfl) }
  · next unclosed =>
      exact { valid with
        operations := Gate.valid_update (f := OperationPc.inside) n .running
          (Gate.valid_enter valid.operations (Bool.eq_false_of_not_eq_true unclosed) n (by rw [unborn]; rfl))
        returned := valid.returned }

theorem done_valid (valid : s.Valid) {n : Nat} (running : s.operation n = .running) :
    ({ s with operations := s.operations.leave, operation := update s.operation n .returned } : Host R).Valid :=
  { valid with
    operations := Gate.valid_update (f := OperationPc.inside) n .returned (Gate.valid_leave valid.operations n (by rw [running]; rfl))
    returned := valid.returned }

theorem probeEnds_valid (valid : s.Valid) {i : Nat} (running : s.probe i = .running) :
    ({ s with probes := s.probes.leave, probe := update s.probe i .ended } : Host R).Valid where
  operations := valid.operations
  probes := Gate.valid_update (f := ProbePc.inside) i .ended (Gate.valid_leave valid.probes i (by rw [running]; rfl))
  fresh := fun j above => by
    have other : j ≠ i := by
      rintro rfl
      cases running.symm.trans (valid.fresh j above)
    exact (Function.update_of_ne other _ _).trans (valid.fresh j above)
  awaiting := valid.awaiting
  returned := valid.returned

theorem gates_valid (valid : s.Valid) {operations probes : Gate} (first : operations.Valid fun n => (s.operation n).inside)
    (second : probes.Valid fun i => (s.probe i).inside) (firstDone : s.operations.waiter = .done → operations.waiter = .done)
    (secondDone : s.probes.waiter = .done → probes.waiter = .done) :
    ({ s with operations := operations, probes := probes } : Host R).Valid where
  operations := first
  probes := second
  fresh := valid.fresh
  awaiting k here := secondDone (valid.awaiting k here)
  returned k here := ⟨firstDone (valid.returned k here).1, secondDone (valid.returned k here).2⟩

theorem setClose_valid (valid : s.Valid) {k : Nat} {pc : ClosePc} (awaiting : pc = .awaitingOperations [] → s.probes.waiter = .done)
    (returned : pc = .returned [] → s.operations.waiter = .done ∧ s.probes.waiter = .done) : (s.setClose k pc).Valid where
  operations := valid.operations
  probes := valid.probes
  fresh := valid.fresh
  awaiting := (Function.forall_update_iff s.close fun _ pc => pc = .awaitingOperations [] → s.probes.waiter = .done).mpr
    ⟨awaiting, fun k _ => valid.awaiting k⟩
  returned := (Function.forall_update_iff s.close fun _ pc => pc = .returned [] →
    s.operations.waiter = .done ∧ s.probes.waiter = .done).mpr ⟨returned, fun k _ => valid.returned k⟩

theorem step_valid (s : Host R) (action : Action R) (next : Host R) (valid : s.Valid)
    (taken : step probeOnRegister s action = some next) : next.Valid := by
  cases action with
  | beginOperation n =>
      obtain ⟨unborn, result⟩ := Option.ite_none_right_eq_some.mp taken
      cases result
      exact beginOperation_valid valid unborn
  | done n =>
      obtain ⟨running, result⟩ := Option.ite_none_right_eq_some.mp taken
      cases result
      exact done_valid valid running
  | register kind name reg =>
      cases taken
      exact attempted_valid valid fun next made => register_valid valid made
  | updateAIProvider name change =>
      cases taken
      exact attempted_valid valid fun next made => updateAIProvider_valid valid made
  | unregister kind name =>
      cases taken
      exact { valid with }
  | updateProbeResult kind name healthy err =>
      cases taken
      exact updateProbeResult_valid valid kind name healthy err
  | probeEnds i =>
      obtain ⟨running, result⟩ := Option.ite_none_right_eq_some.mp taken
      cases result
      exact probeEnds_valid valid running
  | close k =>
      obtain ⟨-, result⟩ := Option.ite_none_right_eq_some.mp taken
      cases result
      exact setClose_valid (gates_valid valid (Gate.valid_close valid.operations) valid.probes Gate.close_done id) nofun nofun
  | closeRegistry k =>
      obtain ⟨-, result⟩ := Option.ite_none_right_eq_some.mp taken
      cases result
      exact setClose_valid (gates_valid valid valid.operations (Gate.valid_close valid.probes) id Gate.close_done) nofun nofun
  | probesClosed k =>
      obtain ⟨⟨-, done⟩, result⟩ := Option.ite_none_right_eq_some.mp taken
      cases result
      exact setClose_valid valid (fun _ => done) nofun
  | probesExpired k =>
      obtain ⟨-, result⟩ := Option.ite_none_right_eq_some.mp taken
      cases result
      exact setClose_valid valid nofun nofun
  | operationsClosed k =>
      dsimp only [step] at taken
      split at taken
      · next err here =>
          obtain ⟨done, result⟩ := Option.ite_none_right_eq_some.mp taken
          cases result
          refine setClose_valid valid nofun fun same => ⟨done, valid.awaiting k ?_⟩
          cases same
          exact here
      · cases taken
  | operationsExpired k =>
      dsimp only [step] at taken
      split at taken
      · next err here =>
          cases taken
          exact setClose_valid valid nofun fun same => absurd (ClosePc.returned.inj same) (by simp)
      · cases taken
  | operationsWaited =>
      obtain ⟨gate, passed, result⟩ := Option.map_eq_some_iff.mp taken
      cases result
      exact gates_valid valid (Gate.valid_pass valid.operations passed) valid.probes
        (fun done => absurd done (Gate.pass_done passed)) id
  | operationsDone =>
      obtain ⟨gate, finished, result⟩ := Option.map_eq_some_iff.mp taken
      cases result
      exact gates_valid valid (Gate.valid_finish valid.operations finished) valid.probes (fun _ => Gate.finish_done finished) id
  | probesWaited =>
      obtain ⟨gate, passed, result⟩ := Option.map_eq_some_iff.mp taken
      cases result
      exact gates_valid valid valid.operations (Gate.valid_pass valid.probes passed) id fun done => absurd done (Gate.pass_done passed)
  | probesDone =>
      obtain ⟨gate, finished, result⟩ := Option.map_eq_some_iff.mp taken
      cases result
      exact gates_valid valid valid.operations (Gate.valid_finish valid.probes finished) id fun _ => Gate.finish_done finished

theorem register_closed (closed : s.probes.closed = true) (kind : EntryKind) (name : GoString) (reg : R) :
    ∃ err, s.register probeOnRegister kind name reg = .error err := by
  simp only [register, closed, if_true]
  split <;> exact ⟨_, rfl⟩

theorem update_closed (closed : s.probes.closed = true) (name : GoString) (change : R → Except GoString R) :
    ∃ err, s.updateAIProvider probeOnRegister name change = .error err := by
  simp only [updateAIProvider, closed, if_true]
  split <;> exact ⟨_, rfl⟩

theorem valid_quiet (valid : s.Valid) {k : Nat} (closed : s.close k = .returned []) : s.Quiet probeOnRegister := by
  obtain ⟨operationsDone, probesDone⟩ := valid.returned k closed
  have shut := Gate.drained_closed valid.probes probesDone
  exact {
    operation := fun n => of_decide_eq_false (Gate.drained_nobody valid.operations operationsDone n)
    probe := fun i => of_decide_eq_false (Gate.drained_nobody valid.probes probesDone i)
    register := register_closed shut
    update := update_closed shut }

theorem closed_quiet (probeOnRegister : Bool) (s : Host R) (reached : Reachable (step probeOnRegister) new s) (k : Nat)
    (closed : s.close k = .returned []) : s.Quiet probeOnRegister :=
  valid_quiet (reachable_invariant step_valid valid_start reached) closed

def busyClose : List (Action Nat) :=
  [.register .provider (lit "openai") 1, .beginOperation 0, .close 0, .closeRegistry 0, .probesExpired 0, .operationsExpired 0,
    .beginOperation 1, .close 1, .done 0, .operationsWaited, .operationsDone, .closeRegistry 1, .probeEnds 0, .probesWaited,
    .probesDone, .probesClosed 1, .operationsClosed 1]

theorem busyClose_quiet : ∃ s : Host Nat, Reachable (step true) new s ∧ s.close 0 = .returned [.probes, .operations] ∧
    s.close 1 = .returned [] ∧ s.Quiet true := by
  obtain ⟨s, reached, checked⟩ := reachable_checked busyClose
    (fun s : Host Nat => decide (s.close 0 = .returned [.probes, .operations] ∧ s.close 1 = .returned []))
    (show (run (step true) new busyClose).map _ = _ by decide +kernel)
  obtain ⟨first, second⟩ := of_decide_eq_true checked
  exact ⟨s, reached, first, second, closed_quiet true s reached 1 second⟩

-- UnregisterAIProvider does not look at the closed flag.
theorem closed_removes : ¬ ∀ (s next : Host Nat) (k : Nat) (kind : EntryKind) (name : GoString), Reachable (step true) new s →
    s.close k = .returned [] → step true s (.unregister kind name) = some next → next.entries kind = s.entries kind := by
  intro refused
  obtain ⟨s, reached, checked⟩ := reachable_checked busyClose
    (fun s : Host Nat => decide (s.close 1 = .returned [] ∧ lit "openai" ∈ s.entries .provider))
    (show (run (step true) new busyClose).map _ = _ by decide +kernel)
  obtain ⟨closed, listed⟩ := of_decide_eq_true checked
  have same : (s.unregister .provider (lit "openai")).entries .provider = s.entries .provider :=
    refused s _ 1 .provider (lit "openai") reached closed rfl
  simp only [unregister, Function.update_self] at same
  rw [← same, AList.mem_erase] at listed
  exact listed.1 rfl

end Host

end Brainkit.Providers
