import Brainkit.Mcp.Manager

set_option autoImplicit false

namespace Brainkit.Mcp.Manager

open GoText Transition
open Function (update)
open Brainkit.Modules (Table lookup_erase_sub)

def Registered (s : Manager) (c : Nat) : Prop := ∃ name, s.clients.lookup name = some c

def Held (s : Manager) (c : Nat) : Prop := (∃ name, s.calls c = .created name) ∨ ∃ name, s.calls c = .initialized name

def Closing (s : Manager) (c : Nat) : Prop := s.client c = .closing ∨ s.client c = .closed ∨ s.client c = .failed

def NoError (heard : List Heard) : Prop := ∀ h ∈ heard, h.answer = .result none

def Answered (jobs : Nat → Option Job) (heard : List Heard) : Prop :=
  ∀ h ∈ heard, ∀ err, h.answer = .result err → ∃ job, jobs h.wait.done = some job ∧ job.name = h.wait.name ∧
    job.phase.outcome = some err

def heardBy : CloseMu → List Heard
  | .free => []
  | .locked _ _ => []
  | .active _ _ _ _ heard => heard
  | .leaving _ _ heard => heard

structure Claimed (s : Manager) : Prop where
  unique : ∀ name c c', (name, c) ∈ s.registered → (name, c') ∈ s.registered → c = c'
  conserved : ∀ c, s.client c ≠ .absent → s.Registered c ∨ s.Closing c
  answered : ∀ h ∈ heardBy s.closeMu, ∃ job err, s.jobs h.wait.done = some job ∧ job.phase.outcome = some err ∧
    h.answer = .result err
  shut : ∀ call heard, s.closes call = .returned .closeContext heard → NoError heard →
    s.registered = [] ∧ ∀ c, s.client c = .absent ∨ s.client c = .closed

structure Sound (s : Manager) : Prop where
  unique : ∀ name c c', (name, c) ∈ s.registered → (name, c') ∈ s.registered → c = c'
  conserved : ∀ c, s.client c ≠ .absent → s.Registered c ∨ s.Held c ∨ s.Closing c
  answered : Answered s.jobs (heardBy s.closeMu)
  returned : ∀ call closer heard, s.closes call = .returned closer heard → Answered s.jobs heard
  waiting : ∀ call closer targets waits heard, s.closeMu = .active call closer targets waits heard → ∀ wait ∈ waits,
    ∃ job, s.jobs wait.done = some job ∧ job.name = wait.name ∧ (job.phase.Posted → job.buffer = job.phase.outcome)
  shut : ∀ call heard, s.closes call = .returned .closeContext heard → NoError heard →
    s.registered = [] ∧ s.closed = true ∧ ∀ c, s.client c ≠ .absent →
      s.client c = .closed ∨ s.Held c ∨ s.calls c = .discarding ∨ s.calls c = .discarded ∧ s.client c = .failed

def EntryOk (jobs : Nat → Option Job) (entry : Entry) (name : GoString) (c : Nat) : Prop :=
  entry.closing = false ∨ ∃ j job, entry = ⟨true, some j⟩ ∧ jobs j = some job ∧ job.name = name ∧ job.client = c ∧
    ¬ job.phase.Finished

structure JobOk (calls : Nat → Call) (client : Nat → Client) (clients : Table Nat) (entries : Nat → Entry) (j : Nat) (job : Job) :
    Prop where
  owner : calls job.client = .connected job.name
  busy : ¬ job.phase.Finished → clients.lookup job.name = some job.client ∧ entries job.client = ⟨true, some j⟩
  closed : job.phase = .returned none → client job.client = .closed
  gone : job.phase.Finished → job.phase.outcome = some none → clients.lookup job.name ≠ some job.client
  buffer : job.buffer ≠ none → job.phase.Posted ∧ job.buffer = job.phase.outcome

structure WaitOk (clients : Table Nat) (jobs : Nat → Option Job) (wait : CloseWait) (job : Job) : Prop where
  found : jobs wait.done = some job
  name : job.name = wait.name
  only : ∀ c, clients.lookup wait.name = some c → c = job.client
  unread : job.phase.Posted → job.buffer = job.phase.outcome

structure ActiveOk (clients : Table Nat) (jobs : Nat → Option Job) (closing closed : Bool) (closer : Closer)
    (targets : List (GoString × Nat)) (waits : List CloseWait) (heard : List Heard) : Prop where
  closing : closing = true
  names : (targets.map Prod.fst ++ waits.map CloseWait.name).Nodup
  target : ∀ target ∈ targets, ∀ c, clients.lookup target.1 = some c → c = target.2
  wait : ∀ wait ∈ waits, ∃ job, WaitOk clients jobs wait job
  closed : closer = .closeContext → closed = true
  covered : closer = .closeContext → ∀ name ∈ clients,
    name ∈ targets.map Prod.fst ∨ name ∈ waits.map CloseWait.name ∨ ¬ NoError heard

def Ended (clients : Table Nat) (closed : Bool) (closer : Closer) (heard : List Heard) : Prop :=
  closer = .closeContext → NoError heard → clients = ∅ ∧ closed = true

def Settled (calls : Nat → Call) (client : Nat → Client) (clients : Table Nat) (c : Nat) : Prop :=
  (∃ name, calls c = .created name) ∨ (∃ name, calls c = .initialized name) ∨ calls c = .discarding ∨
    (∃ name, calls c = .connected name ∧ (clients.lookup name = some c ∨ client c = .closed)) ∨
    calls c = .discarded ∧ (client c = .closed ∨ client c = .failed)

structure Valid (s : Manager) : Prop where
  named : ∀ name c, s.clients.lookup name = some c → s.calls c = .connected name
  entry : ∀ name c, s.clients.lookup name = some c → EntryOk s.jobs (s.entries c) name c
  job : ∀ j job, s.jobs j = some job → JobOk s.calls s.client s.clients s.entries j job
  fresh : ∀ j, s.started ≤ j → s.jobs j = none
  discarding : ∀ c, s.calls c = .discarding → s.client c = .closing
  settled : ∀ c, s.client c ≠ .absent → Settled s.calls s.client s.clients c
  active : ∀ call closer targets waits heard, s.closeMu = .active call closer targets waits heard →
    ActiveOk s.clients s.jobs s.closing s.closed closer targets waits heard
  leaving : ∀ call closer heard, s.closeMu = .leaving call closer heard → Ended s.clients s.closed closer heard
  answered : Answered s.jobs (heardBy s.closeMu)
  back : ∀ call closer heard, s.closes call = .returned closer heard →
    Answered s.jobs heard ∧ Ended s.clients s.closed closer heard

variable {s next : Manager}

theorem valid_new : new.Valid where
  named _ _ found := by simp [new] at found
  entry _ _ found := by simp [new] at found
  job _ _ found := nomatch found
  fresh _ _ := rfl
  discarding _ at' := nomatch at'
  settled _ made := absurd rfl made
  active _ _ _ _ _ at' := nomatch at'
  leaving _ _ _ at' := nomatch at'
  answered _ member := nomatch member
  back _ _ _ at' := nomatch at'

theorem mem_clients {clients : Table Nat} {name : GoString} : name ∈ clients ↔ ∃ c, clients.lookup name = some c :=
  AList.lookup_isSome.symm.trans Option.isSome_iff_exists

theorem registered_empty_iff : s.registered = [] ↔ s.clients = ∅ := by
  rw [registered, List.map_eq_nil_iff]
  refine ⟨fun none => AList.ext none, fun none => by rw [none]; rfl⟩

theorem mem_registered_iff {name : GoString} {c : Nat} : (name, c) ∈ s.registered ↔ s.clients.lookup name = some c := by
  rw [registered, List.mem_map]
  refine ⟨?_, fun found => ⟨⟨name, c⟩, AList.mem_lookup_iff.mp found, rfl⟩⟩
  rintro ⟨⟨name', c'⟩, member, same⟩
  cases same
  exact AList.mem_lookup_iff.mpr member

theorem one_name (valid : s.Valid) {name name' : GoString} {c : Nat} (first : s.clients.lookup name = some c)
    (second : s.clients.lookup name' = some c) : name = name' :=
  Call.connected.inj ((valid.named name c first).symm.trans (valid.named name' c second))

def Moves (jobs jobs' : Nat → Option Job) : Prop :=
  ∀ j job, jobs j = some job → ∃ job', jobs' j = some job' ∧ job'.name = job.name ∧ job'.client = job.client ∧
    (∀ err, job.phase.outcome = some err → job'.phase.outcome = some err) ∧
    ((job.phase.Posted → job.buffer = job.phase.outcome) → job'.phase.Posted → job'.buffer = job'.phase.outcome)

theorem moves_update {jobs : Nat → Option Job} {j : Nat} {job job' : Job} (found : jobs j = some job) (name : job'.name = job.name)
    (client : job'.client = job.client) (outcome : ∀ err, job.phase.outcome = some err → job'.phase.outcome = some err)
    (unread : (job.phase.Posted → job.buffer = job.phase.outcome) → job'.phase.Posted → job'.buffer = job'.phase.outcome) :
    Moves jobs (update jobs j (some job')) := by
  intro i other here
  by_cases same : i = j
  · subst same
    cases found.symm.trans here
    exact ⟨job', Function.update_self .., name, client, outcome, unread⟩
  · exact ⟨other, (Function.update_of_ne same ..).trans here, rfl, rfl, fun _ same => same, id⟩

theorem moves_fresh {jobs : Nat → Option Job} {j : Nat} (absent : jobs j = none) (job : Job) :
    Moves jobs (update jobs j (some job)) := by
  intro i other here
  have apart : i ≠ j := fun same => by
    subst same
    cases absent.symm.trans here
  exact ⟨other, (Function.update_of_ne apart ..).trans here, rfl, rfl, fun _ same => same, id⟩

theorem answered_moves {jobs jobs' : Nat → Option Job} {heard : List Heard} (moves : Moves jobs jobs')
    (answered : Answered jobs heard) :
    Answered jobs' heard := by
  intro h member err same
  obtain ⟨job, found, name, outcome⟩ := answered h member err same
  obtain ⟨job', found', name', -, outcome', -⟩ := moves h.wait.done job found
  exact ⟨job', found', name'.trans name, outcome' err outcome⟩

def Sub (clients' clients : Table Nat) : Prop := ∀ name c, clients'.lookup name = some c → clients.lookup name = some c

theorem sub_mem {clients' clients : Table Nat} (sub : Sub clients' clients) {name : GoString} (member : name ∈ clients') :
    name ∈ clients := by
  obtain ⟨c, found⟩ := mem_clients.mp member
  exact mem_clients.mpr ⟨c, sub name c found⟩

theorem active_moves {clients clients' : Table Nat} {jobs jobs' : Nat → Option Job} {closing closed : Bool} {closer : Closer}
    {targets : List (GoString × Nat)} {waits : List CloseWait} {heard : List Heard} (sub : Sub clients' clients)
    (moves : Moves jobs jobs') (ok : ActiveOk clients jobs closing closed closer targets waits heard) :
    ActiveOk clients' jobs' closing closed closer targets waits heard where
  closing := ok.closing
  names := ok.names
  target t member c found := ok.target t member c (sub t.1 c found)
  wait w member := by
    obtain ⟨job, wait⟩ := ok.wait w member
    obtain ⟨job', found', name', client', -, unread'⟩ := moves w.done job wait.found
    exact ⟨job', found', name'.trans wait.name, fun c found => (wait.only c (sub w.name c found)).trans client'.symm,
      unread' wait.unread⟩
  closed := ok.closed
  covered all name member := ok.covered all name (sub_mem sub member)

theorem ended_sub {clients clients' : Table Nat} {closed : Bool} {closer : Closer} {heard : List Heard} (sub : Sub clients' clients)
    (ended : Ended clients closed closer heard) : Ended clients' closed closer heard := by
  intro all fine
  obtain ⟨none, closed⟩ := ended all fine
  refine ⟨?_, closed⟩
  subst none
  refine AList.ext (List.eq_nil_iff_forall_not_mem.mpr fun entry member => ?_)
  cases sub entry.1 entry.2 (AList.mem_lookup_iff.mpr member)

theorem moved_valid (valid : s.Valid) {call : Nat} {pc : Call} {client' : Nat → Client}
    (others : ∀ c, c ≠ call → client' c = s.client c) (source : ∀ name, s.calls call ≠ .connected name)
    (settled : client' call ≠ .absent → Settled (update s.calls call pc) client' s.clients call)
    (discarding : pc = .discarding → client' call = .closing) :
    ({ s with calls := update s.calls call pc, client := client' } : Manager).Valid := by
  have kept {c : Nat} {name : GoString} (connected : s.calls c = .connected name) :
      update s.calls call pc c = .connected name ∧ c ≠ call := by
    have apart : c ≠ call := fun same => source name (same ▸ connected)
    exact ⟨(Function.update_of_ne apart ..).trans connected, apart⟩
  refine { valid with named := ?_, job := ?_, discarding := ?_, settled := ?_ }
  · exact fun name c found => (kept (valid.named name c found)).1
  · intro j job found
    have ok := valid.job j job found
    obtain ⟨owner, apart⟩ := kept ok.owner
    exact { ok with owner := owner, closed := fun phase => (others job.client apart).trans (ok.closed phase) }
  · intro c at'
    change update s.calls call pc c = .discarding at at'
    by_cases same : c = call
    · subst same
      exact discarding (by simpa only [Function.update_self] using at')
    · rw [Function.update_of_ne same] at at'
      exact (others c same).trans (valid.discarding c at')
  · intro c made
    change Settled (update s.calls call pc) client' s.clients c
    by_cases same : c = call
    · subst same
      exact settled made
    · have there : Settled s.calls s.client s.clients c := valid.settled c fun absent => made ((others c same).trans absent)
      unfold Settled at there ⊢
      rw [Function.update_of_ne same, others c same]
      exact there

theorem absent_of {call : Nat} (valid : s.Valid) (apart : ¬ Settled s.calls s.client s.clients call) : s.client call = .absent :=
  by_contra fun made => apart (valid.settled call made)

theorem refused_valid (valid : s.Valid) {call : Nat} {pc : Call} (source : ∀ name, s.calls call ≠ .connected name)
    (absent : s.client call = .absent) (discarding : pc ≠ .discarding) :
    ({ s with calls := update s.calls call pc } : Manager).Valid :=
  moved_valid valid (fun _ _ => rfl) source (fun made => absurd absent made) fun same => absurd same discarding

theorem idle_absent (valid : s.Valid) {call : Nat} (idle : s.calls call = .idle) : s.client call = .absent := by
  refine absent_of valid fun settled => ?_
  unfold Settled at settled
  simp [idle] at settled

theorem connecting_absent (valid : s.Valid) {call : Nat} {name : GoString} (connecting : s.calls call = .connecting name) :
    s.client call = .absent := by
  refine absent_of valid fun settled => ?_
  unfold Settled at settled
  simp [connecting] at settled

theorem connect_valid (valid : s.Valid) {call : Nat} (idle : s.calls call = .idle) (name : GoString) :
    (s.connect call name).Valid := by
  have source (name : GoString) : s.calls call ≠ .connected name := fun connected => by cases idle.symm.trans connected
  have absent := idle_absent valid idle
  unfold connect
  split_ifs
  · exact refused_valid valid source absent nofun
  · exact refused_valid valid source absent nofun
  · exact refused_valid valid source absent nofun

theorem factory_valid (valid : s.Valid) {call : Nat} {name : GoString} (connecting : s.calls call = .connecting name) (made : Bool) :
    (s.factory call name made).Valid := by
  have source (name : GoString) : s.calls call ≠ .connected name := fun connected => by cases connecting.symm.trans connected
  unfold factory
  split_ifs
  · refine moved_valid valid (fun _ apart => Function.update_of_ne apart ..) source (fun _ => .inl ⟨name, ?_⟩) nofun
    exact Function.update_self ..
  · exact refused_valid valid source (connecting_absent valid connecting) nofun

theorem discard_valid (valid : s.Valid) {call : Nat} (source : ∀ name, s.calls call ≠ .connected name) : (s.discard call).Valid :=
  moved_valid valid (fun _ apart => Function.update_of_ne apart ..) source (fun _ => .inr (.inr (.inl (Function.update_self ..))))
    fun _ => Function.update_self ..

theorem initialize_valid (valid : s.Valid) {call : Nat} {name : GoString} (created : s.calls call = .created name) (ok : Bool) :
    (s.initializeResult call name ok).Valid := by
  have source (name : GoString) : s.calls call ≠ .connected name := fun connected => by cases created.symm.trans connected
  unfold initializeResult
  split_ifs
  · exact moved_valid valid (fun _ _ => rfl) source (fun _ => .inr (.inl ⟨name, Function.update_self ..⟩)) nofun
  · exact discard_valid valid source

theorem after_close (err : CloseResult) : afterClose err = .closed ∨ afterClose err = .failed := by
  unfold afterClose
  split_ifs
  · exact .inl rfl
  · exact .inr rfl

theorem discarded_valid (valid : s.Valid) {call : Nat} (discarding : s.calls call = .discarding) (err : CloseResult) :
    (s.discarded call err).Valid := by
  have source (name : GoString) : s.calls call ≠ .connected name := fun connected => by cases discarding.symm.trans connected
  refine moved_valid valid (fun c apart => Function.update_of_ne apart ..) source (fun _ => ?_) nofun
  refine .inr (.inr (.inr (.inr ⟨Function.update_self .., ?_⟩)))
  rw [Function.update_self]
  exact after_close err

theorem ended_open {clients : Table Nat} {closed : Bool} {closer : Closer} {heard : List Heard}
    (ended : Ended clients closed closer heard)
    (open' : closed = false) (clients' : Table Nat) : Ended clients' closed closer heard := by
  intro all fine
  have shut := (ended all fine).2
  rw [open'] at shut
  cases shut

theorem register_valid (valid : s.Valid) {call : Nat} {name : GoString} (initialized : s.calls call = .initialized name) :
    (s.register call name).Valid := by
  have source (name : GoString) : s.calls call ≠ .connected name := fun connected => by cases initialized.symm.trans connected
  unfold register
  split_ifs with shut taken
  · exact discard_valid valid source
  · exact discard_valid valid source
  rw [not_or, Bool.not_eq_true, Bool.not_eq_true] at shut
  have apart {c : Nat} {other : GoString} (connected : s.calls c = .connected other) : c ≠ call := fun same =>
    source other (same ▸ connected)
  have away {other : GoString} {c : Nat} (found : s.clients.lookup other = some c) : other ≠ name := fun same =>
    taken (same ▸ mem_clients.mpr ⟨c, found⟩)
  have looked {other : GoString} {c : Nat} (found : (s.clients.insert name call).lookup other = some c) :
      other = name ∧ c = call ∨ s.clients.lookup other = some c := by
    by_cases same : other = name
    · subst same
      rw [AList.lookup_insert] at found
      exact .inl ⟨rfl, (Option.some.inj found).symm⟩
    · rw [AList.lookup_insert_ne same] at found
      exact .inr found
  refine { valid with named := ?_, entry := ?_, job := ?_, discarding := ?_, settled := ?_, active := ?_, leaving := ?_, back := ?_ }
  · intro other c found
    rcases looked found with ⟨rfl, rfl⟩ | old
    · exact Function.update_self ..
    · have connected := valid.named other c old
      exact (Function.update_of_ne (apart connected) ..).trans connected
  · intro other c found
    rcases looked found with ⟨rfl, rfl⟩ | old
    · exact .inl (by simp only [Function.update_self])
    · have entry := valid.entry other c old
      simpa only [Function.update_of_ne (apart (valid.named other c old))] using entry
  · intro j job found
    have ok := valid.job j job found
    refine { ok with owner := ?_, busy := fun running => ?_, gone := fun finished fine here => ?_ }
    · exact (Function.update_of_ne (apart ok.owner) ..).trans ok.owner
    · obtain ⟨found, entry⟩ := ok.busy running
      exact ⟨(AList.lookup_insert_ne (away found)).trans found, (Function.update_of_ne (apart ok.owner) ..).trans entry⟩
    · rcases looked here with ⟨-, same⟩ | old
      · exact apart ok.owner same
      · exact ok.gone finished fine old
  · intro c at'
    change update s.calls call (.connected name) c = .discarding at at'
    by_cases same : c = call
    · rw [same, Function.update_self] at at'
      cases at'
    · rw [Function.update_of_ne same] at at'
      exact valid.discarding c at'
  · intro c made
    change Settled (update s.calls call (.connected name)) s.client (s.clients.insert name call) c
    by_cases same : c = call
    · subst same
      exact .inr (.inr (.inr (.inl ⟨name, Function.update_self .., .inl (AList.lookup_insert _)⟩)))
    · have there : Settled s.calls s.client s.clients c := valid.settled c made
      unfold Settled at there ⊢
      rw [Function.update_of_ne same]
      refine there.imp_right (Or.imp_right (Or.imp_right (Or.imp_left ?_)))
      rintro ⟨other, connected, registered | closed⟩
      · exact ⟨other, connected, .inl ((AList.lookup_insert_ne (away registered)).trans registered)⟩
      · exact ⟨other, connected, .inr closed⟩
  · intro other closer targets waits heard at'
    have flagged := (valid.active other closer targets waits heard at').closing
    rw [shut.2] at flagged
    cases flagged
  · exact fun other closer heard at' => ended_open (valid.leaving other closer heard at') shut.1 _
  · intro other closer heard at'
    obtain ⟨answered, ended⟩ := valid.back other closer heard at'
    exact ⟨answered, ended_open ended shut.1 _⟩

theorem mu_valid (valid : s.Valid) {mu : CloseMu} {closing closed : Bool} (kept : s.closed = true → closed = true)
    (active : ∀ call closer targets waits heard, mu = .active call closer targets waits heard →
      ActiveOk s.clients s.jobs closing closed closer targets waits heard)
    (leaving : ∀ call closer heard, mu = .leaving call closer heard → Ended s.clients closed closer heard)
    (answered : Answered s.jobs (heardBy mu)) :
    ({ s with closing := closing, closed := closed, closeMu := mu } : Manager).Valid := by
  refine { valid with active := active, leaving := leaving, answered := answered, back := fun call closer heard at' => ?_ }
  obtain ⟨answered, ended⟩ := valid.back call closer heard at'
  exact ⟨answered, fun all fine => ⟨(ended all fine).1, kept (ended all fine).2⟩⟩

theorem registered_names : (s.registered.map Prod.fst).Nodup := by
  have keys := s.clients.nodupKeys
  rw [registered, List.map_map]
  exact keys

theorem snapshot_valid (valid : s.Valid) {call : Nat} {closer : Closer} {order : List (GoString × Nat)}
    (taken : s.snapshot call closer order = some next) : next.Valid := by
  unfold snapshot at taken
  cases closer with
  | disconnect name =>
      dsimp only at taken
      split at taken
      · cases taken
        refine mu_valid valid id nofun ?_ nofun
        rintro _ _ _ ⟨⟩
        nofun
      · next c found =>
        cases taken
        refine mu_valid valid id ?_ nofun nofun
        rintro _ _ _ _ _ ⟨⟩
        refine ⟨rfl, by simp, ?_, nofun, nofun, nofun⟩
        intro target member other here
        rw [List.mem_singleton] at member
        subst member
        exact Option.some.inj (here.symm.trans found)
  | closeContext =>
      obtain ⟨perm, same⟩ := Option.ite_none_right_eq_some.mp taken
      cases same
      refine mu_valid valid (fun _ => rfl) ?_ nofun nofun
      rintro _ _ _ _ _ ⟨⟩
      refine ⟨rfl, ?_, ?_, nofun, fun _ => rfl, fun _ name member => .inl ?_⟩
      · rw [List.map_nil, List.append_nil]
        exact (perm.map Prod.fst).nodup_iff.mpr registered_names
      · intro target member c here
        have found := mem_registered_iff.mp (perm.mem_iff.mp member)
        exact Option.some.inj (here.symm.trans found)
      · obtain ⟨c, found⟩ := mem_clients.mp member
        exact List.mem_map_of_mem (perm.mem_iff.mpr (mem_registered_iff.mpr found))

theorem beginClose_valid (valid : s.Valid) {name : GoString} {c : Nat} (found : s.clients.lookup name = some c)
    (open' : (s.entries c).closing = false) : (s.beginClose name c).Valid := by
  have unborn : s.jobs s.started = none := valid.fresh s.started (Nat.le_refl _)
  have moves := moves_fresh unborn ⟨name, c, .closing, none⟩
  have connected := valid.named name c found
  have old {j : Nat} {job : Job} (here : s.jobs j = some job) : j ≠ s.started := fun same => by
    rw [same, unborn] at here
    cases here
  have idle {j : Nat} {job : Job} (here : s.jobs j = some job) (running : ¬ job.phase.Finished) : job.client ≠ c := fun same => by
    have entry := ((valid.job j job here).busy running).2
    rw [same] at entry
    rw [entry] at open'
    cases open'
  refine { valid with entry := ?_, job := ?_, fresh := ?_, discarding := ?_, settled := ?_, active := ?_, answered := ?_, back := ?_ }
  · intro other d here
    change EntryOk (update s.jobs s.started _) (update s.entries c _ d) other d
    by_cases same : d = c
    · subst same
      rw [Function.update_self]
      exact .inr ⟨s.started, ⟨name, d, .closing, none⟩, rfl, Function.update_self .., one_name valid found here, rfl, id⟩
    · rw [Function.update_of_ne same]
      rcases valid.entry other d here with idle | ⟨j, job, entry, there, named, client, running⟩
      · exact .inl idle
      · exact .inr ⟨j, job, entry, (Function.update_of_ne (old there) ..).trans there, named, client, running⟩
  · intro j job here
    change update s.jobs s.started _ j = some job at here
    by_cases same : j = s.started
    · subst same
      rw [Function.update_self] at here
      cases here
      exact ⟨connected, fun _ => ⟨found, Function.update_self ..⟩, nofun, fun finished => finished.elim,
        fun some => absurd rfl some⟩
    · rw [Function.update_of_ne same] at here
      have ok := valid.job j job here
      refine { ok with busy := fun running => ?_, closed := fun phase => ?_ }
      · obtain ⟨there, entry⟩ := ok.busy running
        exact ⟨there, (Function.update_of_ne (idle here running) ..).trans entry⟩
      · have running : ¬ job.phase.Finished := by
          rw [phase]
          exact id
        exact (Function.update_of_ne (idle here running) ..).trans (ok.closed phase)
  · intro j later
    change update s.jobs s.started _ j = none
    rw [Function.update_of_ne (Nat.ne_of_gt later)]
    exact valid.fresh j (Nat.le_of_succ_le later)
  · intro d at'
    have apart : d ≠ c := fun same => by
      subst same
      cases connected.symm.trans at'
    exact (Function.update_of_ne apart ..).trans (valid.discarding d at')
  · intro d made
    change Settled s.calls (update s.client c .closing) s.clients d
    by_cases same : d = c
    · subst same
      exact .inr (.inr (.inr (.inl ⟨name, connected, .inl found⟩)))
    · change update s.client c .closing d ≠ .absent at made
      have there : Settled s.calls s.client s.clients d := valid.settled d (by rwa [Function.update_of_ne same] at made)
      unfold Settled at there ⊢
      rw [Function.update_of_ne same]
      exact there
  · exact fun call closer targets waits heard at' =>
      active_moves (fun _ _ here => here) moves (valid.active call closer targets waits heard at')
  · exact answered_moves moves valid.answered
  · intro call closer heard at'
    obtain ⟨answered, ended⟩ := valid.back call closer heard at'
    exact ⟨answered_moves moves answered, ended⟩

theorem active_next {clients : Table Nat} {jobs : Nat → Option Job} {closing closed : Bool} {closer : Closer}
    {target : GoString × Nat}
    {targets : List (GoString × Nat)} {waits : List CloseWait} {heard : List Heard}
    (ok : ActiveOk clients jobs closing closed closer (target :: targets) waits heard) {done : Nat} {job : Job}
    (wait : WaitOk clients jobs ⟨target.1, done⟩ job) :
    ActiveOk clients jobs closing closed closer targets (waits ++ [⟨target.1, done⟩]) heard where
  closing := ok.closing
  names := by
    have names := ok.names
    rw [List.map_cons, List.cons_append, List.nodup_cons, List.mem_append, not_or] at names
    rw [List.map_append, ← List.append_assoc]
    refine List.nodup_append.mpr ⟨names.2, List.nodup_singleton _, fun a member b last => ?_⟩
    rw [List.map_singleton, List.mem_singleton] at last
    subst last
    rintro rfl
    exact (List.mem_append.mp member).elim names.1.1 names.1.2
  target t member := ok.target t (List.mem_cons_of_mem target member)
  wait w member := by
    rcases List.mem_append.mp member with before | last
    · exact ok.wait w before
    · rw [List.mem_singleton] at last
      exact ⟨job, last ▸ wait⟩
  closed := ok.closed
  covered all name member := by
    rw [List.map_append, List.mem_append]
    rcases ok.covered all name member with here | there | failed
    · rw [List.map_cons, List.mem_cons] at here
      exact here.elim (fun same => .inr (.inl (.inr (by simp [same])))) .inl
    · exact .inr (.inl (.inl there))
    · exact .inr (.inr failed)

theorem active_gone {clients : Table Nat} {jobs : Nat → Option Job} {closing closed : Bool} {closer : Closer}
    {target : GoString × Nat}
    {targets : List (GoString × Nat)} {waits : List CloseWait} {heard : List Heard}
    (ok : ActiveOk clients jobs closing closed closer (target :: targets) waits heard)
    (gone : clients.lookup target.1 ≠ some target.2) :
    ActiveOk clients jobs closing closed closer targets waits heard where
  closing := ok.closing
  names := (List.nodup_cons.mp ok.names).2
  target t member := ok.target t (List.mem_cons_of_mem target member)
  wait := ok.wait
  closed := ok.closed
  covered all name member := by
    rcases ok.covered all name member with here | there | failed
    · rw [List.map_cons, List.mem_cons] at here
      refine here.elim (fun same => ?_) .inl
      obtain ⟨c, found⟩ := mem_clients.mp member
      rw [same] at found
      exact absurd (found.trans (congrArg some (ok.target target List.mem_cons_self c found))) gone
    · exact .inr (.inl there)
    · exact .inr (.inr failed)

theorem active_valid (valid : s.Valid) {call : Nat} {closer : Closer} {targets : List (GoString × Nat)} {waits : List CloseWait}
    {heard : List Heard} (ok : ActiveOk s.clients s.jobs s.closing s.closed closer targets waits heard)
    (answered : Answered s.jobs heard) : ({ s with closeMu := .active call closer targets waits heard } : Manager).Valid := by
  refine mu_valid valid id ?_ nofun answered
  rintro _ _ _ _ _ ⟨⟩
  exact ok

theorem not_posted {phase : JobPhase} (running : ¬ phase.Finished) : ¬ phase.Posted := by
  cases phase with
  | closing => exact id
  | returned err => exact id
  | _ => exact absurd trivial running

theorem startTarget_valid (valid : s.Valid) {call : Nat} {closer : Closer} {target : GoString × Nat}
    {targets : List (GoString × Nat)} {waits : List CloseWait} {heard : List Heard}
    (mu : s.closeMu = .active call closer (target :: targets) waits heard) :
    (s.startTarget call closer target targets waits heard).Valid := by
  have ok := valid.active call closer (target :: targets) waits heard mu
  have answered : Answered s.jobs heard := by
    have answered := valid.answered
    rwa [mu] at answered
  by_cases found : s.clients.lookup target.1 = some target.2
  · have only (c : Nat) (here : s.clients.lookup target.1 = some c) : c = target.2 := Option.some.inj (here.symm.trans found)
    have fresh (closing : (s.entries target.2).closing = false) :
        ({ s.beginClose target.1 target.2 with
            closeMu := .active call closer targets (waits ++ [⟨target.1, s.started⟩]) heard } : Manager).Valid := by
      have moves := moves_fresh (valid.fresh s.started (Nat.le_refl _)) ⟨target.1, target.2, .closing, none⟩
      have wait : WaitOk s.clients (s.beginClose target.1 target.2).jobs ⟨target.1, s.started⟩
          ⟨target.1, target.2, .closing, none⟩ :=
        ⟨Function.update_self .., rfl, only, fun posted => posted.elim⟩
      exact active_valid (beginClose_valid valid found closing) (active_next (active_moves (fun _ _ here => here) moves ok) wait)
        (answered_moves moves answered)
    unfold startTarget startTargetClose
    rw [if_pos found]
    cases entry : s.entries target.2 with
    | mk closing closeDone =>
        cases closing with
        | false => exact fresh (by rw [entry])
        | true =>
            rcases valid.entry target.1 target.2 found with closing | ⟨j, job, same, there, name, client, running⟩
            · rw [entry] at closing
              cases closing
            · rw [entry] at same
              cases same
              refine active_valid valid
                (active_next ok ⟨there, name, ?_, fun posted => absurd posted (not_posted running)⟩) answered
              exact fun c here => (only c here).trans client.symm
  · unfold startTarget startTargetClose
    rw [if_neg found]
    exact active_valid valid (active_gone ok found) answered

theorem no_error_append {heard : List Heard} {h : Heard} : NoError (heard ++ [h]) ↔ NoError heard ∧ h.answer = .result none := by
  simp only [NoError, List.forall_mem_append, List.forall_mem_singleton]

theorem received_unread {job : Job} (unread : job.phase.Posted → job.buffer = job.phase.outcome) {err : CloseResult}
    (ok : job.buffer ≠ none → job.phase.Posted ∧ job.buffer = job.phase.outcome) (got : received job = some err) :
    job.phase.Posted ∧ job.phase.outcome = some err := by
  unfold received at got
  cases buffer : job.buffer with
  | some value =>
      rw [buffer] at got ok
      obtain ⟨posted, same⟩ := ok nofun
      exact ⟨posted, same.symm.trans got⟩
  | none =>
      rw [buffer] at got unread
      cases phase : job.phase with
      | done value =>
          rw [phase] at unread
          cases unread trivial
      | _ =>
          rw [phase] at got
          cases got

theorem entry_update {jobs : Nat → Option Job} {j : Nat} {job : Job} (found : jobs j = some job) (job' : Job)
    (name : job'.name = job.name)
    (client : job'.client = job.client) (running : ¬ job.phase.Finished → ¬ job'.phase.Finished) {entry : Entry} {other : GoString}
    {c : Nat} (ok : EntryOk jobs entry other c) : EntryOk (update jobs j (some job')) entry other c := by
  rcases ok with idle | ⟨i, there, same, here, named, owned, unfinished⟩
  · exact .inl idle
  · by_cases at' : i = j
    · subst at'
      cases found.symm.trans here
      exact .inr ⟨i, job', same, Function.update_self .., name.trans named, client.trans owned, running unfinished⟩
    · exact .inr ⟨i, there, same, (Function.update_of_ne at' ..).trans here, named, owned, unfinished⟩

theorem jobs_update {jobs : Nat → Option Job} {j : Nat} {job : Job} {motive : Nat → Job → Prop} (here : motive j job)
    (others : ∀ i other, i ≠ j → jobs i = some other → motive i other) :
    ∀ i other, update jobs j (some job) i = some other → motive i other := by
  intro i other found
  by_cases same : i = j
  · subst same
    rw [Function.update_self] at found
    cases found
    exact here
  · rw [Function.update_of_ne same] at found
    exact others i other same found

theorem fresh_update (valid : s.Valid) {j : Nat} {job : Job} (found : s.jobs j = some job) (job' : Job) :
    ∀ i, s.started ≤ i → update s.jobs j (some job') i = none := by
  intro i later
  have apart : i ≠ j := fun same => by
    rw [← same, valid.fresh i later] at found
    cases found
  exact (Function.update_of_ne apart ..).trans (valid.fresh i later)

theorem receive_valid (valid : s.Valid) {call : Nat} {closer : Closer} {wait : CloseWait} {waits : List CloseWait}
    {heard : List Heard} (mu : s.closeMu = .active call closer [] (wait :: waits) heard)
    (taken : s.receive call closer wait waits heard = some next) : next.Valid := by
  obtain ⟨job, found, taken⟩ := Option.bind_eq_some_iff.mp taken
  obtain ⟨err, got, same⟩ := Option.map_eq_some_iff.mp taken
  subst same
  have ok := valid.active call closer [] (wait :: waits) heard mu
  have jobOk := valid.job wait.done job found
  obtain ⟨job', waitOk⟩ := ok.wait wait List.mem_cons_self
  cases waitOk.found.symm.trans found
  obtain ⟨posted, outcome⟩ := received_unread waitOk.unread jobOk.buffer got
  have finished : job.phase.Finished := by
    cases phase : job.phase <;> rw [phase] at posted <;> trivial
  have kept {h : List Heard} (answered : Answered s.jobs h) :
      Answered (update s.jobs wait.done (some { job with buffer := none })) h := by
    intro x member value same
    obtain ⟨other, here, name, outcome⟩ := answered x member value same
    by_cases at' : x.wait.done = wait.done
    · rw [at', found] at here
      cases here
      exact ⟨_, (congrArg _ at').trans (Function.update_self ..), name, outcome⟩
    · exact ⟨other, (Function.update_of_ne at' ..).trans here, name, outcome⟩
  have answered : Answered s.jobs (heard ++ [⟨wait, .result err⟩]) := by
    have before := valid.answered
    rw [mu] at before
    intro h member value same
    rcases List.mem_append.mp member with old | new
    · exact before h old value same
    · rw [List.mem_singleton] at new
      subst new
      cases same
      exact ⟨job, found, waitOk.name, outcome⟩
  refine { valid with entry := ?_, job := ?_, fresh := ?_, active := ?_, leaving := nofun, answered := kept answered, back := ?_ }
  · exact fun name c here => entry_update found { job with buffer := none } rfl rfl id (valid.entry name c here)
  · refine jobs_update ?_ fun i other _ here => valid.job i other here
    exact { jobOk with buffer := fun some => absurd rfl some }
  · exact fresh_update valid found _
  · rintro _ _ _ _ _ ⟨⟩
    refine { ok with names := (List.nodup_cons.mp ok.names).2, wait := fun w member => ?_, covered := fun all name member => ?_ }
    · obtain ⟨other, otherOk⟩ := ok.wait w (List.mem_cons_of_mem wait member)
      have apart : w.done ≠ wait.done := fun same => by
        have names := (List.nodup_cons.mp ok.names).1
        have here := otherOk.found
        rw [same, found] at here
        cases here
        exact names (waitOk.name ▸ otherOk.name ▸ List.mem_map_of_mem member)
      exact ⟨other, { otherOk with found := (Function.update_of_ne apart ..).trans otherOk.found }⟩
    · rcases ok.covered all name member with here | there | failed
      · cases here
      · rw [List.map_cons, List.mem_cons] at there
        rcases there with rfl | later
        · refine .inr (.inr fun fine => ?_)
          have none := (no_error_append.mp fine).2
          cases none
          obtain ⟨c, registered⟩ := mem_clients.mp member
          rw [waitOk.only c registered, ← waitOk.name] at registered
          exact jobOk.gone finished outcome registered
        · exact .inr (.inl later)
      · exact .inr (.inr fun fine => failed (no_error_append.mp fine).1)
  · intro other closer' heard' at'
    obtain ⟨answered, ended⟩ := valid.back other closer' heard' at'
    exact ⟨kept answered, ended⟩

theorem expire_valid (valid : s.Valid) {call : Nat} {wait : CloseWait} {waits : List CloseWait} {heard : List Heard}
    (mu : s.closeMu = .active call .closeContext [] (wait :: waits) heard) :
    ({ s with closeMu := .active call .closeContext [] waits (heard ++ [⟨wait, .expired⟩]) } : Manager).Valid := by
  have ok := valid.active call .closeContext [] (wait :: waits) heard mu
  have before := valid.answered
  rw [mu] at before
  refine active_valid valid ?_ fun h member err same => ?_
  · refine { ok with
      names := (List.nodup_cons.mp ok.names).2
      wait := fun w member => ok.wait w (List.mem_cons_of_mem wait member)
      covered := fun _ _ _ => .inr (.inr fun fine => ?_) }
    cases (no_error_append.mp fine).2
  · rcases List.mem_append.mp member with old | new
    · exact before h old err same
    · rw [List.mem_singleton] at new
      subst new
      cases same

theorem clearClosing_valid (valid : s.Valid) {call : Nat} {closer : Closer} {heard : List Heard}
    (mu : s.closeMu = .active call closer [] [] heard) :
    ({ s with closing := false, closeMu := .leaving call closer heard } : Manager).Valid := by
  have ok := valid.active call closer [] [] heard mu
  have before := valid.answered
  rw [mu] at before
  refine mu_valid valid id nofun ?_ before
  rintro _ _ _ ⟨⟩ all fine
  refine ⟨AList.ext (List.eq_nil_iff_forall_not_mem.mpr fun entry member => ?_), ok.closed all⟩
  obtain ⟨name, c⟩ := entry
  have found : name ∈ s.clients := mem_clients.mpr ⟨c, AList.mem_lookup_iff.mpr member⟩
  rcases ok.covered all name found with here | there | failed
  · cases here
  · cases there
  · exact failed fine

theorem unlock_valid (valid : s.Valid) {call : Nat} {closer : Closer} {heard : List Heard}
    (mu : s.closeMu = .leaving call closer heard) :
    ({ s with closeMu := .free, closes := update s.closes call (.returned closer heard) } : Manager).Valid := by
  have answered := valid.answered
  rw [mu] at answered
  refine { valid with active := nofun, leaving := nofun, answered := nofun, back := fun other closer' heard' at' => ?_ }
  change update s.closes call (.returned closer heard) other = .returned closer' heard' at at'
  by_cases same : other = call
  · rw [same, Function.update_self] at at'
    cases at'
    exact ⟨answered, valid.leaving call closer heard mu⟩
  · rw [Function.update_of_ne same] at at'
    exact valid.back other closer' heard' at'

theorem lock_valid (valid : s.Valid) (call : Nat) (closer : Closer) :
    ({ s with closes := update s.closes call .closing, closeMu := .locked call closer } : Manager).Valid := by
  refine { valid with active := nofun, leaving := nofun, answered := nofun, back := fun other closer' heard' at' => ?_ }
  change update s.closes call .closing other = .returned closer' heard' at at'
  by_cases same : other = call
  · rw [same, Function.update_self] at at'
    cases at'
  · rw [Function.update_of_ne same] at at'
    exact valid.back other closer' heard' at'

theorem one_job (valid : s.Valid) {i j : Nat} {job job' : Job} (first : s.jobs i = some job) (second : s.jobs j = some job')
    (running : ¬ job.phase.Finished) (running' : ¬ job'.phase.Finished) (same : job.client = job'.client) : i = j := by
  have here := ((valid.job i job first).busy running).2
  have there := ((valid.job j job' second).busy running').2
  rw [same, there] at here
  cases here
  rfl

theorem returned_running {phase : JobPhase} {err : CloseResult} (back : phase = .returned err) : ¬ phase.Finished := by
  subst back
  exact id

theorem closeReturns_valid (valid : s.Valid) {j : Nat} {job : Job} (found : s.jobs j = some job) {err : CloseResult}
    (taken : s.closeReturns j job err = some next) : next.Valid := by
  unfold closeReturns at taken
  cases phase : job.phase with
  | closing =>
      rw [phase] at taken
      cases taken
      have running : ¬ job.phase.Finished := by
        rw [phase]
        exact id
      have ok := valid.job j job found
      obtain ⟨registered, entry⟩ := ok.busy running
      have moves : Moves s.jobs (update s.jobs j (some { job with phase := .returned err })) := by
        refine moves_update found rfl rfl (fun value outcome => ?_) fun _ posted => posted.elim
        rw [phase] at outcome
        cases outcome
      refine { valid with
        entry := fun name c here =>
          entry_update found { job with phase := .returned err } rfl rfl (fun _ => id) (valid.entry name c here)
        job := ?_
        fresh := fresh_update valid found _
        discarding := fun c at' => ?_
        settled := fun c made => ?_
        active := fun call closer targets waits heard at' =>
          active_moves (fun _ _ here => here) moves (valid.active call closer targets waits heard at')
        answered := answered_moves moves valid.answered
        back := fun call closer heard at' =>
          ⟨answered_moves moves (valid.back call closer heard at').1, (valid.back call closer heard at').2⟩ }
      · refine jobs_update ?_ fun i other apart here => ?_
        · refine { ok with busy := fun _ => ⟨registered, entry⟩, closed := fun same => ?_,
                            gone := fun finished => finished.elim, buffer := fun some => ?_ }
          · cases same
            exact Function.update_self ..
          · have posted := (ok.buffer some).1
            rw [phase] at posted
            exact posted.elim
        · have otherOk := valid.job i other here
          refine { otherOk with closed := fun same => ?_ }
          have away : other.client ≠ job.client := fun clients =>
            apart (one_job valid here found (returned_running same) running clients)
          exact (Function.update_of_ne away ..).trans (otherOk.closed same)
      · have apart : c ≠ job.client := fun same => by
          subst same
          cases ok.owner.symm.trans at'
        exact (Function.update_of_ne apart ..).trans (valid.discarding c at')
      · change Settled s.calls (update s.client job.client (afterClose err)) s.clients c
        by_cases same : c = job.client
        · subst same
          exact .inr (.inr (.inr (.inl ⟨job.name, ok.owner, .inl registered⟩)))
        · change update s.client job.client (afterClose err) c ≠ .absent at made
          have there : Settled s.calls s.client s.clients c := valid.settled c (by rwa [Function.update_of_ne same] at made)
          unfold Settled at there ⊢
          rw [Function.update_of_ne same]
          exact there
  | _ =>
      rw [phase] at taken
      cases taken

theorem entry_others {jobs : Nat → Option Job} {j : Nat} {job : Job} (found : jobs j = some job) (job' : Job) {entry : Entry}
    {other : GoString} {c : Nat} (apart : c ≠ job.client) (ok : EntryOk jobs entry other c) :
    EntryOk (update jobs j (some job')) entry other c := by
  rcases ok with idle | ⟨i, there, same, here, named, owned, unfinished⟩
  · exact .inl idle
  · have away : i ≠ j := fun same => by
      subst same
      cases found.symm.trans here
      exact apart owned.symm
    exact .inr ⟨i, there, same, (Function.update_of_ne away ..).trans here, named, owned, unfinished⟩

theorem finished_job {calls : Nat → Call} {client : Nat → Client} {clients : Table Nat} {entries : Nat → Entry} {j : Nat}
    {job : Job}
    {err : CloseResult} (owner : calls job.client = .connected job.name)
    (ok : job.buffer ≠ none → job.phase.Posted ∧ job.buffer = job.phase.outcome)
    (phase : job.phase = .returned err) (gone : err = none → clients.lookup job.name ≠ some job.client) :
    JobOk calls client clients entries j { job with phase := .finished err } where
  owner := owner
  busy running := absurd trivial running
  closed := nofun
  gone _ outcome := gone (Option.some.inj outcome)
  buffer some := by
    have posted := (ok some).1
    rw [phase] at posted
    exact posted.elim

theorem finish_valid (valid : s.Valid) {j : Nat} {job : Job} (found : s.jobs j = some job) (taken : s.finish j job = some next) :
    next.Valid := by
  unfold finish at taken
  cases phase : job.phase with
  | returned err =>
      rw [phase] at taken
      cases taken
      have running := returned_running phase
      have ok := valid.job j job found
      obtain ⟨registered, entry⟩ := ok.busy running
      have moves : Moves s.jobs (update s.jobs j (some { job with phase := .finished err })) := by
        refine moves_update found rfl rfl (fun value outcome => ?_) fun _ posted => posted.elim
        rw [phase] at outcome
        exact outcome
      have others {i : Nat} {other : Job} (apart : i ≠ j) (here : s.jobs i = some other) (unfinished : ¬ other.phase.Finished) :
          other.client ≠ job.client := fun clients => apart (one_job valid here found unfinished running clients)
      unfold finishTargetClose
      rw [if_pos registered]
      by_cases fine : err = none
      · rw [if_pos fine]
        have sub : Sub (s.clients.erase job.name) s.clients := fun _ _ here => lookup_erase_sub here
        have away {name : GoString} {c : Nat} (here : (s.clients.erase job.name).lookup name = some c) :
            name ≠ job.name := fun same => by
          rw [same, AList.lookup_erase] at here
          cases here
        refine { valid with
          named := fun name c here => valid.named name c (sub name c here)
          entry := fun name c here => ?_
          job := ?_
          fresh := fresh_update valid found _
          settled := fun c made => ?_
          active := fun call closer targets waits heard at' =>
            active_moves sub moves (valid.active call closer targets waits heard at')
          leaving := fun call closer heard at' => ended_sub sub (valid.leaving call closer heard at')
          answered := answered_moves moves valid.answered
          back := fun call closer heard at' =>
            ⟨answered_moves moves (valid.back call closer heard at').1, ended_sub sub (valid.back call closer heard at').2⟩ }
        · refine entry_others found _ (fun same => away here ?_) (valid.entry name c (sub name c here))
          exact one_name valid (sub name c here) (same ▸ registered)
        · refine jobs_update (finished_job ok.owner ok.buffer phase fun _ here => away here rfl) fun i other apart here => ?_
          have otherOk := valid.job i other here
          refine { otherOk with busy := fun unfinished => ?_,
                                gone := fun finished outcome here => otherOk.gone finished outcome (sub _ _ here) }
          obtain ⟨found, entry⟩ := otherOk.busy unfinished
          refine ⟨(AList.lookup_erase_ne fun same => others apart here unfinished ?_).trans found, entry⟩
          rw [same, registered] at found
          exact (Option.some.inj found).symm
        · have there : Settled s.calls s.client s.clients c := valid.settled c made
          change Settled s.calls s.client (s.clients.erase job.name) c
          refine there.imp_right (Or.imp_right (Or.imp_right (Or.imp_left ?_)))
          rintro ⟨name, connected, here | closed⟩
          · by_cases same : name = job.name
            · rw [same, registered] at here
              cases here
              exact ⟨name, connected, .inr (ok.closed (fine ▸ phase))⟩
            · exact ⟨name, connected, .inl ((AList.lookup_erase_ne same).trans here)⟩
          · exact ⟨name, connected, .inr closed⟩
      · rw [if_neg fine]
        refine { valid with
          entry := fun name c here => ?_
          job := ?_
          fresh := fresh_update valid found _
          active := fun call closer targets waits heard at' =>
            active_moves (fun _ _ here => here) moves (valid.active call closer targets waits heard at')
          answered := answered_moves moves valid.answered
          back := fun call closer heard at' =>
            ⟨answered_moves moves (valid.back call closer heard at').1, (valid.back call closer heard at').2⟩ }
        · change EntryOk _ (update s.entries job.client ⟨false, none⟩ c) name c
          by_cases same : c = job.client
          · subst same
            exact .inl (by rw [Function.update_self])
          · rw [Function.update_of_ne same]
            exact entry_others found _ same (valid.entry name c here)
        · refine jobs_update (finished_job ok.owner ok.buffer phase fun none => absurd none fine) fun i other apart here => ?_
          have otherOk := valid.job i other here
          refine { otherOk with busy := fun unfinished => ?_ }
          obtain ⟨found, entry⟩ := otherOk.busy unfinished
          exact ⟨found, (Function.update_of_ne (others apart here unfinished) ..).trans entry⟩
  | _ =>
      rw [phase] at taken
      cases taken

theorem posted_valid (valid : s.Valid) {j : Nat} {job : Job} (found : s.jobs j = some job) {phase : JobPhase}
    {buffer : Option CloseResult}
    (finished : job.phase.Finished) (posted : phase.Posted) (outcome : phase.outcome = job.phase.outcome)
    (full : buffer ≠ none → buffer = phase.outcome)
    (unread : (job.phase.Posted → job.buffer = job.phase.outcome) → buffer = phase.outcome) :
    (s.setJob j { job with phase := phase, buffer := buffer }).Valid := by
  have ended : phase.Finished := by cases phase <;> trivial
  have ok := valid.job j job found
  have moves : Moves s.jobs (update s.jobs j (some { job with phase := phase, buffer := buffer })) :=
    moves_update found rfl rfl (fun err same => outcome.trans same) fun kept _ => unread kept
  exact { valid with
    entry := fun name c here =>
      entry_update found { job with phase := phase, buffer := buffer } rfl rfl (fun running => absurd finished running)
        (valid.entry name c here)
    job := jobs_update
      { owner := ok.owner
        busy := fun running => absurd ended running
        closed := fun same => by
          have last : (JobPhase.returned none).Finished := same ▸ ended
          exact last.elim
        gone := fun _ fine => ok.gone finished (outcome ▸ fine)
        buffer := fun some => ⟨posted, full some⟩ }
      fun i other _ here => valid.job i other here
    fresh := fresh_update valid found _
    active := fun call closer targets waits heard at' =>
      active_moves (fun _ _ here => here) moves (valid.active call closer targets waits heard at')
    answered := answered_moves moves valid.answered
    back := fun call closer heard at' =>
      ⟨answered_moves moves (valid.back call closer heard at').1, (valid.back call closer heard at').2⟩ }

theorem send_valid (valid : s.Valid) {j : Nat} {job : Job} (found : s.jobs j = some job) (taken : s.send j job = some next) :
    next.Valid := by
  unfold send at taken
  cases phase : job.phase with
  | finished err =>
      rw [phase] at taken
      cases taken
      exact posted_valid valid found (by rw [phase]; trivial) trivial (by rw [phase]; rfl) (fun _ => rfl) fun _ => rfl
  | _ =>
      rw [phase] at taken
      cases taken

theorem closeChannel_valid (valid : s.Valid) {j : Nat} {job : Job} (found : s.jobs j = some job)
    (taken : s.closeChannel j job = some next) : next.Valid := by
  unfold closeChannel at taken
  cases phase : job.phase with
  | sent err =>
      rw [phase] at taken
      cases taken
      have ok := valid.job j job found
      have same : job.phase.outcome = some err := by rw [phase]; rfl
      exact posted_valid valid found (by rw [phase]; trivial) trivial same.symm (fun some => (ok.buffer some).2.trans same)
        fun kept => (kept (by rw [phase]; trivial)).trans same
  | _ =>
      rw [phase] at taken
      cases taken

theorem step_valid (state : Manager) (action : Action) (next : Manager) (valid : state.Valid)
    (taken : step state action = some next) : next.Valid := by
  cases action with
  | connect call name =>
      obtain ⟨idle, same⟩ := Option.ite_none_right_eq_some.mp taken
      cases same
      exact connect_valid valid idle name
  | factory call made =>
      dsimp only [step] at taken
      split at taken
      · next name connecting =>
          cases taken
          exact factory_valid valid connecting made
      · cases taken
  | initializeResult call ok =>
      dsimp only [step] at taken
      split at taken
      · next name created =>
          cases taken
          exact initialize_valid valid created ok
      · cases taken
  | register call =>
      dsimp only [step] at taken
      split at taken
      · next name initialized =>
          cases taken
          exact register_valid valid initialized
      · cases taken
  | discarded call err =>
      obtain ⟨discarding, same⟩ := Option.ite_none_right_eq_some.mp taken
      cases same
      exact discarded_valid valid discarding err
  | lock call closer =>
      dsimp only [step] at taken
      split at taken
      · obtain ⟨-, same⟩ := Option.ite_none_right_eq_some.mp taken
        cases same
        exact lock_valid valid call closer
      · cases taken
  | snapshot order =>
      dsimp only [step] at taken
      split at taken
      · exact snapshot_valid valid taken
      · cases taken
  | startTarget =>
      dsimp only [step] at taken
      split at taken
      · next mu =>
          cases taken
          exact startTarget_valid valid mu
      · cases taken
  | receive =>
      dsimp only [step] at taken
      split at taken
      · next mu => exact receive_valid valid mu taken
      · cases taken
  | expire =>
      dsimp only [step] at taken
      split at taken
      · next mu =>
          cases taken
          exact expire_valid valid mu
      · cases taken
  | clearClosing =>
      dsimp only [step] at taken
      split at taken
      · next mu =>
          cases taken
          exact clearClosing_valid valid mu
      · cases taken
  | unlock =>
      dsimp only [step] at taken
      split at taken
      · next mu =>
          cases taken
          exact unlock_valid valid mu
      · cases taken
  | closeReturns j err =>
      obtain ⟨job, found, taken⟩ := Option.bind_eq_some_iff.mp taken
      exact closeReturns_valid valid found taken
  | finish j =>
      obtain ⟨job, found, taken⟩ := Option.bind_eq_some_iff.mp taken
      exact finish_valid valid found taken
  | send j =>
      obtain ⟨job, found, taken⟩ := Option.bind_eq_some_iff.mp taken
      exact send_valid valid found taken
  | closeChannel j =>
      obtain ⟨job, found, taken⟩ := Option.bind_eq_some_iff.mp taken
      exact closeChannel_valid valid found taken

theorem settled_conserved (valid : s.Valid) {c : Nat} (made : s.client c ≠ .absent) :
    s.Registered c ∨ s.Held c ∨ s.Closing c := by
  rcases valid.settled c made with created | initialized | discarding | ⟨name, -, registered | closed⟩ | ⟨-, closed | failed⟩
  · exact .inr (.inl (.inl created))
  · exact .inr (.inl (.inr initialized))
  · exact .inr (.inr (.inl (valid.discarding c discarding)))
  · exact .inl ⟨name, registered⟩
  · exact .inr (.inr (.inr (.inl closed)))
  · exact .inr (.inr (.inr (.inl closed)))
  · exact .inr (.inr (.inr (.inr failed)))

theorem valid_sound (s : Manager) (valid : s.Valid) : s.Sound where
  unique name c c' first second :=
    Option.some.inj ((mem_registered_iff.mp first).symm.trans (mem_registered_iff.mp second))
  conserved _ made := settled_conserved valid made
  answered := valid.answered
  returned call closer heard at' := (valid.back call closer heard at').1
  waiting call closer targets waits heard at' wait member := by
    obtain ⟨job, ok⟩ := (valid.active call closer targets waits heard at').wait wait member
    exact ⟨job, ok.found, ok.name, ok.unread⟩
  shut call heard at' fine := by
    obtain ⟨none, closed⟩ := (valid.back call .closeContext heard at').2 rfl fine
    refine ⟨registered_empty_iff.mpr none, closed, fun c made => ?_⟩
    rcases valid.settled c made with created | initialized | discarding | ⟨name, -, registered | closed⟩ |
      ⟨discarded, closed | failed⟩
    · exact .inr (.inl (.inl created))
    · exact .inr (.inl (.inr initialized))
    · exact .inr (.inr (.inl discarding))
    · rw [none] at registered
      cases registered
    · exact .inl closed
    · exact .inl closed
    · exact .inr (.inr (.inr ⟨discarded, failed⟩))

theorem sound_always (path : List Action) : Always step Sound new path :=
  always_mono valid_sound (always_invariant step_valid valid_new path)

def lateConnect : List Action :=
  [.connect 0 (lit "a"), .factory 0 true, .lock 1 .closeContext, .snapshot [], .clearClosing, .unlock]

theorem lateConnect_live : ∃ s, run step new lateConnect = some s ∧ s.closes 1 = .returned .closeContext [] ∧
    s.client 0 = .live ∧
    ¬ s.Registered 0 ∧ ¬ s.Claimed := by
  refine ⟨_, rfl, rfl, rfl, ?_, fun claimed => ?_⟩
  · rintro ⟨name, found⟩
    cases found
  · rcases claimed.conserved 0 nofun with ⟨name, found⟩ | closing | closed | failed
    · cases found
    · cases closing
    · cases closed
    · cases failed

end Brainkit.Mcp.Manager
