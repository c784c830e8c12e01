import Brainkit.Packages.Domain

set_option autoImplicit false

namespace Brainkit.Packages.Domain

open Function (update)
open GoText Modules Transition

def Quiet (s : Domain) : Prop := ∀ i, s.call i = .idle ∨ s.call i = .returned

def Lists (order : List BuiltPackage) (s : Domain) (name source : GoString) : Prop :=
  ∃ info ∈ s.list order, info.name = name ∧ info.source = source

def Agrees (s : Domain) : Prop :=
  ∀ order : List BuiltPackage, order.Perm (s.deployed.entries.map Sigma.snd) →
    ∀ name source, s.Lists order name source ↔ s.deployments.lookup source = some name

def KeepsSource (s : Domain) : Action → Prop
  | .record i => ∀ pkg, s.call i = .artifact pkg →
      (∀ old, s.deployed.lookup pkg.name = some old → old.source = pkg.source ∨ s.deployments.lookup old.source = none) ∧
      ((s.deployments.lookup pkg.source).isSome → ∀ name other, s.deployed.lookup name = some other →
        other.source = pkg.source → name = pkg.name)
  | _ => True

structure Recorded (s : Domain) (source name : GoString) : Prop where
  here : ∃ pkg, s.deployed.lookup name = some pkg ∧ pkg.source = source
  only : ∀ other pkg, s.deployed.lookup other = some pkg → pkg.source = source → other = name

def Pending (s : Domain) (source name : GoString) : Prop :=
  ∃ i, s.call i = .found source ∨ ∃ pkg, s.call i = .artifact pkg ∧ pkg.name = name ∧ pkg.source = source

structure Traced (s : Domain) : Prop where
  named : ∀ name pkg, s.deployed.lookup name = some pkg → pkg.name = name
  traced : ∀ source name, s.deployments.lookup source = some name → s.Recorded source name ∨ s.Pending source name

variable {s next : Domain}

theorem traced_new : new.Traced := ⟨fun _ _ found => (nomatch found), fun _ _ found => (nomatch found)⟩

theorem call_other {i j : Nat} {pc : CallPc} (other : j ≠ i) : (s.setCall i pc).call j = s.call j := by
  simp only [setCall, Function.update_of_ne other]

theorem pending_kept {i : Nat} {pc : CallPc} {source name : GoString} (pending : s.Pending source name)
    (apart : s.call i ≠ .found source) (apart' : ∀ pkg, s.call i = .artifact pkg → pkg.name = name → pkg.source ≠ source)
    (calls : next.call = (s.setCall i pc).call) : next.Pending source name := by
  obtain ⟨j, holds⟩ := pending
  have other : j ≠ i := by
    rintro rfl
    obtain found | ⟨pkg, artifact, named, same⟩ := holds
    · exact apart found
    · exact apart' pkg artifact named same
  refine ⟨j, ?_⟩
  rwa [calls, call_other other]

theorem recorded_same {source name : GoString} (recorded : s.Recorded source name) (deployed : next.deployed = s.deployed) :
    next.Recorded source name := by
  constructor
  · rw [deployed]
    exact recorded.here
  · rw [deployed]
    exact recorded.only

theorem idle_traced (traced : s.Traced) (i : Nat) (pc : CallPc) (apart : ∀ source, s.call i ≠ .found source)
    (apart' : ∀ pkg, s.call i ≠ .artifact pkg) : (s.setCall i pc).Traced where
  named := traced.named
  traced source name found := by
    have before : s.Recorded source name ∨ s.Pending source name := traced.traced source name found
    exact before.elim (fun recorded => .inl (recorded_same recorded rfl))
      fun pending => .inr (pending_kept pending (apart source) (fun pkg holds => absurd holds (apart' pkg)) rfl)

theorem deployArtifact_traced (traced : s.Traced) {i : Nat} {pkg : BuiltPackage} (built : s.call i = .built pkg) (evaluates : Bool) :
    (s.deployArtifact i pkg evaluates).Traced := by
  have apart (source : GoString) : s.call i ≠ .found source := by
    rw [built]
    exact nofun
  have apart' (other : BuiltPackage) : s.call i ≠ .artifact other := by
    rw [built]
    exact nofun
  have kept (pc : CallPc) {source name : GoString} (found : s.deployments.lookup source = some name) {next : Domain}
      (deployed : next.deployed = s.deployed) (calls : next.call = (s.setCall i pc).call) :
      next.Recorded source name ∨ next.Pending source name :=
    (traced.traced source name found).imp (fun recorded => recorded_same recorded deployed)
      fun pending => pending_kept pending (apart source) (fun pkg holds => absurd holds (apart' pkg)) calls
  unfold deployArtifact
  split
  · exact idle_traced traced i .returned apart apart'
  split
  · refine ⟨traced.named, fun source name found => ?_⟩
    change (s.deployments.insert pkg.source pkg.name).lookup source = some name at found
    by_cases here : source = pkg.source
    · rw [here, AList.lookup_insert] at found
      cases found
      exact .inr ⟨i, .inr ⟨pkg, Function.update_self .., rfl, here.symm⟩⟩
    · rw [AList.lookup_insert_ne here] at found
      exact kept (.artifact pkg) found rfl rfl
  · refine ⟨traced.named, fun source name found => ?_⟩
    change (s.deployments.erase pkg.source).lookup source = some name at found
    by_cases here : source = pkg.source
    · rw [here, AList.lookup_erase] at found
      cases found
    · rw [AList.lookup_erase_ne here] at found
      exact kept .returned found rfl rfl

theorem record_traced (traced : s.Traced) {i : Nat} {pkg : BuiltPackage} (artifact : s.call i = .artifact pkg)
    (keeps : s.KeepsSource (.record i)) : (s.record i pkg).Traced := by
  obtain ⟨keeps, only⟩ := keeps pkg artifact
  constructor
  · intro name other found
    change (s.deployed.insert pkg.name pkg).lookup name = some other at found
    by_cases here : name = pkg.name
    · rw [here, AList.lookup_insert] at found
      cases found
      exact here.symm
    · rw [AList.lookup_insert_ne here] at found
      exact traced.named name other found
  · intro source name found
    change s.deployments.lookup source = some name at found
    by_cases mine : pkg.source = source ∧ pkg.name = name
    · obtain ⟨rfl, rfl⟩ := mine
      refine .inl ⟨⟨pkg, AList.lookup_insert .., rfl⟩, fun other held place same => ?_⟩
      change (s.deployed.insert pkg.name pkg).lookup other = some held at place
      by_cases here : other = pkg.name
      · exact here
      · rw [AList.lookup_insert_ne here] at place
        exact only (by rw [found]; rfl) other held place same
    · have before := traced.traced source name found
      refine before.imp (fun recorded => ?_) fun pending => ?_
      · obtain ⟨⟨old, place, same⟩, single⟩ := recorded
        have other : name ≠ pkg.name := by
          intro here
          rcases keeps old (here ▸ place) with moved | gone
          · exact mine ⟨moved.symm.trans same, here.symm⟩
          · rw [same, found] at gone
            cases gone
        refine ⟨⟨old, (AList.lookup_insert_ne other).trans place, same⟩, fun third held at' same' => ?_⟩
        change (s.deployed.insert pkg.name pkg).lookup third = some held at at'
        by_cases here : third = pkg.name
        · rw [here, AList.lookup_insert] at at'
          cases at'
          subst same'
          exact absurd (only (by rw [found]; rfl) name old place same) other
        · rw [AList.lookup_insert_ne here] at at'
          exact single third held at' same'
      · refine pending_kept pending ?_ ?_ rfl
        · rw [artifact]
          exact nofun
        · rintro other holds named same
          rw [artifact] at holds
          cases holds
          exact mine ⟨same, named⟩

theorem find_traced (traced : s.Traced) {i : Nat} (idle : s.call i = .idle) (name : GoString) : (s.find i name).Traced := by
  have apart (source : GoString) : s.call i ≠ .found source := by
    rw [idle]
    exact nofun
  have apart' (other : BuiltPackage) : s.call i ≠ .artifact other := by
    rw [idle]
    exact nofun
  unfold find
  split
  · next pkg place =>
      constructor
      · intro other held found
        exact traced.named other held (lookup_erase_sub found)
      · intro source owner found
        change s.deployments.lookup source = some owner at found
        refine (traced.traced source owner found).elim (fun recorded => ?_) fun pending => ?_
        · by_cases mine : pkg.source = source
          · exact .inr ⟨i, .inl (by simp only [setCall, Function.update_self, mine])⟩
          · obtain ⟨⟨old, at', same⟩, single⟩ := recorded
            have other : owner ≠ name := by
              rintro rfl
              cases at'.symm.trans place
              exact mine same
            refine .inl ⟨⟨old, (AList.lookup_erase_ne other).trans at', same⟩, fun third held there => ?_⟩
            exact single third held (lookup_erase_sub there)
        · exact .inr (pending_kept pending (apart source) (fun pkg holds => absurd holds (apart' pkg)) rfl)
  · exact idle_traced traced i _ apart apart'

theorem teardownArtifact_traced (traced : s.Traced) {i : Nat} {source : GoString} (holds : s.call i = .found source) :
    (s.teardownArtifact i source).Traced where
  named := traced.named
  traced other name found := by
    change (s.deployments.erase source).lookup other = some name at found
    by_cases here : other = source
    · rw [here, AList.lookup_erase] at found
      cases found
    · rw [AList.lookup_erase_ne here] at found
      refine (traced.traced other name found).elim (fun recorded => .inl (recorded_same recorded rfl)) fun pending => .inr ?_
      refine pending_kept pending ?_ ?_ rfl
      · rw [holds]
        exact fun same => here (CallPc.found.inj same).symm
      · rw [holds]
        exact nofun

theorem traced_step (state : Domain) (action : Action) (next : Domain) (traced : state.Traced) (keeps : state.KeepsSource action)
    (taken : step state action = some next) : next.Traced := by
  cases action with
  | deploy i pkg =>
      dsimp only [step] at taken
      split at taken
      · next idle =>
          cases taken
          exact idle_traced traced i _ (by rw [idle]; exact nofun) (by rw [idle]; exact nofun)
      · cases taken
  | deployArtifact i evaluates =>
      dsimp only [step] at taken
      split at taken
      · next built =>
          cases taken
          exact deployArtifact_traced traced built evaluates
      · cases taken
  | record i =>
      dsimp only [step] at taken
      split at taken
      · next artifact =>
          cases taken
          exact record_traced traced artifact keeps
      · cases taken
  | teardown i name =>
      dsimp only [step] at taken
      split at taken
      · next idle =>
          cases taken
          exact find_traced traced idle name
      · cases taken
  | teardownArtifact i =>
      dsimp only [step] at taken
      split at taken
      · next holds =>
          cases taken
          exact teardownArtifact_traced traced holds
      · cases taken

theorem lookup_metadata {pkg : BuiltPackage} {order : List BuiltPackage} {found : Table BuiltPackage} {source : GoString}
    (only : ∀ other ∈ order, other.source = source → other = pkg)
    (present : pkg ∈ order ∧ pkg.source = source ∨ found.lookup source = some pkg) :
    (order.foldl (fun found pkg => found.insert pkg.source pkg) found).lookup source = some pkg := by
  induction order generalizing found with
  | nil => exact present.elim (fun absent => nomatch absent.1) id
  | cons first rest ih =>
      rw [List.foldl_cons]
      refine ih (fun other member => only other (List.mem_cons_of_mem first member)) ?_
      by_cases here : first.source = source
      · obtain rfl := only first List.mem_cons_self here
        exact .inr (here ▸ AList.lookup_insert ..)
      · rw [AList.lookup_insert_ne (Ne.symm here)]
        refine present.imp (fun member => ⟨?_, member.2⟩) id
        refine (List.mem_cons.mp member.1).resolve_left ?_
        rintro rfl
        exact here member.2

theorem quiet_agrees (traced : s.Traced) (quiet : s.Quiet) : s.Agrees := by
  intro order perm name source
  have listed {owner : GoString} (deployed : s.deployments.lookup source = some owner) :
      ∃ pkg, (metadata order).lookup source = some pkg ∧ pkg.name = owner := by
    obtain ⟨⟨pkg, place, same⟩, single⟩ : s.Recorded source owner := by
      refine (traced.traced source owner deployed).resolve_right ?_
      rintro ⟨i, found | ⟨pkg, artifact, -⟩⟩
      · rcases quiet i with idle | idle <;> cases found.symm.trans idle
      · rcases quiet i with idle | idle <;> cases artifact.symm.trans idle
    refine ⟨pkg, lookup_metadata (fun other member here => ?_) (.inl ⟨?_, same⟩), traced.named owner pkg place⟩
    · obtain ⟨⟨key, held⟩, entry, rfl⟩ := List.mem_map.mp (perm.mem_iff.mp member)
      have at' : s.deployed.lookup key = some held := AList.mem_lookup_iff.mpr entry
      rw [single key held at' here, place] at at'
      exact (Option.some.inj at').symm
    · exact perm.mem_iff.mpr (List.mem_map.mpr ⟨⟨owner, pkg⟩, AList.mem_lookup_iff.mp place, rfl⟩)
  have held (member : source ∈ s.deployments) : ∃ owner, s.deployments.lookup source = some owner :=
    Option.isSome_iff_exists.mp (AList.lookup_isSome.mpr member)
  constructor
  · rintro ⟨info, member, named, same⟩
    obtain ⟨key, entry, made⟩ := List.mem_map.mp member
    obtain rfl : key = source := by
      rw [← same, ← made]
      split <;> rfl
    obtain ⟨owner, deployed⟩ := held (AList.mem_keys.mp entry)
    obtain ⟨pkg, place, rfl⟩ := listed deployed
    rw [place] at made
    rw [← named, ← made]
    exact deployed
  · intro deployed
    obtain ⟨pkg, place, rfl⟩ := listed deployed
    refine ⟨⟨pkg.name, pkg.version, source⟩, List.mem_map.mpr ⟨source, ?_, ?_⟩, rfl, rfl⟩
    · exact AList.lookup_isSome.mp (by rw [deployed]; rfl)
    · simp only [place]

theorem quiet_agrees_always {path : List Action} (keeps : Along step KeepsSource new path) :
    Always step (fun s => s.Quiet → s.Agrees) new path :=
  always_mono (fun _ traced quiet => quiet_agrees traced quiet) (always_along traced_step traced_new keeps)

-- A package that is deployed and torn down, while a second call of Deploy fails.
theorem deployed_agrees : Always step (fun s => s.Quiet → s.Agrees) new
    [.deploy 0 (some (buildDir (lit "n") (lit "1"))), .deployArtifact 0 true, .deploy 1 (some (buildDir (lit "n") (lit "2"))),
      .record 0,
      .deployArtifact 1 false, .teardown 2 (lit "n"), .teardownArtifact 2] := by
  refine quiet_agrees_always (along_cons trivial rfl (along_cons trivial rfl (along_cons trivial rfl (along_cons ?_ rfl
    (along_cons trivial rfl (along_cons trivial rfl (along_cons trivial rfl trivial)))))))
  exact fun pkg _ => ⟨fun old place => (nomatch place), fun _ name other place => (nomatch place)⟩

-- The entry decides the source, so that a second deploy of the package leaves the first source deployed.
theorem unlisted : ∃ s, run step new
      [.deploy 0 (some (buildFiles (lit "n") (lit "1") (lit "index.ts"))), .deployArtifact 0 true, .record 0,
        .deploy 1 (some (buildFiles (lit "n") (lit "2") (lit "index.js"))), .deployArtifact 1 true, .record 1] = some s ∧
    s.Quiet ∧ s.deployments.lookup (lit "n.ts") = some (lit "n") ∧
    (∀ order : List BuiltPackage, order.Perm (s.deployed.entries.map Sigma.snd) → ¬ s.Lists order (lit "n") (lit "n.ts")) ∧
    ¬ s.Agrees := by
  have unlisted (s : Domain) (sources : s.deployments.keys = [lit "n.js", lit "n.ts"])
      (recorded : s.deployed.entries.map Sigma.snd = [buildFiles (lit "n") (lit "2") (lit "index.js")])
      (order : List BuiltPackage) (perm : order.Perm (s.deployed.entries.map Sigma.snd)) : ¬ s.Lists order (lit "n") (lit "n.ts") := by
    rw [recorded, List.perm_singleton] at perm
    subst perm
    unfold Lists list
    rw [sources]
    decide
  refine ⟨_, rfl, ?_, rfl, unlisted _ rfl rfl, fun agrees => ?_⟩
  · rintro (_ | _ | i)
    · exact .inr rfl
    · exact .inr rfl
    · exact .inl rfl
  · exact unlisted _ rfl rfl _ (.refl _) ((agrees _ (.refl _) _ _).mpr rfl)

end Brainkit.Packages.Domain
