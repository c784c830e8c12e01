import Brainkit.Library.Highest
import Brainkit.Tools.Registry
import Brainkit.Tools.Versions

set_option autoImplicit false

namespace Brainkit.Tools

open GoText Sdk Plugins

def plain (t : RegisteredTool) : Bool := !isPrerelease t.version

def releases (keep : RegisteredTool → Bool) (order : List RegisteredTool) : List RegisteredTool :=
  order.filter fun t => keep t && plain t

theorem mem_releases {keep : RegisteredTool → Bool} {order : List RegisteredTool} {t : RegisteredTool} :
    t ∈ releases keep order ↔ t ∈ order ∧ keep t = true ∧ plain t = true := by
  simp [releases, List.mem_filter]

abbrev standing (t : RegisteredTool) : Rank := rank t.version

theorem findHighest_from (keep : RegisteredTool → Bool) (order : List RegisteredTool) (best : Option RegisteredTool)
    (fit : ∀ b, best = some b → plain b = true) :
    order.foldl (fun best t =>
      if !keep t then best
      else if isPrerelease t.version then best
      else match best with
        | none => some t
        | some b => if 0 < compareSemver t.version b.version then some t else some b) best =
      Highest.scan standing best (releases keep order) := by
  induction order generalizing best with
  | nil => cases best <;> rfl
  | cons t rest ih =>
      rw [List.foldl_cons]
      cases kept : keep t with
      | false => simpa [releases, kept] using ih best fit
      | true =>
          cases early : isPrerelease t.version with
          | true => simpa [releases, plain, kept, early] using ih best fit
          | false =>
              have place : releases keep (t :: rest) = t :: releases keep rest := by
                simp [releases, plain, kept, early]
              have released : plain t = true := by simp [plain, early]
              cases best with
              | none =>
                  rw [place]
                  exact ih (some t) fun b same => Option.some.inj same ▸ released
              | some b =>
                  have fresh : isPrerelease b.version = false := by simpa [plain] using fit b rfl
                  rw [place, Highest.scan]
                  simp only [Bool.not_true, Bool.false_eq_true, if_false, compareSemver_rank early fresh]
                  refine ih _ fun other same => ?_
                  split at same
                  · exact Option.some.inj same ▸ released
                  · exact Option.some.inj same ▸ fit b rfl

theorem findHighest_scan (keep : RegisteredTool → Bool) (order : List RegisteredTool) :
    findHighest keep order = Highest.scan standing none (releases keep order) := findHighest_from keep order none nofun

theorem findHighest_none {keep : RegisteredTool → Bool} {order : List RegisteredTool} (empty : releases keep order = []) :
    findHighest keep order = none := by
  rw [findHighest_scan, empty]
  rfl

theorem findHighest_some {keep : RegisteredTool → Bool} {order : List RegisteredTool} (some : releases keep order ≠ []) :
    ∃ top ∈ releases keep order, findHighest keep order = .some top ∧
      ∀ t ∈ releases keep order, standing t ≤ standing top := by
  rw [findHighest_scan]
  exact Highest.scan_none standing _ some

theorem findHighest_found {keep : RegisteredTool → Bool} {order : List RegisteredTool} {t : RegisteredTool}
    (found : findHighest keep order = some t) : t ∈ releases keep order := by
  by_cases empty : releases keep order = []
  · cases (findHighest_none empty).symm.trans found
  · obtain ⟨top, inside, same, -⟩ := findHighest_some empty
    exact Option.some.inj (same.symm.trans found) ▸ inside

theorem findHighest_top {keep : RegisteredTool → Bool} {tools order : List RegisteredTool} {top : RegisteredTool}
    (perm : order.Perm tools) (inside : top ∈ releases keep tools)
    (above : ∀ t ∈ releases keep tools, t ≠ top → standing t < standing top) : findHighest keep order = some top := by
  rw [findHighest_scan]
  exact Highest.scan_top inside above (perm.filter _)

theorem findHighest_first {keep : RegisteredTool → Bool} {tools : List RegisteredTool} {top : RegisteredTool}
    (inside : top ∈ releases keep tools) (most : ∀ t ∈ releases keep tools, standing t ≤ standing top) :
    findHighest keep (top :: tools.erase top) = some top := by
  obtain ⟨-, kept, released⟩ := mem_releases.mp inside
  have visited : releases keep (top :: tools.erase top) = top :: releases keep (tools.erase top) := by
    simp [releases, kept, released]
  rw [findHighest_scan, visited, Highest.scan]
  refine Highest.scan_keeps _ top fun t member => most t ?_
  obtain ⟨remaining, rest⟩ := mem_releases.mp member
  exact mem_releases.mpr ⟨List.mem_of_mem_erase remaining, rest⟩

def ToolName.Versionless (n : ToolName) : Prop := n.pkg ≠ [] ∧ n.version = [] ∧ n.tool ≠ []

instance (n : ToolName) : Decidable n.Versionless := inferInstanceAs (Decidable (_ ∧ _ ∧ _))

theorem versionless_new {name : GoString} (versionless : (parseToolName name).Versionless) : isNewFormat name = true := by
  by_contra short
  rw [parseToolName, if_pos (by simpa using short)] at versionless
  exact versionless.1 rfl

-- A version that semantic versioning knows as a release; one it does not know is taken as the code takes it.
def isRelease (version : GoString) : Bool := (Semver.release version).isSome || !isPrerelease version

namespace ToolRegistry

-- What a call of Resolve can return. The registry holds the same tools whatever the order of their registration, and
-- each range statement visits the map in an order of its own.
def Reads (r : ToolRegistry) (name : GoString) (result : Except BrainkitError RegisteredTool) : Prop :=
  ∃ (s : ToolRegistry) (first second : List RegisteredTool), s.tools.Perm r.tools ∧ first.Perm s.tools ∧
    second.Perm s.tools ∧ s.resolve name first second = result

theorem reads_iff {r : ToolRegistry} {name : GoString} {result : Except BrainkitError RegisteredTool} :
    r.Reads name result ↔ ∃ first second : List RegisteredTool, first.Perm r.tools ∧ second.Perm r.tools ∧
      r.resolve name first second = result := by
  constructor
  · rintro ⟨s, first, second, same, one, two, rfl⟩
    refine ⟨first, second, one.trans same, two.trans same, ?_⟩
    simp only [resolve, resolveNewFormat, lookup_perm same]
  · rintro ⟨first, second, one, two, rfl⟩
    exact ⟨r, first, second, .rfl, one, two, rfl⟩

def Deterministic (r : ToolRegistry) (name : GoString) : Prop :=
  ∀ one other, r.Reads name one → r.Reads name other → one = other

-- The tools that a versionless name means. Without an owner these are the brainlet's where it has a release.
def candidate (r : ToolRegistry) (n : ToolName) : RegisteredTool → Bool :=
  if n.owner ≠ [] then matchesOwner n.owner n.pkg n.tool
  else if r.tools.any fun t => matchesOwner brainlet n.pkg n.tool t && isRelease t.version then
    matchesOwner brainlet n.pkg n.tool
  else matchesAnyOwner n.pkg n.tool

structure Newest (r : ToolRegistry) (n : ToolName) (result : Except BrainkitError RegisteredTool) : Prop where
  released : ∀ t, result = .ok t → t ∈ r.tools ∧ r.candidate n t = true ∧ isRelease t.version = true
  highest : ∀ u ∈ r.tools, r.candidate n u = true → ∀ w, Semver.release u.version = some w →
    ∃ t v, result = .ok t ∧ Semver.release t.version = some v ∧ w ≤ v

-- The same tool in any order, and the highest version of a versionless name that is no registered name itself.
structure Resolves (r : ToolRegistry) (name : GoString) : Prop where
  deterministic : r.Deterministic name
  highest : r.lookup name = none → (parseToolName name).Versionless →
    ∀ result, r.Reads name result → r.Newest (parseToolName name) result

-- CompareSemver puts one release above all others, and no candidate is a release of a higher version than that one.
def Summit (r : ToolRegistry) (n : ToolName) : Prop :=
  (releases (r.candidate n) r.tools = [] ∧
      ∀ u ∈ r.tools, r.candidate n u = true → Semver.release u.version = none) ∨
    ∃ top ∈ releases (r.candidate n) r.tools,
      (∀ t ∈ releases (r.candidate n) r.tools, t ≠ top → 0 < compareSemver top.version t.version) ∧
      ∀ u ∈ r.tools, r.candidate n u = true → ∀ w, Semver.release u.version = some w →
        ∃ v, Semver.release top.version = some v ∧ w ≤ v

structure Settled (r : ToolRegistry) (name : GoString) : Prop where
  versions : r.lookup name = none → (parseToolName name).Versionless → r.Summit (parseToolName name)
  short : r.lookup name = none → isNewFormat name = false → ∀ t ∈ r.tools, ∀ u ∈ r.tools, t.shortName = name →
    u.shortName = name → t = u

variable {r : ToolRegistry} {name : GoString} {first second : List RegisteredTool}

theorem resolve_owner (missing : r.lookup name = none) (versionless : (parseToolName name).Versionless)
    (owned : (parseToolName name).owner ≠ []) : r.resolve name first second =
      found name (findHighest (r.candidate (parseToolName name)) first) := by
  simp only [resolve, missing, versionless_new versionless, if_true, resolveNewFormat, candidate]
  rw [if_neg fun named => owned named.1, if_pos ⟨owned, versionless⟩, if_pos owned]
  rfl

theorem resolve_bare (missing : r.lookup name = none) (versionless : (parseToolName name).Versionless)
    (bare : (parseToolName name).owner = []) : r.resolve name first second = found name
      ((findHighest (matchesOwner brainlet (parseToolName name).pkg (parseToolName name).tool) first).or
        (findHighest (matchesAnyOwner (parseToolName name).pkg (parseToolName name).tool) second)) := by
  simp only [resolve, missing, versionless_new versionless, if_true, resolveNewFormat]
  rw [if_neg fun named => named.2.2.1 versionless.2.1, if_neg fun owned => owned.1 bare, if_pos ⟨bare, versionless⟩]
  rfl

-- Without an owner, the first scan finds none although the brainlet has a release: one that is read as a pre-release.
def Misread (r : ToolRegistry) (n : ToolName) : Prop :=
  n.owner = [] ∧ r.candidate n = matchesOwner brainlet n.pkg n.tool ∧ releases (r.candidate n) r.tools = [] ∧
    ∃ u ∈ r.tools, r.candidate n u = true ∧ (Semver.release u.version).isSome

theorem releases_none {keep : RegisteredTool → Bool} {tools : List RegisteredTool}
    (absent : (tools.any fun t => keep t && isRelease t.version) = false) : releases keep tools = [] := by
  refine List.filter_eq_nil_iff.mpr fun t member => ?_
  have unfit := List.any_eq_false.mp absent t member
  simp only [isRelease, plain, Bool.and_eq_true, Bool.or_eq_true, not_and, not_or] at unfit ⊢
  exact fun kept => (unfit kept).2

theorem resolve_candidate (missing : r.lookup name = none) (versionless : (parseToolName name).Versionless)
    (aright : ¬ r.Misread (parseToolName name)) (one : first.Perm r.tools) (two : second.Perm r.tools) :
    ∃ order, order.Perm r.tools ∧ (first = second → order = first) ∧
      r.resolve name first second = found name (findHighest (r.candidate (parseToolName name)) order) := by
  by_cases bare : (parseToolName name).owner = []
  · rw [resolve_bare missing versionless bare]
    by_cases own : (r.tools.any fun t =>
      matchesOwner brainlet (parseToolName name).pkg (parseToolName name).tool t && isRelease t.version) = true
    · have pool : r.candidate (parseToolName name) =
          matchesOwner brainlet (parseToolName name).pkg (parseToolName name).tool := by
        rw [candidate, if_neg (not_not_intro bare), if_pos own]
      have inside : releases (matchesOwner brainlet (parseToolName name).pkg (parseToolName name).tool) r.tools ≠ [] := by
        intro empty
        obtain ⟨u, member, fit⟩ := List.any_eq_true.mp own
        obtain ⟨kept, release⟩ := Bool.and_eq_true_iff.mp fit
        cases Bool.or_eq_true_iff.mp release with
        | inl known => exact aright ⟨bare, pool, pool ▸ empty, u, member, pool ▸ kept, known⟩
        | inr plain => exact List.not_mem_nil (empty ▸ mem_releases.mpr ⟨member, kept, plain⟩)
      obtain ⟨top, -, same, -⟩ := findHighest_some fun empty => inside (List.perm_nil.mp (empty ▸ one.symm.filter _))
      exact ⟨first, one, fun _ => rfl, by rw [pool, same, Option.some_or]⟩
    · have pool : r.candidate (parseToolName name) =
          matchesAnyOwner (parseToolName name).pkg (parseToolName name).tool := by
        rw [candidate, if_neg (not_not_intro bare), if_neg own]
      have none : releases (matchesOwner brainlet (parseToolName name).pkg (parseToolName name).tool) first = [] :=
        List.perm_nil.mp (releases_none (Bool.not_eq_true _ ▸ own) ▸ one.filter _)
      exact ⟨second, two, Eq.symm, by rw [pool, findHighest_none none, Option.none_or]⟩
  · exact ⟨first, one, fun _ => rfl, resolve_owner missing versionless bare⟩

theorem reads_found {tool : Option RegisteredTool} (one : first.Perm r.tools) (two : second.Perm r.tools)
    (same : r.resolve name first second = found name tool) : r.Reads name (found name tool) :=
  reads_iff.mpr ⟨first, second, one, two, same⟩

theorem found_ok {tool : Option RegisteredTool} {t : RegisteredTool} (same : found name tool = .ok t) : tool = some t := by
  cases tool with
  | none => cases same
  | some u => exact congrArg some (Except.ok.inj same)

theorem summit_aright {n : ToolName} (summit : r.Summit n) : ¬ r.Misread n := by
  rintro ⟨-, -, empty, u, member, kept, known⟩
  cases summit with
  | inl none => exact Option.isSome_iff_ne_none.mp known (none.2 u member kept)
  | inr some =>
      obtain ⟨top, inside, -⟩ := some
      exact List.not_mem_nil (empty ▸ inside)

theorem misread_fails (missing : r.lookup name = none) (versionless : (parseToolName name).Versionless)
    (misread : r.Misread (parseToolName name)) :
    ¬ r.Newest (parseToolName name) (r.resolve name r.tools r.tools) := by
  obtain ⟨bare, pool, empty, u, member, kept, known⟩ := misread
  intro newest
  obtain ⟨w, same⟩ := Option.isSome_iff_exists.mp known
  obtain ⟨t, -, result, -⟩ := newest.highest u member kept w same
  obtain ⟨inside, fit, -⟩ := newest.released t result
  rw [resolve_bare missing versionless bare, findHighest_none (pool ▸ empty), Option.none_or] at result
  have released : plain t = true := (mem_releases.mp (findHighest_found (found_ok result))).2.2
  exact List.not_mem_nil (empty ▸ mem_releases.mpr ⟨inside, fit, released⟩)

theorem reads_top (missing : r.lookup name = none) (versionless : (parseToolName name).Versionless)
    (aright : ¬ r.Misread (parseToolName name)) {top : RegisteredTool}
    (inside : top ∈ releases (r.candidate (parseToolName name)) r.tools)
    (most : ∀ t ∈ releases (r.candidate (parseToolName name)) r.tools, standing t ≤ standing top) :
    r.Reads name (.ok top) := by
  have perm := (List.perm_cons_erase (mem_releases.mp inside).1).symm
  obtain ⟨order, -, same, result⟩ := resolve_candidate missing versionless aright perm perm
  rw [same rfl, findHighest_first inside most] at result
  exact reads_found perm perm result

theorem above_iff {keep : RegisteredTool → Bool} {order : List RegisteredTool} {t u : RegisteredTool}
    (one : t ∈ releases keep order) (other : u ∈ releases keep order) :
    0 < compareSemver t.version u.version ↔ standing u < standing t := by
  have first := (mem_releases.mp one).2.2
  have second := (mem_releases.mp other).2.2
  simp only [plain, Bool.not_eq_true'] at first second
  exact compareSemver_rank first second

theorem resolves_summit (missing : r.lookup name = none) (versionless : (parseToolName name).Versionless)
    (resolves : r.Resolves name) : r.Summit (parseToolName name) := by
  have newest := resolves.highest missing versionless
  have aright : ¬ r.Misread (parseToolName name) := fun misread => misread_fails missing versionless misread
    (newest _ (reads_iff.mpr ⟨r.tools, r.tools, .rfl, .rfl, rfl⟩))
  by_cases empty : releases (r.candidate (parseToolName name)) r.tools = []
  · refine .inl ⟨empty, fun u member kept => ?_⟩
    obtain ⟨order, -, same, result⟩ := resolve_candidate missing versionless aright .rfl .rfl
    rw [same rfl, findHighest_none empty] at result
    by_contra known
    obtain ⟨w, release⟩ := Option.ne_none_iff_exists'.mp known
    obtain ⟨t, -, wrong, -⟩ := (newest _ (reads_found .rfl .rfl result)).highest u member kept w release
    cases wrong
  · obtain ⟨top, inside, -, most⟩ := findHighest_some empty
    have read := reads_top missing versionless aright inside most
    refine .inr ⟨top, inside, fun t member other => (above_iff inside member).mpr ?_, fun u member kept w release => ?_⟩
    · refine lt_of_le_of_ne (most t member) fun tie => other ?_
      have second := reads_top missing versionless aright member fun u within => tie ▸ most u within
      exact Except.ok.inj (resolves.deterministic _ _ second read)
    · obtain ⟨t, v, same, version, least⟩ := (newest _ read).highest u member kept w release
      exact ⟨v, Except.ok.inj same ▸ version, least⟩

theorem find_first {t : RegisteredTool} (short : t.shortName = name) :
    (t :: r.tools.erase t).find? (·.shortName = name) = some t := List.find?_cons_of_pos (by simpa using short)

theorem resolve_short (missing : r.lookup name = none) (short : isNewFormat name = false) :
    r.resolve name first second = found name (first.find? (·.shortName = name)) := by
  simp [resolve, missing, short]

theorem resolves_short (missing : r.lookup name = none) (short : isNewFormat name = false)
    (deterministic : r.Deterministic name) {t u : RegisteredTool} (one : t ∈ r.tools) (other : u ∈ r.tools)
    (named : t.shortName = name) (same : u.shortName = name) : t = u := by
  have reads {v : RegisteredTool} (member : v ∈ r.tools) (named : v.shortName = name) : r.Reads name (.ok v) := by
    have perm := (List.perm_cons_erase member).symm
    exact reads_iff.mpr ⟨_, _, perm, perm, by rw [resolve_short missing short, find_first named]; rfl⟩
  exact Except.ok.inj (deterministic _ _ (reads one named) (reads other same))

theorem summit_result (missing : r.lookup name = none) (versionless : (parseToolName name).Versionless)
    (summit : r.Summit (parseToolName name)) :
    ∃ result, r.Newest (parseToolName name) result ∧ ∀ other, r.Reads name other → other = result := by
  have scanned {other : Except BrainkitError RegisteredTool} (read : r.Reads name other) :
      ∃ order, order.Perm r.tools ∧ other = found name (findHighest (r.candidate (parseToolName name)) order) := by
    obtain ⟨first, second, one, two, rfl⟩ := reads_iff.mp read
    obtain ⟨order, perm, -, same⟩ := resolve_candidate missing versionless (summit_aright summit) one two
    exact ⟨order, perm, same⟩
  cases summit with
  | inl none =>
      refine ⟨found name Option.none, ⟨nofun, fun u member kept w release => ?_⟩, fun other read => ?_⟩
      · cases (none.2 u member kept).symm.trans release
      · obtain ⟨order, perm, rfl⟩ := scanned read
        rw [findHighest_none (List.perm_nil.mp (none.1 ▸ perm.filter _))]
  | inr some =>
      obtain ⟨top, inside, above, newest⟩ := some
      obtain ⟨member, kept, released⟩ := mem_releases.mp inside
      refine ⟨.ok top, ⟨fun t same => ?_, fun u member kept w release => ?_⟩, fun other read => ?_⟩
      · cases Except.ok.inj same
        exact ⟨member, kept, Bool.or_eq_true_iff.mpr (.inr released)⟩
      · obtain ⟨v, version, least⟩ := newest u member kept w release
        exact ⟨top, v, rfl, version, least⟩
      · obtain ⟨order, perm, rfl⟩ := scanned read
        rw [findHighest_top perm inside fun t within other => (above_iff inside within).mp (above t within other)]
        rfl

theorem short_deterministic (missing : r.lookup name = none) (short : isNewFormat name = false)
    (alone : ∀ t ∈ r.tools, ∀ u ∈ r.tools, t.shortName = name → u.shortName = name → t = u) : r.Deterministic name := by
  intro one other first second
  obtain ⟨first, -, oneFirst, -, rfl⟩ := reads_iff.mp first
  obtain ⟨second, -, otherFirst, -, rfl⟩ := reads_iff.mp second
  rw [resolve_short missing short, resolve_short missing short]
  congr 1
  have same {order : List RegisteredTool} (perm : order.Perm r.tools) {t : RegisteredTool} (found : t ∈ r.tools)
      (named : t.shortName = name) : order.find? (·.shortName = name) = some t := by
    cases place : order.find? (·.shortName = name) with
    | none => exact (List.find?_eq_none.mp place t (perm.mem_iff.mpr found) (by simpa using named)).elim
    | some u =>
        have member := perm.mem_iff.mp (List.mem_of_find?_eq_some place)
        rw [alone u member t found (by simpa using List.find?_some place) named]
  cases place : first.find? (·.shortName = name) with
  | none =>
      refine (List.find?_eq_none.mpr fun t member => ?_).symm
      exact List.find?_eq_none.mp place t (oneFirst.mem_iff.mpr (otherFirst.mem_iff.mp member))
  | some t =>
      have member := oneFirst.mem_iff.mp (List.mem_of_find?_eq_some place)
      exact (same otherFirst member (by simpa using List.find?_some place)).symm

theorem resolve_other (missing : r.lookup name = none) (new : isNewFormat name = true)
    (other : ¬ (parseToolName name).Versionless) (third fourth : List RegisteredTool) :
    r.resolve name first second = r.resolve name third fourth := by
  simp only [resolve, missing, new, if_true, resolveNewFormat]
  split
  · rfl
  · rw [if_neg fun named => other named.2, if_neg fun named => other named.2,
      if_neg fun named => other named.2, if_neg fun named => other named.2]

theorem resolves_iff (r : ToolRegistry) (name : GoString) : r.Resolves name ↔ r.Settled name := by
  constructor
  · intro resolves
    exact ⟨fun missing versionless => resolves_summit missing versionless resolves,
      fun missing short _ one _ other => resolves_short missing short resolves.deterministic one other⟩
  · rintro ⟨versions, short⟩
    refine ⟨?_, fun missing versionless result read => ?_⟩
    · cases place : r.lookup name with
      | some t =>
          intro one other first second
          obtain ⟨-, -, -, -, rfl⟩ := reads_iff.mp first
          obtain ⟨-, -, -, -, rfl⟩ := reads_iff.mp second
          simp only [resolve, place]
      | none =>
          cases new : isNewFormat name with
          | false => exact short_deterministic place new (short place new)
          | true =>
              intro one other first second
              by_cases versionless : (parseToolName name).Versionless
              · obtain ⟨result, -, all⟩ := summit_result place versionless (versions place versionless)
                rw [all one first, all other second]
              · obtain ⟨-, -, -, -, rfl⟩ := reads_iff.mp first
                obtain ⟨-, -, -, -, rfl⟩ := reads_iff.mp second
                exact resolve_other place new versionless _ _
    · obtain ⟨same, newest, all⟩ := summit_result missing versionless (versions missing versionless)
      exact all result read ▸ newest

-- Candidates with proper release numbers, all different, are told apart as semantic versioning tells them apart.
theorem summit_numbered {n : ToolName}
    (numbered : ∀ t ∈ r.tools, r.candidate n t = true → ∃ w, Numbered t.version w)
    (different : ∀ t ∈ r.tools, ∀ u ∈ r.tools, r.candidate n t = true → r.candidate n u = true →
      Semver.release t.version = Semver.release u.version → t = u) : r.Summit n := by
  have released {t : RegisteredTool} (member : t ∈ r.tools) (kept : r.candidate n t = true) :
      t ∈ releases (r.candidate n) r.tools := by
    obtain ⟨w, reading⟩ := numbered t member kept
    exact mem_releases.mpr ⟨member, kept, by rw [plain, (numbered_read reading).1]; rfl⟩
  by_cases empty : releases (r.candidate n) r.tools = []
  · exact .inl ⟨empty, fun u member kept => (List.not_mem_nil (empty ▸ released member kept)).elim⟩
  · obtain ⟨top, inside, -, most⟩ := findHighest_some empty
    obtain ⟨member, kept, -⟩ := mem_releases.mp inside
    obtain ⟨v, reading⟩ := numbered top member kept
    refine .inr ⟨top, inside, fun t within other => (above_iff inside within).mpr ?_, fun u within fit w release => ?_⟩
    · obtain ⟨another, fit, -⟩ := mem_releases.mp within
      obtain ⟨w, second⟩ := numbered t another fit
      refine (numbered_lt_iff second reading).mpr (lt_of_le_of_ne ?_ fun same => other ?_)
      · exact le_of_not_gt fun higher => not_lt_of_ge (most t within) ((numbered_lt_iff reading second).mpr higher)
      · exact different t another top member fit kept (by rw [second.known, reading.known, same])
    · obtain ⟨w', second⟩ := numbered u within fit
      cases second.known.symm.trans release
      exact ⟨v, reading.known, le_of_not_gt fun higher =>
        not_lt_of_ge (most u (released within fit)) ((numbered_lt_iff reading second).mpr higher)⟩

theorem register_fresh {tool : RegisteredTool} {s : ToolRegistry} (done : r.register tool = .ok s)
    (fresh : ∀ u ∈ r.tools, u.name ≠ tool.name) : s.tools = tool.completed :: r.tools := by
  rw [register_ok done]
  exact congrArg (List.cons _) (List.filter_eq_self.mpr fun u member => by simpa using fresh u member)

def registered (tools : List RegisteredTool) (r : ToolRegistry) : Except GoString ToolRegistry :=
  tools.foldlM (fun r tool => r.register tool) r

theorem registered_tools (tools : List RegisteredTool) (r s : ToolRegistry) (done : r.registered tools = .ok s)
    (distinct : (tools.map RegisteredTool.name).Nodup) (fresh : ∀ t ∈ tools, ∀ u ∈ r.tools, u.name ≠ t.name) :
    s.tools.Perm (tools.map RegisteredTool.completed ++ r.tools) := by
  induction tools generalizing r with
  | nil =>
      cases done
      exact .rfl
  | cons tool rest ih =>
      obtain ⟨alone, others⟩ := List.nodup_cons.mp distinct
      rw [registered, List.foldlM_cons] at done
      cases one : r.register tool with
      | error text =>
          rw [one] at done
          cases done
      | ok next =>
          rw [one] at done
          have added := register_fresh one (fresh tool List.mem_cons_self)
          have perm := ih next done others fun t later u member => ?_
          · exact perm.trans (added ▸ List.perm_middle)
          · cases List.mem_cons.mp (added ▸ member) with
            | inl same => exact fun equal => alone (List.mem_map.mpr ⟨t, later, by rw [← equal, same, completed_name]⟩)
            | inr known => exact fresh t (List.mem_cons_of_mem tool later) u known

theorem shuffled_resolved (tools others : List RegisteredTool) (r s : ToolRegistry) (name : GoString)
    (done : new.registered tools = .ok r) (again : new.registered others = .ok s) (shuffled : others.Perm tools)
    (distinct : (tools.map RegisteredTool.name).Nodup) (missing : r.lookup name = none)
    (versionless : (parseToolName name).Versionless)
    (numbered : ∀ t ∈ r.tools, r.candidate (parseToolName name) t = true → ∃ w, Numbered t.version w)
    (different : ∀ t ∈ r.tools, ∀ u ∈ r.tools, r.candidate (parseToolName name) t = true →
      r.candidate (parseToolName name) u = true → Semver.release t.version = Semver.release u.version → t = u) :
    ∃ result, r.Newest (parseToolName name) result ∧ ∀ read, r.Reads name read ∨ s.Reads name read → read = result := by
  obtain ⟨result, newest, all⟩ := summit_result missing versionless (summit_numbered numbered different)
  have first := registered_tools tools new r done distinct fun _ _ _ no => (by cases no)
  have second := registered_tools others new s again ((shuffled.map _).nodup_iff.mpr distinct) fun _ _ _ no => (by cases no)
  have same : s.tools.Perm r.tools := second.trans (((shuffled.map _).append_right _).trans first.symm)
  refine ⟨result, newest, fun read either => all read ?_⟩
  rcases either with here | there
  · exact here
  · obtain ⟨t, one, other, perm, rest⟩ := there
    exact ⟨t, one, other, perm.trans same, rest⟩

def cron (version : String) : RegisteredTool := ⟨lit ("brainlet/cron@" ++ version ++ "/create"), [], [], [], [], 0⟩

theorem cron_shuffled : ∃ r s, new.registered [cron "1.0.9", cron "1.0.10"] = .ok r ∧
    new.registered [cron "1.0.10", cron "1.0.9"] = .ok s ∧
    ∀ read, s.Reads (lit "brainlet/cron/create") read → r.Newest ⟨lit "brainlet", lit "cron", [], lit "create"⟩ read := by
  have known (version : GoString) (patch : Nat) (release : Semver.release version = some (toLex (1, toLex (0, patch))))
      (bare : 43 ∉ version) (small : patch < 2 ^ 63) : ∃ w, Numbered version w :=
    ⟨_, release, bare, by simp, by simp, small⟩
  have both : ∀ t ∈ [(cron "1.0.10").completed, (cron "1.0.9").completed], ∃ w, Numbered t.version w := by
    simp only [List.forall_mem_cons, List.not_mem_nil, false_imp_iff, implies_true, and_true]
    exact ⟨known _ 10 (by decide +kernel) (by decide +kernel) (by decide),
      known _ 9 (by decide +kernel) (by decide +kernel) (by decide)⟩
  refine ⟨_, _, rfl, rfl, fun read there => ?_⟩
  obtain ⟨result, newest, all⟩ := shuffled_resolved [cron "1.0.9", cron "1.0.10"] [cron "1.0.10", cron "1.0.9"] _ _
    (lit "brainlet/cron/create") rfl rfl (.swap _ _ _) (by decide +kernel) (by decide +kernel) (by decide +kernel)
    (fun t member _ => both t member) (by decide +kernel)
  exact all read (.inr there) ▸ newest

-- The patch number of 1.0.2+5 is read as 0.
theorem patched_lower : ∃ r, new.registered [cron "1.0.1", cron "1.0.2+5"] = .ok r ∧
    ¬ r.Resolves (lit "brainlet/cron/create") := by
  refine ⟨_, rfl, fun resolves => ?_⟩
  have newest := resolves.highest (by decide +kernel) (by decide +kernel) _ (reads_iff.mpr ⟨_, _, .rfl, .rfl, rfl⟩)
  obtain ⟨t, v, same, version, least⟩ := newest.highest (cron "1.0.2+5").completed (by decide +kernel) (by decide +kernel)
    (toLex (1, toLex (0, 2))) (by decide +kernel)
  have lower : some (cron "1.0.1").completed = some t := congrArg Except.toOption same
  rw [← Option.some.inj lower] at version
  have read : Semver.release (cron "1.0.1").completed.version = some (toLex (1, toLex (0, 1))) := by decide +kernel
  rw [← Option.some.inj (read.symm.trans version)] at least
  exact absurd least (by decide +kernel)

end ToolRegistry

end Brainkit.Tools
