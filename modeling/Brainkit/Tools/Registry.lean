import Brainkit.Plugins.WSServer
import Brainkit.Sdk.Errors
import Brainkit.Tools.Naming

set_option autoImplicit false

namespace Brainkit.Tools

open GoText Sdk Plugins

-- The names of a tool and its executor, which is a number that stands for the Go value.
structure RegisteredTool where
  name : GoString
  shortName : GoString
  owner : GoString
  package : GoString
  version : GoString
  executor : Nat
deriving DecidableEq

-- The map from names to tools, in no order that matters.
structure ToolRegistry where
  tools : List RegisteredTool
  keyed : (tools.map RegisteredTool.name).Nodup

def orElse (text fallback : GoString) : GoString := if text = [] then fallback else text

-- Register fills in the parts of the name that the caller has left out.
def RegisteredTool.completed (tool : RegisteredTool) : RegisteredTool :=
  if isNewFormat tool.name then
    let parts := parseToolName tool.name
    { tool with
      owner := orElse tool.owner parts.owner
      package := orElse tool.package parts.pkg
      version := orElse tool.version parts.version
      shortName := orElse tool.shortName parts.tool }
  else { tool with shortName := orElse tool.shortName tool.name }

theorem completed_name (tool : RegisteredTool) : tool.completed.name = tool.name := by
  unfold RegisteredTool.completed
  split <;> rfl

theorem splitVersion_composed {pkg : GoString} (unversioned : 64 ∉ pkg) (version : GoString) :
    splitVersion (pkg ++ 64 :: version) = (pkg, version) := by
  have before : ∀ c ∈ pkg, decide (c ≠ 64) = true := fun c member =>
    decide_eq_true fun same => unversioned (same ▸ member)
  have first : (pkg ++ 64 :: version).takeWhile (· ≠ 64) = pkg := by
    rw [List.takeWhile_append_of_pos before, List.takeWhile_cons_of_neg (by decide), List.append_nil]
  have rest : (pkg ++ 64 :: version).dropWhile (· ≠ 64) = 64 :: version := by
    rw [List.dropWhile_append_of_pos before, List.dropWhile_cons_of_neg (by decide)]
  rw [splitVersion, cut, List.span_eq_takeWhile_dropWhile, first, rest]
  rfl

theorem composeName_eq (owner pkg version tool : GoString) :
    composeName owner pkg version tool = owner ++ 47 :: (pkg ++ 64 :: version ++ 47 :: tool) := by
  have slash : lit "/" = [47] := by decide
  have at' : lit "@" = [64] := by decide
  simp only [composeName, slash, at', List.append_assoc, List.cons_append, List.nil_append]

theorem composed_slashed (owner pkg version tool : GoString) : isNewFormat (composeName owner pkg version tool) = true := by
  rw [composeName_eq, isNewFormat, List.contains_iff_mem]
  exact List.mem_append_right owner List.mem_cons_self

section Composed

variable {owner pkg version tool : GoString} (unslashed : 47 ∉ owner ∧ 47 ∉ pkg ∧ 47 ∉ version ∧ 47 ∉ tool)
  (unversioned : 64 ∉ pkg)
include unslashed unversioned

theorem parse_composed : parseToolName (composeName owner pkg version tool) = ⟨owner, pkg, version, tool⟩ := by
  obtain ⟨ownerPlain, pkgPlain, versionPlain, toolPlain⟩ := unslashed
  have middle : 47 ∉ pkg ++ 64 :: version := by
    simp only [List.mem_append, List.mem_cons, not_or]
    exact ⟨pkgPlain, by decide, versionPlain⟩
  have pieces : (composeName owner pkg version tool).splitOn 47 = [owner, pkg ++ 64 :: version, tool] := by
    rw [composeName_eq, List.splitOn_append_cons_self, List.splitOn_append_cons_self, List.splitOn_eq_singleton ownerPlain,
      List.splitOn_eq_singleton middle, List.splitOn_eq_singleton toolPlain]
    rfl
  rw [parseToolName, composed_slashed, pieces]
  simp only [Bool.not_true, Bool.false_eq_true, if_false, splitVersion_composed unversioned]

theorem completed_composed {t : RegisteredTool} (named : t.name = composeName owner pkg version tool) :
    t.completed =
      { t with
        owner := orElse t.owner owner
        package := orElse t.package pkg
        version := orElse t.version version
        shortName := orElse t.shortName tool } := by
  rw [RegisteredTool.completed, named, if_pos (composed_slashed owner pkg version tool), parse_composed unslashed unversioned]

end Composed

def RegisteredTool.parts (t : RegisteredTool) : ToolName := ⟨t.owner, t.package, t.version, t.shortName⟩

def RegisteredTool.Agrees (t : RegisteredTool) (name : ToolName) : Prop :=
  (t.owner = [] ∨ t.owner = name.owner) ∧ (t.package = [] ∨ t.package = name.pkg) ∧
    (t.version = [] ∨ t.version = name.version) ∧ (t.shortName = [] ∨ t.shortName = name.tool)

theorem orElse_eq_iff {text fallback : GoString} : orElse text fallback = fallback ↔ text = [] ∨ text = fallback := by
  unfold orElse
  split
  · next empty => exact ⟨fun _ => .inl empty, fun _ => rfl⟩
  · next filled => exact ⟨.inr, fun either => either.resolve_left filled⟩

def findHighest (keep : RegisteredTool → Bool) (order : List RegisteredTool) : Option RegisteredTool :=
  order.foldl (fun best t =>
    if !keep t then best
    else if isPrerelease t.version then best
    else match best with
      | none => some t
      | some b => if 0 < compareSemver t.version b.version then some t else some b) none

def matchesOwner (owner pkg tool : GoString) (t : RegisteredTool) : Bool :=
  t.owner = owner && t.package = pkg && t.shortName = tool

def matchesAnyOwner (pkg tool : GoString) (t : RegisteredTool) : Bool := t.package = pkg && t.shortName = tool

namespace ToolRegistry

def new : ToolRegistry := ⟨[], List.nodup_nil⟩

def unregister (name : GoString) (r : ToolRegistry) : ToolRegistry :=
  ⟨r.tools.filter (·.name ≠ name), r.keyed.sublist (List.filter_sublist.map _)⟩

theorem unregister_absent (name : GoString) (r : ToolRegistry) : name ∉ (r.unregister name).tools.map RegisteredTool.name := by
  simp [unregister]

def register (tool : RegisteredTool) (r : ToolRegistry) : Except GoString ToolRegistry :=
  if tool.name = [] then .error (lit "registry: tool name is required")
  else .ok ⟨tool.completed :: (r.unregister tool.name).tools, by
    rw [List.map_cons, List.nodup_cons, completed_name]
    exact ⟨r.unregister_absent tool.name, (r.unregister tool.name).keyed⟩⟩

def lookup (name : GoString) (r : ToolRegistry) : Option RegisteredTool := r.tools.find? (·.name = name)

theorem lookup_some {r : ToolRegistry} {name : GoString} {t : RegisteredTool} :
    r.lookup name = some t ↔ t ∈ r.tools ∧ t.name = name := by
  constructor
  · intro found
    exact ⟨List.mem_of_find?_eq_some found, by simpa using List.find?_some found⟩
  · rintro ⟨member, rfl⟩
    cases place : r.lookup t.name with
    | none => exact (List.find?_eq_none.mp place t member (by simp)).elim
    | some u =>
        have same : u.name = t.name := by simpa using List.find?_some place
        rw [List.inj_on_of_nodup_map r.keyed (List.mem_of_find?_eq_some place) member same]

theorem lookup_perm {s r : ToolRegistry} (perm : s.tools.Perm r.tools) (name : GoString) : s.lookup name = r.lookup name := by
  ext t
  rw [lookup_some, lookup_some, perm.mem_iff]

theorem lookup_unregister_self (name : GoString) (r : ToolRegistry) : (r.unregister name).lookup name = none :=
  List.find?_eq_none.mpr fun t member => by simpa using (List.mem_filter.mp member).2

theorem lookup_unregister_other {name other : GoString} (differs : other ≠ name) (r : ToolRegistry) :
    (r.unregister name).lookup other = r.lookup other := by
  ext t
  rw [lookup_some, lookup_some]
  constructor
  · exact fun found => ⟨List.mem_of_mem_filter found.1, found.2⟩
  · rintro ⟨member, rfl⟩
    exact ⟨List.mem_filter.mpr ⟨member, by simpa using differs⟩, rfl⟩

theorem register_ok {tool : RegisteredTool} {r s : ToolRegistry} (done : r.register tool = .ok s) :
    s.tools = tool.completed :: (r.unregister tool.name).tools := by
  unfold register at done
  split at done
  · cases done
  · cases done
    rfl

theorem lookup_register_self {tool : RegisteredTool} {r s : ToolRegistry} (done : r.register tool = .ok s) :
    s.lookup tool.name = some tool.completed := by
  rw [lookup_some, register_ok done]
  exact ⟨List.mem_cons_self, completed_name tool⟩

theorem lookup_register_other {tool : RegisteredTool} {r s : ToolRegistry} (done : r.register tool = .ok s)
    {other : GoString} (differs : other ≠ tool.name) : s.lookup other = r.lookup other := by
  rw [← lookup_unregister_other differs r, lookup, lookup, register_ok done]
  exact List.find?_cons_of_neg (by simpa [completed_name] using Ne.symm differs)

def findHighestVersion (owner pkg tool : GoString) (order : List RegisteredTool) : Option RegisteredTool :=
  findHighest (matchesOwner owner pkg tool) order

def findHighestVersionAnyOwner (pkg tool : GoString) (order : List RegisteredTool) : Option RegisteredTool :=
  findHighest (matchesAnyOwner pkg tool) order

def found (name : GoString) (tool : Option RegisteredTool) : Except BrainkitError RegisteredTool :=
  match tool with
  | some tool => .ok tool
  | none => .error (.notFoundError (lit "tool") name)

def brainlet : GoString := lit "brainlet"

-- first and second are the orders in which the range statements visit the map.
def resolveNewFormat (name : GoString) (first second : List RegisteredTool) (r : ToolRegistry) :
    Except BrainkitError RegisteredTool :=
  let ⟨owner, pkg, version, tool⟩ := parseToolName name
  if owner = [] ∧ pkg ≠ [] ∧ version ≠ [] ∧ tool ≠ [] then found name (r.lookup (composeName brainlet pkg version tool))
  else if owner ≠ [] ∧ pkg ≠ [] ∧ version = [] ∧ tool ≠ [] then found name (findHighestVersion owner pkg tool first)
  else if owner = [] ∧ pkg ≠ [] ∧ version = [] ∧ tool ≠ [] then
    found name ((findHighestVersion brainlet pkg tool first).or (findHighestVersionAnyOwner pkg tool second))
  else found name none

def resolve (name : GoString) (first second : List RegisteredTool) (r : ToolRegistry) : Except BrainkitError RegisteredTool :=
  match r.lookup name with
  | some tool => .ok tool
  | none =>
      if isNewFormat name then r.resolveNewFormat name first second
      else found name (first.find? (·.shortName = name))

theorem composeName_parsed {owner pkg version tool : GoString}
    (unslashed : 47 ∉ owner ∧ 47 ∉ pkg ∧ 47 ∉ version ∧ 47 ∉ tool)
    (unversioned : 64 ∉ pkg) :
    parseToolName (composeName owner pkg version tool) = ⟨owner, pkg, version, tool⟩ ∧
    ∀ (r : ToolRegistry) (t : RegisteredTool), t.name = composeName owner pkg version tool →
      ∃ s stored, r.register t = .ok s ∧ s.lookup t.name = some stored ∧
        stored = { t with
          owner := orElse t.owner owner
          package := orElse t.package pkg
          version := orElse t.version version
          shortName := orElse t.shortName tool } ∧
        (stored.parts = parseToolName stored.name ↔ t.Agrees ⟨owner, pkg, version, tool⟩) := by
  have parsed := parse_composed unslashed unversioned
  refine ⟨parsed, fun r t named => ?_⟩
  have present : t.name ≠ [] := named ▸ compose_name_ne_nil owner pkg version tool
  obtain ⟨s, done⟩ : ∃ s, r.register t = .ok s := by
    rw [register, if_neg present]
    exact ⟨_, rfl⟩
  refine ⟨s, t.completed, done, lookup_register_self done, completed_composed unslashed unversioned named, ?_⟩
  rw [completed_composed unslashed unversioned named]
  simp only [RegisteredTool.parts, named, parsed, ToolName.mk.injEq, orElse_eq_iff, RegisteredTool.Agrees]

theorem composeName_parsed_cron :
    parseToolName (composeName (lit "brainlet") (lit "cron") [] (lit "create")) = ⟨lit "brainlet", lit "cron", [], lit "create"⟩ ∧
    ∀ (r : ToolRegistry) (t : RegisteredTool), t.name = composeName (lit "brainlet") (lit "cron") [] (lit "create") →
      ∃ s stored, r.register t = .ok s ∧ s.lookup t.name = some stored ∧
        stored = { t with
          owner := orElse t.owner (lit "brainlet")
          package := orElse t.package (lit "cron")
          version := orElse t.version []
          shortName := orElse t.shortName (lit "create") } ∧
        (stored.parts = parseToolName stored.name ↔ t.Agrees ⟨lit "brainlet", lit "cron", [], lit "create"⟩) :=
  composeName_parsed ⟨by decide, by decide, by decide, by decide⟩ (by decide)

end ToolRegistry

end Brainkit.Tools
