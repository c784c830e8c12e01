import Brainkit.Library.GoText

set_option autoImplicit false

namespace Brainkit.Tools

open GoText

-- The text before and after the first sep, when there is one.
def cut (sep : UInt8) (text : GoString) : Option (GoString × GoString) :=
  match text.span (· ≠ sep) with
  | (before, _ :: after) => some (before, after)
  | (_, []) => none

def splitVersion (s : GoString) : GoString × GoString := (cut 64 s).getD (s, [])

def isNewFormat (name : GoString) : Bool := name.contains 47

structure ToolName where
  owner : GoString
  pkg : GoString
  version : GoString
  tool : GoString

def parseToolName (name : GoString) : ToolName :=
  if !isNewFormat name then ⟨[], [], [], name⟩
  else match name.splitOn 47 with
    | [tool] => ⟨[], [], [], tool⟩
    | [pkg, tool] => ⟨[], (splitVersion pkg).1, (splitVersion pkg).2, tool⟩
    | [owner, pkg, tool] => ⟨owner, (splitVersion pkg).1, (splitVersion pkg).2, tool⟩
    | _ => ⟨[], [], [], name⟩

structure Semver where
  major : Int
  minor : Int
  patch : Int
  pre : GoString

def parseSemver (v : GoString) : Semver :=
  let (v, pre) := (cut 45 v).getD (v, [])
  let parts := v.splitOn 46
  { major := (parts[0]?.map atoi).getD 0
    minor := (parts[1]?.map atoi).getD 0
    patch := (parts[2]?.map atoi).getD 0
    pre := pre }

def intCmp (a b : Int) : Int := if a < b then -1 else if b < a then 1 else 0

def compareSemver (a b : GoString) : Int :=
  let a := parseSemver a
  let b := parseSemver b
  if a.major ≠ b.major then intCmp a.major b.major
  else if a.minor ≠ b.minor then intCmp a.minor b.minor
  else if a.patch ≠ b.patch then intCmp a.patch b.patch
  else if a.pre = [] ∧ b.pre ≠ [] then 1
  else if a.pre ≠ [] ∧ b.pre = [] then -1
  else if a.pre < b.pre then -1
  else if b.pre < a.pre then 1
  else 0

def isPrerelease (version : GoString) : Bool := (parseSemver version).pre ≠ []

end Brainkit.Tools
