import Mathlib.Data.List.Lex
import Mathlib.Data.Prod.Lex
import Mathlib.Data.Sum.Order

set_option autoImplicit false

-- Version numbers after the semantic versioning specification, as bytes of ASCII text.
namespace Semver

abbrev Text := List UInt8

def isDigit (byte : UInt8) : Bool := 48 ≤ byte && byte ≤ 57

def isIdentifier (byte : UInt8) : Bool :=
  isDigit byte || (65 ≤ byte && byte ≤ 90) || (97 ≤ byte && byte ≤ 122) || byte = 45

def value (digits : Text) : Nat := digits.foldl (fun n byte => n * 10 + (byte.toNat - 48)) 0

-- A numeric identifier has no leading zeros.
def numeric (text : Text) : Option Nat :=
  if text ≠ [] ∧ text.all isDigit ∧ (text.head? = some 48 → text = [48]) then some (value text) else none

-- Build metadata: identifiers between dots.
def isBuild (text : Text) : Bool := (text.splitOn 46).all fun part => part ≠ [] && part.all isIdentifier

-- Major, minor and patch, by which releases are ordered.
abbrev Release := Nat ×ₗ Nat ×ₗ Nat

def core (text : Text) : Option Release :=
  match text.splitOn 46 with
  | [major, minor, patch] => match numeric major, numeric minor, numeric patch with
      | some major, some minor, some patch => some (toLex (major, toLex (minor, patch)))
      | _, _, _ => none
  | _ => none

-- The precedence of a version that is not a pre-release; none for a pre-release and for what is no version. Build
-- metadata is not looked at.
def release (text : Text) : Option Release :=
  match text.span (· ≠ 43) with
  | (version, []) => core version
  | (version, _ :: build) => if isBuild build then core version else none

-- An identifier of a pre-release: it has no leading zeros when it is a number.
def isPrePart (part : Text) : Bool :=
  part ≠ [] && part.all isIdentifier && (!part.all isDigit || part.head? ≠ some 48 || part = [48])

-- By their precedence numbers come first, and the rest is in the order of ASCII.
abbrev Identifier := Nat ⊕ₗ List Nat

def identifier (part : Text) : Identifier :=
  if part.all isDigit then toLex (.inl (value part)) else toLex (.inr (part.map UInt8.toNat))

structure Version where
  core : Release
  pre : List Text
  build : Option Text
deriving DecidableEq

def preParts : Text → Option (List Text)
  | [] => some []
  | _ :: text => if (text.splitOn 46).all isPrePart then some (text.splitOn 46) else none

def buildText : Text → Option (Option Text)
  | [] => some none
  | _ :: text => if isBuild text then some (some text) else none

def version (text : Text) : Option Version :=
  let main := text.span (· ≠ 43)
  let front := main.1.span (· ≠ 45)
  match core front.1, preParts front.2, buildText main.2 with
  | some core, some pre, some build => some ⟨core, pre, build⟩
  | _, _, _ => none

-- A release comes after its pre-releases, and of those the one with fewer identifiers before its extensions.
abbrev Precedence := Release ×ₗ WithTop (List Identifier)

def Version.precedence (v : Version) : Precedence := toLex (v.core, if v.pre = [] then ⊤ else ↑(v.pre.map identifier))

end Semver
