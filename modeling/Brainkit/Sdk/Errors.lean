import Mathlib.Data.Rat.Defs
import Brainkit.Library.GoText

set_option autoImplicit false

namespace Brainkit.Sdk

open GoText

-- Go values as they occur in a details map: what json.Unmarshal builds, and the int and []string values that the
-- error types put in themselves. texts none is the nil slice. A finite float64 is the rational number it stands for.
inductive Value where
  | null
  | bool (flag : Bool)
  | int (value : Int64)
  | number (value : Rat)
  | text (value : GoString)
  | texts (values : Option (List GoString))
  | array (values : List Value)
  | object (fields : List (GoString × Value))

-- A map[string]any lists each key once; none is the nil map.
abbrev Fields := List (GoString × Value)
abbrev Details := Option Fields

def find (key : GoString) : Fields → Option Value
  | [] => none
  | (name, value) :: rest => if name = key then some value else find key rest

def detail (details : Details) (key : GoString) : Option Value := details.bind (find key)

-- The error types of sdkerrors. A cause is any error value; only its text is ever read, and none is the nil error.
inductive BrainkitError where
  | notFoundError (resource name : GoString)
  | alreadyExistsError (resource name hint : GoString)
  | validationError (field message : GoString)
  | timeoutError (operation : GoString)
  | workspaceEscapeError (path : GoString)
  | notConfiguredError (feature : GoString)
  | transportError (operation : GoString) (cause : Option GoString)
  | persistenceError (operation source : GoString) (cause : Option GoString)
  | deployError (source phase : GoString) (cause : Option GoString)
  | packageResolverError (specifier importer source profile : GoString) (allowedBareImports : List GoString)
      (suggestedOwner reason boundaryClass : GoString)
  | bridgeError (function : GoString) (cause : Option GoString)
  | compilerError (cause : Option GoString)
  | cycleDetectedError (depth : Int64)
  | decodeError (topic : GoString) (cause : Option GoString)
  | busError (code message : GoString) (details : Details)

def causeText : Option GoString → GoString
  | none => lit "<nil>"
  | some text => text

def joinStrings : List GoString → GoString
  | [] => []
  | [value] => value
  | value :: next :: rest => value ++ lit ", " ++ joinStrings (next :: rest)

namespace BrainkitError

def errorText (isPrint : Nat → Bool) : BrainkitError → GoString
  | notFoundError resource name => resource ++ lit " " ++ quote isPrint name ++ lit " not found"
  | alreadyExistsError resource name hint =>
      if hint ≠ [] then resource ++ lit " " ++ quote isPrint name ++ lit " already exists (" ++ hint ++ lit ")"
      else resource ++ lit " " ++ quote isPrint name ++ lit " already exists"
  | validationError field message =>
      if field ≠ [] then lit "validation: " ++ field ++ lit ": " ++ message else lit "validation: " ++ message
  | timeoutError operation => lit "timeout: " ++ operation
  | workspaceEscapeError path => lit "path " ++ quote isPrint path ++ lit " escapes workspace"
  | notConfiguredError feature => feature ++ lit " not configured"
  | transportError operation cause => lit "transport: " ++ operation ++ lit ": " ++ causeText cause
  | persistenceError operation source cause =>
      if source ≠ [] then lit "persistence: " ++ operation ++ lit " " ++ source ++ lit ": " ++ causeText cause
      else lit "persistence: " ++ operation ++ lit ": " ++ causeText cause
  | deployError source phase cause => lit "deploy " ++ source ++ lit ": " ++ phase ++ lit ": " ++ causeText cause
  | packageResolverError specifier importer source profile allowedBareImports suggestedOwner reason boundaryClass =>
      let sourceText := if source ≠ [] then lit " in source package " ++ quote isPrint source else []
      let reasonText := if reason ≠ [] then lit "; reason: " ++ reason else []
      let boundary := if boundaryClass ≠ [] then lit "; boundary: " ++ boundaryClass else []
      lit "package resolver " ++ profile ++ lit ": unsupported bare import " ++ quote isPrint specifier ++
        lit " from " ++ quote isPrint importer ++ sourceText ++ lit "; allowed bare imports: " ++
        joinStrings allowedBareImports ++ reasonText ++ boundary ++ lit "; suggested future owner: " ++ suggestedOwner
  | bridgeError function cause => lit "bridge " ++ function ++ lit ": " ++ causeText cause
  | compilerError cause => lit "compiler: " ++ causeText cause
  | cycleDetectedError depth => lit "cycle detected: depth " ++ decimal depth.toInt ++ lit " exceeds maximum"
  | decodeError topic cause => lit "decode " ++ topic ++ lit ": " ++ causeText cause
  | busError code message _ => code ++ lit ": " ++ message

def code : BrainkitError → GoString
  | notFoundError .. => lit "NOT_FOUND"
  | alreadyExistsError .. => lit "ALREADY_EXISTS"
  | validationError .. => lit "VALIDATION_ERROR"
  | timeoutError .. => lit "TIMEOUT"
  | workspaceEscapeError .. => lit "WORKSPACE_ESCAPE"
  | notConfiguredError .. => lit "NOT_CONFIGURED"
  | transportError .. => lit "TRANSPORT_ERROR"
  | persistenceError .. => lit "PERSISTENCE_ERROR"
  | deployError .. => lit "DEPLOY_ERROR"
  | packageResolverError .. => lit "PACKAGE_RESOLVER_UNSUPPORTED_IMPORT"
  | bridgeError .. => lit "BRIDGE_ERROR"
  | compilerError .. => lit "COMPILER_ERROR"
  | cycleDetectedError .. => lit "CYCLE_DETECTED"
  | decodeError .. => lit "DECODE_ERROR"
  | busError code _ _ => code

-- append([]string(nil), values...) is nil when there is nothing to append
def copyStrings (values : List GoString) : Option (List GoString) :=
  if values = [] then none else some values

def details : BrainkitError → Details
  | notFoundError resource name => some [(lit "resource", .text resource), (lit "name", .text name)]
  | alreadyExistsError resource name hint =>
      some [(lit "resource", .text resource), (lit "name", .text name), (lit "hint", .text hint)]
  | validationError field message => some [(lit "field", .text field), (lit "message", .text message)]
  | timeoutError operation => some [(lit "operation", .text operation)]
  | workspaceEscapeError path => some [(lit "path", .text path)]
  | notConfiguredError feature => some [(lit "feature", .text feature)]
  | transportError operation _ => some [(lit "operation", .text operation)]
  | persistenceError operation source _ => some [(lit "operation", .text operation), (lit "source", .text source)]
  | deployError source phase _ => some [(lit "source", .text source), (lit "phase", .text phase)]
  | packageResolverError specifier importer source profile allowedBareImports suggestedOwner reason boundaryClass =>
      some [(lit "specifier", .text specifier), (lit "importer", .text importer), (lit "source", .text source),
        (lit "profile", .text profile), (lit "allowedBareImports", .texts (copyStrings allowedBareImports)),
        (lit "suggestedFutureOwner", .text suggestedOwner), (lit "reason", .text reason),
        (lit "boundaryClass", .text boundaryClass)]
  | bridgeError function _ => some [(lit "function", .text function)]
  | compilerError _ => some []
  | cycleDetectedError depth => some [(lit "depth", .int depth)]
  | decodeError topic _ => some [(lit "topic", .text topic)]
  | busError _ _ details => details

end BrainkitError

end Brainkit.Sdk
