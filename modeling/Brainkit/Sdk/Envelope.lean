import Brainkit.Library.Float64
import Brainkit.Sdk.Errors

set_option autoImplicit false

namespace Brainkit.Sdk

open GoText

abbrev RawMessage := GoString

structure EnvelopeError where
  code : GoString
  message : GoString
  details : Details

structure Envelope where
  ok : Bool
  data : Option RawMessage
  error : Option EnvelopeError

-- An error value: its text, and what errors.As finds when it looks for a BrainkitError along the chain of wrapped
-- errors.
structure GoError where
  text : GoString
  brainkit : Option BrainkitError

def BrainkitError.asError (isPrint : Nat → Bool) (err : BrainkitError) : GoError :=
  ⟨err.errorText isPrint, some err⟩

def envelopeOK (data : Option RawMessage) : Envelope := ⟨true, some (data.getD (lit "null")), none⟩

def envelopeErr (code message : GoString) (details : Details) : Envelope :=
  ⟨false, none, some ⟨code, message, details⟩⟩

def toEnvelope (data : Option RawMessage) : Option GoError → Envelope
  | none => envelopeOK data
  | some err => match err.brainkit with
      | some bk => envelopeErr bk.code err.text bk.details
      | none => envelopeErr (lit "INTERNAL_ERROR") err.text none

-- A JSON document written by json.Marshal and read back by json.Unmarshal into an interface: text loses what is not
-- UTF-8, every number becomes a float64, a []string becomes a []any, and a nil slice becomes null.
mutual
def jsonValue : Value → Value
  | .null => .null
  | .bool flag => .bool flag
  | .int value => .number (Float64.round value.toInt)
  | .number value => .number value
  | .text value => .text (Utf8.coerce value)
  | .texts none => .null
  | .texts (some values) => .array (values.map fun value => .text (Utf8.coerce value))
  | .array values => .array (jsonValues values)
  | .object fields => .object (jsonFields fields)
def jsonValues : List Value → List Value
  | [] => []
  | value :: rest => jsonValue value :: jsonValues rest
def jsonFields : List (GoString × Value) → List (GoString × Value)
  | [] => []
  | (name, value) :: rest => (Utf8.coerce name, jsonValue value) :: jsonFields rest
end

-- details is tagged omitempty, so an empty map is not written at all.
def jsonDetails : Details → Details
  | none => none
  | some [] => none
  | some (field :: rest) => some (jsonFields (field :: rest))

def jsonError (err : EnvelopeError) : EnvelopeError :=
  ⟨Utf8.coerce err.code, Utf8.coerce err.message, jsonDetails err.details⟩

-- decode(encode(e)). Data is a JSON document already and passes as it is.
def decodeEncoded (e : Envelope) : Envelope := ⟨e.ok, e.data, e.error.map jsonError⟩

def str (details : Details) (key : GoString) : GoString :=
  match detail details key with
  | some (.text value) => value
  | _ => []

def textOf : Value → Option GoString
  | .text value => some value
  | _ => none

def strSlice (details : Details) (key : GoString) : List GoString :=
  match detail details key with
  | some (.texts values) => values.getD []
  | some (.array values) => values.filterMap textOf
  | _ => []

-- The conversion int(v) of a float64; out of range it is the value that the amd64 instruction gives.
def intOfFloat (value : Rat) : Int64 :=
  let whole := value.num.tdiv value.den
  if Int64.minValue.toInt ≤ whole ∧ whole ≤ Int64.maxValue.toInt then Int64.ofInt whole else Int64.minValue

def depthOf (details : Details) : Int64 :=
  match detail details (lit "depth") with
  | some (.number value) => intOfFloat value
  | _ => 0

def codeCases (message : GoString) (d : Details) : List (GoString × BrainkitError) :=
  [(lit "NOT_FOUND", .notFoundError (str d (lit "resource")) (str d (lit "name"))),
    (lit "ALREADY_EXISTS",
      .alreadyExistsError (str d (lit "resource")) (str d (lit "name")) (str d (lit "hint"))),
    (lit "VALIDATION_ERROR", .validationError (str d (lit "field")) (str d (lit "message"))),
    (lit "TIMEOUT", .timeoutError (str d (lit "operation"))),
    (lit "WORKSPACE_ESCAPE", .workspaceEscapeError (str d (lit "path"))),
    (lit "NOT_CONFIGURED", .notConfiguredError (str d (lit "feature"))),
    (lit "TRANSPORT_ERROR", .transportError (str d (lit "operation")) (some message)),
    (lit "PERSISTENCE_ERROR", .persistenceError (str d (lit "operation")) (str d (lit "source")) (some message)),
    (lit "DEPLOY_ERROR", .deployError (str d (lit "source")) (str d (lit "phase")) (some message)),
    (lit "PACKAGE_RESOLVER_UNSUPPORTED_IMPORT",
      .packageResolverError (str d (lit "specifier")) (str d (lit "importer")) (str d (lit "source"))
        (str d (lit "profile")) (strSlice d (lit "allowedBareImports")) (str d (lit "suggestedFutureOwner")) [] []),
    (lit "BRIDGE_ERROR", .bridgeError (str d (lit "function")) (some message)),
    (lit "COMPILER_ERROR", .compilerError (some message)),
    (lit "CYCLE_DETECTED", .cycleDetectedError (depthOf d)),
    (lit "DECODE_ERROR", .decodeError (str d (lit "topic")) (some message))]

def fromCode (code message : GoString) (d : Details) : BrainkitError :=
  switch code (codeCases message d) (.busError code message d)

def fromEnvelope (e : Envelope) : Option BrainkitError :=
  if e.ok then none
  else match e.error with
    | none => some (.busError (lit "INTERNAL_ERROR") (lit "unknown error") none)
    | some err => some (fromCode err.code err.message err.details)

def Details.same : Details → Details → Prop
  | none, none => True
  | some a, some b => ∀ key, find key a = find key b
  | _, _ => False

def EnvelopeError.same (a b : EnvelopeError) : Prop :=
  a.code = b.code ∧ a.message = b.message ∧ Details.same a.details b.details

def Envelope.same (a b : Envelope) : Prop :=
  a.ok = b.ok ∧ a.data = b.data ∧ match a.error, b.error with
    | none, none => True
    | some left, some right => EnvelopeError.same left right
    | _, _ => False

-- One hop: the receiver decodes the envelope, rebuilds the error and answers its own caller with it.
def hop (isPrint : Nat → Bool) (e : Envelope) : Envelope :=
  toEnvelope none ((fromEnvelope (decodeEncoded e)).map (BrainkitError.asError isPrint))

def errorEnvelope (isPrint : Nat → Bool) (err : BrainkitError) : Envelope :=
  toEnvelope none (some (err.asError isPrint))

end Brainkit.Sdk
