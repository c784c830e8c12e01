import Brainkit.Library.GoJson
import Brainkit.Library.GoQuote

set_option autoImplicit false

-- JSON.stringify and JSON.parse. A string is its code units; the text of a value has no surrogate on its own.
namespace EcmaJson

open Ecma GoQuote

def numberChars : List Char := "0123456789+-.eE".toList

-- A number by the text that it has as a string, which is read as the number.
structure Numeral where
  text : List Char
  chars : ∀ c ∈ text, c ∈ numberChars
  number : GoJson.number (encode text) = some []

-- The properties of an object are in the order of its text, where JavaScript has the keys that are indices first.
inductive Json where
  | null
  | bool (flag : Bool)
  | number (numeral : Numeral)
  | string (units : List Nat)
  | array (items : List Json)
  | object (members : List (List Nat × Json))

def high (unit : Nat) : Bool := 0xD800 ≤ unit && unit < 0xDC00

def low (unit : Nat) : Bool := 0xDC00 ≤ unit && unit < 0xE000

inductive Code where
  | char (c : Char)
  | lone (unit : Nat)

def Code.units : Code → List Nat
  | char c => utf16 c.toNat
  | lone unit => [unit]

def single (unit : Nat) : Code := if high unit || low unit then .lone unit else .char (Char.ofNat unit)

-- StringToCodePoints
def codePoints : List Nat → List Code
  | [] => []
  | [unit] => [single unit]
  | unit :: next :: rest =>
      if high unit && low next then
        .char (Char.ofNat ((unit - 0xD800) * 1024 + (next - 0xDC00) + 65536)) :: codePoints rest
      else single unit :: codePoints (next :: rest)

def shortEscapes : List (Char × Char) :=
  [('"', '"'), ('\\', '\\'), ('\x08', 'b'), ('\x0C', 'f'), ('\n', 'n'), ('\r', 'r'), ('\t', 't')]

def unicodeText (code : Nat) : List Char := '\\' :: 'u' :: hexChars 4 code

-- QuoteJSONString
def Code.text : Code → List Char
  | char c => match shortEscapes.lookup c with
      | some letter => ['\\', letter]
      | none => if c.toNat < 32 then unicodeText c.toNat else [c]
  | lone unit => unicodeText unit

def contentText (units : List Nat) : List Char := (codePoints units).flatMap Code.text

def stringText (units : List Nat) : List Char := '"' :: contentText units ++ ['"']

-- JSON.stringify; the items and the members are written up to the closing bracket.
mutual
def text : Json → List Char
  | .null => "null".toList
  | .bool flag => if flag then "true".toList else "false".toList
  | .number numeral => numeral.text
  | .string units => stringText units
  | .array items => '[' :: itemsText items
  | .object members => '{' :: membersText members

def itemsText : List Json → List Char
  | [] => [']']
  | item :: rest => text item ++ (if rest.isEmpty then [']'] else ',' :: itemsText rest)

def membersText : List (List Nat × Json) → List Char
  | [] => ['}']
  | (key, value) :: rest =>
      stringText key ++ ':' :: text value ++ (if rest.isEmpty then ['}'] else ',' :: membersText rest)
end

def hexUnit (unit : Nat) : Option Nat :=
  if 48 ≤ unit && unit ≤ 57 then some (unit - 48)
  else if 97 ≤ unit && unit ≤ 102 then some (unit - 87)
  else if 65 ≤ unit && unit ≤ 70 then some (unit - 55)
  else none

def fourUnits (a b c d : Nat) : Option Nat := do
  let a ← hexUnit a
  let b ← hexUnit b
  let c ← hexUnit c
  let d ← hexUnit d
  pure (a * 4096 + b * 256 + c * 16 + d)

def shortUnits : List (Nat × Nat) := [(34, 34), (92, 92), (47, 47), (98, 8), (102, 12), (110, 10), (114, 13), (116, 9)]

-- A string after its quote, and what follows it.
def scanString : List Nat → Option (List Nat × List Nat)
  | [] => none
  | 34 :: rest => some ([], rest)
  | 92 :: 117 :: a :: b :: c :: d :: rest => match fourUnits a b c d with
      | some code => (scanString rest).map fun scanned => (code :: scanned.1, scanned.2)
      | none => none
  | 92 :: unit :: rest => match shortUnits.lookup unit with
      | some meant => (scanString rest).map fun scanned => (meant :: scanned.1, scanned.2)
      | none => none
  | unit :: rest =>
      if unit < 32 || unit = 92 then none else (scanString rest).map fun scanned => (unit :: scanned.1, scanned.2)

def isBlank (unit : Nat) : Bool := unit = 32 || unit = 9 || unit = 10 || unit = 13

def skipSpace (units : List Nat) : List Nat := units.dropWhile isBlank

def isNumberUnit (unit : Nat) : Bool := (numberChars.map Char.toNat).contains unit

def number (units : List Nat) : Option (Numeral × List Nat) :=
  let chars := (units.takeWhile isNumberUnit).map Char.ofNat
  if valid : chars.all numberChars.contains = true ∧ GoJson.number (encode chars) = some [] then
    some (⟨chars, fun c member => List.contains_iff_mem.mp (List.all_eq_true.mp valid.1 c member), valid.2⟩,
      units.dropWhile isNumberUnit)
  else none

def literal (word : List Nat) (value : Json) (units : List Nat) : Option (Json × List Nat) :=
  if word <+: units then some (value, units.drop word.length) else none

-- CreateDataProperty: a later member takes the place of an earlier one with its key.
def put (key : List Nat) (value : Json) : List (List Nat × Json) → List (List Nat × Json)
  | [] => [(key, value)]
  | (name, old) :: rest => if key = name then (key, value) :: rest else (name, old) :: put key value rest

def assign (members : List (List Nat × Json)) : List (List Nat × Json) → List (List Nat × Json)
  | [] => members
  | (key, value) :: rest => assign (put key value members) rest

mutual
def value : Nat → List Nat → Option (Json × List Nat)
  | 0, _ => none
  | fuel + 1, 123 :: rest => match skipSpace rest with
      | 125 :: rest => some (.object [], rest)
      | rest => (members fuel rest).map fun read => (.object (assign [] read.1), read.2)
  | fuel + 1, 91 :: rest => match skipSpace rest with
      | 93 :: rest => some (.array [], rest)
      | rest => (elements fuel rest).map fun read => (.array read.1, read.2)
  | _ + 1, 34 :: rest => (scanString rest).map fun read => (.string read.1, read.2)
  | _ + 1, 116 :: rest => literal [114, 117, 101] (.bool true) rest
  | _ + 1, 102 :: rest => literal [97, 108, 115, 101] (.bool false) rest
  | _ + 1, 110 :: rest => literal [117, 108, 108] .null rest
  | _ + 1, units => (number units).map fun read => (.number read.1, read.2)

def members : Nat → List Nat → Option (List (List Nat × Json) × List Nat)
  | 0, _ => none
  | fuel + 1, units => match skipSpace units with
      | 34 :: rest => match scanString rest with
          | some (key, rest) => match skipSpace rest with
              | 58 :: rest => match value fuel (skipSpace rest) with
                  | some (field, after) => match skipSpace after with
                      | 44 :: rest => (members fuel rest).map fun read => ((key, field) :: read.1, read.2)
                      | 125 :: rest => some ([(key, field)], rest)
                      | _ => none
                  | none => none
              | _ => none
          | none => none
      | _ => none

def elements : Nat → List Nat → Option (List Json × List Nat)
  | 0, _ => none
  | fuel + 1, units => match value fuel (skipSpace units) with
      | some (item, after) => match skipSpace after with
          | 44 :: rest => (elements fuel rest).map fun read => (item :: read.1, read.2)
          | 93 :: rest => some ([item], rest)
          | _ => none
      | none => none
end

-- JSON.parse: none where it throws.
def parse (units : List Nat) : Option Json := match value (units.length + 1) (skipSpace units) with
  | some (read, rest) => if skipSpace rest = [] then some read else none
  | none => none

end EcmaJson
