import Mathlib.Algebra.Group.Int.Defs
import Mathlib.Algebra.Group.Nat.Defs
import Brainkit.Library.Utf8

set_option autoImplicit false

-- Go's string formatting as far as error texts use it. A Go string is its bytes.
namespace GoText

abbrev GoString := Utf8.Bytes

def lit (text : String) : GoString := text.toUTF8.data.toList

def hexDigit (value : Nat) : UInt8 := if value < 10 then (48 + value).toUInt8 else (87 + value).toUInt8

def hexDigits : Nat → Nat → GoString
  | 0, _ => []
  | count + 1, value => hexDigits count (value / 16) ++ [hexDigit (value % 16)]

-- The backslash escapes of strconv.Quote.
def shortEscape (code : Nat) : Option UInt8 :=
  if code = 7 then some 97
  else if code = 8 then some 98
  else if code = 12 then some 102
  else if code = 10 then some 110
  else if code = 13 then some 114
  else if code = 9 then some 116
  else if code = 11 then some 118
  else if code = 34 then some 34
  else if code = 92 then some 92
  else none

def quoteRune (isPrint : Nat → Bool) (code : Nat) (bytes : GoString) : GoString :=
  match shortEscape code with
  | some letter => [92, letter]
  | none =>
      if isPrint code then bytes
      else if code < 32 || code = 127 then lit "\\x" ++ hexDigits 2 code
      else if code < 65536 then lit "\\u" ++ hexDigits 4 code
      else lit "\\U" ++ hexDigits 8 code

def quoteFrom (isPrint : Nat → Bool) : Nat → GoString → GoString
  | _, [] => []
  | left + 1, _ :: rest => quoteFrom isPrint left rest
  | 0, byte :: rest => match Utf8.decodeRune (byte :: rest) with
      | some (code, width) =>
          quoteRune isPrint code ((byte :: rest).take width) ++ quoteFrom isPrint (width - 1) rest
      | none => lit "\\x" ++ hexDigits 2 byte.toNat ++ quoteFrom isPrint 0 rest

-- strconv.Quote, the verb %q. The table of printable runes is a parameter.
def quote (isPrint : Nat → Bool) (text : GoString) : GoString := [34] ++ quoteFrom isPrint 0 text ++ [34]

-- The verb %d.
def decimal (value : Int) : GoString := lit (toString value)

-- strconv.ParseUint of decimal digits: none is a syntax error. What does not fit is an error too, with the largest
-- value, and found before the digits after it are read.
def parseUintFrom (value : Nat) : GoString → Option Nat
  | [] => some value
  | byte :: rest =>
      if byte < 48 || 57 < byte then none
      else if 2 ^ 64 ≤ value * 10 + (byte.toNat - 48) then some (2 ^ 64 - 1)
      else parseUintFrom (value * 10 + (byte.toNat - 48)) rest

def parseUint (digits : GoString) : Option Nat := if digits = [] then none else parseUintFrom 0 digits

-- The value of strconv.Atoi, also where its error is dropped: zero after a syntax error, the nearest int of 64 bits
-- after a range error.
def atoi (text : GoString) : Int :=
  match text with
  | 45 :: digits => match parseUint digits with
      | some value => -(min value (2 ^ 63) : Nat)
      | none => 0
  | 43 :: digits => match parseUint digits with
      | some value => (min value (2 ^ 63 - 1) : Nat)
      | none => 0
  | digits => match parseUint digits with
      | some value => (min value (2 ^ 63 - 1) : Nat)
      | none => 0

-- unicode.IsSpace
def isSpace (code : Nat) : Bool :=
  (9 ≤ code && code ≤ 13) || code = 32 || code = 0x85 || code = 0xA0 || code = 0x1680 ||
    (0x2000 ≤ code && code ≤ 0x200A) || code = 0x2028 || code = 0x2029 || code = 0x202F ||
    code = 0x205F || code = 0x3000

def blankFrom : Nat → GoString → Bool
  | _, [] => true
  | left + 1, _ :: rest => blankFrom left rest
  | 0, byte :: rest => match Utf8.decodeRune (byte :: rest) with
      | some (code, width) => isSpace code && blankFrom (width - 1) rest
      | none => false

-- strings.TrimSpace(text) == ""
def blank (text : GoString) : Bool := blankFrom 0 text

def trimLeftFrom : Nat → GoString → GoString
  | _, [] => []
  | left + 1, _ :: rest => trimLeftFrom left rest
  | 0, byte :: rest => match Utf8.decodeRune (byte :: rest) with
      | some (code, width) => if isSpace code then trimLeftFrom (width - 1) rest else byte :: rest
      | none => byte :: rest

-- utf8.DecodeLastRuneInString on the reversed bytes: the rune of at most four bytes that ends where the text ends.
def lastRune (reversed : GoString) : Option (Nat × Nat) :=
  [1, 2, 3, 4].findSome? fun count => match Utf8.decodeRune (reversed.take count).reverse with
    | some (code, width) => if width = count then some (code, width) else none
    | none => none

def trimRightFrom : Nat → GoString → GoString
  | _, [] => []
  | left + 1, _ :: rest => trimRightFrom left rest
  | 0, byte :: rest => match lastRune (byte :: rest) with
      | some (code, width) => if isSpace code then trimRightFrom (width - 1) rest else byte :: rest
      | none => byte :: rest

-- strings.TrimSpace
def trimSpace (text : GoString) : GoString := (trimRightFrom 0 (trimLeftFrom 0 text).reverse).reverse

def upper (byte : UInt8) : UInt8 := if 97 ≤ byte && byte ≤ 122 then byte - 32 else byte

-- strings.EqualFold against a word in which no letter folds to a rune outside ASCII within the word's length.
def equalFold (text word : GoString) : Bool := text.map upper = word.map upper

theorem lit_injective : Function.Injective lit := by
  intro a b same
  apply String.toByteArray_inj.mp
  exact ByteArray.ext (Array.toList_inj.mp same)

theorem decimal_nat_injective {m n : Nat} (same : decimal m = decimal n) : m = n := by
  have digits : Nat.repr m = Nat.repr n := lit_injective same
  have chars : Nat.toDigits 10 m = Nat.toDigits 10 n := String.ofList_injective digits
  rw [← Nat.ofDigitChars_ten_toDigits (n := m), chars, Nat.ofDigitChars_ten_toDigits]

-- A switch statement over string constants: the first case that matches, or the default.
def switch {α : Type} (value : GoString) : List (GoString × α) → α → α
  | [], fallback => fallback
  | (name, result) :: rest, fallback => if value = name then result else switch value rest fallback

theorem switch_cases {α : Type} (value : GoString) (cases : List (GoString × α)) (fallback : α) :
    switch value cases fallback = fallback ∨ ∃ entry ∈ cases, switch value cases fallback = entry.2 := by
  induction cases with
  | nil => exact .inl rfl
  | cons entry rest ih =>
      obtain ⟨name, result⟩ := entry
      by_cases hit : value = name
      · exact .inr ⟨(name, result), List.mem_cons_self, by rw [switch, if_pos hit]⟩
      · rw [switch, if_neg hit]
        rcases ih with default | ⟨found, member, same⟩
        · exact .inl default
        · exact .inr ⟨found, List.mem_cons_of_mem _ member, same⟩

theorem switch_fallback {α : Type} (value : GoString) (cases : List (GoString × α)) (a b : α) :
    switch value cases a = switch value cases b ∨ switch value cases b = b := by
  induction cases with
  | nil => exact .inr rfl
  | cons entry rest ih =>
      obtain ⟨name, result⟩ := entry
      by_cases hit : value = name
      · exact .inl (by rw [switch, switch, if_pos hit, if_pos hit])
      · rw [switch, switch, if_neg hit, if_neg hit]
        exact ih

example : trimSpace (lit "\u00a0 a b\t\u3000") = lit "a b" := by decide

example : quote (fun code => 32 ≤ code && code < 127) (lit "a\"b\n" ++ [0xFF]) = lit "\"a\\\"b\\n\\xff\"" := by decide

end GoText
