import Mathlib.Data.List.Forall2
import Brainkit.Library.Utf8

set_option autoImplicit false

-- The lexical elements of a JavaScript program, as far as they decide what is code and what is text. A program is the list
-- of its elements, and what the parser has to say about a slash (a division or a regular expression) is in the list. A
-- bundle is evaluated inside a function, where there is no hashbang comment, and the comments of HTML are left out.
namespace Ecma

def lineTerminators : List Char := ['\n', '\r', '\u2028', '\u2029']

def hexDigits : List Char := "0123456789abcdefABCDEF".toList

def octalDigits : List Char := "01234567".toList

def digitValue (c : Char) : Nat :=
  if c.toNat < 58 then c.toNat - 48 else if c.toNat < 71 then c.toNat - 55 else c.toNat - 87

def number (base : Nat) (digits : List Char) : Nat := digits.foldl (fun value digit => value * base + digitValue digit) 0

def utf16 (code : Nat) : List Nat :=
  if code < 65536 then [code] else [55296 + (code - 65536) / 1024, 56320 + (code - 65536) % 1024]

inductive Escape where
  | single (c : Char)
  | carriage
  | hex (a b : Char)
  | unicode (a b c d : Char)
  | braced (digits : List Char)
  | octal (digits : List Char)
deriving DecidableEq

namespace Escape

def text : Escape → List Char
  | single c => [c]
  | carriage => ['\r', '\n']
  | hex a b => ['x', a, b]
  | unicode a b c d => ['u', a, b, c, d]
  | braced digits => ['u', '{'] ++ digits ++ ['}']
  | octal digits => digits

def singleUnits (c : Char) : List Nat :=
  if c ∈ lineTerminators then []
  else if c = 'b' then [8]
  else if c = 't' then [9]
  else if c = 'n' then [10]
  else if c = 'v' then [11]
  else if c = 'f' then [12]
  else if c = 'r' then [13]
  else if c ∈ octalDigits then [digitValue c]
  else utf16 c.toNat

def units : Escape → List Nat
  | single c => singleUnits c
  | carriage => []
  | hex a b => [number 16 [a, b]]
  | unicode a b c d => [number 16 [a, b, c, d]]
  | braced digits => utf16 (number 16 digits)
  | octal digits => [number 8 digits]

def Wf : Escape → Prop
  | single c => c ≠ 'x' ∧ c ≠ 'u'
  | carriage => True
  | hex a b => a ∈ hexDigits ∧ b ∈ hexDigits
  | unicode a b c d => a ∈ hexDigits ∧ b ∈ hexDigits ∧ c ∈ hexDigits ∧ d ∈ hexDigits
  | braced digits => digits ≠ [] ∧ (∀ digit ∈ digits, digit ∈ hexDigits) ∧ number 16 digits < 1114112
  | octal digits => digits ≠ [] ∧ ∀ digit ∈ digits, digit ∈ octalDigits

end Escape

-- A part of a string or a template. The last is a carriage return in a template, with or without a line feed.
inductive Item where
  | raw (c : Char)
  | escape (e : Escape)
  | carriage (feed : Bool)
deriving DecidableEq

def Item.text : Item → List Char
  | raw c => [c]
  | escape e => '\\' :: e.text
  | carriage feed => if feed then ['\r', '\n'] else ['\r']

def Item.units : Item → List Nat
  | raw c => utf16 c.toNat
  | escape e => e.units
  | carriage _ => [10]

def itemsText (items : List Item) : List Char := items.flatMap Item.text

def itemsUnits (items : List Item) : List Nat := items.flatMap Item.units

inductive Quote where
  | single
  | double
deriving DecidableEq

def Quote.char : Quote → Char
  | single => '\''
  | double => '"'

inductive RegexPart where
  | raw (c : Char)
  | escaped (c : Char)

def RegexPart.text : RegexPart → List Char
  | raw c => [c]
  | escaped c => ['\\', c]

inductive LineEnd where
  | feed
  | carriage
  | carriageFeed
  | separator
  | paragraph
  | eof
deriving DecidableEq

def LineEnd.text : LineEnd → List Char
  | feed => ['\n']
  | carriage => ['\r']
  | carriageFeed => ['\r', '\n']
  | separator => ['\u2028']
  | paragraph => ['\u2029']
  | eof => []

-- A character of code outside of the others, a string, the text of a template up to its end or to a substitution (a
-- continued one follows a substitution), a comment or a regular expression.
inductive Element where
  | code (c : Char)
  | string (quote : Quote) (items : List Item)
  | template (continued : Bool) (items : List Item) (opens : Bool)
  | lineComment (text : List Char) (ending : LineEnd)
  | blockComment (text : List Char)
  | regex (parts : List RegexPart)

namespace Element

def text : Element → List Char
  | code c => [c]
  | string quote items => quote.char :: itemsText items ++ [quote.char]
  | template continued items opens =>
      (if continued then '}' else '`') :: itemsText items ++ if opens then ['$', '{'] else ['`']
  | lineComment text ending => '/' :: '/' :: text ++ ending.text
  | blockComment text => '/' :: '*' :: text ++ ['*', '/']
  | regex parts => '/' :: parts.flatMap RegexPart.text ++ ['/']

section

variable (tail : List Char)

theorem text_string (quote : Quote) (items : List Item) :
    (string quote items).text ++ tail = quote.char :: (itemsText items ++ quote.char :: tail) := by
  simp [text]

theorem text_template (continued opens : Bool) (items : List Item) :
    (template continued items opens).text ++ tail =
      (if continued then '}' else '`') :: (itemsText items ++ ((if opens then ['$', '{'] else ['`']) ++ tail)) := by
  simp only [text, List.cons_append, List.append_assoc]

theorem text_lineComment (text : List Char) (ending : LineEnd) :
    (lineComment text ending).text ++ tail = '/' :: '/' :: (text ++ (ending.text ++ tail)) := by
  simp [Element.text]

theorem text_blockComment (text : List Char) :
    (blockComment text).text ++ tail = '/' :: '*' :: (text ++ '*' :: '/' :: tail) := by
  simp [Element.text]

theorem text_regex (parts : List RegexPart) :
    (regex parts).text ++ tail = '/' :: (parts.flatMap RegexPart.text ++ '/' :: tail) := by
  simp [text]

end

def inner : Element → List Char
  | string _ items => itemsText items
  | template _ items _ => itemsText items
  | lineComment text _ => text
  | blockComment text => text
  | _ => []

end Element

def Item.FitsString (quote : Quote) : Item → Prop
  | raw c => c ≠ quote.char ∧ c ≠ '\\' ∧ c ≠ '\n' ∧ c ≠ '\r'
  | escape e => e.Wf
  | carriage _ => False

def Item.FitsTemplate : Item → Prop
  | raw c => c ≠ '`' ∧ c ≠ '\\' ∧ c ≠ '\r'
  | escape e => e.Wf
  | carriage _ => True

def Plain : Item → Item → Prop
  | .raw '$', .raw '{' => False
  | _, _ => True

def OpensComment (a b : Char) : Prop := a = '/' ∧ (b = '/' ∨ b = '*')

def Element.Wf : Element → Prop
  | code c => c ≠ '\'' ∧ c ≠ '"' ∧ c ≠ '`'
  | string quote items => ∀ item ∈ items, item.FitsString quote
  | template _ items _ => (∀ item ∈ items, item.FitsTemplate) ∧ items.IsChain Plain
  | lineComment text _ => ∀ c ∈ text, c ∉ lineTerminators
  | blockComment text => text.IsChain fun a b => ¬ (a = '*' ∧ b = '/')
  | regex parts => (∀ part ∈ parts, ∀ c, part = .raw c → c ≠ '\\') ∧
      (∀ c ∈ parts.flatMap RegexPart.text, c ∉ lineTerminators) ∧
      parts ≠ [] ∧ (parts.flatMap RegexPart.text).head? ≠ some '/' ∧ (parts.flatMap RegexPart.text).head? ≠ some '*'

-- A slash of code is not read together with the element after it, and only the end of the program ends a comment without
-- a line terminator.
def Adjacent (first second : Element) : Prop :=
  (first = .code '/' → second.text.head? ≠ some '/' ∧ second.text.head? ≠ some '*') ∧
    ∀ text, first ≠ .lineComment text .eof

structure Lexed (program : List Element) : Prop where
  wf : ∀ e ∈ program, e.Wf
  adjacent : program.IsChain Adjacent

def programText (program : List Element) : List Char := program.flatMap Element.text

def encode (text : List Char) : Utf8.Bytes := text.flatMap String.utf8EncodeChar

-- The same token: code and regular expressions as they are, strings and templates with the same value, comments of any text.
inductive SameToken : Element → Element → Prop where
  | code (c : Char) : SameToken (.code c) (.code c)
  | string (quote : Quote) {items items' : List Item} (value : itemsUnits items' = itemsUnits items) :
      SameToken (.string quote items) (.string quote items')
  | template (continued opens : Bool) {items items' : List Item} (value : itemsUnits items' = itemsUnits items) :
      SameToken (.template continued items opens) (.template continued items' opens)
  | lineComment (text text' : List Char) (ending : LineEnd) : SameToken (.lineComment text ending) (.lineComment text' ending)
  | blockComment (text text' : List Char) : SameToken (.blockComment text) (.blockComment text')
  | regex (parts : List RegexPart) : SameToken (.regex parts) (.regex parts)

section

variable {program program' : List Element} {e e' : Element}

theorem same_refl (e : Element) : SameToken e e := by
  cases e with
  | code c => exact .code c
  | string quote items => exact .string quote rfl
  | template continued items opens => exact .template continued opens rfl
  | lineComment text ending => exact .lineComment text text ending
  | blockComment text => exact .blockComment text text
  | regex parts => exact .regex parts

theorem same_head (same : SameToken e e') : e'.text.head? = e.text.head? := by
  cases same <;> rfl

theorem same_adjacent {f f' : Element} (first : SameToken e e') (second : SameToken f f') (adjacent : Adjacent e f) :
    Adjacent e' f' := by
  refine ⟨fun slash => ?_, fun text same => ?_⟩
  · rw [same_head second]
    refine adjacent.1 ?_
    subst slash
    cases first
    rfl
  · subst same
    cases first with
    | lineComment before _ _ => exact adjacent.2 before rfl

theorem same_chain (same : List.Forall₂ SameToken program program') (chain : program.IsChain Adjacent) :
    program'.IsChain Adjacent := by
  induction same with
  | nil => exact .nil
  | cons first rest ih =>
      cases rest with
      | nil => exact .singleton _
      | cons second rest =>
          rw [List.isChain_cons_cons] at chain ⊢
          exact ⟨same_adjacent first second chain.1, ih chain.2⟩

theorem encode_cons (c : Char) (text : List Char) : encode (c :: text) = String.utf8EncodeChar c ++ encode text :=
  List.flatMap_cons

def Ascii (c : Char) : Prop := c.toNat < 128

instance (c : Char) : Decidable (Ascii c) := inferInstanceAs (Decidable (c.toNat < 128))

def asciiByte (c : Char) : UInt8 := UInt8.ofNat c.toNat

theorem encode_ascii {c : Char} (ascii : Ascii c) : String.utf8EncodeChar c = [asciiByte c] :=
  if_pos (Nat.le_of_lt_succ ascii)

theorem ofNat_high {n : Nat} (low : 128 ≤ n) (fits : n < 256) : 128 ≤ UInt8.ofNat n := by
  rw [UInt8.le_iff_toNat_le, UInt8.toNat_ofNat_of_lt' fits]
  exact low

theorem encode_high {c : Char} (high : ¬ Ascii c) {byte : UInt8} (member : byte ∈ String.utf8EncodeChar c) : 128 ≤ byte := by
  have above : ¬ c.val.toNat ≤ 127 := fun low => high (Nat.lt_succ_of_le low)
  unfold String.utf8EncodeChar at member
  dsimp only at member
  rw [if_neg above] at member
  split at member
  · simp only [List.mem_cons, List.not_mem_nil, or_false] at member
    rcases member with rfl | rfl <;> exact ofNat_high (by omega) (by omega)
  split at member
  · simp only [List.mem_cons, List.not_mem_nil, or_false] at member
    rcases member with rfl | rfl | rfl <;> exact ofNat_high (by omega) (by omega)
  · simp only [List.mem_cons, List.not_mem_nil, or_false] at member
    rcases member with rfl | rfl | rfl | rfl <;> exact ofNat_high (by omega) (by omega)

theorem asciiByte_lt {c : Char} (ascii : Ascii c) : asciiByte c < 128 := by
  have small : c.toNat < 256 := Nat.lt_trans ascii (by decide)
  rw [UInt8.lt_iff_toNat_lt, asciiByte, UInt8.toNat_ofNat_of_lt' small]
  exact ascii

theorem asciiByte_inj {c d : Char} (first : Ascii c) (second : Ascii d) : asciiByte c = asciiByte d ↔ c = d := by
  refine ⟨fun same => ?_, congrArg asciiByte⟩
  have here : c.toNat < 256 := Nat.lt_trans first (by decide)
  have there : d.toNat < 256 := Nat.lt_trans second (by decide)
  have codes := congrArg UInt8.toNat same
  rw [asciiByte, asciiByte, UInt8.toNat_ofNat_of_lt' here, UInt8.toNat_ofNat_of_lt' there] at codes
  exact Char.toNat_inj.mp codes

end

-- Reading a string literal, with the escapes of a script outside of strict mode.
def readHex : List Char → Option (Escape × List Char)
  | a :: b :: rest => if a ∈ hexDigits ∧ b ∈ hexDigits then some (.hex a b, rest) else none
  | _ => none

def readFour : List Char → Option (Escape × List Char)
  | a :: b :: c :: d :: rest =>
      if a ∈ hexDigits ∧ b ∈ hexDigits ∧ c ∈ hexDigits ∧ d ∈ hexDigits then some (.unicode a b c d, rest) else none
  | _ => none

def readBraced (text : List Char) : Option (Escape × List Char) :=
  let digits := text.takeWhile (· ∈ hexDigits)
  match text.dropWhile (· ∈ hexDigits) with
  | '}' :: rest => if digits ≠ [] ∧ number 16 digits < 1114112 then some (.braced digits, rest) else none
  | _ => none

-- The octal digits after the first: two when the value stays below 256, else one.
def readOctal (first : Char) (rest : List Char) : Option (Escape × List Char) :=
  let more := (rest.takeWhile (· ∈ octalDigits)).take (if digitValue first < 4 then 2 else 1)
  some (.octal (first :: more), rest.drop more.length)

def readEscape : List Char → Option (Escape × List Char)
  | [] => none
  | c :: rest =>
      if c = 'x' then readHex rest
      else if c = 'u' then (if rest.head? = some '{' then readBraced rest.tail else readFour rest)
      else if c = '\r' ∧ rest.head? = some '\n' then some (.carriage, rest.tail)
      else if c ∈ octalDigits then readOctal c rest
      else some (.single c, rest)

def readItems (quote : Quote) : Nat → List Char → Option (List Item × List Char)
  | 0, _ => none
  | _ + 1, [] => none
  | left + 1, c :: rest =>
      if c = quote.char then some ([], rest)
      else if c = '\\' then match readEscape rest with
        | some (e, after) => (readItems quote left after).map fun read => (.escape e :: read.1, read.2)
        | none => none
      else if c = '\n' ∨ c = '\r' then none
      else (readItems quote left rest).map fun read => (.raw c :: read.1, read.2)

-- A literal at the head of a text, and what is left after it. Every part of it has a character, so that its length
-- bounds the number of them.
def readString (quote : Quote) : List Char → Option (List Item × List Char)
  | [] => none
  | c :: rest => if c = quote.char then readItems quote (rest.length + 1) rest else none

def Readable (quote : Quote) (item : Item) : Prop :=
  ∀ left rest, readItems quote (left + 1) (item.text ++ rest) =
    (readItems quote left rest).map fun read => (item :: read.1, read.2)

section

variable {quote : Quote}

theorem readable_raw {c : Char} (fits : (Item.raw c).FitsString quote) : Readable quote (.raw c) := by
  obtain ⟨inside, plain, feed, carriage⟩ := fits
  intro left rest
  simp only [Item.text, List.cons_append, List.nil_append, readItems, if_neg inside, if_neg plain, feed, carriage, or_self, if_false]

theorem readable_escape {e : Escape} (reads : ∀ rest, readEscape (e.text ++ rest) = some (e, rest)) : Readable quote (.escape e) := by
  have apart : '\\' ≠ quote.char := by cases quote <;> decide
  intro left rest
  simp only [Item.text, List.cons_append, readItems, if_neg apart, if_true, reads]

theorem readable_single {c : Char} (plain : c ≠ 'x' ∧ c ≠ 'u' ∧ c ≠ '\r' ∧ c ∉ octalDigits) :
    Readable quote (.escape (.single c)) := by
  refine readable_escape fun rest => ?_
  simp only [Escape.text, List.cons_append, List.nil_append, readEscape, plain, false_and, if_false]

theorem readable_hex {a b : Char} (digits : a ∈ hexDigits ∧ b ∈ hexDigits) : Readable quote (.escape (.hex a b)) := by
  refine readable_escape fun rest => ?_
  simp only [Escape.text, List.cons_append, List.nil_append, readEscape, if_true, readHex, digits, and_self]

theorem readable_unicode {a b c d : Char} (digits : a ∈ hexDigits ∧ b ∈ hexDigits ∧ c ∈ hexDigits ∧ d ∈ hexDigits) :
    Readable quote (.escape (.unicode a b c d)) := by
  refine readable_escape fun rest => ?_
  have unbraced : ¬ some a = some '{' := fun same => absurd (Option.some.inj same ▸ digits.1) (by decide)
  simp only [Escape.text, List.cons_append, List.nil_append, readEscape, List.head?_cons, if_neg unbraced,
    show ('u' = 'x') = False from eq_false (by decide), if_false, if_true, readFour, digits, and_self]

theorem readItems_read {items : List Item} (readable : ∀ item ∈ items, Readable quote item) (tail : List Char) {left : Nat}
    (enough : items.length < left) : readItems quote left (itemsText items ++ quote.char :: tail) = some (items, tail) := by
  induction items generalizing left with
  | nil =>
      obtain ⟨left, rfl⟩ := Nat.exists_eq_succ_of_ne_zero (Nat.ne_of_gt enough)
      simp [itemsText, readItems]
  | cons item rest ih =>
      obtain ⟨left, rfl⟩ := Nat.exists_eq_succ_of_ne_zero (Nat.ne_of_gt (Nat.lt_of_le_of_lt (Nat.zero_le _) enough))
      rw [itemsText, List.flatMap_cons, List.append_assoc, readable item List.mem_cons_self]
      have later : readItems quote left (itemsText rest ++ quote.char :: tail) = some (rest, tail) :=
        ih (fun other member => readable other (List.mem_cons_of_mem item member)) (Nat.lt_of_succ_lt_succ enough)
      rw [itemsText] at later
      rw [later]
      rfl

theorem item_positive (item : Item) : 0 < item.text.length := by
  cases item with
  | raw c => exact Nat.one_pos
  | escape e => exact Nat.succ_pos _
  | carriage feed => cases feed <;> exact Nat.succ_pos _

theorem items_length (items : List Item) : items.length ≤ (itemsText items).length := by
  induction items with
  | nil => exact Nat.le_refl _
  | cons item rest ih =>
      have positive := item_positive item
      rw [itemsText, List.flatMap_cons, List.length_append, List.length_cons]
      rw [itemsText] at ih
      omega

theorem readString_read {items : List Item} (readable : ∀ item ∈ items, Readable quote item) (tail : List Char) :
    readString quote (quote.char :: itemsText items ++ quote.char :: tail) = some (items, tail) := by
  have length := items_length items
  rw [List.cons_append, readString, if_pos rfl]
  refine readItems_read readable tail ?_
  rw [List.length_append]
  omega

end

end Ecma
