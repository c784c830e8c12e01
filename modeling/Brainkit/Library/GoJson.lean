import Brainkit.Library.Ecma
import Brainkit.Library.GoText
import Brainkit.Library.Runes

set_option autoImplicit false

-- The texts of encoding/json: the string that Marshal writes, the scanner, and the string that Unmarshal reads.
namespace GoJson

open GoText Utf8

-- The bytes that stand for themselves; the ones of HTML do not.
def safe (byte : UInt8) : Bool := 32 ≤ byte && byte ≠ 34 && byte ≠ 92 && byte ≠ 60 && byte ≠ 62 && byte ≠ 38

def escapeByte (byte : UInt8) : Bytes :=
  if byte = 34 || byte = 92 then [92, byte]
  else if byte = 8 then [92, 98]
  else if byte = 12 then [92, 102]
  else if byte = 10 then [92, 110]
  else if byte = 13 then [92, 114]
  else if byte = 9 then [92, 116]
  else [92, 117, 48, 48, hexDigit (byte.toNat / 16), hexDigit (byte.toNat % 16)]

def asciiText (byte : UInt8) : Bytes := if safe byte then [byte] else escapeByte byte

def runeText : Rune → Bytes
  | .bad _ => [92, 117, 102, 102, 102, 100]
  | .char c =>
      if c.toNat < 128 then asciiText (UInt8.ofNat c.toNat)
      else if c.toNat = 0x2028 || c.toNat = 0x2029 then [92, 117, 50, 48, 50, hexDigit (c.toNat % 16)]
      else String.utf8EncodeChar c

def contentText (text : GoString) : Bytes := (runes text).flatMap runeText

def stringText (text : GoString) : Bytes := 34 :: contentText text ++ [34]

def hexValue (byte : UInt8) : Option Nat :=
  if 48 ≤ byte && byte ≤ 57 then some (byte.toNat - 48)
  else if 97 ≤ byte && byte ≤ 102 then some (byte.toNat - 87)
  else if 65 ≤ byte && byte ≤ 70 then some (byte.toNat - 55)
  else none

def four : Bytes → Option Nat
  | a :: b :: c :: d :: _ => do
      let a ← hexValue a
      let b ← hexValue b
      let c ← hexValue c
      let d ← hexValue d
      pure (a * 4096 + b * 256 + c * 16 + d)
  | _ => none

def surrogate (code : Nat) : Bool := 0xD800 ≤ code && code < 0xE000

-- What an escape stands for and how many bytes it takes after the backslash.
def unescape : Bytes → Option (Bytes × Nat)
  | 98 :: _ => some ([8], 1)
  | 102 :: _ => some ([12], 1)
  | 110 :: _ => some ([10], 1)
  | 114 :: _ => some ([13], 1)
  | 116 :: _ => some ([9], 1)
  | 117 :: rest => match four rest with
      | none => none
      | some code =>
          if surrogate code then
            match rest.drop 4 with
            | 92 :: 117 :: more => match four more with
                | some low =>
                    if code < 0xDC00 && 0xDC00 ≤ low && low < 0xE000 then
                      some (String.utf8EncodeChar (Char.ofNat ((code - 0xD800) * 1024 + (low - 0xDC00) + 65536)), 11)
                    else some (replacement, 5)
                | none => some (replacement, 5)
            | _ => some (replacement, 5)
          else some (String.utf8EncodeChar (Char.ofNat code), 5)
  | byte :: _ => if byte = 34 || byte = 92 || byte = 47 || byte = 39 then some ([byte], 1) else none
  | [] => none

-- The text between the quotes, with what is left of a part already read.
def unquoteFrom : Nat → Bytes → Option GoString
  | _, [] => some []
  | left + 1, _ :: rest => unquoteFrom left rest
  | 0, byte :: rest =>
      if byte = 92 then
        match unescape rest with
        | none => none
        | some (text, width) => (unquoteFrom width rest).map (text ++ ·)
      else if byte = 34 || byte < 32 then none
      else match decodeRune (byte :: rest) with
        | some (_, width) => (unquoteFrom (width - 1) rest).map ((byte :: rest).take width ++ ·)
        | none => (unquoteFrom 0 rest).map (replacement ++ ·)

def unquote (content : Bytes) : Option GoString := unquoteFrom 0 content

def isHex (byte : UInt8) : Bool := (hexValue byte).isSome

def shortEscapes : List UInt8 := [98, 102, 110, 114, 116, 92, 47, 34]

-- The text up to the closing quote and what follows it.
@[simp] def scanString : Bytes → Option (Bytes × Bytes)
  | [] => none
  | 34 :: rest => some ([], rest)
  | 92 :: 117 :: a :: b :: c :: d :: rest =>
      if isHex a && isHex b && isHex c && isHex d then
        (scanString rest).map fun scanned => (92 :: 117 :: a :: b :: c :: d :: scanned.1, scanned.2)
      else none
  | 92 :: byte :: rest =>
      if byte ∈ shortEscapes then (scanString rest).map fun scanned => (92 :: byte :: scanned.1, scanned.2) else none
  | byte :: rest =>
      if byte < 32 || byte = 92 then none else (scanString rest).map fun scanned => (byte :: scanned.1, scanned.2)

def isBlank (byte : UInt8) : Bool := byte = 32 || byte = 9 || byte = 10 || byte = 13

def skipSpace (text : Bytes) : Bytes := text.dropWhile isBlank

def isDigit (byte : UInt8) : Bool := 48 ≤ byte && byte ≤ 57

def digits : Bytes → Option Bytes
  | byte :: rest => if isDigit byte then some (rest.dropWhile isDigit) else none
  | [] => none

def exponent : Bytes → Option Bytes
  | byte :: rest =>
      if byte = 101 || byte = 69 then
        match rest with
        | sign :: more => if sign = 43 || sign = 45 then digits more else digits rest
        | [] => none
      else some (byte :: rest)
  | [] => some []

def fraction : Bytes → Option Bytes
  | 46 :: rest => digits rest
  | text => some text

def unsigned : Bytes → Option Bytes
  | 48 :: rest => some rest
  | text => digits text

def number (text : Bytes) : Option Bytes := do
  let rest ← match text with
    | 45 :: rest => unsigned rest
    | text => unsigned text
  let rest ← fraction rest
  exponent rest

def literal (word text : Bytes) : Option Bytes := if word <+: text then some (text.drop word.length) else none

-- What follows one value; the members of an object are its names and its values as they stand in the text.
mutual
def value : Nat → Bytes → Option Bytes
  | 0, _ => none
  | fuel + 1, 123 :: rest => match skipSpace rest with
      | 125 :: rest => some rest
      | rest => (members fuel rest).map Prod.snd
  | fuel + 1, 91 :: rest => match skipSpace rest with
      | 93 :: rest => some rest
      | rest => elements fuel rest
  | _ + 1, 34 :: rest => (scanString rest).map Prod.snd
  | _ + 1, 116 :: rest => literal [114, 117, 101] rest
  | _ + 1, 102 :: rest => literal [97, 108, 115, 101] rest
  | _ + 1, 110 :: rest => literal [117, 108, 108] rest
  | _ + 1, text => number text

def members : Nat → Bytes → Option (List (Bytes × Bytes) × Bytes)
  | 0, _ => none
  | fuel + 1, text => match skipSpace text with
      | 34 :: rest => match scanString rest with
          | some (name, rest) => match skipSpace rest with
              | 58 :: rest => match value fuel (skipSpace rest) with
                  | some after =>
                      let raw := (skipSpace rest).take ((skipSpace rest).length - after.length)
                      match skipSpace after with
                      | 44 :: rest => (members fuel rest).map fun found => ((name, raw) :: found.1, found.2)
                      | 125 :: rest => some ([(name, raw)], rest)
                      | _ => none
                  | none => none
              | _ => none
          | none => none
      | _ => none

def elements : Nat → Bytes → Option Bytes
  | 0, _ => none
  | fuel + 1, text => match value fuel (skipSpace text) with
      | some after => match skipSpace after with
          | 44 :: rest => elements fuel rest
          | 93 :: rest => some rest
          | _ => none
      | none => none
end

def valid (text : Bytes) : Bool := match value (text.length + 1) (skipSpace text) with
  | some rest => skipSpace rest = []
  | none => false

def object (text : Bytes) : Option (List (Bytes × Bytes)) := match skipSpace text with
  | 123 :: rest => match skipSpace rest with
      | 125 :: _ => some []
      | rest => (members text.length rest).map Prod.fst
  | _ => none

theorem unquoteFrom_skip (skipped rest : Bytes) : unquoteFrom skipped.length (skipped ++ rest) = unquoteFrom 0 rest := by
  induction skipped with
  | nil => rfl
  | cons byte skipped ih => exact ih

theorem hexValue_hexDigit : ∀ n < 16, hexValue (hexDigit n) = some n := by decide

theorem isHex_hexDigit {n : Nat} (small : n < 16) : isHex (hexDigit n) = true := by
  rw [isHex, hexValue_hexDigit n small]
  rfl

theorem four_read {a b c d : UInt8} {w x y z : Nat} (rest : Bytes) (ha : hexValue a = some w) (hb : hexValue b = some x)
    (hc : hexValue c = some y) (hd : hexValue d = some z) :
    four (a :: b :: c :: d :: rest) = some (w * 4096 + x * 256 + y * 16 + z) := by
  simp only [four, ha, hb, hc, hd]
  rfl

theorem unquoteFrom_escape {escaped : Bytes} {text : Bytes} (rest : Bytes)
    (read : unescape (escaped ++ rest) = some (text, escaped.length)) :
    unquoteFrom 0 (92 :: (escaped ++ rest)) = (unquoteFrom 0 rest).map (text ++ ·) := by
  rw [unquoteFrom, if_pos rfl, read]
  dsimp only
  rw [unquoteFrom_skip]

theorem unescape_code {a b c d : UInt8} {w x y z : Nat} (rest : Bytes) (ha : hexValue a = some w) (hb : hexValue b = some x)
    (hc : hexValue c = some y) (hd : hexValue d = some z) (plain : surrogate (w * 4096 + x * 256 + y * 16 + z) = false) :
    unescape ([117, a, b, c, d] ++ rest) =
      some (String.utf8EncodeChar (Char.ofNat (w * 4096 + x * 256 + y * 16 + z)), 5) := by
  simp only [List.cons_append, List.nil_append, unescape, four_read rest ha hb hc hd, plain]
  rfl

theorem unquoteFrom_raw {c : Char} (rest : Bytes) (large : 32 ≤ c.toNat) (notQuote : c.toNat ≠ 34) (notSlash : c.toNat ≠ 92) :
    unquoteFrom 0 (String.utf8EncodeChar c ++ rest) = (unquoteFrom 0 rest).map (String.utf8EncodeChar c ++ ·) := by
  have decoded := decodeRune_encode c rest
  obtain ⟨byte, skipped, bytes, length⟩ := encodeChar_cons c
  have first : byte ≠ 92 ∧ byte ≠ 34 ∧ ¬ byte < 32 := by
    by_cases ascii : c.toNat < 128
    · rw [Ecma.encode_ascii ascii] at bytes
      obtain ⟨rfl, -⟩ := List.cons.inj bytes
      have code : (Ecma.asciiByte c).toNat = c.toNat := byte_ofNat (by omega)
      refine ⟨?_, ?_, ?_⟩
      · intro same
        exact notSlash (code ▸ congrArg UInt8.toNat same)
      · intro same
        exact notQuote (code ▸ congrArg UInt8.toNat same)
      · rw [UInt8.lt_iff_toNat_lt, code]
        exact Nat.not_lt.mpr large
    · have high := Ecma.encode_high ascii (bytes ▸ List.mem_cons_self)
      have numbers : 128 ≤ byte.toNat := UInt8.le_iff_toNat_le.mp high
      refine ⟨?_, ?_, ?_⟩
      · rintro rfl
        exact absurd numbers (by decide)
      · rintro rfl
        exact absurd numbers (by decide)
      · rw [UInt8.lt_iff_toNat_lt]
        exact Nat.not_lt.mpr (Nat.le_trans (by decide) numbers)
  rw [bytes, List.cons_append] at decoded
  rw [bytes, List.cons_append, unquoteFrom, if_neg first.1, if_neg (by simpa using ⟨first.2.1, UInt8.not_lt.mp first.2.2⟩),
    decoded]
  dsimp only
  rw [← List.cons_append, List.take_left' rfl, List.length_cons, Nat.add_sub_cancel, unquoteFrom_skip]

theorem unquoteFrom_ascii {c : Char} (ascii : Ecma.Ascii c) (rest : Bytes) :
    unquoteFrom 0 (asciiText (Ecma.asciiByte c) ++ rest) = (unquoteFrom 0 rest).map (String.utf8EncodeChar c ++ ·) := by
  have code : (Ecma.asciiByte c).toNat = c.toNat := byte_ofNat (Nat.lt_trans ascii (by decide))
  unfold asciiText
  split
  case isTrue plain =>
      simp only [safe, Bool.and_eq_true, decide_eq_true_eq, UInt8.le_iff_toNat_le, code, ne_eq] at plain
      have large : 32 ≤ c.toNat := plain.1.1.1.1.1
      have notQuote : c.toNat ≠ 34 := fun same => plain.1.1.1.1.2 (UInt8.toNat_inj.mp (code.trans same))
      have notSlash : c.toNat ≠ 92 := fun same => plain.1.1.1.2 (UInt8.toNat_inj.mp (code.trans same))
      rw [← Ecma.encode_ascii ascii]
      exact unquoteFrom_raw rest large notQuote notSlash
  case isFalse special =>
      rw [Ecma.encode_ascii ascii]
      unfold escapeByte
      split_ifs with quoteSlash back form line carriage tab
      · have cases : Ecma.asciiByte c = 34 ∨ Ecma.asciiByte c = 92 := by simpa using quoteSlash
        obtain same | same := cases
        · rw [same]
          exact @unquoteFrom_escape [34] _ rest rfl
        · rw [same]
          exact @unquoteFrom_escape [92] _ rest rfl
      · rw [back]
        exact @unquoteFrom_escape [98] _ rest rfl
      · rw [form]
        exact @unquoteFrom_escape [102] _ rest rfl
      · rw [line]
        exact @unquoteFrom_escape [110] _ rest rfl
      · rw [carriage]
        exact @unquoteFrom_escape [114] _ rest rfl
      · rw [tab]
        exact @unquoteFrom_escape [116] _ rest rfl
      · have below : c.toNat / 16 < 16 := by unfold Ecma.Ascii at ascii; omega
        have read := unescape_code rest (hexValue_hexDigit 0 (by decide)) (hexValue_hexDigit 0 (by decide))
          (hexValue_hexDigit (c.toNat / 16) below) (hexValue_hexDigit (c.toNat % 16) (by omega))
          (by simp only [surrogate, Bool.and_eq_false_iff, decide_eq_false_iff_not]; unfold Ecma.Ascii at ascii; omega)
        have whole : 0 * 4096 + 0 * 256 + c.toNat / 16 * 16 + c.toNat % 16 = c.toNat := by omega
        rw [whole, Char.ofNat_toNat] at read
        rw [code, ← Ecma.encode_ascii ascii]
        exact unquoteFrom_escape rest read

theorem unquoteFrom_rune (r : Rune) (rest : Bytes) : unquoteFrom 0 (runeText r ++ rest) =
    (unquoteFrom 0 rest).map ((match r with | .char c => String.utf8EncodeChar c | .bad _ => replacement) ++ ·) := by
  cases r with
  | bad byte =>
      have read := unescape_code rest (hexValue_hexDigit 15 (by decide)) (hexValue_hexDigit 15 (by decide))
        (hexValue_hexDigit 15 (by decide)) (hexValue_hexDigit 13 (by decide)) (by decide)
      have encoded : String.utf8EncodeChar (Char.ofNat 65533) = replacement := by decide
      exact unquoteFrom_escape rest (encoded ▸ read)
  | char c =>
      unfold runeText
      dsimp only
      split_ifs with ascii separator
      · exact unquoteFrom_ascii ascii rest
      · have high : c.toNat = 0x2028 ∨ c.toNat = 0x2029 := by simpa using separator
        have read := unescape_code rest (hexValue_hexDigit 2 (by decide)) (hexValue_hexDigit 0 (by decide))
          (hexValue_hexDigit 2 (by decide)) (hexValue_hexDigit (c.toNat % 16) (by omega))
          (by simp only [surrogate, Bool.and_eq_false_iff, decide_eq_false_iff_not]; omega)
        have whole : 2 * 4096 + 0 * 256 + 2 * 16 + c.toNat % 16 = c.toNat := by omega
        rw [whole, Char.ofNat_toNat] at read
        exact unquoteFrom_escape rest read
      · exact unquoteFrom_raw rest (by omega) (by omega) (by omega)

theorem coerce_char (c : Char) (rest : Bytes) : coerce (String.utf8EncodeChar c ++ rest) = String.utf8EncodeChar c ++ coerce rest := by
  have decoded := decodeRune_encode c rest
  obtain ⟨byte, skipped, bytes, length⟩ := encodeChar_cons c
  have copied : ∀ skipped : Bytes, coerceFrom skipped.length (skipped ++ rest) = skipped ++ coerceFrom 0 rest := by
    intro skipped
    induction skipped with
    | nil => rfl
    | cons first skipped ih => rw [List.length_cons, List.cons_append, coerceFrom, ih, List.cons_append]
  rw [bytes, List.cons_append] at decoded ⊢
  rw [coerce, coerceFrom, decoded]
  dsimp only
  rw [List.length_cons, Nat.add_sub_cancel, copied]
  rfl

theorem coerce_bad {byte : UInt8} {rest : Bytes} (none : decodeRune (byte :: rest) = none) :
    coerce (byte :: rest) = replacement ++ coerce rest := by
  rw [coerce, coerceFrom, none]
  rfl

theorem unquote_content (text : GoString) : unquote (contentText text) = some (coerce text) := by
  unfold unquote contentText
  induction text using runes_induction with
  | nil => rfl
  | char c rest ih => rw [runes_char, List.flatMap_cons, unquoteFrom_rune, ih, coerce_char]; rfl
  | bad byte rest none ih => rw [runes_bad none, List.flatMap_cons, unquoteFrom_rune, ih, coerce_bad none]; rfl

def Scans (piece : Bytes) : Prop :=
  ∀ rest content after, scanString rest = some (content, after) → scanString (piece ++ rest) = some (piece ++ content, after)

theorem scans_nil : Scans [] := fun _ _ _ scanned => scanned

theorem scans_append {first second : Bytes} (one : Scans first) (other : Scans second) : Scans (first ++ second) := by
  intro rest content after scanned
  rw [List.append_assoc, List.append_assoc]
  exact one _ _ _ (other _ _ _ scanned)

theorem scans_byte {byte : UInt8} (large : 32 ≤ byte) (notQuote : byte ≠ 34) (notSlash : byte ≠ 92) : Scans [byte] := by
  intro rest content after scanned
  rw [List.singleton_append, List.singleton_append, scanString]
  · rw [scanned, if_neg (by simpa using ⟨large, notSlash⟩)]
    rfl
  · exact notQuote
  · exact fun _ _ _ _ _ same => absurd same notSlash
  · exact fun _ _ same => absurd same notSlash

theorem scans_short {byte : UInt8} (short : byte ∈ shortEscapes) : Scans [92, byte] := by
  intro rest content after scanned
  rw [List.cons_append, List.singleton_append, List.cons_append, List.singleton_append, scanString]
  · rw [if_pos short, scanned]
    rfl
  · rintro a b c d more rfl
    exact absurd short (by decide)

theorem scans_code {a b c d : UInt8} (ha : isHex a = true) (hb : isHex b = true) (hc : isHex c = true) (hd : isHex d = true) :
    Scans [92, 117, a, b, c, d] := by
  intro rest content after scanned
  simp only [List.cons_append, List.nil_append, scanString, ha, hb, hc, hd, Bool.and_self, if_true, scanned, Option.map_some]

theorem scans_high {piece : Bytes} (high : ∀ byte ∈ piece, 128 ≤ byte) : Scans piece := by
  induction piece with
  | nil => exact scans_nil
  | cons byte piece ih =>
      have large : 128 ≤ byte.toNat := UInt8.le_iff_toNat_le.mp (high byte (.head _))
      have first : Scans [byte] := by
        refine scans_byte (UInt8.le_iff_toNat_le.mpr (Nat.le_trans (by decide) large)) ?_ ?_
        · rintro rfl
          exact absurd large (by decide)
        · rintro rfl
          exact absurd large (by decide)
      exact scans_append first (ih fun b member => high b (.tail byte member))

theorem scans_ascii {c : Char} (ascii : Ecma.Ascii c) : Scans (asciiText (Ecma.asciiByte c)) := by
  have code : (Ecma.asciiByte c).toNat = c.toNat := byte_ofNat (Nat.lt_trans ascii (by decide))
  unfold asciiText
  split
  case isTrue plain =>
      simp only [safe, Bool.and_eq_true, decide_eq_true_eq, ne_eq] at plain
      exact scans_byte plain.1.1.1.1.1 plain.1.1.1.1.2 plain.1.1.1.2
  case isFalse =>
      unfold escapeByte
      split_ifs with quoteSlash
      · have cases : Ecma.asciiByte c = 34 ∨ Ecma.asciiByte c = 92 := by simpa using quoteSlash
        obtain same | same := cases
        · rw [same]
          exact scans_short (by decide)
        · rw [same]
          exact scans_short (by decide)
      · exact scans_short (by decide)
      · exact scans_short (by decide)
      · exact scans_short (by decide)
      · exact scans_short (by decide)
      · exact scans_short (by decide)
      · rw [code]
        exact scans_code (by decide) (by decide) (isHex_hexDigit (by unfold Ecma.Ascii at ascii; omega))
          (isHex_hexDigit (by omega))

theorem scans_rune (r : Rune) : Scans (runeText r) := by
  cases r with
  | bad byte => exact scans_code (by decide) (by decide) (by decide) (by decide)
  | char c =>
      unfold runeText
      dsimp only
      split_ifs with ascii separator
      · exact scans_ascii ascii
      · exact scans_code (by decide) (by decide) (by decide) (isHex_hexDigit (by omega))
      · exact scans_high fun byte member => Ecma.encode_high ascii member

theorem scans_content (text : GoString) : Scans (contentText text) := by
  unfold contentText
  induction runes text with
  | nil => exact scans_nil
  | cons r rest ih => exact scans_append (scans_rune r) ih

theorem contentText_plain {text : GoString} (plain : ∀ byte ∈ text, safe byte = true ∧ byte < 128) :
    contentText text = text := by
  induction text with
  | nil => rfl
  | cons byte rest ih =>
      obtain ⟨safe, small⟩ := plain byte (.head _)
      have number : byte.toNat < 128 := UInt8.lt_iff_toNat_lt.mp small
      obtain ⟨c, code⟩ := exists_char (.inl (Nat.lt_trans number (by decide)) : byte.toNat < 0xD800 ∨ _)
      have ascii : c.toNat < 128 := code.symm ▸ number
      have single : String.utf8EncodeChar c = [byte] := by
        rw [Ecma.encode_ascii ascii, Ecma.asciiByte, code, UInt8.ofNat_toNat]
      have text : byte :: rest = String.utf8EncodeChar c ++ rest := by rw [single, List.singleton_append]
      have later := ih fun b member => plain b (.tail byte member)
      unfold contentText at later ⊢
      rw [text, runes_char, List.flatMap_cons, later, runeText, if_pos ascii, code, UInt8.ofNat_toNat, asciiText, if_pos safe,
        single]

theorem coerce_ascii {text : GoString} (small : ∀ byte ∈ text, byte < 128) : coerce text = text := by
  rw [coerce_fixed_iff]
  induction text with
  | nil => exact (coerce_fixed_iff []).mp rfl
  | cons byte rest ih =>
      have first : decodeRune (byte :: rest) = some (byte.toNat, 1) := if_pos (small byte (.head _))
      rw [Utf8.valid, validFrom, first]
      exact ih fun b member => small b (.tail byte member)

-- The text of an object whose values are strings, after its brace.
def written : List (Bytes × Bytes) → Bytes
  | [] => [125]
  | [(name, content)] => 34 :: name ++ 34 :: 58 :: 34 :: content ++ [34, 125]
  | (name, content) :: more => 34 :: name ++ 34 :: 58 :: 34 :: content ++ 34 :: 44 :: written more

def quoted (member : Bytes × Bytes) : Bytes × Bytes := (member.1, 34 :: member.2 ++ [34])

theorem take_string (content rest : Bytes) :
    (34 :: content ++ 34 :: rest).take ((34 :: content ++ 34 :: rest).length - rest.length) = 34 :: content ++ [34] := by
  have size : (34 :: content ++ 34 :: rest).length - rest.length = (34 :: content ++ [34]).length := by
    simp only [List.length_append, List.length_cons, List.length_nil]
    omega
  rw [size, ← List.singleton_append (l := rest), ← List.append_assoc, List.take_left]

theorem scans_ends {content : Bytes} (scans : Scans content) (rest : Bytes) :
    scanString (content ++ 34 :: rest) = some (content, rest) := by
  have scanned := scans (34 :: rest) [] rest rfl
  rwa [List.append_nil] at scanned

theorem members_step {name content : Bytes} (scansName : Scans name) (scansContent : Scans content) (fuel : Nat)
    (after : Bytes) :
    members (fuel + 2) (34 :: name ++ 34 :: 58 :: 34 :: content ++ 34 :: after) = match skipSpace after with
      | 44 :: rest => (members (fuel + 1) rest).map fun found => (quoted (name, content) :: found.1, found.2)
      | 125 :: rest => some ([quoted (name, content)], rest)
      | _ => none := by
  have nameEnds := scans_ends scansName (58 :: 34 :: (content ++ 34 :: after))
  have contentEnds := scans_ends scansContent after
  have start : skipSpace (34 :: (name ++ 34 :: 58 :: 34 :: (content ++ 34 :: after))) =
      34 :: (name ++ 34 :: 58 :: 34 :: (content ++ 34 :: after)) := rfl
  have colon : skipSpace (58 :: 34 :: (content ++ 34 :: after)) = 58 :: 34 :: (content ++ 34 :: after) := rfl
  have here : skipSpace (34 :: (content ++ 34 :: after)) = 34 :: (content ++ 34 :: after) := rfl
  have one : value (fuel + 1) (34 :: (content ++ 34 :: after)) = some after := by
    rw [value, contentEnds]
    rfl
  have raw := take_string content after
  simp only [List.cons_append, List.append_assoc] at raw ⊢
  simp only [members, start, nameEnds, colon, here, one, raw]
  rfl

theorem members_written {ms : List (Bytes × Bytes)} (some : ms ≠ []) (scans : ∀ m ∈ ms, Scans m.1 ∧ Scans m.2) {fuel : Nat}
    (enough : ms.length < fuel) (rest : Bytes) : members fuel (written ms ++ rest) = .some (ms.map quoted, rest) := by
  induction ms generalizing fuel with
  | nil => exact absurd rfl some
  | cons m more ih =>
      obtain ⟨name, content⟩ := m
      obtain ⟨scansName, scansContent⟩ := scans _ (.head _)
      obtain ⟨less, rfl⟩ : ∃ less, fuel = less + 2 := ⟨fuel - 2, by simp only [List.length_cons] at enough; omega⟩
      have step := members_step scansName scansContent less
      cases more with
      | nil =>
          rw [written, List.append_assoc]
          exact step (125 :: rest)
      | cons next more =>
          have later := ih (List.cons_ne_nil _ _) (fun m member => scans m (.tail _ member))
            (by simp only [List.length_cons] at enough ⊢; omega : (next :: more).length < less + 1)
          rw [written, List.append_assoc]
          · refine (step (44 :: (written (next :: more) ++ rest))).trans ?_
            change (members (less + 1) (written (next :: more) ++ rest)).map _ = _
            rw [later]
            rfl
          · exact List.cons_ne_nil _ _

theorem written_length (ms : List (Bytes × Bytes)) : ms.length < (written ms).length := by
  induction ms with
  | nil => exact Nat.zero_lt_one
  | cons m more ih =>
      obtain ⟨name, content⟩ := m
      cases more with
      | nil =>
          simp only [written, List.length_append, List.length_cons, List.length_nil]
          omega
      | cons next more =>
          rw [written]
          · simp only [List.length_append, List.length_cons] at ih ⊢
            omega
          · exact List.cons_ne_nil _ _

theorem object_written {ms : List (Bytes × Bytes)} (some : ms ≠ []) (scans : ∀ m ∈ ms, Scans m.1 ∧ Scans m.2) :
    valid (123 :: written ms) = true ∧ object (123 :: written ms) = .some (ms.map quoted) := by
  have begins : ∃ tail, written ms = 34 :: tail := by
    cases ms with
    | nil => exact absurd rfl some
    | cons m more => cases more <;> exact ⟨_, rfl⟩
  have found : ∀ fuel, ms.length < fuel → members fuel (written ms) = .some (ms.map quoted, []) := by
    intro fuel enough
    have read := members_written some scans enough []
    rwa [List.append_nil] at read
  have outer := found (123 :: written ms).length (Nat.lt_succ_of_lt (written_length ms))
  obtain ⟨tail, begins⟩ := begins
  rw [begins] at outer ⊢
  constructor
  · have one : value ((123 :: 34 :: tail).length + 1) (skipSpace (123 :: 34 :: tail)) =
        (members (123 :: 34 :: tail).length (34 :: tail)).map Prod.snd := rfl
    rw [valid, one, outer]
    rfl
  · have all : object (123 :: 34 :: tail) = (members (123 :: 34 :: tail).length (34 :: tail)).map Prod.fst := rfl
    rw [all, outer]
    rfl

end GoJson
