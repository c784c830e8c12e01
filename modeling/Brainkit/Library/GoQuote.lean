import Brainkit.Library.Ecma
import Brainkit.Library.GoText
import Brainkit.Library.Runes

set_option autoImplicit false

-- A text in the quotes of Go's %q, read as a string literal of JavaScript.
namespace GoQuote

open Ecma GoText Utf8

def hexChar (value : Nat) : Char := Char.ofNat (GoText.hexDigit value).toNat

def charItems (isPrint : Nat → Bool) (c : Char) : List Item :=
  match shortEscape c.toNat with
  | some letter => [.escape (.single (Char.ofNat letter.toNat))]
  | none =>
      if isPrint c.toNat then [.raw c]
      else if c.toNat < 32 || c.toNat = 127 then [.escape (.hex (hexChar (c.toNat / 16)) (hexChar (c.toNat % 16)))]
      else if c.toNat < 65536 then
        [.escape (.unicode (hexChar (c.toNat / 4096)) (hexChar (c.toNat / 256 % 16)) (hexChar (c.toNat / 16 % 16))
          (hexChar (c.toNat % 16)))]
      else .escape (.single 'U') :: [c.toNat / 268435456, c.toNat / 16777216 % 16, c.toNat / 1048576 % 16, c.toNat / 65536 % 16,
        c.toNat / 4096 % 16, c.toNat / 256 % 16, c.toNat / 16 % 16, c.toNat % 16].map fun digit => .raw (hexChar digit)

def runeItems (isPrint : Nat → Bool) : Rune → List Item
  | .char c => charItems isPrint c
  | .bad byte => [.escape (.hex (hexChar (byte.toNat / 16)) (hexChar (byte.toNat % 16)))]

def quoteItems (isPrint : Nat → Bool) (text : GoString) : List Item := (runes text).flatMap (runeItems isPrint)

-- The table of strconv.IsPrint below U+0080.
def asciiPrint (code : Nat) : Bool := 32 ≤ code && code < 127

theorem hexChar_spec : ∀ value < 16, hexChar value ∈ Ecma.hexDigits ∧ Ascii (hexChar value) ∧
    asciiByte (hexChar value) = GoText.hexDigit value ∧ digitValue (hexChar value) = value := by
  decide

theorem hexChar_encode {value : Nat} (small : value < 16) : String.utf8EncodeChar (hexChar value) = [GoText.hexDigit value] := by
  obtain ⟨-, ascii, same, -⟩ := hexChar_spec value small
  rw [encode_ascii ascii, same]

def hexChars : Nat → Nat → List Char
  | 0, _ => []
  | count + 1, value => hexChars count (value / 16) ++ [hexChar (value % 16)]

theorem encode_append (first second : List Char) : encode (first ++ second) = encode first ++ encode second :=
  List.flatMap_append

theorem lit_encode (text : String) : lit text = encode text.toList := by
  rw [lit, String.toUTF8, ← String.utf8Encode_toList, List.utf8Encode]
  simp [encode]

theorem hexChars_encode (count value : Nat) : encode (hexChars count value) = GoText.hexDigits count value := by
  induction count generalizing value with
  | zero => rfl
  | succ count ih =>
      rw [hexChars, encode_append, ih, encode, List.flatMap_cons, hexChar_encode (Nat.mod_lt value (by decide))]
      rfl

theorem shortEscape_cases {code : Nat} {letter : UInt8} (found : shortEscape code = some letter) :
    (code, letter) ∈ [(7, 97), (8, 98), (12, 102), (10, 110), (13, 114), (9, 116), (11, 118), (34, 34), (92, 92)] := by
  simp only [shortEscape] at found
  split_ifs at found with h1 h2 h3 h4 h5 h6 h7 h8 h9 <;> cases found <;> subst_vars <;> decide

theorem shortEscape_none {code : Nat} (none : shortEscape code = none) :
    code ≠ 10 ∧ code ≠ 13 ∧ code ≠ 34 ∧ code ≠ 92 ∧ code ≠ 7 := by
  refine ⟨?_, ?_, ?_, ?_, ?_⟩ <;> rintro rfl <;> cases none

variable {isPrint : Nat → Bool}

theorem charItems_escaped {c : Char} {letter : UInt8} (found : shortEscape c.toNat = some letter) :
    charItems isPrint c = [.escape (.single (Char.ofNat letter.toNat))] := by
  simp only [charItems, found]

theorem charItems_printed {c : Char} (none : shortEscape c.toNat = none) (printed : isPrint c.toNat = true) :
    charItems isPrint c = [.raw c] := by
  simp only [charItems, none, printed, if_true]

theorem charItems_hex {c : Char} (none : shortEscape c.toNat = none) (hidden : isPrint c.toNat = false)
    (low : c.toNat < 32 ∨ c.toNat = 127) :
    charItems isPrint c = [.escape (.hex (hexChar (c.toNat / 16)) (hexChar (c.toNat % 16)))] := by
  simp [charItems, none, hidden, low]

theorem charItems_unicode {c : Char} (none : shortEscape c.toNat = none) (hidden : isPrint c.toNat = false)
    (high : ¬ (c.toNat < 32 ∨ c.toNat = 127)) (plane : c.toNat < 65536) :
    charItems isPrint c = [.escape (.unicode (hexChar (c.toNat / 4096)) (hexChar (c.toNat / 256 % 16))
      (hexChar (c.toNat / 16 % 16)) (hexChar (c.toNat % 16)))] := by
  simp [charItems, none, hidden, high, plane]

theorem charItems_long {c : Char} (none : shortEscape c.toNat = none) (hidden : isPrint c.toNat = false)
    (beyond : 65536 ≤ c.toNat) :
    charItems isPrint c = .escape (.single 'U') :: [c.toNat / 268435456, c.toNat / 16777216 % 16, c.toNat / 1048576 % 16,
      c.toNat / 65536 % 16, c.toNat / 4096 % 16, c.toNat / 256 % 16, c.toNat / 16 % 16, c.toNat % 16].map
        fun digit => .raw (hexChar digit) := by
  have high : ¬ (c.toNat < 32 ∨ c.toNat = 127) := by omega
  simp [charItems, none, hidden, high, Nat.not_lt.mpr beyond]

theorem char_cases (isPrint : Nat → Bool) (c : Char) :
    (∃ letter, shortEscape c.toNat = some letter) ∨ shortEscape c.toNat = none ∧ (isPrint c.toNat = true ∨
      isPrint c.toNat = false ∧ ((c.toNat < 32 ∨ c.toNat = 127) ∨ ¬ (c.toNat < 32 ∨ c.toNat = 127) ∧ c.toNat < 65536 ∨
        65536 ≤ c.toNat)) := by
  cases shortEscape c.toNat with
  | some letter => exact .inl ⟨letter, rfl⟩
  | none =>
      refine .inr ⟨rfl, ?_⟩
      cases isPrint c.toNat with
      | true => exact .inl rfl
      | false => exact .inr ⟨rfl, by omega⟩

theorem hex_text {code : Nat} (low : code < 256) :
    itemsText [.escape (.hex (hexChar (code / 16)) (hexChar (code % 16)))] = '\\' :: 'x' :: hexChars 2 code := by
  have first : code / 16 % 16 = code / 16 := by omega
  simp [itemsText, Item.text, Escape.text, hexChars, first]

theorem unicode_text {code : Nat} (plane : code < 65536) :
    itemsText [.escape (.unicode (hexChar (code / 4096)) (hexChar (code / 256 % 16)) (hexChar (code / 16 % 16))
      (hexChar (code % 16)))] = '\\' :: 'u' :: hexChars 4 code := by
  have first : code / 4096 % 16 = code / 4096 := by omega
  simp [itemsText, Item.text, Escape.text, hexChars, Nat.div_div_eq_div_mul, first]

theorem long_text {code : Nat} (valid : code < 1114112) :
    itemsText (.escape (.single 'U') :: [code / 268435456, code / 16777216 % 16, code / 1048576 % 16,
      code / 65536 % 16, code / 4096 % 16, code / 256 % 16, code / 16 % 16, code % 16].map fun digit => .raw (hexChar digit)) =
        '\\' :: 'U' :: hexChars 8 code := by
  have first : code / 268435456 % 16 = code / 268435456 := by omega
  simp [itemsText, Item.text, Escape.text, hexChars, Nat.div_div_eq_div_mul, first]

theorem charItems_text (c : Char) : encode (itemsText (charItems isPrint c)) = quoteRune isPrint c.toNat (String.utf8EncodeChar c) := by
  have range := scalar c
  obtain ⟨letter, found⟩ | ⟨none, printed | ⟨hidden, low | ⟨high, plane⟩ | beyond⟩⟩ := char_cases isPrint c
  · rw [charItems_escaped found, quoteRune, found]
    have pair := shortEscape_cases found
    generalize c.toNat = code at pair
    simp only [List.mem_cons, Prod.mk.injEq, List.not_mem_nil, or_false] at pair
    rcases pair with ⟨-, rfl⟩ | ⟨-, rfl⟩ | ⟨-, rfl⟩ | ⟨-, rfl⟩ | ⟨-, rfl⟩ | ⟨-, rfl⟩ | ⟨-, rfl⟩ |
      ⟨-, rfl⟩ | ⟨-, rfl⟩ <;> rfl
  · rw [charItems_printed none printed, quoteRune, none]
    simp [printed, itemsText, Item.text, encode]
  · rw [charItems_hex none hidden low, hex_text (by omega), quoteRune, none, encode_cons, encode_cons, hexChars_encode]
    simp only [hidden, Bool.false_eq_true, if_false, low, Bool.or_eq_true, decide_eq_true_eq, if_true]
    rfl
  · rw [charItems_unicode none hidden high plane, unicode_text plane, quoteRune, none, encode_cons, encode_cons, hexChars_encode]
    simp only [hidden, Bool.false_eq_true, if_false, high, Bool.or_eq_true, decide_eq_true_eq, plane, if_true]
    rfl
  · have high : ¬ (c.toNat < 32 ∨ c.toNat = 127) := by omega
    rw [charItems_long none hidden beyond, long_text (by omega), quoteRune, none, encode_cons, encode_cons, hexChars_encode]
    simp only [hidden, Bool.false_eq_true, if_false, high, Bool.or_eq_true, decide_eq_true_eq, Nat.not_lt.mpr beyond]
    rfl

theorem quoteFrom_skip (skipped rest : GoString) :
    quoteFrom isPrint skipped.length (skipped ++ rest) = quoteFrom isPrint 0 rest := by
  induction skipped with
  | nil => rfl
  | cons byte skipped ih => exact ih

theorem quoteFrom_items (text : GoString) : quoteFrom isPrint 0 text = encode (itemsText (quoteItems isPrint text)) := by
  induction text using runes_induction with
  | nil => rfl
  | char c rest ih =>
      have decoded := decodeRune_encode c rest
      obtain ⟨byte, skipped, bytes, length⟩ := encodeChar_cons c
      have whole : (String.utf8EncodeChar c ++ rest).take (String.utf8EncodeChar c).length = String.utf8EncodeChar c :=
        List.take_left
      rw [quoteItems, runes_char, List.flatMap_cons, itemsText, List.flatMap_append, encode_append]
      change _ = encode (itemsText (charItems isPrint c)) ++ encode (itemsText (quoteItems isPrint rest))
      rw [charItems_text, ← ih]
      rw [bytes, List.cons_append] at decoded whole ⊢
      rw [bytes] at length
      rw [quoteFrom, decoded]
      dsimp only
      rw [whole, ← length, quoteFrom_skip]
  | bad byte rest none ih =>
      have low := byte.toNat_lt
      rw [quoteItems, runes_bad none, List.flatMap_cons, itemsText, List.flatMap_append, encode_append]
      change _ = encode (itemsText (runeItems isPrint (.bad byte))) ++ encode (itemsText (quoteItems isPrint rest))
      rw [runeItems, hex_text low, encode_cons, encode_cons, hexChars_encode, ← ih, quoteFrom, none]
      rfl

theorem quote_items (text : GoString) :
    quote isPrint text = encode ('"' :: itemsText (quoteItems isPrint text) ++ ['"']) := by
  rw [quote, quoteFrom_items]
  change _ = encode ('"' :: (itemsText (quoteItems isPrint text) ++ ['"']))
  rw [encode_cons, encode_append]
  rfl

theorem hexChar_mem (value : Nat) (small : value < 16) : hexChar value ∈ Ecma.hexDigits := (hexChar_spec value small).1

theorem hexDigit_fits {c : Char} (digit : c ∈ Ecma.hexDigits) : (Item.raw c).FitsString .double :=
  ⟨fun same => absurd (same ▸ digit) (by decide), fun same => absurd (same ▸ digit) (by decide),
    fun same => absurd (same ▸ digit) (by decide), fun same => absurd (same ▸ digit) (by decide)⟩

theorem raw_fits {c : Char} (none : shortEscape c.toNat = none) : (Item.raw c).FitsString .double := by
  obtain ⟨feed, carriage, double, backslash, -⟩ := shortEscape_none none
  exact ⟨fun same => double (same ▸ rfl), fun same => backslash (same ▸ rfl), fun same => feed (same ▸ rfl),
    fun same => carriage (same ▸ rfl)⟩

theorem charItems_fit (c : Char) : ∀ item ∈ charItems isPrint c, item.FitsString .double ∧ Readable .double item := by
  have range := scalar c
  obtain ⟨letter, found⟩ | ⟨none, printed | ⟨hidden, low | ⟨high, plane⟩ | beyond⟩⟩ := char_cases isPrint c
  · rw [charItems_escaped found]
    have pair := shortEscape_cases found
    generalize c.toNat = code at pair
    simp only [List.mem_cons, Prod.mk.injEq, List.not_mem_nil, or_false] at pair
    rcases pair with ⟨-, rfl⟩ | ⟨-, rfl⟩ | ⟨-, rfl⟩ | ⟨-, rfl⟩ | ⟨-, rfl⟩ | ⟨-, rfl⟩ | ⟨-, rfl⟩ |
      ⟨-, rfl⟩ | ⟨-, rfl⟩ <;>
      exact List.forall_mem_singleton.mpr ⟨(by decide : _ ∧ _), readable_single (by decide)⟩
  · rw [charItems_printed none printed]
    exact List.forall_mem_singleton.mpr ⟨raw_fits none, readable_raw (raw_fits none)⟩
  · rw [charItems_hex none hidden low]
    have digits := And.intro (hexChar_mem (c.toNat / 16) (by omega)) (hexChar_mem (c.toNat % 16) (by omega))
    exact List.forall_mem_singleton.mpr ⟨digits, readable_hex digits⟩
  · rw [charItems_unicode none hidden high plane]
    have digits := And.intro (hexChar_mem (c.toNat / 4096) (by omega)) (And.intro (hexChar_mem (c.toNat / 256 % 16) (by omega))
      (And.intro (hexChar_mem (c.toNat / 16 % 16) (by omega)) (hexChar_mem (c.toNat % 16) (by omega))))
    exact List.forall_mem_singleton.mpr ⟨digits, readable_unicode digits⟩
  · rw [charItems_long none hidden beyond]
    refine List.forall_mem_cons.mpr ⟨⟨(by decide : _ ∧ _), readable_single (by decide)⟩, fun item member => ?_⟩
    obtain ⟨digit, here, rfl⟩ := List.mem_map.mp member
    have small : digit < 16 := by
      simp only [List.mem_cons, List.not_mem_nil, or_false] at here
      omega
    have fits := hexDigit_fits (hexChar_mem digit small)
    exact ⟨fits, readable_raw fits⟩

theorem quoteItems_fit (text : GoString) : ∀ item ∈ quoteItems isPrint text, item.FitsString .double ∧ Readable .double item := by
  intro item member
  obtain ⟨rune, -, here⟩ := List.mem_flatMap.mp member
  cases rune with
  | char c => exact charItems_fit c item here
  | bad byte =>
      have low := byte.toNat_lt
      have digits := And.intro (hexChar_mem (byte.toNat / 16) (by omega)) (hexChar_mem (byte.toNat % 16) (by omega))
      rw [runeItems, List.mem_singleton] at here
      rw [here]
      exact ⟨digits, readable_hex digits⟩

theorem quote_read (isPrint : Nat → Bool) (text : GoString) (tail : List Char) :
    readString .double ('"' :: itemsText (quoteItems isPrint text) ++ '"' :: tail) = some (quoteItems isPrint text, tail) :=
  readString_read (fun item member => (quoteItems_fit text item member).2) tail

-- The characters that the literal has as they are: JavaScript has no \a, and no \U.
def Plain (isPrint : Nat → Bool) (c : Char) : Prop := c.toNat ≠ 7 ∧ (65536 ≤ c.toNat → isPrint c.toNat = true)

theorem number_two {first second : Nat} (small : first < 16) (small' : second < 16) :
    number 16 [hexChar first, hexChar second] = first * 16 + second := by
  obtain ⟨-, -, -, here⟩ := hexChar_spec first small
  obtain ⟨-, -, -, there⟩ := hexChar_spec second small'
  simp [number, here, there]

theorem number_four {a b c d : Nat} (one : a < 16) (two : b < 16) (three : c < 16) (four : d < 16) :
    number 16 [hexChar a, hexChar b, hexChar c, hexChar d] = ((a * 16 + b) * 16 + c) * 16 + d := by
  obtain ⟨-, -, -, first⟩ := hexChar_spec a one
  obtain ⟨-, -, -, second⟩ := hexChar_spec b two
  obtain ⟨-, -, -, third⟩ := hexChar_spec c three
  obtain ⟨-, -, -, fourth⟩ := hexChar_spec d four
  simp [number, first, second, third, fourth]

theorem units_plain {c : Char} (plain : Plain isPrint c) : itemsUnits (charItems isPrint c) = utf16 c.toNat := by
  obtain ⟨bell, beyondPrinted⟩ := plain
  obtain ⟨letter, found⟩ | ⟨none, printed | ⟨hidden, low | ⟨high, plane⟩ | beyond⟩⟩ := char_cases isPrint c
  · rw [charItems_escaped found]
    have pair := shortEscape_cases found
    generalize c.toNat = code at pair bell
    simp only [List.mem_cons, Prod.mk.injEq, List.not_mem_nil, or_false] at pair
    rcases pair with ⟨rfl, rfl⟩ | ⟨rfl, rfl⟩ | ⟨rfl, rfl⟩ | ⟨rfl, rfl⟩ | ⟨rfl, rfl⟩ | ⟨rfl, rfl⟩ |
      ⟨rfl, rfl⟩ | ⟨rfl, rfl⟩ | ⟨rfl, rfl⟩
    · exact absurd rfl bell
    all_goals decide
  · rw [charItems_printed none printed]
    simp [itemsUnits, Item.units]
  · rw [charItems_hex none hidden low]
    have plane : c.toNat < 65536 := by omega
    simp only [itemsUnits, List.flatMap_cons, List.flatMap_nil, Item.units, Escape.units, List.append_nil, utf16, plane, if_true]
    rw [number_two (by omega) (by omega)]
    congr 1
    omega
  · rw [charItems_unicode none hidden high plane]
    simp only [itemsUnits, List.flatMap_cons, List.flatMap_nil, Item.units, Escape.units, List.append_nil, utf16, plane, if_true]
    rw [number_four (by omega) (by omega) (by omega) (by omega)]
    congr 1
    omega
  · cases hidden.symm.trans (beyondPrinted beyond)

theorem units_other {c : Char} (other : ¬ Plain isPrint c) :
    ∃ first rest first' rest', itemsUnits (charItems isPrint c) = first :: rest ∧ utf16 c.toNat = first' :: rest' ∧
      first ≠ first' := by
  by_cases bell : c.toNat = 7
  · have found : shortEscape c.toNat = some 97 := by
      rw [bell]
      rfl
    rw [charItems_escaped found, bell]
    have letter : Escape.singleUnits (Char.ofNat (97 : UInt8).toNat) = [97] := by decide
    have bellUnit : utf16 7 = [7] := if_pos (by decide)
    exact ⟨97, [], 7, [], (List.flatMap_singleton _ _).trans letter, bellUnit, by decide⟩
  · have beyond : 65536 ≤ c.toNat ∧ isPrint c.toNat = false := by
      by_contra within
      refine other ⟨bell, fun beyond => ?_⟩
      rw [not_and, Bool.not_eq_false] at within
      exact within beyond
    have none : shortEscape c.toNat = none := by
      cases found : shortEscape c.toNat with
      | none => rfl
      | some letter =>
          have pair := shortEscape_cases found
          simp only [List.mem_cons, Prod.mk.injEq, List.not_mem_nil, or_false] at pair
          omega
    rw [charItems_long none beyond.2 beyond.1, utf16, if_neg (Nat.not_lt.mpr beyond.1)]
    have first : (85 : Nat) ≠ 55296 + (c.toNat - 65536) / 1024 := by omega
    have letter : Escape.singleUnits 'U' = [85] := by decide
    have begins (items : List Item) : itemsUnits (.escape (.single 'U') :: items) = 85 :: itemsUnits items := by
      rw [itemsUnits, List.flatMap_cons, Item.units, Escape.units, letter, List.singleton_append]
      rfl
    exact ⟨85, _, _, _, begins _, rfl, first⟩

theorem runes_encode (text : List Char) : runes (encode text) = text.map .char := by
  induction text with
  | nil => rfl
  | cons c rest ih => rw [encode_cons, runes_char, ih, List.map_cons]

theorem quoteItems_encode (text : List Char) : quoteItems isPrint (encode text) = text.flatMap (charItems isPrint) := by
  rw [quoteItems, runes_encode, List.flatMap_map]
  rfl

theorem itemsUnits_append (first second : List Item) : itemsUnits (first ++ second) = itemsUnits first ++ itemsUnits second :=
  List.flatMap_append

end GoQuote
