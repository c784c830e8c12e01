import Brainkit.Library.GoQuote
import Brainkit.Library.Listed

set_option autoImplicit false

-- The TextEncoder of encoding.go, over the code units of a string.
namespace Brainkit.Jsbridge.TextEncoder

open Ecma GoText GoQuote Listed Utf8

def pushed (value : Nat) : UInt8 := UInt8.ofNat value

def encodePair (c c2 : Nat) : Bytes :=
  let cp := ((c - 0xD800) <<< 10) + 0x10000 + c2 - 0xDC00
  [pushed (0xF0 ||| (cp >>> 18)), pushed (0x80 ||| ((cp >>> 12) &&& 0x3F)), pushed (0x80 ||| ((cp >>> 6) &&& 0x3F)),
    pushed (0x80 ||| (cp &&& 0x3F))]

def encodeSingle (c : Nat) : Bytes :=
  if c < 0x80 then [pushed c]
  else if c < 0x800 then [pushed (0xC0 ||| (c >>> 6)), pushed (0x80 ||| (c &&& 0x3F))]
  else [pushed (0xE0 ||| (c >>> 12)), pushed (0x80 ||| ((c >>> 6) &&& 0x3F)), pushed (0x80 ||| (c &&& 0x3F))]

-- A high surrogate is put together with whatever comes next.
def encode : List Nat → Bytes
  | [] => []
  | [c] => encodeSingle c
  | c :: c2 :: rest =>
      if 0xD800 ≤ c ∧ c < 0xDC00 then encodePair c c2 ++ encode rest else encodeSingle c ++ encode (c2 :: rest)

theorem encode_single {c : Nat} (apart : c < 0xD800 ∨ 0xDC00 ≤ c) (rest : List Nat) :
    encode (c :: rest) = encodeSingle c ++ encode rest := by
  cases rest with
  | nil => exact (List.append_nil _).symm
  | cons next rest => exact if_neg (by omega)

theorem encode_pair {c : Nat} (high : 0xD800 ≤ c ∧ c < 0xDC00) (c2 : Nat) (rest : List Nat) :
    encode (c :: c2 :: rest) = encodePair c c2 ++ encode rest :=
  if_pos high

theorem lead_two {v : Nat} (small : v < 32) : 0xC0 ||| v = v + 192 := by
  rw [Nat.add_comm]
  exact (Nat.two_pow_add_eq_or_of_lt (i := 6) (by omega) 3).symm

theorem lead_three {v : Nat} (small : v < 16) : 0xE0 ||| v = v + 224 := by
  rw [Nat.add_comm]
  exact (Nat.two_pow_add_eq_or_of_lt (i := 5) (by omega) 7).symm

theorem lead_four {v : Nat} (small : v < 8) : 0xF0 ||| v = v + 240 := by
  rw [Nat.add_comm]
  exact (Nat.two_pow_add_eq_or_of_lt (i := 4) (by omega) 15).symm

theorem continued (v : Nat) : 0x80 ||| (v &&& 0x3F) = v % 64 + 128 := by
  rw [Nat.and_two_pow_sub_one_eq_mod v 6, Nat.add_comm]
  exact (Nat.two_pow_add_eq_or_of_lt (i := 7) (by omega) 1).symm

theorem encodeSingle_char {c : Char} (plane : c.toNat < 65536) : encodeSingle c.toNat = String.utf8EncodeChar c := by
  have code : c.val.toNat = c.toNat := rfl
  unfold encodeSingle String.utf8EncodeChar
  dsimp only
  rw [code]
  split
  · rw [if_pos (by omega)]
    rfl
  split
  · rw [if_neg (by omega), if_pos (by omega), Nat.shiftRight_eq_div_pow, lead_two (by omega), continued]
    congr 3
    omega
  · rw [if_neg (by omega), if_neg (by omega), if_pos (by omega), Nat.shiftRight_eq_div_pow, Nat.shiftRight_eq_div_pow,
      lead_three (by omega), continued, continued]
    congr 3
    omega

theorem encodePair_char {c : Char} (beyond : 65536 ≤ c.toNat) :
    encodePair (55296 + (c.toNat - 65536) / 1024) (56320 + (c.toNat - 65536) % 1024) = String.utf8EncodeChar c := by
  have range := scalar c
  have code : c.val.toNat = c.toNat := rfl
  have joined : ((55296 + (c.toNat - 65536) / 1024 - 0xD800) <<< 10) + 0x10000 + (56320 + (c.toNat - 65536) % 1024) - 0xDC00 =
      c.toNat := by
    rw [Nat.shiftLeft_eq]
    omega
  unfold encodePair String.utf8EncodeChar
  dsimp only
  rw [code, joined, if_neg (by omega), if_neg (by omega), if_neg (by omega), Nat.shiftRight_eq_div_pow, Nat.shiftRight_eq_div_pow,
    Nat.shiftRight_eq_div_pow, lead_four (by omega), continued, continued, continued]
  have lead : c.toNat / 262144 % 8 = c.toNat / 262144 := by omega
  simp only [pushed, Nat.reducePow, lead]

theorem encode_char (c : Char) (rest : List Nat) : encode (utf16 c.toNat ++ rest) = String.utf8EncodeChar c ++ encode rest := by
  have range := scalar c
  unfold utf16
  split
  · next plane => rw [List.singleton_append, encode_single (by omega), encodeSingle_char plane]
  · next plane =>
      have beyond := Nat.not_lt.mp plane
      rw [List.cons_append, List.singleton_append, encode_pair (by omega), encodePair_char beyond]

theorem encode_low {units : List Nat} (low : ∀ unit ∈ units, unit < 128) (rest : List Nat) :
    encode (units ++ rest) = units.map pushed ++ encode rest := by
  induction units with
  | nil => rfl
  | cons unit units ih =>
      have first := low unit List.mem_cons_self
      rw [List.cons_append, encode_single (.inl (by omega)), encodeSingle, if_pos first,
        ih fun other member => low other (List.mem_cons_of_mem unit member)]
      rfl

theorem digits_units {digits : List Nat} (small : ∀ digit ∈ digits, digit < 16) :
    itemsUnits (digits.map fun digit => .raw (hexChar digit)) = digits.map fun digit => (hexChar digit).toNat := by
  induction digits with
  | nil => rfl
  | cons digit digits ih =>
      obtain ⟨-, ascii, -⟩ := hexChar_spec digit (small digit List.mem_cons_self)
      have unit : Item.units (.raw (hexChar digit)) = [(hexChar digit).toNat] := if_pos (Nat.lt_trans ascii (by decide))
      rw [List.map_cons, List.map_cons, itemsUnits, List.flatMap_cons, unit, List.singleton_append,
        ← ih fun other member => small other (List.mem_cons_of_mem digit member)]
      rfl

theorem long_units {isPrint : Nat → Bool} {c : Char} (hidden : isPrint c.toNat = false) (beyond : 65536 ≤ c.toNat) :
    (∀ unit ∈ itemsUnits (charItems isPrint c), unit < 128) ∧ (itemsUnits (charItems isPrint c)).length = 9 := by
  have range := scalar c
  have none : shortEscape c.toNat = none := by
    cases found : shortEscape c.toNat with
    | none => rfl
    | some letter =>
        have pair := shortEscape_cases found
        simp only [List.mem_cons, Prod.mk.injEq, List.not_mem_nil, or_false] at pair
        omega
  have letter : Item.units (.escape (.single 'U')) = [85] := by decide
  have small : ∀ digit ∈ [c.toNat / 268435456, c.toNat / 16777216 % 16, c.toNat / 1048576 % 16, c.toNat / 65536 % 16,
      c.toNat / 4096 % 16, c.toNat / 256 % 16, c.toNat / 16 % 16, c.toNat % 16], digit < 16 := by
    simp only [List.forall_mem_cons, List.not_mem_nil, false_implies, implies_true, and_true]
    omega
  rw [charItems_long none hidden beyond, itemsUnits, List.flatMap_cons, letter]
  change (∀ unit ∈ 85 :: itemsUnits _, _) ∧ (85 :: itemsUnits _).length = 9
  rw [digits_units small]
  refine ⟨List.forall_mem_cons.mpr ⟨by decide, fun unit member => ?_⟩, rfl⟩
  obtain ⟨digit, here, rfl⟩ := List.mem_map.mp member
  exact (hexChar_spec digit (small digit here)).2.1

def Proper : Rune → Prop
  | .char _ => True
  | .bad byte => 128 ≤ byte.toNat

def PlainRune (isPrint : Nat → Bool) : Rune → Prop
  | .char c => GoQuote.Plain isPrint c
  | .bad _ => False

theorem encodeSingle_length (c : Nat) :
    1 ≤ (encodeSingle c).length ∧ (128 ≤ c → 2 ≤ (encodeSingle c).length) := by
  unfold encodeSingle
  split
  · exact ⟨Nat.le_refl 1, fun above => absurd above (by omega)⟩
  split
  · exact ⟨Nat.le_add_left 1 1, fun _ => Nat.le_refl 2⟩
  · exact ⟨Nat.le_add_left 1 2, fun _ => Nat.le_add_left 2 1⟩

theorem encode_length_le (units : List Nat) :
    units.length ≤ (encode units).length ∧
      ((∃ unit ∈ units, 128 ≤ unit) → units.length < (encode units).length) := by
  induction units using encode.induct with
  | case1 => exact ⟨Nat.le_refl 0, fun ⟨_, member, _⟩ => absurd member List.not_mem_nil⟩
  | case2 c =>
      obtain ⟨some, more⟩ := encodeSingle_length c
      exact ⟨some, fun ⟨unit, member, above⟩ => more (List.mem_singleton.mp member ▸ above)⟩
  | case3 c c2 rest high ih =>
      have four : (encodePair c c2).length = 4 := rfl
      rw [encode_pair high, List.length_append, four]
      simp only [List.length_cons]
      omega
  | case4 c c2 rest apart ih =>
      obtain ⟨some, more⟩ := encodeSingle_length c
      rw [encode_single (by omega), List.length_append]
      have size : (c :: c2 :: rest).length = (c2 :: rest).length + 1 := rfl
      refine ⟨by omega, fun ⟨unit, member, above⟩ => ?_⟩
      cases List.mem_cons.mp member with
      | inl here =>
          have two := more (here ▸ above)
          omega
      | inr behind =>
          have longer := ih.2 ⟨unit, behind, above⟩
          omega

def runeBytes (isPrint : Nat → Bool) (rune : Rune) : Bytes := encode (itemsUnits (runeItems isPrint rune))

structure Faithful (isPrint : Nat → Bool) (rune : Rune) : Prop where
  whole : ∀ rest, encode (itemsUnits (runeItems isPrint rune) ++ rest) = runeBytes isPrint rune ++ encode rest
  longer : rune.bytes.length ≤ (runeBytes isPrint rune).length
  same_iff : runeBytes isPrint rune = rune.bytes ↔ PlainRune isPrint rune

theorem low_whole {isPrint : Nat → Bool} {rune : Rune} (low : ∀ unit ∈ itemsUnits (runeItems isPrint rune), unit < 128) :
    runeBytes isPrint rune = (itemsUnits (runeItems isPrint rune)).map pushed ∧
      ∀ rest, encode (itemsUnits (runeItems isPrint rune) ++ rest) = runeBytes isPrint rune ++ encode rest := by
  have alone : runeBytes isPrint rune = (itemsUnits (runeItems isPrint rune)).map pushed := by
    have whole := encode_low low []
    rw [List.append_nil, encode, List.append_nil] at whole
    exact whole
  exact ⟨alone, fun rest => by rw [encode_low low, alone]⟩

section

variable {isPrint : Nat → Bool} {c : Char}

theorem bad_faithful {byte : UInt8} (high : 128 ≤ byte.toNat) : Faithful isPrint (.bad byte) := by
  have range := byte.toNat_lt
  have units : itemsUnits (runeItems isPrint (.bad byte)) = [byte.toNat] := by
    change [number 16 [hexChar (byte.toNat / 16), hexChar (byte.toNat % 16)]] ++ [] = [byte.toNat]
    rw [number_two (by omega) (by omega), List.append_nil, Nat.div_add_mod']
  have alone : runeBytes isPrint (.bad byte) = encodeSingle byte.toNat := by
    rw [runeBytes, units]
    rfl
  have two : (runeBytes isPrint (.bad byte)).length = 2 := by
    rw [alone, encodeSingle, if_neg (by omega), if_pos (by omega)]
    rfl
  refine ⟨fun rest => ?_, by rw [two]; exact Nat.le_succ 1, iff_of_false (fun same => ?_) id⟩
  · rw [units, alone, List.singleton_append, encode_single (.inl (by omega))]
  · rw [same] at two
    cases two

theorem plain_faithful (plain : GoQuote.Plain isPrint c) : Faithful isPrint (.char c) := by
  have units : itemsUnits (runeItems isPrint (.char c)) = utf16 c.toNat := units_plain plain
  have alone : runeBytes isPrint (.char c) = String.utf8EncodeChar c := by
    have whole := encode_char c []
    rw [List.append_nil, encode, List.append_nil] at whole
    rw [runeBytes, units, whole]
  refine ⟨fun rest => ?_, Nat.le_of_eq (congrArg List.length alone.symm), iff_of_true alone plain⟩
  rw [units, alone, encode_char]

theorem bell_faithful : Faithful isPrint (.char '\x07') := by
  have found : shortEscape ('\x07').toNat = some 97 := rfl
  have units : itemsUnits (runeItems isPrint (.char '\x07')) = [97] := by
    change itemsUnits (charItems isPrint '\x07') = [97]
    rw [charItems_escaped found]
    decide
  have low : ∀ unit ∈ itemsUnits (runeItems isPrint (.char '\x07')), unit < 128 := by
    rw [units]
    decide
  obtain ⟨alone, whole⟩ := low_whole low
  rw [units] at alone
  refine ⟨whole, by rw [alone]; decide, iff_of_false (fun same => ?_) fun plain => plain.1 rfl⟩
  rw [alone] at same
  exact absurd same (by decide)

theorem long_faithful (hidden : isPrint c.toNat = false) (beyond : 65536 ≤ c.toNat) : Faithful isPrint (.char c) := by
  have low : ∀ unit ∈ itemsUnits (runeItems isPrint (.char c)), unit < 128 := (long_units hidden beyond).1
  obtain ⟨alone, whole⟩ := low_whole low
  have length : (runeBytes isPrint (.char c)).length = 9 := by
    rw [alone, List.length_map]
    exact (long_units hidden beyond).2
  have short : (String.utf8EncodeChar c).length ≤ 4 := by
    rw [String.length_utf8EncodeChar]
    exact c.utf8Size_le_four
  refine ⟨whole, by rw [length]; exact Nat.le_trans short (by decide), iff_of_false (fun same => ?_) fun plain => ?_⟩
  · rw [same] at length
    change (String.utf8EncodeChar c).length = 9 at length
    omega
  · cases hidden.symm.trans (plain.2 beyond)

theorem rune_faithful {rune : Rune} (proper : Proper rune) : Faithful isPrint rune := by
  cases rune with
  | bad byte => exact bad_faithful proper
  | char c =>
      by_cases plain : GoQuote.Plain isPrint c
      · exact plain_faithful plain
      · by_cases bell : c.toNat = 7
        · obtain rfl : c = '\x07' := Char.toNat_inj.mp bell
          exact bell_faithful
        · have beyond : 65536 ≤ c.toNat ∧ isPrint c.toNat = false := by
            by_contra within
            rw [not_and, Bool.not_eq_false] at within
            exact plain ⟨bell, within⟩
          exact long_faithful beyond.2 beyond.1

theorem runes_proper (text : GoString) : ∀ rune ∈ runes text, Proper rune := by
  induction text using runes_induction with
  | nil => exact nofun
  | char c rest ih =>
      rw [runes_char]
      exact List.forall_mem_cons.mpr ⟨trivial, ih⟩
  | bad byte rest none ih =>
      have high : 128 ≤ byte.toNat := by
        by_contra low
        have ascii : byte < 0x80 := UInt8.lt_iff_toNat_lt.mpr (Nat.not_le.mp low)
        simp only [decodeRune, ascii, if_true] at none
        cases none
      rw [runes_bad none]
      exact List.forall_mem_cons.mpr ⟨high, ih⟩

def quotedBytes (isPrint : Nat → Bool) (text : GoString) : Bytes := encode (itemsUnits (quoteItems isPrint text))

theorem quotedBytes_runes (isPrint : Nat → Bool) (text : GoString) :
    quotedBytes isPrint text = (runes text).flatMap (runeBytes isPrint) := by
  have all : ∀ list : List Rune, (∀ rune ∈ list, Proper rune) →
      encode (itemsUnits (list.flatMap (runeItems isPrint))) = list.flatMap (runeBytes isPrint) := by
    intro list proper
    induction list with
    | nil => rfl
    | cons rune list ih =>
        rw [List.flatMap_cons, itemsUnits_append, (rune_faithful (proper rune List.mem_cons_self)).whole,
          ih fun other member => proper other (List.mem_cons_of_mem rune member), List.flatMap_cons]
  exact all (runes text) (runes_proper text)

theorem quotedBytes_same_iff (isPrint : Nat → Bool) (texts : List GoString) :
    texts.flatMap (quotedBytes isPrint) = texts.flatten ↔ ∀ text ∈ texts, ∀ rune ∈ runes text, PlainRune isPrint rune := by
  have proper : ∀ rune ∈ texts.flatMap runes, Proper rune := by
    intro rune member
    obtain ⟨text, -, here⟩ := List.mem_flatMap.mp member
    exact runes_proper text rune here
  have written : texts.flatMap (quotedBytes isPrint) = (texts.flatMap runes).flatMap (runeBytes isPrint) := by
    rw [List.flatMap_assoc]
    exact List.flatMap_congr fun text _ => quotedBytes_runes isPrint text
  have meant : texts.flatten = (texts.flatMap runes).flatMap Rune.bytes := by
    rw [List.flatMap_assoc, ← List.flatMap_id]
    exact List.flatMap_congr fun text _ => (runes_bytes text).symm
  rw [written, meant, flatMap_same_iff fun rune member => (rune_faithful (proper rune member)).longer]
  constructor
  · intro same text here rune member
    have inside := List.mem_flatMap.mpr ⟨text, here, member⟩
    exact (rune_faithful (proper rune inside)).same_iff.mp (same rune inside)
  · intro plain rune member
    obtain ⟨text, here, inside⟩ := List.mem_flatMap.mp member
    exact (rune_faithful (proper rune member)).same_iff.mpr (plain text here rune inside)

end

end Brainkit.Jsbridge.TextEncoder
