import Brainkit.Jsbridge.Buffer
import Brainkit.Library.Listed

set_option autoImplicit false

-- The TextDecoder of encoding.go and the three that give it a body chunk by chunk, next to the decoder of the standard.
namespace Brainkit.Jsbridge.TextDecoder

open Utf8 Ecma Buffer Listed

-- The option stream is not looked at, and nothing is kept from one call to the next.
def decode (input : Option Bytes) : List Nat :=
  match input with
  | none => []
  | some bytes => tdDecode bytes.length bytes

-- What TextDecoderStream enqueues, at every chunk and at the end.
def textDecoderStream (chunks : List Bytes) : List (List Nat) :=
  (chunks.map (fun chunk => decode (some chunk)) ++ [decode none]).filter (· ≠ [])

-- StringDecoder: the writes, and end without an argument.
def stringDecoder (chunks : List Bytes) : List Nat := chunks.flatMap (fun chunk => decode (some chunk)) ++ decode none

-- Response.text, whose chunks are joined with nothing between them.
def responseText (chunks : List Bytes) : List Nat := (chunks.map fun chunk => decode (some chunk)).flatten

-- How many bytes of a malformed sequence are replaced together: as many as begin some well-formed one.
def malformed : Bytes → Nat
  | first :: second :: rest =>
      if 0xE0 ≤ first ∧ first ≤ 0xF4 ∧ secondByte first second then
        match rest with
        | third :: _ => if 0xF0 ≤ first ∧ isContinuation third then 3 else 2
        | [] => 2
      else 1
  | _ => 1

def standardFrom : Nat → Bytes → List Nat
  | _, [] => []
  | left + 1, _ :: rest => standardFrom left rest
  | 0, byte :: rest => match decodeRune (byte :: rest) with
      | some (code, width) => utf16 code ++ standardFrom (width - 1) rest
      | none => 0xFFFD :: standardFrom (malformed (byte :: rest) - 1) rest

def standard (bytes : Bytes) : List Nat := standardFrom 0 bytes

def Lead (byte : UInt8) : Prop := 0xC0 ≤ byte.toNat ∧ byte.toNat < 0xF8

def WellFormed (units : List Nat) : Prop := ∃ chars : List Char, units = chars.flatMap fun c => utf16 c.toNat

theorem lead_masks : ∀ b < 256, (b &&& 0xE0 = 0xC0 ↔ 192 ≤ b ∧ b < 224) ∧ (b &&& 0xF0 = 0xE0 ↔ 224 ≤ b ∧ b < 240) ∧
    (b &&& 0xF8 = 0xF0 ↔ 240 ≤ b ∧ b < 248) := by
  decide +kernel

def tail (rest : Bytes) (i : Nat) : Nat := (rest.getD i 0).toNat % 64

theorem tail_lt (rest : Bytes) (i : Nat) : tail rest i < 64 := Nat.mod_lt _ (by decide)

section Bytes

variable {fuel : Nat} {lead : UInt8} {rest : Bytes}

theorem td_one (low : lead.toNat < 128) : tdDecode (fuel + 1) (lead :: rest) = lead.toNat :: tdDecode fuel rest := if_pos low

theorem td_two (range : 192 ≤ lead.toNat ∧ lead.toNat < 224) :
    tdDecode (fuel + 1) (lead :: rest) = (lead.toNat % 32 * 64 + tail rest 0) :: tdDecode fuel (rest.drop 1) := by
  obtain ⟨two, -, -⟩ := lead_masks lead.toNat lead.toNat_lt
  have head : lead.toNat &&& 0x1F = lead.toNat % 32 := Nat.and_two_pow_sub_one_eq_mod lead.toNat 5
  have first : (rest.getD 0 0).toNat &&& 0x3F = tail rest 0 := masked _
  have unit : ((lead.toNat % 32) <<< 6) ||| tail rest 0 = lead.toNat % 32 * 64 + tail rest 0 := joined (tail_lt rest 0)
  rw [tdDecode]
  dsimp only
  rw [if_neg (by omega), if_pos (two.mpr range), head, first, unit]

theorem td_three (range : 224 ≤ lead.toNat ∧ lead.toNat < 240) :
    tdDecode (fuel + 1) (lead :: rest) =
      (lead.toNat % 16 * 4096 + tail rest 0 * 64 + tail rest 1) :: tdDecode fuel (rest.drop 2) := by
  obtain ⟨two, three, -⟩ := lead_masks lead.toNat lead.toNat_lt
  have head : lead.toNat &&& 0x0F = lead.toNat % 16 := Nat.and_two_pow_sub_one_eq_mod lead.toNat 4
  have first : (rest.getD 0 0).toNat &&& 0x3F = tail rest 0 := masked _
  have second : (rest.getD 1 0).toNat &&& 0x3F = tail rest 1 := masked _
  have upper := tail_lt rest 0
  have lower := tail_lt rest 1
  have low : (tail rest 0 <<< 6) ||| tail rest 1 = tail rest 0 * 64 + tail rest 1 := joined lower
  have unit : ((lead.toNat % 16) <<< 12) ||| (tail rest 0 * 64 + tail rest 1) =
      lead.toNat % 16 * 4096 + (tail rest 0 * 64 + tail rest 1) := joined (by omega)
  rw [tdDecode]
  dsimp only
  rw [if_neg (by omega), if_neg (by rw [two]; omega), if_pos (three.mpr range), head, first, second, Nat.or_assoc, low, unit,
    ← Nat.add_assoc]

def pair (cp : Int) : List Nat := [fromCharCode (0xD800 + cp / 1024), fromCharCode (0xDC00 + cp % 1024)]

theorem td_four (range : 240 ≤ lead.toNat ∧ lead.toNat < 248) :
    tdDecode (fuel + 1) (lead :: rest) =
      pair ((lead.toNat % 8 * 262144 + tail rest 0 * 4096 + tail rest 1 * 64 + tail rest 2 : Nat) - 0x10000) ++
        tdDecode fuel (rest.drop 3) := by
  obtain ⟨two, three, four⟩ := lead_masks lead.toNat lead.toNat_lt
  have head : lead.toNat &&& 0x07 = lead.toNat % 8 := Nat.and_two_pow_sub_one_eq_mod lead.toNat 3
  have first : (rest.getD 0 0).toNat &&& 0x3F = tail rest 0 := masked _
  have second : (rest.getD 1 0).toNat &&& 0x3F = tail rest 1 := masked _
  have third : (rest.getD 2 0).toNat &&& 0x3F = tail rest 2 := masked _
  have upper := tail_lt rest 0
  have middle := tail_lt rest 1
  have lower := tail_lt rest 2
  have low : (tail rest 1 <<< 6) ||| tail rest 2 = tail rest 1 * 64 + tail rest 2 := joined lower
  have inner : (tail rest 0 <<< 12) ||| (tail rest 1 * 64 + tail rest 2) =
      tail rest 0 * 4096 + (tail rest 1 * 64 + tail rest 2) := joined (by omega)
  have code : ((lead.toNat % 8) <<< 18) ||| (tail rest 0 * 4096 + (tail rest 1 * 64 + tail rest 2)) =
      lead.toNat % 8 * 262144 + (tail rest 0 * 4096 + (tail rest 1 * 64 + tail rest 2)) := joined (by omega)
  rw [tdDecode]
  dsimp only
  rw [if_neg (by omega), if_neg (by rw [two]; omega), if_neg (by rw [three]; omega), if_pos (four.mpr range), head, first, second,
    third, Nat.or_assoc, Nat.or_assoc, low, inner, code, ← Nat.add_assoc, ← Nat.add_assoc]
  rfl

theorem td_other (high : 128 ≤ lead.toNat) (plain : ¬ Lead lead) :
    tdDecode (fuel + 1) (lead :: rest) = 0xFFFD :: tdDecode fuel rest := by
  obtain ⟨two, three, four⟩ := lead_masks lead.toNat lead.toNat_lt
  unfold Lead at plain
  rw [tdDecode]
  dsimp only
  rw [if_neg (by omega), if_neg (by rw [two]; omega), if_neg (by rw [three]; omega), if_neg (by rw [four]; omega)]

end Bytes

theorem td_fuel (fuel : Nat) (bytes : Bytes) (enough : bytes.length ≤ fuel) :
    tdDecode fuel bytes = tdDecode bytes.length bytes := by
  induction fuel using Nat.strongRecOn generalizing bytes with
  | ind fuel ih =>
      cases bytes with
      | nil => cases fuel <;> rfl
      | cons lead rest =>
          obtain ⟨fuel, rfl⟩ : ∃ less, fuel = less + 1 := ⟨fuel - 1, by rw [List.length_cons] at enough; omega⟩
          have short : rest.length ≤ fuel := by simpa using enough
          have dropped (n : Nat) : tdDecode fuel (rest.drop n) = tdDecode rest.length (rest.drop n) := by
            have less : (rest.drop n).length ≤ rest.length := by
              rw [List.length_drop]
              exact Nat.sub_le _ _
            rw [ih fuel (Nat.lt_succ_self _) _ (Nat.le_trans less short), ih rest.length (Nat.lt_succ_of_le short) _ less]
          have whole := dropped 0
          rw [List.drop_zero] at whole
          rw [List.length_cons]
          by_cases low : lead.toNat < 128
          · rw [td_one low, td_one low, whole]
          by_cases two : 192 ≤ lead.toNat ∧ lead.toNat < 224
          · rw [td_two two, td_two two, dropped]
          by_cases three : 224 ≤ lead.toNat ∧ lead.toNat < 240
          · rw [td_three three, td_three three, dropped]
          by_cases four : 240 ≤ lead.toNat ∧ lead.toNat < 248
          · rw [td_four four, td_four four, dropped]
          · have plain : ¬ Lead lead := by
              unfold Lead
              omega
            rw [td_other (by omega) plain, td_other (by omega) plain, whole]

def alone (byte : UInt8) : Nat := if byte.toNat < 128 then byte.toNat else 0xFFFD

theorem decode_plain {bytes : Bytes} (plain : ∀ byte ∈ bytes, ¬ Lead byte) : decode (some bytes) = bytes.map alone := by
  rw [decode]
  induction bytes with
  | nil => rfl
  | cons byte rest ih =>
      have later := ih fun other member => plain other (.tail byte member)
      rw [List.length_cons, List.map_cons, alone]
      split
      · next low => rw [td_one low, later]
      · next high => rw [td_other (by omega) (plain byte (.head rest)), later]

theorem decodeRune_units {byte : UInt8} {rest : Bytes} {code width : Nat}
    (found : decodeRune (byte :: rest) = some (code, width)) :
    (width = 1 ∧ utf16 code = [alone byte]) ∨
      (1 < width ∧ width ≤ rest.length + 1 ∧ (utf16 code).length < width ∧ Lead byte) := by
  unfold Lead
  obtain ⟨c, tail, rfl, rfl, same⟩ := decodeRune_char found
  have size := congrArg List.length same
  have width := String.length_utf8EncodeChar c
  have range := scalar c
  have code : c.val.toNat = c.toNat := rfl
  rw [List.length_cons, List.length_append] at size
  have first : (String.utf8EncodeChar c).head? = some byte := by
    obtain ⟨head, more, bytes, -⟩ := encodeChar_cons c
    rw [bytes, List.cons_append] at same
    rw [bytes, List.head?_cons, (List.cons.inj same).1]
  unfold String.utf8EncodeChar at first
  dsimp only at first
  rw [code] at first
  have units : (utf16 c.toNat).length = if c.toNat < 65536 then 1 else 2 := by
    unfold utf16
    split <;> rfl
  rw [units]
  by_cases one : c.toNat ≤ 0x7f
  · left
    rw [if_pos one, List.head?_cons, Option.some.injEq] at first
    have value : byte.toNat = c.toNat := by rw [← first, byte_ofNat (by omega)]
    have single : c.utf8Size = 1 := by simp [Char.utf8Size, UInt32.le_iff_toNat_le, code, one]
    rw [width, single, utf16, if_pos (by omega), alone, if_pos (by omega), value]
    exact ⟨rfl, rfl⟩
  · right
    rw [if_neg one] at first
    have sizes : c.utf8Size = if c.toNat ≤ 0x7ff then 2 else if c.toNat ≤ 0xffff then 3 else 4 := by
      simp [Char.utf8Size, UInt32.le_iff_toNat_le, code, one]
    rw [sizes] at width
    by_cases two : c.toNat ≤ 0x7ff
    · rw [if_pos two] at first width
      rw [List.head?_cons, Option.some.injEq] at first
      have value : byte.toNat = c.toNat / 64 % 32 + 192 := by rw [← first, byte_ofNat (by omega)]
      rw [if_pos (by omega)]
      omega
    · rw [if_neg two] at first width
      by_cases three : c.toNat ≤ 0xffff
      · rw [if_pos three] at first width
        rw [List.head?_cons, Option.some.injEq] at first
        have value : byte.toNat = c.toNat / 4096 % 16 + 224 := by rw [← first, byte_ofNat (by omega)]
        rw [if_pos (by omega)]
        omega
      · rw [if_neg three] at first width
        rw [List.head?_cons, Option.some.injEq] at first
        have value : byte.toNat = c.toNat / 262144 % 8 + 240 := by rw [← first, byte_ofNat (by omega)]
        rw [if_neg (by omega)]
        omega

theorem malformed_alone {byte : UInt8} {rest : Bytes} (none : decodeRune (byte :: rest) = none) : alone byte = 0xFFFD := by
  rw [alone, if_neg fun low => ?_]
  have single : decodeRune (byte :: rest) = some (byte.toNat, 1) := if_pos (UInt8.lt_iff_toNat_lt.mpr low)
  rw [single] at none
  exact nomatch none

theorem malformed_cons (first second : UInt8) (rest : Bytes) :
    malformed (first :: second :: rest) =
      if 0xE0 ≤ first ∧ first ≤ 0xF4 ∧ secondByte first second then
        match rest with
        | third :: _ => if 0xF0 ≤ first ∧ isContinuation third then 3 else 2
        | [] => 2
      else 1 := rfl

theorem malformed_width (byte : UInt8) (rest : Bytes) :
    malformed (byte :: rest) = 1 ∨ 1 < malformed (byte :: rest) ∧ malformed (byte :: rest) ≤ rest.length + 1 ∧ Lead byte := by
  match rest with
  | [] => exact .inl rfl
  | second :: rest =>
      rw [malformed_cons]
      split
      · next ok =>
          have range : Lead byte := by
            have low := UInt8.le_iff_toNat_le.mp ok.1
            have high := UInt8.le_iff_toNat_le.mp ok.2.1
            exact ⟨Nat.le_trans (by decide) low, Nat.lt_of_le_of_lt high (by decide)⟩
          right
          cases rest with
          | nil => exact ⟨Nat.lt_succ_self 1, Nat.le_refl 2, range⟩
          | cons third rest =>
              dsimp only
              split
              · exact ⟨by decide, by simp, range⟩
              · exact ⟨by decide, by simp, range⟩
      · exact .inl rfl

theorem standard_length (left : Nat) (bytes : Bytes) :
    (standardFrom left bytes).length + min left bytes.length ≤ bytes.length := by
  induction bytes generalizing left with
  | nil => simp [standardFrom]
  | cons byte rest ih =>
      cases left with
      | succ left =>
          have later := ih left
          rw [standardFrom, List.length_cons]
          omega
      | zero =>
          rw [standardFrom]
          cases found : decodeRune (byte :: rest) with
          | none =>
              have later := ih (malformed (byte :: rest) - 1)
              have width := malformed_width byte rest
              simp only [List.length_cons]
              omega
          | some rune =>
              obtain ⟨code, width⟩ := rune
              have later := ih (width - 1)
              dsimp only
              obtain ⟨rfl, units⟩ | ⟨wide, fits, units, -⟩ := decodeRune_units found
              · rw [units]
                simp only [List.length_append, List.length_cons, List.length_nil]
                omega
              · simp only [List.length_append, List.length_cons]
                omega

theorem standard_alone (bytes : Bytes) (full : (standard bytes).length = bytes.length) : standard bytes = bytes.map alone := by
  induction bytes with
  | nil => rfl
  | cons byte rest ih =>
      rw [standard, standardFrom] at full ⊢
      cases found : decodeRune (byte :: rest) with
      | none =>
          have replaced := malformed_alone found
          rw [found] at full
          obtain one | ⟨wide, fits, -⟩ := malformed_width byte rest
          · simp only [one, List.length_cons, Nat.sub_self] at full ⊢
            rw [← standard, ih (Nat.succ.inj full), List.map_cons, replaced]
          · have later := standard_length (malformed (byte :: rest) - 1) rest
            simp only [List.length_cons] at full
            omega
      | some rune =>
          obtain ⟨code, width⟩ := rune
          rw [found] at full
          dsimp only at full ⊢
          obtain ⟨rfl, units⟩ | ⟨wide, fits, units, -⟩ := decodeRune_units found
          · rw [units] at full ⊢
            simp only [List.singleton_append, List.length_cons, Nat.sub_self] at full ⊢
            rw [← standard, ih (Nat.succ.inj full), List.map_cons]
          · have later := standard_length (width - 1) rest
            simp only [List.length_append, List.length_cons] at full
            omega

theorem standard_plain {bytes : Bytes} (plain : ∀ byte ∈ bytes, ¬ Lead byte) : standard bytes = bytes.map alone := by
  induction bytes with
  | nil => rfl
  | cons byte rest ih =>
      have here := plain byte (.head rest)
      have later := ih fun other member => plain other (.tail byte member)
      rw [standard, standardFrom, List.map_cons]
      cases found : decodeRune (byte :: rest) with
      | none =>
          obtain one | ⟨-, -, wide⟩ := malformed_width byte rest
          · rw [malformed_alone found, one, ← later]
            rfl
          · exact absurd wide here
      | some rune =>
          obtain ⟨code, width⟩ := rune
          dsimp only
          obtain ⟨rfl, units⟩ | ⟨-, -, -, low⟩ := decodeRune_units found
          · rw [units, ← later]
            rfl
          · exact absurd low here

theorem pair_char {code : Nat} (beyond : 65536 ≤ code ∧ code < 0x110000) :
    pair ((code : Int) - 0x10000) = [55296 + (code - 65536) / 1024, 56320 + (code - 65536) % 1024] := by
  have first : ((0xD800 + ((code : Int) - 0x10000) / 1024) % 65536).toNat = 55296 + (code - 65536) / 1024 := by omega
  have second : ((0xDC00 + ((code : Int) - 0x10000) % 1024) % 65536).toNat = 56320 + (code - 65536) % 1024 := by omega
  rw [pair, fromCharCode, fromCharCode, first, second]

theorem td_char (c : Char) (fuel : Nat) (rest : Bytes) :
    tdDecode (fuel + 1) (String.utf8EncodeChar c ++ rest) = utf16 c.toNat ++ tdDecode fuel rest := by
  have range := scalar c
  have code : c.val.toNat = c.toNat := rfl
  have continued : (UInt8.ofNat (c.toNat % 64 + 128)).toNat = c.toNat % 64 + 128 := byte_ofNat (by omega)
  unfold String.utf8EncodeChar
  dsimp only
  rw [code]
  split
  · have value : (UInt8.ofNat c.toNat).toNat = c.toNat := byte_ofNat (by omega)
    rw [List.singleton_append, td_one (by omega), value, utf16, if_pos (by omega)]
    rfl
  split
  · have lead : (UInt8.ofNat (c.toNat / 64 % 32 + 192)).toNat = c.toNat / 64 % 32 + 192 := byte_ofNat (by omega)
    rw [List.cons_append, List.singleton_append, td_two (by omega), lead, utf16, if_pos (by omega)]
    unfold tail
    rw [List.getD_cons_zero, continued]
    congr 1
    omega
  split
  · have lead : (UInt8.ofNat (c.toNat / 4096 % 16 + 224)).toNat = c.toNat / 4096 % 16 + 224 := byte_ofNat (by omega)
    have middle : (UInt8.ofNat (c.toNat / 64 % 64 + 128)).toNat = c.toNat / 64 % 64 + 128 := byte_ofNat (by omega)
    rw [List.cons_append, List.cons_append, List.singleton_append, td_three (by omega), lead, utf16, if_pos (by omega)]
    unfold tail
    rw [List.getD_cons_succ, List.getD_cons_zero, List.getD_cons_zero, middle, continued]
    congr 1
    omega
  · have lead : (UInt8.ofNat (c.toNat / 262144 % 8 + 240)).toNat = c.toNat / 262144 % 8 + 240 := byte_ofNat (by omega)
    have second : (UInt8.ofNat (c.toNat / 4096 % 64 + 128)).toNat = c.toNat / 4096 % 64 + 128 := byte_ofNat (by omega)
    have third : (UInt8.ofNat (c.toNat / 64 % 64 + 128)).toNat = c.toNat / 64 % 64 + 128 := byte_ofNat (by omega)
    rw [List.cons_append, List.cons_append, List.cons_append, List.singleton_append, td_four (by omega), lead, utf16,
      if_neg (by omega)]
    have whole : (c.toNat / 262144 % 8 + 240) % 8 * 262144 + (c.toNat / 4096 % 64 + 128) % 64 * 4096 +
        (c.toNat / 64 % 64 + 128) % 64 * 64 + (c.toNat % 64 + 128) % 64 = c.toNat := by omega
    unfold tail
    rw [List.getD_cons_succ, List.getD_cons_succ, List.getD_cons_succ, List.getD_cons_zero, List.getD_cons_zero,
      List.getD_cons_zero, second, third, continued, whole, pair_char (by omega)]
    rfl

theorem decode_chars (chars : List Char) :
    decode (some (chars.flatMap String.utf8EncodeChar)) = chars.flatMap fun c => utf16 c.toNat := by
  rw [decode]
  induction chars with
  | nil => rfl
  | cons c chars ih =>
      have size : (String.utf8EncodeChar c).length = c.utf8Size := String.length_utf8EncodeChar c
      have positive := c.utf8Size_pos
      rw [List.flatMap_cons, List.flatMap_cons, ← ih]
      obtain ⟨fuel, same⟩ : ∃ fuel, (String.utf8EncodeChar c ++ chars.flatMap String.utf8EncodeChar).length = fuel + 1 :=
        ⟨(String.utf8EncodeChar c ++ chars.flatMap String.utf8EncodeChar).length - 1, by rw [List.length_append]; omega⟩
      rw [same, td_char, td_fuel]
      rw [List.length_append] at same
      omega

theorem encode_chars (chars : List Char) :
    TextEncoder.encode (chars.flatMap fun c => utf16 c.toNat) = chars.flatMap String.utf8EncodeChar := by
  induction chars with
  | nil => rfl
  | cons c chars ih => rw [List.flatMap_cons, List.flatMap_cons, TextEncoder.encode_char, ih]

theorem decode_encode {units : List Nat} (formed : WellFormed units) : decode (some (TextEncoder.encode units)) = units := by
  obtain ⟨chars, rfl⟩ := formed
  rw [encode_chars, decode_chars]

theorem stream_flatten (chunks : List Bytes) :
    (textDecoderStream chunks).flatten = chunks.flatMap fun chunk => decode (some chunk) := by
  have filtered (texts : List (List Nat)) : (texts.filter (· ≠ [])).flatten = texts.flatten := by
    induction texts with
    | nil => rfl
    | cons text texts ih =>
        rw [List.filter_cons]
        split
        · rw [List.flatten_cons, List.flatten_cons, ih]
        · next none =>
            have empty : text = [] := by simpa using none
            rw [ih, List.flatten_cons, empty, List.nil_append]
  rw [textDecoderStream, filtered, List.flatten_concat, decode, List.append_nil, List.flatMap_def]

theorem string_decoder_flatten (chunks : List Bytes) :
    stringDecoder chunks = chunks.flatMap fun chunk => decode (some chunk) := by
  rw [stringDecoder, decode, List.append_nil]

theorem response_flatten (chunks : List Bytes) : responseText chunks = chunks.flatMap fun chunk => decode (some chunk) :=
  List.flatMap_def.symm

-- What the split of a body leaves of its text.
def Independent (bytes : Bytes) (chunks : List Bytes) : Prop :=
  (textDecoderStream chunks).flatten = standard bytes ∧ stringDecoder chunks = standard bytes ∧
    responseText chunks = standard bytes

theorem independent_iff (bytes : Bytes) (chunks : List Bytes) :
    Independent bytes chunks ↔ (chunks.flatMap fun chunk => decode (some chunk)) = standard bytes := by
  rw [Independent, stream_flatten, string_decoder_flatten, response_flatten, and_self, and_self]

theorem decode_single (byte : UInt8) :
    1 ≤ (decode (some [byte])).length ∧ (decode (some [byte]) = [alone byte] → ¬ Lead byte) := by
  have empty : tail [] 0 = 0 := rfl
  have none : tail [] 1 = 0 := rfl
  have code : decode (some [byte]) = tdDecode (0 + 1) [byte] := rfl
  rw [code]
  by_cases low : byte.toNat < 128
  · rw [td_one low]
    exact ⟨Nat.le_refl 1, fun _ lead => absurd lead.1 (by omega)⟩
  have replaced : alone byte = 0xFFFD := if_neg low
  rw [replaced]
  by_cases two : 192 ≤ byte.toNat ∧ byte.toNat < 224
  · rw [td_two two, empty]
    refine ⟨Nat.le_add_left 1 _, fun same => ?_⟩
    have unit := (List.cons.inj same).1
    omega
  by_cases three : 224 ≤ byte.toNat ∧ byte.toNat < 240
  · rw [td_three three, empty, none]
    refine ⟨Nat.le_add_left 1 _, fun same => ?_⟩
    have unit := (List.cons.inj same).1
    omega
  by_cases four : 240 ≤ byte.toNat ∧ byte.toNat < 248
  · rw [td_four four]
    exact ⟨Nat.le_add_left 1 _, fun same => nomatch (List.cons.inj same).2⟩
  · have plain : ¬ Lead byte := by
      unfold Lead
      omega
    rw [td_other (by omega) plain]
    exact ⟨Nat.le_refl 1, fun _ => plain⟩

theorem standard_char (c : Char) (rest : Bytes) :
    standard (String.utf8EncodeChar c ++ rest) = utf16 c.toNat ++ standard rest := by
  have decoded := decodeRune_encode c rest
  obtain ⟨byte, skipped, bytes, length⟩ := encodeChar_cons c
  have skip (skipped : Bytes) : standardFrom skipped.length (skipped ++ rest) = standardFrom 0 rest := by
    induction skipped with
    | nil => rfl
    | cons byte skipped ih => exact ih
  rw [bytes, List.cons_append] at decoded ⊢
  rw [bytes] at length
  rw [standard, standardFrom, decoded]
  dsimp only
  rw [← length, skip]
  rfl

theorem independent_whole (texts : List (List Char)) :
    Independent (texts.flatten.flatMap String.utf8EncodeChar) (texts.map fun chars => chars.flatMap String.utf8EncodeChar) := by
  rw [independent_iff]
  induction texts with
  | nil => rfl
  | cons chars texts ih =>
      have head (chars : List Char) (rest : Bytes) :
          standard (chars.flatMap String.utf8EncodeChar ++ rest) = (chars.flatMap fun c => utf16 c.toNat) ++ standard rest := by
        induction chars with
        | nil => rfl
        | cons c chars ih => rw [List.flatMap_cons, List.flatMap_cons, List.append_assoc, standard_char, ih, List.append_assoc]
      rw [List.map_cons, List.flatMap_cons, List.flatten_cons, List.flatMap_append, head, ih, decode_chars]

theorem chunking_iff (bytes : Bytes) :
    ((∀ units, WellFormed units → decode (some (TextEncoder.encode units)) = units) ∧
      ∀ chunks : List Bytes, chunks.flatten = bytes → Independent bytes chunks) ↔ ∀ byte ∈ bytes, ¬ Lead byte := by
  constructor
  · rintro ⟨-, split⟩
    have pieces : (bytes.map fun byte => [byte]).flatten = bytes := by rw [← List.flatMap_def, List.flatMap_singleton']
    have apart := (independent_iff bytes _).mp (split _ pieces)
    rw [List.flatMap_map] at apart
    have some (item : UInt8 → Nat) : ∀ byte ∈ bytes, [item byte].length ≤ (decode (.some [byte])).length :=
      fun byte _ => (decode_single byte).1
    have full : (standard bytes).length = bytes.length := by
      have most := standard_length 0 bytes
      have least := flatMap_length_le (some UInt8.toNat)
      rw [apart, ← List.map_eq_flatMap, List.length_map] at least
      rw [← standard] at most
      omega
    rw [standard_alone bytes full, List.map_eq_flatMap, flatMap_same_iff (some _)] at apart
    exact fun byte member => (decode_single byte).2 (apart byte member)
  · intro plain
    refine ⟨fun units => decode_encode, fun chunks same => (independent_iff bytes chunks).mpr ?_⟩
    rw [standard_plain plain, ← same, List.flatMap_def, List.map_flatten]
    congr 1
    refine List.map_congr_left fun chunk member => decode_plain fun byte inside => plain byte ?_
    rw [← same]
    exact List.mem_flatten.mpr ⟨chunk, member, inside⟩

-- The two bytes of é, one in each chunk.
theorem accent_split : ∃ (bytes : Bytes) (chunks : List Bytes), chunks.flatten = bytes ∧ ¬ Independent bytes chunks := by
  refine ⟨[0xC3, 0xA9], [[0xC3], [0xA9]], rfl, fun same => ?_⟩
  rw [independent_iff] at same
  exact absurd same (by decide)

end Brainkit.Jsbridge.TextDecoder
