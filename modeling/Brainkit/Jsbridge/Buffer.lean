import Brainkit.Jsbridge.TextEncoder
import Brainkit.Library.Base64

set_option autoImplicit false

-- The encodings of the Buffer polyfill in buffer.go. A string is its code units; start and end of toString stay at
-- their defaults, and an encoding left out is the empty text.
namespace Brainkit.Jsbridge.Buffer

open Utf8

def fromCharCode (code : Int) : Nat := (code % 65536).toNat

-- The TextDecoder of encoding.go: what is missing after a lead byte counts as zero bits.
def tdDecode : Nat → Bytes → List Nat
  | 0, _ => []
  | _, [] => []
  | fuel + 1, lead :: rest =>
      let b := lead.toNat
      let tail (i : Nat) : Nat := (rest.getD i 0).toNat &&& 0x3F
      if b < 0x80 then b :: tdDecode fuel rest
      else if b &&& 0xE0 = 0xC0 then (((b &&& 0x1F) <<< 6) ||| tail 0) :: tdDecode fuel (rest.drop 1)
      else if b &&& 0xF0 = 0xE0 then
        (((b &&& 0x0F) <<< 12) ||| (tail 0 <<< 6) ||| tail 1) :: tdDecode fuel (rest.drop 2)
      else if b &&& 0xF8 = 0xF0 then
        let cp : Int := (((b &&& 0x07) <<< 18) ||| (tail 0 <<< 12) ||| (tail 1 <<< 6) ||| tail 2 : Nat) - 0x10000
        fromCharCode (0xD800 + cp / 1024) :: fromCharCode (0xDC00 + cp % 1024) :: tdDecode fuel (rest.drop 3)
      else 0xFFFD :: tdDecode fuel rest

def b64c (index : Nat) : Nat := Base64.digit index

-- A unit outside the table, or past the end of the string, looks up to undefined and counts as zero.
def b64l (unit : Option Nat) : Nat := (unit.bind Base64.value).getD 0

def equals : Nat := 61

def b64encodeGroup (a0 a1 a2 : Nat) (second third : Bool) : List Nat :=
  [b64c ((a0 >>> 2) &&& 0x3f), b64c (((a0 <<< 4) ||| (a1 >>> 4)) &&& 0x3f),
    if second then b64c (((a1 <<< 2) ||| (a2 >>> 6)) &&& 0x3f) else equals, if third then b64c (a2 &&& 0x3f) else equals]

def b64encode : Bytes → List Nat
  | [] => []
  | [a0] => b64encodeGroup a0.toNat 0 0 false false
  | [a0, a1] => b64encodeGroup a0.toNat a1.toNat 0 true false
  | a0 :: a1 :: a2 :: rest => b64encodeGroup a0.toNat a1.toNat a2.toNat true true ++ b64encode rest

def b64decodeGroup (a b c d : Option Nat) : Bytes :=
  let a0 := b64l a
  let b0 := b64l b
  let c0 := b64l c
  let d0 := b64l d
  UInt8.ofNat ((a0 <<< 2) ||| (b0 >>> 4)) ::
    ((if c ≠ some equals then [UInt8.ofNat (((b0 <<< 4) ||| (c0 >>> 2)) &&& 0xff)] else []) ++
      (if d ≠ some equals then [UInt8.ofNat (((c0 <<< 6) ||| d0) &&& 0xff)] else []))

def b64stores : List Nat → Bytes
  | [] => []
  | [a] => b64decodeGroup (some a) none none none
  | [a, b] => b64decodeGroup (some a) (some b) none none
  | [a, b, c] => b64decodeGroup (some a) (some b) (some c) none
  | a :: b :: c :: d :: rest => b64decodeGroup (some a) (some b) (some c) (some d) ++ b64stores rest

def pads (v : List Nat) : Nat :=
  (if 1 < v.length ∧ v[v.length - 1]? = some equals then 1 else 0) +
    (if 2 < v.length ∧ v[v.length - 2]? = some equals then 1 else 0)

def bLen (v : List Nat) : Nat := v.length * 3 / 4 - pads v

-- A store past the end of the array is ignored, what is never stored stays zero.
def b64decode (v : List Nat) : Bytes := (b64stores v ++ List.replicate (bLen v) 0).take (bLen v)

def isStrWhiteSpace (unit : Nat) : Bool :=
  unit ∈ [9, 10, 11, 12, 13, 32, 0xA0, 0x1680, 0x2028, 0x2029, 0x202F, 0x205F, 0x3000, 0xFEFF] ||
    (0x2000 ≤ unit && unit ≤ 0x200A)

def hexValue (unit : Nat) : Option Nat :=
  if 48 ≤ unit ∧ unit ≤ 57 then some (unit - 48)
  else if 97 ≤ unit ∧ unit ≤ 102 then some (unit - 87)
  else if 65 ≤ unit ∧ unit ≤ 70 then some (unit - 55)
  else none

def withoutPrefix : List Nat → List Nat
  | 48 :: 120 :: rest => rest
  | 48 :: 88 :: rest => rest
  | text => text

def hexNumber (text : List Nat) : Option Int :=
  match (text.map hexValue).takeWhile Option.isSome with
  | [] => none
  | digits => some (digits.foldl (fun sum digit => sum * 16 + digit.getD 0) 0 : Nat)

-- parseInt of radix 16; none is NaN.
def parseInt16 (text : List Nat) : Option Int :=
  match text.dropWhile isStrWhiteSpace with
  | 45 :: rest => (hexNumber (withoutPrefix rest)).map Neg.neg
  | 43 :: rest => hexNumber (withoutPrefix rest)
  | rest => hexNumber (withoutPrefix rest)

def toUint8 (number : Option Int) : UInt8 := UInt8.ofNat ((number.getD 0) % 256).toNat

-- The last unit of an odd number of them is stored at an index the array does not have.
def fromHex : List Nat → Bytes
  | a :: b :: rest => toUint8 (parseInt16 [a, b]) :: fromHex rest
  | _ => []

def hexDigit (value : Nat) : Nat := if value < 10 then 48 + value else 87 + value

def toHex (bytes : Bytes) : List Nat :=
  bytes.flatMap fun byte =>
    if byte.toNat < 16 then [48, hexDigit byte.toNat] else [hexDigit (byte.toNat / 16), hexDigit (byte.toNat % 16)]

-- The method lowers the name of the encoding; from and byteLength compare it as it was given.
def toString (buf : Bytes) (encoding : String) : List Nat :=
  let encoding := (if encoding = "" then "utf8" else encoding).toLower
  if encoding = "utf8" ∨ encoding = "utf-8" then tdDecode buf.length buf
  else if encoding = "hex" then toHex buf
  else if encoding = "base64" then b64encode buf
  else if encoding = "ascii" ∨ encoding = "latin1" ∨ encoding = "binary" then buf.map UInt8.toNat
  else tdDecode buf.length buf

def «from» (v : List Nat) (enc : String) : Bytes :=
  if enc = "base64" then b64decode v
  else if enc = "hex" then fromHex v
  else TextEncoder.encode v

def byteLength (str : List Nat) (enc : String) : Nat :=
  if enc = "base64" then (str.length * 3 + 3) / 4
  else (TextEncoder.encode str).length

def encodings : List String :=
  ["utf8", "utf-8", "ascii", "latin1", "binary", "hex", "base64", "ucs2", "ucs-2", "utf16le", "utf-16le"]

def isEncoding (enc : String) : Bool := enc.toLower ∈ encodings

theorem joined {x y k : Nat} (small : y < 2 ^ k) : (x <<< k) ||| y = x * 2 ^ k + y := by
  rw [← Nat.shiftLeft_add_eq_or_of_lt small, Nat.shiftLeft_eq]

theorem masked (x : Nat) : x &&& 0x3f = x % 64 := Nat.and_two_pow_sub_one_eq_mod x 6

theorem ofNat_masked (x : Nat) : UInt8.ofNat (x &&& 0xff) = UInt8.ofNat x := by
  rw [Nat.and_two_pow_sub_one_eq_mod x 8, ← UInt8.toNat_inj, UInt8.toNat_ofNat', UInt8.toNat_ofNat', Nat.mod_mod]

theorem b64encodeGroup_eq {a0 a1 a2 : Nat} (first : a0 < 256) (second : a1 < 256) (third : a2 < 256) (has1 has2 : Bool) :
    b64encodeGroup a0 a1 a2 has1 has2 =
      [Base64.digit (a0 / 4), Base64.digit (a0 % 4 * 16 + a1 / 16),
        if has1 then Base64.digit (a1 % 16 * 4 + a2 / 64) else Base64.pad,
        if has2 then Base64.digit (a2 % 64) else Base64.pad] := by
  have top : (a0 >>> 2) &&& 0x3f = a0 / 4 := by
    rw [masked, Nat.shiftRight_eq_div_pow]
    omega
  have upper : ((a0 <<< 4) ||| (a1 >>> 4)) &&& 0x3f = a0 % 4 * 16 + a1 / 16 := by
    rw [Nat.shiftRight_eq_div_pow, joined (by omega), masked]
    omega
  have lower : ((a1 <<< 2) ||| (a2 >>> 6)) &&& 0x3f = a1 % 16 * 4 + a2 / 64 := by
    rw [Nat.shiftRight_eq_div_pow, joined (by omega), masked]
    omega
  rw [b64encodeGroup, top, upper, lower, masked]
  rfl

theorem b64encode_eq (bytes : Bytes) : b64encode bytes = Base64.encode bytes := by
  induction bytes using b64encode.induct with
  | case1 => rfl
  | case2 a0 =>
      rw [b64encode, b64encodeGroup_eq a0.toNat_lt (by decide) (by decide)]
      rfl
  | case3 a0 a1 =>
      rw [b64encode, b64encodeGroup_eq a0.toNat_lt a1.toNat_lt (by decide)]
      rfl
  | case4 a0 a1 a2 rest ih =>
      rw [b64encode, b64encodeGroup_eq a0.toNat_lt a1.toNat_lt a2.toNat_lt, ih]
      rfl

theorem b64l_digit {n : Nat} (small : n < 64) : b64l (some (Base64.digit n)) = n := by
  rw [b64l, Option.bind_some, Base64.value_digit small, Option.getD_some]

theorem digit_some {n : Nat} (small : n < 64) : some (Base64.digit n) ≠ some equals :=
  fun same => (Base64.digit_graphic small).1 (Option.some.inj same)

theorem b64decodeGroup_bytes (a b c d : Option Nat) (small : b64l b < 64 ∧ b64l c < 64 ∧ b64l d < 64) :
    b64decodeGroup a b c d =
      Base64.first (b64l a) (b64l b) ::
        ((if c ≠ some equals then [Base64.second (b64l b) (b64l c)] else []) ++
          (if d ≠ some equals then [Base64.third (b64l c) (b64l d)] else [])) := by
  obtain ⟨second, third, fourth⟩ := small
  have top : (b64l a <<< 2) ||| (b64l b >>> 4) = b64l a * 4 + b64l b / 16 := by
    rw [Nat.shiftRight_eq_div_pow]
    exact joined (by omega)
  have middle : (b64l b <<< 4) ||| (b64l c >>> 2) = b64l b * 16 + b64l c / 4 := by
    rw [Nat.shiftRight_eq_div_pow]
    exact joined (by omega)
  have low : (b64l c <<< 6) ||| b64l d = b64l c * 64 + b64l d := joined fourth
  simp only [b64decodeGroup, ofNat_masked, top, middle, low]
  rfl

theorem b64stores_encode (bytes : Bytes) : b64stores (Base64.encode bytes) = bytes := by
  have zero : b64l (some Base64.pad) = 0 := by
    rw [b64l, Option.bind_some, Base64.value_pad, Option.getD_none]
  have one : some Base64.pad = some equals := rfl
  induction bytes using Base64.groups with
  | none => rfl
  | one a =>
      have range := a.toNat_lt
      have last := Base64.first_of a 0 (by omega)
      rw [Nat.add_zero] at last
      have small := b64l_digit (n := a.toNat % 4 * 16) (by omega)
      rw [Base64.encode, b64stores, b64decodeGroup_bytes _ _ _ _ (by omega), b64l_digit (by omega), small, last, one]
      rfl
  | two a b =>
      have range := a.toNat_lt
      have next := b.toNat_lt
      have last := Base64.second_of a b 0 (by omega)
      rw [Nat.add_zero] at last
      have middle := b64l_digit (n := a.toNat % 4 * 16 + b.toNat / 16) (by omega)
      have low := b64l_digit (n := b.toNat % 16 * 4) (by omega)
      rw [Base64.encode, b64stores, b64decodeGroup_bytes _ _ _ _ (by omega), b64l_digit (by omega), middle, low,
        Base64.first_of a _ (by omega), last, if_pos (digit_some (by omega)), one]
      rfl
  | more a b c rest ih =>
      have range := a.toNat_lt
      have next := b.toNat_lt
      have last := c.toNat_lt
      have middle := b64l_digit (n := a.toNat % 4 * 16 + b.toNat / 16) (by omega)
      have low := b64l_digit (n := b.toNat % 16 * 4 + c.toNat / 64) (by omega)
      have lowest := b64l_digit (n := c.toNat % 64) (by omega)
      rw [Base64.encode, b64stores, b64decodeGroup_bytes _ _ _ _ (by omega), b64l_digit (by omega), middle, low, lowest,
        Base64.first_of a _ (by omega), Base64.second_of a b _ (by omega), Base64.third_of,
        if_pos (digit_some (by omega)), if_pos (digit_some (by omega)), ih]
      rfl

theorem pads_behind (a b c d : Nat) {rest : List Nat} (long : 2 < rest.length) :
    pads (a :: b :: c :: d :: rest) = pads rest := by
  have last : (a :: b :: c :: d :: rest)[rest.length + 4 - 1]? = rest[rest.length - 1]? := by
    rw [show rest.length + 4 - 1 = rest.length - 1 + 4 by omega]
    rfl
  have before : (a :: b :: c :: d :: rest)[rest.length + 4 - 2]? = rest[rest.length - 2]? := by
    rw [show rest.length + 4 - 2 = rest.length - 2 + 4 by omega]
    rfl
  have size : (a :: b :: c :: d :: rest).length = rest.length + 4 := rfl
  have enough : 1 < rest.length + 4 ∧ 2 < rest.length + 4 ∧ 1 < rest.length := by omega
  simp only [pads, size, last, before, enough, long, true_and]

theorem encode_length (bytes : Bytes) : (Base64.encode bytes).length = (bytes.length + 2) / 3 * 4 := by
  induction bytes using Base64.groups with
  | none => rfl
  | one a => simp [Base64.encode]
  | two a b => simp [Base64.encode]
  | more a b c rest ih =>
      simp only [Base64.encode, List.length_cons, ih]
      omega

theorem bLen_encode (bytes : Bytes) : bLen (Base64.encode bytes) = bytes.length := by
  have padded : pads (Base64.encode bytes) = (bytes.length + 2) / 3 * 3 - bytes.length := by
    induction bytes using Base64.groups with
    | none => rfl
    | one a => simp [Base64.encode, pads, equals, Base64.pad]
    | two a b =>
        have range := b.toNat_lt
        have graphic := (Base64.digit_graphic (n := b.toNat % 16 * 4) (by omega)).1
        simp [Base64.encode, pads, equals, Base64.pad] at graphic ⊢
        exact graphic
    | more a b c rest ih =>
        have next := b.toNat_lt
        have last := c.toNat_lt
        have low := (Base64.digit_graphic (n := b.toNat % 16 * 4 + c.toNat / 64) (by omega)).1
        have lowest := (Base64.digit_graphic (n := c.toNat % 64) (by omega)).1
        rw [Base64.encode]
        cases rest with
        | nil =>
            simp [Base64.encode, pads, equals, Base64.pad] at low lowest ⊢
            exact ⟨lowest, low⟩
        | cons d rest =>
            have long : 2 < (Base64.encode (d :: rest)).length := by
              rw [encode_length]
              simp only [List.length_cons]
              omega
            rw [pads_behind _ _ _ _ long, ih]
            simp only [List.length_cons]
            omega
  rw [bLen, padded, encode_length]
  omega

theorem b64_roundTrip (bytes : Bytes) : b64decode (b64encode bytes) = bytes := by
  rw [b64encode_eq, b64decode, bLen_encode, b64stores_encode, List.take_left]

theorem hexDigit_read : ∀ d < 16, hexValue (hexDigit d) = some d ∧ isStrWhiteSpace (hexDigit d) = false ∧
    hexDigit d ∉ [43, 45, 88, 120] := by
  decide +kernel

theorem parseInt16_pair {p q : Nat} (high : p < 16) (low : q < 16) :
    parseInt16 [hexDigit p, hexDigit q] = some ((p * 16 + q : Nat) : Int) := by
  obtain ⟨upper, solid, unsigned⟩ := hexDigit_read p high
  obtain ⟨lower, -, unmarked⟩ := hexDigit_read q low
  simp only [List.mem_cons, List.not_mem_nil, or_false, not_or] at unsigned unmarked
  have bare : withoutPrefix [hexDigit p, hexDigit q] = [hexDigit p, hexDigit q] := by
    unfold withoutPrefix
    split
    · next same => exact absurd (List.cons.inj (List.cons.inj same).2).1 unmarked.2.2.2
    · next same => exact absurd (List.cons.inj (List.cons.inj same).2).1 unmarked.2.2.1
    · rfl
  rw [parseInt16, List.dropWhile_cons_of_neg (by rw [solid]; decide)]
  split
  · next same => exact absurd (List.cons.inj same).1 unsigned.2.1
  · next same => exact absurd (List.cons.inj same).1 unsigned.1
  · rw [bare, hexNumber, List.map_cons, List.map_cons, upper, lower]
    exact congrArg (fun n : Nat => some (n : Int)) (by show (0 * 16 + p) * 16 + q = p * 16 + q; omega)

theorem toUint8_some (n : Nat) : toUint8 (some (n : Int)) = UInt8.ofNat (n % 256) := by
  rw [toUint8, Option.getD_some]
  rfl

theorem fromHex_toHex (bytes : Bytes) : fromHex (toHex bytes) = bytes := by
  induction bytes with
  | nil => rfl
  | cons byte rest ih =>
      have range := byte.toNat_lt
      have whole : UInt8.ofNat (byte.toNat % 256) = byte := by rw [Nat.mod_eq_of_lt range, UInt8.ofNat_toNat]
      rw [toHex, List.flatMap_cons]
      split
      · next low =>
          have here : toUint8 (parseInt16 [hexDigit 0, hexDigit byte.toNat]) = byte := by
            rw [parseInt16_pair (by decide) low, toUint8_some, Nat.zero_mul, Nat.zero_add, whole]
          exact congrArg₂ List.cons here ih
      · next high =>
          have here : toUint8 (parseInt16 [hexDigit (byte.toNat / 16), hexDigit (byte.toNat % 16)]) = byte := by
            rw [parseInt16_pair (by omega) (by omega), toUint8_some, Nat.mul_comm, Nat.div_add_mod, whole]
          exact congrArg₂ List.cons here ih

theorem fromHex_length (v : List Nat) : (fromHex v).length = v.length / 2 := by
  induction v using fromHex.induct with
  | case1 a b rest ih =>
      simp only [fromHex, List.length_cons, ih]
      omega
  | case2 v short =>
      match v with
      | [] => rfl
      | [a] => simp [fromHex]
      | a :: b :: rest => exact absurd rfl (short a b rest)

theorem toHex_length (bytes : Bytes) : (toHex bytes).length = bytes.length * 2 := by
  induction bytes with
  | nil => rfl
  | cons byte rest ih =>
      rw [toHex, List.flatMap_cons, List.length_append, ← toHex, ih]
      split <;> simp only [List.length_cons, List.length_nil] <;> omega

theorem b64decode_length (v : List Nat) : (b64decode v).length = bLen v := by
  rw [b64decode, List.length_take, List.length_append, List.length_replicate]
  omega

theorem encode_ascii {units : List Nat} (low : ∀ unit ∈ units, unit < 128) :
    TextEncoder.encode units = units.map UInt8.ofNat := by
  have whole := TextEncoder.encode_low low []
  rw [List.append_nil, TextEncoder.encode, List.append_nil] at whole
  exact whole

theorem latin1_iff (b : Bytes) : TextEncoder.encode (b.map UInt8.toNat) = b ↔ ∀ byte ∈ b, byte.toNat < 128 := by
  constructor
  · intro same byte member
    by_contra above
    have longer := (TextEncoder.encode_length_le (b.map UInt8.toNat)).2
      ⟨byte.toNat, List.mem_map_of_mem member, Nat.not_lt.mp above⟩
    rw [same, List.length_map] at longer
    exact Nat.lt_irrefl _ longer
  · intro low
    rw [encode_ascii (List.forall_mem_map.mpr low), List.map_map]
    exact (List.map_congr_left fun byte _ => UInt8.ofNat_toNat).trans (List.map_id b)

-- The encodings that keep every byte, by any spelling of their names.
def lossless (enc : String) : Bool := enc.toLower ∈ ["hex", "base64", "latin1", "binary"]

def RoundTrips (b : Bytes) (enc : String) : Prop := «from» (toString b enc) enc = b

def Measured (s : List Nat) (enc : String) : Prop := byteLength s enc = («from» s enc).length

theorem toLower_self {name : String} (lower : name.toList.map Char.toLower = name.toList) : name.toLower = name := by
  change name.map Char.toLower = name
  rw [← String.toList_inj, String.toList_map, lower]

theorem toLower_hex : "hex".toLower = "hex" := toLower_self (by decide)

theorem toLower_base64 : "base64".toLower = "base64" := toLower_self (by decide)

theorem isEncoding_hex : isEncoding "hex" = true := by
  rw [isEncoding, toLower_hex]
  decide

theorem isEncoding_base64 : isEncoding "base64" = true := by
  rw [isEncoding, toLower_base64]
  decide

theorem toString_lower {enc name : String} (lower : enc.toLower = name) (some : name ≠ "") (b : Bytes) :
    toString b enc =
      if name = "utf8" ∨ name = "utf-8" then tdDecode b.length b
      else if name = "hex" then toHex b
      else if name = "base64" then b64encode b
      else if name = "ascii" ∨ name = "latin1" ∨ name = "binary" then b.map UInt8.toNat
      else tdDecode b.length b := by
  have given : enc ≠ "" := by
    rintro rfl
    exact some (lower.symm.trans (toLower_self rfl))
  rw [toString, if_neg given, lower]

theorem longer_iff {text : Bytes → List Nat} (longer : ∀ b, b ≠ [] → b.length < (text b).length) (empty : text [] = [])
    (b : Bytes) : TextEncoder.encode (text b) = b ↔ b = [] := by
  constructor
  · intro same
    by_contra filled
    have least := (TextEncoder.encode_length_le (text b)).1
    rw [same] at least
    exact Nat.lt_irrefl _ (Nat.lt_of_lt_of_le (longer b filled) least)
  · rintro rfl
    rw [empty, TextEncoder.encode]

theorem toHex_longer (b : Bytes) (filled : b ≠ []) : b.length < (toHex b).length := by
  have some := List.length_pos_iff.mpr filled
  rw [toHex_length]
  omega

theorem b64encode_longer (b : Bytes) (filled : b ≠ []) : b.length < (b64encode b).length := by
  have some := List.length_pos_iff.mpr filled
  rw [b64encode_eq, encode_length]
  omega

theorem roundTrips_hex {b : Bytes} {enc : String} (lower : enc.toLower = "hex") :
    RoundTrips b enc ↔ b = [] ∨ enc = "hex" := by
  have text : toString b enc = toHex b := (toString_lower lower (by decide) b).trans (by rfl)
  have sixtyFour : enc ≠ "base64" := by
    rintro rfl
    exact absurd (toLower_base64.symm.trans lower) (by decide)
  rw [RoundTrips, text, «from», if_neg sixtyFour]
  split
  · next here => exact ⟨fun _ => .inr here, fun _ => fromHex_toHex b⟩
  · next other => exact (longer_iff toHex_longer rfl b).trans ⟨.inl, fun either => either.resolve_right other⟩

theorem roundTrips_base64 {b : Bytes} {enc : String} (lower : enc.toLower = "base64") :
    RoundTrips b enc ↔ b = [] ∨ enc = "base64" := by
  have text : toString b enc = b64encode b := (toString_lower lower (by decide) b).trans (by rfl)
  have hex : enc ≠ "hex" := by
    rintro rfl
    exact absurd (toLower_hex.symm.trans lower) (by decide)
  rw [RoundTrips, text, «from»]
  split
  · next here => exact ⟨fun _ => .inr here, fun _ => b64_roundTrip b⟩
  · next other =>
      exact (longer_iff b64encode_longer rfl b).trans ⟨.inl, fun either => either.resolve_right other⟩

theorem roundTrips_latin1 {b : Bytes} {enc : String} (lower : enc.toLower = "latin1" ∨ enc.toLower = "binary") :
    RoundTrips b enc ↔ ∀ byte ∈ b, byte.toNat < 128 := by
  have text : toString b enc = b.map UInt8.toNat := by
    obtain latin1 | binary := lower
    · exact (toString_lower latin1 (by decide) b).trans (by rfl)
    · exact (toString_lower binary (by decide) b).trans (by rfl)
  have plain : enc ≠ "base64" ∧ enc ≠ "hex" := by
    constructor
    · rintro rfl
      rw [toLower_base64] at lower
      exact absurd lower (by decide)
    · rintro rfl
      rw [toLower_hex] at lower
      exact absurd lower (by decide)
  rw [RoundTrips, text, «from», if_neg plain.1, if_neg plain.2]
  exact latin1_iff b

theorem roundTrips_iff {b : Bytes} {enc : String} (named : lossless enc) :
    RoundTrips b enc ↔
      b = [] ∨ enc = "hex" ∨ enc = "base64" ∨
        ((enc.toLower = "latin1" ∨ enc.toLower = "binary") ∧ ∀ byte ∈ b, byte.toNat < 128) := by
  have apart : enc.toLower = "hex" ∨ enc.toLower = "base64" → ¬(enc.toLower = "latin1" ∨ enc.toLower = "binary") := by
    rintro (lower | lower) <;> rw [lower] <;> decide
  simp only [lossless, decide_eq_true_eq, List.mem_cons, List.not_mem_nil, or_false] at named
  obtain hex | sixtyFour | other := named
  · have different : enc ≠ "base64" := by
      rintro rfl
      exact absurd (toLower_base64.symm.trans hex) (by decide)
    rw [roundTrips_hex hex]
    simp only [different, apart (.inl hex), false_and, or_false]
  · have different : enc ≠ "hex" := by
      rintro rfl
      exact absurd (toLower_hex.symm.trans sixtyFour) (by decide)
    rw [roundTrips_base64 sixtyFour]
    simp only [different, apart (.inr sixtyFour), false_and, or_false, false_or]
  · have hex : enc ≠ "hex" := by
      rintro rfl
      rw [toLower_hex] at other
      exact absurd other (by decide)
    have sixtyFour : enc ≠ "base64" := by
      rintro rfl
      rw [toLower_base64] at other
      exact absurd other (by decide)
    rw [roundTrips_latin1 other]
    simp only [hex, sixtyFour, other, true_and, false_or]
    exact ⟨.inr, fun either => either.elim (fun empty => by simp [empty]) id⟩

theorem measured_iff (s : List Nat) (enc : String) :
    Measured s enc ↔ (enc = "hex" → s = []) ∧ (enc = "base64" → 4 ∣ s.length ∧ pads s = 0) := by
  unfold Measured byteLength «from»
  split
  · next sixtyFour =>
      subst sixtyFour
      have used : pads s ≤ 2 ∧ (pads s = 0 ∨ 1 < s.length) := by
        unfold pads
        split <;> split <;> omega
      rw [b64decode_length, bLen]
      constructor
      · intro same
        refine ⟨nofun, fun _ => ?_⟩
        have whole : s.length % 4 = 0 := by
          have rest : s.length % 4 = 0 ∨ s.length % 4 = 1 ∨ s.length % 4 = 2 ∨ s.length % 4 = 3 := by omega
          obtain none | one | two | three := rest
          all_goals omega
        omega
      · rintro ⟨-, whole⟩
        have here := whole rfl
        omega
  · next other =>
    split
    · next hex =>
        subst hex
        rw [fromHex_length]
        have least := (TextEncoder.encode_length_le s).1
        constructor
        · intro same
          exact ⟨fun _ => List.length_eq_zero_iff.mp (by omega), nofun⟩
        · rintro ⟨empty, -⟩
          rw [empty rfl]
          rfl
    · next neither =>
        exact ⟨fun _ => ⟨fun hex => absurd hex neither, fun sixtyFour => absurd sixtyFour other⟩, fun _ => rfl⟩

-- The two halves of the codec's contract, for one array, one string and one encoding.
def Coherent (b : Bytes) (s : List Nat) (enc : String) : Prop :=
  (lossless enc → RoundTrips b enc) ∧ (isEncoding enc → Measured s enc)

theorem codec_coherent (b : Bytes) (s : List Nat) (enc : String) :
    Coherent b s enc ↔
      (lossless enc → b = [] ∨ enc = "hex" ∨ enc = "base64" ∨
        ((enc.toLower = "latin1" ∨ enc.toLower = "binary") ∧ ∀ byte ∈ b, byte.toNat < 128)) ∧
      (enc = "hex" → s = []) ∧ (enc = "base64" → 4 ∣ s.length ∧ pads s = 0) := by
  have listed : enc = "hex" ∨ enc = "base64" → isEncoding enc = true := by
    rintro (rfl | rfl)
    · exact isEncoding_hex
    · exact isEncoding_base64
  unfold Coherent
  refine and_congr (forall_congr' roundTrips_iff)
    ⟨fun kept => ⟨fun hex => ?_, fun sixtyFour => ?_⟩, fun kept _ => (measured_iff s enc).mpr kept⟩
  · exact ((measured_iff s enc).mp (kept (listed (.inl hex)))).1 hex
  · exact ((measured_iff s enc).mp (kept (listed (.inr sixtyFour)))).2 sixtyFour

-- A byte above ASCII comes back as two, and two units of hex are a single byte.
theorem codec_departs :
    ¬Coherent [0xff] [] "latin1" ∧ ¬Coherent [] [102, 102] "hex" ∧ ¬Coherent [] [81, 81, 61, 61] "base64" := by
  have named : lossless "latin1" = true := by
    rw [lossless, toLower_self (by decide)]
    decide
  refine ⟨fun kept => ?_, fun kept => ?_, fun kept => ?_⟩
  · obtain empty | hex | sixtyFour | ⟨-, low⟩ := (roundTrips_iff named).mp (kept.1 named)
    · exact nomatch empty
    · exact absurd hex (by decide)
    · exact absurd sixtyFour (by decide)
    · exact absurd (low 0xff List.mem_cons_self) (by decide)
  · exact nomatch ((measured_iff _ _).mp (kept.2 isEncoding_hex)).1 rfl
  · exact absurd (((measured_iff _ _).mp (kept.2 isEncoding_base64)).2 rfl).2 (by decide)

end Brainkit.Jsbridge.Buffer
