import Brainkit.Library.GoQuote

set_option autoImplicit false

-- The decimal text of an integer, and that text read back.
namespace GoDecimal

open Ecma GoText

theorem digit_spec {c : Char} (digit : c.isDigit = true) : 48 ≤ c.toNat ∧ c.toNat ≤ 57 := by
  simpa [Char.isDigit, UInt32.le_iff_toNat_le] using digit

theorem digit_byte {c : Char} (digit : c.isDigit = true) : Ascii c ∧ (asciiByte c).toNat = c.toNat := by
  obtain ⟨-, most⟩ := digit_spec digit
  have ascii : Ascii c := Nat.lt_of_le_of_lt most (by decide)
  exact ⟨ascii, Utf8.byte_ofNat (Nat.lt_of_le_of_lt most (by decide))⟩

theorem toDigits_digit {n : Nat} : ∀ c ∈ Nat.toDigits 10 n, c.isDigit = true :=
  fun _ member => Nat.isDigit_of_mem_toDigits (by decide) (by decide) member

theorem encode_digits {chars : List Char} (digits : ∀ c ∈ chars, c.isDigit = true) :
    encode chars = chars.map asciiByte := by
  induction chars with
  | nil => rfl
  | cons c rest ih =>
      rw [encode_cons, encode_ascii (digit_byte (digits c (.head _))).1, ih fun d member => digits d (.tail c member)]
      rfl

theorem decimal_nat (n : Nat) : decimal n = (Nat.toDigits 10 n).map asciiByte := by
  have text : toString (n : Int) = Nat.repr n := rfl
  rw [decimal, text, GoQuote.lit_encode, Nat.toList_repr, encode_digits toDigits_digit]

theorem decimal_neg (n : Nat) : decimal (Int.negSucc n) = 45 :: (Nat.toDigits 10 (n + 1)).map asciiByte := by
  have text : toString (Int.negSucc n) = "-" ++ Nat.repr (n + 1) := rfl
  rw [decimal, text, GoQuote.lit_encode, String.toList_append, GoQuote.encode_append, Nat.toList_repr,
    encode_digits toDigits_digit]
  rfl

theorem value_grows (chars : List Char) (value : Nat) : value ≤ Nat.ofDigitChars 10 chars value := by
  induction chars generalizing value with
  | nil => exact Nat.le_of_eq Nat.ofDigitChars_nil.symm
  | cons c rest ih =>
      rw [Nat.ofDigitChars_cons]
      have step : value ≤ 10 * value + (c.toNat - '0'.toNat) := by omega
      exact Nat.le_trans step (ih _)

theorem parseUintFrom_chars {chars : List Char} (digits : ∀ c ∈ chars, c.isDigit = true) {value : Nat}
    (fits : Nat.ofDigitChars 10 chars value < 2 ^ 64) :
    parseUintFrom value (chars.map asciiByte) = some (Nat.ofDigitChars 10 chars value) := by
  induction chars generalizing value with
  | nil => rw [Nat.ofDigitChars_nil]; rfl
  | cons c rest ih =>
      obtain ⟨least, most⟩ := digit_spec (digits c (.head _))
      obtain ⟨-, code⟩ := digit_byte (digits c (.head _))
      have inside : ¬ (asciiByte c < 48 || 57 < asciiByte c) = true := by
        simp only [Bool.or_eq_true, decide_eq_true_eq, UInt8.lt_iff_toNat_lt, code, UInt8.reduceToNat]
        omega
      rw [Nat.ofDigitChars_cons] at fits ⊢
      have zero : '0'.toNat = 48 := rfl
      rw [zero] at fits ⊢
      have room : ¬ 2 ^ 64 ≤ value * 10 + (c.toNat - 48) := by
        have grown := value_grows rest (10 * value + (c.toNat - 48))
        omega
      have same : value * 10 + (c.toNat - 48) = 10 * value + (c.toNat - 48) := by omega
      rw [List.map_cons, parseUintFrom, if_neg inside, code, if_neg room, same]
      exact ih (fun d member => digits d (.tail c member)) fits

theorem parseUint_toDigits {n : Nat} (fits : n < 2 ^ 64) : parseUint ((Nat.toDigits 10 n).map asciiByte) = some n := by
  have whole : Nat.ofDigitChars 10 (Nat.toDigits 10 n) 0 = n := Nat.ofDigitChars_ten_toDigits
  rw [parseUint, if_neg (by simp), parseUintFrom_chars toDigits_digit (whole.symm ▸ fits), whole]

theorem atoi_decimal {value : Int} (least : -2 ^ 63 ≤ value) (most : value < 2 ^ 63) : atoi (decimal value) = value := by
  cases value with
  | ofNat n =>
      have read := parseUint_toDigits (by simp only [Int.ofNat_eq_natCast] at most; omega : n < 2 ^ 64)
      have shape := decimal_nat n
      rw [← shape] at read
      rw [Int.ofNat_eq_natCast] at most ⊢
      obtain ⟨c, rest, chars⟩ := List.exists_cons_of_ne_nil (Nat.toDigits_ne_nil : Nat.toDigits 10 n ≠ [])
      have digit : c.isDigit = true := toDigits_digit c (chars ▸ List.mem_cons_self)
      obtain ⟨least, most'⟩ := digit_spec digit
      obtain ⟨-, code⟩ := digit_byte digit
      rw [chars, List.map_cons] at shape
      unfold atoi
      split
      · next text =>
          rw [shape] at text
          have sign := congrArg UInt8.toNat (List.cons.inj text).1
          rw [code] at sign
          exact absurd least (by rw [sign]; decide)
      · next text =>
          rw [shape] at text
          have sign := congrArg UInt8.toNat (List.cons.inj text).1
          rw [code] at sign
          exact absurd least (by rw [sign]; decide)
      · rw [read]
        dsimp only
        omega
  | negSucc n =>
      have read := parseUint_toDigits (by omega : n + 1 < 2 ^ 64)
      rw [decimal_neg, atoi, read]
      dsimp only
      omega

theorem decimal_plain (value : Int) : ∀ byte ∈ decimal value, byte = 45 ∨ 48 ≤ byte.toNat ∧ byte.toNat ≤ 57 := by
  have digits : ∀ n : Nat, ∀ byte ∈ (Nat.toDigits 10 n).map asciiByte, 48 ≤ byte.toNat ∧ byte.toNat ≤ 57 := by
    intro n byte member
    obtain ⟨c, listed, rfl⟩ := List.mem_map.mp member
    rw [(digit_byte (toDigits_digit c listed)).2]
    exact digit_spec (toDigits_digit c listed)
  cases value with
  | ofNat n =>
      intro byte member
      rw [Int.ofNat_eq_natCast, decimal_nat] at member
      exact .inr (digits n byte member)
  | negSucc n =>
      intro byte member
      rw [decimal_neg] at member
      obtain rfl | listed := List.mem_cons.mp member
      · exact .inl rfl
      · exact .inr (digits (n + 1) byte listed)

end GoDecimal
