import Brainkit.Library.Utf8

set_option autoImplicit false

-- Bytes as runes: the characters of their UTF-8 and the single bytes at which no rune starts.
namespace Utf8

theorem secondByte_bounds {first second : UInt8} (ok : secondByte first second = true) :
    128 ≤ second.toNat ∧ second.toNat ≤ 191 ∧ (first.toNat = 224 → 160 ≤ second.toNat) ∧
      (first.toNat = 237 → second.toNat ≤ 159) ∧ (first.toNat = 240 → 144 ≤ second.toNat) ∧
        (first.toNat = 244 → second.toNat ≤ 143) := by
  unfold secondByte isContinuation at ok
  simp only [UInt8.le_iff_toNat_le, ← UInt8.toNat_inj] at ok
  simp only [UInt8.reduceToNat] at ok
  split at ok <;> [skip; split at ok <;> [skip; split at ok <;> [skip; split at ok]]] <;>
    simp only [Bool.and_eq_true, decide_eq_true_eq] at ok <;> omega

theorem continuation_bounds {byte : UInt8} (ok : isContinuation byte = true) : 128 ≤ byte.toNat ∧ byte.toNat ≤ 191 := by
  simpa [isContinuation, UInt8.le_iff_toNat_le] using ok

theorem byte_ofNat {n : Nat} (small : n < 256) : (UInt8.ofNat n).toNat = n := UInt8.toNat_ofNat_of_lt' small

theorem scalar (c : Char) : c.toNat < 0xD800 ∨ 0xDFFF < c.toNat ∧ c.toNat < 0x110000 := c.valid

theorem decodeRune_encode (c : Char) (rest : Bytes) :
    decodeRune (String.utf8EncodeChar c ++ rest) = some (c.toNat, (String.utf8EncodeChar c).length) := by
  have range := scalar c
  have code : c.val.toNat = c.toNat := rfl
  unfold String.utf8EncodeChar
  dsimp only
  rw [code]
  split
  · have first : (UInt8.ofNat c.toNat).toNat = c.toNat := byte_ofNat (by omega)
    have low : UInt8.ofNat c.toNat < 0x80 := by
      rw [UInt8.lt_iff_toNat_lt, first]
      exact Nat.lt_succ_of_le (by assumption)
    simp only [List.cons_append, List.nil_append, decodeRune, low, if_true, first, List.length_singleton]
  split
  · have first : (UInt8.ofNat (c.toNat / 64 % 32 + 192)).toNat = c.toNat / 64 % 32 + 192 := byte_ofNat (by omega)
    have second : (UInt8.ofNat (c.toNat % 64 + 128)).toNat = c.toNat % 64 + 128 := byte_ofNat (by omega)
    simp only [List.cons_append, List.nil_append, decodeRune, isContinuation, payloadBits, UInt8.lt_iff_toNat_lt,
      UInt8.le_iff_toNat_le, UInt8.reduceToNat, Bool.and_eq_true, decide_eq_true_eq, first, second]
    rw [if_neg (by omega), if_pos (by omega), if_pos (by omega)]
    simp only [List.length_cons, List.length_nil, Option.some.injEq, Prod.mk.injEq, and_true]
    omega
  split
  · have first : (UInt8.ofNat (c.toNat / 4096 % 16 + 224)).toNat = c.toNat / 4096 % 16 + 224 := byte_ofNat (by omega)
    have second : (UInt8.ofNat (c.toNat / 64 % 64 + 128)).toNat = c.toNat / 64 % 64 + 128 := byte_ofNat (by omega)
    have third : (UInt8.ofNat (c.toNat % 64 + 128)).toNat = c.toNat % 64 + 128 := byte_ofNat (by omega)
    simp only [List.cons_append, List.nil_append, decodeRune, secondByte, isContinuation, payloadBits, UInt8.lt_iff_toNat_lt,
      UInt8.le_iff_toNat_le, ← UInt8.toNat_inj, UInt8.reduceToNat, Bool.and_eq_true, decide_eq_true_eq, first, second, third]
    rw [if_neg (by omega), if_neg (by omega), if_pos (by omega), if_pos ?_]
    · simp only [List.length_cons, List.length_nil, Option.some.injEq, Prod.mk.injEq, and_true]
      omega
    · constructor
      · split
        · simp only [Bool.and_eq_true, decide_eq_true_eq]
          omega
        · split
          · simp only [Bool.and_eq_true, decide_eq_true_eq]
            omega
          · rw [if_neg (by omega), if_neg (by omega)]
            simp only [Bool.and_eq_true, decide_eq_true_eq]
            omega
      · omega
  · have first : (UInt8.ofNat (c.toNat / 262144 % 8 + 240)).toNat = c.toNat / 262144 % 8 + 240 := byte_ofNat (by omega)
    have second : (UInt8.ofNat (c.toNat / 4096 % 64 + 128)).toNat = c.toNat / 4096 % 64 + 128 := byte_ofNat (by omega)
    have third : (UInt8.ofNat (c.toNat / 64 % 64 + 128)).toNat = c.toNat / 64 % 64 + 128 := byte_ofNat (by omega)
    have fourth : (UInt8.ofNat (c.toNat % 64 + 128)).toNat = c.toNat % 64 + 128 := byte_ofNat (by omega)
    simp only [List.cons_append, List.nil_append, decodeRune, secondByte, isContinuation, payloadBits, UInt8.lt_iff_toNat_lt,
      UInt8.le_iff_toNat_le, ← UInt8.toNat_inj, UInt8.reduceToNat, Bool.and_eq_true, decide_eq_true_eq, first, second, third, fourth]
    rw [if_neg (by omega), if_neg (by omega), if_neg (by omega), if_pos (by omega), if_pos ?_]
    · simp only [List.length_cons, List.length_nil, Option.some.injEq, Prod.mk.injEq, and_true]
      omega
    · refine ⟨⟨?_, by omega⟩, by omega⟩
      rw [if_neg (by omega), if_neg (by omega)]
      split
      · simp only [Bool.and_eq_true, decide_eq_true_eq]
        omega
      · split
        · simp only [Bool.and_eq_true, decide_eq_true_eq]
          omega
        · simp only [Bool.and_eq_true, decide_eq_true_eq]
          omega

theorem exists_char {n : Nat} (valid : n < 0xD800 ∨ 0xDFFF < n ∧ n < 0x110000) : ∃ c : Char, c.toNat = n :=
  ⟨Char.ofNatAux n valid, rfl⟩

theorem eq_ofNat {b : UInt8} {n : Nat} (same : b.toNat = n) : UInt8.ofNat n = b := by
  rw [← same, UInt8.ofNat_toNat]

theorem decodeRune_char {text : Bytes} {code width : Nat} (found : decodeRune text = some (code, width)) :
    ∃ (c : Char) (rest : Bytes), c.toNat = code ∧ width = (String.utf8EncodeChar c).length ∧
      text = String.utf8EncodeChar c ++ rest := by
  cases text with
  | nil => cases found
  | cons first rest =>
      unfold decodeRune at found
      have bound := first.toNat_lt
      simp only [UInt8.lt_iff_toNat_lt, UInt8.le_iff_toNat_le, UInt8.reduceToNat, Bool.and_eq_true, decide_eq_true_eq] at found
      split at found
      · next low =>
          cases found
          obtain ⟨c, same⟩ := exists_char (n := first.toNat) (by omega)
          have code : c.val.toNat = first.toNat := same
          refine ⟨c, rest, same, ?_, ?_⟩ <;> unfold String.utf8EncodeChar <;> dsimp only <;> rw [code, if_pos (by omega)]
          · rfl
          · rw [UInt8.ofNat_toNat]
            rfl
      split at found
      · next two =>
          cases rest with
          | nil => cases found
          | cons b rest =>
              obtain ⟨second, result⟩ := Option.ite_none_right_eq_some.mp found
              have bounds := continuation_bounds second
              cases result
              unfold payloadBits
              obtain ⟨c, same⟩ := exists_char (n := first.toNat % 32 * 64 + b.toNat % 64) (by omega)
              have code : c.val.toNat = first.toNat % 32 * 64 + b.toNat % 64 := same
              refine ⟨c, rest, same, ?_, ?_⟩ <;> unfold String.utf8EncodeChar <;> dsimp only <;>
                rw [code, if_neg (by omega), if_pos (by omega)]
              · rfl
              · rw [eq_ofNat (b := first) (by omega), eq_ofNat (b := b) (by omega)]
                rfl
      split at found
      · next three =>
          rcases rest with _ | ⟨b, _ | ⟨d, rest⟩⟩
          · cases found
          · cases found
          · obtain ⟨⟨second, third⟩, result⟩ := Option.ite_none_right_eq_some.mp found
            have bounds := secondByte_bounds second
            have last := continuation_bounds third
            cases result
            unfold payloadBits
            obtain ⟨c, same⟩ := exists_char (n := first.toNat % 16 * 4096 + b.toNat % 64 * 64 + d.toNat % 64) (by omega)
            have code : c.val.toNat = first.toNat % 16 * 4096 + b.toNat % 64 * 64 + d.toNat % 64 := same
            refine ⟨c, rest, same, ?_, ?_⟩ <;> unfold String.utf8EncodeChar <;> dsimp only <;>
              rw [code, if_neg (by omega), if_neg (by omega), if_pos (by omega)]
            · rfl
            · rw [eq_ofNat (b := first) (by omega), eq_ofNat (b := b) (by omega), eq_ofNat (b := d) (by omega)]
              rfl
      split at found
      · next four =>
          rcases rest with _ | ⟨b, _ | ⟨d, _ | ⟨e, rest⟩⟩⟩
          · cases found
          · cases found
          · cases found
          · obtain ⟨⟨⟨second, third⟩, fourth⟩, result⟩ := Option.ite_none_right_eq_some.mp found
            have bounds := secondByte_bounds second
            have middle := continuation_bounds third
            have last := continuation_bounds fourth
            cases result
            unfold payloadBits
            obtain ⟨c, same⟩ := exists_char
              (n := first.toNat % 8 * 262144 + b.toNat % 64 * 4096 + d.toNat % 64 * 64 + e.toNat % 64) (by omega)
            have code : c.val.toNat = first.toNat % 8 * 262144 + b.toNat % 64 * 4096 + d.toNat % 64 * 64 + e.toNat % 64 := same
            refine ⟨c, rest, same, ?_, ?_⟩ <;> unfold String.utf8EncodeChar <;> dsimp only <;>
              rw [code, if_neg (by omega), if_neg (by omega), if_neg (by omega)]
            · rfl
            · rw [eq_ofNat (b := first) (by omega), eq_ofNat (b := b) (by omega), eq_ofNat (b := d) (by omega),
                eq_ofNat (b := e) (by omega)]
              rfl
      · cases found

inductive Rune where
  | char (c : Char)
  | bad (byte : UInt8)
deriving DecidableEq

def Rune.bytes : Rune → Bytes
  | char c => String.utf8EncodeChar c
  | bad byte => [byte]

def runesFrom : Nat → Bytes → List Rune
  | _, [] => []
  | left + 1, _ :: rest => runesFrom left rest
  | 0, byte :: rest => match decodeRune (byte :: rest) with
      | some (code, width) => .char (Char.ofNat code) :: runesFrom (width - 1) rest
      | none => .bad byte :: runesFrom 0 rest

def runes (text : Bytes) : List Rune := runesFrom 0 text

theorem encodeChar_cons (c : Char) :
    ∃ byte rest, String.utf8EncodeChar c = byte :: rest ∧ rest.length = (String.utf8EncodeChar c).length - 1 := by
  cases bytes : String.utf8EncodeChar c with
  | nil =>
      have size := String.length_utf8EncodeChar c
      rw [bytes] at size
      exact absurd size (Nat.ne_of_lt c.utf8Size_pos)
  | cons byte rest => exact ⟨byte, rest, rfl, rfl⟩

theorem runesFrom_skip (skipped rest : Bytes) : runesFrom skipped.length (skipped ++ rest) = runesFrom 0 rest := by
  induction skipped with
  | nil => rfl
  | cons byte skipped ih => exact ih

theorem runes_char (c : Char) (rest : Bytes) : runes (String.utf8EncodeChar c ++ rest) = .char c :: runes rest := by
  have decoded := decodeRune_encode c rest
  obtain ⟨byte, skipped, bytes, length⟩ := encodeChar_cons c
  rw [bytes, List.cons_append] at decoded ⊢
  rw [bytes] at length
  rw [runes, runesFrom, decoded]
  dsimp only
  rw [← length, runesFrom_skip, Char.ofNat_toNat]
  rfl

theorem runes_bad {byte : UInt8} {rest : Bytes} (none : decodeRune (byte :: rest) = none) :
    runes (byte :: rest) = .bad byte :: runes rest := by
  rw [runes, runesFrom, none]
  rfl

theorem runes_induction {motive : Bytes → Prop} (nil : motive [])
    (char : ∀ c rest, motive rest → motive (String.utf8EncodeChar c ++ rest))
    (bad : ∀ byte rest, decodeRune (byte :: rest) = none → motive rest → motive (byte :: rest)) (text : Bytes) : motive text := by
  induction h : text.length using Nat.strongRecOn generalizing text with
  | ind n ih =>
      subst h
      cases text with
      | nil => exact nil
      | cons byte rest =>
          cases decoded : decodeRune (byte :: rest) with
          | none => exact bad byte rest decoded (ih rest.length (Nat.lt_succ_self _) rest rfl)
          | some found =>
              obtain ⟨code, width⟩ := found
              obtain ⟨c, tail, -, -, same⟩ := decodeRune_char decoded
              have shorter : tail.length < (byte :: rest).length := by
                have size := String.length_utf8EncodeChar c
                have positive := c.utf8Size_pos
                rw [same, List.length_append]
                omega
              rw [same]
              exact char c tail (ih tail.length shorter tail rfl)

theorem runes_bytes (text : Bytes) : (runes text).flatMap Rune.bytes = text := by
  induction text using runes_induction with
  | nil => rfl
  | char c rest ih =>
      rw [runes_char, List.flatMap_cons, ih]
      rfl
  | bad byte rest none ih =>
      rw [runes_bad none, List.flatMap_cons, ih]
      rfl

end Utf8
