import Brainkit.Library.Ecma
import Brainkit.Library.Runes
import Mathlib.Data.List.TakeWhile

set_option autoImplicit false

-- Context.NewString: what a script sees of the bytes of a Go string.
namespace Brainkit.Jsbridge

open Ecma Utf8

-- unicode_from_utf8 takes the three bytes of a surrogate too; all else that it takes is a character.
def surrogate : Bytes → Option Nat
  | first :: second :: third :: _ =>
      if first = 0xED ∧ 0xA0 ≤ second ∧ isContinuation second ∧ isContinuation third then
        some (0xD000 + payloadBits second * 64 + payloadBits third)
      else none
  | _ => none

-- What JS_NewStringLen goes on with behind an invalid character: one byte is skipped with the continuation bytes around it.
def pastInvalid (text : Bytes) : Bytes := ((text.dropWhile isContinuation).drop 1).dropWhile isContinuation

def newStringFrom : Nat → Bytes → List Nat
  | _, [] => []
  | left + 1, _ :: rest => newStringFrom left rest
  | 0, byte :: rest => match decodeRune (byte :: rest) with
      | some (code, width) => utf16 code ++ newStringFrom (width - 1) rest
      | none => match surrogate (byte :: rest) with
          | some unit => unit :: newStringFrom 2 rest
          | none => 0xFFFD :: newStringFrom (rest.length - (pastInvalid (byte :: rest)).length) rest

-- The C string ends at the first NUL.
def newString (text : Bytes) : List Nat := newStringFrom 0 (text.takeWhile (· ≠ 0))

def units (text : List Char) : List Nat := text.flatMap fun c => utf16 c.toNat

theorem newStringFrom_skip (skipped rest : Bytes) : newStringFrom skipped.length (skipped ++ rest) = newStringFrom 0 rest := by
  induction skipped with
  | nil => rfl
  | cons byte skipped ih => exact ih

theorem newStringFrom_encode (text : List Char) : newStringFrom 0 (encode text) = units text := by
  induction text with
  | nil => rfl
  | cons c rest ih =>
      have decoded := decodeRune_encode c (encode rest)
      obtain ⟨byte, skipped, bytes, length⟩ := encodeChar_cons c
      rw [encode_cons]
      rw [bytes, List.cons_append] at decoded ⊢
      rw [bytes] at length
      rw [newStringFrom, decoded]
      dsimp only
      rw [← length, newStringFrom_skip, ih]
      rfl

theorem encode_nonzero {text : List Char} (noNul : '\x00' ∉ text) : ∀ byte ∈ encode text, byte ≠ 0 := by
  intro byte member zero
  obtain ⟨c, within, byteOf⟩ := List.mem_flatMap.mp member
  by_cases ascii : Ascii c
  · rw [encode_ascii ascii, List.mem_singleton, zero] at byteOf
    have same : asciiByte '\x00' = asciiByte c := byteOf
    rw [asciiByte_inj (by decide) ascii] at same
    exact noNul (same ▸ within)
  · have high := encode_high ascii byteOf
    rw [zero] at high
    exact absurd high (by decide)

theorem newString_encode {text : List Char} (noNul : '\x00' ∉ text) : newString (encode text) = units text := by
  have whole : (encode text).takeWhile (· ≠ 0) = encode text :=
    List.takeWhile_eq_self_iff.mpr fun byte member => decide_eq_true (encode_nonzero noNul byte member)
  rw [newString, whole, newStringFrom_encode]

-- The characters of a text that a script sees as it is.
def textOf (bytes : Bytes) : Option (List Char) :=
  (runes bytes).mapM fun
    | .char c => if c = '\x00' then none else some c
    | .bad _ => none

theorem textOf_encode {bytes : Bytes} {text : List Char} (read : textOf bytes = some text) :
    bytes = encode text ∧ '\x00' ∉ text := by
  rw [← runes_bytes bytes]
  unfold textOf at read
  generalize runes bytes = all at read
  induction all generalizing text with
  | nil =>
      rw [List.mapM_nil] at read
      cases read
      exact ⟨rfl, nofun⟩
  | cons rune rest ih =>
      rw [List.mapM_cons] at read
      simp only [Option.pure_def, Option.bind_eq_bind, Option.bind_eq_some_iff, Option.some.injEq] at read
      obtain ⟨c, first, later, remaining, rfl⟩ := read
      obtain ⟨same, noNul⟩ := ih remaining
      cases rune with
      | bad byte => exact nomatch first
      | char d =>
          obtain ⟨nonzero, kept⟩ := Option.ite_none_left_eq_some.mp first
          cases kept
          rw [List.flatMap_cons, same, encode_cons]
          exact ⟨rfl, fun member => (List.mem_cons.mp member).elim (fun zero => nonzero zero.symm) noNul⟩

example : newString [97, 0, 98] = [97] := by decide

example : newString [0xC3, 0xA9, 0x80, 98, 99] = [233, 0xFFFD, 99] := by decide

end Brainkit.Jsbridge
