import Mathlib.Data.List.Basic

set_option autoImplicit false

-- UTF-8 over raw bytes. A byte string may be malformed; decoding takes it one rune at a time and gives up on a single
-- byte where no rune starts.
namespace Utf8

abbrev Bytes := List UInt8

instance : LawfulBEq Bytes := List.instLawfulBEq

theorem forall_checked {α : Type} {P : α → Prop} [DecidablePred P] {items : List α}
    (checked : items.all (fun item => decide (P item)) = true) : ∀ item ∈ items, P item :=
  fun item member => of_decide_eq_true (List.all_eq_true.mp checked item member)

def isContinuation (byte : UInt8) : Bool := 0x80 ≤ byte && byte ≤ 0xBF

def payloadBits (byte : UInt8) : Nat := byte.toNat % 64

-- The bounds of the second byte exclude overlong forms, surrogates and code points above U+10FFFF.
def secondByte (first second : UInt8) : Bool :=
  if first = 0xE0 then 0xA0 ≤ second && second ≤ 0xBF
  else if first = 0xED then 0x80 ≤ second && second ≤ 0x9F
  else if first = 0xF0 then 0x90 ≤ second && second ≤ 0xBF
  else if first = 0xF4 then 0x80 ≤ second && second ≤ 0x8F
  else isContinuation second

-- The code point at the head of the bytes and its width, none when the head byte starts no well-formed sequence.
def decodeRune : Bytes → Option (Nat × Nat)
  | [] => none
  | first :: rest =>
      if first < 0x80 then some (first.toNat, 1)
      else if 0xC2 ≤ first && first ≤ 0xDF then
        match rest with
        | b :: _ => if isContinuation b then some (first.toNat % 32 * 64 + payloadBits b, 2) else none
        | [] => none
      else if 0xE0 ≤ first && first ≤ 0xEF then
        match rest with
        | b :: c :: _ =>
            if secondByte first b && isContinuation c then
              some (first.toNat % 16 * 4096 + payloadBits b * 64 + payloadBits c, 3)
            else none
        | _ => none
      else if 0xF0 ≤ first && first ≤ 0xF4 then
        match rest with
        | b :: c :: d :: _ =>
            if secondByte first b && isContinuation c && isContinuation d then
              some (first.toNat % 8 * 262144 + payloadBits b * 4096 + payloadBits c * 64 + payloadBits d, 4)
            else none
        | _ => none
      else none

def replacement : Bytes := [0xEF, 0xBF, 0xBD]

-- The count is what is left of a rune already recognised; its bytes are copied.
@[simp] def coerceFrom : Nat → Bytes → Bytes
  | _, [] => []
  | left + 1, byte :: rest => byte :: coerceFrom left rest
  | 0, byte :: rest => match decodeRune (byte :: rest) with
      | some (_, width) => byte :: coerceFrom (width - 1) rest
      | none => replacement ++ coerceFrom 0 rest

-- Every byte at which no rune starts becomes U+FFFD.
def coerce (text : Bytes) : Bytes := coerceFrom 0 text

def validFrom : Nat → Bytes → Bool
  | _, [] => true
  | left + 1, _ :: rest => validFrom left rest
  | 0, byte :: rest => match decodeRune (byte :: rest) with
      | some (_, width) => validFrom (width - 1) rest
      | none => false

def valid (text : Bytes) : Bool := validFrom 0 text

theorem length_le_coerce_from (left : Nat) (text : Bytes) : text.length ≤ (coerceFrom left text).length := by
  induction text generalizing left with
  | nil => exact Nat.zero_le _
  | cons byte rest ih =>
      cases left with
      | succ left => exact Nat.succ_le_succ (ih left)
      | zero =>
          cases decoded : decodeRune (byte :: rest) with
          | some rune => simpa only [coerceFrom, decoded, List.length_cons] using Nat.succ_le_succ (ih (rune.2 - 1))
          | none =>
              have bound := ih 0
              simp only [coerceFrom, decoded, replacement, List.length_cons, List.length_append, List.length_nil]
              omega

theorem coerce_from_fixed_iff (left : Nat) (text : Bytes) : coerceFrom left text = text ↔ validFrom left text = true := by
  induction text generalizing left with
  | nil => cases left <;> simp [coerceFrom, validFrom]
  | cons byte rest ih =>
      cases left with
      | succ left => simpa only [coerceFrom, validFrom, List.cons.injEq, true_and] using ih left
      | zero =>
          cases decoded : decodeRune (byte :: rest) with
          | some rune => simpa only [coerceFrom, validFrom, decoded, List.cons.injEq, true_and] using ih (rune.2 - 1)
          | none =>
              have bound := length_le_coerce_from 0 rest
              simp only [coerceFrom, validFrom, decoded, Bool.false_eq_true, iff_false]
              intro same
              have lengths := congrArg List.length same
              simp only [replacement, List.length_append, List.length_cons, List.length_nil] at lengths
              omega

theorem length_le_coerce (text : Bytes) : text.length ≤ (coerce text).length := length_le_coerce_from 0 text

theorem coerce_from_plain (left : Nat) (text key : Bytes) (plain : 0xEF ∉ key)
    (coerced : coerceFrom left text = key) : text = key := by
  induction text generalizing left key with
  | nil => cases left <;> exact coerced
  | cons byte rest ih =>
      cases left with
      | succ left =>
          subst coerced
          rw [coerceFrom, List.mem_cons, not_or] at plain
          exact congrArg (List.cons byte) (ih left _ plain.2 rfl)
      | zero =>
          subst coerced
          cases decoded : decodeRune (byte :: rest) with
          | some rune =>
              simp only [coerceFrom, decoded, List.mem_cons, not_or] at plain ⊢
              exact congrArg (List.cons byte) (ih (rune.2 - 1) _ plain.2 rfl)
          | none => simp [coerceFrom, decoded, replacement] at plain

theorem coerce_fixed_iff (text : Bytes) : coerce text = text ↔ valid text = true := coerce_from_fixed_iff 0 text

theorem coerce_plain_iff (text key : Bytes) (plain : 0xEF ∉ key) (fixed : coerce key = key) :
    coerce text = key ↔ text = key := by
  constructor
  · exact coerce_from_plain 0 text key plain
  · intro same
    rw [same, fixed]

end Utf8
