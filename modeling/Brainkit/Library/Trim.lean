import Brainkit.Library.GoText
import Mathlib.Data.List.Infix

set_option autoImplicit false

-- What strings.TrimSpace leaves of a text.
namespace GoText

open Utf8

theorem decodeRune_cases {text : Bytes} {code width : Nat} (found : decodeRune text = some (code, width)) :
    (∃ byte rest, text = byte :: rest ∧ byte.toNat < 128 ∧ code = byte.toNat ∧ width = 1) ∨
      (2 ≤ width ∧ width ≤ text.length ∧ ∀ byte ∈ text.take width, 128 ≤ byte.toNat) := by
  cases text with
  | nil => cases found
  | cons first rest =>
      unfold decodeRune at found
      simp only [UInt8.lt_iff_toNat_lt, UInt8.le_iff_toNat_le, UInt8.reduceToNat, Bool.and_eq_true, decide_eq_true_eq] at found
      split at found
      next low =>
        cases found
        exact .inl ⟨first, rest, rfl, low, rfl, rfl⟩
      next high =>
        have head : 128 ≤ first.toNat := Nat.le_of_not_lt high
        have next {byte : UInt8} (ok : isContinuation byte = true) : 128 ≤ byte.toNat := by
          simp only [isContinuation, UInt8.le_iff_toNat_le, Bool.and_eq_true, decide_eq_true_eq] at ok
          exact ok.1
        have second {byte : UInt8} (ok : secondByte first byte = true) : 128 ≤ byte.toNat := by
          unfold secondByte at ok
          simp only [isContinuation, UInt8.le_iff_toNat_le, UInt8.reduceToNat] at ok
          split at ok
          · simp only [Bool.and_eq_true, decide_eq_true_eq] at ok
            omega
          · split at ok
            · simp only [Bool.and_eq_true, decide_eq_true_eq] at ok
              omega
            · split at ok
              · simp only [Bool.and_eq_true, decide_eq_true_eq] at ok
                omega
              · split at ok <;>
                · simp only [Bool.and_eq_true, decide_eq_true_eq] at ok
                  omega
        split at found
        · rcases rest with _ | ⟨b, rest⟩
          · cases found
          · obtain ⟨tail, same⟩ := Option.ite_none_right_eq_some.mp found
            cases same
            exact .inr ⟨Nat.le_refl 2, Nat.le_add_left 2 _, by simpa using ⟨head, next tail⟩⟩
        · split at found
          · rcases rest with _ | ⟨b, _ | ⟨c, rest⟩⟩
            · cases found
            · cases found
            · obtain ⟨⟨middle, last⟩, same⟩ := Option.ite_none_right_eq_some.mp found
              cases same
              exact .inr ⟨by omega, Nat.le_add_left 3 _, by simpa using ⟨head, second middle, next last⟩⟩
          · split at found
            · rcases rest with _ | ⟨b, _ | ⟨c, _ | ⟨d, rest⟩⟩⟩
              · cases found
              · cases found
              · cases found
              · obtain ⟨⟨⟨middle, third⟩, last⟩, same⟩ := Option.ite_none_right_eq_some.mp found
                cases same
                exact .inr ⟨by omega, Nat.le_add_left 4 _, by simpa using ⟨head, second middle, next third, next last⟩⟩
            · cases found

theorem decodeRune_low {byte : UInt8} (low : byte.toNat < 128) (rest : Bytes) :
    decodeRune (byte :: rest) = some (byte.toNat, 1) := by
  simp only [decodeRune, UInt8.lt_iff_toNat_lt, UInt8.reduceToNat, if_pos low]

def Solid (byte : UInt8) : Prop := byte.toNat < 128 ∧ isSpace byte.toNat = false

theorem trimLeft_space {byte : UInt8} (low : byte.toNat < 128) (space : isSpace byte.toNat = true) (rest : GoString) :
    trimLeftFrom 0 (byte :: rest) = trimLeftFrom 0 rest := by
  simp [trimLeftFrom, decodeRune_low low, space]

theorem trimLeft_stops {text : GoString} (stops : ∀ code width, decodeRune text = some (code, width) → isSpace code = false) :
    trimLeftFrom 0 text = text := by
  cases text with
  | nil => rfl
  | cons byte rest =>
      rw [trimLeftFrom]
      split
      next code width decoded => rw [stops code width decoded, if_neg Bool.false_ne_true]
      next => rfl

theorem lastRune_low {byte : UInt8} (low : byte.toNat < 128) (rest : GoString) :
    lastRune (byte :: rest) = some (byte.toNat, 1) := by
  simp [lastRune, List.findSome?, decodeRune_low low]

theorem lastRune_cases {reversed : GoString} {code width : Nat} (found : lastRune reversed = some (code, width)) :
    (∃ byte rest, reversed = byte :: rest ∧ byte.toNat < 128 ∧ code = byte.toNat ∧ width = 1) ∨
      (2 ≤ width ∧ width ≤ reversed.length ∧ ∀ byte ∈ reversed.take width, 128 ≤ byte.toNat) := by
  obtain ⟨count, member, decoded⟩ := List.exists_of_findSome?_eq_some found
  split at decoded
  next last size rune =>
    obtain ⟨whole, same⟩ := Option.ite_none_right_eq_some.mp decoded
    cases same
    rw [← whole] at rune
    have length : ((reversed.take width).reverse).length = min width reversed.length := by
      rw [List.length_reverse, List.length_take]
    rcases decodeRune_cases rune with ⟨byte, rest, text, low, rfl, rfl⟩ | ⟨wide, fits, high⟩
    · left
      cases reversed with
      | nil => cases text
      | cons last front =>
          have same : last = byte := (List.cons.inj text).1
          exact ⟨last, front, rfl, same ▸ low, by rw [same], rfl⟩
    · right
      have all : width ≤ reversed.length := by omega
      refine ⟨wide, all, fun byte inside => high byte ?_⟩
      rw [List.take_of_length_le (by omega)]
      exact List.mem_reverse.mpr inside
  next => cases decoded

theorem trimRight_suffix (left : Nat) (reversed : GoString) : trimRightFrom left reversed <:+ reversed := by
  induction reversed generalizing left with
  | nil => cases left <;> exact List.suffix_refl []
  | cons byte rest ih =>
      cases left with
      | succ left => exact (ih left).trans (List.suffix_cons byte rest)
      | zero =>
          rw [trimRightFrom]
          split
          · split
            · exact (ih _).trans (List.suffix_cons byte rest)
            · exact List.suffix_refl _
          · exact List.suffix_refl _

theorem trimSpace_prefix (text : GoString) : trimSpace text <+: trimLeftFrom 0 text := by
  have suffix := trimRight_suffix 0 (trimLeftFrom 0 text).reverse
  rw [← List.reverse_prefix] at suffix
  rwa [List.reverse_reverse] at suffix

theorem trimRight_keeps {byte : UInt8} (solid : Solid byte) (front back : GoString) (left : Nat)
    (within : left ≤ back.length) : byte :: front <:+ trimRightFrom left (back ++ byte :: front) := by
  induction back generalizing left with
  | nil =>
      obtain rfl : left = 0 := Nat.le_zero.mp within
      rw [List.nil_append, trimRightFrom, lastRune_low solid.1]
      simp only [solid.2, Bool.false_eq_true, if_false]
      exact List.suffix_refl _
  | cons last back ih =>
      cases left with
      | succ left => exact ih left (Nat.le_of_succ_le_succ within)
      | zero =>
          rw [List.cons_append, trimRightFrom]
          split
          next code width decoded =>
            split
            · apply ih
              rcases lastRune_cases decoded with ⟨_, _, _, _, _, rfl⟩ | ⟨_, _, high⟩
              · exact Nat.zero_le _
              · by_contra beyond
                have inside : byte ∈ (last :: (back ++ byte :: front)).take width := by
                  rw [← List.cons_append, List.take_append]
                  refine List.mem_append_right _ ?_
                  have room : width - (last :: back).length = (width - (last :: back).length - 1) + 1 := by
                    simp only [List.length_cons]
                    omega
                  rw [room, List.take_succ_cons]
                  exact List.mem_cons_self
                have := high byte inside
                have := solid.1
                omega
            · exact (List.suffix_append (last :: back) _)
          next => exact (List.suffix_append (last :: back) _)

theorem trimSpace_keeps {byte : UInt8} (solid : Solid byte) {front : GoString} {text : GoString}
    (opens : front ++ [byte] <+: trimLeftFrom 0 text) : front ++ [byte] <+: trimSpace text := by
  obtain ⟨back, same⟩ := opens
  have kept := trimRight_keeps solid front.reverse back.reverse 0 (Nat.zero_le _)
  have reversed : back.reverse ++ byte :: front.reverse = (trimLeftFrom 0 text).reverse := by
    rw [← same]
    simp
  rw [reversed, ← List.reverse_prefix] at kept
  rwa [List.reverse_cons, List.reverse_reverse] at kept

end GoText
