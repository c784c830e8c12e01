import Brainkit.Library.Utf8

set_option autoImplicit false

-- The standard base64 alphabet, over the code units of a text: the padded encoding, and a decoder that passes over line
-- breaks and takes padding at the end only.
namespace Base64

open Utf8

def alphabet : List Nat := "ABCDEFGHIJKLMNOPQRSTUVWXYZabcdefghijklmnopqrstuvwxyz0123456789+/".toList.map Char.toNat

def digit (value : Nat) : Nat := alphabet.getD value 0

def value (unit : Nat) : Option Nat := alphabet.idxOf? unit

def pad : Nat := 61

-- The alphabet as numbers, so that no text is taken apart twice.
def letters : List Nat := List.range' 65 26 ++ List.range' 97 26 ++ List.range' 48 10 ++ [43, 47]

theorem alphabet_letters : alphabet = letters := by
  unfold alphabet
  rw [String.toList_ofList]
  rfl

attribute [irreducible] alphabet

theorem value_digit {n : Nat} (small : n < 64) : value (digit n) = some n := by
  have all : ∀ n < 64, letters.idxOf? (letters.getD n 0) = some n := by decide +kernel
  rw [value, digit, alphabet_letters]
  exact all n small

theorem digit_graphic {n : Nat} (small : n < 64) : digit n ≠ pad ∧ 32 < digit n ∧ digit n < 128 := by
  have all : ∀ n < 64, letters.getD n 0 ≠ pad ∧ 32 < letters.getD n 0 ∧ letters.getD n 0 < 128 := by decide +kernel
  rw [digit, alphabet_letters]
  exact all n small

@[simp] def encode : Bytes → List Nat
  | [] => []
  | [a] => [digit (a.toNat / 4), digit (a.toNat % 4 * 16), pad, pad]
  | [a, b] => [digit (a.toNat / 4), digit (a.toNat % 4 * 16 + b.toNat / 16), digit (b.toNat % 16 * 4), pad]
  | a :: b :: c :: rest =>
      digit (a.toNat / 4) :: digit (a.toNat % 4 * 16 + b.toNat / 16) :: digit (b.toNat % 16 * 4 + c.toNat / 64) ::
        digit (c.toNat % 64) :: encode rest

-- Bytes are taken three at a time.
@[elab_as_elim]
theorem groups {motive : Bytes → Prop} (none : motive []) (one : ∀ a, motive [a]) (two : ∀ a b, motive [a, b])
    (more : ∀ a b c rest, motive rest → motive (a :: b :: c :: rest)) : ∀ bytes, motive bytes
  | [] => none
  | [a] => one a
  | [a, b] => two a b
  | a :: b :: c :: rest => more a b c rest (groups none one two more rest)

def first (a b : Nat) : UInt8 := UInt8.ofNat (a * 4 + b / 16)

def second (b c : Nat) : UInt8 := UInt8.ofNat (b * 16 + c / 4)

def third (c d : Nat) : UInt8 := UInt8.ofNat (c * 64 + d)

-- The bits that padding leaves over are not looked at.
def quads : List Nat → Option Bytes
  | [] => some []
  | a :: b :: c :: d :: rest =>
      match value a, value b, value c, value d with
      | some a, some b, some c, some d => (quads rest).map fun bytes => first a b :: second b c :: third c d :: bytes
      | some a, some b, some c, none => if d = pad ∧ rest = [] then some [first a b, second b c] else none
      | some a, some b, none, none => if c = pad ∧ d = pad ∧ rest = [] then some [first a b] else none
      | _, _, _, _ => none
  | _ => none

def lineBreak (unit : Nat) : Bool := unit = 10 || unit = 13

def decode (text : List Nat) : Option Bytes := quads (text.filter (!lineBreak ·))

section Bytes

variable (a b c : UInt8)

theorem first_of (rest : Nat) (small : rest < 16) : first (a.toNat / 4) (a.toNat % 4 * 16 + rest) = a := by
  have joined : a.toNat / 4 * 4 + (a.toNat % 4 * 16 + rest) / 16 = a.toNat := by omega
  rw [first, joined, UInt8.ofNat_toNat]

theorem second_of (rest : Nat) (small : rest < 4) :
    second (a.toNat % 4 * 16 + b.toNat / 16) (b.toNat % 16 * 4 + rest) = b := by
  have range := b.toNat_lt
  have joined : (a.toNat % 4 * 16 + b.toNat / 16) * 16 + (b.toNat % 16 * 4 + rest) / 4 = b.toNat + 256 * (a.toNat % 4) := by omega
  rw [second, joined, ← UInt8.toNat_inj, UInt8.toNat_ofNat', Nat.add_mul_mod_self_left, Nat.mod_eq_of_lt range]

theorem third_of : third (b.toNat % 16 * 4 + c.toNat / 64) (c.toNat % 64) = c := by
  have range := c.toNat_lt
  have joined : (b.toNat % 16 * 4 + c.toNat / 64) * 64 + c.toNat % 64 = c.toNat + 256 * (b.toNat % 16) := by omega
  rw [third, joined, ← UInt8.toNat_inj, UInt8.toNat_ofNat', Nat.add_mul_mod_self_left, Nat.mod_eq_of_lt range]

end Bytes

theorem value_pad : value pad = none := by
  rw [value, alphabet_letters]
  decide +kernel

theorem quads_encode (bytes : Bytes) : quads (encode bytes) = some bytes := by
  induction bytes using groups with
  | none => rfl
  | one a =>
      have range := a.toNat_lt
      have last := first_of a 0 (by omega)
      rw [Nat.add_zero] at last
      rw [encode, quads, value_digit (by omega), value_digit (by omega), value_pad]
      exact congrArg (fun byte => some [byte]) last
  | two a b =>
      have range := a.toNat_lt
      have next := b.toNat_lt
      have last := second_of a b 0 (by omega)
      rw [Nat.add_zero] at last
      rw [encode, quads, value_digit (by omega), value_digit (by omega), value_digit (by omega), value_pad]
      dsimp only
      rw [if_pos ⟨rfl, rfl⟩, first_of a _ (by omega), last]
  | more a b c rest ih =>
      have range := a.toNat_lt
      have next := b.toNat_lt
      have last := c.toNat_lt
      rw [encode, quads, value_digit (by omega), value_digit (by omega), value_digit (by omega), value_digit (by omega), ih]
      dsimp only
      rw [Option.map_some, first_of a _ (by omega), second_of a b _ (by omega), third_of]

theorem mem_encode {bytes : Bytes} {unit : Nat} (member : unit ∈ encode bytes) : (∃ n < 64, unit = digit n) ∨ unit = pad := by
  induction bytes using groups with
  | none => cases member
  | one a =>
      have range := a.toNat_lt
      simp only [encode, List.mem_cons, List.not_mem_nil, or_false] at member
      obtain same | same | same | same := member
      · exact .inl ⟨_, by omega, same⟩
      · exact .inl ⟨_, by omega, same⟩
      · exact .inr same
      · exact .inr same
  | two a b =>
      have range := a.toNat_lt
      have next := b.toNat_lt
      simp only [encode, List.mem_cons, List.not_mem_nil, or_false] at member
      obtain same | same | same | same := member
      · exact .inl ⟨_, by omega, same⟩
      · exact .inl ⟨_, by omega, same⟩
      · exact .inl ⟨_, by omega, same⟩
      · exact .inr same
  | more a b c rest ih =>
      have range := a.toNat_lt
      have next := b.toNat_lt
      have last := c.toNat_lt
      simp only [encode, List.mem_cons] at member
      obtain same | same | same | same | later := member
      · exact .inl ⟨_, by omega, same⟩
      · exact .inl ⟨_, by omega, same⟩
      · exact .inl ⟨_, by omega, same⟩
      · exact .inl ⟨_, by omega, same⟩
      · exact ih later

theorem encode_graphic (bytes : Bytes) : ∀ unit ∈ encode bytes, 32 < unit ∧ unit < 128 := by
  intro unit member
  obtain ⟨n, small, rfl⟩ | rfl := mem_encode member
  · exact (digit_graphic small).2
  · decide

theorem decode_encode (bytes : Bytes) : decode (encode bytes) = some bytes := by
  have plain : (encode bytes).filter (!lineBreak ·) = encode bytes := by
    refine List.filter_eq_self.mpr fun unit member => ?_
    have graphic := encode_graphic bytes unit member
    simp only [lineBreak, Bool.not_eq_true', Bool.or_eq_false_iff, decide_eq_false_iff_not]
    omega
  rw [decode, plain, quads_encode]

end Base64
