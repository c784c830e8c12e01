import Brainkit.Library.EcmaJsonRead

set_option autoImplicit false

-- What encoding/json makes of the texts that JSON.stringify writes.
namespace GoJson

open Ecma EcmaJson GoText Utf8

def isNumberByte (byte : UInt8) : Bool := isDigit byte || byte = 43 || byte = 45 || byte = 46 || byte = 69 || byte = 101

def Ends (rest : Bytes) : Prop := ∀ byte, rest.head? = some byte → isNumberByte byte = false

theorem ends_cons {byte : UInt8} (other : isNumberByte byte = false) (rest : Bytes) : Ends (byte :: rest) := by
  intro first head
  cases head
  exact other

theorem ends_digits {rest : Bytes} (ends : Ends rest) : rest.dropWhile isDigit = rest := by
  cases rest with
  | nil => rfl
  | cons byte rest =>
      have other := ends byte rfl
      simp only [isNumberByte, Bool.or_eq_false_iff] at other
      exact List.dropWhile_cons_of_neg (by rw [other.1.1.1.1.1]; decide)

theorem digits_more {text left rest : Bytes} (ends : Ends rest) (read : digits text = some left) :
    digits (text ++ rest) = some (left ++ rest) := by
  cases text with
  | nil => cases read
  | cons byte text =>
      rw [digits] at read
      split at read
      · next digit =>
          cases read
          rw [List.cons_append, digits, if_pos digit, List.dropWhile_append]
          split
          · next empty => rw [List.isEmpty_iff.mp empty, List.nil_append, ends_digits ends]
          · rfl
      · cases read

theorem fraction_more {text left rest : Bytes} (ends : Ends rest) (read : fraction text = some left) :
    fraction (text ++ rest) = some (left ++ rest) := by
  unfold fraction at read
  split at read
  · exact digits_more ends read
  · next apart =>
      cases read
      rw [fraction]
      intro more same
      cases text with
      | nil =>
          have other := ends 46 (by rw [← List.nil_append rest, same]; rfl)
          exact absurd other (by decide)
      | cons byte text => exact apart text (by rw [(List.cons.inj same).1])

theorem exponent_more {text left rest : Bytes} (ends : Ends rest) (read : exponent text = some left) :
    exponent (text ++ rest) = some (left ++ rest) := by
  cases text with
  | nil =>
      cases read
      cases rest with
      | nil => rfl
      | cons byte rest =>
          have other := ends byte rfl
          simp only [isNumberByte, Bool.or_eq_false_iff, decide_eq_false_iff_not] at other
          rw [List.nil_append]
          unfold exponent
          exact if_neg (by simpa using ⟨other.2, other.1.2⟩)
  | cons byte text =>
      rw [List.cons_append]
      unfold exponent at read ⊢
      dsimp only at read ⊢
      split at read
      · next marks =>
          rw [if_pos marks]
          cases text with
          | nil => cases read
          | cons sign more =>
              dsimp only [List.cons_append] at read ⊢
              split at read
              · next signed =>
                  rw [if_pos signed]
                  exact digits_more ends read
              · next plain =>
                  rw [if_neg plain]
                  exact digits_more ends read
      · next apart =>
          cases read
          rw [if_neg apart]
          rfl

theorem unsigned_more {text left rest : Bytes} (ends : Ends rest) (read : unsigned text = some left) :
    unsigned (text ++ rest) = some (left ++ rest) := by
  unfold unsigned at read
  split at read
  · cases read
    rfl
  · next apart =>
      rw [unsigned]
      · exact digits_more ends read
      · intro more same
        cases text with
        | nil => cases read
        | cons byte text => exact apart text (by rw [(List.cons.inj same).1])

theorem number_more {text left rest : Bytes} (ends : Ends rest) (read : number text = some left) :
    number (text ++ rest) = some (left ++ rest) := by
  unfold number at read
  split at read
  · next more =>
      simp only [Option.bind_eq_bind, Option.bind_eq_some_iff] at read
      obtain ⟨whole, begun, part, between, last⟩ := read
      simp only [List.cons_append, number, Option.bind_eq_bind, unsigned_more ends begun, Option.bind_some,
        fraction_more ends between, exponent_more ends last]
  · next apart =>
      simp only [Option.bind_eq_bind, Option.bind_eq_some_iff] at read
      obtain ⟨whole, begun, part, between, last⟩ := read
      unfold number
      split
      · next more same =>
          cases text with
          | nil => cases begun
          | cons byte text => exact absurd (by rw [(List.cons.inj same).1]) (apart text)
      · simp only [Option.bind_eq_bind, unsigned_more ends begun, Option.bind_some, fraction_more ends between,
          exponent_more ends last]

structure Valued (bytes : Bytes) : Prop where
  begins : ∃ byte rest, bytes = byte :: rest ∧ isBlank byte = false ∧ byte ≠ 93
  read : ∀ fuel rest, bytes.length ≤ fuel → Ends rest → value fuel (bytes ++ rest) = some rest

theorem skipSpace_cons {byte : UInt8} (shown : isBlank byte = false) (rest : Bytes) : skipSpace (byte :: rest) = byte :: rest :=
  List.dropWhile_cons_of_neg (by rw [shown]; decide)

theorem valued_skip {bytes : Bytes} (valued : Valued bytes) (rest : Bytes) : skipSpace (bytes ++ rest) = bytes ++ rest := by
  obtain ⟨byte, more, rfl, shown, -⟩ := valued.begins
  exact skipSpace_cons shown _

theorem valued_of {byte : UInt8} {more : Bytes} (shown : isBlank byte = false) (open_ : byte ≠ 93)
    (read : ∀ fuel rest, more.length ≤ fuel → Ends rest → value (fuel + 1) (byte :: (more ++ rest)) = some rest) :
    Valued (byte :: more) := by
  refine ⟨⟨byte, more, rfl, shown, open_⟩, fun fuel rest enough ends => ?_⟩
  cases fuel with
  | zero => cases enough
  | succ fuel => exact read fuel rest (Nat.le_of_succ_le_succ enough) ends

theorem valued_string {content : Bytes} (scans : Scans content) : Valued (34 :: (content ++ [34])) := by
  refine valued_of (by decide) (by decide) fun fuel rest _ _ => ?_
  rw [List.append_assoc, List.singleton_append, value, scans_ends scans]
  rfl

theorem elements_valued {texts : List Bytes} (valued : ∀ text ∈ texts, Valued text) (some_ : texts ≠ []) (fuel : Nat)
    (rest : Bytes) (enough : (joined 44 93 texts).length ≤ fuel) : elements fuel (joined 44 93 texts ++ rest) = some rest := by
  induction texts generalizing fuel with
  | nil => exact absurd rfl some_
  | cons text texts ih =>
      have one := valued text (.head _)
      rw [joined, List.length_append] at enough
      obtain ⟨less, rfl⟩ : ∃ less, fuel = less + 1 := by
        obtain ⟨byte, more, rfl, -⟩ := one.begins
        exact ⟨fuel - 1, by rw [List.length_cons] at enough; omega⟩
      rw [joined, List.append_assoc, elements, valued_skip one]
      cases texts with
      | nil =>
          rw [if_pos List.isEmpty_nil, List.length_singleton] at enough
          rw [if_pos List.isEmpty_nil, List.singleton_append, one.read less (93 :: rest) (by omega) (ends_cons (by decide) rest)]
          rfl
      | cons next others =>
          rw [if_neg (by simp), List.length_cons] at enough
          have later := ih (fun other member => valued other (.tail _ member)) (by simp) less (by omega)
          rw [if_neg (by simp), List.cons_append,
            one.read less (44 :: (joined 44 93 (next :: others) ++ rest)) (by omega) (ends_cons (by decide) _)]
          exact later

def memberBytes (m : Bytes × Bytes) : Bytes := 34 :: (m.1 ++ 34 :: 58 :: m.2)

theorem members_valued {ms : List (Bytes × Bytes)} (valued : ∀ m ∈ ms, Scans m.1 ∧ Valued m.2) (some_ : ms ≠ []) (fuel : Nat)
    (rest : Bytes) (enough : (joined 44 125 (ms.map memberBytes)).length ≤ fuel) :
    members fuel (joined 44 125 (ms.map memberBytes) ++ rest) = some (ms, rest) := by
  induction ms generalizing fuel with
  | nil => exact absurd rfl some_
  | cons m ms ih =>
      obtain ⟨name, raw⟩ := m
      obtain ⟨scans, one⟩ := valued _ (.head _)
      dsimp only at scans one
      rw [List.map_cons, joined, memberBytes, List.length_append, List.length_cons, List.length_append, List.length_cons,
        List.length_cons] at enough
      dsimp only at enough
      obtain ⟨less, rfl⟩ : ∃ less, fuel = less + 1 := ⟨fuel - 1, by omega⟩
      have slice (after : Bytes) : (raw ++ after).take ((raw ++ after).length - after.length) = raw := by
        rw [List.length_append, Nat.add_sub_cancel, List.take_left]
      rw [List.map_cons, joined, memberBytes]
      simp only [List.cons_append, List.append_assoc]
      rw [members, skipSpace_cons (by decide)]
      simp only [scans_ends scans]
      rw [skipSpace_cons (by decide)]
      simp only [valued_skip one]
      cases ms with
      | nil =>
          rw [List.map_nil, if_pos List.isEmpty_nil, List.length_singleton] at enough
          rw [List.map_nil, if_pos List.isEmpty_nil, List.singleton_append,
            one.read less (125 :: rest) (by omega) (ends_cons (by decide) rest)]
          simp only [slice]
          rfl
      | cons next others =>
          rw [if_neg (by simp), List.length_cons] at enough
          have later := ih (fun other member => valued other (.tail _ member)) (by simp) less (by omega)
          rw [if_neg (by simp), List.cons_append,
            one.read less (44 :: (joined 44 125 ((next :: others).map memberBytes) ++ rest)) (by omega)
              (ends_cons (by decide) _)]
          simp only [slice]
          refine Eq.trans (b := (members less (joined 44 125 ((next :: others).map memberBytes) ++ rest)).map
            fun found => ((name, raw) :: found.1, found.2)) rfl ?_
          rw [later]
          rfl

theorem valued_array {texts : List Bytes} (valued : ∀ text ∈ texts, Valued text) : Valued (91 :: joined 44 93 texts) := by
  refine valued_of (by decide) (by decide) fun fuel rest enough _ => ?_
  have read := fun some_ => elements_valued valued some_ fuel rest enough
  cases texts with
  | nil => rfl
  | cons one others =>
      have read := read (by simp)
      obtain ⟨byte, more, rfl, shown, open_⟩ := (valued one (.head _)).begins
      rw [joined] at read ⊢
      simp only [List.cons_append] at read ⊢
      rw [value, skipSpace_cons shown]
      split
      · next same => exact absurd (List.cons.inj same).1 open_
      · exact read

theorem valued_object {ms : List (Bytes × Bytes)} (valued : ∀ m ∈ ms, Scans m.1 ∧ Valued m.2) :
    Valued (123 :: joined 44 125 (ms.map memberBytes)) := by
  refine valued_of (by decide) (by decide) fun fuel rest enough _ => ?_
  have read := fun some_ => members_valued valued some_ fuel rest enough
  cases ms with
  | nil => rfl
  | cons m others =>
      have read := read (by simp)
      rw [List.map_cons, joined, memberBytes] at read ⊢
      simp only [List.cons_append] at read ⊢
      rw [value, skipSpace_cons (by decide)]
      split
      · next same => exact absurd (List.cons.inj same).1 (by decide)
      · rw [read]
        rfl

theorem valid_valued {bytes : Bytes} (valued : Valued bytes) : valid bytes = true := by
  have read := valued.read (bytes.length + 1) [] (Nat.le_succ _) (fun _ => nofun)
  have start := valued_skip valued []
  rw [List.append_nil] at read start
  rw [valid, start, read]
  rfl

theorem object_valued {ms : List (Bytes × Bytes)} (valued : ∀ m ∈ ms, Scans m.1 ∧ Valued m.2) :
    object (123 :: joined 44 125 (ms.map memberBytes)) = some ms := by
  cases ms with
  | nil => rfl
  | cons m others =>
      have read := members_valued valued (by simp) (joined 44 125 ((m :: others).map memberBytes)).length.succ []
        (Nat.le_succ _)
      rw [List.append_nil] at read
      rw [object, skipSpace_cons (by decide)]
      rw [List.map_cons, joined, memberBytes] at read ⊢
      simp only [List.cons_append] at read ⊢
      rw [skipSpace_cons (by decide), List.length_cons]
      exact (congrArg (Option.map Prod.fst) read).trans rfl

theorem encode_mark {c : Char} (ascii : Ascii c) (rest : List Char) : encode (c :: rest) = asciiByte c :: encode rest := by
  rw [encode_cons, encode_ascii ascii, List.singleton_append]

theorem scans_unicode (code : Nat) : Scans (encode (unicodeText code)) := by
  have digit (number : Nat) : Ascii (GoQuote.hexChar (number % 16)) ∧ isHex (asciiByte (GoQuote.hexChar (number % 16))) = true := by
    obtain ⟨-, ascii, byte, -⟩ := GoQuote.hexChar_spec (number % 16) (Nat.mod_lt number (by decide))
    exact ⟨ascii, by rw [byte]; exact isHex_hexDigit (Nat.mod_lt number (by decide))⟩
  rw [unicodeText, hexChars_four, encode_mark (by decide : Ascii '\\'), encode_mark (by decide : Ascii 'u'),
    encode_mark (digit _).1, encode_mark (digit _).1, encode_mark (digit _).1, encode_mark (digit _).1]
  exact scans_code (digit _).2 (digit _).2 (digit _).2 (digit _).2

theorem scans_raw {c : Char} (raw : Raw c) : Scans (encode [c]) := by
  obtain ⟨large, notQuote, notSlash⟩ := raw_apart raw
  rw [encode_cons]
  by_cases ascii : Ascii c
  · have code : (asciiByte c).toNat = c.toNat := byte_ofNat (Nat.lt_trans ascii (by decide))
    rw [encode_ascii ascii]
    refine scans_byte (UInt8.le_iff_toNat_le.mpr (by rw [code]; exact large)) (fun same => ?_) fun same => ?_
    · rw [same] at code
      exact notQuote code.symm
    · rw [same] at code
      exact notSlash code.symm
  · refine scans_high fun byte member => ?_
    rw [show encode [] = [] from rfl, List.append_nil] at member
    exact encode_high ascii member

theorem scans_code_text (code : Code) : Scans (encode code.text) := by
  cases code with
  | lone unit => exact scans_unicode unit
  | char c =>
      unfold Code.text
      dsimp only
      split
      · next letter found =>
          have known : ∀ pair ∈ EcmaJson.shortEscapes, Ascii pair.2 ∧ asciiByte pair.2 ∈ shortEscapes := by decide
          obtain ⟨ascii, short⟩ := known _ (lookup_mem found)
          rw [encode_mark (by decide : Ascii '\\'), encode_mark ascii]
          exact scans_short short
      · next none =>
          split
          · exact scans_unicode c.toNat
          · next visible => exact scans_raw ⟨none, Nat.not_lt.mp visible⟩

theorem scans_content_text (units : List Nat) : Scans (encode (EcmaJson.contentText units)) := by
  unfold EcmaJson.contentText
  induction codePoints units with
  | nil => exact scans_nil
  | cons code rest ih =>
      rw [List.flatMap_cons, GoQuote.encode_append]
      exact scans_append (scans_code_text code) ih

theorem valued_number (numeral : Numeral) : Valued (encode numeral.text) := by
  have plain : ∀ c ∈ numberChars, Ascii c ∧ isBlank (asciiByte c) = false ∧ asciiByte c ≠ 93 ∧
      isNumberByte (asciiByte c) = true := Utf8.forall_checked (by decide)
  obtain ⟨c, others, written⟩ := List.exists_cons_of_ne_nil (numeral_nonempty numeral)
  obtain ⟨ascii, shown, open_, digit⟩ := plain c (numeral.chars c (written ▸ List.mem_cons_self))
  have whole : encode numeral.text = asciiByte c :: encode others := by rw [written, encode_mark ascii]
  rw [whole]
  refine valued_of shown open_ fun fuel rest _ ends => ?_
  have read := number_more ends numeral.number
  rw [whole, List.cons_append, List.nil_append] at read
  rw [value]
  · exact read
  all_goals
    intro more same
    obtain ⟨same, -⟩ := List.cons.inj same
    rw [same] at digit
    exact absurd digit (by decide)

theorem itemsText_bytes (items : List Json) :
    encode (itemsText items) = joined 44 93 (items.map fun item => encode (text item)) := by
  rw [itemsText_joined, encode, joined_flatMap (encode_ascii (by decide)) (encode_ascii (by decide)), List.map_map]
  rfl

theorem memberText_bytes (m : List Nat × Json) :
    encode (memberText m) = memberBytes (encode (EcmaJson.contentText m.1), encode (text m.2)) := by
  rw [memberText, EcmaJson.stringText, GoQuote.encode_append, GoQuote.encode_append, encode_mark (by decide : Ascii '"'),
    encode_mark (by decide : Ascii '"'), encode_mark (by decide : Ascii ':')]
  simp only [memberBytes, List.cons_append, List.append_assoc]
  rfl

theorem membersText_bytes (ms : List (List Nat × Json)) :
    encode (membersText ms) =
      joined 44 125 ((ms.map fun m => (encode (EcmaJson.contentText m.1), encode (text m.2))).map memberBytes) := by
  rw [membersText_joined, encode, joined_flatMap (encode_ascii (by decide)) (encode_ascii (by decide)), List.map_map,
    List.map_map]
  exact congrArg _ (List.map_congr_left fun m _ => memberText_bytes m)

mutual
theorem valued_text : (v : Json) → Valued (encode (text v))
  | .null => ⟨⟨_, _, rfl, by decide⟩, fun fuel rest enough _ => by
      cases fuel with
      | zero => cases enough
      | succ fuel => rfl⟩
  | .bool false => ⟨⟨_, _, rfl, by decide⟩, fun fuel rest enough _ => by
      cases fuel with
      | zero => cases enough
      | succ fuel => rfl⟩
  | .bool true => ⟨⟨_, _, rfl, by decide⟩, fun fuel rest enough _ => by
      cases fuel with
      | zero => cases enough
      | succ fuel => rfl⟩
  | .number numeral => valued_number numeral
  | .string units => by
      rw [text, EcmaJson.stringText, GoQuote.encode_append, encode_mark (by decide)]
      exact valued_string (scans_content_text units)
  | .array items => by
      rw [text, encode_mark (by decide), itemsText_bytes]
      exact valued_array (valued_items items)
  | .object ms => by
      rw [text, encode_mark (by decide), membersText_bytes]
      exact valued_object (valued_members ms)

theorem valued_items : (items : List Json) → ∀ bytes ∈ items.map fun item => encode (text item), Valued bytes
  | [] => fun _ none => nomatch none
  | item :: rest => List.forall_mem_cons.mpr ⟨valued_text item, valued_items rest⟩

theorem valued_members : (ms : List (List Nat × Json)) →
    ∀ m ∈ ms.map fun m => (encode (EcmaJson.contentText m.1), encode (text m.2)), Scans m.1 ∧ Valued m.2
  | [] => fun _ none => nomatch none
  | (key, field) :: rest =>
      List.forall_mem_cons.mpr ⟨⟨scans_content_text key, valued_text field⟩, valued_members rest⟩
end

theorem valid_text (v : Json) : valid (encode (text v)) = true := valid_valued (valued_text v)

theorem object_text (ms : List (List Nat × Json)) :
    object (encode (text (.object ms))) = some (ms.map fun m => (encode (EcmaJson.contentText m.1), encode (text m.2))) := by
  rw [text, encode_mark (by decide), membersText_bytes]
  exact object_valued (valued_members ms)

end GoJson
