import Brainkit.Library.GoJsonText

set_option autoImplicit false

-- The compaction of a RawMessage by json.Marshal: outside of the strings the blanks go, and the signs of HTML and the
-- two separators of lines are escaped.
namespace GoJson

open Ecma EcmaJson GoText Utf8

-- appendCompact on a text that the scanner takes; string is set inside of a string.
def compactFrom : Bool → Bytes → Bytes
  | _, [] => []
  | true, 92 :: byte :: rest => 92 :: byte :: compactFrom true rest
  | string, 0xE2 :: 0x80 :: byte :: rest =>
      if byte = 0xA8 || byte = 0xA9 then [92, 117, 50, 48, 50, hexDigit (byte.toNat % 16)] ++ compactFrom string rest
      else 0xE2 :: compactFrom string (0x80 :: byte :: rest)
  | string, byte :: rest =>
      if byte = 60 || byte = 62 || byte = 38 then
        [92, 117, 48, 48, hexDigit (byte.toNat / 16), hexDigit (byte.toNat % 16)] ++ compactFrom string rest
      else if !string && isBlank byte then compactFrom string rest
      else byte :: compactFrom (if byte = 34 then !string else string) rest

def compact (text : Bytes) : Bytes := compactFrom false text

def html (c : Char) : List Char :=
  if c ∈ ['<', '>', '&', '\u2028', '\u2029'] then unicodeText c.toNat else [c]

theorem encodeChar_tail (c : Char) : ∃ first tail, String.utf8EncodeChar c = first :: tail ∧
    ∀ byte ∈ tail, 128 ≤ byte.toNat ∧ byte.toNat < 192 := by
  have range := scalar c
  unfold String.utf8EncodeChar
  dsimp only
  split
  · exact ⟨_, _, rfl, fun _ none => nomatch none⟩
  split
  · refine ⟨_, _, rfl, ?_⟩
    simp
    omega
  split
  · refine ⟨_, _, rfl, ?_⟩
    simp
    omega
  · refine ⟨_, _, rfl, ?_⟩
    simp
    omega

theorem compact_kept {byte : UInt8} {string : Bool} (shown : string = true ∨ isBlank byte = false) (notQuote : byte ≠ 34)
    (notSlash : byte ≠ 92) (notLead : byte ≠ 0xE2) (notSign : byte ≠ 60 ∧ byte ≠ 62 ∧ byte ≠ 38) (rest : Bytes) :
    compactFrom string (byte :: rest) = byte :: compactFrom string rest := by
  rw [compactFrom]
  · rcases shown with rfl | shown
    · simp [notQuote, notSign]
    · simp [shown, notQuote, notSign]
  · exact fun _ _ lead _ => notLead lead
  · exact fun _ _ _ slash _ => notSlash slash

def Ordinary (byte : UInt8) : Prop := byte ≠ 34 ∧ byte ≠ 92 ∧ byte ≠ 0xE2 ∧ byte ≠ 60 ∧ byte ≠ 62 ∧ byte ≠ 38

instance (byte : UInt8) : Decidable (Ordinary byte) := inferInstanceAs (Decidable (_ ∧ _))

theorem compact_string {bytes : Bytes} (kept : ∀ byte ∈ bytes, Ordinary byte) (rest : Bytes) :
    compactFrom true (bytes ++ rest) = bytes ++ compactFrom true rest := by
  induction bytes with
  | nil => rfl
  | cons byte more ih =>
      obtain ⟨notQuote, notSlash, notLead, notSign⟩ := kept byte (.head _)
      rw [List.cons_append, compact_kept (.inl rfl) notQuote notSlash notLead notSign,
        ih fun other member => kept other (.tail byte member), List.cons_append]

theorem compact_escape (byte : UInt8) (rest : Bytes) : compactFrom true (92 :: byte :: rest) = 92 :: byte :: compactFrom true rest := by
  rw [compactFrom]

theorem html_marks {text : List Char} (known : ∀ c ∈ text, c ∈ syntaxChars) : text.flatMap html = text := by
  have plain : ∀ c ∈ syntaxChars, html c = [c] := Utf8.forall_checked (by decide)
  induction text with
  | nil => rfl
  | cons c rest ih =>
      rw [List.flatMap_cons, plain c (known c (.head _)), ih fun other member => known other (.tail c member)]
      rfl

theorem compact_unicode (code : Nat) (rest : Bytes) :
    compactFrom true (encode (unicodeText code) ++ rest) = encode (unicodeText code) ++ compactFrom true rest := by
  have digit : ∀ value < 16, GoQuote.hexChar value ∈ Ecma.hexDigits := fun value small => (GoQuote.hexChar_spec value small).1
  have plain : ∀ c ∈ Ecma.hexDigits, Ascii c ∧ Ordinary (asciiByte c) := Utf8.forall_checked (by decide)
  have four : ∀ byte ∈ encode (GoQuote.hexChars 4 code), Ordinary byte := by
    have one (number : Nat) := plain _ (digit (number % 16) (Nat.mod_lt number (by decide)))
    rw [hexChars_four, encode_mark (one _).1, encode_mark (one _).1, encode_mark (one _).1, encode_mark (one _).1]
    simp only [List.forall_mem_cons]
    exact ⟨(one _).2, (one _).2, (one _).2, (one _).2, fun _ none => nomatch none⟩
  rw [unicodeText, encode_mark (by decide : Ascii '\\'), encode_mark (by decide : Ascii 'u')]
  exact (compact_escape 117 _).trans (congrArg (92 :: 117 :: ·) (compact_string four rest))

theorem separator_bytes {c : Char} {byte : UInt8} {rest : Bytes} (bytes : String.utf8EncodeChar c = 0xE2 :: 0x80 :: byte :: rest)
    (last : byte = 0xA8 ∨ byte = 0xA9) : c = '\u2028' ∨ c = '\u2029' := by
  have decoded := decodeRune_encode c []
  rw [List.append_nil, bytes] at decoded
  rcases last with rfl | rfl
  · exact .inl (Char.toNat_inj.mp (congrArg Prod.fst (Option.some.inj decoded)).symm)
  · exact .inr (Char.toNat_inj.mp (congrArg Prod.fst (Option.some.inj decoded)).symm)

theorem compact_lead {rest : Bytes} (apart : ∀ byte more, rest = 0x80 :: byte :: more → ¬ (byte = 0xA8 ∨ byte = 0xA9)) :
    compactFrom true (0xE2 :: rest) = 0xE2 :: compactFrom true rest := by
  match rest with
  | [] => rfl
  | [byte] =>
      rw [compactFrom]
      · simp [isBlank]
      · exact fun _ _ _ same => nomatch same
      · exact fun _ _ _ same => absurd same (by decide)
  | first :: byte :: more =>
      by_cases second : first = 0x80
      · subst second
        rw [compactFrom, if_neg (by simpa using apart byte more rfl)]
      · rw [compactFrom]
        · simp [isBlank]
        · exact fun _ _ _ same => second (List.cons.inj same).1
        · exact fun _ _ _ same => absurd same (by decide)

theorem compact_high {c : Char} (high : ¬ Ascii c) (other : c ≠ '\u2028' ∧ c ≠ '\u2029') (rest : Bytes) :
    compactFrom true (encode [c] ++ rest) = encode [c] ++ compactFrom true rest := by
  obtain ⟨first, tail, bytes, tails⟩ := encodeChar_tail c
  have whole : encode [c] = first :: tail := by rw [encode_cons, bytes]; exact List.append_nil _
  have above : 128 ≤ first.toNat := UInt8.le_iff_toNat_le.mp (encode_high high (bytes ▸ List.mem_cons_self))
  have kept : ∀ byte ∈ tail, Ordinary byte := by
    intro byte member
    obtain ⟨large, small⟩ := tails byte member
    refine ⟨?_, ?_, ?_, ?_, ?_, ?_⟩
    all_goals
      rintro rfl
      first
      | exact absurd large (by decide)
      | exact absurd small (by decide)
  have begun : compactFrom true (first :: (tail ++ rest)) = first :: compactFrom true (tail ++ rest) := by
    by_cases lead : first = 0xE2
    · subst lead
      refine compact_lead fun byte more same last => ?_
      match tail, bytes, same with
      | [], bytes, _ =>
          have short := decodeRune_encode c []
          rw [bytes] at short
          cases short
      | [_], bytes, _ =>
          have short := decodeRune_encode c []
          rw [bytes] at short
          cases short
      | second :: third :: others, bytes, same =>
          obtain ⟨first, same⟩ := List.cons.inj same
          obtain ⟨rfl, -⟩ := List.cons.inj same
          rcases separator_bytes (first ▸ bytes) last with found | found
          · exact other.1 found
          · exact other.2 found
    · have distinct (byte : UInt8) (small : byte.toNat < 128) : first ≠ byte := by
        rintro rfl
        omega
      exact compact_kept (.inl rfl) (distinct _ (by decide)) (distinct _ (by decide)) lead
        ⟨distinct _ (by decide), distinct _ (by decide), distinct _ (by decide)⟩ _
  rw [whole, List.cons_append, begun, compact_string kept, List.cons_append]

theorem compact_raw {c : Char} (raw : Raw c) (rest : Bytes) :
    compactFrom true (encode [c] ++ rest) = encode (html c) ++ compactFrom true rest := by
  unfold html
  split
  · next sign =>
      simp only [List.mem_cons, List.not_mem_nil, or_false] at sign
      rcases sign with rfl | rfl | rfl | rfl | rfl <;> rfl
  · next other =>
      simp only [List.mem_cons, List.not_mem_nil, or_false, not_or] at other
      by_cases ascii : Ascii c
      · obtain ⟨large, notQuote, notSlash⟩ := raw_apart raw
        have code : (asciiByte c).toNat = c.toNat := byte_ofNat (Nat.lt_trans ascii (by decide))
        have apart (d : Char) (small : d.toNat < 128) (different : c.toNat ≠ d.toNat) : asciiByte c ≠ asciiByte d := by
          intro same
          have codes := congrArg UInt8.toNat same
          rw [code, show (asciiByte d).toNat = d.toNat from byte_ofNat (Nat.lt_trans small (by decide))] at codes
          exact different codes
        have notLead : asciiByte c ≠ 0xE2 := by
          intro same
          have below := asciiByte_lt ascii
          rw [same] at below
          exact absurd below (by decide)
        have distinct (d : Char) (different : c ≠ d) : c.toNat ≠ d.toNat := fun same => different (Char.toNat_inj.mp same)
        have whole : encode [c] = [asciiByte c] := (encode_mark ascii []).trans rfl
        rw [whole]
        refine compact_string (fun byte member => ?_) rest
        rw [List.mem_singleton.mp member]
        exact ⟨apart '"' (by decide) notQuote, apart '\\' (by decide) notSlash, notLead,
          apart '<' (by decide) (distinct _ other.1), apart '>' (by decide) (distinct _ other.2.1),
          apart '&' (by decide) (distinct _ other.2.2.1)⟩
      · exact compact_high ascii other.2.2.2 rest

theorem compact_code (code : Code) (rest : Bytes) :
    compactFrom true (encode code.text ++ rest) = encode (code.text.flatMap html) ++ compactFrom true rest := by
  cases code with
  | lone unit =>
      rw [Code.text, html_marks (hexChars_marks unit)]
      exact compact_unicode unit rest
  | char c =>
      unfold Code.text
      dsimp only
      split
      · next letter found =>
          have known : ∀ pair ∈ EcmaJson.shortEscapes, Ascii pair.2 ∧ pair.2 ∈ syntaxChars := by decide
          obtain ⟨ascii, mark⟩ := known _ (lookup_mem found)
          rw [html_marks (by simpa using ⟨by decide, mark⟩), encode_mark (by decide : Ascii '\\'), encode_mark ascii]
          exact compact_escape _ rest
      · next none =>
          split
          · rw [html_marks (hexChars_marks _)]
            exact compact_unicode _ rest
          · next visible =>
              rw [List.flatMap_singleton]
              exact compact_raw ⟨none, Nat.not_lt.mp visible⟩ rest

theorem compact_content (units : List Nat) (rest : Bytes) :
    compactFrom true (encode (EcmaJson.contentText units) ++ rest) =
      encode ((EcmaJson.contentText units).flatMap html) ++ compactFrom true rest := by
  unfold EcmaJson.contentText
  induction codePoints units with
  | nil => rfl
  | cons code more ih =>
      rw [List.flatMap_cons, GoQuote.encode_append, List.append_assoc, compact_code, ih, List.flatMap_append,
        GoQuote.encode_append, List.append_assoc]

def outerChars : List Char := "{}[]:,0123456789+-.eEaflnrstu".toList

inductive Written : List Char → Prop where
  | nil : Written []
  | mark (c : Char) (known : c ∈ outerChars) : Written [c]
  | string (units : List Nat) : Written (EcmaJson.stringText units)
  | append {first second : List Char} (one : Written first) (other : Written second) : Written (first ++ second)

theorem written_cons {c : Char} {rest : List Char} (known : c ∈ outerChars) (written : Written rest) : Written (c :: rest) :=
  .append (.mark c known) written

theorem written_marks {text : List Char} (known : ∀ c ∈ text, c ∈ outerChars) : Written text := by
  induction text with
  | nil => exact .nil
  | cons c rest ih => exact written_cons (known c (.head _)) (ih fun other member => known other (.tail c member))

theorem written_joined {comma close : Char} (commas : comma ∈ outerChars) (closes : close ∈ outerChars) {texts : List (List Char)}
    (written : ∀ text ∈ texts, Written text) : Written (joined comma close texts) := by
  induction texts with
  | nil => exact .mark close closes
  | cons text rest ih =>
      rw [joined]
      refine .append (written text (.head _)) ?_
      split
      · exact .mark close closes
      · exact written_cons commas (ih fun other member => written other (.tail text member))

mutual
theorem written_text : (v : Json) → Written (text v)
  | .null => written_marks (Utf8.forall_checked (by decide))
  | .bool false => written_marks (Utf8.forall_checked (by decide))
  | .bool true => written_marks (Utf8.forall_checked (by decide))
  | .number numeral => by
      have known : ∀ c ∈ numberChars, c ∈ outerChars := Utf8.forall_checked (by decide)
      exact written_marks fun c member => known c (numeral.chars c member)
  | .string units => .string units
  | .array items => by
      rw [text, itemsText_joined]
      exact written_cons (by decide) (written_joined (by decide) (by decide) (written_items items))
  | .object ms => by
      rw [text, membersText_joined]
      exact written_cons (by decide) (written_joined (by decide) (by decide) (written_members ms))

theorem written_items : (items : List Json) → ∀ t ∈ items.map text, Written t
  | [] => fun _ none => nomatch none
  | item :: rest => List.forall_mem_cons.mpr ⟨written_text item, written_items rest⟩

theorem written_members : (ms : List (List Nat × Json)) → ∀ t ∈ ms.map memberText, Written t
  | [] => fun _ none => nomatch none
  | (key, field) :: rest => List.forall_mem_cons.mpr
      ⟨.append (.string key) (written_cons (by decide) (written_text field)), written_members rest⟩
end

theorem compact_written {t : List Char} (written : Written t) (rest : Bytes) :
    compactFrom false (encode t ++ rest) = encode (t.flatMap html) ++ compactFrom false rest := by
  induction written generalizing rest with
  | nil => rfl
  | mark c known =>
      have plain : ∀ c ∈ outerChars, Ascii c ∧ isBlank (asciiByte c) = false ∧ Ordinary (asciiByte c) ∧ html c = [c] :=
        Utf8.forall_checked (by decide)
      obtain ⟨ascii, shown, ⟨notQuote, notSlash, notLead, notSign⟩, same⟩ := plain c known
      have whole : encode [c] = [asciiByte c] := (encode_mark ascii []).trans rfl
      rw [List.flatMap_singleton, same, whole]
      exact compact_kept (.inr shown) notQuote notSlash notLead notSign rest
  | string units =>
      have opens (after : Bytes) : compactFrom false (34 :: after) = 34 :: compactFrom true after := by
        rw [compactFrom]
        · rfl
        · exact fun _ _ same => absurd same (by decide)
        · exact fun _ _ same => absurd same (by decide)
      have closes (after : Bytes) : compactFrom true (34 :: after) = 34 :: compactFrom false after := by
        rw [compactFrom]
        · rfl
        · exact fun _ _ same => absurd same (by decide)
        · exact fun _ _ _ same => absurd same (by decide)
      have quote : html '"' = ['"'] := by decide
      rw [EcmaJson.stringText, List.flatMap_append, List.flatMap_cons, List.flatMap_singleton, quote]
      simp only [List.cons_append, List.nil_append, encode_mark (by decide : Ascii '"'), GoQuote.encode_append, List.append_assoc]
      refine (opens _).trans (congrArg (34 :: ·) ?_)
      rw [compact_content]
      exact congrArg _ ((closes rest).trans rfl)
  | append one other ihOne ihOther =>
      rw [GoQuote.encode_append, List.append_assoc, ihOne, ihOther, List.flatMap_append, GoQuote.encode_append, List.append_assoc]

theorem compact_text (v : Json) : compact (encode (text v)) = encode ((text v).flatMap html) := by
  have whole := compact_written (written_text v) []
  rwa [List.append_nil, show compactFrom false [] = [] from rfl, List.append_nil] at whole

end GoJson
