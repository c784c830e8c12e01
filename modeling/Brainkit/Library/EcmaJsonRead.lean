import Brainkit.Library.EcmaJson

set_option autoImplicit false

-- What JSON.parse makes of the text of a value when its characters are passed on one by one.
namespace EcmaJson

open Ecma GoQuote

def Reads (piece units : List Nat) : Prop :=
  ∀ rest content after, scanString rest = some (content, after) → scanString (piece ++ rest) = some (units ++ content, after)

theorem reads_nil : Reads [] [] := fun _ _ _ scanned => scanned

theorem reads_append {first second units more : List Nat} (one : Reads first units) (other : Reads second more) :
    Reads (first ++ second) (units ++ more) := by
  intro rest content after scanned
  rw [List.append_assoc, List.append_assoc]
  exact one _ _ _ (other _ _ _ scanned)

theorem reads_unit {unit : Nat} (large : 32 ≤ unit) (notQuote : unit ≠ 34) (notSlash : unit ≠ 92) : Reads [unit] [unit] := by
  intro rest content after scanned
  rw [List.singleton_append, List.singleton_append, scanString]
  · rw [scanned, if_neg (by simpa using ⟨large, notSlash⟩)]
    rfl
  · exact notQuote
  · exact fun _ _ _ _ _ same => absurd same notSlash
  · exact fun _ _ same => absurd same notSlash

theorem reads_units {units : List Nat} (plain : ∀ unit ∈ units, 32 ≤ unit ∧ unit ≠ 34 ∧ unit ≠ 92) :
    Reads units units := by
  induction units with
  | nil => exact reads_nil
  | cons unit rest ih =>
      obtain ⟨large, notQuote, notSlash⟩ := plain unit (.head _)
      exact reads_append (reads_unit large notQuote notSlash) (ih fun other member => plain other (.tail unit member))

theorem reads_short {letter meant : Nat} (short : shortUnits.lookup letter = some meant) : Reads [92, letter] [meant] := by
  intro rest content after scanned
  rw [List.cons_append, List.singleton_append, List.singleton_append, scanString]
  · rw [short]
    simp only [scanned, Option.map_some]
  · rintro a b c d more rfl
    exact absurd short (by decide +revert)

theorem hexUnit_hexChar : ∀ digit < 16, hexUnit (hexChar digit).toNat = some digit := by decide

theorem hexChars_four (code : Nat) : hexChars 4 code =
    [hexChar (code / 4096 % 16), hexChar (code / 256 % 16), hexChar (code / 16 % 16), hexChar (code % 16)] := by
  simp [hexChars, Nat.div_div_eq_div_mul]

theorem reads_code {code : Nat} (fits : code < 65536) :
    Reads (92 :: 117 :: (hexChars 4 code).map Char.toNat) [code] := by
  intro rest content after scanned
  have digit (number : Nat) : hexUnit (hexChar (number % 16)).toNat = some (number % 16) :=
    hexUnit_hexChar _ (Nat.mod_lt number (by decide))
  have whole : code / 4096 % 16 * 4096 + code / 256 % 16 * 256 + code / 16 % 16 * 16 + code % 16 = code := by omega
  have read : fourUnits (hexChar (code / 4096 % 16)).toNat (hexChar (code / 256 % 16)).toNat (hexChar (code / 16 % 16)).toNat
      (hexChar (code % 16)).toNat = some code := by
    simp [fourUnits, digit, whole]
  rw [hexChars_four]
  simp only [List.map_cons, List.map_nil, List.cons_append, List.nil_append, scanString, read, scanned, Option.map_some]

def syntaxChars : List Char := "{}[]:,\"\\0123456789+-.eEabcdflnrstu".toList

def Raw (c : Char) : Prop := shortEscapes.lookup c = none ∧ 32 ≤ c.toNat

structure Delivers (p : Char → List Nat) (r : Code → List Nat) : Prop where
  shown : ∀ c, p c ≠ []
  marks : ∀ c ∈ syntaxChars, p c = [c.toNat]
  raw : ∀ c, Raw c → Reads (p c) (r (.char c))
  escaped : ∀ c, ¬ Raw c → r (.char c) = [c.toNat]
  lone : ∀ unit, r (.lone unit) = [unit]

section

variable {p : Char → List Nat} {r : Code → List Nat}

theorem flatMap_marks (delivers : Delivers p r) {text : List Char} (all : ∀ c ∈ text, c ∈ syntaxChars) :
    text.flatMap p = text.map Char.toNat := by
  induction text with
  | nil => rfl
  | cons c rest ih =>
      rw [List.flatMap_cons, List.map_cons, delivers.marks c (all c (.head _)), List.singleton_append,
        ih fun other member => all other (.tail c member)]

theorem hexChars_marks (code : Nat) : ∀ c ∈ unicodeText code, c ∈ syntaxChars := by
  have digit : ∀ value < 16, hexChar value ∈ syntaxChars := by decide
  intro c member
  rw [unicodeText, hexChars_four] at member
  simp only [List.mem_cons, List.not_mem_nil, or_false] at member
  rcases member with rfl | rfl | rfl | rfl | rfl | rfl
  · decide
  · decide
  all_goals exact digit _ (Nat.mod_lt _ (by decide))

theorem reads_unicode (delivers : Delivers p r) {code : Nat} (fits : code < 65536) :
    Reads ((unicodeText code).flatMap p) [code] := by
  rw [flatMap_marks delivers (hexChars_marks code)]
  exact reads_code fits

theorem shortEscapes_read : ∀ pair ∈ shortEscapes, pair.2 ∈ syntaxChars ∧
    shortUnits.lookup pair.2.toNat = some pair.1.toNat := by
  decide

theorem lookup_mem {α β : Type} [BEq α] [LawfulBEq α] {key : α} {value : β} {pairs : List (α × β)}
    (found : pairs.lookup key = some value) : (key, value) ∈ pairs := by
  induction pairs with
  | nil => cases found
  | cons pair rest ih =>
      obtain ⟨name, stored⟩ := pair
      rw [List.lookup_cons] at found
      split at found
      · next same =>
          cases found
          rw [eq_of_beq same]
          exact .head _
      · exact .tail _ (ih found)

def Code.Fits : Code → Prop
  | char _ => True
  | lone unit => unit < 65536

theorem reads_text (delivers : Delivers p r) {code : Code} (fits : code.Fits) : Reads (code.text.flatMap p) (r code) := by
  cases code with
  | lone unit =>
      rw [delivers.lone]
      exact reads_unicode delivers fits
  | char c =>
      unfold Code.text
      dsimp only
      split
      · next letter found =>
          obtain ⟨known, meant⟩ := shortEscapes_read _ (lookup_mem found)
          have escaped : ¬ Raw c := fun raw => absurd (raw.1.symm.trans found) (by simp)
          rw [delivers.escaped c escaped, flatMap_marks delivers (by simpa using ⟨by decide, known⟩)]
          exact reads_short meant
      · next none =>
          split
          · next control =>
              rw [delivers.escaped c fun raw => absurd raw.2 (Nat.not_le.mpr control)]
              exact reads_unicode delivers (by omega)
          · next visible =>
              rw [List.flatMap_singleton]
              exact delivers.raw c ⟨none, Nat.not_lt.mp visible⟩

theorem single_fits (unit : Nat) : (single unit).Fits := by
  unfold single
  split
  · next surrogate =>
      simp only [high, low, Bool.or_eq_true, Bool.and_eq_true, decide_eq_true_eq] at surrogate
      change unit < 65536
      omega
  · trivial

theorem codePoints_fit (units : List Nat) : ∀ code ∈ codePoints units, code.Fits := by
  induction units using codePoints.induct with
  | case1 => exact fun _ none => nomatch none
  | case2 unit => exact fun code member => List.mem_singleton.mp member ▸ single_fits unit
  | case3 unit next rest pair ih =>
      intro code member
      rw [codePoints, if_pos pair] at member
      rcases List.mem_cons.mp member with rfl | later
      · trivial
      · exact ih code later
  | case4 unit next rest apart ih =>
      intro code member
      rw [codePoints, if_neg apart] at member
      rcases List.mem_cons.mp member with rfl | later
      · exact single_fits unit
      · exact ih code later

theorem reads_content (delivers : Delivers p r) (units : List Nat) :
    Reads ((contentText units).flatMap p) ((codePoints units).flatMap r) := by
  have fit := codePoints_fit units
  unfold contentText
  generalize codePoints units = codes at fit ⊢
  induction codes with
  | nil => exact reads_nil
  | cons code rest ih =>
      rw [List.flatMap_cons, List.flatMap_append, List.flatMap_cons]
      exact reads_append (reads_text delivers (fit code (.head _))) (ih fun other member => fit other (.tail code member))

end

-- A value whose strings are passed on through r; of two members that come to have one key the later stays.
mutual
def rewrite (r : Code → List Nat) : Json → Json
  | .null => .null
  | .bool flag => .bool flag
  | .number numeral => .number numeral
  | .string units => .string ((codePoints units).flatMap r)
  | .array items => .array (rewriteItems r items)
  | .object members => .object (assign [] (rewriteMembers r members))

def rewriteItems (r : Code → List Nat) : List Json → List Json
  | [] => []
  | item :: rest => rewrite r item :: rewriteItems r rest

def rewriteMembers (r : Code → List Nat) : List (List Nat × Json) → List (List Nat × Json)
  | [] => []
  | (key, value) :: rest => ((codePoints key).flatMap r, rewrite r value) :: rewriteMembers r rest
end

theorem numeral_nonempty (numeral : Numeral) : numeral.text ≠ [] := by
  intro empty
  have read := numeral.number
  rw [empty] at read
  cases read

def Stops (rest : List Nat) : Prop := ∀ unit, rest.head? = some unit → isNumberUnit unit = false

theorem number_read (numeral : Numeral) {rest : List Nat} (stops : Stops rest) :
    number (numeral.text.map Char.toNat ++ rest) = some (numeral, rest) := by
  have all : ∀ unit ∈ numeral.text.map Char.toNat, isNumberUnit unit = true := by
    intro unit member
    obtain ⟨c, written, rfl⟩ := List.mem_map.mp member
    exact List.contains_iff_mem.mpr (List.mem_map_of_mem (numeral.chars c written))
  have ends : rest.takeWhile isNumberUnit = [] ∧ rest.dropWhile isNumberUnit = rest := by
    cases rest with
    | nil => exact ⟨rfl, rfl⟩
    | cons unit rest =>
        have other : ¬ isNumberUnit unit = true := by rw [stops unit rfl]; decide
        exact ⟨List.takeWhile_cons_of_neg other, List.dropWhile_cons_of_neg other⟩
  have chars : (numeral.text.map Char.toNat).map Char.ofNat = numeral.text := by
    rw [List.map_map]
    exact (List.map_congr_left fun c _ => Char.ofNat_toNat c).trans (List.map_id _)
  have taken : (numeral.text.map Char.toNat ++ rest).takeWhile isNumberUnit = numeral.text.map Char.toNat := by
    rw [List.takeWhile_append_of_pos all, ends.1, List.append_nil]
  have left : (numeral.text.map Char.toNat ++ rest).dropWhile isNumberUnit = rest := by
    rw [List.dropWhile_append_of_pos all, ends.2]
  simp only [number, taken, left, chars]
  have known : numeral.text.all numberChars.contains = true :=
    List.all_eq_true.mpr fun c member => List.contains_iff_mem.mpr (numeral.chars c member)
  rw [dif_pos ⟨known, numeral.number⟩]

theorem stops_cons {unit : Nat} (other : isNumberUnit unit = false) (rest : List Nat) : Stops (unit :: rest) := by
  intro unit head
  cases head
  exact other

theorem skipSpace_cons {unit : Nat} (shown : isBlank unit = false) (rest : List Nat) :
    skipSpace (unit :: rest) = unit :: rest :=
  List.dropWhile_cons_of_neg (by rw [shown]; decide)

structure Parses (units : List Nat) (v : Json) : Prop where
  begins : ∃ unit rest, units = unit :: rest ∧ isBlank unit = false ∧ unit ≠ 93
  read : ∀ fuel rest, units.length ≤ fuel → Stops rest → value fuel (units ++ rest) = some (v, rest)

theorem parses_skip {units : List Nat} {v : Json} (parses : Parses units v) (rest : List Nat) :
    skipSpace (units ++ rest) = units ++ rest := by
  obtain ⟨unit, more, rfl, shown, -⟩ := parses.begins
  exact skipSpace_cons shown _

theorem parses_of {unit : Nat} {more : List Nat} {v : Json} (shown : isBlank unit = false) (open_ : unit ≠ 93)
    (read : ∀ fuel rest, more.length ≤ fuel → Stops rest → value (fuel + 1) (unit :: (more ++ rest)) = some (v, rest)) :
    Parses (unit :: more) v := by
  refine ⟨⟨unit, more, rfl, shown, open_⟩, fun fuel rest enough stops => ?_⟩
  cases fuel with
  | zero => cases enough
  | succ fuel => exact read fuel rest (Nat.le_of_succ_le_succ enough) stops

theorem value_string (fuel : Nat) (rest : List Nat) :
    value (fuel + 1) (34 :: rest) = (scanString rest).map fun read => (.string read.1, read.2) := rfl

theorem value_array {unit : Nat} (shown : isBlank unit = false) (open_ : unit ≠ 93) (fuel : Nat) (rest : List Nat) :
    value (fuel + 1) (91 :: unit :: rest) = (elements fuel (unit :: rest)).map fun read => (.array read.1, read.2) := by
  rw [value, skipSpace_cons shown]
  split
  · next same => exact absurd (List.cons.inj same).1 open_
  · rfl

theorem value_object {unit : Nat} (shown : isBlank unit = false) (open_ : unit ≠ 125) (fuel : Nat) (rest : List Nat) :
    value (fuel + 1) (123 :: unit :: rest) =
      (members fuel (unit :: rest)).map fun read => (.object (assign [] read.1), read.2) := by
  rw [value, skipSpace_cons shown]
  split
  · next same => exact absurd (List.cons.inj same).1 open_
  · rfl

theorem value_other {unit : Nat} (numeral : isNumberUnit unit = true) (fuel : Nat) (rest : List Nat) :
    value (fuel + 1) (unit :: rest) = (number (unit :: rest)).map fun read => (.number read.1, read.2) := by
  have apart : unit ∉ [123, 91, 34, 116, 102, 110] := by
    intro known
    have other : ∀ unit ∈ [123, 91, 34, 116, 102, 110], isNumberUnit unit = false := by decide
    exact absurd (other unit known) (by rw [numeral]; decide)
  simp only [List.mem_cons, List.not_mem_nil, or_false, not_or] at apart
  unfold value
  split <;> simp_all

theorem parses_number (numeral : Numeral) : Parses (numeral.text.map Char.toNat) (.number numeral) := by
  obtain ⟨c, others, written⟩ := List.exists_cons_of_ne_nil (numeral_nonempty numeral)
  have digit : c ∈ numberChars := numeral.chars c (written ▸ List.mem_cons_self)
  have fine : ∀ c ∈ numberChars, isBlank c.toNat = false ∧ c.toNat ≠ 93 := Utf8.forall_checked (by decide)
  have unit : isNumberUnit c.toNat = true := List.contains_iff_mem.mpr (List.mem_map_of_mem digit)
  have whole : numeral.text.map Char.toNat = c.toNat :: others.map Char.toNat := by rw [written, List.map_cons]
  rw [whole]
  refine parses_of (fine c digit).1 (fine c digit).2 fun fuel rest _ stops => ?_
  have read := number_read numeral stops
  rw [whole, List.cons_append] at read
  rw [value_other unit, read]
  rfl

theorem parses_string {piece units : List Nat} (reads : Reads piece units) :
    Parses (34 :: (piece ++ [34])) (.string units) := by
  refine parses_of (by decide) (by decide) fun fuel rest _ _ => ?_
  have scanned := reads (34 :: rest) [] rest rfl
  rw [List.append_nil] at scanned
  rw [List.append_assoc, List.singleton_append, value_string, scanned]
  rfl

def joined {α : Type} (comma close : α) : List (List α) → List α
  | [] => [close]
  | one :: rest => one ++ (if rest.isEmpty then [close] else comma :: joined comma close rest)

theorem joined_flatMap {α β : Type} {p : α → List β} {comma close : α} {comma' close' : β} (commas : p comma = [comma'])
    (closes : p close = [close']) (texts : List (List α)) :
    (joined comma close texts).flatMap p = joined comma' close' (texts.map fun text => text.flatMap p) := by
  induction texts with
  | nil => rw [joined, List.flatMap_singleton, closes, List.map_nil, joined]
  | cons one rest ih =>
      rw [joined, List.flatMap_append, List.map_cons, joined]
      cases rest with
      | nil => exact congrArg _ ((List.flatMap_singleton p close).trans closes)
      | cons next rest => rw [if_neg (by simp), if_neg (by simp), List.flatMap_cons, commas, ih, List.singleton_append]

theorem itemsText_joined (items : List Json) : itemsText items = joined ',' ']' (items.map text) := by
  induction items with
  | nil => rfl
  | cons item rest ih => cases rest <;> simp_all [itemsText, joined]

def memberText (m : List Nat × Json) : List Char := stringText m.1 ++ ':' :: text m.2

theorem membersText_joined (ms : List (List Nat × Json)) : membersText ms = joined ',' '}' (ms.map memberText) := by
  induction ms with
  | nil => rfl
  | cons m rest ih =>
      obtain ⟨key, field⟩ := m
      cases rest <;> simp_all [membersText, memberText, joined]

def memberUnits (m : List Nat × List Nat) : List Nat := 34 :: (m.1 ++ 34 :: 58 :: m.2)

theorem elements_joined {texts : List (List Nat)} {items : List Json} (parse : List.Forall₂ Parses texts items)
    (some_ : texts ≠ []) (fuel : Nat) (rest : List Nat) (enough : (joined 44 93 texts).length ≤ fuel) :
    elements fuel (joined 44 93 texts ++ rest) = some (items, rest) := by
  induction parse generalizing fuel with
  | nil => exact absurd rfl some_
  | cons one others ih =>
      rename_i text item texts items
      rw [joined, List.length_append] at enough
      obtain ⟨less, rfl⟩ : ∃ less, fuel = less + 1 := by
        obtain ⟨unit, more, rfl, -⟩ := one.begins
        exact ⟨fuel - 1, by rw [List.length_cons] at enough; omega⟩
      rw [joined, List.append_assoc, elements, parses_skip one]
      cases others with
      | nil =>
          rw [if_pos List.isEmpty_nil, List.length_singleton] at enough
          rw [if_pos List.isEmpty_nil, List.singleton_append, one.read less (93 :: rest) (by omega) (stops_cons (by decide) rest)]
          rfl
      | cons next others =>
          rename_i text' item' texts items
          rw [if_neg (by simp), List.length_cons] at enough
          have later := ih (by simp) less (by omega)
          rw [if_neg (by simp), List.cons_append,
            one.read less (44 :: (joined 44 93 (text' :: texts) ++ rest)) (by omega) (stops_cons (by decide) _)]
          refine Eq.trans (b := (elements less (joined 44 93 (text' :: texts) ++ rest)).map
            fun read => (item :: read.1, read.2)) rfl ?_
          rw [later]
          rfl

theorem members_joined {texts : List (List Nat × List Nat)} {ms : List (List Nat × Json)}
    (parse : List.Forall₂ (fun text m => Reads text.1 m.1 ∧ Parses text.2 m.2) texts ms) (some_ : texts ≠ [])
    (fuel : Nat) (rest : List Nat) (enough : (joined 44 125 (texts.map memberUnits)).length ≤ fuel) :
    members fuel (joined 44 125 (texts.map memberUnits) ++ rest) = some (ms, rest) := by
  induction parse generalizing fuel with
  | nil => exact absurd rfl some_
  | cons one others ih =>
      rename_i text m texts ms
      obtain ⟨key, field⟩ := text
      obtain ⟨units, v⟩ := m
      obtain ⟨reads, parses⟩ := one
      dsimp only at reads parses
      rw [List.map_cons, joined, memberUnits, List.length_append, List.length_cons, List.length_append, List.length_cons,
        List.length_cons] at enough
      dsimp only at enough
      obtain ⟨less, rfl⟩ : ∃ less, fuel = less + 1 := ⟨fuel - 1, by omega⟩
      have scanned (after : List Nat) : scanString (key ++ 34 :: after) = some (units, after) := by
        have read := reads (34 :: after) [] after rfl
        rwa [List.append_nil] at read
      rw [List.map_cons, joined, memberUnits]
      simp only [List.cons_append, List.append_assoc]
      rw [members, skipSpace_cons (by decide)]
      simp only [scanned]
      rw [skipSpace_cons (by decide)]
      simp only [parses_skip parses]
      cases others with
      | nil =>
          rw [List.map_nil, if_pos List.isEmpty_nil, List.length_singleton] at enough
          rw [List.map_nil, if_pos List.isEmpty_nil, List.singleton_append,
            parses.read less (125 :: rest) (by omega) (stops_cons (by decide) rest)]
          rfl
      | cons next others =>
          rename_i text' m' texts ms
          rw [if_neg (by simp), List.length_cons] at enough
          have later := ih (by simp) less (by omega)
          rw [if_neg (by simp), List.cons_append,
            parses.read less (44 :: (joined 44 125 ((text' :: texts).map memberUnits) ++ rest)) (by omega)
              (stops_cons (by decide) _)]
          refine Eq.trans (b := (members less (joined 44 125 ((text' :: texts).map memberUnits) ++ rest)).map
            fun read => ((units, v) :: read.1, read.2)) rfl ?_
          rw [later]
          rfl

theorem parses_array {texts : List (List Nat)} {items : List Json} (parse : List.Forall₂ Parses texts items) :
    Parses (91 :: joined 44 93 texts) (.array items) := by
  refine parses_of (by decide) (by decide) fun fuel rest enough _ => ?_
  have read := fun some_ => elements_joined parse some_ fuel rest enough
  cases parse with
  | nil => rfl
  | cons one others =>
      have read := read (by simp)
      obtain ⟨unit, more, rfl, shown, open_⟩ := one.begins
      rw [joined] at read ⊢
      simp only [List.cons_append] at read ⊢
      rw [value_array shown open_, read]
      rfl

theorem parses_object {texts : List (List Nat × List Nat)} {ms : List (List Nat × Json)}
    (parse : List.Forall₂ (fun text m => Reads text.1 m.1 ∧ Parses text.2 m.2) texts ms) :
    Parses (123 :: joined 44 125 (texts.map memberUnits)) (.object (assign [] ms)) := by
  refine parses_of (by decide) (by decide) fun fuel rest enough _ => ?_
  have read := fun some_ => members_joined parse some_ fuel rest enough
  cases parse with
  | nil => rfl
  | cons one others =>
      have read := read (by simp)
      rw [List.map_cons, joined, memberUnits] at read ⊢
      simp only [List.cons_append] at read ⊢
      rw [value_object (by decide) (by decide), read]
      rfl

theorem parse_parses {units : List Nat} {v : Json} (parses : Parses units v) : parse units = some v := by
  have read := parses.read (units.length + 1) [] (Nat.le_succ _) (fun _ => nofun)
  have start := parses_skip parses []
  rw [List.append_nil] at read start
  rw [parse, start, read]
  rfl

section

variable {p : Char → List Nat} {r : Code → List Nat}

theorem marks (delivers : Delivers p r) {c : Char} (known : c ∈ syntaxChars) (rest : List Char) :
    (c :: rest).flatMap p = c.toNat :: rest.flatMap p := by
  rw [List.flatMap_cons, delivers.marks c known, List.singleton_append]

theorem itemsText_units (delivers : Delivers p r) (items : List Json) :
    (itemsText items).flatMap p = joined 44 93 (items.map fun item => (text item).flatMap p) := by
  rw [itemsText_joined, joined_flatMap (delivers.marks ',' (by decide)) (delivers.marks ']' (by decide)), List.map_map]
  rfl

theorem memberText_units (delivers : Delivers p r) (m : List Nat × Json) :
    (memberText m).flatMap p = memberUnits ((contentText m.1).flatMap p, (text m.2).flatMap p) := by
  rw [memberText, stringText, List.flatMap_append, List.flatMap_append, marks delivers (by decide), marks delivers (by decide),
    marks delivers (by decide)]
  simp [memberUnits]

theorem membersText_units (delivers : Delivers p r) (ms : List (List Nat × Json)) :
    (membersText ms).flatMap p =
      joined 44 125 ((ms.map fun m => ((contentText m.1).flatMap p, (text m.2).flatMap p)).map memberUnits) := by
  rw [membersText_joined, joined_flatMap (delivers.marks ',' (by decide)) (delivers.marks '}' (by decide)), List.map_map,
    List.map_map]
  exact congrArg _ (List.map_congr_left fun m _ => memberText_units delivers m)

-- A text that is passed on is read as the value that is passed on.
mutual
theorem text_parses (delivers : Delivers p r) : (v : Json) → Parses ((text v).flatMap p) (rewrite r v)
  | .null => by
      rw [text, flatMap_marks delivers (Utf8.forall_checked (by decide))]
      exact parses_of (by decide) (by decide) fun _ _ _ _ => rfl
  | .bool false => by
      rw [text, if_neg (by decide), flatMap_marks delivers (Utf8.forall_checked (by decide))]
      exact parses_of (by decide) (by decide) fun _ _ _ _ => rfl
  | .bool true => by
      rw [text, if_pos rfl, flatMap_marks delivers (Utf8.forall_checked (by decide))]
      exact parses_of (by decide) (by decide) fun _ _ _ _ => rfl
  | .number numeral => by
      have known : ∀ c ∈ numberChars, c ∈ syntaxChars := Utf8.forall_checked (by decide)
      rw [text, flatMap_marks delivers fun c member => known c (numeral.chars c member)]
      exact parses_number numeral
  | .string units => by
      rw [text, stringText, List.flatMap_append, marks delivers (by decide), marks delivers (by decide)]
      exact parses_string (reads_content delivers units)
  | .array items => by
      rw [text, marks delivers (by decide), itemsText_units delivers]
      exact parses_array (items_parse delivers items)
  | .object ms => by
      rw [text, marks delivers (by decide), membersText_units delivers]
      exact parses_object (members_parse delivers ms)

theorem items_parse (delivers : Delivers p r) : (items : List Json) →
    List.Forall₂ Parses (items.map fun item => (text item).flatMap p) (rewriteItems r items)
  | [] => .nil
  | item :: rest => .cons (text_parses delivers item) (items_parse delivers rest)

theorem members_parse (delivers : Delivers p r) : (ms : List (List Nat × Json)) →
    List.Forall₂ (fun text m => Reads text.1 m.1 ∧ Parses text.2 m.2)
      (ms.map fun m => ((contentText m.1).flatMap p, (text m.2).flatMap p)) (rewriteMembers r ms)
  | [] => .nil
  | (key, field) :: rest =>
      .cons ⟨reads_content delivers key, text_parses delivers field⟩ (members_parse delivers rest)
end

end

theorem code_shown (code : Code) : ∀ c ∈ code.text, 32 ≤ c.toNat := by
  have marks : ∀ c ∈ syntaxChars, 32 ≤ c.toNat := Utf8.forall_checked (by decide)
  intro c member
  cases code with
  | lone unit => exact marks c (hexChars_marks unit c member)
  | char d =>
      unfold Code.text at member
      dsimp only at member
      split at member
      · next letter found =>
          obtain slash | rfl := List.mem_pair.mp member
          · exact marks c (slash ▸ by decide)
          · exact marks c (shortEscapes_read _ (lookup_mem found)).1
      · split at member
        · exact marks c (hexChars_marks _ c member)
        · next visible => exact List.mem_singleton.mp member ▸ Nat.not_lt.mp visible

theorem string_shown (units : List Nat) : ∀ c ∈ stringText units, 32 ≤ c.toNat := by
  unfold stringText contentText
  intro c member
  simp only [List.cons_append, List.mem_cons, List.mem_append, List.mem_flatMap, List.not_mem_nil, or_false] at member
  obtain rfl | ⟨code, -, within⟩ | rfl := member
  · decide
  · exact code_shown code c within
  · decide

-- The text of a value has no control character.
mutual
theorem text_shown : (v : Json) → ∀ c ∈ text v, 32 ≤ c.toNat
  | .null => Utf8.forall_checked (by decide)
  | .bool false => Utf8.forall_checked (by decide)
  | .bool true => Utf8.forall_checked (by decide)
  | .number numeral => fun c member =>
      have known : ∀ c ∈ numberChars, 32 ≤ c.toNat := Utf8.forall_checked (by decide)
      known c (numeral.chars c member)
  | .string units => string_shown units
  | .array items => List.forall_mem_cons.mpr ⟨by decide, items_shown items⟩
  | .object ms => List.forall_mem_cons.mpr ⟨by decide, members_shown ms⟩

theorem items_shown : (items : List Json) → ∀ c ∈ itemsText items, 32 ≤ c.toNat
  | [] => Utf8.forall_checked (by decide)
  | item :: rest => by
      rw [itemsText, List.forall_mem_append]
      refine ⟨text_shown item, ?_⟩
      split
      · exact Utf8.forall_checked (by decide)
      · exact List.forall_mem_cons.mpr ⟨by decide, items_shown rest⟩

theorem members_shown : (ms : List (List Nat × Json)) → ∀ c ∈ membersText ms, 32 ≤ c.toNat
  | [] => Utf8.forall_checked (by decide)
  | (key, field) :: rest => by
      rw [membersText, List.forall_mem_append, List.forall_mem_append, List.forall_mem_cons]
      refine ⟨⟨string_shown key, by decide, text_shown field⟩, ?_⟩
      split
      · exact Utf8.forall_checked (by decide)
      · exact List.forall_mem_cons.mpr ⟨by decide, members_shown rest⟩
end

theorem put_fresh {key : List Nat} {value : Json} {ms : List (List Nat × Json)} (fresh : key ∉ ms.map Prod.fst) :
    put key value ms = ms ++ [(key, value)] := by
  induction ms with
  | nil => rfl
  | cons member rest ih =>
      obtain ⟨name, old⟩ := member
      rw [List.map_cons, List.mem_cons, not_or] at fresh
      rw [put, if_neg fresh.1, ih fresh.2, List.cons_append]

theorem put_known {key : List Nat} {value : Json} {ms : List (List Nat × Json)} (known : key ∈ ms.map Prod.fst) :
    (put key value ms).length = ms.length := by
  induction ms with
  | nil => cases known
  | cons member rest ih =>
      obtain ⟨name, old⟩ := member
      rw [put]
      split
      · rfl
      · next other =>
          rw [List.map_cons, List.mem_cons] at known
          rw [List.length_cons, List.length_cons, ih (known.resolve_left other)]

theorem put_length (key : List Nat) (value : Json) (ms : List (List Nat × Json)) :
    (put key value ms).length ≤ ms.length + 1 := by
  by_cases known : key ∈ ms.map Prod.fst
  · rw [put_known known]
    exact Nat.le_succ _
  · rw [put_fresh known, List.length_append]
    exact Nat.le_refl _

theorem assign_length (ms more : List (List Nat × Json)) : (assign ms more).length ≤ ms.length + more.length := by
  induction more generalizing ms with
  | nil => exact Nat.le_refl _
  | cons member rest ih =>
      obtain ⟨key, value⟩ := member
      have one := put_length key value ms
      have later := ih (put key value ms)
      rw [assign, List.length_cons]
      omega

theorem assign_fresh {ms more : List (List Nat × Json)} (once : ((ms ++ more).map Prod.fst).Nodup) :
    assign ms more = ms ++ more := by
  induction more generalizing ms with
  | nil => exact (List.append_nil ms).symm
  | cons member rest ih =>
      obtain ⟨key, value⟩ := member
      have same : ms ++ (key, value) :: rest = ms ++ [(key, value)] ++ rest := by simp
      have fresh : key ∉ ms.map Prod.fst := by
        rw [List.map_append, List.map_cons, List.nodup_append] at once
        exact fun known => once.2.2 key known key List.mem_cons_self rfl
      rw [assign, put_fresh fresh, same]
      exact ih (same ▸ once)

theorem assign_all {ms more : List (List Nat × Json)} (all : (assign ms more).length = ms.length + more.length) :
    assign ms more = ms ++ more := by
  induction more generalizing ms with
  | nil => exact (List.append_nil ms).symm
  | cons member rest ih =>
      obtain ⟨key, value⟩ := member
      rw [assign, List.length_cons] at all
      by_cases known : key ∈ ms.map Prod.fst
      · have short := assign_length (put key value ms) rest
        rw [put_known known] at short
        omega
      · rw [put_fresh known] at all
        rw [assign, put_fresh known, ih (by rw [all, List.length_append, List.length_singleton]; omega), List.append_assoc]
        rfl

-- The values that JavaScript has: a string is of units of sixteen bits, and no key comes twice.
mutual
def Wf : Json → Prop
  | .string units => ∀ unit ∈ units, unit < 65536
  | .array items => WfItems items
  | .object ms => (ms.map Prod.fst).Nodup ∧ WfMembers ms
  | _ => True

def WfItems : List Json → Prop
  | [] => True
  | item :: rest => Wf item ∧ WfItems rest

def WfMembers : List (List Nat × Json) → Prop
  | [] => True
  | (key, value) :: rest => (∀ unit ∈ key, unit < 65536) ∧ Wf value ∧ WfMembers rest
end

-- Every string of the value, the keys too, is kept.
mutual
def Kept (keeps : List Nat → Prop) : Json → Prop
  | .string units => keeps units
  | .array items => KeptItems keeps items
  | .object ms => KeptMembers keeps ms
  | _ => True

def KeptItems (keeps : List Nat → Prop) : List Json → Prop
  | [] => True
  | item :: rest => Kept keeps item ∧ KeptItems keeps rest

def KeptMembers (keeps : List Nat → Prop) : List (List Nat × Json) → Prop
  | [] => True
  | (key, value) :: rest => keeps key ∧ Kept keeps value ∧ KeptMembers keeps rest
end

theorem rewriteMembers_length (r : Code → List Nat) (ms : List (List Nat × Json)) : (rewriteMembers r ms).length = ms.length := by
  induction ms with
  | nil => rfl
  | cons member rest ih =>
      obtain ⟨key, value⟩ := member
      rw [rewriteMembers, List.length_cons, List.length_cons, ih]

mutual
theorem rewrite_same_iff (r : Code → List Nat) : (v : Json) → Wf v →
    (rewrite r v = v ↔ Kept (fun units => (codePoints units).flatMap r = units) v)
  | .null, _ => iff_of_true rfl trivial
  | .bool _, _ => iff_of_true rfl trivial
  | .number _, _ => iff_of_true rfl trivial
  | .string units, _ => by rw [rewrite, Kept, Json.string.injEq]
  | .array items, wf => by
      rw [rewrite, Kept, Json.array.injEq]
      exact rewriteItems_same_iff r items wf
  | .object ms, wf => by
      have members := rewriteMembers_same_iff r ms wf.2
      rw [rewrite, Kept, Json.object.injEq, ← members]
      constructor
      · intro same
        have all : (assign [] (rewriteMembers r ms)).length = ([] : List (List Nat × Json)).length + (rewriteMembers r ms).length := by
          rw [same, rewriteMembers_length, List.length_nil, Nat.zero_add]
        exact (assign_all all).symm.trans same
      · intro same
        have once : (([] ++ ms).map Prod.fst).Nodup := wf.1
        rw [same, assign_fresh once]
        rfl

theorem rewriteItems_same_iff (r : Code → List Nat) : (items : List Json) → WfItems items →
    (rewriteItems r items = items ↔ KeptItems (fun units => (codePoints units).flatMap r = units) items)
  | [], _ => iff_of_true rfl trivial
  | item :: rest, wf => by
      rw [rewriteItems, KeptItems, List.cons.injEq, rewrite_same_iff r item wf.1, rewriteItems_same_iff r rest wf.2]

theorem rewriteMembers_same_iff (r : Code → List Nat) : (ms : List (List Nat × Json)) → WfMembers ms →
    (rewriteMembers r ms = ms ↔ KeptMembers (fun units => (codePoints units).flatMap r = units) ms)
  | [], _ => iff_of_true rfl trivial
  | (key, value) :: rest, wf => by
      rw [rewriteMembers, KeptMembers, List.cons.injEq, Prod.mk.injEq, rewrite_same_iff r value wf.2.1,
        rewriteMembers_same_iff r rest wf.2.2, and_assoc]
end

theorem toNat_ofNat {code : Nat} (valid : code < 0xD800 ∨ 0xDFFF < code ∧ code < 0x110000) : (Char.ofNat code).toNat = code := by
  have proper : code.isValidChar := valid
  rw [Char.ofNat, dif_pos proper]
  rfl

theorem single_units {unit : Nat} (fits : unit < 65536) : (single unit).units = [unit] := by
  unfold single
  split
  · rfl
  · next other =>
      simp only [high, low, Bool.or_eq_true, Bool.and_eq_true, decide_eq_true_eq, not_or, not_and] at other
      rw [Code.units, toNat_ofNat (by omega), utf16, if_pos fits]

theorem codePoints_units (units : List Nat) (fit : ∀ unit ∈ units, unit < 65536) :
    (codePoints units).flatMap Code.units = units := by
  induction units using codePoints.induct with
  | case1 => rfl
  | case2 unit => exact (List.flatMap_singleton _ _).trans (single_units (fit unit (.head _)))
  | case3 unit next rest pair ih =>
      have both := pair
      simp only [high, low, Bool.and_eq_true, decide_eq_true_eq] at both
      have later := ih fun other member => fit other (.tail _ (.tail _ member))
      rw [codePoints, if_pos pair, List.flatMap_cons, later, Code.units, toNat_ofNat (by omega), utf16, if_neg (by omega)]
      have first : 55296 + ((unit - 0xD800) * 1024 + (next - 0xDC00) + 65536 - 65536) / 1024 = unit := by omega
      have second : 56320 + ((unit - 0xD800) * 1024 + (next - 0xDC00) + 65536 - 65536) % 1024 = next := by omega
      rw [first, second]
      rfl
  | case4 unit next rest apart ih =>
      have later := ih fun other member => fit other (.tail _ member)
      rw [codePoints, if_neg apart, List.flatMap_cons, later, single_units (fit unit (.head _))]
      rfl

theorem raw_apart {c : Char} (raw : Raw c) : 32 ≤ c.toNat ∧ c.toNat ≠ 34 ∧ c.toNat ≠ 92 := by
  refine ⟨raw.2, fun same => ?_, fun same => ?_⟩
  · have quote : c = '"' := Char.toNat_inj.mp same
    exact absurd (quote ▸ raw.1) (by decide)
  · have slash : c = '\\' := Char.toNat_inj.mp same
    exact absurd (slash ▸ raw.1) (by decide)

theorem reads_utf16 {c : Char} (raw : Raw c) : Reads (utf16 c.toNat) (utf16 c.toNat) := by
  have apart := raw_apart raw
  refine reads_units fun unit member => ?_
  unfold utf16 at member
  split at member
  · exact List.mem_singleton.mp member ▸ apart
  · simp only [List.mem_cons, List.not_mem_nil, or_false] at member
    omega

theorem escaped_small {c : Char} (escaped : ¬ Raw c) : c.toNat < 128 := by
  by_contra large
  refine escaped ⟨?_, by omega⟩
  cases found : shortEscapes.lookup c with
  | none => rfl
  | some letter =>
      have small : ∀ pair ∈ shortEscapes, pair.1.toNat < 128 := by decide
      exact absurd (small _ (lookup_mem found)) large

theorem delivers_utf16 : Delivers (fun c => utf16 c.toNat) Code.units where
  shown c := by
    unfold utf16
    split <;> simp
  marks := Utf8.forall_checked (by decide)
  raw c raw := reads_utf16 raw
  escaped c escaped := if_pos (Nat.lt_trans (escaped_small escaped) (by decide))
  lone unit := rfl

mutual
theorem kept_of {keeps : List Nat → Prop} (all : ∀ units, (∀ unit ∈ units, unit < 65536) → keeps units) :
    (v : Json) → Wf v → Kept keeps v
  | .null, _ => trivial
  | .bool _, _ => trivial
  | .number _, _ => trivial
  | .string units, wf => all units wf
  | .array items, wf => keptItems_of all items wf
  | .object ms, wf => keptMembers_of all ms wf.2

theorem keptItems_of {keeps : List Nat → Prop} (all : ∀ units, (∀ unit ∈ units, unit < 65536) → keeps units) :
    (items : List Json) → WfItems items → KeptItems keeps items
  | [], _ => trivial
  | item :: rest, wf => ⟨kept_of all item wf.1, keptItems_of all rest wf.2⟩

theorem keptMembers_of {keeps : List Nat → Prop} (all : ∀ units, (∀ unit ∈ units, unit < 65536) → keeps units) :
    (ms : List (List Nat × Json)) → WfMembers ms → KeptMembers keeps ms
  | [], _ => trivial
  | (key, value) :: rest, wf => ⟨all key wf.1, kept_of all value wf.2.1, keptMembers_of all rest wf.2.2⟩
end

mutual
theorem kept_congr {keeps other : List Nat → Prop}
    (same : ∀ units, (∀ unit ∈ units, unit < 65536) → (keeps units ↔ other units)) :
    (v : Json) → Wf v → (Kept keeps v ↔ Kept other v)
  | .null, _ => Iff.rfl
  | .bool _, _ => Iff.rfl
  | .number _, _ => Iff.rfl
  | .string units, wf => same units wf
  | .array items, wf => keptItems_congr same items wf
  | .object ms, wf => keptMembers_congr same ms wf.2

theorem keptItems_congr {keeps other : List Nat → Prop}
    (same : ∀ units, (∀ unit ∈ units, unit < 65536) → (keeps units ↔ other units)) :
    (items : List Json) → WfItems items → (KeptItems keeps items ↔ KeptItems other items)
  | [], _ => Iff.rfl
  | item :: rest, wf => and_congr (kept_congr same item wf.1) (keptItems_congr same rest wf.2)

theorem keptMembers_congr {keeps other : List Nat → Prop}
    (same : ∀ units, (∀ unit ∈ units, unit < 65536) → (keeps units ↔ other units)) :
    (ms : List (List Nat × Json)) → WfMembers ms → (KeptMembers keeps ms ↔ KeptMembers other ms)
  | [], _ => Iff.rfl
  | (key, value) :: rest, wf =>
      and_congr (same key wf.1) (and_congr (kept_congr same value wf.2.1) (keptMembers_congr same rest wf.2.2))
end

theorem parse_stringify (v : Json) (wf : Wf v) : parse ((text v).flatMap fun c => utf16 c.toNat) = some v := by
  rw [parse_parses (text_parses delivers_utf16 v), (rewrite_same_iff Code.units v wf).mpr (kept_of codePoints_units v wf)]

end EcmaJson
