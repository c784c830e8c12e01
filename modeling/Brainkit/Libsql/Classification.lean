import Brainkit.Library.Trim
import Brainkit.Libsql.Server

set_option autoImplicit false

namespace Brainkit.Libsql

open GoText

-- A rune that strings.ToUpper takes to the letter: the letter, or one of the two letters outside ASCII whose upper case
-- is in it, the long s and the dotless i. What is left of the text behind it.
def upperRune (letter : UInt8) (text : GoString) : Option GoString :=
  match text with
  | [] => none
  | byte :: rest =>
      if upper byte = letter then some rest
      else if letter = 83 ∧ text.take 2 = [0xC5, 0xBF] then some (rest.drop 1)
      else if letter = 73 ∧ text.take 2 = [0xC4, 0xB1] then some (rest.drop 1)
      else none

-- strings.HasPrefix(strings.ToUpper(text), word)
def upperPrefix (text : GoString) : GoString → Bool
  | [] => true
  | letter :: word => match upperRune letter text with
      | some rest => upperPrefix rest word
      | none => false

def queries : List GoString := [lit "SELECT", lit "PRAGMA", lit "EXPLAIN", lit "WITH"]

def isQuery : GoString → Bool
  | [] => false
  | c :: rest =>
      if c = 32 || c = 9 || c = 10 || c = 13 then isQuery rest
      else queries.any (upperPrefix (c :: rest))

-- How the tokenizer of SQLite reads the start of a text that does not open with a comment: a white space token, then the
-- bytes of a word.
def isBlank (byte : UInt8) : Bool := (9 ≤ byte && byte ≤ 13) || byte = 32

def skipBlank : GoString → GoString
  | [] => []
  | byte :: rest => if isBlank byte && byte ≠ 11 then rest.dropWhile isBlank else byte :: rest

def isIdChar (byte : UInt8) : Bool :=
  (48 ≤ byte && byte ≤ 57) || (65 ≤ byte && byte ≤ 90) || (97 ≤ byte && byte ≤ 122) || byte = 95 || byte = 36 ||
    128 ≤ byte

def firstWord (text : GoString) : GoString := (text.takeWhile isIdChar).map upper

def opening (text : GoString) : GoString := firstWord (skipBlank text)

-- The first byte of a comment, an empty statement or a byte order mark: SQLite goes on to what stands behind it.
def isPassedOver (byte : UInt8) : Bool := byte = 45 || byte = 47 || byte = 59 || byte = 0xEF

def passesOver (text : GoString) : Bool := (skipBlank text).head?.any isPassedOver

def statements : List GoString := [lit "ALTER", lit "ANALYZE", lit "ATTACH", lit "BEGIN", lit "COMMIT", lit "CREATE",
  lit "DELETE", lit "DETACH", lit "DROP", lit "END", lit "EXPLAIN", lit "INSERT", lit "PRAGMA", lit "REINDEX",
  lit "RELEASE", lit "REPLACE", lit "ROLLBACK", lit "SAVEPOINT", lit "SELECT", lit "UPDATE", lit "VACUUM", lit "VALUES",
  lit "WITH"]

-- What SQLite makes of a text: whether it is a single statement, whether running it modifies the database, and whether
-- it has rows to return.
structure Sqlite where
  single : GoString → Prop
  modifies : GoString → Prop
  returnsRows : GoString → Prop

-- A text that opens with none of the words is refused, if there is anything in it; a single SELECT or EXPLAIN only reads.
structure Sqlite.Documented (sql : Sqlite) : Prop where
  refused : ∀ text, passesOver text = false → opening text ∉ statements → ¬ sql.modifies text ∧ ¬ sql.returnsRows text
  reads : ∀ text, sql.single text → opening text ∈ [lit "SELECT", lit "EXPLAIN"] → ¬ sql.modifies text

theorem upper_capital {byte letter : UInt8} (capital : 65 ≤ letter.toNat ∧ letter.toNat ≤ 90) (same : upper byte = letter) :
    isIdChar byte = true ∧ byte.toNat < 128 ∧ 65 ≤ byte.toNat := by
  subst same
  unfold upper at capital
  unfold isIdChar
  split at capital
  next lower =>
    simp only [UInt8.le_iff_toNat_le, UInt8.reduceToNat, Bool.and_eq_true, decide_eq_true_eq] at lower
    simp only [UInt8.le_iff_toNat_le, UInt8.reduceToNat, Bool.or_eq_true, Bool.and_eq_true, decide_eq_true_eq]
    omega
  next =>
    simp only [UInt8.le_iff_toNat_le, UInt8.reduceToNat, Bool.or_eq_true, Bool.and_eq_true, decide_eq_true_eq]
    omega

theorem upper_high {byte : UInt8} (high : 128 ≤ byte.toNat) : 128 ≤ (upper byte).toNat := by
  unfold upper
  split
  next lower =>
    simp only [UInt8.le_iff_toNat_le, UInt8.reduceToNat, Bool.and_eq_true, decide_eq_true_eq] at lower
    omega
  next => exact high

theorem high_id_char {byte : UInt8} (high : 128 ≤ byte.toNat) : isIdChar byte = true := by
  simp [isIdChar, UInt8.le_iff_toNat_le, high]

theorem capitals : ∀ word ∈ queries, ∀ letter ∈ word, 65 ≤ letter.toNat ∧ letter.toNat ≤ 90 := by
  have all : ∀ letter ∈ queries.flatten, 65 ≤ letter.toNat ∧ letter.toNat ≤ 90 := Utf8.forall_checked (by decide)
  exact fun word listed letter member => all letter (List.mem_flatten.mpr ⟨word, listed, member⟩)

theorem statements_low : ∀ word ∈ statements, ∀ letter ∈ word, letter.toNat < 128 := by
  have all : ∀ letter ∈ statements.flatten, letter.toNat < 128 := Utf8.forall_checked (by decide)
  exact fun word listed letter member => all letter (List.mem_flatten.mpr ⟨word, listed, member⟩)

theorem queries_apart : ∀ word ∈ queries, ∀ other ∈ statements, word <+: other → word = other := by decide

theorem skipBlank_head (text : GoString) : ∀ byte ∈ (skipBlank text).head?, isBlank byte = true → byte = 11 := by
  intro byte head blank
  cases text with
  | nil => cases head
  | cons first rest =>
      rw [skipBlank] at head
      split at head
      · have stops := List.head?_dropWhile_not isBlank rest
        rw [head] at stops
        rw [stops] at blank
        cases blank
      next kept =>
        obtain rfl : first = byte := by simpa using head
        simpa [blank] using kept

theorem blank_space {byte : UInt8} (blank : isBlank byte = true) : byte.toNat < 128 ∧ isSpace byte.toNat = true := by
  simp only [isBlank, UInt8.le_iff_toNat_le, UInt8.reduceToNat, Bool.or_eq_true, Bool.and_eq_true, decide_eq_true_eq] at blank
  rcases blank with range | rfl
  · exact ⟨by omega, by simp [isSpace, range]⟩
  · decide

theorem trimLeft_dropWhile (text : GoString) : trimLeftFrom 0 (text.dropWhile isBlank) = trimLeftFrom 0 text := by
  induction text with
  | nil => rfl
  | cons byte rest ih =>
      by_cases blank : isBlank byte = true
      · rw [List.dropWhile_cons_of_pos blank, ih, trimLeft_space (blank_space blank).1 (blank_space blank).2]
      · rw [List.dropWhile_cons_of_neg blank]

theorem trimLeft_skipBlank (text : GoString) : trimLeftFrom 0 (skipBlank text) = trimLeftFrom 0 text := by
  cases text with
  | nil => rfl
  | cons byte rest =>
      rw [skipBlank]
      split
      next blank =>
        have blank : isBlank byte = true := (Bool.and_eq_true_iff.mp blank).1
        rw [trimLeft_dropWhile, trimLeft_space (blank_space blank).1 (blank_space blank).2]
      next => rfl

theorem space_head {byte : UInt8} {rest : GoString} {code width : Nat}
    (decoded : Utf8.decodeRune (byte :: rest) = some (code, width)) (space : isSpace code = true)
    (stopped : isBlank byte = true → byte = 11) : byte = 11 ∨ 128 ≤ byte.toNat ∧ byte ≠ 0xEF := by
  rcases decodeRune_cases decoded with ⟨_, _, same, low, rfl, _⟩ | ⟨_, _, high⟩
  · cases same
    left
    apply stopped
    simp only [isSpace, Bool.or_eq_true, Bool.and_eq_true, decide_eq_true_eq] at space
    simp only [isBlank, UInt8.le_iff_toNat_le, UInt8.reduceToNat, Bool.or_eq_true, Bool.and_eq_true, decide_eq_true_eq,
      ← UInt8.toNat_inj]
    omega
  · right
    refine ⟨high byte ?_, ?_⟩
    · cases width with
      | zero => omega
      | succ width => exact List.mem_cons_self
    · rintro rfl
      rcases rest with _ | ⟨b, _ | ⟨c, rest⟩⟩
      · cases decoded
      · cases decoded
      · simp only [Utf8.decodeRune] at decoded
        obtain ⟨_, same⟩ := Option.ite_none_right_eq_some.mp decoded
        cases same
        simp [isSpace] at space
        omega

theorem upperRune_cases {letter byte : UInt8} {rest left : GoString} (found : upperRune letter (byte :: rest) = some left) :
    upper byte = letter ∧ left = rest ∨ byte = 0xC5 ∨ byte = 0xC4 := by
  simp only [upperRune] at found
  split at found
  next same => exact .inl ⟨same, (Option.some.inj found).symm⟩
  next =>
    split at found
    next long => exact .inr (.inl (List.cons.inj long.2).1)
    next => exact .inr (.inr (List.cons.inj (Option.ite_none_right_eq_some.mp found).1.2).1)

theorem upperRune_append {letter : UInt8} {text left : GoString} (found : upperRune letter text = some left) (back : GoString) :
    upperRune letter (text ++ back) = some (left ++ back) := by
  rcases text with _ | ⟨byte, _ | ⟨second, rest⟩⟩
  · cases found
  · simp only [upperRune, List.cons_append] at found ⊢
    split at found
    next same =>
      cases found
      rw [if_pos same, List.nil_append]
    next => simp at found
  · simp only [upperRune, List.cons_append, List.take_succ_cons, List.take_zero, List.drop_succ_cons,
      List.drop_zero] at found ⊢
    split at found
    next same =>
      cases found
      rw [if_pos same, List.cons_append]
    next different =>
      rw [if_neg different]
      split at found
      next long =>
        cases found
        rw [if_pos long]
      next short =>
        obtain ⟨dotless, same⟩ := Option.ite_none_right_eq_some.mp found
        cases same
        rw [if_neg short, if_pos dotless]

theorem upperPrefix_append {text word : GoString} (starts : upperPrefix text word = true) (back : GoString) :
    upperPrefix (text ++ back) word = true := by
  induction word generalizing text with
  | nil => rfl
  | cons letter word ih =>
      rw [upperPrefix] at starts ⊢
      split at starts
      next rest found =>
        rw [upperRune_append found]
        exact ih starts
      next => cases starts

theorem upperPrefix_word {text word : GoString} (letters : ∀ letter ∈ word, 65 ≤ letter.toNat ∧ letter.toNat ≤ 90)
    (starts : upperPrefix text word = true) :
    word <+: firstWord text ∨ ∃ byte ∈ firstWord text, 128 ≤ byte.toNat := by
  unfold firstWord
  induction word generalizing text with
  | nil => exact .inl (List.nil_prefix)
  | cons letter word ih =>
      have capital := letters letter List.mem_cons_self
      rcases text with _ | ⟨byte, rest⟩
      · cases starts
      · rw [upperPrefix] at starts
        split at starts
        next left found =>
          rcases upperRune_cases found with ⟨same, rfl⟩ | outside
          · rw [List.takeWhile_cons_of_pos (upper_capital capital same).1, List.map_cons, same]
            have others := fun other member => letters other (List.mem_cons_of_mem letter member)
            rcases ih others starts with plain | ⟨other, member, high⟩
            · exact .inl (List.cons_prefix_cons.mpr ⟨rfl, plain⟩)
            · exact .inr ⟨other, List.mem_cons_of_mem _ member, high⟩
          · right
            have high : 128 ≤ byte.toNat := by rcases outside with rfl | rfl <;> decide
            rw [List.takeWhile_cons_of_pos (high_id_char high), List.map_cons]
            exact ⟨upper byte, List.mem_cons_self, upper_high high⟩
        next => cases starts

theorem high_not_statement {word : GoString} (outside : ∃ byte ∈ word, 128 ≤ byte.toNat) : word ∉ statements := by
  intro member
  obtain ⟨byte, inside, high⟩ := outside
  have low := statements_low word member byte inside
  omega

theorem high_first_word {byte : UInt8} (high : 128 ≤ byte.toNat) (rest : GoString) :
    firstWord (byte :: rest) ∉ statements := by
  apply high_not_statement
  rw [firstWord, List.takeWhile_cons_of_pos (high_id_char high), List.map_cons]
  exact ⟨upper byte, List.mem_cons_self, upper_high high⟩

theorem starts_first_word {text word : GoString} (member : word ∈ queries) (starts : upperPrefix text word = true) :
    firstWord text ∈ queries ∨ firstWord text ∉ statements := by
  rcases upperPrefix_word (capitals word member) starts with plain | outside
  · by_cases known : firstWord text ∈ statements
    · exact .inl (queries_apart word member _ known plain ▸ member)
    · exact .inr known
  · exact .inr (high_not_statement outside)

theorem starts_not_passed {text word : GoString} (member : word ∈ queries) (starts : upperPrefix text word = true) :
    text.head?.any isPassedOver = false := by
  rcases word with _ | ⟨letter, word⟩
  · exact absurd member (by decide)
  · rcases text with _ | ⟨byte, rest⟩
    · rfl
    · rw [upperPrefix] at starts
      split at starts
      next found =>
        rcases upperRune_cases found with ⟨same, _⟩ | rfl | rfl
        · have bounds := upper_capital (capitals _ member letter List.mem_cons_self) same
          simp only [List.head?_cons, Option.any_some, isPassedOver, Bool.or_eq_false_iff, decide_eq_false_iff_not]
          refine ⟨⟨⟨?_, ?_⟩, ?_⟩, ?_⟩ <;> rintro rfl <;> revert bounds <;> decide
        · rfl
        · rfl
      next => cases starts

theorem query_opening {text : GoString} (query : isQuery (trimSpace text) = true) :
    passesOver text = false ∧ (opening text ∈ queries ∨ opening text ∉ statements) := by
  have front := trimSpace_prefix text
  rw [← trimLeft_skipBlank] at front
  have head := skipBlank_head text
  unfold passesOver opening
  generalize skipBlank text = left at front head ⊢
  rcases left with _ | ⟨byte, rest⟩
  · have empty : trimSpace text = [] := List.prefix_nil.mp front
    rw [empty] at query
    cases query
  · have stopped : isBlank byte = true → byte = 11 := head byte rfl
    by_cases spaced : ∃ code width, Utf8.decodeRune (byte :: rest) = some (code, width) ∧ isSpace code = true
    · obtain ⟨code, width, decoded, space⟩ := spaced
      rcases space_head decoded space stopped with rfl | ⟨high, other⟩
      · exact ⟨rfl, .inr (by rw [firstWord, List.takeWhile_cons_of_neg (by decide)]; decide)⟩
      · refine ⟨?_, .inr (high_first_word high rest)⟩
        simp only [List.head?_cons, Option.any_some, isPassedOver, Bool.or_eq_false_iff, decide_eq_false_iff_not]
        refine ⟨⟨⟨?_, ?_⟩, ?_⟩, other⟩ <;> rintro rfl <;> revert high <;> decide
    · have stops : trimLeftFrom 0 (byte :: rest) = byte :: rest := by
        apply trimLeft_stops
        intro code width decoded
        by_contra space
        exact spaced ⟨code, width, decoded, by simpa using space⟩
      rw [stops] at front
      obtain ⟨back, same⟩ := front
      generalize trimSpace text = trimmed at query same
      rcases trimmed with _ | ⟨first, trimmed⟩
      · cases query
      · obtain ⟨rfl, rfl⟩ := List.cons.inj same
        have notBlank : ¬ (first = 32 || first = 9 || first = 10 || first = 13) = true := by
          intro blank
          simp only [Bool.or_eq_true, decide_eq_true_eq] at blank
          rcases blank with ((rfl | rfl) | rfl) | rfl <;> exact absurd (stopped rfl) (by decide)
        rw [isQuery, if_neg notBlank, List.any_eq_true] at query
        obtain ⟨word, member, starts⟩ := query
        have starts := upperPrefix_append starts back
        exact ⟨starts_not_passed member starts, starts_first_word member starts⟩

theorem upperPrefix_upper (word back : GoString) : upperPrefix (word ++ back) (word.map upper) = true := by
  induction word with
  | nil => rfl
  | cons byte word ih => simpa [upperPrefix, upperRune] using ih

def commands : List GoString := [lit "BEGIN", lit "COMMIT", lit "END", lit "ROLLBACK"]

theorem commands_apart : ∀ word ∈ queries, ∀ cmd ∈ commands,
    word.take 2 ≠ (cmd.map upper).take 2 ∧ 2 ≤ cmd.length ∧ 2 ≤ word.length := by decide

theorem not_command {word back cmd : GoString} (query : word.map upper ∈ queries) (member : cmd ∈ commands) :
    isCmd (word ++ back) cmd = false := by
  obtain ⟨apart, long, wide⟩ := commands_apart _ query cmd member
  rw [List.length_map] at wide
  unfold isCmd
  split
  · rfl
  · rw [if_pos]
    simp only [equalFold, Bool.not_eq_true', decide_eq_false_iff_not]
    intro same
    have short := congrArg (List.take 2) same
    rw [← List.map_take, List.take_take, Nat.min_eq_left long, List.take_append_of_le_length wide, List.map_take] at short
    exact apart short

theorem opening_query {text : GoString} (opens : opening text ∈ queries) :
    command (trimSpace text) = .statement ∧ isQuery (trimSpace text) = true := by
  have left := trimLeft_skipBlank text
  unfold opening firstWord at opens
  generalize skipBlank text = skipped at left opens
  have reads := List.takeWhile_prefix isIdChar (l := skipped)
  generalize skipped.takeWhile isIdChar = word at opens reads
  have letters : ∀ byte ∈ word, byte.toNat < 128 ∧ 65 ≤ byte.toNat := fun byte member =>
    (upper_capital (capitals _ opens _ (List.mem_map_of_mem member)) rfl).2
  have solid : ∀ byte ∈ word, Solid byte := by
    intro byte member
    have bounds := letters byte member
    refine ⟨bounds.1, ?_⟩
    simp only [isSpace, Bool.or_eq_false_iff, Bool.and_eq_false_iff, decide_eq_false_iff_not]
    omega
  obtain ⟨back, rfl⟩ := reads
  rcases word with _ | ⟨first, rest⟩
  · exact absurd opens (by decide)
  · have head := solid first List.mem_cons_self
    have stops : trimLeftFrom 0 (first :: rest ++ back) = first :: rest ++ back := by
      apply trimLeft_stops
      intro code width decoded
      rw [List.cons_append, decodeRune_low head.1] at decoded
      cases decoded
      exact head.2
    rw [stops] at left
    have nonempty : first :: rest ≠ [] := List.cons_ne_nil _ _
    have last := solid _ (List.getLast_mem nonempty)
    have kept : first :: rest <+: trimSpace text := by
      have split := List.dropLast_append_getLast nonempty
      rw [← split]
      apply trimSpace_keeps last
      rw [split, ← left]
      exact List.prefix_append _ _
    obtain ⟨after, trimmed⟩ := kept
    rw [← trimmed]
    constructor
    · have none : ∀ cmd ∈ commands, isCmd (first :: rest ++ after) cmd = false := fun cmd => not_command opens
      unfold command
      rw [none (lit "BEGIN") (by decide), none (lit "COMMIT") (by decide), none (lit "END") (by decide),
        none (lit "ROLLBACK") (by decide)]
      simp
    · have bounds := letters first List.mem_cons_self
      have notBlank : ¬ (first = 32 || first = 9 || first = 10 || first = 13) = true := by
        intro blank
        simp only [Bool.or_eq_true, decide_eq_true_eq] at blank
        rcases blank with ((rfl | rfl) | rfl) | rfl <;> revert bounds <;> decide
      rw [List.cons_append, isQuery, if_neg notBlank, List.any_eq_true]
      exact ⟨_, opens, upperPrefix_upper (first :: rest) after⟩

end Brainkit.Libsql
