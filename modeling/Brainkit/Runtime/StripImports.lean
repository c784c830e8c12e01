import Brainkit.Library.EcmaNesting
import Brainkit.Library.Regex

set_option autoImplicit false

-- stripESImports of deployment.go and NormalizeJSArtifact of the esbuild bundler.
namespace Brainkit.Runtime.StripImports

open Ecma Regex Re

def white (c : Char) : Bool := c ∈ ['\t', '\n', '\x0c', '\r', ' ']

def word (c : Char) : Bool := c.isAlphanum || c == '_'

def braces : Re := seq (text ['{']) (seq (many (· != '}')) (text ['}']))

def starAs : Re := seq (text ['*']) (seq (plus white) (seq (text ['a', 's']) (seq (plus white) (plus word))))

def fromRe : Re :=
  seq (plus white) (seq (text ['f', 'r', 'o', 'm']) (seq (plus white) (seq (text ['"']) (seq (plus (· != '"'))
    (seq (text ['"', ';']) (seq (many white) (optional (text ['\n']))))))))

def esImportRe : Re :=
  seq (text ['i', 'm', 'p', 'o', 'r', 't']) (seq (plus white) (seq (optional (seq (text ['t', 'y', 'p', 'e']) (plus white)))
    (seq (alt braces (alt starAs (plus fun c => !white c))) fromRe)))

def stripESImports (js : List Char) : List Char := removeLines esImportRe 0 true js

def normalizeJSArtifact (code : List Char) : List Char := removeLines esImportRe 0 true code

-- The import declarations of a module. Gaps are white space and comments.
inductive Clause where
  | default (name : List Char)
  | star (before after : List Element) (name : List Char)
  | named (specifiers : List Element)
  | mixed (name : List Char) (gap : List Element) (second : Clause)

def codeOf (chars : List Char) : List Element := chars.map .code

def Clause.elements : Clause → List Element
  | default name => codeOf name
  | star before after name => .code '*' :: before ++ codeOf ['a', 's'] ++ after ++ codeOf name
  | named specifiers => .code '{' :: specifiers ++ [.code '}']
  | mixed name gap second => codeOf name ++ .code ',' :: gap ++ second.elements

-- Without a clause the import is for its side effects.
structure Declaration where
  clause : Option (List Element × Clause × List Element)
  gap : List Element
  quote : Quote
  specifier : List Item
  semicolon : Bool

def Declaration.elements (d : Declaration) : List Element :=
  codeOf ['i', 'm', 'p', 'o', 'r', 't'] ++
    (match d.clause with
      | some (before, clause, after) => before ++ clause.elements ++ after ++ codeOf ['f', 'r', 'o', 'm']
      | none => []) ++
    d.gap ++ [.string d.quote d.specifier] ++ if d.semicolon then [.code ';'] else []

def whiteSpace : List Char := ['\t', '\x0b', '\x0c', ' ', '\u00a0', '\ufeff'] ++ lineTerminators

def Blank : Element → Prop
  | .code c => c ∈ whiteSpace
  | .lineComment _ _ => True
  | .blockComment _ => True
  | _ => False

def nameChar (c : Char) : Bool := c.isAlphanum || c == '_' || c == '$' || (128 ≤ c.toNat && c ∉ whiteSpace)

def Name (name : List Char) : Prop := name ≠ [] ∧ ∀ c ∈ name, nameChar c = true

def Clause.Wf : Clause → Prop
  | default name => Name name
  | star before after name => (∀ e ∈ before ++ after, Blank e) ∧ Name name
  | named specifiers => ∀ e ∈ specifiers,
      Blank e ∨ (∃ c, e = .code c ∧ (nameChar c = true ∨ c = ',')) ∨ ∃ quote items, e = .string quote items
  | mixed name gap second => Name name ∧ (∀ e ∈ gap, Blank e) ∧ second.Wf

def Declaration.Wf (d : Declaration) : Prop :=
  (∀ e ∈ d.gap, Blank e) ∧ ∀ before clause after, d.clause = some (before, clause, after) →
    (∀ e ∈ before ++ after, Blank e) ∧ clause.Wf

inductive Part where
  | declaration (d : Declaration)
  | element (e : Element)

def Part.elements : Part → List Element
  | declaration d => d.elements
  | element e => [e]

def elementsOf (parts : List Part) : List Element := parts.flatMap Part.elements

def textOf (parts : List Part) : List Char := programText (elementsOf parts)

-- A module with its import declarations, which stand outside of all brackets.
structure Program where
  parts : List Part
  lexed : Lexed (elementsOf parts)
  declared : ∀ d, .declaration d ∈ parts → d.Wf
  top : ∀ before d after, parts = before ++ .declaration d :: after → Nested (elementsOf before)

def others (parts : List Part) : List Char :=
  parts.flatMap fun
    | .declaration _ => []
    | .element e => e.text

-- The text without the declarations and the white space directly after each. The first argument tells whether only that
-- has been read since a declaration.
def remaining : Bool → List Part → List Char
  | _, [] => []
  | _, .declaration _ :: rest => remaining true rest
  | true, .element (.code c) :: rest => if white c then remaining true rest else c :: remaining false rest
  | _, .element e :: rest => e.text ++ remaining false rest

def Spaces (gap : List Element) : Prop := gap ≠ [] ∧ ∀ e ∈ gap, ∃ c, e = .code c ∧ white c = true

def Clause.Strippable : Clause → Prop
  | default _ => True
  | star before after name => Spaces before ∧ Spaces after ∧ ∀ c ∈ name, word c = true
  | named specifiers => '}' ∉ programText specifiers
  | mixed name gap second => ∀ c ∈ programText (mixed name gap second).elements, white c = false

def Declaration.Strippable (d : Declaration) : Prop :=
  (∃ before clause after, d.clause = some (before, clause, after) ∧ Spaces before ∧ clause.Strippable ∧ Spaces after) ∧
  Spaces d.gap ∧ d.quote = .double ∧ itemsText d.specifier ≠ [] ∧ '"' ∉ itemsText d.specifier ∧ d.semicolon = true

-- Every declaration begins a line and is of a form that the expression has, and the expression matches at no other
-- beginning of a line.
def Strippable : Bool → List Part → Prop
  | _, [] => True
  | line, .declaration d :: rest => line = true ∧ d.Strippable ∧ Strippable false rest
  | line, .element e :: rest =>
      (∀ before after, e.text = before ++ after → after ≠ [] → lineAfter line before = true →
        ¬ esImportRe.MatchesAt (after ++ textOf rest)) ∧
      Strippable (lineAfter line e.text) rest

-- Reading a declaration

section

variable {t : List Char} {chars : List Char}

theorem white_name {c : Char} (named : nameChar c = true) : white c = false := by
  rw [Bool.eq_false_iff]
  intro space
  simp only [white, List.mem_cons, List.not_mem_nil, or_false, decide_eq_true_eq] at space
  rcases space with rfl | rfl | rfl | rfl | rfl <;> exact absurd named (by decide)

theorem clauseRe_nonspace {α : Type} {continues : List Char → Option α} {value : α} (present : chars ≠ [])
    (head : ∀ c ∈ chars.head?, c ≠ '{' ∧ c ≠ '*') (all : ∀ c ∈ chars, white c = false)
    (spaced : ∀ c ∈ t.head?, white c = true)
    (goes : continues t = some value) :
    (alt braces (alt starAs (plus fun c => !white c))).next continues (chars ++ t) = some value := by
  cases chars with
  | nil => exact absurd rfl present
  | cons first rest =>
      obtain ⟨noBrace, noStar⟩ := head first rfl
      have none : ∀ c, c ≠ first → ∀ re, (seq (text [c]) re).next continues (first :: rest ++ t) = Option.none := by
        intro c different re
        rw [next_seq]
        exact next_text_none _ fun starts => different (List.cons_prefix_cons.mp starts).1
      have read : (plus fun c => !white c).next continues (first :: rest ++ t) = some value := by
        refine next_plus present (fun c member => by rw [all c member]; rfl) (fun c member => ?_) goes
        rw [spaced c member]
        rfl
      rw [next_alt, next_alt, braces, starAs, none _ noBrace.symm, none _ noStar.symm, read]
      rfl

theorem spaces_chars {gap : List Element} (spaces : Spaces gap) :
    programText gap ≠ [] ∧ ∀ c ∈ programText gap, white c = true := by
  obtain ⟨present, all⟩ := spaces
  constructor
  · cases gap with
    | nil => exact absurd rfl present
    | cons e rest =>
        obtain ⟨c, rfl, -⟩ := all e List.mem_cons_self
        exact List.cons_ne_nil c (programText rest)
  · intro c member
    obtain ⟨e, inGap, here⟩ := List.mem_flatMap.mp member
    obtain ⟨d, rfl, space⟩ := all e inGap
    obtain rfl := List.mem_singleton.mp here
    exact space

theorem text_codeOf (chars : List Char) : programText (codeOf chars) = chars := by
  induction chars with
  | nil => rfl
  | cons c rest ih => exact congrArg (c :: ·) ih

theorem text_append (first second : List Element) : programText (first ++ second) = programText first ++ programText second :=
  List.flatMap_append

theorem text_cons (c : Char) (rest : List Element) : programText (.code c :: rest) = c :: programText rest := rfl

theorem head_white {gap rest : List Char} (present : gap ≠ []) (all : ∀ c ∈ gap, white c = true) :
    ∀ c ∈ (gap ++ rest).head?, white c = true := by
  cases gap with
  | nil => exact absurd rfl present
  | cons first others =>
      rintro c ⟨⟩
      exact all first List.mem_cons_self

theorem head_plain {c : Char} {rest : List Char} (plain : white c = false) : ∀ d ∈ (c :: rest).head?, white d = false := by
  rintro d ⟨⟩
  exact plain

theorem clauseRe_named {α : Type} {continues : List Char → Option α} {value : α} (unbraced : '}' ∉ chars)
    (goes : continues t = some value) :
    (alt braces (alt starAs (plus fun c => !white c))).next continues (['{'] ++ (chars ++ (['}'] ++ t))) = some value := by
  have read : braces.next continues (['{'] ++ (chars ++ (['}'] ++ t))) = some value := by
    rw [braces, next_seq, next_text, next_seq]
    refine next_many (fun c member => ?_) (by simp) ?_
    · simpa using fun same : c = '}' => unbraced (same ▸ member)
    · rw [next_text, goes]
  rw [next_alt, read]
  rfl

theorem clauseRe_star {α : Type} {continues : List Char → Option α} {value : α} {before after name : List Char}
    (beforePresent : before ≠ []) (beforeWhite : ∀ c ∈ before, white c = true) (afterPresent : after ≠ [])
    (afterWhite : ∀ c ∈ after, white c = true) (named : name ≠ []) (words : ∀ c ∈ name, word c = true)
    (spaced : ∀ c ∈ t.head?, white c = true) (goes : continues t = some value) :
    (alt braces (alt starAs (plus fun c => !white c))).next continues
      (['*'] ++ (before ++ (['a', 's'] ++ (after ++ (name ++ t))))) = some value := by
  have wordPlain : ∀ c, word c = true → white c = false := by
    intro c isWord
    rw [Bool.eq_false_iff]
    intro space
    simp only [white, List.mem_cons, List.not_mem_nil, or_false, decide_eq_true_eq] at space
    rcases space with rfl | rfl | rfl | rfl | rfl <;> exact absurd isWord (by decide)
  have read : starAs.next continues (['*'] ++ (before ++ (['a', 's'] ++ (after ++ (name ++ t))))) = some value := by
    rw [starAs, next_seq, next_text, next_seq]
    refine next_plus beforePresent beforeWhite (head_plain (by decide)) ?_
    rw [next_seq, next_text, next_seq]
    refine next_plus afterPresent afterWhite (fun c member => ?_) ?_
    · cases name with
      | nil => exact absurd rfl named
      | cons first rest =>
          obtain rfl : first = c := Option.some.inj member
          exact wordPlain first (words first List.mem_cons_self)
    · refine next_plus named words (fun c member => ?_) goes
      rw [Bool.eq_false_iff]
      intro isWord
      exact absurd (spaced c member) (by rw [wordPlain c isWord]; simp)
  have noBrace : braces.next continues (['*'] ++ (before ++ (['a', 's'] ++ (after ++ (name ++ t))))) = none := by
    rw [braces, next_seq]
    exact next_text_none _ fun starts => by simpa using (List.cons_prefix_cons.mp starts).1
  rw [next_alt, next_alt, noBrace, read]
  rfl

def fromText (after gap specifier tail : List Char) : List Char :=
  after ++ (['f', 'r', 'o', 'm'] ++ (gap ++ (['"'] ++ (specifier ++ (['"', ';'] ++ tail)))))

theorem fromRe_read {after gap specifier : List Char} (afterPresent : after ≠ []) (afterWhite : ∀ c ∈ after, white c = true)
    (gapPresent : gap ≠ []) (gapWhite : ∀ c ∈ gap, white c = true) (present : specifier ≠ []) (unquoted : '"' ∉ specifier)
    (tail : List Char) : fromRe.next some (fromText after gap specifier tail) = some (tail.dropWhile white) := by
  rw [fromRe, fromText, next_seq]
  refine next_plus afterPresent afterWhite (head_plain (by decide)) ?_
  rw [next_seq, next_text, next_seq]
  refine next_plus gapPresent gapWhite (head_plain (by decide)) ?_
  rw [next_seq, next_text, next_seq]
  refine next_plus present (fun c member => ?_) (by simp) ?_
  · simpa using fun same : c = '"' => unquoted (same ▸ member)
  rw [next_seq, next_text, next_seq]
  have whites : ∀ c ∈ tail.takeWhile white, white c = true := List.all_eq_true.mp List.all_takeWhile
  have ended : ∀ c ∈ (tail.dropWhile white).head?, white c = false := fun c member => by
    have plain := List.head?_dropWhile_not white tail
    rw [Option.mem_def.mp member] at plain
    simpa using plain
  have goes : (optional (text ['\n'])).next some (tail.dropWhile white) = some (tail.dropWhile white) := by
    rw [next_optional, next_text_none]
    · rfl
    · rintro ⟨rest, whole⟩
      have space := ended '\n' (by rw [← whole]; rfl)
      exact absurd space (by decide)
  have read := next_many whites ended goes
  rwa [List.takeWhile_append_dropWhile] at read

theorem from_unmatched {after gap specifier tail spaces rest : List Char} (afterWhite : ∀ c ∈ after, white c = true)
    (gapPresent : gap ≠ []) (gapWhite : ∀ c ∈ gap, white c = true) (spacesWhite : ∀ c ∈ spaces, white c = true)
    (same : fromText after gap specifier tail = spaces ++ rest) :
    ¬ (seq (alt braces (alt starAs (plus fun c => !white c))) fromRe).MatchesAt rest := by
  rintro ⟨found, last, rfl, clause, following, rfl, clauseTaken, fromTaken⟩
  obtain ⟨lead, fromRest, rfl, leadTaken, fromLast, more, rfl, rfl, -⟩ := fromTaken
  obtain ⟨leadPresent, leadWhite⟩ := matches_plus.mp leadTaken
  rcases clauseTaken with ⟨_, _, rfl, rfl, -⟩ | ⟨_, _, rfl, rfl, -⟩ | nonspace
  · obtain ⟨-, others⟩ := run_unique same afterWhite spacesWhite (head_plain (by decide)) (head_plain (by decide))
    exact absurd (List.cons.inj others).1 (by decide)
  · obtain ⟨-, others⟩ := run_unique same afterWhite spacesWhite (head_plain (by decide)) (head_plain (by decide))
    exact absurd (List.cons.inj others).1 (by decide)
  · obtain ⟨present, all⟩ := matches_plus.mp nonspace
    have plain : ∀ c ∈ clause, white c = false := fun c member => by simpa using all c member
    have headed : ∀ c ∈ (clause ++ (lead ++ (['f', 'r', 'o', 'm'] ++ more)) ++ last).head?, white c = false := by
      cases clause with
      | nil => exact absurd rfl present
      | cons c others => exact head_plain (plain c List.mem_cons_self)
    obtain ⟨-, others⟩ := run_unique same afterWhite spacesWhite (head_plain (by decide)) headed
    simp only [List.append_assoc] at others
    have fromPlain : ∀ c ∈ ['f', 'r', 'o', 'm'], (!white c) = true := List.all_eq_true.mp (by decide)
    have gapHead : ∀ c ∈ (gap ++ (['"'] ++ (specifier ++ (['"', ';'] ++ tail)))).head?, (!white c) = false := fun c member => by
      rw [head_white gapPresent gapWhite c member]
      rfl
    have leadHead : ∀ c ∈ (lead ++ (['f', 'r', 'o', 'm'] ++ (more ++ last))).head?, (!white c) = false := fun c member => by
      rw [head_white leadPresent leadWhite c member]
      rfl
    obtain ⟨-, following⟩ := run_unique others fromPlain all gapHead leadHead
    obtain ⟨-, quoted⟩ :=
      run_unique following gapWhite leadWhite (head_plain (by decide)) (head_plain (by decide))
    exact absurd (List.cons.inj quoted).1 (by decide)

theorem type_fails {after gap specifier tail : List Char} (all : ∀ c ∈ chars, white c = false) (afterPresent : after ≠ [])
    (afterWhite : ∀ c ∈ after, white c = true) (gapPresent : gap ≠ []) (gapWhite : ∀ c ∈ gap, white c = true) :
    (seq (text ['t', 'y', 'p', 'e']) (plus white)).next
      ((alt braces (alt starAs (plus fun c => !white c))).next (fromRe.next some))
      (chars ++ fromText after gap specifier tail) = none := by
  refine next_none fun found rest whole taken => ?_
  obtain ⟨typed, spaces, rfl, rfl, spacesTaken⟩ := taken
  obtain ⟨spacesPresent, spacesWhite⟩ := matches_plus.mp spacesTaken
  have plain : ∀ c ∈ chars, (!white c) = true := fun c member => by rw [all c member]; rfl
  have typePlain : ∀ c ∈ ['t', 'y', 'p', 'e'], (!white c) = true := List.all_eq_true.mp (by decide)
  have ended : ∀ c ∈ (fromText after gap specifier tail).head?, (!white c) = false := fun c member => by
    rw [head_white afterPresent afterWhite c member]
    rfl
  have typeEnded : ∀ c ∈ (spaces ++ rest).head?, (!white c) = false := fun c member => by
    rw [head_white spacesPresent spacesWhite c member]
    rfl
  rw [List.append_assoc] at whole
  obtain ⟨-, same⟩ := run_unique whole plain typePlain ended typeEnded
  rw [← next_seq, ← head_ends, (ends_nil_iff _ _).mpr (from_unmatched afterWhite gapPresent gapWhite spacesWhite same)]
  rfl

theorem name_head {name : List Char} (named : Name name) (rest : List Char) :
    ∀ c ∈ (name ++ rest).head?, c ≠ '{' ∧ c ≠ '*' := by
  obtain ⟨present, all⟩ := named
  cases name with
  | nil => exact absurd rfl present
  | cons first others =>
      rintro c ⟨⟩
      have isName := all first List.mem_cons_self
      constructor
      · rintro rfl
        exact absurd isName (by decide)
      · rintro rfl
        exact absurd isName (by decide)

section

variable {after gap specifier : List Char}

theorem nonspace_read (present : chars ≠ []) (head : ∀ c ∈ chars.head?, c ≠ '{' ∧ c ≠ '*')
    (all : ∀ c ∈ chars, white c = false)
    (afterPresent : after ≠ []) (afterWhite : ∀ c ∈ after, white c = true) (gapPresent : gap ≠ [])
    (gapWhite : ∀ c ∈ gap, white c = true) (specified : specifier ≠ []) (unquoted : '"' ∉ specifier) (tail : List Char) :
    (optional (seq (text ['t', 'y', 'p', 'e']) (plus white))).next
      ((alt braces (alt starAs (plus fun c => !white c))).next (fromRe.next some))
      (chars ++ fromText after gap specifier tail) = some (tail.dropWhile white) := by
  have read := fromRe_read afterPresent afterWhite gapPresent gapWhite specified unquoted tail
  have ended : ∀ c ∈ (fromText after gap specifier tail).head?, white c = true := head_white afterPresent afterWhite
  rw [next_optional, type_fails all afterPresent afterWhite gapPresent gapWhite, clauseRe_nonspace present head all ended read]
  rfl

theorem clause_read {clause : Clause} (wf : clause.Wf) (strippable : clause.Strippable)
    (afterPresent : after ≠ []) (afterWhite : ∀ c ∈ after, white c = true) (gapPresent : gap ≠ [])
    (gapWhite : ∀ c ∈ gap, white c = true) (specified : specifier ≠ []) (unquoted : '"' ∉ specifier) (tail : List Char) :
    (optional (seq (text ['t', 'y', 'p', 'e']) (plus white))).next
      ((alt braces (alt starAs (plus fun c => !white c))).next (fromRe.next some))
      (programText clause.elements ++ fromText after gap specifier tail) = some (tail.dropWhile white) := by
  have read := fromRe_read afterPresent afterWhite gapPresent gapWhite specified unquoted tail
  have untyped : ∀ c rest, c ≠ 't' → (seq (text ['t', 'y', 'p', 'e']) (plus white)).next
      ((alt braces (alt starAs (plus fun c => !white c))).next (fromRe.next some)) ([c] ++ rest) = none := by
    intro c rest other
    rw [next_seq]
    exact next_text_none _ fun starts => other (List.cons_prefix_cons.mp starts).1.symm
  cases clause with
  | default name =>
      have head := name_head wf []
      rw [List.append_nil] at head
      rw [Clause.elements, text_codeOf]
      exact nonspace_read wf.1 head (fun c member => white_name (wf.2 c member)) afterPresent afterWhite gapPresent gapWhite
        specified unquoted tail
  | mixed name space second =>
      have head := name_head wf.1 (',' :: programText (space ++ second.elements))
      have whole : programText (Clause.mixed name space second).elements =
          name ++ ',' :: programText (space ++ second.elements) := by
        rw [Clause.elements, List.append_assoc, text_append, text_codeOf]
        rfl
      rw [← whole] at head
      exact nonspace_read (by simp [whole]) head strippable afterPresent afterWhite gapPresent gapWhite specified unquoted tail
  | named specifiers =>
      have whole : programText (Clause.named specifiers).elements ++ fromText after gap specifier tail =
          ['{'] ++ (programText specifiers ++ (['}'] ++ fromText after gap specifier tail)) := by
        rw [Clause.elements, text_append, text_cons]
        simp [programText, Element.text]
      rw [whole, next_optional, untyped _ _ (by decide), clauseRe_named strippable read]
      rfl
  | star before between name =>
      obtain ⟨beforeSpaces, betweenSpaces, words⟩ := strippable
      obtain ⟨beforePresent, beforeWhite⟩ := spaces_chars beforeSpaces
      obtain ⟨betweenPresent, betweenWhite⟩ := spaces_chars betweenSpaces
      have whole : programText (Clause.star before between name).elements ++ fromText after gap specifier tail =
          ['*'] ++ (programText before ++ (['a', 's'] ++ (programText between ++
            (name ++ fromText after gap specifier tail)))) := by
        rw [Clause.elements, text_append, text_append, text_append, text_cons, text_codeOf, text_codeOf]
        simp only [List.cons_append, List.append_assoc, List.nil_append]
      have ended : ∀ c ∈ (fromText after gap specifier tail).head?, white c = true := head_white afterPresent afterWhite
      rw [whole, next_optional, untyped _ _ (by decide),
        clauseRe_star beforePresent beforeWhite betweenPresent betweenWhite wf.2.1 words ended read]
      rfl

end

theorem clause_head {clause : Clause} (wf : clause.Wf) (rest : List Char) :
    ∀ c ∈ (programText clause.elements ++ rest).head?, white c = false := by
  have named : ∀ name : List Char, Name name → ∀ after, ∀ c ∈ (name ++ after).head?, white c = false := by
    rintro name ⟨present, all⟩ after
    cases name with
    | nil => exact absurd rfl present
    | cons first others => exact head_plain (white_name (all first List.mem_cons_self))
  cases clause with
  | default name =>
      rw [Clause.elements, text_codeOf]
      exact named name wf rest
  | star before after name => exact head_plain (by decide)
  | named specifiers => exact head_plain (by decide)
  | mixed name gap second =>
      rw [Clause.elements, List.append_assoc, text_append, text_codeOf, List.append_assoc]
      exact named name wf.1 _

theorem declaration_read {d : Declaration} (wf : d.Wf) (strippable : d.Strippable) (tail : List Char) :
    (esImportRe.ends (programText d.elements ++ tail)).head? = some (tail.dropWhile white) := by
  obtain ⟨⟨before, clause, after, hasClause, beforeSpaces, clauseStrippable, afterSpaces⟩, gapSpaces, quoted, specified, unquoted,
    ended⟩ := strippable
  obtain ⟨beforePresent, beforeWhite⟩ := spaces_chars beforeSpaces
  obtain ⟨afterPresent, afterWhite⟩ := spaces_chars afterSpaces
  obtain ⟨gapPresent, gapWhite⟩ := spaces_chars gapSpaces
  have whole : programText d.elements ++ tail = ['i', 'm', 'p', 'o', 'r', 't'] ++ (programText before ++
      (programText clause.elements ++ fromText (programText after) (programText d.gap) (itemsText d.specifier) tail)) := by
    simp only [Declaration.elements, hasClause, quoted, ended, if_true, text_append, text_codeOf, fromText, List.append_assoc]
    simp [programText, Element.text, Quote.char]
  rw [whole, head_ends, esImportRe, next_seq, next_text, next_seq]
  refine next_plus beforePresent beforeWhite ?_ ?_
  · exact clause_head (wf.2 before clause after hasClause).2 _
  · rw [next_seq, next_seq]
    exact clause_read (wf.2 before clause after hasClause).2 clauseStrippable afterPresent afterWhite gapPresent gapWhite
      specified unquoted tail

end

-- The program

theorem textOf_declaration (d : Declaration) (rest : List Part) :
    textOf (.declaration d :: rest) = programText d.elements ++ textOf rest := by
  rw [textOf, elementsOf, List.flatMap_cons]
  exact text_append ..

theorem textOf_element (e : Element) (rest : List Part) : textOf (.element e :: rest) = e.text ++ textOf rest := rfl

theorem whole_head {t : List Char} (plain : ∀ c ∈ t.head?, white c = false) : t.takeWhile white = [] ∧ t.dropWhile white = t := by
  cases t with
  | nil => exact ⟨rfl, rfl⟩
  | cons c rest => simp [plain c rfl]

theorem element_head {e : Element} (solid : ∀ c, e = .code c → white c = false) (rest : List Char) :
    ∀ c ∈ (e.text ++ rest).head?, white c = false := by
  cases e with
  | code c => exact head_plain (solid c rfl)
  | string quote items => cases quote <;> exact head_plain (by decide)
  | template continued items opens =>
      rw [Element.text_template]
      cases continued <;> exact head_plain (by decide)
  | lineComment text ending => exact head_plain (by decide)
  | blockComment text => exact head_plain (by decide)
  | regex parts => exact head_plain (by decide)

theorem remaining_solid {e : Element} (solid : ∀ c, e = .code c → white c = false) (reading : Bool) (rest : List Part) :
    remaining reading (.element e :: rest) = e.text ++ remaining false rest := by
  cases reading with
  | false => cases e <;> rfl
  | true => cases e with
    | code c => simp [remaining, solid c rfl, Element.text]
    | _ => rfl

theorem remaining_false (e : Element) (rest : List Part) :
    remaining false (.element e :: rest) = e.text ++ remaining false rest := by
  cases e <;> rfl

theorem declaration_nonempty (d : Declaration) : programText d.elements ≠ [] := by
  simp only [Declaration.elements, text_append, text_codeOf]
  simp

theorem declaration_line {d : Declaration} (strippable : d.Strippable) (line : Bool) :
    lineAfter line (programText d.elements) = false := by
  obtain ⟨-, -, -, -, -, ended⟩ := strippable
  rw [Declaration.elements, ended, if_pos rfl, text_append, lineAfter_append]
  rfl

theorem strip_parts {parts : List Part} (declared : ∀ d, .declaration d ∈ parts → d.Wf) (line : Bool)
    (strippable : Strippable line parts) :
    removeLines esImportRe 0 line (textOf parts) = remaining false parts ∧
    removeLines esImportRe 0 (lineAfter line ((textOf parts).takeWhile white)) ((textOf parts).dropWhile white) =
      remaining true parts := by
  induction parts generalizing line with
  | nil => exact ⟨rfl, rfl⟩
  | cons part rest ih =>
      have later := ih fun d member => declared d (List.mem_cons_of_mem part member)
      cases part with
      | declaration d =>
          obtain ⟨rfl, form, following⟩ := strippable
          have wf := declared d List.mem_cons_self
          have removed : removeLines esImportRe 0 true (textOf (.declaration d :: rest)) = remaining true rest := by
            have read := declaration_read wf form (textOf rest)
            have present : programText d.elements ++ (textOf rest).takeWhile white ≠ [] := by
              simp [declaration_nonempty d]
            have split : textOf (.declaration d :: rest) =
                programText d.elements ++ (textOf rest).takeWhile white ++ (textOf rest).dropWhile white := by
              rw [textOf_declaration, List.append_assoc, List.takeWhile_append_dropWhile]
            rw [← textOf_declaration, split] at read
            rw [split, removeLines_match present read, lineAfter_append, declaration_line form]
            exact (later false following).2
          have plain : ∀ c ∈ (textOf (.declaration d :: rest)).head?, white c = false := by
            rw [textOf_declaration, Declaration.elements, List.append_assoc, List.append_assoc, List.append_assoc, text_append,
              text_codeOf]
            exact head_plain (by decide)
          obtain ⟨noWhite, all⟩ := whole_head plain
          rw [noWhite, all]
          exact ⟨removed, removed⟩
      | element e =>
          obtain ⟨unmatched, following⟩ := strippable
          have kept : removeLines esImportRe 0 line (textOf (.element e :: rest)) = remaining false (.element e :: rest) := by
            rw [textOf_element, removeLines_plain unmatched, (later _ following).1, remaining_false]
          refine ⟨kept, ?_⟩
          by_cases space : ∃ c, e = .code c ∧ white c = true
          · obtain ⟨c, rfl, space⟩ := space
            rw [textOf_element, Element.text, List.singleton_append, List.takeWhile_cons, List.dropWhile_cons, if_pos space,
              if_pos space, remaining, if_pos space]
            exact (later _ following).2
          · have solid : ∀ c, e = .code c → white c = false := fun c same =>
              Bool.eq_false_iff.mpr fun isWhite => space ⟨c, same, isWhite⟩
            obtain ⟨noWhite, all⟩ := whole_head (textOf_element e rest ▸ element_head solid (textOf rest))
            rw [noWhite, all, remaining_solid solid true, ← remaining_false]
            exact kept

theorem stripESImports_exact (program : Program) (strippable : Strippable true program.parts) :
    stripESImports (textOf program.parts) = remaining false program.parts ∧
    normalizeJSArtifact (textOf program.parts) = remaining false program.parts :=
  ⟨(strip_parts program.declared true strippable).1, (strip_parts program.declared true strippable).1⟩

def importA : Declaration :=
  ⟨some ([.code ' '], .default ['a'], [.code ' ']), [.code ' '], .double, [.raw 'b'], true⟩

theorem importA_wf : importA.Wf := by
  refine ⟨by simp [importA, Blank, whiteSpace], fun before clause after same => ?_⟩
  obtain ⟨rfl, rfl, rfl⟩ : before = [.code ' '] ∧ clause = .default ['a'] ∧ after = [.code ' '] := by
    simpa [importA, eq_comm] using same
  exact ⟨by simp [Blank, whiteSpace], by simp, List.all_eq_true.mp (by decide)⟩

def oneLine : Program where
  parts := [.declaration importA, .element (.code '\n'), .element (.code 'c')]
  lexed := by
    apply lexed_firm
    simp [elementsOf, Part.elements, importA, Declaration.elements, Clause.elements, codeOf, Element.Wf, Firm, Item.FitsString,
      Quote.char]
  declared d member := by
    obtain rfl : d = importA := by simpa using member
    exact importA_wf
  top before d after same := by
    cases before with
    | nil => rfl
    | cons first others =>
        have member : Part.declaration d ∈ [Part.element (.code '\n'), Part.element (.code 'c')] := by
          rw [(List.cons.inj same).2]
          simp
        exact absurd member (by simp)

theorem oneLine_exact : stripESImports (textOf oneLine.parts) = ['c'] := by
  have spaces : Spaces [.code ' '] := ⟨by simp, by simp [white]⟩
  have form : importA.Strippable :=
    ⟨⟨_, _, _, rfl, spaces, trivial, spaces⟩, spaces, rfl, by decide, by decide, rfl⟩
  have only : ∀ (c : Char) (before after : List Char), [c] = before ++ after → after ≠ [] → before = [] ∧ after = [c] := by
    intro c before after whole present
    cases before with
    | nil => exact ⟨rfl, whole.symm⟩
    | cons first rest => exact absurd (List.append_eq_nil_iff.mp (List.cons.inj whole).2.symm).2 present
  have strippable : Strippable true oneLine.parts := by
    refine ⟨rfl, form, fun before after whole present line => ?_, fun before after whole present line => ?_, trivial⟩
    · obtain ⟨rfl, -⟩ := only _ before after whole present
      exact nomatch line
    · obtain ⟨-, rfl⟩ := only _ before after whole present
      exact (ends_nil_iff _ _).mp (by decide)
  exact (stripESImports_exact oneLine strippable).1

def sideEffect : Program where
  parts := [.declaration ⟨none, [.code ' '], .double, [.raw 'b'], true⟩]
  lexed := by
    apply lexed_firm
    simp [elementsOf, Part.elements, Declaration.elements, codeOf, Element.Wf, Firm, Item.FitsString, Quote.char]
  declared d member := by
    obtain rfl := Part.declaration.inj (List.mem_singleton.mp member)
    exact ⟨by simp [Blank, whiteSpace], by simp⟩
  top before d after same := by
    cases before with
    | nil => rfl
    | cons first others => exact absurd (List.cons.inj same).2.symm (by simp)

-- A template literal with a line of the same text as the declaration of oneLine.
def quotedImport : Program where
  parts := [.element (.template false ((Item.raw '\n') :: (programText importA.elements).map Item.raw) false)]
  lexed := by
    apply lexed_firm
    simp [elementsOf, Part.elements, importA, Declaration.elements, Clause.elements, codeOf, programText, Element.text, itemsText,
      Item.text, Quote.char, Element.Wf, Firm, Item.FitsTemplate, Plain]
  declared d member := by simp at member
  top before d after same := by
    have member : Part.declaration d ∈ before ++ .declaration d :: after := by simp
    rw [← same] at member
    simp at member

-- The line feed after a declaration goes, a side effect stays, and a line of a template literal goes.
theorem stripESImports_departs :
    stripESImports (textOf oneLine.parts) ≠ others oneLine.parts ∧
    stripESImports (textOf sideEffect.parts) ≠ others sideEffect.parts ∧
    stripESImports (textOf quotedImport.parts) ≠ others quotedImport.parts := by
  decide

end Brainkit.Runtime.StripImports
