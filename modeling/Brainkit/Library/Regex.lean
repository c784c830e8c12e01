import Mathlib.Data.List.Basic

set_option autoImplicit false

-- Regular expressions over classes of characters, searched for as a backtracking matcher does: the left alternative is
-- tried before the right one, and a repetition and an option take what they can before they give it back.
namespace Regex

inductive Re where
  | text (chars : List Char)
  | one (accepts : Char → Bool)
  | many (accepts : Char → Bool)
  | optional (re : Re)
  | alt (first second : Re)
  | seq (first second : Re)

namespace Re

def plus (accepts : Char → Bool) : Re := seq (one accepts) (many accepts)

def manyEnds (accepts : Char → Bool) : List Char → List (List Char)
  | [] => [[]]
  | c :: rest => if accepts c then manyEnds accepts rest ++ [c :: rest] else [c :: rest]

def oneEnds (accepts : Char → Bool) : List Char → List (List Char)
  | [] => []
  | c :: rest => if accepts c then [rest] else []

def ends : Re → List Char → List (List Char)
  | text chars, t => if chars.isPrefixOf t then [t.drop chars.length] else []
  | one accepts, t => oneEnds accepts t
  | many accepts, t => manyEnds accepts t
  | optional re, t => re.ends t ++ [t]
  | alt first second, t => first.ends t ++ second.ends t
  | seq first second, t => (first.ends t).flatMap second.ends

section

variable (accepts : Char → Bool) (re first second : Re) (chars t : List Char)

theorem manyEnds_cons (c : Char) (rest : List Char) :
    manyEnds accepts (c :: rest) = if accepts c then manyEnds accepts rest ++ [c :: rest] else [c :: rest] := rfl

theorem ends_text : (text chars).ends t = if chars.isPrefixOf t then [t.drop chars.length] else [] := rfl

theorem ends_many : (many accepts).ends t = manyEnds accepts t := rfl

theorem ends_optional : (optional re).ends t = re.ends t ++ [t] := rfl

theorem ends_alt : (alt first second).ends t = first.ends t ++ second.ends t := rfl

theorem ends_seq : (seq first second).ends t = (first.ends t).flatMap second.ends := rfl

end

def Matches : Re → List Char → Prop
  | text chars, found => found = chars
  | one accepts, found => ∃ c, accepts c = true ∧ found = [c]
  | many accepts, found => ∀ c ∈ found, accepts c = true
  | optional re, found => re.Matches found ∨ found = []
  | alt first second, found => first.Matches found ∨ second.Matches found
  | seq first second, found => ∃ before after, found = before ++ after ∧ first.Matches before ∧ second.Matches after

def MatchesAt (re : Re) (t : List Char) : Prop := ∃ found rest, t = found ++ rest ∧ re.Matches found

theorem manyEnds_iff (accepts : Char → Bool) (t rest : List Char) :
    rest ∈ manyEnds accepts t ↔ ∃ found, t = found ++ rest ∧ ∀ c ∈ found, accepts c = true := by
  induction t with
  | nil =>
      change rest ∈ [[]] ↔ _
      rw [List.mem_singleton]
      constructor
      · rintro rfl
        exact ⟨[], rfl, by simp⟩
      · rintro ⟨found, whole, -⟩
        exact (List.append_eq_nil_iff.mp whole.symm).2
  | cons c tail ih =>
      rw [manyEnds_cons]
      constructor
      · intro member
        split at member
        case isTrue accepted =>
          rcases List.mem_append.mp member with later | here
          · obtain ⟨found, whole, all⟩ := ih.mp later
            exact ⟨c :: found, by rw [whole]; rfl, List.forall_mem_cons.mpr ⟨accepted, all⟩⟩
          · exact ⟨[], (List.mem_singleton.mp here).symm, by simp⟩
        case isFalse => exact ⟨[], (List.mem_singleton.mp member).symm, by simp⟩
      · rintro ⟨found, whole, all⟩
        cases found with
        | nil =>
            obtain rfl : rest = c :: tail := whole.symm
            split <;> simp
        | cons first found =>
            obtain ⟨rfl, same⟩ := List.cons.inj whole
            obtain ⟨accepted, others⟩ := List.forall_mem_cons.mp all
            rw [if_pos accepted]
            exact List.mem_append_left _ (ih.mpr ⟨found, same, others⟩)

theorem mem_ends (re : Re) (t rest : List Char) : rest ∈ re.ends t ↔ ∃ found, t = found ++ rest ∧ re.Matches found := by
  induction re generalizing t rest with
  | text chars =>
      change _ ↔ ∃ found, t = found ++ rest ∧ found = chars
      simp only [ends_text, List.isPrefixOf_iff_prefix]
      constructor
      · intro member
        split at member
        case isTrue starts =>
          obtain ⟨tail, rfl⟩ := starts
          rw [List.drop_left, List.mem_singleton] at member
          exact ⟨chars, by rw [member], rfl⟩
        case isFalse => exact nomatch member
      · rintro ⟨found, rfl, rfl⟩
        rw [if_pos (List.prefix_append found rest), List.drop_left]
        exact List.mem_singleton_self rest
  | one accepts =>
      change rest ∈ oneEnds accepts t ↔ ∃ found, t = found ++ rest ∧ ∃ c, accepts c = true ∧ found = [c]
      cases t with
      | nil => simp [oneEnds]
      | cons c tail =>
          by_cases accepted : accepts c = true
          · simp only [oneEnds, accepted, if_true, List.mem_singleton]
            constructor
            · rintro rfl
              exact ⟨[c], rfl, c, accepted, rfl⟩
            · rintro ⟨found, whole, other, -, rfl⟩
              exact (List.cons.inj whole).2.symm
          · simp only [oneEnds, accepted]
            refine iff_of_false (by simp) ?_
            rintro ⟨found, whole, other, accepts, rfl⟩
            exact accepted ((List.cons.inj whole).1 ▸ accepts)
  | many accepts => exact manyEnds_iff accepts t rest
  | optional re ih =>
      change _ ↔ ∃ found, t = found ++ rest ∧ (re.Matches found ∨ found = [])
      simp only [ends_optional, List.mem_append, List.mem_singleton, ih]
      constructor
      · rintro (⟨found, whole, taken⟩ | rfl)
        · exact ⟨found, whole, .inl taken⟩
        · exact ⟨[], rfl, .inr rfl⟩
      · rintro ⟨found, whole, taken | rfl⟩
        · exact .inl ⟨found, whole, taken⟩
        · exact .inr whole.symm
  | alt first second firstIH secondIH =>
      change _ ↔ ∃ found, t = found ++ rest ∧ (first.Matches found ∨ second.Matches found)
      simp only [ends_alt, List.mem_append, firstIH, secondIH]
      constructor
      · rintro (⟨found, whole, taken⟩ | ⟨found, whole, taken⟩)
        · exact ⟨found, whole, .inl taken⟩
        · exact ⟨found, whole, .inr taken⟩
      · rintro ⟨found, whole, taken | taken⟩
        · exact .inl ⟨found, whole, taken⟩
        · exact .inr ⟨found, whole, taken⟩
  | seq first second firstIH secondIH =>
      change _ ↔ ∃ found, t = found ++ rest ∧ ∃ before after, found = before ++ after ∧ first.Matches before ∧
        second.Matches after
      simp only [ends_seq, List.mem_flatMap, firstIH, secondIH]
      constructor
      · rintro ⟨middle, ⟨before, rfl, one⟩, after, rfl, two⟩
        exact ⟨before ++ after, (List.append_assoc ..).symm, before, after, rfl, one, two⟩
      · rintro ⟨found, rfl, before, after, rfl, one, two⟩
        exact ⟨after ++ rest, ⟨before, List.append_assoc .., one⟩, after, rfl, two⟩

theorem ends_nil_iff (re : Re) (t : List Char) : re.ends t = [] ↔ ¬ re.MatchesAt t := by
  simp only [List.eq_nil_iff_forall_not_mem, mem_ends, MatchesAt]
  exact ⟨fun none ⟨found, rest, whole, taken⟩ => none rest ⟨found, whole, taken⟩,
    fun none rest ⟨found, whole, taken⟩ => none ⟨found, rest, whole, taken⟩⟩

def next {α : Type} (re : Re) (continues : List Char → Option α) (t : List Char) : Option α := (re.ends t).findSome? continues

section

variable {α : Type} {continues : List Char → Option α} {value : α} {accepts : Char → Bool}

theorem head_ends (re : Re) (t : List Char) : (re.ends t).head? = re.next some t := by
  unfold next
  cases re.ends t <;> rfl

theorem next_seq (first second : Re) (continues : List Char → Option α) :
    (seq first second).next continues = first.next (second.next continues) := by
  funext t
  simp only [next, ends_seq]
  induction first.ends t with
  | nil => rfl
  | cons rest others ih =>
      rw [List.flatMap_cons, List.findSome?_append, ih, List.findSome?_cons]
      unfold next
      cases (second.ends rest).findSome? continues <;> rfl

theorem next_text (chars : List Char) (continues : List Char → Option α) (t : List Char) :
    (text chars).next continues (chars ++ t) = continues t := by
  have starts : chars.isPrefixOf (chars ++ t) = true := List.isPrefixOf_iff_prefix.mpr (List.prefix_append chars t)
  rw [next, ends_text, if_pos starts, List.drop_left, List.findSome?_singleton]

theorem next_text_none {chars t : List Char} (continues : List Char → Option α) (other : ¬ chars <+: t) :
    (text chars).next continues t = none := by
  have starts : ¬ chars.isPrefixOf t = true := fun starts => other (List.isPrefixOf_iff_prefix.mp starts)
  rw [next, ends_text, if_neg starts, List.findSome?_nil]

theorem next_alt (first second : Re) (continues : List Char → Option α) (t : List Char) :
    (alt first second).next continues t = (first.next continues t).or (second.next continues t) := by
  unfold next
  rw [ends_alt, List.findSome?_append]

theorem next_optional (re : Re) (continues : List Char → Option α) (t : List Char) :
    (optional re).next continues t = (re.next continues t).or (continues t) := by
  unfold next
  rw [ends_optional, List.findSome?_append, List.findSome?_singleton]

theorem next_none {re : Re} {t : List Char}
    (fails : ∀ found rest, t = found ++ rest → re.Matches found → continues rest = none) : re.next continues t = none := by
  rw [next, List.findSome?_eq_none_iff]
  intro rest member
  obtain ⟨found, whole, taken⟩ := (re.mem_ends t rest).mp member
  exact fails found rest whole taken

theorem next_many {run t : List Char} (all : ∀ c ∈ run, accepts c = true) (ended : ∀ c ∈ t.head?, accepts c = false)
    (goes : continues t = some value) : (many accepts).next continues (run ++ t) = some value := by
  have longest : (manyEnds accepts (run ++ t)).head? = some t := by
    induction run with
    | nil => cases t with
      | nil => rfl
      | cons c rest => simp [manyEnds_cons, ended c (by simp)]
    | cons c rest ih =>
        obtain ⟨accepted, others⟩ := List.forall_mem_cons.mp all
        rw [List.cons_append, manyEnds_cons, if_pos accepted, List.head?_append, ih others]
        rfl
  rw [next, ends_many]
  cases taken : manyEnds accepts (run ++ t) with
  | nil => simp [taken] at longest
  | cons first later =>
      obtain rfl : first = t := by simpa [taken] using longest
      rw [List.findSome?_cons, goes]

theorem next_plus {run t : List Char} (present : run ≠ []) (all : ∀ c ∈ run, accepts c = true)
    (ended : ∀ c ∈ t.head?, accepts c = false) (goes : continues t = some value) :
    (plus accepts).next continues (run ++ t) = some value := by
  cases run with
  | nil => exact absurd rfl present
  | cons c rest =>
      obtain ⟨accepted, others⟩ := List.forall_mem_cons.mp all
      rw [plus, next_seq]
      have first : (one accepts).ends (c :: rest ++ t) = [rest ++ t] := by
        exact if_pos accepted
      rw [next, first, List.findSome?_singleton]
      exact next_many others ended goes

end

theorem matches_plus {accepts : Char → Bool} {found : List Char} :
    (plus accepts).Matches found ↔ found ≠ [] ∧ ∀ c ∈ found, accepts c = true := by
  constructor
  · rintro ⟨before, after, rfl, ⟨c, accepted, rfl⟩, all⟩
    exact ⟨by simp, List.forall_mem_cons.mpr ⟨accepted, all⟩⟩
  · rintro ⟨present, all⟩
    cases found with
    | nil => exact absurd rfl present
    | cons c rest =>
        obtain ⟨accepted, others⟩ := List.forall_mem_cons.mp all
        exact ⟨[c], rest, rfl, ⟨c, accepted, rfl⟩, others⟩

theorem run_unique {accepts : Char → Bool} {run other t rest : List Char} (same : run ++ t = other ++ rest)
    (all : ∀ c ∈ run, accepts c = true) (otherAll : ∀ c ∈ other, accepts c = true)
    (ended : ∀ c ∈ t.head?, accepts c = false) (otherEnded : ∀ c ∈ rest.head?, accepts c = false) :
    run = other ∧ t = rest := by
  induction run generalizing other with
  | nil => cases other with
    | nil => exact ⟨rfl, same⟩
    | cons c tail =>
        obtain rfl : t = c :: (tail ++ rest) := same
        simp [otherAll c List.mem_cons_self] at ended
  | cons c tail ih => cases other with
    | nil =>
        obtain rfl : rest = c :: (tail ++ t) := same.symm
        simp [all c List.mem_cons_self] at otherEnded
    | cons d others =>
        obtain ⟨rfl, sameTail⟩ := List.cons.inj same
        obtain ⟨rfl, sameRest⟩ := ih sameTail (fun e member => all e (List.mem_cons_of_mem _ member))
          (fun e member => otherAll e (List.mem_cons_of_mem _ member))
        exact ⟨rfl, sameRest⟩

end Re

def lineAfter (line : Bool) (read : List Char) : Bool := read.foldl (fun _ c => c == '\n') line

-- The matches at the beginnings of lines, from left to right, are taken out. The first argument is what is left to pass
-- of a match, and the second tells whether a line begins here. An empty match takes nothing out.
def removeLines (re : Re) : Nat → Bool → List Char → List Char
  | _, _, [] => []
  | skip + 1, _, c :: rest => removeLines re skip (c == '\n') rest
  | 0, line, c :: rest =>
      match if line then (re.ends (c :: rest)).head? else none with
      | some after =>
          if after.length ≤ rest.length then removeLines re (rest.length - after.length) (c == '\n') rest
          else c :: removeLines re 0 (c == '\n') rest
      | none => c :: removeLines re 0 (c == '\n') rest

section

variable {re : Re} {line : Bool} {run t : List Char}

theorem lineAfter_append (line : Bool) (first second : List Char) :
    lineAfter line (first ++ second) = lineAfter (lineAfter line first) second :=
  List.foldl_append

theorem removeLines_skip : removeLines re run.length line (run ++ t) = removeLines re 0 (lineAfter line run) t := by
  induction run generalizing line with
  | nil => rfl
  | cons c rest ih => exact ih

theorem removeLines_match (present : run ≠ []) (first : (re.ends (run ++ t)).head? = some t) :
    removeLines re 0 true (run ++ t) = removeLines re 0 (lineAfter true run) t := by
  cases run with
  | nil => exact absurd rfl present
  | cons c rest =>
      rw [List.cons_append] at first
      have inside : t.length ≤ (rest ++ t).length := by simp
      have length : (rest ++ t).length - t.length = rest.length := by simp
      rw [List.cons_append, removeLines, if_pos rfl, first]
      simp only [if_pos inside, length]
      exact removeLines_skip

theorem removeLines_plain
    (never : ∀ before after, run = before ++ after → after ≠ [] → lineAfter line before = true →
      ¬ re.MatchesAt (after ++ t)) :
    removeLines re 0 line (run ++ t) = run ++ removeLines re 0 (lineAfter line run) t := by
  induction run generalizing line with
  | nil => rfl
  | cons c rest ih =>
      have here : (if line then (re.ends (c :: (rest ++ t))).head? else none) = none := by
        split
        case isTrue atLine =>
          have none := (re.ends_nil_iff _).mpr (never [] (c :: rest) rfl (by simp) atLine)
          rw [List.cons_append] at none
          rw [none]
          rfl
        case isFalse => rfl
      have later : removeLines re 0 (c == '\n') (rest ++ t) = rest ++ removeLines re 0 (lineAfter (c == '\n') rest) t :=
        ih fun before after whole present atLine => never (c :: before) after (by rw [whole]; rfl) present atLine
      rw [List.cons_append, removeLines, here]
      exact congrArg (c :: ·) later

end

end Regex
