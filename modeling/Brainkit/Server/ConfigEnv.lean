import Mathlib.Data.List.TakeWhile
import Brainkit.Library.GoText

set_option autoImplicit false

-- The references to the environment in a configuration text, which configfile.go replaces before the text is parsed.
namespace Brainkit.Server.Configfile

open GoText

-- The classes of envVarPattern: capital letters and the underscore, and digits behind them.
def nameStart (b : UInt8) : Bool := (65 ≤ b && b ≤ 90) || b = 95

def namePart (b : UInt8) : Bool := nameStart b || (48 ≤ b && b ≤ 57)

def matchName : GoString → Option (GoString × GoString)
  | b :: rest => if nameStart b then some (b :: rest.takeWhile namePart, rest.dropWhile namePart) else none
  | [] => none

def skip (brace : UInt8) : GoString → GoString
  | b :: rest => if b = brace then rest else b :: rest
  | [] => []

-- The pattern behind its dollar, each brace optional by itself. A brace that no name follows is none of a reference,
-- and without it no name starts there.
def matchVar (text : GoString) : Option (GoString × GoString) :=
  (matchName (skip 123 text)).map fun found => (found.1, skip 125 found.2)

-- A match takes at least its dollar, so the bytes are fuel enough.
def expandFrom (getenv : GoString → GoString) : Nat → GoString → GoString
  | 0, _ => []
  | _, [] => []
  | fuel + 1, b :: rest =>
      if b = 36 then
        match matchVar rest with
        | some (name, after) => getenv name ++ expandFrom getenv fuel after
        | none => b :: expandFrom getenv fuel rest
      else b :: expandFrom getenv fuel rest

-- A variable that is not set has the empty text.
def expandEnv (getenv : GoString → GoString) (s : GoString) : GoString := expandFrom getenv s.length s

-- Load decodes the expanded text; the YAML decoder is a parameter.
def load {σ : Type} (decode : GoString → σ) (getenv : GoString → GoString) (raw : GoString) : σ :=
  decode (expandEnv getenv raw)

inductive Piece where
  | literal (b : UInt8)
  | reference (braced : Bool) (name : GoString)
deriving DecidableEq

def Piece.render : Piece → GoString
  | .literal b => [b]
  | .reference true name => 36 :: 123 :: name ++ [125]
  | .reference false name => 36 :: name

def render (pieces : List Piece) : GoString := pieces.flatMap Piece.render

def Piece.expand (getenv : GoString → GoString) : Piece → GoString
  | .literal b => [b]
  | .reference _ name => getenv name

def substitute (getenv : GoString → GoString) (pieces : List Piece) : GoString := pieces.flatMap (Piece.expand getenv)

def Piece.name : Piece → Option GoString
  | .literal _ => none
  | .reference _ name => some name

def names (pieces : List Piece) : List GoString := pieces.filterMap Piece.name

def IsName (name : GoString) : Prop :=
  ∃ b rest, name = b :: rest ∧ nameStart b = true ∧ ∀ other ∈ rest, namePart other = true

def starts (text : GoString) : Bool := (matchName (skip 123 text)).isSome

-- Every dollar that begins a reference is one, an unbraced name goes as far as it can, and no brace is left over.
def WellFormed : List Piece → Prop
  | [] => True
  | .literal b :: rest => (b = 36 → starts (render rest) = false) ∧ WellFormed rest
  | .reference true name :: rest => IsName name ∧ WellFormed rest
  | .reference false name :: rest =>
      IsName name ∧ (∀ b ∈ (render rest).head?, namePart b = false ∧ b ≠ 125) ∧ WellFormed rest

def closed (text : GoString) : Bool :=
  match matchName (skip 123 text) with
  | none => true
  | some (_, rest) => decide (rest.head? = some 125) == decide (text.head? = some 123)

def balanced : GoString → Bool
  | [] => true
  | b :: rest => (b ≠ 36 || closed rest) && balanced rest

theorem matchName_some {text name rest : GoString} (found : matchName text = some (name, rest)) :
    text = name ++ rest ∧ IsName name ∧ ∀ b ∈ rest.head?, namePart b = false := by
  cases text with
  | nil => cases found
  | cons b tail =>
      obtain ⟨start, taken⟩ := Option.ite_none_right_eq_some.mp found
      cases taken
      refine ⟨?_, ⟨b, _, rfl, start, fun other member => List.mem_takeWhile_imp member⟩, fun other head => ?_⟩
      · rw [List.cons_append, List.takeWhile_append_dropWhile]
      · have stops := List.head?_dropWhile_not namePart tail
        rw [head] at stops
        exact stops

theorem matchName_append {name rest : GoString} (named : IsName name) (ends : ∀ b ∈ rest.head?, namePart b = false) :
    matchName (name ++ rest) = some (name, rest) := by
  obtain ⟨b, tail, rfl, start, parts⟩ := named
  have stops : rest.takeWhile namePart = [] ∧ rest.dropWhile namePart = rest := by
    cases rest with
    | nil => exact ⟨rfl, rfl⟩
    | cons other more =>
        have here := ends other rfl
        simp [here]
  rw [List.cons_append, matchName, if_pos start, List.takeWhile_append_of_pos parts, List.dropWhile_append_of_pos parts,
    stops.1, stops.2, List.append_nil]

theorem skip_brace (brace : UInt8) (rest : GoString) : skip brace (brace :: rest) = rest := if_pos rfl

theorem skip_name {name : GoString} (named : IsName name) (rest : GoString) : skip 123 (name ++ rest) = name ++ rest := by
  obtain ⟨b, tail, rfl, start, -⟩ := named
  refine if_neg fun brace => ?_
  subst brace
  cases start

theorem skip_other {brace : UInt8} {text : GoString} (other : ∀ b ∈ text.head?, b ≠ brace) : skip brace text = text := by
  cases text with
  | nil => rfl
  | cons b rest => exact if_neg (other b rfl)

theorem matchVar_braced {name : GoString} (named : IsName name) (rest : GoString) :
    matchVar (123 :: name ++ 125 :: rest) = some (name, rest) := by
  have body : skip 123 (123 :: name ++ 125 :: rest) = name ++ 125 :: rest := skip_brace 123 _
  have ends : ∀ b ∈ (125 :: rest).head?, namePart b = false := by
    rintro b ⟨rfl⟩
    rfl
  have found := matchName_append named ends
  rw [matchVar, body, found]
  exact congrArg (fun after => some (name, after)) (skip_brace 125 rest)

theorem matchVar_plain {name rest : GoString} (named : IsName name)
    (ends : ∀ b ∈ rest.head?, namePart b = false ∧ b ≠ 125) : matchVar (name ++ rest) = some (name, rest) := by
  rw [matchVar, skip_name named, matchName_append named fun b head => (ends b head).1, Option.map_some,
    skip_other fun b head => (ends b head).2]

theorem matchVar_none {text : GoString} (plain : starts text = false) : matchVar text = none := by
  have none : matchName (skip 123 text) = none := Option.isNone_iff_eq_none.mp (Option.isSome_eq_false_iff.mp plain)
  rw [matchVar, none, Option.map_none]

theorem expandFrom_dollar {text name after : GoString} (getenv : GoString → GoString) (fuel : Nat)
    (found : matchVar text = some (name, after)) :
    expandFrom getenv (fuel + 1) (36 :: text) = getenv name ++ expandFrom getenv fuel after := by
  rw [expandFrom, if_pos rfl, found]

theorem expandFrom_render (getenv : GoString → GoString) {pieces : List Piece} (formed : WellFormed pieces) {fuel : Nat}
    (enough : (render pieces).length ≤ fuel) : expandFrom getenv fuel (render pieces) = substitute getenv pieces := by
  induction pieces generalizing fuel with
  | nil => cases fuel <;> rfl
  | cons piece rest ih =>
      have whole : render (piece :: rest) = piece.render ++ render rest := List.flatMap_cons
      have expands : substitute getenv (piece :: rest) = piece.expand getenv ++ substitute getenv rest := List.flatMap_cons
      rw [whole, List.length_append] at enough
      cases fuel with
      | zero =>
          have some : 0 < piece.render.length := by
            match piece with
            | .literal b => exact Nat.one_pos
            | .reference true name => exact Nat.succ_pos _
            | .reference false name => exact Nat.succ_pos _
          omega
      | succ fuel =>
      rw [whole, expands]
      match piece with
      | .literal b =>
          obtain ⟨dollar, formed⟩ := formed
          have size : (Piece.literal b).render.length = 1 := rfl
          have later := ih formed (show (render rest).length ≤ fuel by omega)
          change expandFrom getenv (fuel + 1) (b :: render rest) = b :: substitute getenv rest
          rw [expandFrom, later]
          split
          · next same =>
              rw [matchVar_none (dollar same)]
          · rfl
      | .reference true name =>
          obtain ⟨named, formed⟩ := formed
          have some : 0 < (Piece.reference true name).render.length := Nat.succ_pos _
          have later := ih formed (show (render rest).length ≤ fuel by omega)
          have text : (Piece.reference true name).render ++ render rest = 36 :: (123 :: name ++ 125 :: render rest) := by
            simp [Piece.render]
          rw [text, expandFrom_dollar getenv fuel (matchVar_braced named _), later]
          rfl
      | .reference false name =>
          obtain ⟨named, ends, formed⟩ := formed
          have some : 0 < (Piece.reference false name).render.length := Nat.succ_pos _
          have later := ih formed (show (render rest).length ≤ fuel by omega)
          have text : (Piece.reference false name).render ++ render rest = 36 :: (name ++ render rest) := rfl
          rw [text, expandFrom_dollar getenv fuel (matchVar_plain named ends), later]
          rfl

theorem balanced_suffix {before after : GoString} (whole : balanced (before ++ after) = true) : balanced after = true := by
  induction before with
  | nil => exact whole
  | cons b before ih => exact ih ((Bool.and_eq_true _ _).mp whole).2

theorem balanced_pieces {s : GoString} (even : balanced s = true) : ∃ pieces, WellFormed pieces ∧ render pieces = s := by
  induction size : s.length using Nat.strongRecOn generalizing s with
  | ind n ih =>
  subst size
  cases s with
  | nil => exact ⟨[], trivial, rfl⟩
  | cons b rest =>
      obtain ⟨here, later⟩ := (Bool.and_eq_true _ _).mp even
      by_cases dollar : b = 36 ∧ starts rest = true
      · obtain ⟨rfl, started⟩ := dollar
        obtain ⟨⟨name, after⟩, found⟩ := Option.isSome_iff_exists.mp started
        obtain ⟨split, named, ends⟩ := matchName_some found
        have shut : after.head? = some 125 ↔ rest.head? = some 123 := by
          simpa [closed, found] using here
        by_cases braced : rest.head? = some 123
        · obtain ⟨body, rfl⟩ := List.head?_eq_some_iff.mp braced
          obtain ⟨tail, rfl⟩ := List.head?_eq_some_iff.mp (shut.mpr braced)
          rw [skip_brace] at split
          subst split
          have text : (36 :: 123 :: (name ++ 125 :: tail) : GoString) = (36 :: 123 :: name ++ [125]) ++ tail := by simp
          obtain ⟨pieces, formed, same⟩ := ih tail.length (by simp; omega) (balanced_suffix (text ▸ even)) rfl
          exact ⟨.reference true name :: pieces, ⟨named, formed⟩, by rw [text, ← same]; rfl⟩
        · have plain : skip 123 rest = rest := skip_other fun b head brace => braced (brace ▸ head)
          rw [plain] at split
          subst split
          have some : 0 < name.length := by
            obtain ⟨b, tail, rfl, -, -⟩ := named
            exact Nat.succ_pos _
          have shorter : after.length < (36 :: (name ++ after)).length := by
            simp only [List.length_cons, List.length_append]
            omega
          have even : balanced ((36 :: name) ++ after) = true := even
          obtain ⟨pieces, formed, same⟩ := ih after.length shorter (balanced_suffix even) rfl
          refine ⟨.reference false name :: pieces, ⟨named, fun b head => ?_, formed⟩, congrArg ((36 :: name) ++ ·) same⟩
          rw [same] at head
          exact ⟨ends b head, fun brace => braced (shut.mp (brace ▸ head))⟩
      · obtain ⟨pieces, formed, same⟩ := ih rest.length (Nat.lt_succ_self _) later rfl
        refine ⟨.literal b :: pieces, ⟨fun dollared => ?_, formed⟩, ?_⟩
        · rw [same]
          exact Bool.eq_false_iff.mpr fun started => dollar ⟨dollared, started⟩
        · exact congrArg (List.cons b) same

theorem substitute_congr {getenv getenv' : GoString → GoString} {pieces : List Piece}
    (same : ∀ name ∈ names pieces, getenv name = getenv' name) : substitute getenv pieces = substitute getenv' pieces := by
  refine List.flatMap_congr fun piece member => ?_
  cases piece with
  | literal b => rfl
  | reference braced name => exact same name (List.mem_filterMap.mpr ⟨_, member, rfl⟩)

theorem expandEnv_exact (s : GoString) (even : balanced s = true) :
    ∃ pieces, WellFormed pieces ∧ render pieces = s ∧ (∀ getenv, expandEnv getenv s = substitute getenv pieces) ∧
      ∀ {σ : Type} (decode : GoString → σ) (getenv getenv' : GoString → GoString),
        (∀ name ∈ names pieces, getenv name = getenv' name) → load decode getenv s = load decode getenv' s := by
  obtain ⟨pieces, formed, same⟩ := balanced_pieces even
  have expands : ∀ getenv, expandEnv getenv s = substitute getenv pieces := fun getenv => by
    subst same
    exact expandFrom_render getenv formed (Nat.le_refl _)
  refine ⟨pieces, formed, same, expands, fun decode getenv getenv' agree => ?_⟩
  rw [load, load, expands, expands, substitute_congr agree]

-- A braced reference, one without braces and a dollar that is neither.
theorem sample_exact : ∃ pieces, WellFormed pieces ∧ render pieces = lit "a: $\x7bB\x7d/$C_1-$ d" ∧
    (∀ getenv, expandEnv getenv (lit "a: $\x7bB\x7d/$C_1-$ d") = substitute getenv pieces) ∧
      ∀ {σ : Type} (decode : GoString → σ) (getenv getenv' : GoString → GoString),
        (∀ name ∈ names pieces, getenv name = getenv' name) →
          load decode getenv (lit "a: $\x7bB\x7d/$C_1-$ d") = load decode getenv' (lit "a: $\x7bB\x7d/$C_1-$ d") :=
  expandEnv_exact _ (by decide +kernel)

def smallLetter (b : UInt8) : Bool := 97 ≤ b && b ≤ 122

def anyName : GoString → Bool
  | [] => false
  | b :: rest => (nameStart b || smallLetter b) && rest.all fun other => namePart other || smallLetter other

-- A name in small letters stays as it is, and a value that has lines of its own becomes lines of the text: a mapping
-- of one key or of two.
theorem expandEnv_differs :
    (∃ getenv name, anyName name = true ∧ expandEnv getenv (36 :: name) ≠ getenv name) ∧
      ∃ getenv getenv', expandEnv getenv (lit "namespace: $X") = lit "namespace: a" ∧
        expandEnv getenv' (lit "namespace: $X") = lit "namespace: a\nsecret_key: b" :=
  ⟨⟨fun _ => lit "1", lit "home", by decide +kernel, by decide +kernel⟩,
    ⟨fun _ => lit "a", fun _ => lit "a\nsecret_key: b", by decide +kernel, by decide +kernel⟩⟩

end Brainkit.Server.Configfile
