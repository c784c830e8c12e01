import Brainkit.Library.Joined

set_option autoImplicit false

-- Paths with the separator of Unix, as they are cleaned and joined by their text alone.
namespace UnixPath

open Joined

abbrev Path := List UInt8

def rooted (path : Path) : Bool := path.head? = some 47

def parts (path : Path) : List Path := path.splitOn 47

-- The elements kept so far, the last one first, and one more element of the path.
def push (fromRoot : Bool) (stack : List Path) (part : Path) : List Path :=
  if part = [] ∨ part = [46] then stack
  else if part = [46, 46] then
    match stack with
    | [] => if fromRoot then [] else [part]
    | top :: rest => if top = [46, 46] then part :: stack else rest
  else part :: stack

def elements (path : Path) : List Path := ((parts path).foldl (push (rooted path)) []).reverse

def clean (path : Path) : Path :=
  let text := Joined.join 47 (elements path)
  if rooted path then 47 :: text else if text = [] then [46] else text

-- The elements from the first that is not empty on are joined and cleaned.
def join (paths : List Path) : Path :=
  match paths.dropWhile (· = []) with
  | [] => []
  | rest => clean (Joined.join 47 rest)

def names (path : Path) : List Path := (parts path).filter (· ≠ [])

def Inside (root path : Path) : Prop := rooted path = true ∧ names root <+: names path ∧ [46, 46] ∉ names path

structure Proper (part : Path) : Prop where
  some : part ≠ []
  whole : 47 ∉ part
  notDot : part ≠ [46]
  notDots : part ≠ [46, 46]

def render (names : List Path) : Path := 47 :: Joined.join 47 names

theorem parts_cons_slash (path : Path) : parts (47 :: path) = [] :: parts path := by
  unfold parts
  rw [List.splitOn_cons_eq_if_modifyHead, if_pos (by decide)]

theorem parts_append_slash (path rest : Path) : parts (path ++ 47 :: rest) = parts path ++ parts rest :=
  List.splitOn_append_cons_self path rest

theorem parts_whole {part : Path} (whole : 47 ∉ part) : parts part = [part] := List.splitOn_eq_singleton whole

theorem parts_join {names : List Path} (some : names ≠ []) (whole : ∀ part ∈ names, 47 ∉ part) :
    parts (Joined.join 47 names) = names := by
  induction names with
  | nil => exact absurd rfl some
  | cons part rest ih =>
      cases rest with
      | nil => exact parts_whole (whole part (.head _))
      | cons next rest =>
          have later := ih (List.cons_ne_nil _ _) fun p member => whole p (.tail part member)
          rw [Joined.join]
          · rw [parts_append_slash, parts_whole (whole part (.head _)), later]
            rfl
          · exact List.cons_ne_nil _ _

theorem parts_outside {path part : Path} (member : part ∈ parts path) : 47 ∉ part := by
  unfold parts at member
  rw [List.splitOn_eq_splitOnP] at member
  intro inside
  have apart := splitOnP_outside member 47 inside
  cases apart

theorem push_proper {fromRoot : Bool} {stack : List Path} {part : Path} (proper : Proper part) :
    push fromRoot stack part = part :: stack := by
  unfold push
  rw [if_neg (not_or_intro proper.some proper.notDot), if_neg proper.notDots]

theorem push_empty (fromRoot : Bool) (stack : List Path) : push fromRoot stack [] = stack := by
  unfold push
  exact if_pos (.inl rfl)

theorem foldl_push_proper {fromRoot : Bool} {names : List Path} (proper : ∀ part ∈ names, Proper part)
    (stack : List Path) : names.foldl (push fromRoot) stack = names.reverse ++ stack := by
  induction names generalizing stack with
  | nil => rfl
  | cons part rest ih =>
      rw [List.foldl_cons, push_proper (proper part (.head _)), ih fun p member => proper p (.tail part member)]
      simp

theorem foldl_push_join {fromRoot : Bool} {names : List Path} (proper : ∀ part ∈ names, Proper part)
    (stack : List Path) : (parts (Joined.join 47 names)).foldl (push fromRoot) stack = names.reverse ++ stack := by
  cases names with
  | nil => exact push_empty fromRoot stack
  | cons part rest =>
      rw [parts_join (List.cons_ne_nil part rest) fun p member => (proper p member).whole]
      exact foldl_push_proper proper stack

theorem push_keeps_proper {stack : List Path} {part : Path} (whole : 47 ∉ part) (proper : ∀ p ∈ stack, Proper p) :
    ∀ p ∈ push true stack part, Proper p := by
  unfold push
  split
  case isTrue => exact proper
  case isFalse some =>
      obtain ⟨notEmpty, notDot⟩ := not_or.mp some
      split
      case isTrue =>
          cases stack with
          | nil =>
              intro p member
              cases member
          | cons top rest =>
              dsimp only
              rw [if_neg (proper top (.head _)).notDots]
              exact fun p member => proper p (.tail top member)
      case isFalse notDots =>
          intro p member
          obtain rfl | older := List.mem_cons.mp member
          · exact ⟨notEmpty, whole, notDot, notDots⟩
          · exact proper p older

theorem foldl_push_keeps_proper {more stack : List Path} (whole : ∀ part ∈ more, 47 ∉ part)
    (proper : ∀ p ∈ stack, Proper p) : ∀ p ∈ more.foldl (push true) stack, Proper p := by
  induction more generalizing stack with
  | nil => exact proper
  | cons part rest ih =>
      exact ih (fun p member => whole p (.tail part member)) (push_keeps_proper (whole part (.head _)) proper)

theorem clean_rooted {path : Path} (fromRoot : rooted path = true) :
    ∃ names, (∀ part ∈ names, Proper part) ∧ clean path = render names := by
  refine ⟨elements path, fun part member => ?_, ?_⟩
  · rw [elements, fromRoot, List.mem_reverse] at member
    refine foldl_push_keeps_proper (fun p listed => parts_outside listed) (fun p member => ?_) part member
    cases member
  · rw [clean, fromRoot]
    rfl

theorem render_ne_nil (names : List Path) : render names ≠ [] := List.cons_ne_nil _ _

theorem render_rooted (names : List Path) : rooted (render names) = true := by
  exact decide_eq_true rfl

theorem clean_render {names : List Path} (proper : ∀ part ∈ names, Proper part) : clean (render names) = render names := by
  rw [clean, render_rooted, if_pos rfl, elements, render_rooted, render, parts_cons_slash, List.foldl_cons, push_empty,
    foldl_push_join proper, List.append_nil, List.reverse_reverse]

theorem clean_render_append {names others : List Path} (proper : ∀ part ∈ names, Proper part)
    (proper' : ∀ part ∈ others, Proper part) : clean (render names ++ 47 :: render others) = render (names ++ others) := by
  have fromRoot : rooted (render names ++ 47 :: render others) = true := by
    exact decide_eq_true rfl
  have whole : (parts (render names ++ 47 :: render others)).foldl (push true) [] = others.reverse ++ names.reverse := by
    rw [render, List.cons_append, parts_cons_slash, parts_append_slash, render, parts_cons_slash, List.foldl_cons,
      push_empty, List.foldl_append, foldl_push_join proper, List.append_nil, List.foldl_cons, push_empty,
      foldl_push_join proper']
  rw [clean, fromRoot, if_pos rfl, elements, fromRoot, whole, List.reverse_append, List.reverse_reverse,
    List.reverse_reverse, render]

theorem join_pair {first : Path} (some : first ≠ []) (second : Path) : join [first, second] = clean (first ++ 47 :: second) := by
  rw [join, List.dropWhile_cons, if_neg (by simpa using some)]
  rfl

theorem names_render {names : List Path} (proper : ∀ part ∈ names, Proper part) : UnixPath.names (render names) = names := by
  rw [UnixPath.names, render, parts_cons_slash, List.filter_cons_of_neg (by simp)]
  cases names with
  | nil => rfl
  | cons part rest =>
      rw [parts_join (List.cons_ne_nil part rest) fun p member => (proper p member).whole]
      exact List.filter_eq_self.mpr fun p member => by simpa using (proper p member).some

theorem render_injective {names others : List Path} (proper : ∀ part ∈ names, Proper part)
    (proper' : ∀ part ∈ others, Proper part) (same : render names = render others) : names = others := by
  rw [← names_render proper, same, names_render proper']

theorem inside_render {root names : List Path} (proper : ∀ part ∈ root, Proper part) (proper' : ∀ part ∈ names, Proper part) :
    Inside (render root) (render names) ↔ root <+: names := by
  rw [Inside, names_render proper, names_render proper']
  exact ⟨fun inside => inside.2.1, fun starts => ⟨render_rooted names, starts, fun listed => (proper' _ listed).notDots rfl⟩⟩

theorem join_cons {part : Path} {rest : List Path} (some : rest ≠ []) :
    Joined.join 47 (part :: rest) = part ++ 47 :: Joined.join 47 rest := by
  cases rest with
  | nil => exact absurd rfl some
  | cons next rest => rfl

theorem join_append {names others : List Path} (some : names ≠ []) (some' : others ≠ []) :
    Joined.join 47 (names ++ others) = Joined.join 47 names ++ 47 :: Joined.join 47 others := by
  induction names with
  | nil => exact absurd rfl some
  | cons part rest ih =>
      cases rest with
      | nil => exact join_cons some'
      | cons next rest =>
          rw [List.cons_append, join_cons (by simp), ih (List.cons_ne_nil _ _), join_cons (List.cons_ne_nil _ _),
            List.append_assoc, List.cons_append]

end UnixPath
