import Brainkit.Library.GoText
import Brainkit.Library.UnixPath

set_option autoImplicit false

-- The workspace root of the fs polyfill and the paths it hands to the operating system.
namespace Brainkit.Jsbridge.Fs

open GoText UnixPath

-- strconv.IsPrint, for the paths in the messages.
variable (isPrint : Nat → Bool)

inductive ResolveError where
  | plain (message : GoString)
  | fsError (code syscall path message : GoString)
deriving DecidableEq

def escapes (userPath : GoString) : ResolveError :=
  .fsError (lit "EACCES") (lit "open") userPath (lit "path " ++ quote isPrint userPath ++ lit " escapes workspace")

def resolve (root userPath : GoString) : Except ResolveError GoString :=
  if root = [] then .error (.plain (lit "workspace not configured"))
  else
    let abs := join [root, clean (47 :: userPath)]
    let cleanRoot := clean root
    if abs ≠ cleanRoot ∧ ¬ (cleanRoot ++ [47] <+: abs) then .error (escapes isPrint userPath) else .ok abs

structure Sandboxed (root userPath : GoString) : Prop where
  contained : ∀ abs, resolve isPrint root userPath = .ok abs → Inside root abs
  complete : Inside root (join [root, userPath]) → ∃ abs, resolve isPrint root userPath = .ok abs

theorem root_render {root : GoString} (absolute : rooted root = true) (cleaned : clean root = root) :
    ∃ names, (∀ part ∈ names, Proper part) ∧ root = render names := by
  obtain ⟨names, proper, shape⟩ := clean_rooted absolute
  exact ⟨names, proper, cleaned.symm.trans shape⟩

theorem user_render (userPath : GoString) :
    ∃ names, (∀ part ∈ names, Proper part) ∧ clean (47 :: userPath) = render names :=
  clean_rooted (decide_eq_true rfl)

theorem resolve_render {names below : List GoString} (proper : ∀ part ∈ names, Proper part)
    (proper' : ∀ part ∈ below, Proper part) {userPath : GoString} (shape : clean (47 :: userPath) = render below) :
    resolve isPrint (render names) userPath =
      if render (names ++ below) ≠ render names ∧ ¬ (render names ++ [47] <+: render (names ++ below)) then
        .error (escapes isPrint userPath)
      else .ok (render (names ++ below)) := by
  rw [resolve, if_neg (render_ne_nil names), shape, join_pair (render_ne_nil names)]
  rw [clean_render_append proper proper', clean_render proper]

theorem render_append {names below : List GoString} (some : names ≠ []) (some' : below ≠ []) :
    render (names ++ below) = render names ++ 47 :: Joined.join 47 below := by
  rw [render, join_append some some']
  rfl

theorem resolve_named {names below : List GoString} (some : names ≠ []) (proper : ∀ part ∈ names, Proper part)
    (proper' : ∀ part ∈ below, Proper part) {userPath : GoString} (shape : clean (47 :: userPath) = render below) :
    resolve isPrint (render names) userPath = .ok (render (names ++ below)) := by
  rw [resolve_render isPrint proper proper' shape]
  apply if_neg
  rintro ⟨other, apart⟩
  cases below with
  | nil => exact other (by rw [List.append_nil])
  | cons first rest =>
      rw [render_append some (List.cons_ne_nil first rest)] at apart
      exact apart ⟨Joined.join 47 (first :: rest), by rw [List.append_assoc, List.singleton_append]⟩

theorem resolve_slash {below : List GoString} (proper' : ∀ part ∈ below, Proper part) {userPath : GoString}
    (shape : clean (47 :: userPath) = render below) :
    resolve isPrint (render []) userPath = if below = [] then .ok (render []) else .error (escapes isPrint userPath) := by
  rw [resolve_render isPrint (fun _ none => absurd none List.not_mem_nil) proper' shape, List.nil_append]
  cases below with
  | nil => rw [if_neg (fun wrong => wrong.1 rfl), if_pos rfl]
  | cons first rest =>
      obtain ⟨letter, more, spelt⟩ := List.exists_cons_of_ne_nil (proper' first (.head _)).some
      have begins : Joined.join 47 (first :: rest) = letter :: (Joined.join 47 (first :: rest)).tail := by
        cases rest <;> (rw [spelt]; rfl)
      have notSlash : letter ≠ 47 := by
        rintro rfl
        exact (proper' first (.head _)).whole (spelt ▸ List.mem_cons_self)
      rw [if_pos, if_neg (List.cons_ne_nil first rest)]
      constructor
      · intro same
        have none : Joined.join 47 (first :: rest) = [] := (List.cons.inj same).2
        rw [begins] at none
        cases none
      · rintro ⟨more, whole⟩
        have next : 47 :: more = Joined.join 47 (first :: rest) := (List.cons.inj whole).2
        rw [begins] at next
        exact notSlash (List.cons.inj next).1.symm

theorem join_slash {below : List GoString} {userPath : GoString}
    (proper' : ∀ part ∈ below, Proper part) (shape : clean (47 :: userPath) = render below) :
    Inside (render []) (join [render [], userPath]) := by
  have turned : clean (47 :: 47 :: userPath) = clean (47 :: userPath) := by
    have both : elements (47 :: 47 :: userPath) = elements (47 :: userPath) := by
      rw [elements, elements, parts_cons_slash, List.foldl_cons, push_empty]
      rfl
    rw [clean, clean, both]
    rfl
  rw [join_pair (render_ne_nil [])]
  change Inside (render []) (clean (47 :: 47 :: userPath))
  rw [turned, shape]
  exact (inside_render (fun _ none => absurd none List.not_mem_nil) proper').mpr List.nil_prefix

theorem sandboxed_iff (root userPath : GoString) (absolute : rooted root = true) (cleaned : clean root = root) :
    Sandboxed isPrint root userPath ↔ root ≠ lit "/" ∨ clean (47 :: userPath) = lit "/" := by
  obtain ⟨names, proper, rfl⟩ := root_render absolute cleaned
  obtain ⟨below, proper', shape⟩ := user_render userPath
  have slash : lit "/" = render [] := by decide
  rw [shape, slash]
  by_cases none : names = []
  · subst none
    by_cases here : below = []
    · subst here
      have found := resolve_slash isPrint proper' shape
      rw [if_pos rfl] at found
      refine ⟨fun _ => .inr rfl, fun _ => ⟨fun abs resolved => ?_, fun _ => ⟨_, found⟩⟩⟩
      rw [found] at resolved
      cases resolved
      exact (inside_render proper proper).mpr (List.prefix_refl [])
    · have failed := resolve_slash isPrint proper' shape
      rw [if_neg here] at failed
      constructor
      · intro boxed
        obtain ⟨abs, resolved⟩ := boxed.complete (join_slash proper' shape)
        rw [failed] at resolved
        cases resolved
      · rintro (wrong | same)
        · exact absurd rfl wrong
        · exact absurd (render_injective proper' proper same) here
  · have found := resolve_named isPrint none proper proper' shape
    refine ⟨fun _ => .inl fun same => ?_, fun _ => ⟨fun abs resolved => ?_, fun _ => ⟨_, found⟩⟩⟩
    · exact none (render_injective proper (fun _ wrong => absurd wrong List.not_mem_nil) same)
    · rw [found] at resolved
      cases resolved
      refine (inside_render proper fun part listed => ?_).mpr (List.prefix_append names below)
      obtain above | under := List.mem_append.mp listed
      · exact proper part above
      · exact proper' part under

theorem sandboxed_work : Sandboxed (fun _ => true) (lit "/work") (lit "../etc//passwd") :=
  (sandboxed_iff (fun _ => true) (lit "/work") (lit "../etc//passwd") (by decide) (by decide)).mpr (.inl (by decide))

theorem sandboxed_root_refused : ¬ Sandboxed (fun _ => true) (lit "/") (lit "etc") := by
  intro boxed
  obtain ⟨abs, resolved⟩ := boxed.complete ⟨by decide, by decide, by decide⟩
  have failed : resolve (fun _ => true) (lit "/") (lit "etc") = .error (escapes (fun _ => true) (lit "etc")) :=
    if_neg (by decide)
  rw [failed] at resolved
  cases resolved

end Brainkit.Jsbridge.Fs
