import Mathlib.Data.List.Induction
import Brainkit.Library.Joined
import Brainkit.Tools.Versions

set_option autoImplicit false

-- CompareSemver as an order on all texts, and where it is the one of semantic versioning.
namespace Brainkit.Tools

open GoText

abbrev Key := Rank ×ₗ WithTop (List Nat)

def codes (text : GoString) : List Nat := text.map UInt8.toNat

def suffixKey (suffix : GoString) : WithTop (List Nat) := if suffix = [] then ⊤ else ↑(codes suffix)

def key (version : GoString) : Key := toLex (rank version, suffixKey (parseSemver version).pre)

theorem codes_lt_iff (a b : GoString) : a < b ↔ codes a < codes b := by
  induction a generalizing b with
  | nil => cases b <;> simp [codes, List.nil_lt_cons]
  | cons x a ih =>
      cases b with
      | nil => simp [codes]
      | cons y b =>
          have heads : x = y ↔ x.toNat = y.toNat := UInt8.toNat_inj.symm
          have tails := ih b
          unfold codes at tails ⊢
          rw [List.map_cons, List.map_cons, List.cons_lt_cons_iff, List.cons_lt_cons_iff, UInt8.lt_iff_toNat_lt, heads, tails]

theorem codes_injective {a b : GoString} (same : codes a = codes b) : a = b :=
  List.map_injective_iff.mpr (fun _ _ equal => UInt8.toNat_inj.mp equal) same

theorem intCmp_cases (a b : Int) : intCmp a b = if a < b then -1 else if b < a then 1 else 0 := rfl

theorem compareSemver_key (a b : GoString) :
    compareSemver a b = if key a < key b then -1 else if key b < key a then 1 else 0 := by
  unfold compareSemver key rank
  dsimp only
  simp only [Prod.Lex.toLex_lt_toLex]
  by_cases major : (parseSemver a).major = (parseSemver b).major
  · by_cases minor : (parseSemver a).minor = (parseSemver b).minor
    · by_cases patch : (parseSemver a).patch = (parseSemver b).patch
      · simp only [major, minor, patch, ne_eq, not_true, if_false, lt_irrefl, true_and, false_or, or_false]
        unfold suffixKey
        by_cases none : (parseSemver a).pre = []
        · by_cases none' : (parseSemver b).pre = []
          · simp [none, none']
          · simp [none, none']
        · by_cases none' : (parseSemver b).pre = []
          · simp [none, none']
          · simp only [none, none', false_and, and_false, if_false, not_false_eq_true, WithTop.coe_lt_coe, codes_lt_iff]
      · simp [major, minor, patch, intCmp_cases, Ne.symm patch]
    · simp [major, minor, intCmp_cases, Ne.symm minor]
  · simp [major, intCmp_cases, Ne.symm major]

theorem compareSemver_neg (a b : GoString) : compareSemver a b < 0 ↔ key a < key b := by
  rw [compareSemver_key]
  split
  case isTrue less => simp [less]
  case isFalse notLess => split <;> simp [notLess]

theorem compareSemver_pos (a b : GoString) : 0 < compareSemver a b ↔ key b < key a := by
  rw [compareSemver_key]
  split
  case isTrue less => simp [less.le]
  case isFalse notLess =>
      split
      case isTrue more => simp [more]
      case isFalse notMore => simp [notMore]

theorem compareSemver_le (a b : GoString) : compareSemver a b ≤ 0 ↔ key a ≤ key b := by
  rw [← Int.not_lt, compareSemver_pos, not_lt]

theorem compareSemver_refl (a : GoString) : compareSemver a a = 0 := by
  rw [compareSemver_key, if_neg (lt_irrefl _), if_neg (lt_irrefl _)]

theorem compareSemver_swap (a b : GoString) : compareSemver b a = -compareSemver a b := by
  rw [compareSemver_key, compareSemver_key a b]
  obtain less | same | more := lt_trichotomy (key a) (key b)
  · rw [if_neg less.asymm, if_pos less, if_pos less]
    rfl
  · rw [same, if_neg (lt_irrefl _), if_neg (lt_irrefl _)]
    rfl
  · rw [if_pos more, if_neg more.asymm, if_pos more]

theorem compareSemver_trans {a b c : GoString} (first : compareSemver a b ≤ 0) (second : compareSemver b c ≤ 0) :
    compareSemver a c ≤ 0 := by
  rw [compareSemver_le] at first second ⊢
  exact le_trans first second

def clip (n : Nat) : Int := (min n (2 ^ 63 - 1) : Nat)

-- A patch number that is not the whole of what Atoi is given is read only where it is too large.
def broken (n : Nat) : Int := if n < 2 ^ 64 then 0 else 2 ^ 63 - 1

theorem parseUintFrom_append {digits : GoString} (rest : GoString) {value : Nat} (all : digits.all Semver.isDigit = true)
    (small : value < 2 ^ 64) : parseUintFrom value (digits ++ rest) =
      if digits.foldl (fun n byte => n * 10 + (byte.toNat - 48)) value < 2 ^ 64 then
        parseUintFrom (digits.foldl (fun n byte => n * 10 + (byte.toNat - 48)) value) rest
      else some (2 ^ 64 - 1) := by
  induction digits generalizing value with
  | nil => exact (if_pos small).symm
  | cons byte digits ih =>
      obtain ⟨digit, others⟩ := Bool.and_eq_true_iff.mp all
      obtain ⟨least, most⟩ := Bool.and_eq_true_iff.mp digit
      have inside : ¬ (byte < 48 || 57 < byte) = true := by
        simpa using ⟨of_decide_eq_true least, of_decide_eq_true most⟩
      rw [List.cons_append, parseUintFrom, if_neg inside, List.foldl_cons]
      by_cases large : 2 ^ 64 ≤ value * 10 + (byte.toNat - 48)
      · have grown := value_grows digits (value * 10 + (byte.toNat - 48))
        rw [if_pos large, if_neg (not_lt.mpr (le_trans large grown))]
      · rw [if_neg large]
        exact ih others (not_le.mp large)

theorem atoi_digit {byte : UInt8} (digit : Semver.isDigit byte = true) (rest : GoString) :
    atoi (byte :: rest) = match parseUint (byte :: rest) with
      | some value => (min value (2 ^ 63 - 1) : Nat)
      | none => 0 := by
  unfold atoi
  split
  · next same =>
      obtain ⟨rfl, -⟩ := List.cons.inj same
      cases digit
  · next same =>
      obtain ⟨rfl, -⟩ := List.cons.inj same
      cases digit
  · rfl

theorem numeric_spec {text : GoString} {n : Nat} (number : Semver.numeric text = some n) :
    (∃ byte rest, text = byte :: rest ∧ Semver.isDigit byte = true) ∧ text.all Semver.isDigit = true ∧
      text.foldl (fun n byte => n * 10 + (byte.toNat - 48)) 0 = n := by
  unfold Semver.numeric at number
  split at number
  case isFalse => cases number
  case isTrue valid =>
      obtain ⟨some, all, -⟩ := valid
      obtain ⟨byte, rest, rfl⟩ := List.exists_cons_of_ne_nil some
      exact ⟨⟨byte, rest, rfl, (Bool.and_eq_true_iff.mp all).1⟩, all, Option.some.inj number⟩

theorem atoi_clip {text : GoString} {n : Nat} (number : Semver.numeric text = some n) : atoi text = clip n := by
  obtain ⟨⟨byte, rest, shape, digit⟩, all, folded⟩ := numeric_spec number
  have read := parseUintFrom_append [] all (by decide : 0 < 2 ^ 64)
  rw [folded, List.append_nil, shape] at read
  rw [shape, atoi_digit digit, parseUint, if_neg (List.cons_ne_nil _ _), read, clip]
  by_cases fits : n < 2 ^ 64
  · rw [if_pos fits]
    rfl
  · rw [if_neg fits]
    dsimp only
    congr 1
    omega

theorem atoi_broken {text : GoString} {n : Nat} (number : Semver.numeric text = some n) (rest : GoString) :
    atoi (text ++ 43 :: rest) = broken n := by
  obtain ⟨⟨byte, more, shape, digit⟩, all, folded⟩ := numeric_spec number
  have read := parseUintFrom_append (43 :: rest) all (by decide : 0 < 2 ^ 64)
  rw [folded, shape, List.cons_append] at read
  rw [shape, List.cons_append, atoi_digit digit, parseUint, if_neg (List.cons_ne_nil _ _), read, broken]
  by_cases fits : n < 2 ^ 64
  · rw [if_pos fits, if_pos fits]
    rfl
  · rw [if_neg fits, if_neg fits]
    rfl

theorem span_parts (sep : UInt8) (text : GoString) : ∃ before after, text.span (· ≠ sep) = (before, after) ∧
    text = before ++ after ∧ sep ∉ before ∧ (after = [] ∨ ∃ rest, after = sep :: rest) := by
  refine ⟨text.takeWhile (· ≠ sep), text.dropWhile (· ≠ sep), List.span_eq_takeWhile_dropWhile _ _, ?_, ?_, ?_⟩
  · exact List.takeWhile_append_dropWhile.symm
  · intro inside
    simpa using List.mem_takeWhile_imp inside
  · cases rest : text.dropWhile (· ≠ sep) with
    | nil => exact .inl rfl
    | cons first more =>
        have stops := List.head?_dropWhile_not (fun byte => decide (byte ≠ sep)) text
        rw [rest] at stops
        have same : first = sep := by simpa using stops
        exact .inr ⟨more, by rw [same]⟩

theorem span_cons {sep : UInt8} {before rest : GoString} (absent : sep ∉ before) :
    (before ++ sep :: rest).span (· ≠ sep) = (before, sep :: rest) := by
  have all : ∀ byte ∈ before, decide (byte ≠ sep) = true := fun byte member =>
    decide_eq_true fun same => absent (same ▸ member)
  rw [List.span_eq_takeWhile_dropWhile, List.takeWhile_append_of_pos all, List.dropWhile_append_of_pos all]
  simp

theorem join_splitOn (sep : UInt8) (text : GoString) : Joined.join sep (text.splitOn sep) = text := by
  have joined : ∀ parts : List GoString, Joined.join sep parts = [sep].intercalate parts := by
    intro parts
    induction parts with
    | nil => rfl
    | cons part rest ih =>
        cases rest with
        | nil => simp [Joined.join]
        | cons next rest => simp [Joined.join, ih]
  rw [joined, List.intercalate_splitOn]

def preText (v : Semver.Version) : GoString := if v.pre = [] then [] else 45 :: Joined.join 46 v.pre

def plusText (v : Semver.Version) : GoString := match v.build with
  | none => []
  | some build => 43 :: build

structure Written (text major minor patch : GoString) (v : Semver.Version) : Prop where
  whole : text = major ++ 46 :: (minor ++ 46 :: (patch ++ (preText v ++ plusText v)))
  major : Semver.numeric major = some (ofLex v.core).1
  minor : Semver.numeric minor = some (ofLex (ofLex v.core).2).1
  patch : Semver.numeric patch = some (ofLex (ofLex v.core).2).2
  parts : ∀ part ∈ v.pre, Semver.isPrePart part = true
  build : ∀ build ∈ v.build, Semver.isBuild build = true

theorem core_written {front : GoString} {core : Semver.Release} (known : Semver.core front = some core) :
    ∃ major minor patch, front = major ++ 46 :: (minor ++ 46 :: patch) ∧ Semver.numeric major = some (ofLex core).1 ∧
      Semver.numeric minor = some (ofLex (ofLex core).2).1 ∧ Semver.numeric patch = some (ofLex (ofLex core).2).2 := by
  obtain ⟨major, minor, patch, a, b, c, parts, first, second, third, rfl, -⟩ := core_parts known
  have whole := join_splitOn 46 front
  rw [parts] at whole
  exact ⟨major, minor, patch, whole.symm, first, second, third⟩

theorem version_written {text : GoString} {v : Semver.Version} (known : Semver.version text = some v) :
    ∃ major minor patch, Written text major minor patch v := by
  obtain ⟨main, plus, spanPlus, rfl, -, plusShape⟩ := span_parts 43 text
  obtain ⟨front, hyphen, spanHyphen, rfl, -, hyphenShape⟩ := span_parts 45 main
  unfold Semver.version at known
  rw [spanPlus] at known
  dsimp only at known
  rw [spanHyphen] at known
  split at known
  case h_2 => cases known
  case h_1 core pre build coreKnown preKnown buildKnown =>
      cases known
      obtain ⟨major, minor, patch, rfl, first, second, third⟩ := core_written coreKnown
      refine ⟨major, minor, patch, ?_, first, second, third, ?_, ?_⟩
      · have hyphenText : preText ⟨core, pre, build⟩ = hyphen := by
          obtain rfl | ⟨rest, rfl⟩ := hyphenShape
          · cases preKnown
            rfl
          · simp only [Semver.preParts] at preKnown
            split at preKnown
            case isFalse => cases preKnown
            case isTrue =>
                cases preKnown
                rw [preText, if_neg (List.splitOn_ne_nil 46 rest), join_splitOn]
        have plusTexts : plusText ⟨core, pre, build⟩ = plus := by
          obtain rfl | ⟨rest, rfl⟩ := plusShape
          · cases buildKnown
            rfl
          · simp only [Semver.buildText] at buildKnown
            split at buildKnown
            case isFalse => cases buildKnown
            case isTrue =>
                cases buildKnown
                rfl
        rw [hyphenText, plusTexts]
        simp only [List.append_assoc, List.cons_append]
      · obtain rfl | ⟨rest, rfl⟩ := hyphenShape
        · cases preKnown
          intro part none
          cases none
        · simp only [Semver.preParts] at preKnown
          split at preKnown
          case isFalse => cases preKnown
          case isTrue all =>
              cases preKnown
              exact List.all_eq_true.mp all
      · obtain rfl | ⟨rest, rfl⟩ := plusShape
        · cases buildKnown
          intro b none
          cases none
        · simp only [Semver.buildText] at buildKnown
          split at buildKnown
          case isFalse => cases buildKnown
          case isTrue valid =>
              cases buildKnown
              intro b same
              cases same
              exact valid

-- The three numbers as CompareSemver has them: the patch number is not read where build metadata follows it.
def readCore (v : Semver.Version) : Rank :=
  toLex (clip (ofLex v.core).1, toLex (clip (ofLex (ofLex v.core).2).1,
    if v.pre = [] ∧ v.build ≠ none then broken (ofLex (ofLex v.core).2).2 else clip (ofLex (ofLex v.core).2).2))

-- What it takes for the pre-release: all that follows the first hyphen.
def suffix (v : Semver.Version) : GoString :=
  if v.pre ≠ [] then Joined.join 46 v.pre ++ plusText v
  else match v.build with
    | none => []
    | some build => ((cut 45 build).map Prod.snd).getD []

theorem cut_some {sep : UInt8} {before rest : GoString} (absent : sep ∉ before) :
    cut sep (before ++ sep :: rest) = some (before, rest) := by
  rw [cut, span_cons absent]

theorem cut_none {sep : UInt8} {text : GoString} (absent : sep ∉ text) : cut sep text = none := by
  rw [cut, span_absent absent]

theorem numeric_absent {text : GoString} {n : Nat} (number : Semver.numeric text = some n) {byte : UInt8}
    (notDigit : Semver.isDigit byte = false) : byte ∉ text := fun member => by
  rw [numeric_digits number byte member] at notDigit
  cases notDigit

theorem splitOn_three {major minor last : GoString} (first : 46 ∉ major) (second : 46 ∉ minor) :
    (major ++ 46 :: (minor ++ 46 :: last)).splitOn 46 = major :: minor :: last.splitOn 46 := by
  rw [List.splitOn_append_cons_self, List.splitOn_append_cons_self, List.splitOn_eq_singleton first,
    List.splitOn_eq_singleton second]
  rfl

theorem splitOn_first (text : GoString) : ∃ rest more, text.splitOn 46 = rest :: more ∧
    ∀ front : GoString, 46 ∉ front → (front ++ text).splitOn 46 = (front ++ rest) :: more := by
  obtain ⟨before, after, -, rfl, absent, rfl | ⟨rest, rfl⟩⟩ := span_parts 46 text
  · refine ⟨before, [], ?_, fun front outside => ?_⟩
    · rw [List.append_nil, List.splitOn_eq_singleton absent]
    · rw [List.append_nil, List.splitOn_eq_singleton]
      simp [outside, absent]
  · refine ⟨before, rest.splitOn 46, ?_, fun front outside => ?_⟩
    · rw [List.splitOn_append_cons_self, List.splitOn_eq_singleton absent]
      rfl
    · rw [← List.append_assoc, List.splitOn_append_cons_self, List.splitOn_eq_singleton]
      · rfl
      · simp [outside, absent]

theorem parseSemver_cut {version front suffix major minor last : GoString} {n : Int} (first : 46 ∉ major) (second : 46 ∉ minor)
    (shape : (cut 45 version).getD (version, []) = (front, suffix)) (whole : front = major ++ 46 :: (minor ++ 46 :: last))
    (read : ((last.splitOn 46)[0]?.map atoi).getD 0 = n) :
    parseSemver version = ⟨atoi major, atoi minor, n, suffix⟩ := by
  unfold parseSemver
  rw [shape]
  dsimp only
  rw [whole, splitOn_three first second, ← read]
  rfl

theorem parseSemver_written {text major minor patch : GoString} {v : Semver.Version}
    (written : Written text major minor patch v) :
    rank text = readCore v ∧ (parseSemver text).pre = suffix v := by
  have dot : Semver.isDigit 46 = false := by decide
  have hyphen : Semver.isDigit 45 = false := by decide
  have noDot := numeric_absent written.patch dot
  have noHyphen : ∀ rest : GoString, 45 ∉ rest → 45 ∉ major ++ 46 :: (minor ++ 46 :: (patch ++ rest)) := by
    intro rest outside
    simp only [List.mem_append, List.mem_cons, not_or]
    exact ⟨numeric_absent written.major hyphen, by decide, numeric_absent written.minor hyphen, by decide,
      numeric_absent written.patch hyphen, outside⟩
  have parsed : ∀ {front suffix rest : GoString} {n : Int}, (cut 45 text).getD (text, []) = (front, suffix) →
      front = major ++ 46 :: (minor ++ 46 :: (patch ++ rest)) → (((patch ++ rest).splitOn 46)[0]?.map atoi).getD 0 = n →
      rank text = toLex (clip (ofLex v.core).1, toLex (clip (ofLex (ofLex v.core).2).1, n)) ∧
        (parseSemver text).pre = suffix := by
    intro front suffix rest n shape whole read
    have all := parseSemver_cut (numeric_absent written.major dot) (numeric_absent written.minor dot) shape whole read
    rw [rank, all, atoi_clip written.major, atoi_clip written.minor]
    exact ⟨rfl, rfl⟩
  have plainPatch : (((patch ++ []).splitOn 46)[0]?.map atoi).getD 0 = clip (ofLex (ofLex v.core).2).2 := by
    rw [List.append_nil, List.splitOn_eq_singleton noDot]
    exact atoi_clip written.patch
  have brokenPatch : ∀ rest : GoString,
      (((patch ++ 43 :: rest).splitOn 46)[0]?.map atoi).getD 0 = broken (ofLex (ofLex v.core).2).2 := by
    intro rest
    obtain ⟨first, more, -, split⟩ := splitOn_first rest
    have outside : 46 ∉ patch ++ [43] := by simp [noDot]
    have shape := split (patch ++ [43]) outside
    rw [List.append_assoc, List.singleton_append, List.append_assoc, List.singleton_append] at shape
    rw [shape]
    exact atoi_broken written.patch first
  have whole := written.whole
  unfold readCore suffix
  by_cases none : v.pre = []
  · rw [preText, if_pos none, List.nil_append, plusText] at whole
    rw [if_neg (not_not.mpr none)]
    cases build : v.build with
    | none =>
        rw [build] at whole
        rw [if_neg (fun wrong => wrong.2 rfl)]
        refine parsed ?_ rfl plainPatch
        rw [whole, cut_none (noHyphen [] (by simp))]
        rfl
    | some b =>
        rw [build] at whole
        rw [if_pos ⟨none, by simp⟩]
        obtain ⟨before, after, -, rfl, absent, rfl | ⟨rest, rfl⟩⟩ := span_parts 45 b
        · rw [List.append_nil] at whole ⊢
          dsimp only at whole ⊢
          rw [cut_none absent]
          refine parsed ?_ rfl (brokenPatch before)
          rw [whole, cut_none (noHyphen (43 :: before) (by simp [absent]))]
          rfl
        · dsimp only at whole ⊢
          rw [cut_some absent]
          refine parsed ?_ rfl (brokenPatch before)
          have apart := noHyphen (43 :: before) (by simp [absent])
          have joined : text = (major ++ 46 :: (minor ++ 46 :: (patch ++ 43 :: before))) ++ 45 :: rest := by
            rw [whole]
            simp
          rw [joined, cut_some apart]
          rfl
  · rw [if_neg (fun wrong => none wrong.1), if_pos none]
    rw [preText, if_neg none] at whole
    refine parsed ?_ rfl plainPatch
    have apart := noHyphen [] (by simp)
    have joined : text = (major ++ 46 :: (minor ++ 46 :: (patch ++ []))) ++ 45 :: (Joined.join 46 v.pre ++ plusText v) := by
      rw [whole]
      simp
    rw [joined, cut_some apart]
    rfl

def Upset (x : GoString) (more : List GoString) (y : GoString) : Prop :=
  (∃ common a b x' y', x = common ++ a :: x' ∧ y = common ++ b :: y' ∧ b < a) ∨ (more ≠ [] ∧ ∃ y', y = x ++ 45 :: y')

def SameFirst : List GoString → List GoString → Prop
  | x :: xs, y :: ys => if x = y then SameFirst xs ys else ¬ Upset x xs y
  | _, _ => True

theorem differ {x y : GoString} (different : x ≠ y) :
    (∃ common a b x' y', a ≠ b ∧ x = common ++ a :: x' ∧ y = common ++ b :: y') ∨ (∃ d y', y = x ++ d :: y') ∨
      ∃ d x', x = y ++ d :: x' := by
  induction x generalizing y with
  | nil =>
      cases y with
      | nil => exact absurd rfl different
      | cons d y => exact .inr (.inl ⟨d, y, rfl⟩)
  | cons a x ih =>
      cases y with
      | nil => exact .inr (.inr ⟨a, x, rfl⟩)
      | cons b y =>
          by_cases same : a = b
          · subst same
            obtain ⟨common, c, d, x', y', apart, rfl, rfl⟩ | ⟨d, y', rfl⟩ | ⟨d, x', rfl⟩ :=
              ih fun equal => different (by rw [equal])
            · exact .inl ⟨a :: common, c, d, x', y', apart, rfl, rfl⟩
            · exact .inr (.inl ⟨d, y', rfl⟩)
            · exact .inr (.inr ⟨d, x', rfl⟩)
          · exact .inl ⟨[], a, b, x, y, same, rfl, rfl⟩

theorem append_lt_iff (common x y : GoString) : common ++ x < common ++ y ↔ x < y := by
  induction common with
  | nil => rfl
  | cons byte common ih =>
      rw [List.cons_append, List.cons_append, List.cons_lt_cons_iff, ih]
      exact ⟨fun less => (less.resolve_left (UInt8.lt_irrefl byte)).2, fun less => .inr ⟨rfl, less⟩⟩

theorem cons_lt_of_ne {a b : UInt8} (different : a ≠ b) (x y : GoString) : a :: x < b :: y ↔ a < b := by
  rw [List.cons_lt_cons_iff]
  exact ⟨fun less => less.resolve_right fun same => different same.1, .inl⟩

theorem text_asymm {x y : GoString} (less : x < y) : ¬ y < x := by
  rw [codes_lt_iff] at less ⊢
  exact less.asymm

theorem identifier_sign {byte : UInt8} (valid : Semver.isIdentifier byte = true) : byte = 45 ∨ 46 < byte ∧ byte ≠ 46 := by
  have all : ∀ n < 256, Semver.isIdentifier (UInt8.ofNat n) = true →
      UInt8.ofNat n = 45 ∨ 46 < UInt8.ofNat n ∧ UInt8.ofNat n ≠ 46 := by decide +kernel
  have here := all byte.toNat byte.toNat_lt
  rw [UInt8.ofNat_toNat] at here
  exact here valid

structure PrePart (part : GoString) : Prop where
  some : part ≠ []
  signs : ∀ byte ∈ part, Semver.isIdentifier byte = true
  noZero : part.all Semver.isDigit = true → part.head? = .some 48 → part = [48]

theorem prePart_of {part : GoString} (valid : Semver.isPrePart part = true) : PrePart part := by
  simp only [Semver.isPrePart, Bool.and_eq_true, Bool.or_eq_true, decide_eq_true_eq, Bool.not_eq_true', ne_eq] at valid
  obtain ⟨⟨some, signs⟩, plain⟩ := valid
  refine ⟨some, List.all_eq_true.mp signs, fun digits zero => ?_⟩
  obtain (wrong | wrong) | single := plain
  · rw [wrong] at digits
    cases digits
  · exact absurd zero wrong
  · exact single

theorem digit_bounds {byte : UInt8} (digit : Semver.isDigit byte = true) : 48 ≤ byte.toNat ∧ byte.toNat ≤ 57 := by
  simpa [Semver.isDigit, UInt8.le_iff_toNat_le] using digit

theorem value_pos {digits : GoString} (some : digits ≠ []) (all : ∀ byte ∈ digits, Semver.isDigit byte = true)
    (noZero : digits.head? ≠ .some 48) : 0 < Semver.value digits := by
  obtain ⟨byte, rest, rfl⟩ := List.exists_cons_of_ne_nil some
  have bounds := digit_bounds (all byte (.head _))
  have above : byte.toNat ≠ 48 := fun same => noZero (congrArg Option.some (UInt8.toNat_inj.mp same))
  have grown := value_grows rest (0 * 10 + (byte.toNat - 48))
  exact lt_of_lt_of_le (by omega) grown

theorem value_snoc (digits : GoString) (byte : UInt8) :
    Semver.value (digits ++ [byte]) = Semver.value digits * 10 + (byte.toNat - 48) := by
  rw [Semver.value, List.foldl_append]
  rfl

theorem value_strict {x y : GoString} (all : ∀ byte ∈ x, Semver.isDigit byte = true)
    (all' : ∀ byte ∈ y, Semver.isDigit byte = true) (noZero : x.head? ≠ some 48) (noZero' : y.head? ≠ some 48)
    (same : Semver.value x = Semver.value y) : x = y := by
  induction x using List.reverseRecOn generalizing y with
  | nil =>
      by_contra different
      have more := value_pos (Ne.symm different) all' noZero'
      rw [← same] at more
      exact absurd more (lt_irrefl 0)
  | append_singleton x byte ih =>
      obtain rfl | ⟨y, other, rfl⟩ := List.eq_nil_or_concat' y
      · have more := value_pos (by simp) all noZero
        rw [same] at more
        exact absurd more (lt_irrefl 0)
      · have bounds := digit_bounds (all byte (by simp))
        have bounds' := digit_bounds (all' other (by simp))
        rw [value_snoc, value_snoc] at same
        have last : byte = other := UInt8.toNat_inj.mp (by omega)
        have front : x = y := by
          refine ih (fun b member => all b (List.mem_append_left _ member)) (fun b member => all' b (List.mem_append_left _ member))
            (fun zero => ?_) (fun zero => ?_) (by omega)
          · cases x with
            | nil => cases zero
            | cons first rest => exact noZero zero
          · cases y with
            | nil => cases zero
            | cons first rest => exact noZero' zero
        rw [front, last]

theorem value_injective {x y : GoString} (part : PrePart x) (part' : PrePart y) (all : x.all Semver.isDigit = true)
    (all' : y.all Semver.isDigit = true) (same : Semver.value x = Semver.value y) : x = y := by
  have digits := List.all_eq_true.mp all
  have digits' := List.all_eq_true.mp all'
  by_cases zero : x.head? = some 48
  · have single := part.noZero all zero
    by_cases zero' : y.head? = some 48
    · rw [single, part'.noZero all' zero']
    · have more := value_pos part'.some digits' zero'
      rw [← same, single] at more
      cases more
  · by_cases zero' : y.head? = some 48
    · have more := value_pos part.some digits zero
      rw [same, part'.noZero all' zero'] at more
      cases more
    · exact value_strict digits digits' zero zero' same

theorem identifier_injective {x y : GoString} (part : PrePart x) (part' : PrePart y)
    (same : Semver.identifier x = Semver.identifier y) : x = y := by
  unfold Semver.identifier at same
  by_cases digits : x.all Semver.isDigit = true <;> by_cases digits' : y.all Semver.isDigit = true
  · rw [if_pos digits, if_pos digits'] at same
    exact value_injective part part' digits digits' (Sum.inl.inj (toLex.injective same))
  · rw [if_pos digits, if_neg digits'] at same
    cases toLex.injective same
  · rw [if_neg digits, if_pos digits'] at same
    cases toLex.injective same
  · rw [if_neg digits, if_neg digits'] at same
    exact codes_injective (Sum.inr.inj (toLex.injective same))

theorem extension_not_lt {x : GoString} (d : UInt8) (more : GoString) :
    ¬ Semver.identifier (x ++ d :: more) < Semver.identifier x := by
  unfold Semver.identifier
  by_cases digits : (x ++ d :: more).all Semver.isDigit = true
  · have front : x.all Semver.isDigit = true := by
      rw [List.all_append, Bool.and_eq_true] at digits
      exact digits.1
    rw [if_pos digits, if_pos front, Sum.Lex.inl_lt_inl_iff, not_lt, Semver.value, Semver.value, List.foldl_append]
    exact value_grows (d :: more) _
  · rw [if_neg digits]
    split
    · exact Sum.Lex.not_inr_lt_inl
    · rw [Sum.Lex.inr_lt_inr_iff, List.map_append]
      have longer : x.map UInt8.toNat < x.map UInt8.toNat ++ (d :: more).map UInt8.toNat := by
        have less : x < x ++ d :: more := by
          have cancelled := (append_lt_iff x [] (d :: more)).mpr (List.nil_lt_cons d more)
          rwa [List.append_nil] at cancelled
        rw [codes_lt_iff, codes, codes, List.map_append] at less
        exact less
      exact longer.asymm

theorem byte_ne {a b : UInt8} (less : b < a) : a ≠ b := by
  rintro rfl
  exact UInt8.lt_irrefl _ less

theorem common_head {common more x' : GoString} {a b : UInt8} {y' : GoString}
    (same : common ++ b :: y' = common ++ a :: x' ++ more) : a = b := by
  rw [List.append_assoc] at same
  exact (List.cons.inj (List.append_cancel_left same)).1.symm

inductive Follows : List GoString → GoString → Prop where
  | last : Follows [] []
  | build (rest : GoString) : Follows [] (43 :: rest)
  | next {xs : List GoString} (rest : GoString) (some : xs ≠ []) : Follows xs (46 :: rest)

theorem first_lt_iff {x y : GoString} (part' : PrePart y) (less : Semver.identifier x < Semver.identifier y)
    {xs : List GoString} {after : GoString} (follows : Follows xs after) (other : GoString) :
    x ++ after < y ++ other ↔ ¬ Upset x xs y := by
  have different : x ≠ y := by
    rintro rfl
    exact lt_irrefl _ less
  obtain ⟨common, a, b, x', y', apart, rfl, rfl⟩ | ⟨d, y', rfl⟩ | ⟨d, x', rfl⟩ := differ different
  · rw [List.append_assoc, List.append_assoc, append_lt_iff, List.cons_append, List.cons_append, cons_lt_of_ne apart]
    constructor
    · rintro before (⟨common', a', b', x'', y'', first, second, back⟩ | ⟨-, more, second⟩)
      · have forward : common ++ a :: x' < common ++ b :: y' := by
          rw [append_lt_iff, cons_lt_of_ne apart]
          exact before
        rw [first, second] at forward
        refine text_asymm forward ?_
        rw [append_lt_iff, cons_lt_of_ne (byte_ne back).symm]
        exact back
      · exact apart (common_head second)
    · intro kept
      obtain before | same | back := Nat.lt_trichotomy a.toNat b.toNat
      · exact UInt8.lt_iff_toNat_lt.mpr before
      · exact absurd (UInt8.toNat_inj.mp same) apart
      · exact absurd (.inl ⟨common, a, b, x', y', rfl, rfl, UInt8.lt_iff_toNat_lt.mpr back⟩) kept
  · have sign := identifier_sign (part'.signs d (by simp))
    have noSwap : ∀ common' a' b' x'' y'', x = common' ++ a' :: x'' → x ++ d :: y' = common' ++ b' :: y'' → ¬ b' < a' := by
      rintro common' a' b' x'' y'' rfl second back
      exact byte_ne back (common_head second.symm)
    rw [List.append_assoc, append_lt_iff, List.cons_append]
    cases follows with
    | last =>
        refine ⟨fun _ upset => ?_, fun _ => List.nil_lt_cons _ _⟩
        obtain ⟨common', a', b', x'', y'', first, second, back⟩ | ⟨some, -⟩ := upset
        · exact noSwap common' a' b' x'' y'' first second back
        · exact some rfl
    | build rest =>
        have before : (43 : UInt8) < d := by
          obtain rfl | ⟨above, -⟩ := sign
          · decide
          · exact UInt8.lt_trans (by decide) above
        refine ⟨fun _ upset => ?_, fun _ => List.cons_lt_cons_iff.mpr (.inl before)⟩
        obtain ⟨common', a', b', x'', y'', first, second, back⟩ | ⟨some, -⟩ := upset
        · exact noSwap common' a' b' x'' y'' first second back
        · exact some rfl
    | next rest some =>
        obtain rfl | ⟨above, notDot⟩ := sign
        · rw [cons_lt_of_ne (by decide)]
          refine ⟨fun wrong => absurd wrong (by decide), fun kept => absurd (.inr ⟨some, y', rfl⟩) kept⟩
        · refine ⟨fun _ upset => ?_, fun _ => List.cons_lt_cons_iff.mpr (.inl above)⟩
          obtain ⟨common', a', b', x'', y'', first, second, back⟩ | ⟨-, more, same⟩ := upset
          · exact noSwap common' a' b' x'' y'' first second back
          · have hyphen : d = 45 := (List.cons.inj (List.append_cancel_left same)).1
            rw [hyphen] at above
            exact absurd above (by decide)
  · exact absurd less (extension_not_lt d x')

theorem join_cons_append (x : GoString) (xs : List GoString) (tail : GoString) (shape : tail = [] ∨ ∃ rest, tail = 43 :: rest) :
    ∃ after, Joined.join 46 (x :: xs) ++ tail = x ++ after ∧ Follows xs after ∧
      (xs ≠ [] → after = 46 :: (Joined.join 46 xs ++ tail)) := by
  cases xs with
  | nil =>
      refine ⟨tail, rfl, ?_, fun wrong => absurd rfl wrong⟩
      obtain rfl | ⟨rest, rfl⟩ := shape
      · exact .last
      · exact .build rest
  | cons next rest =>
      refine ⟨46 :: (Joined.join 46 (next :: rest) ++ tail), ?_, .next _ (List.cons_ne_nil _ _), fun _ => rfl⟩
      rw [Joined.join]
      · simp
      · exact List.cons_ne_nil _ _

-- Of two lists of identifiers, the suffix of the one that goes before is the smaller text just when the identifiers at
-- which they differ are not upset.
theorem join_lt_iff {p q : List GoString} (parts : ∀ part ∈ p, PrePart part) (parts' : ∀ part ∈ q, PrePart part)
    (less : p.map Semver.identifier < q.map Semver.identifier) {tail tail' : GoString}
    (shape : tail = [] ∨ ∃ rest, tail = 43 :: rest) (shape' : tail' = [] ∨ ∃ rest, tail' = 43 :: rest) (some : p ≠ []) :
    Joined.join 46 p ++ tail < Joined.join 46 q ++ tail' ↔ SameFirst p q := by
  induction p generalizing q with
  | nil => exact absurd rfl some
  | cons x xs ih =>
      cases q with
      | nil => simp at less
      | cons y ys =>
          obtain ⟨after, left, follows, next⟩ := join_cons_append x xs tail shape
          obtain ⟨after', right, follows', next'⟩ := join_cons_append y ys tail' shape'
          rw [List.map_cons, List.map_cons, List.cons_lt_cons_iff] at less
          rw [left, right, SameFirst]
          by_cases same : x = y
          · subst same
            have rest : xs.map Semver.identifier < ys.map Semver.identifier := (less.resolve_left (lt_irrefl _)).2
            have some' : ys ≠ [] := by
              rintro rfl
              simp at rest
            rw [if_pos rfl, append_lt_iff, next' some']
            cases follows with
            | last => exact ⟨fun _ => trivial, fun _ => List.nil_lt_cons _ _⟩
            | build more => exact ⟨fun _ => trivial, fun _ => List.cons_lt_cons_iff.mpr (.inl (by decide))⟩
            | next more somewhere =>
                rw [next somewhere]
                refine (append_lt_iff [46] _ _).trans ?_
                exact ih (fun part member => parts part (.tail x member)) (fun part member => parts' part (.tail x member)) rest
                  somewhere
          · rw [if_neg same]
            have before : Semver.identifier x < Semver.identifier y :=
              less.resolve_right fun equal => same (identifier_injective (parts x (.head _)) (parts' y (.head _)) equal.1)
            exact first_lt_iff (parts' y (.head _)) before follows after'

def Before (first second : GoString) : Prop := first ≠ [] ∧ (second = [] ∨ first < second)

theorem suffixKey_lt_iff (first second : GoString) : suffixKey first < suffixKey second ↔ Before first second := by
  unfold suffixKey Before
  by_cases none : first = []
  · simp [none]
  · by_cases none' : second = []
    · simp [none, none']
    · simp only [none, none', if_false, WithTop.coe_lt_coe, ne_eq, not_false_eq_true, true_and, false_or, codes_lt_iff]

-- The first version goes before the second, also for CompareSemver: by the numbers that it reads, or where these are
-- equal by what follows the first hyphen.
def Kept (v w : Semver.Version) : Prop :=
  if v.core = w.core then
    readCore v = readCore w ∧ if w.pre = [] then Before (suffix v) (suffix w) else SameFirst v.pre w.pre
  else readCore v < readCore w ∨ readCore v = readCore w ∧ Before (suffix v) (suffix w)

def Agree (v w : Semver.Version) : Prop :=
  (v.precedence < w.precedence → Kept v w) ∧ (w.precedence < v.precedence → Kept w v) ∧
    (v.precedence = w.precedence → readCore v = readCore w ∧ suffix v = suffix w)

def versionKey (v : Semver.Version) : Key := toLex (readCore v, suffixKey (suffix v))

theorem key_version {text : GoString} {v : Semver.Version} (known : Semver.version text = some v) :
    key text = versionKey v ∧ ∀ part ∈ v.pre, PrePart part := by
  obtain ⟨major, minor, patch, written⟩ := version_written known
  obtain ⟨ranked, read⟩ := parseSemver_written written
  exact ⟨by rw [key, ranked, read, versionKey], fun part member => prePart_of (written.parts part member)⟩

theorem broken_le_clip (n : Nat) : broken n ≤ clip n := by
  unfold broken clip
  split <;> omega

def clipCore (core : Semver.Release) : Rank :=
  toLex (clip (ofLex core).1, toLex (clip (ofLex (ofLex core).2).1, clip (ofLex (ofLex core).2).2))

theorem readCore_pre {v : Semver.Version} (some : v.pre ≠ []) : readCore v = clipCore v.core := by
  unfold readCore
  rw [if_neg (fun wrong => some wrong.1)]
  rfl

theorem readCore_le (v : Semver.Version) : readCore v ≤ clipCore v.core := by
  unfold readCore clipCore
  rw [Prod.Lex.toLex_le_toLex]
  refine .inr ⟨rfl, ?_⟩
  rw [Prod.Lex.toLex_le_toLex]
  refine .inr ⟨rfl, ?_⟩
  split
  · exact broken_le_clip _
  · exact le_rfl

theorem join_ne_nil {p : List GoString} (some : p ≠ []) (parts : ∀ part ∈ p, PrePart part) (tail : GoString) :
    Joined.join 46 p ++ tail ≠ [] := by
  obtain ⟨first, rest, rfl⟩ := List.exists_cons_of_ne_nil some
  have filled := (parts first (.head _)).some
  cases rest with
  | nil => simp [Joined.join, filled]
  | cons next rest => simp [Joined.join, filled]

theorem plusText_shape (v : Semver.Version) : plusText v = [] ∨ ∃ rest, plusText v = 43 :: rest := by
  unfold plusText
  cases v.build with
  | none => exact .inl rfl
  | some build => exact .inr ⟨build, rfl⟩

theorem kept_iff {v w : Semver.Version} (parts : ∀ part ∈ v.pre, PrePart part) (parts' : ∀ part ∈ w.pre, PrePart part)
    (less : v.precedence < w.precedence) : versionKey v < versionKey w ↔ Kept v w := by
  unfold versionKey Kept
  rw [Prod.Lex.toLex_lt_toLex, suffixKey_lt_iff]
  unfold Semver.Version.precedence at less
  rw [Prod.Lex.toLex_lt_toLex] at less
  by_cases same : v.core = w.core
  · have pres := (less.resolve_left fun wrong => lt_irrefl _ (same ▸ wrong)).2
    rw [if_pos same]
    by_cases none : v.pre = []
    · simp [none] at pres
    · by_cases none' : w.pre = []
      · have back : readCore w ≤ readCore v := by
          rw [readCore_pre none, same]
          exact readCore_le w
        rw [if_pos none']
        exact ⟨fun before => before.resolve_left (not_lt.mpr back), .inr⟩
      · have cores : readCore v = readCore w := by rw [readCore_pre none, readCore_pre none', same]
        rw [if_neg none, if_neg none', WithTop.coe_lt_coe] at pres
        have texts := join_lt_iff parts parts' pres (plusText_shape v) (plusText_shape w) none
        have filled := join_ne_nil none parts (plusText v)
        have filled' := join_ne_nil none' parts' (plusText w)
        rw [if_neg none', ← texts, suffix, suffix, if_pos none, if_pos none', Before, cores]
        simp only [lt_irrefl, false_or, true_and, filled, filled', ne_eq, not_false_eq_true]
  · rw [if_neg same]

structure SemverOrder (a b c : GoString) : Prop where
  reflexive : compareSemver a a = 0
  antisymmetric : compareSemver b a = -compareSemver a b
  transitive : compareSemver a b ≤ 0 → compareSemver b c ≤ 0 → compareSemver a c ≤ 0
  precedes : ∀ v w, Semver.version a = some v → Semver.version b = some w →
    (compareSemver a b < 0 ↔ v.precedence < w.precedence) ∧ (0 < compareSemver a b ↔ w.precedence < v.precedence)

theorem agree_iff {a b : GoString} {v w : Semver.Version} (known : Semver.version a = some v)
    (known' : Semver.version b = some w) :
    (compareSemver a b < 0 ↔ v.precedence < w.precedence) ∧ (0 < compareSemver a b ↔ w.precedence < v.precedence) ↔
      Agree v w := by
  obtain ⟨here, parts⟩ := key_version known
  obtain ⟨there, parts'⟩ := key_version known'
  rw [compareSemver_neg, compareSemver_pos, here, there]
  unfold Agree
  have equal : readCore v = readCore w ∧ suffix v = suffix w ↔ versionKey v = versionKey w := by
    refine ⟨fun both => by rw [versionKey, versionKey, both.1, both.2], fun same => ?_⟩
    obtain ⟨cores, suffixes⟩ := Prod.mk.inj (toLex.injective same)
    refine ⟨cores, ?_⟩
    have apart : ¬ Before (suffix v) (suffix w) ∧ ¬ Before (suffix w) (suffix v) := by
      rw [← suffixKey_lt_iff, ← suffixKey_lt_iff, suffixes]
      exact ⟨lt_irrefl _, lt_irrefl _⟩
    unfold suffixKey at suffixes
    by_cases none : suffix v = []
    · by_cases none' : suffix w = []
      · rw [none, none']
      · rw [if_pos none, if_neg none'] at suffixes
        cases suffixes
    · by_cases none' : suffix w = []
      · rw [if_neg none, if_pos none'] at suffixes
        cases suffixes
      · rw [if_neg none, if_neg none'] at suffixes
        exact codes_injective (WithTop.coe_injective suffixes)
  rw [equal]
  obtain less | same | more := lt_trichotomy v.precedence w.precedence
  · rw [← kept_iff parts parts' less]
    simp only [less, less.asymm, less.ne, iff_true, iff_false, not_lt, false_implies, true_implies, and_true]
    exact ⟨fun both => both.1, fun before => ⟨before, before.le⟩⟩
  · rw [same]
    simp only [lt_irrefl, iff_false, not_lt, false_implies, true_implies, true_and]
    exact ⟨fun both => le_antisymm both.2 both.1, fun equal => ⟨equal.ge, equal.le⟩⟩
  · rw [← kept_iff parts' parts more]
    simp only [more, more.asymm, more.ne', iff_true, iff_false, not_lt, false_implies, true_implies, true_and, and_true]
    exact ⟨fun both => both.2, fun before => ⟨before.le, before⟩⟩

theorem semverOrder_iff (a b c : GoString) : SemverOrder a b c ↔
    ∀ v w, Semver.version a = some v → Semver.version b = some w → Agree v w := by
  constructor
  · intro order v w known known'
    exact (agree_iff known known').mp (order.precedes v w known known')
  · intro agree
    exact ⟨compareSemver_refl a, compareSemver_swap a b, compareSemver_trans,
      fun v w known known' => (agree_iff known known').mpr (agree v w known known')⟩

-- Numbers among the identifiers of a pre-release are compared as texts.
theorem semverOrder_numbers : ¬ SemverOrder (lit "1.0.0-2") (lit "1.0.0-10") [] := by
  intro order
  have known : Semver.version (lit "1.0.0-2") = some ⟨toLex (1, toLex (0, 0)), [[50]], none⟩ := by decide
  have known' : Semver.version (lit "1.0.0-10") = some ⟨toLex (1, toLex (0, 0)), [[49, 48]], none⟩ := by decide
  have agrees := order.precedes _ _ known known'
  have wrong : ¬ compareSemver (lit "1.0.0-2") (lit "1.0.0-10") < 0 := by decide
  refine wrong (agrees.1.mpr ?_)
  decide

end Brainkit.Tools
