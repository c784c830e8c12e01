import Mathlib.Data.List.TakeDrop
import Mathlib.Data.List.TakeWhile
import Brainkit.Library.Semver
import Brainkit.Tools.Naming

set_option autoImplicit false

namespace Brainkit.Tools

open GoText

-- What CompareSemver reads of a version that has no pre-release suffix.
abbrev Rank := Int ×ₗ Int ×ₗ Int

def rank (version : GoString) : Rank :=
  let v := parseSemver version
  toLex (v.major, toLex (v.minor, v.patch))

theorem intCmp_pos (a b : Int) : 0 < intCmp a b ↔ b < a := by
  unfold intCmp
  split
  · omega
  · split <;> omega

theorem plain_pre {version : GoString} (plain : isPrerelease version = false) : (parseSemver version).pre = [] := by
  simpa [isPrerelease] using plain

theorem compareSemver_rank {a b : GoString} (plain : isPrerelease a = false) (other : isPrerelease b = false) :
    0 < compareSemver a b ↔ rank b < rank a := by
  unfold compareSemver rank
  simp only [plain_pre plain, plain_pre other, Prod.Lex.toLex_lt_toLex, ne_eq, not_true, and_false, false_and,
    if_false, List.lt_irrefl]
  by_cases major : (parseSemver a).major = (parseSemver b).major
  · by_cases minor : (parseSemver a).minor = (parseSemver b).minor
    · by_cases patch : (parseSemver a).patch = (parseSemver b).patch
      · simp [major, minor, patch]
      · simp [major, minor, patch, intCmp_pos]
    · simp [major, minor, intCmp_pos, Ne.symm minor]
  · simp [major, intCmp_pos, Ne.symm major]

theorem value_grows (digits : GoString) (value : Nat) :
    value ≤ digits.foldl (fun n byte => n * 10 + (byte.toNat - 48)) value := by
  induction digits generalizing value with
  | nil => exact le_refl value
  | cons byte rest ih =>
      have step : value ≤ value * 10 + (byte.toNat - 48) := by omega
      exact le_trans step (ih _)

theorem parseUintFrom_digits (digits : GoString) (value : Nat) (all : digits.all Semver.isDigit = true)
    (fits : digits.foldl (fun n byte => n * 10 + (byte.toNat - 48)) value < 2 ^ 64) :
    parseUintFrom value digits = some (digits.foldl (fun n byte => n * 10 + (byte.toNat - 48)) value) := by
  induction digits generalizing value with
  | nil => rfl
  | cons byte rest ih =>
      obtain ⟨digit, others⟩ := Bool.and_eq_true_iff.mp all
      obtain ⟨least, most⟩ := Bool.and_eq_true_iff.mp digit
      have inside : ¬ (byte < 48 || 57 < byte) = true := by
        simpa using ⟨of_decide_eq_true least, of_decide_eq_true most⟩
      have room : ¬ 2 ^ 64 ≤ value * 10 + (byte.toNat - 48) := not_le_of_gt (lt_of_le_of_lt (value_grows rest _) fits)
      rw [parseUintFrom, if_neg inside, if_neg room]
      exact ih _ others fits

theorem atoi_numeric {text : GoString} {value : Nat} (number : Semver.numeric text = some value) (fits : value < 2 ^ 63) :
    atoi text = value := by
  unfold Semver.numeric at number
  split at number
  case isFalse => cases number
  case isTrue valid =>
      obtain ⟨some, all, -⟩ := valid
      have same : Semver.value text = value := Option.some.inj number
      have read : parseUint text = .some value := by
        rw [parseUint, if_neg some, parseUintFrom_digits text 0 all, ← same]
        · rfl
        · exact lt_trans (same.symm ▸ fits) (by decide)
      have first : ∀ byte rest, text = byte :: rest → byte ≠ 45 ∧ byte ≠ 43 := by
        rintro byte rest rfl
        have digit := (Bool.and_eq_true_iff.mp all).1
        constructor <;> (rintro rfl; cases digit)
      unfold atoi
      split
      · exact absurd rfl (first _ _ rfl).1
      · exact absurd rfl (first _ _ rfl).2
      · rw [read]
        exact congrArg Int.ofNat (Nat.min_eq_left (by omega))

theorem span_absent {sep : UInt8} {text : GoString} (absent : sep ∉ text) : text.span (· ≠ sep) = (text, []) := by
  have all : ∀ byte ∈ text, decide (byte ≠ sep) = true := fun byte member =>
    decide_eq_true fun same => absent (same ▸ member)
  rw [List.span_eq_takeWhile_dropWhile, List.takeWhile_eq_self_iff.mpr all, List.dropWhile_eq_nil_iff.mpr all]

theorem numeric_digits {text : GoString} {value : Nat} (number : Semver.numeric text = some value) :
    ∀ byte ∈ text, Semver.isDigit byte = true := by
  unfold Semver.numeric at number
  split at number
  case isTrue valid => exact List.all_eq_true.mp valid.2.1
  case isFalse => cases number

theorem core_parts {version : GoString} {w : Semver.Release} (known : Semver.core version = some w) :
    ∃ major minor patch a b c, version.splitOn 46 = [major, minor, patch] ∧ Semver.numeric major = some a ∧
      Semver.numeric minor = some b ∧ Semver.numeric patch = some c ∧ w = toLex (a, toLex (b, c)) ∧ 45 ∉ version := by
  unfold Semver.core at known
  split at known
  case h_2 => cases known
  case h_1 major minor patch parts =>
      split at known
      case h_2 => cases known
      case h_1 a b c first second third =>
          refine ⟨major, minor, patch, a, b, c, parts, first, second, third, (Option.some.inj known).symm, ?_⟩
          have whole : version = major ++ [46] ++ (minor ++ [46] ++ patch) := by
            have joined : [46].intercalate (version.splitOn 46) = version := List.intercalate_splitOn 46
            rw [← joined, parts]
            simp
          intro hyphen
          rw [whole] at hyphen
          simp only [List.mem_append, List.mem_singleton] at hyphen
          rcases hyphen with (inside | wrong) | (inside | wrong) | inside
          · cases numeric_digits first _ inside
          · cases wrong
          · cases numeric_digits second _ inside
          · cases wrong
          · cases numeric_digits third _ inside

structure Numbered (version : GoString) (w : Semver.Release) : Prop where
  known : Semver.release version = some w
  bare : 43 ∉ version
  major : (ofLex w).1 < 2 ^ 63
  minor : (ofLex (ofLex w).2).1 < 2 ^ 63
  patch : (ofLex (ofLex w).2).2 < 2 ^ 63

theorem numbered_core {version : GoString} {w : Semver.Release} (numbered : Numbered version w) :
    Semver.core version = some w := by
  have known := numbered.known
  rw [Semver.release, span_absent numbered.bare] at known
  exact known

theorem numbered_read {version : GoString} {w : Semver.Release} (numbered : Numbered version w) :
    isPrerelease version = false ∧
      rank version = toLex (((ofLex w).1 : Int), toLex (((ofLex (ofLex w).2).1 : Int), ((ofLex (ofLex w).2).2 : Int))) := by
  obtain ⟨major, minor, patch, a, b, c, parts, first, second, third, rfl, hyphen⟩ := core_parts (numbered_core numbered)
  have read : parseSemver version = ⟨a, b, c, []⟩ := by
    unfold parseSemver
    rw [cut, span_absent hyphen]
    simp only [Option.getD_none, parts, List.getElem?_cons_zero, List.getElem?_cons_succ, Option.map_some, Option.getD_some]
    rw [atoi_numeric first numbered.major, atoi_numeric second numbered.minor, atoi_numeric third numbered.patch]
  exact ⟨by rw [isPrerelease, read]; rfl, by rw [rank, read]; rfl⟩

theorem numbered_lt_iff {version other : GoString} {v w : Semver.Release} (one : Numbered version v)
    (second : Numbered other w) : rank version < rank other ↔ v < w := by
  rw [(numbered_read one).2, (numbered_read second).2]
  simp only [Prod.Lex.lt_iff, ofLex_toLex, Int.ofNat_lt, Int.natCast_inj]

end Brainkit.Tools
