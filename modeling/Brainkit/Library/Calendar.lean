import Mathlib.Order.MinMax
import Mathlib.Tactic.Common

set_option autoImplicit false

-- The Gregorian calendar, carried on in both directions. Day 0 is the first of March of the year 0: years that begin in
-- March have their leap day at the end.
namespace Calendar

structure Date where
  year : Int
  month : Int
  day : Int
deriving DecidableEq

def isLeap (year : Int) : Bool := year % 4 = 0 && (year % 100 ≠ 0 || year % 400 = 0)

def daysIn (month year : Int) : Int :=
  if month = 2 then if isLeap year then 29 else 28
  else if month = 4 ∨ month = 6 ∨ month = 9 ∨ month = 11 then 30
  else 31

-- The days before the year that begins in March of this year, and before a month of it, counted from March on.
def before (year : Int) : Int := 365 * year + year / 4 - year / 100 + year / 400

def monthStart (month : Int) : Int := (153 * month + 2) / 5

def dayNumber (date : Date) : Int :=
  if date.month ≤ 2 then before (date.year - 1) + monthStart (date.month + 9) + date.day - 1
  else before date.year + monthStart (date.month - 3) + date.day - 1

-- The year that begins in March with the day in it, by cycles of 400, 100, 4 years and one year. The last cycle of a
-- century and of four years may have a day more.
structure YearDay where
  year : Int
  day : Int

def yearDay (n : Int) : YearDay :=
  let era := n % 146097
  let century := min 3 (era / 36524)
  let rest := era - 36524 * century
  let year := min 3 (rest % 1461 / 365)
  ⟨400 * (n / 146097) + 100 * century + 4 * (rest / 1461) + year, rest % 1461 - 365 * year⟩

def dateOf (n : Int) : Date :=
  let y := yearDay n
  let month := (5 * y.day + 2) / 153
  let day := y.day - monthStart month + 1
  if month < 10 then ⟨y.year, month + 3, day⟩ else ⟨y.year + 1, month - 9, day⟩

theorem yearDay_parts (n : Int) : ∃ era century four year day : Int,
    yearDay n = ⟨400 * era + 100 * century + 4 * four + year, day⟩ ∧
      n = 146097 * era + 36524 * century + 1461 * four + 365 * year + day ∧
      0 ≤ century ∧ century ≤ 3 ∧ 0 ≤ four ∧ four ≤ 24 ∧ 0 ≤ year ∧ year ≤ 3 ∧ 0 ≤ day ∧ day ≤ 365 ∧
      (day = 365 → year = 3 ∧ (four < 24 ∨ century = 3)) := by
  refine ⟨_, _, _, _, _, rfl, ?_⟩
  omega

theorem yearDay_before (n : Int) : before (yearDay n).year + (yearDay n).day = n := by
  obtain ⟨era, century, four, year, day, same, parts⟩ := yearDay_parts n
  rw [same]
  simp only [before]
  omega

theorem yearDay_bounds (n : Int) : 0 ≤ (yearDay n).day ∧ (yearDay n).day ≤ 365 ∧
    ((yearDay n).day = 365 → isLeap ((yearDay n).year + 1) = true) := by
  obtain ⟨era, century, four, year, day, same, -, parts⟩ := yearDay_parts n
  rw [same]
  dsimp only
  refine ⟨by omega, by omega, fun leap => ?_⟩
  obtain ⟨last, whole⟩ := parts.2.2.2.2.2.2.2.2 leap
  have fours : (400 * era + 100 * century + 4 * four + year + 1) % 4 = 0 := by omega
  have centuries : (400 * era + 100 * century + 4 * four + year + 1) % 100 ≠ 0 ∨
      (400 * era + 100 * century + 4 * four + year + 1) % 400 = 0 := by omega
  simp only [isLeap, fours, decide_true, Bool.true_and, Bool.or_eq_true, decide_eq_true_eq]
  exact centuries

theorem dayNumber_dateOf (n : Int) : dayNumber (dateOf n) = n := by
  have whole := yearDay_before n
  obtain ⟨low, high, -⟩ := yearDay_bounds n
  unfold dateOf
  dsimp only
  split_ifs with early
  · unfold dayNumber monthStart
    dsimp only
    rw [if_neg (by omega), Int.add_sub_cancel]
    omega
  · unfold dayNumber monthStart
    dsimp only
    rw [if_pos (by omega), Int.add_sub_cancel, Int.sub_add_cancel]
    omega

theorem dateOf_month (n : Int) : 1 ≤ (dateOf n).month ∧ (dateOf n).month ≤ 12 := by
  obtain ⟨low, high, -⟩ := yearDay_bounds n
  unfold dateOf
  dsimp only
  split_ifs with early
  · dsimp only
    omega
  · dsimp only
    omega

theorem month_cases (month : Int) (low : 0 ≤ month) (high : month ≤ 11) : month = 0 ∨ month = 1 ∨ month = 2 ∨ month = 3 ∨
    month = 4 ∨ month = 5 ∨ month = 6 ∨ month = 7 ∨ month = 8 ∨ month = 9 ∨ month = 10 ∨ month = 11 := by
  omega

theorem dateOf_day (n : Int) : 1 ≤ (dateOf n).day ∧ (dateOf n).day ≤ daysIn (dateOf n).month (dateOf n).year := by
  obtain ⟨low, high, leap⟩ := yearDay_bounds n
  unfold dateOf monthStart
  dsimp only
  generalize (yearDay n).day = day at low high leap ⊢
  generalize found : (5 * day + 2) / 153 = month
  rcases month_cases month (by omega) (by omega) with rfl | rfl | rfl | rfl | rfl | rfl | rfl | rfl | rfl | rfl | rfl | rfl
  case inr.inr.inr.inr.inr.inr.inr.inr.inr.inr.inr =>
    rw [if_neg (by decide)]
    refine ⟨by dsimp only; omega, ?_⟩
    dsimp only
    rw [daysIn, if_pos (by decide)]
    split_ifs with leapYear
    · omega
    · have short : day ≠ 365 := fun last => leapYear (leap last)
      omega
  all_goals
    simp [daysIn]
    omega

end Calendar
