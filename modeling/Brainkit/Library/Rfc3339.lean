import Mathlib.Data.Nat.Digits.Lemmas
import Brainkit.Library.Calendar
import Brainkit.Library.GoText

set_option autoImplicit false

-- Go's Format and Parse with the layout 2006-01-02T15:04:05Z07:00, which has no fraction of a second. Of the bytes, 43
-- is the plus, 45 the minus, 48 the digit zero, 58 the colon, 84 is T and 90 is Z.
namespace Rfc3339

open Calendar GoText

def digit (d : Nat) : UInt8 := (48 + d).toUInt8

def isDigit (byte : UInt8) : Bool := 48 ≤ byte.toNat && byte.toNat ≤ 57

def padded (u width : Nat) : GoString :=
  List.replicate (width - (Nat.digits 10 u).length) 48 ++ (Nat.digits 10 u).reverse.map digit

-- The width does not count the sign.
def appendInt (x : Int) (width : Nat) : GoString := if x < 0 then 45 :: padded x.natAbs width else padded x.toNat width

def formatDate (date : Date) : GoString := appendInt date.year 4 ++ 45 :: appendInt date.month 2 ++ 45 :: appendInt date.day 2

def formatClock (second : Int) : GoString :=
  appendInt (second / 3600) 2 ++ 58 :: appendInt (second / 60 % 60) 2 ++ 58 :: appendInt (second % 60) 2

def formatMinutes (minutes : Nat) : GoString := appendInt (minutes / 60) 2 ++ 58 :: appendInt (minutes % 60) 2

-- An offset from UTC is cut to minutes, towards zero; only one of no second is written as Z.
def formatZone (offset : Int) : GoString :=
  if offset = 0 then [90]
  else if offset.tdiv 60 < 0 then 45 :: formatMinutes (offset.tdiv 60).natAbs
  else 43 :: formatMinutes (offset.tdiv 60).natAbs

-- The number of 1970-01-01.
def epoch : Int := 719468

def localDate (unix offset : Int) : Date := dateOf ((unix + offset) / 86400 + epoch)

def format (unix offset : Int) : GoString :=
  formatDate (localDate unix offset) ++ 84 :: formatClock ((unix + offset) % 86400) ++ formatZone offset

def Expressible (unix offset : Int) : Prop :=
  (0 ≤ (localDate unix offset).year ∧ (localDate unix offset).year ≤ 9999) ∧ offset.natAbs < 90000

instance (unix offset : Int) : Decidable (Expressible unix offset) := inferInstanceAs (Decidable (_ ∧ _))

def value (digits : GoString) : Nat := digits.foldl (fun n byte => 10 * n + (byte.toNat - 48)) 0

def number (width : Nat) (text : GoString) : Option (Nat × GoString) :=
  if (text.take width).length = width ∧ (text.take width).all isDigit then some (value (text.take width), text.drop width)
  else none

def expect (byte : UInt8) (text : GoString) : Option GoString :=
  match text with
  | [] => none
  | first :: rest => if first = byte then some rest else none

def readDate (text : GoString) : Option (Date × GoString) := do
  let (year, text) ← number 4 text
  let text ← expect 45 text
  let (month, text) ← number 2 text
  let text ← expect 45 text
  let (day, text) ← number 2 text
  if 1 ≤ month ∧ month ≤ 12 ∧ 1 ≤ day ∧ (day : Int) ≤ daysIn month year then some (⟨year, month, day⟩, text) else none

-- An hour may stand without its zero.
def readClock (text : GoString) : Option (Int × GoString) := do
  let (hour, text) ← (number 2 text).or (number 1 text)
  let text ← expect 58 text
  let (minute, text) ← number 2 text
  let text ← expect 58 text
  let (second, text) ← number 2 text
  if hour < 24 ∧ minute < 60 ∧ second < 60 then some (3600 * hour + 60 * minute + second, text) else none

-- Nanoseconds: Parse takes a fraction that the layout does not have, by its first nine digits.
def readFraction (text : GoString) : Nat × GoString :=
  match text with
  | [] => (0, [])
  | mark :: rest =>
      if (mark = 46 ∨ mark = 44) ∧ rest.takeWhile isDigit ≠ [] then
        (value ((rest.takeWhile isDigit ++ List.replicate 9 48).take 9), rest.dropWhile isDigit)
      else (0, mark :: rest)

-- An offset to the end of the text. 24 hours and 60 minutes are let through.
def readMinutes (text : GoString) : Option Nat := do
  let (hours, text) ← number 2 text
  let text ← expect 58 text
  let (minutes, text) ← number 2 text
  if text = [] ∧ hours ≤ 24 ∧ minutes ≤ 60 then some (60 * hours + minutes) else none

def readZone (text : GoString) : Option Int :=
  match text with
  | [] => none
  | sign :: rest =>
      if sign = 90 then if rest = [] then some 0 else none
      else if sign = 43 then (readMinutes rest).map fun minutes => 60 * (minutes : Int)
      else if sign = 45 then (readMinutes rest).map fun minutes => -(60 * (minutes : Int))
      else none

-- The nanoseconds since 1970-01-01, of the text that is all read.
def parse (text : GoString) : Option Int := do
  let (date, text) ← readDate text
  let text ← expect 84 text
  let (second, text) ← readClock text
  let offset ← readZone (readFraction text).2
  some (1000000000 * (86400 * (dayNumber date - epoch) + second - offset) + (readFraction text).1)

theorem digit_nat (d : Nat) (small : d < 10) : (digit d).toNat = 48 + d := by
  have fits : 48 + d < 256 := by omega
  simpa [digit] using Nat.mod_eq_of_lt fits

theorem isDigit_digit (d : Nat) (small : d < 10) : isDigit (digit d) = true := by
  simp only [isDigit, digit_nat d small, Bool.and_eq_true, decide_eq_true_eq]
  omega

theorem value_digits (ds : List Nat) (small : ∀ d ∈ ds, d < 10) : value (ds.reverse.map digit) = Nat.ofDigits 10 ds := by
  induction ds with
  | nil => rfl
  | cons d ds ih =>
      have rest := ih fun e mem => small e (List.mem_cons_of_mem d mem)
      have one := digit_nat d (small d List.mem_cons_self)
      unfold value at rest ⊢
      rw [List.reverse_cons, List.map_append, List.foldl_append, rest, Nat.ofDigits_cons]
      simp [one]
      omega

theorem padded_digits (u width : Nat) : ∃ ds : List Nat, padded u width = ds.reverse.map digit ∧ (∀ d ∈ ds, d < 10) ∧
    Nat.ofDigits 10 ds = u ∧ ds.length = max width (Nat.digits 10 u).length := by
  refine ⟨Nat.digits 10 u ++ List.replicate (width - (Nat.digits 10 u).length) 0, ?_, ?_, ?_, ?_⟩
  · simp [padded, digit]
  · intro d mem
    rcases List.mem_append.mp mem with own | zero
    · exact Nat.digits_lt_base (by decide) own
    · rw [List.eq_of_mem_replicate zero]
      decide
  · rw [Nat.ofDigits_append_replicate_zero, Nat.ofDigits_digits]
  · simp only [List.length_append, List.length_replicate]
    omega

theorem number_written (ds : List Nat) (small : ∀ d ∈ ds, d < 10) (rest : GoString) :
    number ds.length (ds.reverse.map digit ++ rest) = some (Nat.ofDigits 10 ds, rest) := by
  have taken : (ds.reverse.map digit ++ rest).take ds.length = ds.reverse.map digit := List.take_left' (by simp)
  have left : (ds.reverse.map digit ++ rest).drop ds.length = rest := List.drop_left' (by simp)
  rw [number, taken, left, value_digits ds small, if_pos]
  refine ⟨by simp, List.all_eq_true.mpr fun byte mem => ?_⟩
  obtain ⟨d, here, rfl⟩ := List.mem_map.mp mem
  exact isDigit_digit d (small d (List.mem_reverse.mp here))

theorem number_fits (x : Int) (width : Nat) (low : 0 ≤ x) (high : x < 10 ^ width) (rest : GoString) :
    number width (appendInt x width ++ rest) = some (x.toNat, rest) := by
  obtain ⟨ds, same, small, total, length⟩ := padded_digits x.toNat width
  have below : x.toNat < 10 ^ width := (Int.toNat_lt low).mpr (by exact_mod_cast high)
  have short : (Nat.digits 10 x.toNat).length ≤ width := (Nat.digits_length_le_iff (by decide) _).mpr below
  have written := number_written ds small rest
  rw [length, max_eq_left short, total] at written
  rw [appendInt, if_neg (by omega), same, written]

theorem number_negative (x : Int) (width : Nat) (low : x < 0) (rest : GoString) :
    number (width + 1) (appendInt x (width + 1) ++ rest) = none := by
  rw [appendInt, if_pos low, number, if_neg]
  rintro ⟨-, digits⟩
  simp [isDigit] at digits

theorem number_long (x : Int) (width : Nat) (high : (10 : Int) ^ width ≤ x) (rest : GoString) : ∃ v text,
    number width (appendInt x width ++ rest) = some (v, text) ∧ ∀ byte, isDigit byte = false → expect byte text = none := by
  have whole : (0 : Int) ≤ 10 ^ width := by positivity
  obtain ⟨ds, same, small, -, length⟩ := padded_digits x.toNat width
  have above : 10 ^ width ≤ x.toNat := Int.toNat_le_toNat (n := 10 ^ width) high
  have long : width < (Nat.digits 10 x.toNat).length := (Nat.lt_digits_length_iff (by decide) _).mpr above
  have more : width < ds.length := by omega
  have split : ds.take (ds.length - width) ++ ds.drop (ds.length - width) = ds := List.take_append_drop _ _
  have kept : (ds.drop (ds.length - width)).length = width := by
    rw [List.length_drop]
    omega
  have written := number_written (ds.drop (ds.length - width)) (fun d mem => small d (List.mem_of_mem_drop mem))
    ((ds.take (ds.length - width)).reverse.map digit ++ rest)
  rw [kept, ← List.append_assoc, ← List.map_append, ← List.reverse_append, split] at written
  rw [appendInt, if_neg (by omega), same]
  refine ⟨_, _, written, fun byte other => ?_⟩
  cases taken : (ds.take (ds.length - width)).reverse with
  | nil =>
      have none_taken := congrArg List.length taken
      simp only [List.length_reverse, List.length_take, List.length_nil] at none_taken
      omega
  | cons d ds' =>
      have mem : d ∈ ds := List.mem_of_mem_take (List.mem_reverse.mp (taken ▸ List.mem_cons_self))
      have different : digit d ≠ byte := by
        rintro rfl
        rw [isDigit_digit d (small d mem)] at other
        cases other
      rw [List.map_cons, List.cons_append, expect, if_neg different]

def ValidDate (date : Date) : Prop :=
  1 ≤ date.month ∧ date.month ≤ 12 ∧ 1 ≤ date.day ∧ date.day ≤ daysIn date.month date.year

theorem days_bound (month year : Int) : daysIn month year ≤ 31 := by
  unfold daysIn
  split_ifs <;> decide

theorem expect_same (byte : UInt8) (rest : GoString) : expect byte (byte :: rest) = some rest := if_pos rfl

theorem readDate_written (date : Date) (valid : ValidDate date) (rest : GoString) : readDate (formatDate date ++ rest) =
    if 0 ≤ date.year ∧ date.year ≤ 9999 then some (date, rest) else none := by
  obtain ⟨monthLow, monthHigh, dayLow, dayHigh⟩ := valid
  have days := days_bound date.month date.year
  have shape : formatDate date ++ rest = appendInt date.year 4 ++
      (45 :: (appendInt date.month 2 ++ (45 :: (appendInt date.day 2 ++ rest)))) := by
    simp [formatDate]
  rw [shape]
  unfold readDate
  by_cases negative : date.year < 0
  · rw [number_negative date.year 3 negative, if_neg (by omega)]
    rfl
  · by_cases long : 9999 < date.year
    · obtain ⟨v, text, read, digits⟩ := number_long date.year 4 (by omega)
        (45 :: (appendInt date.month 2 ++ (45 :: (appendInt date.day 2 ++ rest))))
      rw [read, if_neg (by omega)]
      simp [digits 45 (by decide)]
    · have month := number_fits date.month 2 (by omega) (by omega) (45 :: (appendInt date.day 2 ++ rest))
      have day := number_fits date.day 2 (by omega) (by omega) rest
      have year := number_fits date.year 4 (by omega) (by omega)
        (45 :: (appendInt date.month 2 ++ (45 :: (appendInt date.day 2 ++ rest))))
      rw [year, if_pos (by omega)]
      have y : (date.year.toNat : Int) = date.year := Int.toNat_of_nonneg (by omega)
      have m : (date.month.toNat : Int) = date.month := Int.toNat_of_nonneg (by omega)
      have d : (date.day.toNat : Int) = date.day := Int.toNat_of_nonneg (by omega)
      simp only [Option.bind_eq_bind, Option.bind_some, expect_same, month, day, y, m, d]
      rw [if_pos (by omega)]

theorem readClock_written (second : Int) (low : 0 ≤ second) (high : second < 86400) (rest : GoString) :
    readClock (formatClock second ++ rest) = some (second, rest) := by
  have shape : formatClock second ++ rest = appendInt (second / 3600) 2 ++
      (58 :: (appendInt (second / 60 % 60) 2 ++ (58 :: (appendInt (second % 60) 2 ++ rest)))) := by
    simp [formatClock]
  have hour := number_fits (second / 3600) 2 (by omega) (by omega)
    (58 :: (appendInt (second / 60 % 60) 2 ++ (58 :: (appendInt (second % 60) 2 ++ rest))))
  have minute := number_fits (second / 60 % 60) 2 (by omega) (by omega) (58 :: (appendInt (second % 60) 2 ++ rest))
  have last := number_fits (second % 60) 2 (by omega) (by omega) rest
  rw [shape]
  unfold readClock
  rw [hour, Option.some_or]
  simp only [Option.bind_eq_bind, Option.bind_some, expect_same, minute, last]
  rw [if_pos (by omega)]
  congr 2
  omega

theorem readFraction_zone (offset : Int) : readFraction (formatZone offset) = (0, formatZone offset) := by
  unfold formatZone
  split_ifs with utc west
  · rfl
  · rfl
  · rfl

theorem readMinutes_written (minutes : Nat) : readMinutes (formatMinutes minutes) =
    if minutes < 1500 then some minutes else none := by
  unfold formatMinutes readMinutes
  by_cases long : (100 : Int) ≤ minutes / 60
  · obtain ⟨v, text, read, digits⟩ := number_long (minutes / 60) 2 long (58 :: appendInt (minutes % 60) 2)
    rw [read, if_neg (by omega)]
    simp [digits 58 (by decide)]
  · have first := number_fits (minutes / 60) 2 (by omega) (by omega) (58 :: appendInt (minutes % 60) 2)
    have last := number_fits (minutes % 60) 2 (by omega) (by omega) []
    rw [List.append_nil] at last
    rw [first]
    simp only [Option.bind_eq_bind, Option.bind_some, expect_same, last, true_and]
    by_cases near : minutes < 1500
    · rw [if_pos (by omega), if_pos near]
      congr 1
      omega
    · rw [if_neg (by omega), if_neg near]

theorem minutes_abs (offset : Int) : (offset.tdiv 60).natAbs = offset.natAbs / 60 := Int.natAbs_tdiv offset 60

theorem readZone_written (offset : Int) : readZone (formatZone offset) =
    if offset.natAbs < 90000 then some (60 * offset.tdiv 60) else none := by
  have abs := minutes_abs offset
  by_cases utc : offset = 0
  · rw [utc]
    rfl
  · have near : (offset.tdiv 60).natAbs < 1500 ↔ offset.natAbs < 90000 := by omega
    by_cases west : offset.tdiv 60 < 0
    · rw [formatZone, if_neg utc, if_pos west, readZone, if_neg (by decide), if_neg (by decide), if_pos rfl,
        readMinutes_written, if_congr near rfl rfl]
      split_ifs
      · refine congrArg some ?_
        beta_reduce
        omega
      · rfl
    · rw [formatZone, if_neg utc, if_neg west, readZone, if_neg (by decide), if_pos rfl, readMinutes_written,
        if_congr near rfl rfl]
      split_ifs
      · refine congrArg some ?_
        beta_reduce
        omega
      · rfl

theorem localDate_valid (unix offset : Int) : ValidDate (localDate unix offset) :=
  ⟨(dateOf_month _).1, (dateOf_month _).2, (dateOf_day _).1, (dateOf_day _).2⟩

-- What Parse makes of a text from Format: the second that was written, up to the seconds that the offset has beyond its
-- minutes, and an error for a year that is not written with four digits and for an offset of 25 hours or more.
theorem parse_format (unix offset : Int) : parse (format unix offset) =
    if Expressible unix offset then some (1000000000 * (unix + offset.tmod 60)) else none := by
  have date := readDate_written (localDate unix offset) (localDate_valid unix offset)
    (84 :: formatClock ((unix + offset) % 86400) ++ formatZone offset)
  have clock := readClock_written ((unix + offset) % 86400) (by omega) (by omega) (formatZone offset)
  have zone := readZone_written offset
  unfold parse format
  rw [List.append_assoc, date]
  by_cases years : 0 ≤ (localDate unix offset).year ∧ (localDate unix offset).year ≤ 9999
  · simp only [if_pos years, Option.bind_eq_bind, Option.bind_some, List.cons_append, expect_same, clock,
      readFraction_zone, zone]
    by_cases near : offset.natAbs < 90000
    · rw [if_pos near, if_pos ⟨years, near⟩, Option.bind_some]
      have number : dayNumber (localDate unix offset) = (unix + offset) / 86400 + epoch := dayNumber_dateOf _
      have cut := Int.tmod_add_mul_tdiv offset 60
      rw [number]
      congr 1
      omega
    · rw [if_neg near, if_neg fun both => near both.2]
      rfl
  · rw [if_neg years, if_neg fun both => years both.1]
    rfl

end Rfc3339
