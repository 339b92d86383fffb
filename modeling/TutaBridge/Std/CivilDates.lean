import Mathlib.Tactic.IntervalCases
import TutaBridge.Std.Calendar

/-!
# Dates of the calendar

Which dates there are, which of them comes next, and which of two is earlier. The dates of the
days are all of these, one after the other, and a date has its day.
-/

namespace TutaBridge.Std.CivilDate

def isLeap (year : Int) : Bool := year % 4 = 0 && (year % 100 ≠ 0 || year % 400 = 0)

theorem isLeap_iff {year : Int} : isLeap year = true ↔ year % 4 = 0 ∧ (year % 100 ≠ 0 ∨ year % 400 = 0) := by
  simp [isLeap]

def monthLength (year month : Int) : Int :=
  if month = 2 then if isLeap year then 29 else 28
  else if month = 4 ∨ month = 6 ∨ month = 9 ∨ month = 11 then 30
  else 31

/-- A date of the calendar. -/
structure IsValid (date : CivilDate) : Prop where
  month_pos : 1 ≤ date.month
  month_le : date.month ≤ 12
  day_pos : 1 ≤ date.day
  day_le : date.day ≤ monthLength date.year date.month

/-- The date after a date. -/
def next (date : CivilDate) : CivilDate :=
  if date.day < monthLength date.year date.month then { date with day := date.day + 1 }
  else if date.month < 12 then ⟨date.year, date.month + 1, 1⟩
  else ⟨date.year + 1, 1, 1⟩

def Earlier (first second : CivilDate) : Prop :=
  first.year < second.year ∨ first.year = second.year ∧
    (first.month < second.month ∨ first.month = second.month ∧ first.day < second.day)

instance (first second : CivilDate) : Decidable (Earlier first second) :=
  inferInstanceAs (Decidable (_ ∨ _))

/-- The first of January 1970. -/
def epoch : CivilDate := ⟨1970, 1, 1⟩

/-! ## The day of a date -/

section Day

variable (date : CivilDate)

/-- The year that started in the March before. -/
def marchYear : Int := if date.month ≤ 2 then date.year - 1 else date.year

/-- The month, counted from March. -/
def marchMonth : Int := if 2 < date.month then date.month - 3 else date.month + 9

/-- The days between the March of a year and that of the year 0. -/
def daysBefore (year : Int) : Int := 365 * year + year / 4 - year / 100 + year / 400

/-- The days between a date and the March before. -/
def dayOfYear : Int := (153 * date.marchMonth + 2) / 5 + date.day - 1

/-- The day of a date, counted from the Unix epoch. -/
def toDay : Int := daysBefore date.marchYear + date.dayOfYear - 719468

end Day

section Valid

variable {first second date : CivilDate}

theorem marchMonth_bounds (valid : date.IsValid) : 0 ≤ date.marchMonth ∧ date.marchMonth ≤ 11 := by
  obtain ⟨monthLow, monthHigh, -, -⟩ := valid
  rw [marchMonth]
  split <;> omega

theorem monthLength_le (year month : Int) : monthLength year month ≤ 31 := by
  rw [monthLength]
  repeat' split
  all_goals omega

/-- A year is as long as its February lets it be. -/
theorem daysBefore_succ (year : Int) :
    daysBefore (year + 1) = daysBefore year + if isLeap (year + 1) then 366 else 365 := by
  rw [daysBefore, daysBefore, isLeap]
  split
  next leap =>
    simp only [Bool.and_eq_true, Bool.or_eq_true, decide_eq_true_eq] at leap
    omega
  next noLeap =>
    simp only [Bool.and_eq_true, Bool.or_eq_true, decide_eq_true_eq] at noLeap
    omega

theorem daysBefore_mono {first second : Int} (before : first ≤ second) : daysBefore first ≤ daysBefore second := by
  rw [daysBefore, daysBefore]
  omega

theorem dayOfYear_nonneg (valid : date.IsValid) : 0 ≤ date.dayOfYear := by
  have bounds := marchMonth_bounds valid
  have := valid.day_pos
  rw [dayOfYear]
  omega

/-- A month ends where the next one begins, and February with its year. -/
theorem dayOfYear_lt (valid : date.IsValid) :
    date.dayOfYear < if date.month = 2 then if isLeap date.year then 366 else 365
      else (153 * (date.marchMonth + 1) + 2) / 5 := by
  obtain ⟨monthLow, monthHigh, dayLow, dayHigh⟩ := valid
  rw [monthLength] at dayHigh
  rw [dayOfYear, marchMonth]
  split at dayHigh
  next february =>
    rw [if_neg (by omega), if_pos february]
    split at dayHigh
    next leap =>
      rw [if_pos leap]
      omega
    next noLeap =>
      rw [if_neg noLeap]
      omega
  next other =>
    rw [if_neg other]
    split at dayHigh
    next short =>
      rcases short with isMonth | isMonth | isMonth | isMonth <;> rw [isMonth] <;> omega
    next long =>
      have isMonth : date.month = 1 ∨ date.month = 3 ∨ date.month = 5 ∨ date.month = 7 ∨ date.month = 8 ∨
          date.month = 10 ∨ date.month = 12 := by omega
      rcases isMonth with isMonth | isMonth | isMonth | isMonth | isMonth | isMonth | isMonth <;>
        rw [isMonth] <;> omega

/-- A date is in the year that started in March. -/
theorem dayOfYear_lt_year (valid : date.IsValid) :
    daysBefore date.marchYear + date.dayOfYear < daysBefore (date.marchYear + 1) := by
  have within := dayOfYear_lt valid
  have bounds := marchMonth_bounds valid
  rw [daysBefore_succ]
  split at within
  next february =>
    have year : date.marchYear + 1 = date.year := by
      rw [marchYear, if_pos (by omega)]
      omega
    rw [year]
    omega
  next other =>
    have short : date.marchMonth ≠ 11 := by
      rw [marchMonth]
      have := valid.month_le
      have := valid.month_pos
      split <;> omega
    split <;> omega

/-- An earlier date has an earlier day. -/
theorem toDay_lt_toDay (validFirst : first.IsValid) (validSecond : second.IsValid)
    (earlier : Earlier first second) : toDay first < toDay second := by
  have firstYear := dayOfYear_lt_year validFirst
  have secondStart := dayOfYear_nonneg validSecond
  have byYear : first.marchYear < second.marchYear ∨
      first.marchYear = second.marchYear ∧ (first.marchMonth < second.marchMonth ∨
        first.marchMonth = second.marchMonth ∧ first.day < second.day) := by
    obtain ⟨firstLow, firstHigh, -, -⟩ := validFirst
    obtain ⟨secondLow, secondHigh, -, -⟩ := validSecond
    rw [Earlier] at earlier
    rw [marchYear, marchYear, marchMonth, marchMonth]
    split <;> split <;> split <;> split <;> omega
  rw [toDay, toDay]
  rcases byYear with inYear | ⟨sameYear, inMonth | ⟨sameMonth, inDay⟩⟩
  · have := @daysBefore_mono (first.marchYear + 1) second.marchYear (by omega)
    omega
  · have firstMonth := dayOfYear_lt validFirst
    have notLast : first.month ≠ 2 := by
      have := (marchMonth_bounds validSecond).2
      intro february
      rw [marchMonth, if_neg (by omega)] at inMonth
      omega
    rw [if_neg notLast] at firstMonth
    have secondMonth : (153 * (first.marchMonth + 1) + 2) / 5 ≤ second.dayOfYear := by
      have := validSecond.day_pos
      rw [dayOfYear]
      omega
    rw [sameYear]
    omega
  · rw [sameYear, dayOfYear, dayOfYear, sameMonth]
    omega

theorem earlier_trichotomy (first second : CivilDate) :
    Earlier first second ∨ first = second ∨ Earlier second first := by
  obtain ⟨firstYear, firstMonth, firstDay⟩ := first
  obtain ⟨secondYear, secondMonth, secondDay⟩ := second
  simp only [Earlier, CivilDate.mk.injEq]
  omega

/-- Dates are ordered as their days are. -/
theorem earlier_iff_toDay_lt (validFirst : first.IsValid) (validSecond : second.IsValid) :
    Earlier first second ↔ toDay first < toDay second := by
  refine ⟨toDay_lt_toDay validFirst validSecond, fun less => ?_⟩
  rcases earlier_trichotomy first second with earlier | rfl | later
  · exact earlier
  · exact absurd less (Int.lt_irrefl _)
  · exact absurd less (Int.not_lt.mpr (Int.le_of_lt (toDay_lt_toDay validSecond validFirst later)))

/-- Two dates of one day are one date. -/
theorem eq_of_toDay_eq (validFirst : first.IsValid) (validSecond : second.IsValid)
    (same : toDay first = toDay second) : first = second := by
  rcases earlier_trichotomy first second with earlier | isSame | later
  · exact absurd same (Int.ne_of_lt (toDay_lt_toDay validFirst validSecond earlier))
  · exact isSame
  · exact absurd same.symm (Int.ne_of_lt (toDay_lt_toDay validSecond validFirst later))

end Valid

/-! ## The next date -/

section Next

variable {date : CivilDate}

theorem one_le_monthLength (year month : Int) : 1 ≤ monthLength year month := by
  rw [monthLength]
  repeat' split
  all_goals omega

theorem isValid_next (valid : date.IsValid) : (next date).IsValid := by
  obtain ⟨monthLow, monthHigh, dayLow, dayHigh⟩ := valid
  rw [next]
  split
  next inMonth => exact ⟨monthLow, monthHigh, by dsimp only; omega, by dsimp only; omega⟩
  next lastDay =>
    split
    next inYear =>
      exact ⟨by dsimp only; omega, by dsimp only; omega, by dsimp only; omega, one_le_monthLength _ _⟩
    next lastMonth => exact ⟨by dsimp only; omega, by dsimp only; omega, by dsimp only; omega, one_le_monthLength _ _⟩

/-- The next date is the date of the next day. -/
theorem toDay_next (valid : date.IsValid) : toDay (next date) = toDay date + 1 := by
  obtain ⟨year, month, day⟩ := date
  obtain ⟨monthLow, monthHigh, dayLow, dayHigh⟩ := valid
  dsimp only at monthLow monthHigh dayLow dayHigh
  rw [next]
  split
  next inMonth =>
    simp only [toDay, dayOfYear, marchYear, marchMonth]
    omega
  next lastDay =>
    dsimp only at lastDay
    have isLast : day = monthLength year month := by omega
    have february : daysBefore year = daysBefore (year - 1) + if isLeap year then 366 else 365 := by
      have counted := daysBefore_succ (year - 1)
      rwa [Int.sub_add_cancel] at counted
    rw [monthLength] at isLast
    have isMonth : month = 1 ∨ month = 2 ∨ month = 3 ∨ month = 4 ∨ month = 5 ∨ month = 6 ∨ month = 7 ∨
        month = 8 ∨ month = 9 ∨ month = 10 ∨ month = 11 ∨ month = 12 := by omega
    rcases isMonth with rfl | rfl | rfl | rfl | rfl | rfl | rfl | rfl | rfl | rfl | rfl | rfl
    case inr.inl =>
      cases leap : isLeap year <;> simp [toDay, dayOfYear, marchYear, marchMonth, isLast, february, leap] <;> omega
    all_goals
      simp [toDay, dayOfYear, marchYear, marchMonth, isLast]
      omega

end Next

/-! ## The date of a day -/

section OfDay

variable (day : Int)

/-- A day too many stands at the end of an era or of a run of four years. -/
theorem place_leapYear (isLeapDay : (place day).dayOfYear = 365) :
    (place day).yearOfQuad = 3 ∧ ((place day).quad < 24 ∨ (place day).century = 3) := by
  simp only [place] at isLeapDay ⊢
  omega

theorem place_leapDay (isLeapDay : (place day).dayOfYear = 365) :
    isLeap ((place day).yearOfEra + (place day).era * 400 + 1) = true := by
  have bounded := place_bounded day
  obtain ⟨centuryLow, centuryHigh, quadLow, quadHigh, yearLow, yearHigh, -, -⟩ := bounded
  have lastYear := place_leapYear day isLeapDay
  rw [isLeap_iff, Place.yearOfEra]
  omega

/-- The date of a day is one of the calendar. -/
theorem isValid_ofDay : (ofDay day).IsValid := by
  have months := month_bounds day
  have days := day_bounds day
  refine ⟨months.1, months.2, days.1, ?_⟩
  have bounded := place_bounded day
  have bounds := bounded.monthFromMarch_bounds
  have yearLow := bounded.dayOfYear_nonneg
  have yearHigh := bounded.dayOfYear_le
  have leapDay := place_leapDay day
  have isMonth : (place day).monthFromMarch = (5 * (place day).dayOfYear + 2) / 153 := rfl
  by_cases february : (place day).monthFromMarch = 11
  · by_cases isLeapDay : (place day).dayOfYear = 365
    · simp [ofDay, monthLength, february, isLeapDay, leapDay isLeapDay]
    · simp [ofDay, monthLength, february]
      split <;> omega
  · obtain ⟨march, isMarch⟩ : ∃ march : Nat, (place day).monthFromMarch = march :=
      ⟨(place day).monthFromMarch.toNat, by omega⟩
    have inYear : march < 11 := by omega
    interval_cases march <;> simp [ofDay, monthLength, isMarch] <;> omega

theorem marchMonth_ofDay : (ofDay day).marchMonth = (place day).monthFromMarch := by
  have bounds := (place_bounded day).monthFromMarch_bounds
  simp only [ofDay, marchMonth]
  split <;> split <;> omega

theorem marchYear_ofDay : (ofDay day).marchYear = (place day).yearOfEra + (place day).era * 400 := by
  have bounds := (place_bounded day).monthFromMarch_bounds
  simp only [ofDay, marchYear]
  split <;> omega

/-- A day is the day of its date. -/
theorem toDay_ofDay : toDay (ofDay day) = day := by
  have bounded := place_bounded day
  have low := bounded.yearOfEra_nonneg
  have high := bounded.yearOfEra_lt
  have leap := bounded.leapDays
  have total := place_total day
  have isDay : (ofDay day).day = (place day).dayOfYear - (153 * (place day).monthFromMarch + 2) / 5 + 1 := rfl
  rw [toDay, dayOfYear, marchMonth_ofDay, marchYear_ofDay, isDay, daysBefore]
  omega

variable {day} {date : CivilDate}

/-- A date is the date of its day. -/
theorem ofDay_toDay (valid : date.IsValid) : ofDay (toDay date) = date :=
  eq_of_toDay_eq (isValid_ofDay _) valid (toDay_ofDay _)

/-- The date of the next day is the next date. -/
theorem ofDay_succ (day : Int) : ofDay (day + 1) = next (ofDay day) := by
  have valid := isValid_ofDay day
  rw [← ofDay_toDay (isValid_next valid), toDay_next valid, toDay_ofDay]

theorem ofDay_zero : ofDay 0 = epoch := by decide

/-- The days since the epoch are its next dates, one after the other. -/
theorem ofDay_iterate (count : Nat) : ofDay count = next^[count] epoch := by
  induction count with
  | zero => exact ofDay_zero
  | succ count ih =>
    rw [Function.iterate_succ_apply', ← ih, ← ofDay_succ, Int.natCast_succ]

/-- The dates of days are ordered as the days are. -/
theorem earlier_ofDay_iff {first second : Int} : Earlier (ofDay first) (ofDay second) ↔ first < second := by
  rw [earlier_iff_toDay_lt (isValid_ofDay first) (isValid_ofDay second), toDay_ofDay, toDay_ofDay]

end OfDay

end TutaBridge.Std.CivilDate

namespace TutaBridge.Std

/-! ## Weekdays -/

inductive Weekday where
  | sunday | monday | tuesday | wednesday | thursday | friday | saturday
deriving DecidableEq, Repr

namespace Weekday

def next : Weekday → Weekday
  | sunday => monday
  | monday => tuesday
  | tuesday => wednesday
  | wednesday => thursday
  | thursday => friday
  | friday => saturday
  | saturday => sunday

/-- As mail spells it. -/
def spelling : Weekday → String
  | sunday => "Sun"
  | monday => "Mon"
  | tuesday => "Tue"
  | wednesday => "Wed"
  | thursday => "Thu"
  | friday => "Fri"
  | saturday => "Sat"

end Weekday

end TutaBridge.Std
