import Mathlib.Algebra.Order.Ring.Int

/-!
# The calendar

The Gregorian date of a day number. The day is first placed in its era of 400
years, which starts on a first of March, then in its century, its run of four
years and its year; the month follows from the day of that year.
-/

namespace TutaBridge.Std

structure CivilDate where
  year : Int
  month : Int
  day : Int
deriving DecidableEq, Repr

namespace CivilDate

/-- Where a day stands in the calendar of years that start in March. -/
structure Place where
  era : Int
  century : Int
  quad : Int
  yearOfQuad : Int
  dayOfYear : Int

/-- The place of a day, counted from the Unix epoch. The last day of an era and
of a run of four years belong to the year before. -/
def place (day : Int) : Place :=
  let era := (day + 719468) / 146097
  let dayOfEra := (day + 719468) % 146097
  let century := min (dayOfEra / 36524) 3
  let dayOfCentury := dayOfEra - century * 36524
  let quad := dayOfCentury / 1461
  let dayOfQuad := dayOfCentury % 1461
  let yearOfQuad := min (dayOfQuad / 365) 3
  ⟨era, century, quad, yearOfQuad, dayOfQuad - yearOfQuad * 365⟩

/-- The year of the era. -/
def Place.yearOfEra (place : Place) : Int := 100 * place.century + 4 * place.quad + place.yearOfQuad

/-- The month, counted from March. -/
def Place.monthFromMarch (place : Place) : Int := (5 * place.dayOfYear + 2) / 153

/-- The date of a day counted from the Unix epoch. -/
def ofDay (day : Int) : CivilDate :=
  let place := place day
  let march := place.monthFromMarch
  let month := if march < 10 then march + 3 else march - 9
  { year := place.yearOfEra + place.era * 400 + if month ≤ 2 then 1 else 0
    month := month
    day := place.dayOfYear - (153 * march + 2) / 5 + 1 }

variable (day : Int)

/-- The parts of a place are within their bounds. -/
structure Place.Bounded (place : Place) : Prop where
  century_nonneg : 0 ≤ place.century
  century_le : place.century ≤ 3
  quad_nonneg : 0 ≤ place.quad
  quad_le : place.quad ≤ 24
  yearOfQuad_nonneg : 0 ≤ place.yearOfQuad
  yearOfQuad_le : place.yearOfQuad ≤ 3
  dayOfYear_nonneg : 0 ≤ place.dayOfYear
  dayOfYear_le : place.dayOfYear ≤ 365

theorem place_bounded : (place day).Bounded := by
  constructor <;> simp only [place] <;> omega

/-- A place counts its days. -/
theorem place_total : (place day).era * 146097 + (place day).century * 36524 + (place day).quad * 1461 +
      (place day).yearOfQuad * 365 + (place day).dayOfYear = day + 719468 := by
  simp only [place]
  omega

section

variable {place : Place} (bounded : place.Bounded)

include bounded

theorem Place.Bounded.yearOfEra_nonneg : 0 ≤ place.yearOfEra := by
  have := bounded.century_nonneg
  have := bounded.quad_nonneg
  have := bounded.yearOfQuad_nonneg
  unfold yearOfEra
  omega

theorem Place.Bounded.yearOfEra_lt : place.yearOfEra < 400 := by
  have := bounded.century_le
  have := bounded.quad_le
  have := bounded.yearOfQuad_le
  unfold yearOfEra
  omega

/-- The days of the years before, with their leap days. -/
theorem Place.Bounded.leapDays : place.yearOfEra * 365 + place.yearOfEra / 4 - place.yearOfEra / 100 =
      place.century * 36524 + place.quad * 1461 + place.yearOfQuad * 365 := by
  obtain ⟨centuryLow, centuryHigh, quadLow, quadHigh, yearLow, yearHigh, -, -⟩ := bounded
  unfold yearOfEra
  omega

theorem Place.Bounded.monthFromMarch_bounds : 0 ≤ place.monthFromMarch ∧ place.monthFromMarch ≤ 11 := by
  have := bounded.dayOfYear_nonneg
  have := bounded.dayOfYear_le
  unfold monthFromMarch
  omega

end

theorem month_bounds : 1 ≤ (ofDay day).month ∧ (ofDay day).month ≤ 12 := by
  have bounds := (place_bounded day).monthFromMarch_bounds
  simp only [ofDay]
  split <;> omega

theorem day_bounds : 1 ≤ (ofDay day).day ∧ (ofDay day).day ≤ 31 := by
  have bounded := place_bounded day
  have := bounded.dayOfYear_nonneg
  have := bounded.dayOfYear_le
  simp only [ofDay, Place.monthFromMarch]
  omega

end CivilDate

end TutaBridge.Std
