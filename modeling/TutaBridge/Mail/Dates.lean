import TutaBridge.Mail.Rfc2822
import TutaBridge.Std.CivilDates

/-!
# Dates of timestamps

`days_to_ymd` divides for the year where the calendar looks for its century, its run of four years
and its year. The two find the same date for every day since 1970.
-/

namespace TutaBridge.Mail

open TutaBridge.Std

/-- `format_internal_date`. -/
def formatInternalDate (millis : Nat) : Text :=
  let secs := millis / 1000
  let days := secs / 86400
  let timeOfDay := secs % 86400
  let (year, month, day) := daysToYmd days
  Text.padded 2 day ++ '-' :: ((months.getD (min (month - 1) 11) "").toList ++ '-' :: (Text.padded 4 year ++
    ' ' :: (Text.padded 2 (timeOfDay / 3600) ++ ':' :: (Text.padded 2 (timeOfDay % 3600 / 60) ++
      ':' :: (Text.padded 2 (timeOfDay % 60) ++ " +0000".toList)))))

/-! ## The date of a day -/

section Parts

variable {era century quad yearOfQuad dayOfYear : Nat}

/-- The year of the era, as the source divides for it. -/
theorem yearOfEra_eq (centuryHigh : century ≤ 3) (quadHigh : quad ≤ 24) (yearHigh : yearOfQuad ≤ 3)
    (dayHigh : dayOfYear ≤ 365) (leap : dayOfYear = 365 → yearOfQuad = 3 ∧ (quad < 24 ∨ century = 3))
    {dayOfEra : Nat} (total : dayOfEra = century * 36524 + quad * 1461 + yearOfQuad * 365 + dayOfYear) :
    (dayOfEra - dayOfEra / 1460 + dayOfEra / 36524 - dayOfEra / 146096) / 365 =
      100 * century + 4 * quad + yearOfQuad := by
  have quads : dayOfEra / 1460 =
      25 * century + quad + (24 * century + quad + yearOfQuad * 365 + dayOfYear) / 1460 := by omega
  have centuries : dayOfEra / 36524 =
      century + (quad * 1461 + yearOfQuad * 365 + dayOfYear) / 36524 := by omega
  have eras : dayOfEra / 146096 = (quad * 1461 + yearOfQuad * 365 + dayOfYear) / 36524 := by omega
  omega

/-- The era of a day whose place in it is known. -/
theorem dayOfEra_eq (centuryHigh : century ≤ 3) (quadHigh : quad ≤ 24) (yearHigh : yearOfQuad ≤ 3)
    (dayHigh : dayOfYear ≤ 365) {shifted : Nat}
    (total : shifted = era * 146097 + (century * 36524 + quad * 1461 + yearOfQuad * 365 + dayOfYear)) :
    shifted / 146097 = era := by
  have inEra : century * 36524 + quad * 1461 + yearOfQuad * 365 + dayOfYear < 146097 := by omega
  rw [total, Nat.mul_comm, Nat.mul_add_div (by decide), Nat.div_eq_of_lt inEra, Nat.add_zero]

/-- The days of the years before, with their leap days. -/
theorem leapDays_eq (quadHigh : quad ≤ 24) (yearHigh : yearOfQuad ≤ 3) :
    365 * (100 * century + 4 * quad + yearOfQuad) + (100 * century + 4 * quad + yearOfQuad) / 4 -
      (100 * century + 4 * quad + yearOfQuad) / 100 = century * 36524 + quad * 1461 + yearOfQuad * 365 := by
  omega

/-- The date of a day whose place is known. -/
theorem daysToYmd_of_place (centuryHigh : century ≤ 3) (quadHigh : quad ≤ 24) (yearHigh : yearOfQuad ≤ 3)
    (dayHigh : dayOfYear ≤ 365) (leap : dayOfYear = 365 → yearOfQuad = 3 ∧ (quad < 24 ∨ century = 3))
    {days : Nat}
    (total : days + 719468 = era * 146097 + (century * 36524 + quad * 1461 + yearOfQuad * 365 + dayOfYear)) :
    daysToYmd days =
      let march := (5 * dayOfYear + 2) / 153
      let month := if march < 10 then march + 3 else march - 9
      let year := 100 * century + 4 * quad + yearOfQuad + era * 400
      (if month ≤ 2 then year + 1 else year, month, dayOfYear - (153 * march + 2) / 5 + 1) := by
  have isEra := dayOfEra_eq centuryHigh quadHigh yearHigh dayHigh total
  have isDay : days + 719468 - era * 146097 = century * 36524 + quad * 1461 + yearOfQuad * 365 + dayOfYear := by
    rw [total, Nat.add_sub_cancel_left]
  have isYear := yearOfEra_eq centuryHigh quadHigh yearHigh dayHigh leap isDay
  have inYear : days + 719468 - era * 146097 - (century * 36524 + quad * 1461 + yearOfQuad * 365) = dayOfYear := by
    rw [isDay, Nat.add_sub_cancel_left]
  simp only [daysToYmd, isEra, isYear, leapDays_eq quadHigh yearHigh, inYear]

end Parts

/-- The date of the source is the date of the calendar. -/
theorem daysToYmd_eq (days : Nat) : ((daysToYmd days).1 : Int) = (CivilDate.ofDay days).year ∧
      ((daysToYmd days).2.1 : Int) = (CivilDate.ofDay days).month ∧
        ((daysToYmd days).2.2 : Int) = (CivilDate.ofDay days).day := by
  have total := CivilDate.place_total days
  obtain ⟨centuryLow, centuryHigh, quadLow, quadHigh, yearLow, yearHigh, dayLow, dayHigh⟩ :=
    CivilDate.place_bounded days
  have leap := CivilDate.place_leapYear days
  have eraLow : 0 ≤ (CivilDate.place days).era := by
    simp only [CivilDate.place]
    omega
  have isYear : (CivilDate.place days).yearOfEra =
      100 * (CivilDate.place days).century + 4 * (CivilDate.place days).quad +
        (CivilDate.place days).yearOfQuad := rfl
  have isMarch : (CivilDate.place days).monthFromMarch = (5 * (CivilDate.place days).dayOfYear + 2) / 153 := rfl
  simp only [CivilDate.ofDay, isYear, isMarch]
  clear isYear isMarch
  generalize CivilDate.place days = place at *
  -- every part of the place of such a day is a natural number
  obtain ⟨era, century, quad, yearOfQuad, dayOfYear⟩ := place
  dsimp only at *
  lift era to Nat using eraLow
  lift century to Nat using centuryLow
  lift quad to Nat using quadLow
  lift yearOfQuad to Nat using yearLow
  lift dayOfYear to Nat using dayLow
  have counted := @daysToYmd_of_place era century quad yearOfQuad dayOfYear (by omega) (by omega) (by omega) (by omega)
    (by omega) days (by omega)
  rw [counted]
  dsimp only
  clear counted total leap
  have isMarch : (5 * (dayOfYear : Int) + 2) / 153 = ((5 * dayOfYear + 2) / 153 : Nat) := by omega
  have starts : (153 * ((5 * dayOfYear + 2) / 153) + 2) / 5 ≤ dayOfYear := by omega
  rw [isMarch]
  generalize (5 * dayOfYear + 2) / 153 = march at starts ⊢
  refine ⟨?_, ?_, ?_⟩
  · split <;> split <;> omega
  · split <;> split <;> omega
  · omega

/-- A date of a day since 1970 has no negative part. -/
theorem ofDay_eq_daysToYmd (days : Nat) : CivilDate.ofDay days =
      ⟨(daysToYmd days).1, (daysToYmd days).2.1, (daysToYmd days).2.2⟩ := by
  obtain ⟨isYear, isMonth, isDay⟩ := daysToYmd_eq days
  rw [isYear, isMonth, isDay]

/-- The weekdays go round from the Thursday of the epoch. -/
theorem weekdays_getD (days : Nat) :
    weekdays.getD ((days + 4) % 7) "" = (Weekday.next^[days] .thursday).spelling := by
  induction days with
  | zero => rfl
  | succ days ih =>
    have advances : ∀ weekday : Weekday, ∀ index < 7, weekdays.getD index "" = weekday.spelling →
        weekdays.getD ((index + 1) % 7) "" = weekday.next.spelling := by
      intro weekday
      cases weekday <;> decide
    have step := advances _ ((days + 4) % 7) (Nat.mod_lt _ (by decide)) ih
    rw [Function.iterate_succ_apply', ← step]
    congr 1
    omega

end TutaBridge.Mail
