import TutaBridge.Imap.Dates

/-!
# The arguments of SEARCH's dates

`parse_imap_date` reads three parts, of which the first and the last may be any `i64`. Whether they
make a date of the calendar is not looked at, and neither is whether the day number fits.
-/

namespace TutaBridge.Imap

open TutaBridge.Std

/-- A text is a number of digits alone. -/
def IsDigits (text : Text) : Prop := text ≠ [] ∧ ∀ char ∈ text, char.isDigit = true

/-- A value fits `i64`. -/
def FitsI64 (value : Int) : Prop := -2 ^ 63 ≤ value ∧ value < 2 ^ 63

instance (value : Int) : Decidable (FitsI64 value) := inferInstanceAs (Decidable (_ ∧ _))

/-- The values `days_from_civil` computes on its way, and the one it returns. -/
def civilValues (year month day : Int) : List Int :=
  let y := if month ≤ 2 then year - 1 else year
  let shifted := if 0 ≤ y then y else y - 399
  let era := shifted.tdiv 400
  let yoe := y - era * 400
  let march := if 2 < month then month - 3 else month + 9
  let doy := (153 * march + 2).tdiv 5 + day - 1
  let years := yoe * 365 + yoe.tdiv 4
  let doe := years - yoe.tdiv 100 + doy
  [y, shifted, era * 400, yoe, march, 153 * march, 153 * march + 2, (153 * march + 2).tdiv 5 + day, doy,
    yoe * 365, years, years - yoe.tdiv 100, doe, era * 146097, era * 146097 + doe,
    daysFromCivil year month day]

section Arguments

variable (casing : Casing)

/-- The year, the month and the day of an argument, as they reach `days_from_civil`. -/
def dateNumbers (text : Text) : Option (Int × Int × Int) :=
  match text.splitOn '-' with
  | [first, second, third] => do
      let day ← Text.parseSigned 64 first
      let month ← monthNames.findIdx? (· = casing.toLowercase second)
      let year ← Text.parseSigned 64 third
      some (year, month + 1, day)
  | _ => none

/-- A day of one digit or two, a month's name in any case and a year of four digits. -/
structure IsDateText (first second third : Text) (date : CivilDate) : Prop where
  dayDigits : IsDigits first
  dayShort : first.length ≤ 2
  isDay : (Nat.ofDigitChars 10 first 0 : Int) = date.day
  solid : '-' ∉ second
  isMonth : ∃ index, monthNames.findIdx? (· = casing.toLowercase second) = some index ∧ (index : Int) + 1 = date.month
  yearDigits : IsDigits third
  yearLength : third.length = 4
  isYear : (Nat.ofDigitChars 10 third 0 : Int) = date.year

/-- `d-Mon-yyyy`, of a date of the calendar. -/
def IsImapDate (text : Text) : Prop :=
  ∃ first second third date, text = first ++ '-' :: (second ++ '-' :: third) ∧
    IsDateText casing first second third date ∧ date.IsValid

/-- What an argument of a date is to be: a date or nothing, with no value out of range. -/
structure IsValidated (text : Text) : Prop where
  onlyDates : ∀ day, parseImapDate casing text = some day → IsImapDate casing text
  inRange : ∀ year month day, dateNumbers casing text = some (year, month, day) →
    ∀ value ∈ civilValues year month day, FitsI64 value
  degrades : ¬IsImapDate casing text → ∀ (key : Int → SearchKey) (tokens : List Token),
    (nextArg tokens).1 = some text → (dateKey casing key tokens).1 = .all

/-- Where the parts of an argument are read, they are written as those of a date, and there is such a day. -/
def WritesDate (text : Text) : Prop :=
  ∀ first second third, text.splitOn '-' = [first, second, third] →
    ∀ year month day, dateNumbers casing text = some (year, month, day) →
      IsDigits first ∧ first.length ≤ 2 ∧ IsDigits third ∧ third.length = 4 ∧
        1 ≤ day ∧ day ≤ CivilDate.monthLength year month

end Arguments

section Reading

variable {casing : Casing} {text : Text}

theorem parseImapDate_eq : parseImapDate casing text =
      (dateNumbers casing text).map fun numbers => daysFromCivil numbers.1 numbers.2.1 numbers.2.2 := by
  rw [parseImapDate, dateNumbers]
  generalize text.splitOn '-' = parts
  rcases parts with _ | ⟨first, _ | ⟨second, _ | ⟨third, _ | ⟨fourth, later⟩⟩⟩⟩
  · rfl
  · rfl
  · rfl
  · dsimp only
    cases Text.parseSigned 64 first with
    | none => rfl
    | some day =>
      cases monthNames.findIdx? (· = casing.toLowercase second) with
      | none => rfl
      | some month => cases Text.parseSigned 64 third <;> rfl
  · rfl

/-- Digits alone are read as their value, where it fits. -/
theorem parseSigned_digits {text : Text} (digits : IsDigits text) {value : Int}
    (read : Text.parseSigned 64 text = some value) : value = (Nat.ofDigitChars 10 text 0 : Int) := by
  have isNumber : Text.digits? text = some (Nat.ofDigitChars 10 text 0) := by
    rw [Text.digits?, if_pos ⟨digits.1, List.all_eq_true.mpr digits.2⟩]
  rw [Text.parseSigned, isNumber, Option.map_some, Option.filter_eq_some_iff] at read
  · exact (Option.some.inj read.1).symm
  · rintro rest rfl
    exact absurd (digits.2 '+' List.mem_cons_self) (by decide)
  · rintro rest rfl
    exact absurd (digits.2 '-' List.mem_cons_self) (by decide)

/-- The parts of an argument that is read. -/
theorem dateNumbers_eq_some {year month day : Int} (read : dateNumbers casing text = some (year, month, day)) :
    ∃ first second third, text.splitOn '-' = [first, second, third] ∧ Text.parseSigned 64 first = some day ∧
      (∃ index, monthNames.findIdx? (· = casing.toLowercase second) = some index ∧ (index : Int) + 1 = month) ∧
      Text.parseSigned 64 third = some year := by
  rw [dateNumbers] at read
  split at read
  next first second third isSplit =>
    simp only [Option.bind_eq_bind, Option.bind_eq_some_iff, Option.some.injEq, Prod.mk.injEq] at read
    obtain ⟨readDay, isDay, index, isIndex, readYear, isYear, rfl, rfl, rfl⟩ := read
    exact ⟨first, second, third, isSplit, isDay, ⟨index, isIndex, rfl⟩, isYear⟩
  next => cases read

/-- The parts of a text between its dashes. -/
theorem splitOn_parts {first second third : Text} (noFirst : '-' ∉ first) (noSecond : '-' ∉ second)
    (noThird : '-' ∉ third) : (first ++ '-' :: (second ++ '-' :: third)).splitOn '-' = [first, second, third] := by
  have joined : first ++ '-' :: (second ++ '-' :: third) = ['-'].intercalate [first, second, third] := by
    simp [List.intercalate_cons_cons]
  rw [joined, List.splitOn_intercalate '-' _ (by simp)]
  intro part mem
  simp only [List.mem_cons, List.not_mem_nil, or_false] at mem
  rcases mem with rfl | rfl | rfl
  · exact noFirst
  · exact noSecond
  · exact noThird

theorem IsDigits.no_dash {text : Text} (digits : IsDigits text) : '-' ∉ text := by
  intro mem
  exact absurd (digits.2 '-' mem) (by decide)

/-- The names of months are found at twelve places. -/
theorem monthIndex_bounds {second : Text} {index : Nat}
    (found : monthNames.findIdx? (· = casing.toLowercase second) = some index) : index < 12 :=
  (List.findIdx?_eq_some_iff_getElem.mp found).1

/-- With a year of four digits and a day of two every value is small. -/
theorem civilValues_fit {year month day : Int} (yearLow : 0 ≤ year) (yearHigh : year ≤ 9999)
    (monthLow : 1 ≤ month) (monthHigh : month ≤ 12) (dayLow : 0 ≤ day) (dayHigh : day ≤ 99) :
    ∀ value ∈ civilValues year month day, FitsI64 value := by
  have shifts : ∀ y : Int, -1 ≤ y → y ≤ 9999 →
      (if 0 ≤ y then y else y - 399).tdiv 400 = y / 400 ∧ -400 ≤ (if 0 ≤ y then y else y - 399) ∧
        (if 0 ≤ y then y else y - 399) ≤ 9999 := by
    intro y low high
    have era : (if 0 ≤ y then y else y - 399).tdiv 400 = y / 400 :=
      @era_eq y (y / 400) (y % 400) (by omega) (by omega) (by omega)
    refine ⟨era, ?_, ?_⟩ <;> split <;> omega
  have marchBounds : 0 ≤ (if 2 < month then month - 3 else month + 9) ∧
      (if 2 < month then month - 3 else month + 9) ≤ 11 := by
    split <;> omega
  have yBounds : -1 ≤ (if month ≤ 2 then year - 1 else year) ∧ (if month ≤ 2 then year - 1 else year) ≤ 9999 := by
    split <;> omega
  intro value mem
  simp only [civilValues, daysFromCivil] at mem
  generalize (if 2 < month then month - 3 else month + 9) = march at marchBounds mem
  generalize (if month ≤ 2 then year - 1 else year) = y at yBounds mem
  obtain ⟨era, shiftedLow, shiftedHigh⟩ := shifts y yBounds.1 yBounds.2
  rw [era, Int.tdiv_eq_ediv_of_nonneg (show 0 ≤ y - y / 400 * 400 by omega),
    Int.tdiv_eq_ediv_of_nonneg (show 0 ≤ y - y / 400 * 400 by omega),
    Int.tdiv_eq_ediv_of_nonneg (show 0 ≤ 153 * march + 2 by omega)] at mem
  generalize (if 0 ≤ y then y else y - 399) = shifted at shiftedLow shiftedHigh mem
  simp only [List.mem_cons, List.not_mem_nil, or_false] at mem
  rw [FitsI64]
  omega

theorem IsDateText.splitOn {first second third : Text} {date : CivilDate}
    (written : IsDateText casing first second third date) :
    (first ++ '-' :: (second ++ '-' :: third)).splitOn '-' = [first, second, third] :=
  splitOn_parts written.dayDigits.no_dash written.solid written.yearDigits.no_dash

/-- An argument without a date degrades to all messages. -/
theorem dateKey_of_parseImapDate_eq_none {tokens : List Token} (isArg : (nextArg tokens).1 = some text)
    (noDate : parseImapDate casing text = none) (key : Int → SearchKey) : (dateKey casing key tokens).1 = .all := by
  rw [dateKey, isArg, Option.bind_some, noDate]

/-- What is read of a text that writes a date is that date. -/
theorem isImapDate_of_writesDate (writes : WritesDate casing text) {year month day : Int}
    (read : dateNumbers casing text = some (year, month, day)) :
    IsImapDate casing text ∧ 0 ≤ year ∧ year ≤ 9999 ∧ 1 ≤ month ∧ month ≤ 12 ∧ 0 ≤ day ∧ day ≤ 99 := by
  obtain ⟨first, second, third, isSplit, isDay, ⟨index, found, isMonth⟩, isYear⟩ := dateNumbers_eq_some read
  obtain ⟨dayDigits, dayShort, yearDigits, yearLength, dayLow, dayHigh⟩ :=
    writes first second third isSplit year month day read
  have dayValue := parseSigned_digits dayDigits isDay
  have yearValue := parseSigned_digits yearDigits isYear
  have inYear := monthIndex_bounds found
  have yearSmall := Text.ofDigitChars_lt yearDigits.2
  rw [yearLength] at yearSmall
  have dayLong := Int.le_trans dayHigh (CivilDate.monthLength_le year month)
  have noDash : '-' ∉ second := by
    have mem : second ∈ text.splitOn '-' := by
      rw [isSplit]
      exact List.mem_cons_of_mem _ List.mem_cons_self
    rw [List.splitOn_eq_splitOnP] at mem
    intro dash
    exact absurd (Text.of_mem_splitOnP mem '-' dash).1 (by simp)
  have joined : text = first ++ '-' :: (second ++ '-' :: third) := by
    have back : ['-'].intercalate (text.splitOn '-') = text := List.intercalate_splitOn '-'
    rw [isSplit] at back
    rw [← back]
    simp [List.intercalate_cons_cons]
  refine ⟨⟨first, second, third, ⟨year, month, day⟩, joined, ?_, ?_⟩, by omega, by omega, by omega, by omega,
    by omega, by omega⟩
  · exact ⟨dayDigits, dayShort, dayValue.symm, noDash, ⟨index, found, isMonth⟩, yearDigits, yearLength,
      yearValue.symm⟩
  · exact ⟨by dsimp only; omega, by dsimp only; omega, dayLow, dayHigh⟩

variable (casing text)

/-- The argument of a date is validated just where it writes a date, if its parts are read at all. -/
theorem isValidated_iff : IsValidated casing text ↔ WritesDate casing text := by
  constructor
  · intro validated first second third isSplit year month day read
    have parsed : parseImapDate casing text = some (daysFromCivil year month day) := by
      rw [parseImapDate_eq, read, Option.map_some]
    obtain ⟨dayText, monthText, yearText, date, rfl, written, valid⟩ := validated.onlyDates _ parsed
    obtain ⟨readFirst, readSecond, readThird, isParts, isDay, ⟨index, found, isMonth⟩, isYear⟩ :=
      dateNumbers_eq_some read
    rw [written.splitOn] at isSplit isParts
    cases isSplit
    cases isParts
    have sameDay := (parseSigned_digits written.dayDigits isDay).trans written.isDay
    have sameYear := (parseSigned_digits written.yearDigits isYear).trans written.isYear
    have sameMonth : month = date.month := by
      obtain ⟨other, isOther, isDateMonth⟩ := written.isMonth
      obtain rfl : index = other := Option.some.inj (found.symm.trans isOther)
      omega
    rw [sameDay, sameYear, sameMonth]
    exact ⟨written.dayDigits, written.dayShort, written.yearDigits, written.yearLength, valid.day_pos, valid.day_le⟩
  · intro writes
    refine ⟨fun day parsed => ?_, fun year month day read => ?_, fun noDate key tokens isArg => ?_⟩
    · rw [parseImapDate_eq, Option.map_eq_some_iff] at parsed
      obtain ⟨⟨year, month, readDay⟩, read, -⟩ := parsed
      exact (isImapDate_of_writesDate writes read).1
    · obtain ⟨-, yearLow, yearHigh, monthLow, monthHigh, dayLow, dayHigh⟩ := isImapDate_of_writesDate writes read
      exact civilValues_fit yearLow yearHigh monthLow monthHigh dayLow dayHigh
    · apply dateKey_of_parseImapDate_eq_none isArg
      rw [parseImapDate_eq, Option.map_eq_none_iff, Option.eq_none_iff_forall_ne_some]
      rintro ⟨year, month, day⟩ read
      exact noDate (isImapDate_of_writesDate writes read).1

/-- The 31st of February is read, and a year may be so late that its days do not fit. -/
theorem not_isValidated_february : ¬IsValidated .ascii "31-Feb-2024".toList ∧
      parseImapDate .ascii "31-Feb-2024".toList = some 19784 ∧
      dateNumbers .ascii "1-Jan-9223372036854775807".toList = some (9223372036854775807, 1, 1) ∧
      ¬∀ value ∈ civilValues 9223372036854775807 1 1, FitsI64 value := by
  refine ⟨fun validated => ?_, by decide, by decide, by decide⟩
  · have writes := (isValidated_iff .ascii "31-Feb-2024".toList).mp validated
    have parts := writes "31".toList "Feb".toList "2024".toList (by decide) 2024 2 31 (by decide)
    exact absurd parts.2.2.2.2.2 (by decide)

end Reading

end TutaBridge.Imap
