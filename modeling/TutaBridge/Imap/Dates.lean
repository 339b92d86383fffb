import TutaBridge.Backup.Export
import TutaBridge.Imap.SearchPrint
import TutaBridge.Mail.Dates
import TutaBridge.Std.Digits

/-!
# Dates agree

The date of a timestamp is counted from the first of January 1970. It is what INTERNALDATE, the
header of a mail and the name of an exported file print, and what SEARCH reads back and compares.
-/

namespace TutaBridge.Imap

open TutaBridge.Std TutaBridge.Mail Backup

variable {date : CivilDate}

/-- The date of a timestamp: as many dates after the epoch as there were days. -/
def dateOf (millis : Nat) : CivilDate := CivilDate.next^[millis / 86400000] CivilDate.epoch

/-- The first millisecond of the year 10000. -/
def lastMillis : Nat := 253402300800000

/-- `dd-Mon-yyyy`. -/
def dateText (date : CivilDate) : Text :=
  Text.padded 2 date.day.toNat ++ '-' ::
    (monthSpellings.getD (date.month - 1).toNat [] ++ '-' :: Text.padded 4 date.year.toNat)

/-- `hh:mm:ss`, of the seconds of a day. -/
def timeText (timeOfDay : Nat) : Text :=
  Text.padded 2 (timeOfDay / 3600) ++ ':' :: (Text.padded 2 (timeOfDay % 3600 / 60) ++
    ':' :: Text.padded 2 (timeOfDay % 60))

/-- Dates that SEARCH and the mails can have, written with four digits of a year. -/
structure Writable (date : CivilDate) : Prop where
  valid : date.IsValid
  year_nonneg : 0 ≤ date.year
  year_le : date.year ≤ 9999

/-! ## Reading a date -/

/-- The source's day number of a date is its day. -/
theorem daysFromCivil_eq_toDay (valid : date.IsValid) :
    daysFromCivil date.year date.month date.day = date.toDay := by
  rw [← CivilDate.ofDay_toDay valid, daysFromCivil_ofDay, CivilDate.ofDay_toDay valid]

theorem monthIndex_lt_of_isValid (valid : date.IsValid) : (date.month - 1).toNat < 12 := by
  have := valid.month_pos
  have := valid.month_le
  omega

theorem splitOn_dateText (valid : date.IsValid) : (dateText date).splitOn '-' = [Text.padded 2 date.day.toNat,
      monthSpellings.getD (date.month - 1).toNat [], Text.padded 4 date.year.toNat] := by
  have joined : dateText date = ['-'].intercalate [Text.padded 2 date.day.toNat,
      monthSpellings.getD (date.month - 1).toNat [], Text.padded 4 date.year.toNat] := by
    simp [dateText, List.intercalate_cons_cons]
  rw [joined, List.splitOn_intercalate '-' _ (by simp)]
  intro part mem dash
  simp only [List.mem_cons, List.not_mem_nil, or_false] at mem
  rcases mem with rfl | rfl | rfl
  · exact absurd (Text.mem_padded dash) (by decide)
  · exact (spelling_facts (monthIndex_lt_of_isValid valid) '-' dash).1 rfl
  · exact absurd (Text.mem_padded dash) (by decide)

/-- A date that is written is read as its day. -/
theorem parseImapDate_dateText (casing : Casing) (writable : Writable date) :
    parseImapDate casing (dateText date) = some date.toDay := by
  obtain ⟨valid, yearLow, yearHigh⟩ := writable
  have monthLow := valid.month_pos
  have dayLow := valid.day_pos
  have dayHigh := Int.le_trans valid.day_le (CivilDate.monthLength_le date.year date.month)
  have dayRead : Text.parseSigned 64 (Text.padded 2 date.day.toNat) = some date.day := by
    rw [Text.parseSigned_of_digits (fun _ => Text.mem_padded) (Text.digits?_padded 2 _) (by omega),
      Int.toNat_of_nonneg (by omega)]
  have yearRead : Text.parseSigned 64 (Text.padded 4 date.year.toNat) = some date.year := by
    rw [Text.parseSigned_of_digits (fun _ => Text.mem_padded) (Text.digits?_padded 4 _) (by omega),
      Int.toNat_of_nonneg yearLow]
  have monthRead : ((date.month - 1).toNat : Int) + 1 = date.month := by omega
  simp only [parseImapDate, splitOn_dateText valid, dayRead, yearRead,
    findIdx?_monthNames casing (monthIndex_lt_of_isValid valid), Option.bind_eq_bind, Option.bind_some, monthRead,
    daysFromCivil_eq_toDay valid]

/-! ## Printing a date -/

section Printing

variable (millis : Nat)

theorem dateOf_eq_ofDay : dateOf millis = CivilDate.ofDay (millis / 86400000 : Nat) := by
  rw [dateOf, CivilDate.ofDay_iterate]

/-- The date of a timestamp is what the source computes for its day. -/
theorem dateOf_eq {year month day : Nat} (isDate : daysToYmd (millis / 1000 / 86400) = (year, month, day)) :
    dateOf millis = ⟨year, month, day⟩ := by
  have days : millis / 1000 / 86400 = millis / 86400000 := Nat.div_div_eq_div_mul millis 1000 86400
  rw [dateOf_eq_ofDay, ← days, ofDay_eq_daysToYmd, isDate]

theorem isValid_dateOf : (dateOf millis).IsValid := by
  rw [dateOf_eq_ofDay]
  exact CivilDate.isValid_ofDay _

/-- The months are spelled as SEARCH spells them. -/
theorem months_getD {month : Nat} (low : 1 ≤ month) (high : month ≤ 12) :
    (months.getD (min (month - 1) 11) "").toList = monthSpellings.getD ((month : Int) - 1).toNat [] := by
  have all : ∀ index < 12, (months.getD (min index 11) "").toList = monthSpellings.getD index [] := by decide
  rw [all (month - 1) (by omega)]
  congr 1
  omega

theorem month_bounds_of_daysToYmd {days year month day : Nat} (isDate : daysToYmd days = (year, month, day)) :
    1 ≤ month ∧ month ≤ 12 := by
  have bounds := CivilDate.month_bounds days
  rw [ofDay_eq_daysToYmd, isDate] at bounds
  dsimp only at bounds
  omega

/-- INTERNALDATE is the date and the time. -/
theorem formatInternalDate_eq : formatInternalDate millis =
      dateText (dateOf millis) ++ ' ' :: (timeText (millis / 1000 % 86400) ++ " +0000".toList) := by
  generalize isDate : daysToYmd (millis / 1000 / 86400) = date
  obtain ⟨year, month, day⟩ := date
  obtain ⟨low, high⟩ := month_bounds_of_daysToYmd isDate
  rw [dateOf_eq millis isDate]
  simp only [formatInternalDate, isDate, dateText, timeText, Int.toNat_natCast, months_getD low high,
    List.append_assoc, List.cons_append]

/-- The header of a mail is the weekday, the date and the time. -/
theorem formatRfc2822Date_eq : formatRfc2822Date millis =
      (Weekday.next^[millis / 86400000] .thursday).spelling.toList ++ ", ".toList ++
        Text.padded 2 (dateOf millis).day.toNat ++ ' ' ::
          (monthSpellings.getD ((dateOf millis).month - 1).toNat [] ++ ' ' ::
            (Text.padded 4 (dateOf millis).year.toNat ++ ' ' ::
              (timeText (millis / 1000 % 86400) ++ " +0000".toList))) := by
  have days : millis / 1000 / 86400 = millis / 86400000 := Nat.div_div_eq_div_mul millis 1000 86400
  generalize isDate : daysToYmd (millis / 1000 / 86400) = date
  obtain ⟨year, month, day⟩ := date
  obtain ⟨low, high⟩ := month_bounds_of_daysToYmd isDate
  rw [dateOf_eq millis isDate, ← weekdays_getD, ← days]
  simp only [formatRfc2822Date, isDate, timeText, Int.toNat_natCast, months_getD low high, List.append_assoc,
    List.cons_append]

/-- The name of an exported file begins with the date and the time. -/
theorem dateStamp_eq : dateStamp millis =
      Text.padded 4 (dateOf millis).year.toNat ++ Text.padded 2 (dateOf millis).month.toNat ++
        Text.padded 2 (dateOf millis).day.toNat ++ '-' ::
          (Text.padded 2 (millis / 1000 % 86400 / 3600) ++ Text.padded 2 (millis / 1000 % 86400 % 3600 / 60) ++
            Text.padded 2 (millis / 1000 % 86400 % 60)) := by
  generalize isDate : daysToYmd (millis / 1000 / 86400) = date
  obtain ⟨year, month, day⟩ := date
  rw [dateOf_eq millis isDate]
  simp only [dateStamp, isDate, Int.toNat_natCast]

/-- Up to the end of the year 9999 a date has four digits of a year, as SEARCH writes it. -/
theorem writable_dateOf (early : millis < lastMillis) : Writable (dateOf millis) := by
  have valid := isValid_dateOf millis
  have within : CivilDate.Earlier (dateOf millis) ⟨10000, 1, 1⟩ := by
    have isDay : (⟨10000, 1, 1⟩ : CivilDate) = CivilDate.ofDay 2932897 := by decide
    rw [isDay, dateOf_eq_ofDay, CivilDate.earlier_ofDay_iff]
    rw [lastMillis] at early
    omega
  have yearHigh : (dateOf millis).year ≤ 9999 := by
    have := valid.month_pos
    have := valid.day_pos
    rw [CivilDate.Earlier] at within
    dsimp only at within
    omega
  have yearLow : 0 ≤ (dateOf millis).year := by
    rw [dateOf_eq_ofDay, ofDay_eq_daysToYmd]
    exact Int.natCast_nonneg _
  exact ⟨valid, yearLow, yearHigh⟩

end Printing

/-! ## Stamps in order -/

section Stamps

variable {first second : Nat}

/-- A date that is not later, written year first, sorts no later. -/
theorem dateDigits_sortsUpTo {earlier later : CivilDate} (writable : Writable later)
    (valid : earlier.IsValid) (yearLow : 0 ≤ earlier.year) {firstRest secondRest : Text}
    (inOrder : CivilDate.Earlier earlier later ∨ earlier = later ∧ Text.SortsUpTo firstRest secondRest) :
    Text.SortsUpTo
      (Text.padded 4 earlier.year.toNat ++ (Text.padded 2 earlier.month.toNat ++
        (Text.padded 2 earlier.day.toNat ++ firstRest)))
      (Text.padded 4 later.year.toNat ++ (Text.padded 2 later.month.toNat ++
        (Text.padded 2 later.day.toNat ++ secondRest))) := by
  have := writable.year_nonneg
  have := writable.year_le
  have := valid.month_pos
  have := valid.day_pos
  have monthHigh := writable.valid.month_le
  have dayHigh := Int.le_trans writable.valid.day_le (CivilDate.monthLength_le later.year later.month)
  rcases inOrder with before | ⟨rfl, rest⟩
  · apply Text.padded_append_sortsUpTo (by decide) (by omega)
    rcases before with inYear | ⟨sameYear, inMonth | ⟨sameMonth, inDay⟩⟩
    · exact .inl (by omega)
    · refine .inr ⟨by rw [sameYear], Text.padded_append_sortsUpTo (by decide) (by omega) (.inl (by omega))⟩
    · refine .inr ⟨by rw [sameYear], Text.padded_append_sortsUpTo (by decide) (by omega) (.inr ?_)⟩
      exact ⟨by rw [sameMonth], Text.padded_append_sortsUpTo (by decide) (by omega) (.inl (by omega))⟩
  · exact ((rest.append_left _).append_left _).append_left _

/-- A later time of a day sorts no earlier. -/
theorem timeDigits_sortsUpTo (inDay : second < 86400) (inOrder : first ≤ second) : Text.SortsUpTo
      (Text.padded 2 (first / 3600) ++ (Text.padded 2 (first % 3600 / 60) ++ Text.padded 2 (first % 60)))
      (Text.padded 2 (second / 3600) ++ (Text.padded 2 (second % 3600 / 60) ++ Text.padded 2 (second % 60))) := by
  apply Text.padded_append_sortsUpTo (by decide) (by omega)
  rcases Nat.lt_or_ge (first / 3600) (second / 3600) with inHour | sameHour
  · exact .inl inHour
  · refine .inr ⟨by omega, ?_⟩
    apply Text.padded_append_sortsUpTo (by decide) (by omega)
    rcases Nat.lt_or_ge (first % 3600 / 60) (second % 3600 / 60) with inMinute | sameMinute
    · exact .inl inMinute
    · refine .inr ⟨by omega, ?_⟩
      rcases Nat.lt_or_ge (first % 60) (second % 60) with inSecond | sameSecond
      · exact .inr (Text.padded_sortsBefore (by decide) (by omega) inSecond)
      · have same : first % 60 = second % 60 := by omega
        exact .inl (by rw [same])

/-- A later stamp sorts no earlier. -/
theorem dateStamp_sortsUpTo (early : second < lastMillis) (inOrder : first ≤ second) :
    Text.SortsUpTo (dateStamp first) (dateStamp second) := by
  have writable := writable_dateOf second early
  have firstWritable := writable_dateOf first (Nat.lt_of_le_of_lt inOrder early)
  rw [dateStamp_eq, dateStamp_eq]
  simp only [List.append_assoc]
  apply dateDigits_sortsUpTo writable firstWritable.valid firstWritable.year_nonneg
  rcases Nat.lt_or_ge (first / 86400000) (second / 86400000) with earlier | sameDay
  · refine .inl ?_
    rw [dateOf_eq_ofDay, dateOf_eq_ofDay, CivilDate.earlier_ofDay_iff]
    omega
  · have same : first / 86400000 = second / 86400000 := by omega
    refine .inr ⟨by rw [dateOf, dateOf, same], ?_⟩
    exact (timeDigits_sortsUpTo (by omega) (by omega)).append_left ['-']

end Stamps

/-! ## All dates together -/

/-- What the dates of the bridge have to do with each other. -/
structure DatesAgree (casing : Casing) : Prop where
  /-- What is printed is a date of the calendar, with its weekday. -/
  printed : ∀ millis, millis < lastMillis → Writable (dateOf millis) ∧ formatInternalDate millis =
        dateText (dateOf millis) ++ ' ' :: (timeText (millis / 1000 % 86400) ++ " +0000".toList) ∧
      formatRfc2822Date millis =
        (Weekday.next^[millis / 86400000] .thursday).spelling.toList ++ ", ".toList ++
          Text.padded 2 (dateOf millis).day.toNat ++ ' ' ::
            (monthSpellings.getD ((dateOf millis).month - 1).toNat [] ++ ' ' ::
              (Text.padded 4 (dateOf millis).year.toNat ++ ' ' ::
                (timeText (millis / 1000 % 86400) ++ " +0000".toList))) ∧
      dateStamp millis =
        Text.padded 4 (dateOf millis).year.toNat ++ Text.padded 2 (dateOf millis).month.toNat ++
          Text.padded 2 (dateOf millis).day.toNat ++ '-' ::
            (Text.padded 2 (millis / 1000 % 86400 / 3600) ++ Text.padded 2 (millis / 1000 % 86400 % 3600 / 60) ++
              Text.padded 2 (millis / 1000 % 86400 % 60))
  /-- SEARCH reads the date that is printed as the day of the timestamp. -/
  parsed : ∀ millis : UInt64, millis.toNat < lastMillis →
    parseImapDate casing (dateText (dateOf millis.toNat)) = some (dayNumber millis)
  /-- SEARCH finds the messages by the dates of their timestamps. -/
  searched : ∀ date, Writable date → ∃ day, parseImapDate casing (dateText date) = some day ∧
    ∀ (message : MsgView) (context : SearchContext),
      (matchesKey casing message context (.on day) = true ↔ dateOf message.dateMs.toNat = date) ∧
        (matchesKey casing message context (.since day) = true ↔
          ¬CivilDate.Earlier (dateOf message.dateMs.toNat) date) ∧
        (matchesKey casing message context (.before day) = true ↔
          CivilDate.Earlier (dateOf message.dateMs.toNat) date)
  /-- A day is that of its date. -/
  ymdBack : ∀ days year month day, daysToYmd days = (year, month, day) → daysFromCivil year month day = days
  /-- A date is that of its day. -/
  civilBack : ∀ date : CivilDate, date.IsValid → 1970 ≤ date.year →
    ∃ days : Nat, daysFromCivil date.year date.month date.day = days ∧
      daysToYmd days = (date.year.toNat, date.month.toNat, date.day.toNat)
  /-- Stamps sort as their timestamps do. -/
  stamped : ∀ first second, first ≤ second → second < lastMillis →
    Text.SortsUpTo (dateStamp first) (dateStamp second)

section Agreement

variable (casing : Casing)

theorem toDay_dateOf (millis : UInt64) : (dateOf millis.toNat).toDay = dayNumber millis := by
  rw [dateOf_eq_ofDay, CivilDate.toDay_ofDay, dayNumber]

theorem search_dateOf (valid : date.IsValid) (message : MsgView) (context : SearchContext) :
    (matchesKey casing message context (.on date.toDay) = true ↔ dateOf message.dateMs.toNat = date) ∧
      (matchesKey casing message context (.since date.toDay) = true ↔
        ¬CivilDate.Earlier (dateOf message.dateMs.toNat) date) ∧
      (matchesKey casing message context (.before date.toDay) = true ↔
        CivilDate.Earlier (dateOf message.dateMs.toNat) date) := by
  have validMessage := isValid_dateOf message.dateMs.toNat
  have isDay := toDay_dateOf message.dateMs
  have isEarlier := CivilDate.earlier_iff_toDay_lt validMessage valid
  rw [isDay] at isEarlier
  refine ⟨?_, ?_, ?_⟩
  · rw [matchesKey, decide_eq_true_eq, ← isDay]
    exact ⟨CivilDate.eq_of_toDay_eq validMessage valid, fun same => by rw [same]⟩
  · rw [matchesKey, decide_eq_true_eq, isEarlier, Int.not_lt]
  · rw [matchesKey, decide_eq_true_eq, isEarlier]

theorem daysToYmd_toDay (valid : date.IsValid) (late : 1970 ≤ date.year) :
    ∃ days : Nat, daysFromCivil date.year date.month date.day = days ∧
      daysToYmd days = (date.year.toNat, date.month.toNat, date.day.toNat) := by
  have nonneg : 0 ≤ date.toDay := by
    have isEpoch : CivilDate.epoch.toDay = 0 := by decide
    have validEpoch : CivilDate.epoch.IsValid := CivilDate.ofDay_zero ▸ CivilDate.isValid_ofDay 0
    rcases CivilDate.earlier_trichotomy CivilDate.epoch date with later | same | earlier
    · have := CivilDate.toDay_lt_toDay validEpoch valid later
      omega
    · rw [← same, isEpoch]
    · obtain ⟨monthLow, -, dayLow, -⟩ := valid
      simp only [CivilDate.Earlier, CivilDate.epoch] at earlier
      omega
  have isDay : ((date.toDay.toNat : Nat) : Int) = date.toDay := Int.toNat_of_nonneg nonneg
  have back := ofDay_eq_daysToYmd date.toDay.toNat
  rw [isDay, CivilDate.ofDay_toDay valid] at back
  refine ⟨date.toDay.toNat, by rw [daysFromCivil_eq_toDay valid, isDay], ?_⟩
  generalize daysToYmd date.toDay.toNat = computed at back
  obtain ⟨year, month, day⟩ := computed
  rw [back]
  rfl

/-- The dates of the bridge agree. -/
theorem datesAgree : DatesAgree casing where
  printed millis early :=
    ⟨writable_dateOf millis early, formatInternalDate_eq millis, formatRfc2822Date_eq millis, dateStamp_eq millis⟩
  parsed millis early := by
    rw [parseImapDate_dateText casing (writable_dateOf _ early), toDay_dateOf]
  searched date writable := ⟨date.toDay, parseImapDate_dateText casing writable, search_dateOf casing writable.valid⟩
  ymdBack days year month day isDate := by
    have back := daysFromCivil_ofDay days
    rwa [ofDay_eq_daysToYmd, isDate] at back
  civilBack _ valid late := daysToYmd_toDay valid late
  stamped _ _ inOrder early := dateStamp_sortsUpTo early inOrder

end Agreement

end TutaBridge.Imap
