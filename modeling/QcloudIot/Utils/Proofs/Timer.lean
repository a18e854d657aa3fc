import QcloudIot.Misc.Calendar
import QcloudIot.Utils.Timer

/-!
# Timestamps are converted to the calendar

From 1970 up to the end of February 2100 every fourth year is a leap year, and there the date that
`timestamp_to_date` computes is the one of the Gregorian calendar.
-/

namespace QcloudIot.Utils

open CalendarDate

/-! ## Years -/

/-- No century between 1970 and 2100 lacks its leap year. -/
theorem isLeapYear_iff {year : Nat} (since : 1970 ≤ year) (before : year < 2100) :
    IsLeapYear year ↔ year % 4 = 0 := by
  unfold IsLeapYear
  omega

/-- The days of the years from 1970 on. -/
theorem daysOfYears_eq {count : Nat} (few : count ≤ 130) :
    daysOfYears 1970 count = 365 * count + (count + 1) / 4 := by
  induction count with
  | zero => rfl
  | succ count ih =>
    have leap := @isLeapYear_iff (1970 + count) (by omega) (by omega)
    rw [daysOfYears_succ, ih (by omega), yearLength]
    by_cases fourth : (1970 + count) % 4 = 0
    · rw [if_pos (leap.mpr fourth)]
      omega
    · rw [if_neg (mt leap.mp fourth)]
      omega

/-! ## Months -/

/-- The days of the first months of a year that is no leap year. -/
def commonDays (months : Nat) : Int := (sgDayNum.take months).sum

/-- From the second month on, a leap year has one more. -/
theorem daysOfMonths_eq {year months : Nat} (inside : months ≤ 12) :
    (daysOfMonths year months : Int) =
      commonDays months + if IsLeapYear year ∧ 2 ≤ months then 1 else 0 := by
  by_cases leap : IsLeapYear year
  · interval_cases months <;>
      simp [daysOfMonths, Finset.sum_range_succ, monthLength, commonDays, sgDayNum, leap]
  · interval_cases months <;>
      simp [daysOfMonths, Finset.sum_range_succ, monthLength, commonDays, sgDayNum, leap]

/-- The loop stops at the month that the day lies in. -/
theorem monthLoop_spec (days : List Int) (monthIndex dayNum : Int) (positive : 1 ≤ dayNum)
    (inside : dayNum ≤ days.sum) :
    ∃ months < days.length,
      monthLoop days monthIndex dayNum =
          some (monthIndex + months, dayNum - (days.take months).sum) ∧
        (days.take months).sum < dayNum ∧ dayNum ≤ (days.take (months + 1)).sum := by
  induction days generalizing monthIndex dayNum with
  | nil =>
    rw [List.sum_nil] at inside
    omega
  | cons first rest ih =>
    rw [List.sum_cons] at inside
    by_cases behind : first < dayNum
    · obtain ⟨months, few, found, after, upTo⟩ :=
        ih (monthIndex + 1) (dayNum - first) (by omega) (by omega)
      refine ⟨months + 1, Nat.succ_lt_succ few, ?_, ?_, ?_⟩
      · rw [monthLoop, if_pos behind, found, List.take_succ_cons, List.sum_cons]
        congr 2
        · push_cast
          ring
        · ring
      · rw [List.take_succ_cons, List.sum_cons]
        omega
      · rw [List.take_succ_cons, List.sum_cons]
        omega
    · refine ⟨0, Nat.zero_lt_succ _, ?_, ?_, ?_⟩
      · rw [monthLoop, if_neg behind, List.take_zero, List.sum_nil, Nat.cast_zero, add_zero,
          sub_zero]
      · rw [List.take_zero, List.sum_nil]
        omega
      · rw [List.take_succ_cons, List.take_zero, List.sum_singleton]
        omega

/-- A day behind the end of February lies in a later month. -/
theorem two_le_iff {months : Nat} {day : Int} (few : months < 12) (behind : commonDays months < day)
    (upTo : day ≤ commonDays (months + 1)) : 2 ≤ months ↔ 59 < day := by
  interval_cases months <;> simp [commonDays, sgDayNum] at behind upTo ⊢ <;> omega

/-- The day of a month, from the days of the months before. -/
theorem exists_dateOfMonth {year months day : Nat} (few : months < 12) (positive : 1 ≤ day)
    (inside : daysOfMonths year months + day ≤ daysOfMonths year (months + 1)) :
    ∃ date : CalendarDate, date.year = year ∧ date.month = months + 1 ∧ date.day = day ∧
      dayNumber year date + 1 = daysOfMonths year months + day := by
  have length := daysOfMonths_succ year months
  refine ⟨⟨year, months + 1, day, Nat.le_add_left 1 _, few, positive, by omega⟩, rfl, rfl, rfl, ?_⟩
  have none : daysOfYears year 0 = 0 := rfl
  simp only [dayNumber, Nat.sub_self, Nat.add_sub_cancel, none]
  omega

/-- The days of a year, but for the last one of a leap year. Before the end of February it does
    not matter which years are leap years. -/
theorem yearDayToDate_date {year : Nat} {dayNum : Int} (dateTime : RtcDateTime)
    (fourth : 60 ≤ dayNum → (IsLeapYear year ↔ year % 4 = 0)) (positive : 1 ≤ dayNum)
    (inside : dayNum ≤ 365) :
    ∃ date : CalendarDate, date.year = year ∧ (dayNumber year date : Int) + 1 = dayNum ∧
      yearDayToDate year dayNum dateTime =
        some { dateTime with year := date.year, month := date.month, day := date.day } := by
  have rem : (year : Int).tmod 4 = 0 ↔ year % 4 = 0 := by
    rw [Int.tmod_eq_emod_of_nonneg (Int.natCast_nonneg year)]
    omega
  have onLeapDay : (year : Int).tmod 4 = 0 ∧ dayNum = 60 ↔ IsLeapYear year ∧ dayNum = 60 :=
    and_congr_left fun sixty => rem.trans (fourth sixty.ge).symm
  have behindLeapDay : (year : Int).tmod 4 = 0 ∧ dayNum > 60 ↔ IsLeapYear year ∧ dayNum > 60 :=
    and_congr_left fun behind => rem.trans (fourth behind.le).symm
  unfold yearDayToDate
  simp only [onLeapDay, behindLeapDay]
  by_cases leapDay : IsLeapYear year ∧ dayNum = 60
  · have january := @daysOfMonths_eq year 1 (by decide)
    have february := @daysOfMonths_eq year 2 (by decide)
    rw [if_neg (by simp), show commonDays 1 = 31 from rfl] at january
    rw [if_pos ⟨leapDay.1, le_refl 2⟩, show commonDays 2 = 59 from rfl] at february
    obtain ⟨date, sameYear, month, day, number⟩ :=
      @exists_dateOfMonth _ 1 29 (by decide) (by decide)
        (show daysOfMonths year 1 + 29 ≤ daysOfMonths year 2 by omega)
    refine ⟨date, sameYear, by omega, ?_⟩
    rw [if_pos leapDay, sameYear, month, day]
    rfl
  · rw [if_neg leapDay]
    generalize adjusted :
      (if IsLeapYear year ∧ dayNum > 60 then dayNum - 1 else dayNum) = commonDay
    have bounds : 1 ≤ commonDay ∧ commonDay ≤ 365 := by
      rw [← adjusted]
      split_ifs <;> omega
    obtain ⟨months, few, found, behind, upTo⟩ := monthLoop_spec sgDayNum 0 commonDay bounds.1 bounds.2
    change months < 12 at few
    change commonDays months < commonDay at behind
    change commonDay ≤ commonDays (months + 1) at upTo
    have later := two_le_iff few behind upTo
    have before := @daysOfMonths_eq year _ few.le
    have upToMonth := @daysOfMonths_eq year (months + 1) few
    -- the day that the loop was not told of is the one that February has more
    have number : (daysOfMonths year months : Int) + (commonDay - commonDays months) = dayNum := by
      rw [before, ← adjusted]
      rw [← adjusted] at later
      by_cases isLeap : IsLeapYear year
      · simp only [isLeap, true_and] at later leapDay ⊢
        split_ifs at later ⊢ <;> omega
      · simp only [isLeap, false_and, if_false]
        ring
    have fits : daysOfMonths year months + (commonDay - commonDays months).toNat ≤
        daysOfMonths year (months + 1) := by
      have more : IsLeapYear year ∧ 2 ≤ months → IsLeapYear year ∧ 2 ≤ months + 1 :=
        fun ⟨isLeap, two⟩ => ⟨isLeap, Nat.le_succ_of_le two⟩
      by_cases extra : IsLeapYear year ∧ 2 ≤ months
      · rw [if_pos extra] at before
        rw [if_pos (more extra)] at upToMonth
        omega
      · rw [if_neg extra] at before
        split_ifs at upToMonth <;> omega
    obtain ⟨date, sameYear, month, day, sum⟩ := exists_dateOfMonth few (by omega) fits
    refine ⟨date, sameYear, by omega, ?_⟩
    rw [found, Option.map_some, sameYear, month, day, Int.toNat_of_nonneg (by omega), zero_add,
      Nat.cast_succ]
    rfl

/-! ## Days -/

/-- Up to the end of February 2100 the date is the one of the calendar. -/
theorem dayToDate_date {day : Nat} (dateTime : RtcDateTime) (inside : day < 47541) :
    ∃ date : CalendarDate, 1970 ≤ date.year ∧ dayNumber 1970 date = day ∧
      dayToDate day dateTime =
        some { dateTime with year := date.year, month := date.month, day := date.day } := by
  have cycle := Nat.div_add_mod (day + 365) 1461
  have rest := Nat.mod_lt (day + 365) (show 1461 > 0 by decide)
  generalize (day + 365) / 1461 = leaps at cycle
  generalize (day + 365) % 1461 = within at cycle rest
  have leapNum : ((day : Int) + 365).tdiv 1461 = leaps := by
    rw [Int.tdiv_eq_ediv_of_nonneg (by omega)]
    omega
  have last : ((day : Int) + 366).tmod 1461 = 0 ↔ within = 1460 := by
    rw [Int.tmod_eq_emod_of_nonneg (by omega)]
    omega
  unfold dayToDate
  simp only [leapNum, last]
  by_cases lastDay : within = 1460
  · have year : ((day : Int).tdiv 366 + 1970) = ((1970 + (4 * leaps + 2) : Nat) : Int) := by
      rw [Int.tdiv_eq_ediv_of_nonneg (Int.natCast_nonneg day)]
      omega
    have leap := (@isLeapYear_iff (1970 + (4 * leaps + 2)) (by omega) (by omega)).mpr
      (by omega)
    have length := daysOfMonths_twelve (1970 + (4 * leaps + 2))
    rw [yearLength, if_pos leap] at length
    have december : daysOfMonths (1970 + (4 * leaps + 2)) 11 + 31 = 366 :=
      (daysOfMonths_succ (1970 + (4 * leaps + 2)) 11).symm.trans length
    obtain ⟨date, sameYear, month, dayOfMonth, number⟩ :=
      @exists_dateOfMonth _ 11 31 (by decide) (by decide)
        (show daysOfMonths (1970 + (4 * leaps + 2)) 11 + 31 ≤ daysOfMonths _ 12 by omega)
    refine ⟨date, by omega, ?_, ?_⟩
    · rw [dayNumber_year, sameYear, Nat.add_sub_cancel_left, daysOfYears_eq (by omega)]
      omega
    · rw [if_pos lastDay, year, sameYear, month, dayOfMonth]
      rfl
  · rw [if_neg lastDay]
    obtain ⟨years, few, quotient⟩ : ∃ years ≤ 130, (day - leaps) / 365 = years :=
      ⟨_, by omega, rfl⟩
    have dayNum : ((day : Int) - leaps).tmod 365 = ((day - leaps) % 365 : Nat) := by
      rw [Int.tmod_eq_emod_of_nonneg (by omega)]
      omega
    have year : ((day : Int) - leaps).tdiv 365 + 1970 = ((1970 + years : Nat) : Int) := by
      rw [Int.tdiv_eq_ediv_of_nonneg (by omega)]
      omega
    obtain ⟨date, sameYear, number, found⟩ :=
      @yearDayToDate_date (1970 + years) (((day - leaps) % 365 : Nat) + 1) dateTime
        (fun late => isLeapYear_iff (by omega) (by omega)) (by omega) (by omega)
    refine ⟨date, by omega, ?_, ?_⟩
    · rw [dayNumber_year, sameYear, Nat.add_sub_cancel_left, daysOfYears_eq few]
      omega
    · rw [dayNum, year]
      exact found

/-! ## Timestamps -/

/-- The seconds since 1970 that a clock of the zone shows. -/
def localTime (timestampSec : UInt64) (timeZone : Int8) : Int :=
  timestampSec.toNat + 3600 * timeZone.toInt

/-- The 28th of February 2100, the day before which no fourth year is left out. -/
def lastDate : CalendarDate := ⟨2100, 2, 28, by decide, by decide, by decide, by decide⟩

/-- The date and the time of day, so many seconds after the beginning of 1970. -/
def calendarTime (seconds : Nat) (dateTime : RtcDateTime) : RtcDateTime :=
  let date := after 1970 (seconds / 86400)
  { dateTime with
    year := date.year
    month := date.month
    day := date.day
    hour := (seconds / 3600 % 24 : Nat)
    minute := (seconds / 60 % 60 : Nat)
    sec := (seconds % 60 : Nat) }

theorem dayNumber_lastDate : dayNumber 1970 lastDate = 47540 := by
  have years : daysOfYears 1970 130 = 47482 := daysOfYears_eq (le_refl 130)
  have january : daysOfMonths 2100 1 = 31 := by decide
  simp only [dayNumber, lastDate, Nat.reduceSub, years, january]

/-- A zone is added as an unsigned number, a negative one too. -/
theorem zone_toNat (zone : Int8) : (zone.toInt64.toUInt64.toNat : Int) = zone.toInt % 2 ^ 64 := by
  have same : zone.toInt64.toUInt64.toNat = zone.toInt64.toBitVec.toNat := rfl
  have value : zone.toInt64.toInt = zone.toInt := Int8.toInt_toInt64 zone
  have signed : zone.toInt64.toInt = zone.toInt64.toBitVec.toInt := rfl
  have small := zone.toInt64.toBitVec.isLt
  have wrapped : (zone.toInt64.toBitVec.toNat : Int).bmod (2 ^ 64) % 2 ^ 64 =
      (zone.toInt64.toBitVec.toNat : Int) % 2 ^ 64 := Int.bmod_emod
  rw [same, ← value, signed, BitVec.toInt_eq_toNat_bmod, wrapped]
  omega

/-- The minutes that a clock of the zone shows, where they are since 1970. -/
theorem localMinutes {timestampSec : UInt64} {timeZone : Int8}
    (since : 0 ≤ localTime timestampSec timeZone)
    (upTo : localTime timestampSec timeZone < 2 ^ 60) :
    ((timestampSec / 60 + timeZone.toInt64.toUInt64 * 60).toNat : Int) =
      localTime timestampSec timeZone / 60 := by
  have zone := zone_toNat timeZone
  have low := timeZone.le_toInt
  have high := timeZone.toInt_lt
  unfold localTime at *
  simp only [UInt64.toNat_add, UInt64.toNat_mul, UInt64.toNat_div, UInt64.toNat_ofNat,
    Nat.reducePow, Nat.reduceMod]
  omega

/-- Where the clock of the zone shows a time from 1970 to the end of February 2100, the result is
    the date of the calendar and the time of day, and the loop over the months stays inside
    `sg_day_num`. -/
theorem timestampToDate_calendar (timestampSec : UInt64) (dateTime : RtcDateTime) (timeZone : Int8)
    (since : 0 ≤ localTime timestampSec timeZone)
    (upTo : localTime timestampSec timeZone ≤ 86400 * dayNumber 1970 lastDate + 86399) :
    ∃ result, timestampToDate timestampSec dateTime timeZone = some result ∧
      result = calendarTime (localTime timestampSec timeZone).toNat dateTime ∧
      1 ≤ result.month ∧ result.month ≤ 12 := by
  rw [dayNumber_lastDate] at upTo
  have minutes := localMinutes since (by omega)
  have shown : (localTime timestampSec timeZone).toNat =
    localTime timestampSec timeZone := Int.toNat_of_nonneg since
  generalize (localTime timestampSec timeZone).toNat = seconds at shown
  rw [← shown] at minutes upTo
  generalize counted : timestampSec / 60 + timeZone.toInt64.toUInt64 * 60 = local' at minutes
  have sec : (timestampSec % 60).toNat = seconds % 60 := by
    rw [UInt64.toNat_mod]
    unfold localTime at shown
    change timestampSec.toNat % 60 = _
    omega
  have minute : (timestampSec / 60 % 60).toNat = seconds / 60 % 60 := by
    rw [UInt64.toNat_mod, UInt64.toNat_div]
    unfold localTime at shown
    change timestampSec.toNat / 60 % 60 = _
    omega
  have hour : (local' / 60 % 24).toNat = seconds / 3600 % 24 := by
    rw [UInt64.toNat_mod, UInt64.toNat_div]
    change local'.toNat / 60 % 24 = _
    omega
  have day : (local' / 60 / 24).toNat = seconds / 86400 := by
    rw [UInt64.toNat_div, UInt64.toNat_div]
    change local'.toNat / 60 / 24 = _
    omega
  unfold timestampToDate
  simp only [counted, sec, minute, hour, day]
  rw [toInt_small (show seconds % 60 < 2 ^ 31 by omega),
    toInt_small (show seconds / 60 % 60 < 2 ^ 31 by omega),
    toInt_small (show seconds / 3600 % 24 < 2 ^ 31 by omega),
    toInt_small (show seconds / 86400 < 2 ^ 31 by omega)]
  obtain ⟨date, afterStart, number, found⟩ := @dayToDate_date (seconds / 86400)
    { dateTime with
      sec := (seconds % 60 : Nat)
      minute := (seconds / 60 % 60 : Nat)
      hour := (seconds / 3600 % 24 : Nat) } (by omega)
  refine ⟨_, found, ?_, ?_, ?_⟩
  · have same := eq_after afterStart
    rw [number] at same
    rw [calendarTime, ← same]
  · exact Nat.one_le_cast.mpr date.month_pos
  · exact Nat.cast_le_ofNat.mpr date.month_le

/-- Half an hour before midnight in the west, on a day that is the 29th of February there. -/
theorem timestampToDate_calendar_leapDay :
    let dateTime : RtcDateTime := ⟨0, 0, 0, 0, 0, 0, 0⟩
    (timestampToDate 1709267400 dateTime (-5)).map
        (fun result => (result.year, result.month, result.day, result.hour, result.minute)) =
      some (2024, 2, 29, 23, 30) ∧
    ∃ result, timestampToDate 1709267400 dateTime (-5) = some result ∧
      result = calendarTime (localTime 1709267400 (-5)).toNat dateTime ∧
      1 ≤ result.month ∧ result.month ≤ 12 := by
  intro dateTime
  refine ⟨by decide +kernel, ?_⟩
  refine timestampToDate_calendar 1709267400 dateTime (-5) (by decide) ?_
  rw [dayNumber_lastDate]
  decide

end QcloudIot.Utils
