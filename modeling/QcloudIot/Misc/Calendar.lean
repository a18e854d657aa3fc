import Mathlib

/-!
# The Gregorian calendar

Dates of the proleptic Gregorian calendar, the day that follows each of them, and the number of
days from the first of January of a year to a date.
-/

namespace QcloudIot

/-- Every fourth year, without three of four centuries. -/
def IsLeapYear (year : Nat) : Prop := year % 4 = 0 ∧ (year % 100 ≠ 0 ∨ year % 400 = 0)

instance (year : Nat) : Decidable (IsLeapYear year) :=
  inferInstanceAs (Decidable (_ ∧ (_ ∨ _)))

/-- The days of a month, the first of which is January. -/
def monthLength (year month : Nat) : Nat :=
  match month with
  | 2 => if IsLeapYear year then 29 else 28
  | 4 | 6 | 9 | 11 => 30
  | _ => 31

def yearLength (year : Nat) : Nat := if IsLeapYear year then 366 else 365

/-- A day of the calendar. -/
@[ext] structure CalendarDate where
  year : Nat
  month : Nat
  day : Nat
  month_pos : 1 ≤ month
  month_le : month ≤ 12
  day_pos : 1 ≤ day
  day_le : day ≤ monthLength year month

theorem monthLength_pos (year month : Nat) : 1 ≤ monthLength year month := by
  unfold monthLength
  split <;> first | split <;> decide | decide

namespace CalendarDate

/-- The first of January. -/
def firstOf (year : Nat) : CalendarDate :=
  ⟨year, 1, 1, le_refl 1, by decide, le_refl 1, monthLength_pos year 1⟩

/-- The day that follows: the next one of the month, or else the first of the next month, or else
    the first of the next year. -/
def next (date : CalendarDate) : CalendarDate :=
  if inside : date.day + 1 ≤ monthLength date.year date.month then
    { date with day := date.day + 1, day_pos := Nat.le_add_left 1 _, day_le := inside }
  else if early : date.month + 1 ≤ 12 then
    ⟨date.year, date.month + 1, 1, Nat.le_add_left 1 _, early, le_refl 1, monthLength_pos _ _⟩
  else firstOf (date.year + 1)

/-- The date `days` days after the first of January of `base`. -/
def after (base days : Nat) : CalendarDate := next^[days] (firstOf base)

end CalendarDate

/-! ## Counting days -/

/-- The days of the `count` years from `base` on. -/
def daysOfYears (base count : Nat) : Nat := ∑ i ∈ Finset.range count, yearLength (base + i)

/-- The days of the first `count` months of a year. -/
def daysOfMonths (year count : Nat) : Nat := ∑ i ∈ Finset.range count, monthLength year (i + 1)

theorem daysOfYears_succ (base count : Nat) :
    daysOfYears base (count + 1) = daysOfYears base count + yearLength (base + count) :=
  Finset.sum_range_succ _ _

theorem daysOfYears_mono (base : Nat) {few many : Nat} (fewer : few ≤ many) :
    daysOfYears base few ≤ daysOfYears base many :=
  Finset.sum_le_sum_of_subset (Finset.range_subset_range.mpr fewer)

theorem daysOfMonths_succ (year count : Nat) :
    daysOfMonths year (count + 1) = daysOfMonths year count + monthLength year (count + 1) :=
  Finset.sum_range_succ _ _

theorem daysOfMonths_mono (year : Nat) {few many : Nat} (fewer : few ≤ many) :
    daysOfMonths year few ≤ daysOfMonths year many :=
  Finset.sum_le_sum_of_subset (Finset.range_subset_range.mpr fewer)

/-- The months of a year make up the year. -/
theorem daysOfMonths_twelve (year : Nat) : daysOfMonths year 12 = yearLength year := by
  simp only [daysOfMonths, Finset.sum_range_succ, Finset.sum_range_zero, monthLength, yearLength]
  split <;> rfl

namespace CalendarDate

/-- The number of days from the first of January of `base` to the date. -/
def dayNumber (base : Nat) (date : CalendarDate) : Nat :=
  daysOfYears base (date.year - base) + daysOfMonths date.year (date.month - 1) + (date.day - 1)

theorem dayNumber_firstOf (base : Nat) : dayNumber base (firstOf base) = 0 := by
  simp only [dayNumber, firstOf, Nat.sub_self, daysOfYears, daysOfMonths, Finset.sum_range_zero,
    Nat.add_zero]

/-- The days of the years before, and the day of the year. -/
theorem dayNumber_year (base : Nat) (date : CalendarDate) :
    dayNumber base date = daysOfYears base (date.year - base) + dayNumber date.year date := by
  have none : daysOfYears date.year 0 = 0 := rfl
  simp only [dayNumber, Nat.sub_self, none]
  omega

/-- The days of the months up to this one. -/
theorem daysOfMonths_month (date : CalendarDate) :
    daysOfMonths date.year date.month =
      daysOfMonths date.year (date.month - 1) + monthLength date.year date.month := by
  have step := daysOfMonths_succ date.year (date.month - 1)
  rw [Nat.sub_add_cancel date.month_pos] at step
  exact step

theorem next_year_ge {base : Nat} {date : CalendarDate} (since : base ≤ date.year) :
    base ≤ date.next.year := by
  unfold next
  split_ifs
  · exact since
  · exact since
  · exact Nat.le_succ_of_le since

theorem dayNumber_next {base : Nat} {date : CalendarDate} (since : base ≤ date.year) :
    dayNumber base date.next = dayNumber base date + 1 := by
  have positive := date.day_pos
  have day := date.day_le
  have months := daysOfMonths_month date
  unfold next
  split_ifs with inside early
  · simp only [dayNumber]
    omega
  · simp only [dayNumber, Nat.add_sub_cancel]
    omega
  · have last : date.month = 12 := le_antisymm date.month_le (by omega)
    have years := daysOfYears_succ base (date.year - base)
    have year := daysOfMonths_twelve date.year
    rw [Nat.add_sub_cancel' since] at years
    rw [last] at months
    have further : date.year + 1 - base = date.year - base + 1 := by omega
    simp only [dayNumber, firstOf, further, years, Nat.sub_self]
    rw [← last] at months year
    have none : daysOfMonths (date.year + 1) 0 = 0 := rfl
    omega

theorem after_succ (base days : Nat) : after base (days + 1) = (after base days).next :=
  Function.iterate_succ_apply' next days (firstOf base)

theorem after_spec (base days : Nat) :
    base ≤ (after base days).year ∧ dayNumber base (after base days) = days := by
  induction days with
  | zero => exact ⟨le_refl base, dayNumber_firstOf base⟩
  | succ days ih =>
    rw [after_succ]
    exact ⟨next_year_ge ih.1, (dayNumber_next ih.1).trans (congrArg Nat.succ ih.2)⟩

/-- A date lies inside its year. -/
theorem dayNumber_lt {base : Nat} {date : CalendarDate} (since : base ≤ date.year) :
    dayNumber base date < daysOfYears base (date.year + 1 - base) := by
  have positive := date.day_pos
  have day := date.day_le
  have months := daysOfMonths_month date
  have inYear := daysOfMonths_mono date.year date.month_le
  rw [daysOfMonths_twelve] at inYear
  have years := daysOfYears_succ base (date.year - base)
  rw [Nat.add_sub_cancel' since] at years
  have further : date.year + 1 - base = date.year - base + 1 := by omega
  rw [further, years, dayNumber]
  omega

/-- No two dates have one number. -/
theorem dayNumber_injective {base : Nat} {date other : CalendarDate} (since : base ≤ date.year)
    (otherSince : base ≤ other.year) (same : dayNumber base date = dayNumber base other) :
    date = other := by
  have year : date.year = other.year := by
    rcases Nat.lt_trichotomy date.year other.year with before | equal | behind
    · have bound := dayNumber_lt since
      have start := daysOfYears_mono base
        (show date.year + 1 - base ≤ other.year - base by omega)
      unfold dayNumber at same bound
      omega
    · exact equal
    · have bound := dayNumber_lt otherSince
      have start := daysOfYears_mono base
        (show other.year + 1 - base ≤ date.year - base by omega)
      unfold dayNumber at same bound
      omega
  have positive := date.day_pos
  have otherPositive := other.day_pos
  have firstMonth := date.month_pos
  have otherFirstMonth := other.month_pos
  have day := date.day_le
  have otherDay := other.day_le
  have months := daysOfMonths_month date
  have otherMonths := daysOfMonths_month other
  rw [dayNumber, dayNumber, year] at same
  rw [year] at months day
  have month : date.month = other.month := by
    rcases Nat.lt_trichotomy date.month other.month with before | equal | behind
    · have start := daysOfMonths_mono other.year
        (show date.month ≤ other.month - 1 by omega)
      omega
    · exact equal
    · have start := daysOfMonths_mono other.year
        (show other.month ≤ date.month - 1 by omega)
      omega
  rw [month] at same
  exact CalendarDate.ext year month (by omega)

/-- The number of days determines the date. -/
theorem eq_after {base : Nat} {date : CalendarDate} (since : base ≤ date.year) :
    date = after base (dayNumber base date) := by
  obtain ⟨afterSince, number⟩ := after_spec base (dayNumber base date)
  exact dayNumber_injective since afterSince number.symm

end CalendarDate

end QcloudIot
