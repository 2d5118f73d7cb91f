import Facet.Instant
import Mathlib.Tactic.IntervalCases

/-!
The calendar.

The date of a day is computed at once, in cycles of 400 years that begin in March. It is the date
of the Gregorian calendar: the first of January 1970 is day zero, and the date of the next day is
the next date, as the lengths of the months and the leap years say.

Owns:
- leap years, the lengths of months, and the date that follows a date;
- days counted within years that begin in March;
- that the dates of successive days follow each other, and that they exist in the calendar;
- the order of dates, which is the order of days.

Does not own: times within a day, and texts.
-/

namespace Facet.Date

/-! ### Years and months -/

/-- Every fourth year has a leap day, but of the centuries only every fourth. -/
def IsLeap (year : Int) : Prop :=
  year % 4 = 0 ∧ (year % 100 ≠ 0 ∨ year % 400 = 0)

instance : DecidablePred IsLeap :=
  fun _ => inferInstanceAs (Decidable (_ ∧ _))

/-- The number of days of a month. -/
def monthLength (year : Int) (month : Nat) : Nat :=
  if month = 2 then
    if IsLeap year then 29 else 28
  else
    if month ∈ [4, 6, 9, 11] then 30 else 31

theorem monthLength_le (year : Int) (month : Nat) : monthLength year month ≤ 31 := by
  unfold monthLength
  split <;> split <;> omega

/-- The date exists in the calendar. -/
structure IsValid (date : Date) : Prop where
  month : 1 ≤ date.month ∧ date.month ≤ 12
  day : 1 ≤ date.day ∧ date.day ≤ monthLength date.year date.month

/-- The date that follows. -/
def next (date : Date) : Date :=
  if date.day < monthLength date.year date.month then { date with day := date.day + 1 }
  else if date.month < 12 then ⟨date.year, date.month + 1, 1⟩
  else ⟨date.year + 1, 1, 1⟩

/-! ### Years from March -/

/-- The days from the first of March of the year zero to that of a year. -/
def daysBefore (year : Int) : Int :=
  365 * year + year / 4 - year / 100 + year / 400

/-- The days from the first of March of a year to that of the next. The leap day is the last. -/
def lengthFromMarch (year : Int) : Nat :=
  if IsLeap (year + 1) then 366 else 365

/-- The month that begins so many months after March. -/
def monthFrom (months : Nat) : Nat :=
  if months < 10 then months + 3 else months - 9

/-- The days from the first of March to the first of a month. -/
def monthStart (months : Nat) : Nat :=
  (153 * months + 2) / 5

/-- The date of a day of a year that begins in March. -/
def fromMarch (year : Int) (ofYear : Nat) : Date :=
  let months := (5 * ofYear + 2) / 153
  { year := year + (if monthFrom months ≤ 2 then 1 else 0)
    month := monthFrom months
    day := ofYear - monthStart months + 1 }

/-- The day is the one with this number in a year that begins in March. There are 719468 days
from the first of March of the year zero to the first of January 1970. -/
structure IsDayOf (day year : Int) (ofYear : Nat) : Prop where
  counted : day + 719468 = daysBefore year + ofYear
  fits : ofYear < lengthFromMarch year

private theorem lengthFromMarch_le (year : Int) : lengthFromMarch year ≤ 366 := by
  unfold lengthFromMarch
  split <;> omega

private theorem le_lengthFromMarch (year : Int) : 365 ≤ lengthFromMarch year := by
  unfold lengthFromMarch
  split <;> omega

private theorem daysBefore_succ (year : Int) :
    daysBefore (year + 1) = daysBefore year + lengthFromMarch year := by
  unfold daysBefore lengthFromMarch
  split
  · next leap =>
      obtain ⟨fourth, century⟩ := leap
      omega
  · next common =>
      have common : ¬((year + 1) % 4 = 0 ∧ ((year + 1) % 100 ≠ 0 ∨ (year + 1) % 400 = 0)) := common
      omega

namespace IsDayOf

variable {day year : Int} {ofYear : Nat}

/-- The next day is in the same year. -/
theorem succ (dayOf : IsDayOf day year ofYear) (within : ofYear + 1 < lengthFromMarch year) :
    IsDayOf (day + 1) year (ofYear + 1) := by
  have counted := dayOf.counted
  exact ⟨by omega, within⟩

/-- The day after the last day of a year is the first day of the next. -/
theorem succ_of_last (dayOf : IsDayOf day year ofYear) (last : ofYear + 1 = lengthFromMarch year) :
    IsDayOf (day + 1) (year + 1) 0 := by
  have counted := dayOf.counted
  have following := daysBefore_succ year
  have long := le_lengthFromMarch (year + 1)
  exact ⟨by omega, by omega⟩

/-- The day before a day is in the same year, or is the last day of the year before. -/
theorem pred (dayOf : IsDayOf day year ofYear) : ∃ year ofYear, IsDayOf (day - 1) year ofYear := by
  obtain ⟨counted, fits⟩ := dayOf
  cases ofYear with
  | zero =>
      have following := daysBefore_succ (year - 1)
      rw [Int.sub_add_cancel] at following
      have long := le_lengthFromMarch (year - 1)
      exact ⟨year - 1, lengthFromMarch (year - 1) - 1, by omega, by omega⟩
  | succ ofYear => exact ⟨year, ofYear, by omega, by omega⟩

end IsDayOf

/-- Every day is in some year. -/
theorem exists_isDayOf (day : Int) : ∃ year ofYear, IsDayOf day year ofYear := by
  induction day using Int.induction_on with
  | zero => exact ⟨1969, 306, by decide, by decide⟩
  | succ day inductionHypothesis =>
      obtain ⟨year, ofYear, dayOf⟩ := inductionHypothesis
      by_cases within : ofYear + 1 < lengthFromMarch year
      · exact ⟨_, _, dayOf.succ within⟩
      · have fits := dayOf.fits
        exact ⟨_, _, dayOf.succ_of_last (by omega)⟩
  | pred day inductionHypothesis =>
      obtain ⟨_, _, dayOf⟩ := inductionHypothesis
      exact dayOf.pred

/-- The years before a day, within its cycle of 400 years, are counted right. -/
theorem yearOfCycle_eq {year ofYear : Nat} (small : year < 400)
    (fits : ofYear < lengthFromMarch year) :
    let ofCycle := 365 * year + year / 4 - year / 100 + ofYear
    (ofCycle - ofCycle / 1460 + ofCycle / 36524 - ofCycle / 146096) / 365 = year := by
  intro ofCycle
  have day : ofYear ≤ 365 ∧ (ofYear = 365 → year % 4 = 3 ∧ (year % 100 = 99 → year = 399)) := by
    unfold lengthFromMarch at fits
    split at fits
    · next leap =>
        obtain ⟨fourth, century⟩ := leap
        omega
    · omega
  obtain ⟨long, leapDay⟩ := day
  -- The leap day is the only day of a cycle beyond its last century.
  obtain ⟨rest, ofCentury, bounded⟩ : ∃ rest, ofCycle = 36524 * (year / 100) + rest ∧
      (rest < 36524 ∨ rest = 36524 ∧ year = 399) :=
    ⟨365 * (year % 100) + year % 100 / 4 + ofYear, by omega, by omega⟩
  have centuries : ofCycle / 36524 = year / 100 + ofCycle / 146096 := by
    clear_value ofCycle
    rcases bounded with within | ⟨rfl, rfl⟩ <;> omega
  -- A fourth year ends a day after the 1460 days that are counted for four years.
  have fourths : ofCycle / 1460 = year / 4 ∧ ofYear < 365 ∨
      ofCycle / 1460 = year / 4 + 1 ∧ 0 < ofYear := by omega
  omega

/-- The years of each cycle of 400 years have the same lengths. -/
theorem lengthFromMarch_of_cycle (cycle : Int) (year : Nat) :
    lengthFromMarch (400 * cycle + year) = lengthFromMarch year := by
  have leap : IsLeap (400 * cycle + year + 1) ↔ IsLeap (year + 1) := by
    unfold IsLeap
    omega
  simp only [lengthFromMarch, leap]

/-- The date of a day is found in its year. -/
theorem ofDay_eq_fromMarch {day year : Int} {ofYear : Nat} (dayOf : IsDayOf day year ofYear) :
    ofDay day = fromMarch year ofYear := by
  obtain ⟨counted, fits⟩ := dayOf
  obtain ⟨cycle, within, small, rfl⟩ :
      ∃ (cycle : Int) (within : Nat), within < 400 ∧ year = 400 * cycle + within :=
    ⟨year / 400, (year % 400).toNat, by omega, by omega⟩
  rw [lengthFromMarch_of_cycle] at fits
  let ofCycle := 365 * within + within / 4 - within / 100 + ofYear
  have years : (ofCycle - ofCycle / 1460 + ofCycle / 36524 - ofCycle / 146096) / 365 = within :=
    yearOfCycle_eq small fits
  have shifted : day + 719468 = 146097 * cycle + ofCycle := by
    unfold daysBefore at counted
    omega
  have bounded : ofCycle < 146097 := by
    have long := lengthFromMarch_le within
    omega
  have cycles : (day + 719468) / 146097 = cycle := by omega
  have inCycle : ((day + 719468) % 146097).toNat = ofCycle := by omega
  have inYear : ofCycle - (365 * within + within / 4 - within / 100) = ofYear := by omega
  have order : (within : Int) + cycle * 400 = 400 * cycle + within := by omega
  simp only [ofDay, fromMarch, cycles, inCycle, years, inYear, order]
  rfl

/-! ### Months from March -/

/-- The days from the first of March to the end of a month. The last month is February. -/
def monthEnd (year : Int) (months : Nat) : Nat :=
  if months = 11 then lengthFromMarch year else monthStart (months + 1)

/-- A month is as long as the days from its first day to its end. -/
theorem monthLength_eq (year : Int) {months : Nat} (small : months < 12) :
    monthLength (year + if monthFrom months ≤ 2 then 1 else 0) (monthFrom months) =
      monthEnd year months - monthStart months := by
  by_cases last : months = 11
  · subst last
    simp only [monthFrom, monthLength, monthEnd, monthStart, lengthFromMarch]
    by_cases leap : IsLeap (year + 1) <;> simp [leap]
  · rw [monthEnd, if_neg last]
    interval_cases months <;> first | contradiction | rfl

/-- The date of a day of a month. -/
theorem fromMarch_eq {year : Int} {months rest : Nat}
    (within : monthStart months + rest < monthEnd year months) :
    fromMarch year (monthStart months + rest) =
      ⟨year + (if monthFrom months ≤ 2 then 1 else 0), monthFrom months, rest + 1⟩ := by
  have long := lengthFromMarch_le year
  have found : (5 * (monthStart months + rest) + 2) / 153 = months := by
    unfold monthEnd monthStart at within
    unfold monthStart
    split at within <;> omega
  rw [fromMarch]
  simp only [found, Nat.add_sub_cancel_left]

/-- Every day of a year is in one of its months. -/
theorem exists_month {year : Int} {ofYear : Nat} (fits : ofYear < lengthFromMarch year) :
    ∃ months rest, months < 12 ∧ ofYear = monthStart months + rest ∧
      ofYear < monthEnd year months := by
  have long := lengthFromMarch_le year
  refine ⟨(5 * ofYear + 2) / 153, ofYear - monthStart ((5 * ofYear + 2) / 153), by omega, ?_, ?_⟩
  · unfold monthStart
    omega
  · unfold monthEnd monthStart
    split
    · exact fits
    · omega

/-! ### Successive dates -/

/-- Within a year that begins in March the dates follow each other. -/
theorem next_fromMarch {year : Int} {ofYear : Nat} (within : ofYear + 1 < lengthFromMarch year) :
    (fromMarch year ofYear).next = fromMarch year (ofYear + 1) := by
  obtain ⟨months, rest, small, rfl, inMonth⟩ := exists_month (Nat.lt_of_succ_lt within)
  have length := monthLength_eq year small
  rw [fromMarch_eq inMonth]
  by_cases inside : monthStart months + (rest + 1) < monthEnd year months
  · rw [next, if_pos (by simp only [length]; omega), Nat.add_assoc (monthStart months),
      fromMarch_eq inside]
  · have early : months ≠ 11 := by
      rintro rfl
      exact inside within
    rw [monthEnd, if_neg early] at inMonth inside length
    have following : monthStart months + rest + 1 = monthStart (months + 1) + 0 := by omega
    have begins : monthStart (months + 1) + 0 < monthEnd year (months + 1) := by
      have long := le_lengthFromMarch year
      unfold monthEnd monthStart
      split <;> omega
    rw [next, if_neg (by simp only [length]; omega), following, fromMarch_eq begins]
    -- The months from March to January, each with the one after it.
    interval_cases months <;> first | contradiction | simp [monthFrom]

/-- The first of March follows the last day of February. -/
theorem next_fromMarch_of_last {year : Int} {ofYear : Nat}
    (last : ofYear + 1 = lengthFromMarch year) :
    (fromMarch year ofYear).next = fromMarch (year + 1) 0 := by
  have february : lengthFromMarch year = monthEnd year 11 := rfl
  have length := monthLength_eq year (show 11 < 12 by omega)
  obtain ⟨rest, rfl⟩ : ∃ rest, ofYear = monthStart 11 + rest := by
    have long := le_lengthFromMarch year
    exact Nat.exists_eq_add_of_le (by unfold monthStart; omega)
  rw [fromMarch_eq (by omega), next, if_neg (by simp only [length]; omega)]
  simp [fromMarch, monthFrom]

/-- **The calendar law.** The date of the next day is the next date. -/
theorem ofDay_succ (day : Int) : ofDay (day + 1) = (ofDay day).next := by
  obtain ⟨year, ofYear, dayOf⟩ := exists_isDayOf day
  rw [ofDay_eq_fromMarch dayOf]
  by_cases within : ofYear + 1 < lengthFromMarch year
  · rw [ofDay_eq_fromMarch (dayOf.succ within), next_fromMarch within]
  · have last : ofYear + 1 = lengthFromMarch year := by
      have fits := dayOf.fits
      omega
    rw [ofDay_eq_fromMarch (dayOf.succ_of_last last), next_fromMarch_of_last last]

example : ofDay 0 = ⟨1970, 1, 1⟩ := by decide

/-- Every day has a date that exists in the calendar. -/
theorem ofDay_isValid (day : Int) : (ofDay day).IsValid := by
  obtain ⟨year, ofYear, dayOf⟩ := exists_isDayOf day
  obtain ⟨months, rest, small, rfl, inMonth⟩ := exists_month dayOf.fits
  rw [ofDay_eq_fromMarch dayOf, fromMarch_eq inMonth]
  have length := monthLength_eq year small
  refine ⟨?_, ?_⟩
  · simp only [monthFrom]
    split <;> omega
  · simp only [length]
    omega

/-! ### The order of dates -/

/-- One date is before another. -/
def Before (first second : Date) : Prop :=
  first.year < second.year ∨
    first.year = second.year ∧
      (first.month < second.month ∨ first.month = second.month ∧ first.day < second.day)

theorem Before.trans {first second third : Date} (left : first.Before second)
    (right : second.Before third) : first.Before third := by
  unfold Before at *
  omega

private theorem before_next (date : Date) : date.Before date.next := by
  unfold next Before
  split
  · exact .inr ⟨rfl, .inr ⟨rfl, Nat.lt_succ_self _⟩⟩
  · split
    · exact .inr ⟨rfl, .inl (Nat.lt_succ_self _)⟩
    · exact .inl (Int.lt_succ _)

/-- Dates are ordered as their days. -/
theorem ofDay_before {first second : Int} (before : first < second) :
    (ofDay first).Before (ofDay second) := by
  induction second, Int.add_one_le_of_lt before using Int.leInduction with
  | base =>
      rw [ofDay_succ]
      exact before_next _
  | succ second after inductionHypothesis =>
      rw [ofDay_succ]
      exact (inductionHypothesis after).trans (before_next _)

end Facet.Date
