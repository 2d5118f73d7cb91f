import Facet.Proofs.Instant.Calendar
import Facet.Proofs.Text.Columns

/-!
The order of instants and the order of their texts.

The text of an instant shows a minute and a millisecond of it, and nothing else. Years of four
digits have no sign, and then the text is a row of columns, which are compared from the year down
to the millisecond: texts are ordered as the minutes, and within a minute as the milliseconds.
If whole seconds are in excess only as leap seconds, behind the last second of a minute, this is
the order of the instants themselves.

Owns:
- the order of instants, and instants of one millisecond;
- what is written of an instant, and the order of that;
- that both orders agree on instants without stray excess seconds;
- the numbers that a text shows, and that they fit their columns;
- that texts are equal if the same is written, and are ordered as what is written otherwise;
- the characters of a text, and that all texts have one length.

Does not own: instants as literals.
-/

namespace Facet.Instant

/-! ### Instants -/

/-- One instant is before another. -/
def Precedes (first second : Instant) : Prop :=
  first.seconds < second.seconds ∨ first.seconds = second.seconds ∧ first.nanos < second.nanos

/-- Two instants are in the same millisecond. -/
def SameMillisecond (first second : Instant) : Prop :=
  first.seconds = second.seconds ∧ first.nanos / 10 ^ 6 = second.nanos / 10 ^ 6

/-- The year of an instant is written with four digits and without a sign. -/
def HasPlainYear (instant : Instant) : Prop :=
  0 ≤ (Date.ofDay instant.day).year ∧ (Date.ofDay instant.day).year ≤ 9999

/-- A whole second in excess is a leap second: it is behind the last second of a minute. -/
def IsRegular (instant : Instant) : Prop :=
  10 ^ 9 ≤ instant.nanos → instant.seconds % 60 = 59

instance (first second : Instant) : Decidable (first.Precedes second) :=
  inferInstanceAs (Decidable (_ ∨ _))

instance (first second : Instant) : Decidable (first.SameMillisecond second) :=
  inferInstanceAs (Decidable (_ ∧ _))

instance (instant : Instant) : Decidable instant.HasPlainYear :=
  inferInstanceAs (Decidable (_ ∧ _))

instance (instant : Instant) : Decidable instant.IsRegular :=
  inferInstanceAs (Decidable (_ → _))

/-! ### What is written -/

/-- The minute of an instant, counted from the start of 1970. -/
def minute (instant : Instant) : Int :=
  instant.seconds / 60

/-- The whole milliseconds since the minute began, with those of an excess second. -/
def milliOfMinute (instant : Instant) : Nat :=
  (instant.seconds % 60).toNat * 1000 + instant.nanos / 10 ^ 6

/-- Two instants are in one minute, and as many milliseconds in it. -/
def IsWrittenAs (first second : Instant) : Prop :=
  first.minute = second.minute ∧ first.milliOfMinute = second.milliOfMinute

/-- One instant is in an earlier minute, or fewer milliseconds in the same one. -/
def IsWrittenBefore (first second : Instant) : Prop :=
  first.minute < second.minute ∨
    first.minute = second.minute ∧ first.milliOfMinute < second.milliOfMinute

instance (first second : Instant) : Decidable (first.IsWrittenAs second) :=
  inferInstanceAs (Decidable (_ ∧ _))

instance (first second : Instant) : Decidable (first.IsWrittenBefore second) :=
  inferInstanceAs (Decidable (_ ∨ _))

private theorem isWrittenBefore_trichotomy (first second : Instant) :
    first.IsWrittenBefore second ∨ first.IsWrittenAs second ∨ second.IsWrittenBefore first := by
  unfold IsWrittenBefore IsWrittenAs
  omega

section

variable {first second : Instant}

/-- Of regular instants the same is written exactly within a millisecond. -/
theorem isWrittenAs_iff_sameMillisecond (firstRegular : first.IsRegular)
    (secondRegular : second.IsRegular) :
    first.IsWrittenAs second ↔ first.SameMillisecond second := by
  unfold IsRegular at firstRegular secondRegular
  unfold IsWrittenAs SameMillisecond minute milliOfMinute
  omega

/-- Regular instants of different milliseconds are ordered as what is written of them. -/
theorem isWrittenBefore_iff_precedes (firstRegular : first.IsRegular)
    (secondRegular : second.IsRegular) (apart : ¬first.SameMillisecond second) :
    first.IsWrittenBefore second ↔ first.Precedes second := by
  unfold IsRegular at firstRegular secondRegular
  unfold SameMillisecond at apart
  unfold IsWrittenBefore Precedes minute milliOfMinute
  omega

end

/-! ### Numbers -/

/-- The columns of a text. -/
def columns : List Text.Column :=
  [⟨4, '-'⟩, ⟨2, '-'⟩, ⟨2, 'T'⟩, ⟨2, ':'⟩, ⟨2, ':'⟩, ⟨2, '.'⟩, ⟨3, 'Z'⟩]

/-- The numbers of a date without a sign. -/
def dateNumbers (date : Date) : List Nat :=
  [date.year.toNat, date.month, date.day]

/-- The numbers of the time within the day. -/
def timeNumbers (instant : Instant) : List Nat :=
  [instant.secondOfDay / 3600, instant.secondOfDay / 60 % 60, instant.secondOfMinute,
    instant.millisecond]

/-- The numbers that a text shows. -/
def numbers (instant : Instant) : List Nat :=
  dateNumbers (Date.ofDay instant.day) ++ instant.timeNumbers

private theorem chars_eq_write {instant : Instant} (plain : instant.HasPlainYear) :
    instant.chars = Text.Column.write columns instant.numbers := by
  have year : Date.yearText (Date.ofDay instant.day).year =
      Text.padded 4 (Date.ofDay instant.day).year.toNat := if_pos plain
  simp [chars, Date.chars, year, Text.Column.write, columns, numbers, dateNumbers, timeNumbers]

/-- Days are made of minutes. -/
theorem day_eq (instant : Instant) : instant.day = instant.minute / 1440 := by
  unfold day minute
  omega

/-- The numbers of the time are quotients and remainders of the minute within the day, and of the
milliseconds within the minute. -/
theorem timeNumbers_eq (instant : Instant) :
    instant.timeNumbers =
      [(instant.minute % 1440).toNat / 60, (instant.minute % 1440).toNat % 60,
        instant.milliOfMinute / 1000, instant.milliOfMinute % 1000] := by
  have ofDay : instant.secondOfDay = (instant.seconds % 86400).toNat := rfl
  have ofMinute : instant.secondOfMinute =
      instant.secondOfDay % 60 + instant.nanos / 1000000000 := rfl
  have ofSecond : instant.millisecond = instant.nanos % 1000000000 / 1000000 := rfl
  have minute : instant.minute = instant.seconds / 60 := rfl
  have millis : instant.milliOfMinute =
      (instant.seconds % 60).toNat * 1000 + instant.nanos / 1000000 := rfl
  simp only [timeNumbers, List.cons.injEq, and_true]
  omega

private theorem milliOfMinute_lt (instant : Instant) : instant.milliOfMinute < 61000 := by
  have bounded : instant.nanos < 2 * 1000000000 := instant.bounded
  unfold milliOfMinute
  omega

private theorem numbers_fit {instant : Instant} (plain : instant.HasPlainYear) :
    Text.Column.Fit columns instant.numbers := by
  obtain ⟨⟨_, month⟩, ⟨_, day⟩⟩ := Date.ofDay_isValid instant.day
  have long := Date.monthLength_le (Date.ofDay instant.day).year (Date.ofDay instant.day).month
  have inMinute := instant.milliOfMinute_lt
  obtain ⟨positive, small⟩ := plain
  simp only [columns, numbers, dateNumbers, timeNumbers_eq, List.cons_append, List.nil_append,
    Text.Column.Fit, Nat.reducePow, and_true]
  omega

/-- The numbers of dates are ordered as the dates. -/
theorem dateNumbers_lt {first second : Date} (before : first.Before second)
    (positive : 0 ≤ first.year) : dateNumbers first < dateNumbers second := by
  simp only [dateNumbers, List.cons_lt_cons_iff]
  rcases before with year | ⟨year, month | ⟨month, day⟩⟩
  · exact .inl (by omega)
  · exact .inr ⟨by rw [year], .inl month⟩
  · exact .inr ⟨by rw [year], .inr ⟨month, .inl day⟩⟩

section

variable {first second : Instant}

/-- The numbers of times of one day are ordered as what is written. -/
theorem timeNumbers_lt (day : first.day = second.day) (before : first.IsWrittenBefore second) :
    first.timeNumbers < second.timeNumbers := by
  rw [day_eq, day_eq] at day
  simp only [timeNumbers_eq, List.cons_lt_cons_iff]
  rcases before with minutes | ⟨same, millis⟩
  · by_cases hours :
        (first.minute % 1440).toNat / 60 < (second.minute % 1440).toNat / 60
    · exact .inl hours
    · exact .inr ⟨by omega, .inl (by omega)⟩
  · rw [same]
    refine .inr ⟨rfl, .inr ⟨rfl, ?_⟩⟩
    by_cases seconds : first.milliOfMinute / 1000 < second.milliOfMinute / 1000
    · exact .inl seconds
    · exact .inr ⟨by omega, .inl (by omega)⟩

private theorem numbers_lt (plain : first.HasPlainYear) (before : first.IsWrittenBefore second) :
    first.numbers < second.numbers := by
  by_cases days : first.day < second.day
  · have dates := dateNumbers_lt (Date.ofDay_before days) plain.1
    exact Text.append_lt_append (by rfl) dates first.timeNumbers second.timeNumbers
  · have day : first.day = second.day := by
      rw [day_eq, day_eq] at days ⊢
      unfold IsWrittenBefore at before
      omega
    rw [numbers, numbers, day]
    exact List.append_left_lt (timeNumbers_lt day before)

/-! ### Texts -/

/-- The text shows nothing but the minute and the milliseconds in it. -/
theorem text_eq_of_isWrittenAs (same : first.IsWrittenAs second) : first.text = second.text := by
  obtain ⟨minutes, millis⟩ := same
  have day : first.day = second.day := by rw [day_eq, day_eq, minutes]
  have times : first.timeNumbers = second.timeNumbers := by
    rw [timeNumbers_eq, timeNumbers_eq, minutes, millis]
  simp only [timeNumbers, List.cons.injEq, and_true] at times
  obtain ⟨hours, minutesOfHour, seconds, milliseconds⟩ := times
  rw [text, text, chars, chars, day, hours, minutesOfHour, seconds, milliseconds]

/-- The text of what is written before is less. -/
theorem text_lt_of_isWrittenBefore (firstPlain : first.HasPlainYear)
    (secondPlain : second.HasPlainYear) (before : first.IsWrittenBefore second) :
    first.text < second.text := by
  rw [String.lt_iff, text, text, String.toList_ofList, String.toList_ofList,
    chars_eq_write firstPlain, chars_eq_write secondPlain]
  exact Text.Column.write_lt_write (numbers_fit firstPlain) (numbers_fit secondPlain)
    (numbers_lt firstPlain before)

/-- Texts are equal exactly if the same is written. -/
theorem text_eq_iff (firstPlain : first.HasPlainYear) (secondPlain : second.HasPlainYear) :
    first.text = second.text ↔ first.IsWrittenAs second := by
  refine ⟨fun equal => ?_, text_eq_of_isWrittenAs⟩
  rcases isWrittenBefore_trichotomy first second with before | same | after
  · have less := text_lt_of_isWrittenBefore firstPlain secondPlain before
    rw [equal] at less
    exact absurd less (String.lt_irrefl _)
  · exact same
  · have less := text_lt_of_isWrittenBefore secondPlain firstPlain after
    rw [equal] at less
    exact absurd less (String.lt_irrefl _)

/-- Texts are ordered as what is written. -/
theorem text_lt_iff (firstPlain : first.HasPlainYear) (secondPlain : second.HasPlainYear) :
    first.text < second.text ↔ first.IsWrittenBefore second := by
  refine ⟨fun less => ?_, text_lt_of_isWrittenBefore firstPlain secondPlain⟩
  rcases isWrittenBefore_trichotomy first second with before | same | after
  · exact before
  · rw [text_eq_of_isWrittenAs same] at less
    exact absurd less (String.lt_irrefl _)
  · exact absurd less
      (String.lt_asymm (text_lt_of_isWrittenBefore secondPlain firstPlain after))

/-- All texts with plain years have one length. -/
theorem length_chars_eq (firstPlain : first.HasPlainYear) (secondPlain : second.HasPlainYear) :
    first.chars.length = second.chars.length := by
  rw [chars_eq_write firstPlain, chars_eq_write secondPlain]
  exact Text.Column.length_write_eq (numbers_fit firstPlain) (numbers_fit secondPlain)

end

/-- A text has digits and the marks of its columns. -/
theorem of_mem_chars {instant : Instant} (plain : instant.HasPlainYear) {char : Char}
    (member : char ∈ instant.chars) : char.isDigit = true ∨ char ∈ columns.map (·.mark) := by
  rw [chars_eq_write plain] at member
  exact Text.Column.of_mem_write member

end Facet.Instant
