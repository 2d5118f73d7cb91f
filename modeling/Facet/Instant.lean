import Facet.Text.Number

/-!
Points in time, to the nanosecond, in the proleptic Gregorian calendar.

Owns:
- instants, counted in seconds and nanoseconds from the start of 1970;
- the calendar date of a day number;
- the text form with milliseconds.

The nanoseconds of an instant may exceed a whole second. In the last second of a minute this makes
a leap second, which is written with the seconds `60`. In any other second the excess is written
as the second that follows.
-/

namespace Facet

/-- A point in time. The nanoseconds may exceed a whole second, but not two. -/
structure Instant where
  seconds : Int
  nanos : Nat
  bounded : nanos < 2 * Nat.pow 10 9
deriving DecidableEq, Repr

/-- A calendar date. -/
structure Date where
  year : Int
  month : Nat
  day : Nat
deriving DecidableEq, Repr

namespace Date

/-- The date of a day, counted from the first of January 1970. Years are counted from the
first of March and in cycles of 400, so that a leap day is the last day of its year. -/
def ofDay (day : Int) : Date :=
  let shifted := day + 719468
  let cycle := shifted / 146097
  let ofCycle := (shifted % 146097).toNat
  let yearOfCycle := (ofCycle - ofCycle / 1460 + ofCycle / 36524 - ofCycle / 146096) / 365
  let ofYear := ofCycle - (365 * yearOfCycle + yearOfCycle / 4 - yearOfCycle / 100)
  let monthFromMarch := (5 * ofYear + 2) / 153
  let month := if monthFromMarch < 10 then monthFromMarch + 3 else monthFromMarch - 9
  { year := yearOfCycle + cycle * 400 + (if month ≤ 2 then 1 else 0)
    month
    day := ofYear - (153 * monthFromMarch + 2) / 5 + 1 }

/-- Years of four digits have no sign, and all others have one. -/
def yearText (year : Int) : List Char :=
  if 0 ≤ year ∧ year ≤ 9999 then Text.padded 4 year.toNat
  else (if year < 0 then '-' else '+') :: Text.padded 4 year.natAbs

def chars (date : Date) : List Char :=
  yearText date.year ++ '-' :: Text.padded 2 date.month ++ '-' :: Text.padded 2 date.day

end Date

namespace Instant

/-- The instant so many seconds and nanoseconds after the start of 1970. -/
def ofUnix? (seconds : Int) (nanos : Nat) : Option Instant :=
  if bounded : nanos < 2 * Nat.pow 10 9 then some ⟨seconds, nanos, bounded⟩ else none

/-- The day that an instant falls on. -/
def day (instant : Instant) : Int :=
  instant.seconds / 86400

def secondOfDay (instant : Instant) : Nat :=
  (instant.seconds % 86400).toNat

/-- The seconds within the minute as they are written; 60 in a leap second. -/
def secondOfMinute (instant : Instant) : Nat :=
  instant.secondOfDay % 60 + instant.nanos / Nat.pow 10 9

/-- The whole milliseconds within the second. -/
def millisecond (instant : Instant) : Nat :=
  instant.nanos % Nat.pow 10 9 / Nat.pow 10 6

def chars (instant : Instant) : List Char :=
  (Date.ofDay instant.day).chars ++
    'T' :: Text.padded 2 (instant.secondOfDay / 3600) ++
    ':' :: Text.padded 2 (instant.secondOfDay / 60 % 60) ++
    ':' :: Text.padded 2 instant.secondOfMinute ++
    '.' :: Text.padded 3 instant.millisecond ++ ['Z']

/-- The text of an instant: date and time in universal time, with milliseconds. -/
def text (instant : Instant) : String :=
  String.ofList instant.chars

end Instant

end Facet
