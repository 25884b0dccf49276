/-
Moments, in milliseconds since the start of 1970, and their calendar text.

The calendar is the Gregorian one, run forward without end.  Days are counted in
years that start on the first of March, so that a leap day is the last of its
year: 400 years are 146097 days, and within a year the months from March on start
on day `(153 * m + 2) / 5`.
-/
import CallLifecycle.Decimal

namespace CallLifecycle.Timestamp

/-- A day of the calendar. -/
structure Date where
  year : Nat
  month : Nat
  day : Nat
  deriving DecidableEq

/-- The last moment of the years that have a date. -/
def last : UInt64 := 8210266876799999

/-- The date that lies a number of days after the start of 1970. -/
def dateOfDay (days : Nat) : Date :=
  -- the first of March of year 0 lies 719468 days before 1970
  let day := days + 719468
  let cycle := day / 146097
  let dayOfCycle := day % 146097
  let yearOfCycle :=
    (dayOfCycle - dayOfCycle / 1460 + dayOfCycle / 36524 - dayOfCycle / 146096) / 365
  let dayOfYear := dayOfCycle - (365 * yearOfCycle + yearOfCycle / 4 - yearOfCycle / 100)
  let monthFromMarch := (5 * dayOfYear + 2) / 153
  let month := if monthFromMarch < 10 then monthFromMarch + 3 else monthFromMarch - 9
  { year := 400 * cycle + yearOfCycle + (if month ≤ 2 then 1 else 0)
    month := month
    day := dayOfYear - (153 * monthFromMarch + 2) / 5 + 1 }

/-- A year has four digits, or a sign and as many as it needs. -/
def yearText (year : Nat) : String :=
  if year ≤ 9999 then Decimal.padded 4 year else "+" ++ Decimal.text year

/-- The text of a moment: date, time to the millisecond, and `Z`. -/
def text (moment : UInt64) : String :=
  let ms := moment.toNat
  let date := dateOfDay (ms / 86400000)
  let second := ms / 1000 % 86400
  yearText date.year ++ "-" ++ Decimal.padded 2 date.month ++ "-" ++ Decimal.padded 2 date.day ++
    "T" ++ Decimal.padded 2 (second / 3600) ++ ":" ++ Decimal.padded 2 (second / 60 % 60) ++
    ":" ++ Decimal.padded 2 (second % 60) ++ "." ++ Decimal.padded 3 (ms % 1000) ++ "Z"

/-- The text of a moment that has a date. -/
def text? (moment : UInt64) : Option String :=
  if moment ≤ last then some (text moment) else none

end CallLifecycle.Timestamp
