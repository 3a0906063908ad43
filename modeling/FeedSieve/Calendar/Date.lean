/-
Calendar dates.

The calendar is the Gregorian one, run back to the first of January of the
year 1 and forward to the last day of 9999. A date is a year, a month and a
day that name a day of it, and dates are numbered from 1, so that counting
days is arithmetic on numbers.
-/
import FeedSieve.Text.Basic

namespace FeedSieve.Calendar

/-- Whether a year has a twenty-ninth of February. -/
def isLeap (year : Nat) : Bool := year % 4 == 0 && (year % 100 != 0 || year % 400 == 0)

/-- The days of a month; none if there is no such month. -/
def monthLength (year month : Nat) : Nat :=
  match month with
  | 1 | 3 | 5 | 7 | 8 | 10 | 12 => 31
  | 4 | 6 | 9 | 11 => 30
  | 2 => if isLeap year then 29 else 28
  | _ => 0

/-- The days of a year. -/
def yearLength (year : Nat) : Nat := if isLeap year then 366 else 365

/-- The last year of the calendar. -/
def lastYear : Nat := 9999

/-- Whether a year, a month and a day name a day. -/
def names (year month day : Nat) : Bool :=
  1 ≤ year && year ≤ lastYear && 1 ≤ day && day ≤ monthLength year month

/-- A day of the calendar. -/
structure Date where
  /-- The year, from 1. -/
  year : Nat
  /-- The month, from 1. -/
  month : Nat
  /-- The day of the month, from 1. -/
  day : Nat
  /-- There is such a day. -/
  exists_day : names year month day = true
deriving Repr, DecidableEq

/-- The days before a year begins. -/
def daysBeforeYear (year : Nat) : Nat :=
  let past := year - 1
  365 * past + past / 4 - past / 100 + past / 400

/-- The days of a year before a month begins. -/
def daysBeforeMonth (year month : Nat) : Nat :=
  (List.range (month - 1)).foldl (fun days m => days + monthLength year (m + 1)) 0

namespace Date

/-- The day with this year, month and day of the month, if there is one. -/
def ofParts? (year month day : Nat) : Option Date :=
  if h : names year month day = true then some ⟨year, month, day, h⟩ else none

/-- The first day of the calendar. -/
def first : Date := ⟨1, 1, 1, by decide⟩

/-- The number of the day: the first day of the calendar is day 1. -/
def number (d : Date) : Nat := daysBeforeYear d.year + daysBeforeMonth d.year d.month + d.day

/-- The year in which the day with a number lies. -/
def yearOfNumber (n : Nat) : Nat :=
  let guess := 400 * (n - 1) / 146097 + 1
  if daysBeforeYear (guess + 1) < n then guess + 1
  else if n ≤ daysBeforeYear guess then guess - 1
  else guess

/-- The day with a number, if the calendar reaches so far. -/
def ofNumber? (n : Nat) : Option Date :=
  let year := yearOfNumber n
  let rest := n - daysBeforeYear year
  let earlier := (List.range 12).filter fun m => daysBeforeMonth year (m + 1) < rest
  let month := earlier.length
  ofParts? year month (rest - daysBeforeMonth year month)

/-- The day of the week, Monday being 0. -/
def weekday (d : Date) : Nat := (d.number + 6) % 7

/-- Whether a day comes before another. -/
def before (a b : Date) : Bool :=
  a.year < b.year || (a.year == b.year &&
    (a.month < b.month || (a.month == b.month && a.day < b.day)))

/-- Whether a day is another or comes before it. -/
def upTo (a b : Date) : Bool := !before b a

/-- The date as year, month and day with hyphens. -/
def iso (d : Date) : Text :=
  Text.concat [Text.padded 4 d.year, "-", Text.padded 2 d.month, "-", Text.padded 2 d.day]

end Date

end FeedSieve.Calendar
