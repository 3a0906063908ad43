/-
Moments: a day, a time of that day, and perhaps an offset from UTC.

The same instant can be written with different offsets, and then may fall on
different days. Both readings are needed: moments are compared as instants,
and the day of a moment is the one it has with its own offset. A moment
without an offset is naive: it does not say which instant it is.

Two texts of a moment are in use. One is the interchange form,
`2021-04-01T12:00:00+02:00`; the other is the form of mail headers,
`Thu, 01 Apr 2021 12:00:00 +0200`, whose offset is `-0000` for a naive
moment.
-/
import FeedSieve.Calendar.Date

namespace FeedSieve.Calendar

/-- The microseconds of a day. -/
def dayMicros : Nat := 86400000000

/-- A day and a time of the day. -/
structure Moment where
  /-- The day. -/
  date : Date
  /-- The microseconds since the day began. -/
  micros : Nat
  /-- The seconds by which local time is ahead of UTC, if that is known. -/
  offset : Option Int
  /-- The time is within the day. -/
  in_day : micros < dayMicros := by decide
deriving Repr, DecidableEq

namespace Moment

/-- The moment with this time of day, if there is such a time. -/
def ofClock? (date : Date) (hour minute second micro : Nat) (offset : Option Int) :
    Option Moment :=
  let micros := ((hour * 60 + minute) * 60 + second) * 1000000 + micro
  if h : hour < 24 ∧ minute < 60 ∧ second < 60 ∧ micro < 1000000 then
    some ⟨date, micros, offset, by simp only [micros, dayMicros]; omega⟩
  else none

/-- The beginning of a day. -/
def midnight (date : Date) (offset : Option Int) : Moment := ⟨date, 0, offset, by decide⟩

/-- The hour of the day. -/
def hour (m : Moment) : Nat := m.micros / 3600000000

/-- The minute of the hour. -/
def minute (m : Moment) : Nat := m.micros / 60000000 % 60

/-- The second of the minute. -/
def second (m : Moment) : Nat := m.micros / 1000000 % 60

/-- The microsecond of the second. -/
def micro (m : Moment) : Nat := m.micros % 1000000

/-- The instant, in microseconds; a naive moment is taken to be in UTC. The
instants of early days with large offsets are negative. -/
def instant (m : Moment) : Int :=
  (m.date.number : Int) * dayMicros + m.micros - m.offset.getD 0 * 1000000

/-- A naive moment is taken to be in UTC. -/
def inUtcIfNaive (m : Moment) : Moment := { m with offset := some (m.offset.getD 0) }

/-- The day on which 1970 begins, by number. -/
def epochDay : Nat := 719163

/-- The moment so many seconds after 1970 begins, in UTC, if the calendar
reaches so far. -/
def ofSeconds? (seconds : Nat) : Option Moment := do
  let date ← Date.ofNumber? (epochDay + seconds / 86400)
  let rest := seconds % 86400
  ofClock? date (rest / 3600) (rest / 60 % 60) (rest % 60) 0 (some 0)

/-- The first moment of the calendar, in UTC. -/
def first : Moment := midnight Date.first (some 0)

-- ============================================================== texts

/-- An offset as hours and minutes with `sep` between them, and seconds if
there are any. -/
def offsetText (sep : Text) (seconds : Int) : Text :=
  let size := seconds.natAbs
  let rest := if size % 60 = 0 then [] else sep ++ Text.padded 2 (size % 60)
  Text.concat [if seconds < 0 then "-" else "+", Text.padded 2 (size / 3600), sep,
    Text.padded 2 (size / 60 % 60), rest]

/-- The time of day as hours, minutes and seconds with colons. -/
def clock (m : Moment) : Text :=
  Text.concat [Text.padded 2 m.hour, ":", Text.padded 2 m.minute, ":", Text.padded 2 m.second]

/-- The interchange form. -/
def iso (m : Moment) : Text :=
  let fraction := if m.micro = 0 then [] else '.' :: Text.padded 6 m.micro
  let offset := match m.offset with
    | none => []
    | some seconds => offsetText ":" seconds
  Text.concat [m.date.iso, "T", m.clock, fraction, offset]

/-- The names of the days of the week, from Monday. -/
def weekdayNames : List Text := ["Mon", "Tue", "Wed", "Thu", "Fri", "Sat", "Sun"]

/-- The names of the months. -/
def monthNames : List Text :=
  ["Jan", "Feb", "Mar", "Apr", "May", "Jun", "Jul", "Aug", "Sep", "Oct", "Nov", "Dec"]

/-- The form of mail headers. -/
def mail (m : Moment) : Text :=
  let zone : Text := match m.offset with
    | none => "-0000"
    | some seconds => offsetText "" seconds
  Text.concat [weekdayNames.getD m.date.weekday [], ", ", Text.padded 2 m.date.day, " ",
    monthNames.getD (m.date.month - 1) [], " ", Text.padded 4 m.date.year, " ", m.clock, " ", zone]

/-- The form for people: to the minute, without zeros before the year. -/
def short (m : Moment) : Text :=
  let zone : Text := match m.offset with
    | none => []
    | some seconds => offsetText "" seconds
  Text.concat [Text.ofNat m.date.year, "-", Text.padded 2 m.date.month, "-",
    Text.padded 2 m.date.day, " ", Text.padded 2 m.hour, ":", Text.padded 2 m.minute, " ", zone]

end Moment

end FeedSieve.Calendar
