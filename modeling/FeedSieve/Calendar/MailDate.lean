/-
Dates as mail headers and most feeds write them.

The form is `Thu, 01 Apr 2021 12:00:00 +0200`, and reading is lenient. The
text is cut into words; a day name in front is dropped; what remains should
be day, month, year, time and zone, but day and month may change places,
and so may year and time, and year and zone. Numbers of the day, the year
and the time may carry a comma behind them.

A zone is a name, or a number whose last two digits are minutes; one that
is neither, and a zero with a minus sign, leave the moment naive.

Numbers that no calendar reaches fail quietly, as any other text does. A
number too large for the machine is an overflow, an outcome of its own.
-/
import FeedSieve.Calendar.Moment
import FeedSieve.Text.Digits
import FeedSieve.Number.Word

namespace FeedSieve.Calendar

/-- A number in a date that is out of all bounds. -/
inductive Overflow where
  /-- A number beyond 64 bits. -/
  | long
  /-- A number of days beyond 32 bits. -/
  | int
  /-- A number above all 32-bit ones. -/
  | high
  /-- A number below all 32-bit ones. -/
  | low
  /-- A number of days that no duration has. -/
  | days (count : Int)
deriving Repr, DecidableEq

/-- The wording of an overflow. -/
def Overflow.message : Overflow → Text
  | long => "Python int too large to convert to C long"
  | int => "Python int too large to convert to C int"
  | high => "signed integer is greater than maximum"
  | low => "signed integer is less than minimum"
  | days count => Text.concat
      ["days=", Text.ofInt count, "; must have magnitude <= 999999999"]

namespace MailDate

/-- The short names of the days of the week. -/
def dayNames : List Text := ["mon", "tue", "wed", "thu", "fri", "sat", "sun"]

/-- The names of the months, short ones first. -/
def monthNames : List Text :=
  ["jan", "feb", "mar", "apr", "may", "jun", "jul", "aug", "sep", "oct", "nov", "dec",
   "january", "february", "march", "april", "may", "june", "july", "august", "september",
   "october", "november", "december"]

/-- The named zones: hours and minutes ahead of UTC as one number. -/
def zones : List (String × Int) :=
  [("UT", 0), ("UTC", 0), ("GMT", 0), ("Z", 0), ("AST", -400), ("ADT", -300), ("EST", -500),
   ("EDT", -400), ("CST", -600), ("CDT", -500), ("MST", -700), ("MDT", -600), ("PST", -800),
   ("PDT", -700)]

/-- The number of the month that a word names. -/
def month? (word : Text) : Option Nat :=
  (monthNames.findIdx? (· == Text.lowerPlain word)).map (· % 12 + 1)

/-- A letter in its capital form, as far as the name of a zone may come out. -/
def capital (c : Char) : Text :=
  if c = '\u017f' then "S" else if c = '\ufb05' || c = '\ufb06' then "ST" else [c.toUpper]

-- =============================================================== words

/-- The words without a day name: a first word that is one or ends in a
comma goes, and otherwise what stands before the last comma in it. -/
def withoutDayName : List Text → List Text
  | [] => []
  | first :: rest =>
      if first.getLast? = some ',' || dayNames.contains (Text.lowerPlain first) then rest
      else (first.reverse.takeWhile (· != ',')).reverse :: rest

/-- A word cut before its first plus sign, or else before its first minus
sign, unless it begins there. -/
def cutZone? (word : Text) : Option (Text × Text) :=
  let sign := if word.contains '+' then '+' else '-'
  let start := word.takeWhile (· != sign)
  if start.isEmpty || start.length = word.length then none
  else some (start, word.drop start.length)

/-- Five words out of three to five or more, if they can be had. -/
def fiveWords? (words : List Text) : Option (Text × Text × Text × Text × Text) :=
  let words := match words with
    | [date, time, zone] =>
        match Text.splitOn '-' date with
        | [day, month, year] => [day, month, year, time, zone]
        | _ => words
    | _ => words
  match words with
  | [a, b, c, last] =>
      match cutZone? last with
      | some (time, zone) => some (a, b, c, time, zone)
      | none => some (a, b, c, last, [])
  | a :: b :: c :: d :: e :: _ => some (a, b, c, d, e)
  | _ => none

/-- The word without a comma at its end. -/
def withoutComma (word : Text) : Text :=
  if word.getLast? = some ',' then word.dropLast else word

/-- The words for hour, minute and second. -/
def clockWords? (time : Text) : Option (Text × Text × Text) :=
  match Text.splitOn ':' time with
  | [h, m] => some (h, m, "0")
  | [h, m, s] => some (h, m, s)
  | [whole] =>
      match Text.splitOn '.' whole with
      | [h, m] => some (h, m, "0")
      | [h, m, s] => some (h, m, s)
      | _ => none
  | _ => none

-- ============================================================= numbers

/-- The numbers a date is made of. -/
structure Numbers where
  year : Int
  month : Nat
  day : Int
  hour : Int
  minute : Int
  second : Int
  /-- The offset in seconds. -/
  offset : Option Int
deriving Repr, DecidableEq

/-- A year in full: two digits are meant for the years from 1969 to 2068. -/
def fullYear (year : Int) : Int :=
  if year < 100 then (if 68 < year then year + 1900 else year + 2000) else year

/-- The seconds that hours and minutes written as one number make. -/
def zoneSeconds (zone : Int) : Int :=
  let size : Int := zone.natAbs / 100 * 3600 + zone.natAbs % 100 * 60
  if zone < 0 then -size else size

/-- The offset that a zone means. -/
def zoneOffset? (zone : Text) : Option Int :=
  let name := zone.flatMap capital
  match zones.find? fun entry => entry.1.toList == name with
  | some (_, hours) => some (zoneSeconds hours)
  | none =>
      match Text.integer? name with
      | some 0 => if name.head? = some '-' then none else some 0
      | some hours => some (zoneSeconds hours)
      | none => none

/-- The numbers in a date. -/
def numbers? (t : Text) : Option Numbers := do
  let (day, month, year, time, zone) ← fiveWords? (withoutDayName (Text.words t))
  if day.isEmpty || month.isEmpty || year.isEmpty then none
  let (day, month) ← match month? month with
    | some m => some (day, m)
    | none => (month? day).map fun m => (month, m)
  let day := withoutComma day
  let (year, time) :=
    if (year.drop 1).contains ':' && year.head? != some ':' then (time, year) else (year, time)
  let year := withoutComma year
  let first ← year.head?
  let (year, zone) := if Text.isDigitLike first then (year, zone) else (zone, year)
  let (hour, minute, second) ← clockWords? (withoutComma time)
  let year ← Text.integer? year
  let day ← Text.integer? day
  let hour ← Text.integer? hour
  let minute ← Text.integer? minute
  let second ← Text.integer? second
  return ⟨fullYear year, month, day, hour, minute, second, zoneOffset? zone⟩

-- ============================================================== moments

/-- Checks that an offset is one: less than a day in either direction.
`false` if it is not; an overflow if it is no duration at all. -/
def fitsOffset (seconds : Int) : Except Overflow Bool :=
  let days := seconds / 86400
  if days < -Number.shortEnd || Number.shortEnd ≤ days then .error .int
  else if days < -999999999 || 999999999 < days then .error (.days days)
  else .ok (decide (seconds.natAbs < 86400))

/-- Checks that numbers fit the machine, from left to right. -/
def fitMachine : List Int → Except Overflow Unit
  | [] => .ok ()
  | n :: rest =>
      if n < -Number.longEnd || Number.longEnd ≤ n then .error .long
      else if Number.shortEnd ≤ n then .error .high
      else if n < -Number.shortEnd then .error .low
      else fitMachine rest

/-- A number from 0 on. -/
def natural? : Int → Option Nat
  | .ofNat n => some n
  | .negSucc _ => none

/-- The moment that numbers name, if there is one. -/
def Numbers.moment? (n : Numbers) : Option Moment := do
  let date ← Date.ofParts? (← natural? n.year) n.month (← natural? n.day)
  Moment.ofClock? date (← natural? n.hour) (← natural? n.minute) (← natural? n.second) 0 n.offset

/-- Reads a date; `none` if it is no date of this form. -/
def read (t : Text) : Except Overflow (Option Moment) := do
  match numbers? t with
  | none => return none
  | some n =>
      let fits ← match n.offset with
        | some seconds => fitsOffset seconds
        | none => pure true
      if !fits then return none
      fitMachine [n.year, n.month, n.day, n.hour, n.minute, n.second]
      return n.moment?

end MailDate

end FeedSieve.Calendar
