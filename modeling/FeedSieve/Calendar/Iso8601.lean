/-
Dates in the forms of ISO 8601.

A date names a day by month and day, by the day of the year, or by week and
day of the week, with hyphens (the extended form) or without (the basic
form). A time may follow behind `T` or a space, down to fractions of a
second, and behind it a zone. Date and time are both extended or both
basic. What is left out is the first: the first day, the full hour, and
UTC for the zone.

Besides these, a looser form is read: a year of four digits, a month and a
day with slashes, colons or nothing between them, and a time with colons
behind it, of which the minutes may not be missing.
-/
import FeedSieve.Calendar.Moment
import FeedSieve.Text.Digits

namespace FeedSieve.Calendar.Iso8601

-- ============================================================== dates

/-- Reads `count` plain digits off the beginning of a text. -/
def plain? : (count value : Nat) → Text → Option (Nat × Text)
  | 0, value, t => some (value, t)
  | _ + 1, _, [] => none
  | count + 1, value, c :: rest =>
      (Text.plainDigit? c).bind fun d => plain? count (10 * value + d) rest

/-- Whether a text begins with a plain digit. -/
def opensDigit (t : Text) : Bool := (t.head?.map Text.isPlainDigit).getD false

/-- The day with a number within its year. -/
def ofOrdinal? (year day : Nat) : Option Date :=
  if 1 ≤ year && year ≤ lastYear && 1 ≤ day && day ≤ yearLength year then
    Date.ofNumber? (daysBeforeYear year + day)
  else none

/-- The number of the Monday of the first week of a year, which is the week
with the fourth of January. -/
def firstMonday (year : Nat) : Int :=
  let fourth : Int := daysBeforeYear year + 4
  fourth - (fourth + 6) % 7

/-- Whether a year has fifty-three weeks. -/
def isLong (year : Nat) : Bool :=
  firstMonday (year + 1) - firstMonday year == 371

/-- The day with a week and a day of that week within its year. Week 0 and
day 0 are the ones before the first. -/
def ofWeek? (year week day : Nat) : Option Date :=
  if 53 < week || (week = 53 && !isLong year) || 7 < day || year < 1 || lastYear < year then none
  else
    let number := firstMonday year + ((week : Int) - 1) * 7 + ((day : Int) - 1)
    if number < 1 then none else Date.ofNumber? number.toNat

/-- A date read off the beginning of a text. -/
structure Start where
  /-- The day. -/
  date : Date
  /-- Whether it was written in the extended form. -/
  extended : Bool
  /-- What follows it. -/
  rest : Text

/-- Whether a date ends here. -/
def endsDate (t : Text) : Bool :=
  match t with
  | [] => true
  | c :: _ => c = 'T' || c = ' '

/-- Reads week and day behind `W`. -/
def weekStart? (year : Nat) (extended : Bool) (t : Text) : Option Start := do
  let (week, t) ← plain? 2 0 t
  if endsDate t then return ⟨← ofWeek? year week 1, extended, t⟩
  let t ← match extended, t with
    | true, '-' :: rest => some rest
    | true, _ => none
    | false, t => some t
  let (day, t) ← plain? 1 0 t
  return ⟨← ofWeek? year week day, extended, t⟩

/-- Reads a date off the beginning of a text. -/
def dateStart? (t : Text) : Option Start := do
  let (year, t) ← plain? 4 0 t
  match t with
  | [] => return ⟨← Date.ofParts? year 1 1, true, []⟩
  | '-' :: 'W' :: rest => weekStart? year true rest
  | 'W' :: rest => weekStart? year false rest
  | '-' :: rest =>
      let (month, t) ← plain? 2 0 rest
      match t with
      | '-' :: rest =>
          let (day, t) ← plain? 2 0 rest
          return ⟨← Date.ofParts? year month day, true, t⟩
      | t =>
          if endsDate t then return ⟨← Date.ofParts? year month 1, true, t⟩
          let (last, t) ← plain? 1 0 t
          return ⟨← ofOrdinal? year (month * 10 + last), true, t⟩
  | t =>
      let (month, t) ← plain? 2 0 t
      let (tens, t) ← plain? 1 0 t
      if endsDate t then return ⟨← ofOrdinal? year (month * 10 + tens), false, t⟩
      let (ones, t) ← plain? 1 0 t
      return ⟨← Date.ofParts? year month (tens * 10 + ones), false, t⟩

-- ============================================================== times

/-- A time read off the beginning of a text. -/
structure Clock where
  hour : Nat
  minute : Nat
  second : Nat
  micro : Nat
  /-- Whether colons separate it; nothing tells for hours alone. -/
  extended : Option Bool
  /-- What follows it. -/
  rest : Text

/-- The microseconds that the digits of a fraction make; those beyond the
sixth do not count. -/
def microseconds (digits : Text) : Nat :=
  Text.digitsValue ((digits ++ List.replicate 6 '0').take 6)

/-- Reads the fraction of a second, if there is one. -/
def fraction? (t : Text) : Option (Nat × Text) :=
  match t with
  | c :: rest =>
      if c = '.' || c = ',' then
        let digits := rest.takeWhile Text.isPlainDigit
        if digits.isEmpty then none else some (microseconds digits, rest.drop digits.length)
      else some (0, t)
  | [] => some (0, [])

/-- Reads a time off the beginning of a text. -/
def clock? (t : Text) : Option Clock := do
  let (hour, t) ← plain? 2 0 t
  match t with
  | ':' :: rest =>
      let (minute, t) ← plain? 2 0 rest
      match t with
      | ':' :: rest =>
          let (second, t) ← plain? 2 0 rest
          let (micro, t) ← fraction? t
          return ⟨hour, minute, second, micro, some true, t⟩
      | t => return ⟨hour, minute, 0, 0, some true, t⟩
  | t =>
      if !opensDigit t then return ⟨hour, 0, 0, 0, none, t⟩
      let (minute, t) ← plain? 2 0 t
      if !opensDigit t then return ⟨hour, minute, 0, 0, some false, t⟩
      let (second, t) ← plain? 2 0 t
      let (micro, t) ← fraction? t
      return ⟨hour, minute, second, micro, some false, t⟩

/-- Reads the zone at the end of a text: the seconds ahead of UTC. -/
def zone? (t : Text) : Option Int :=
  match t with
  | [] => some 0
  | ['Z'] => some 0
  | c :: rest =>
      if c != '+' && c != '-' then none
      else do
        let (hours, t) ← plain? 2 0 rest
        let t := if t.head? = some ':' then t.drop 1 else t
        let minutes ← match t with
          | [] => if rest.length = 2 then some 0 else none
          | t => match plain? 2 0 t with
              | some (minutes, []) => some minutes
              | _ => none
        let size : Int := (hours * 60 + minutes) * 60
        return if c = '-' then -size else size

/-- Reads a moment in one of the standard forms. -/
def standard? (t : Text) : Option Moment := do
  let start ← dateStart? t
  match start.rest with
  | [] => return Moment.midnight start.date (some 0)
  | c :: rest =>
      if c != 'T' && c != ' ' then none
      else
        let clock ← clock? rest
        if clock.extended.isSome && clock.extended != some start.extended then none
        else
          let offset ← zone? clock.rest
          Moment.ofClock? start.date clock.hour clock.minute clock.second clock.micro (some offset)

-- ======================================================== looser form

/-- Reads up to `count` digits of any script, at least one. -/
def upTo? (count : Nat) (t : Text) : Option (Nat × Text) :=
  let digits := (t.take count).takeWhile Text.isDigit
  if digits.isEmpty then none else some (Text.digitsValue digits, t.drop digits.length)

/-- Reads exactly `count` digits of any script. -/
def exactly? (count : Nat) (t : Text) : Option (Nat × Text) :=
  let digits := t.take count
  if digits.length = count && digits.all Text.isDigit then
    some (Text.digitsValue digits, t.drop count)
  else none

/-- The text without a slash or colon at its beginning. -/
def withoutMark : Text → Text
  | c :: rest => if c = '/' || c = ':' then rest else c :: rest
  | [] => []

/-- Whether a text is at its end, but for one line end. -/
def isDone (t : Text) : Bool := t.isEmpty || t == ['\n']

/-- What the looser form makes of the time. -/
inductive LooseTime where
  /-- There is no time. -/
  | none
  /-- A time. -/
  | clock (hour minute second micro : Nat)
  /-- A time without minutes. -/
  | noMinute
deriving Repr, DecidableEq

/-- Reads the minutes of the looser form, which may be missing. -/
def looseMinute (t : Text) : Option Nat × Text :=
  match upTo? 2 t with
  | some (minute, rest) => (some minute, rest)
  | Option.none => (Option.none, t)

/-- Reads the seconds of the looser form with the colon before them, if they
are there. -/
def looseSecond (t : Text) : Nat × Text :=
  match t with
  | ':' :: rest => (upTo? 2 rest).getD (0, t)
  | t => (0, t)

/-- Reads the fraction of a second of the looser form, if it is there. -/
def looseFraction (t : Text) : Nat × Text :=
  match t with
  | c :: rest =>
      let digits := (rest.take 9).takeWhile Text.isDigit
      if (c = '.' || c = ',' || c = '|') && !digits.isEmpty then
        (microseconds digits, rest.drop digits.length)
      else (0, t)
  | [] => (0, t)

/-- Reads the time of the looser form, to the end of the text. -/
def looseTime? (t : Text) : Option LooseTime := do
  if isDone t then return .none
  let t := if t.head? = some ' ' then t.drop 1 else t
  let (hour, t) ← upTo? 2 t
  let t ← match t with
    | ':' :: rest => some rest
    | _ => Option.none
  let (minute, t) := looseMinute t
  let (second, t) := looseSecond t
  let (micro, t) := looseFraction t
  if !isDone t then Option.none
  match minute with
  | some minute => return .clock hour minute second micro
  | Option.none => return .noMinute

/-- The outcome of reading the looser form. -/
inductive Loose where
  | moment (m : Moment)
  /-- Nothing that is a moment. -/
  | nothing
  /-- A time whose minutes are missing. -/
  | noMinute
deriving Repr, DecidableEq

/-- The moment of a day and a time of the looser form. -/
def looseMoment (date : Option Date) : LooseTime → Loose
  | .noMinute => .noMinute
  | .none =>
      match date with
      | some d => .moment (Moment.midnight d (some 0))
      | Option.none => .nothing
  | .clock hour minute second micro =>
      match date.bind (Moment.ofClock? · hour minute second micro (some 0)) with
      | some m => .moment m
      | Option.none => .nothing

/-- Reads the looser form with month and day. -/
def looseDay? (t : Text) : Option Loose := do
  let (year, t) ← exactly? 4 t
  let (month, t) ← exactly? 2 (withoutMark t)
  let (day, t) ← exactly? 2 (withoutMark t)
  return looseMoment (Date.ofParts? year month day) (← looseTime? t)

/-- Reads the looser form with a year alone. -/
def looseYear? (t : Text) : Option Loose := do
  let (year, t) ← exactly? 4 t
  return looseMoment (Date.ofParts? year 1 1) (← looseTime? t)

/-- Reads the looser form without a day. -/
def looseClock? (t : Text) : Option Loose := do
  return looseMoment Option.none (← looseTime? t)

/-- Reads the looser form: with month and day if they are there and a time
can follow them, else with the year alone, else as a time without a day. -/
def loose (t : Text) : Loose :=
  (((looseDay? t).orElse fun _ => looseYear? t).orElse fun _ => looseClock? t).getD .nothing

end FeedSieve.Calendar.Iso8601
