/-
Reading dates and moments in the interchange form.

A date is four digits, two and two, with hyphens between. A moment is a
date, a separator, hours and minutes, perhaps seconds with a fraction, and
perhaps `Z` or an offset. Only the plain digits count. A fraction may have
any number of digits; those beyond the sixth are passed over.

Reading is from left to right and the first thing out of order is reported.
-/
import FeedSieve.Calendar.Moment
import FeedSieve.Text.Utf8

namespace FeedSieve.Calendar.Interchange

/-- What is out of order. -/
inductive Fault where
  | short
  | extra
  | year | month | day | dateMark
  | monthRange | dayRange
  | separator
  | hour | minute | second | timeMark
  | hourRange | minuteRange | secondRange
  | fraction
  | zoneSign | zoneHour | zoneMinute
  | zoneMinuteRange | zoneRange
deriving Repr, DecidableEq

/-- The wording of a fault. -/
def Fault.message : Fault → Text
  | short => "input is too short"
  | extra => "unexpected extra characters at the end of the input"
  | year => "invalid character in year"
  | month => "invalid character in month"
  | day => "invalid character in day"
  | dateMark => "invalid date separator, expected \u0060-\u0060"
  | monthRange => "month value is outside expected range of 1-12"
  | dayRange => "day value is outside expected range"
  | separator =>
      "invalid datetime separator, expected \u0060T\u0060, \u0060t\u0060, \u0060_\u0060 or space"
  | hour => "invalid character in hour"
  | minute => "invalid character in minute"
  | second => "invalid character in second"
  | timeMark => "invalid time separator, expected \u0060:\u0060"
  | hourRange => "hour value is outside expected range of 0-23"
  | minuteRange => "minute value is outside expected range of 0-59"
  | secondRange => "second value is outside expected range of 0-59"
  | fraction => "second fraction is missing"
  | zoneSign => "invalid timezone sign"
  | zoneHour => "invalid timezone hour"
  | zoneMinute => "invalid timezone minute"
  | zoneMinuteRange => "timezone minute value is outside expected range of 0-59"
  | zoneRange => "timezone offset must be less than 24 hours"

/-- Reads `count` digits, or reports `fault`. -/
def digits (fault : Fault) : (count value : Nat) → Text → Except Fault (Nat × Text)
  | 0, value, t => .ok (value, t)
  | _ + 1, _, [] => .error fault
  | count + 1, value, c :: rest =>
      match Text.plainDigit? c with
      | some d => digits fault count (10 * value + d) rest
      | none => .error fault

/-- Reads one character out of `allowed`, or reports `fault`. -/
def mark (fault : Fault) (allowed : Text) : Text → Except Fault Text
  | [] => .error fault
  | c :: rest => if allowed.contains c then .ok rest else .error fault

/-- Reads a date off the beginning of a text. -/
def dateStart (t : Text) : Except Fault (Date × Text) := do
  if Utf8.size t < 10 then throw .short
  let (year, t) ← digits .year 4 0 t
  let t ← mark .dateMark "-" t
  let (month, t) ← digits .month 2 0 t
  let t ← mark .dateMark "-" t
  let (day, t) ← digits .day 2 0 t
  if month < 1 || 12 < month then throw .monthRange
  match Date.ofParts? year month day with
  | some d => return (d, t)
  | none => throw .dayRange

/-- Reads a date. -/
def date (t : Text) : Except Fault Date := do
  match ← dateStart t with
  | (d, []) => return d
  | _ => throw .extra

/-- Reads the fraction of a second, in microseconds: `place` is what the
next digit is worth. -/
def fractionDigits (value place : Nat) : Text → Nat × Text
  | [] => (value, [])
  | c :: rest =>
      match Text.plainDigit? c with
      | some d => fractionDigits (value + d * place) (place / 10) rest
      | none => (value, c :: rest)

/-- Reads seconds and their fraction, which may be left out. -/
def seconds (t : Text) : Except Fault (Nat × Nat × Text) := do
  match t with
  | ':' :: rest =>
      let (second, rest) ← digits .second 2 0 rest
      if 59 < second then throw .secondRange
      match rest with
      | c :: d :: rest =>
          if c = '.' || c = ',' then
            if !Text.isPlainDigit d then throw .fraction
            let (micro, rest) := fractionDigits 0 100000 (d :: rest)
            return (second, micro, rest)
          else return (second, 0, c :: d :: rest)
      | rest => if rest = ['.'] || rest = [','] then throw .fraction else return (second, 0, rest)
  | t => return (0, 0, t)

/-- Reads what follows the time: nothing, `Z`, or an offset. -/
def zone : Text → Except Fault (Option Int)
  | [] => .ok none
  | c :: rest => do
      if c = 'Z' || c = 'z' then
        if rest.isEmpty then return some 0 else throw .extra
      else if c = '+' || c = '-' || c = '\u2212' then
        let (hours, rest) ← digits .zoneHour 2 0 rest
        let rest := if rest.head? = some ':' then rest.drop 1 else rest
        let (minutes, rest) ← digits .zoneMinute 2 0 rest
        if 59 < minutes then throw .zoneMinuteRange
        if 23 < hours then throw .zoneRange
        if !rest.isEmpty then throw .extra
        let ahead : Int := (hours * 60 + minutes) * 60
        return some (if c = '+' then ahead else -ahead)
      else throw .zoneSign

/-- Reads a moment. -/
def moment (t : Text) : Except Fault Moment := do
  let (day, t) ← dateStart t
  let t ← mark .separator "Tt _" t
  if Utf8.size t < 5 then throw .short
  let (hour, t) ← digits .hour 2 0 t
  let t ← mark .timeMark ":" t
  let (minute, t) ← digits .minute 2 0 t
  if 23 < hour then throw .hourRange
  if 59 < minute then throw .minuteRange
  let (second, micro, t) ← seconds t
  let offset ← zone t
  match Moment.ofClock? day hour minute second micro offset with
  | some m => return m
  | none => throw .hourRange

end FeedSieve.Calendar.Interchange
