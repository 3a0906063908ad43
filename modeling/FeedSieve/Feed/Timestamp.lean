/-
The moment that a date in a feed means.

A date is read as a mail date first and then as one of the forms of ISO
8601. A text that is neither means nothing, which costs the feed no more
than that date. There are texts, though, on which reading breaks off:
numbers out of all bounds, an interval with an end left empty, a time
without its minutes, an offset of a day or more.
-/
import FeedSieve.Calendar.MailDate
import FeedSieve.Calendar.Iso8601

namespace FeedSieve.Feed

open Calendar (Moment)

/-- Why reading a date breaks off. -/
inductive DateBreak where
  /-- A number out of all bounds. -/
  | overflow (what : Calendar.Overflow)
  /-- An interval with an end left empty. -/
  | emptyEnd
  /-- A time without its minutes. -/
  | noMinute
  /-- An offset of a day or more. -/
  | offset
deriving Repr, DecidableEq

/-- The wording. -/
def DateBreak.message : DateBreak → Text
  | overflow what => what.message
  | emptyEnd => "string index out of range"
  | noMinute =>
      "int() argument must be a string, a bytes-like object or a real number, not 'NoneType'"
  | offset =>
      "offset must be a timedelta strictly between -timedelta(hours=24) and timedelta(hours=24)."

/-- Whether a text is two ends with a slash between them, one of them empty
where a date or a duration is looked for. -/
def hasEmptyEnd (t : Text) : Bool :=
  match Text.splitOn '/' t with
  | [first, last] => first.isEmpty || (last.isEmpty && first.head? != some 'P')
  | _ => false

/-- Reads a date in one of the forms of ISO 8601. -/
def isoTimestamp (t : Text) : Except DateBreak (Option Moment) :=
  match Calendar.Iso8601.standard? t with
  | some m =>
      if (m.offset.getD 0).natAbs < 86400 then .ok (some m) else .error .offset
  | none =>
      if hasEmptyEnd t then .error .emptyEnd
      else match Calendar.Iso8601.loose t with
        | .moment m => .ok (some m)
        | .nothing => .ok none
        | .noMinute => .error .noMinute

/-- Reads a date; `none` if it means nothing. -/
def timestamp (t : Text) : Except DateBreak (Option Moment) :=
  match Calendar.MailDate.read t with
  | .error what => .error (.overflow what)
  | .ok (some m) => .ok (some m)
  | .ok none => isoTimestamp t

end FeedSieve.Feed
