/-
What is wrong with a query.

A malformed query is reported by the fragment that cannot be read and by
what was expected in its place. Besides, a numeral may have more digits
than are converted; that is found before anything is said about its form.
-/
import FeedSieve.Calendar.Date

namespace FeedSieve.Query

open Calendar (Date)

/-- What a query is about. -/
inductive Kind where
  | number | title | description | date | notexists | latest
deriving Repr, DecidableEq

namespace Kind

/-- Every kind, in the order in which they are listed to the user. -/
def every : List Kind := [number, title, description, date, notexists, latest]

/-- The word by which a query names its kind. -/
def name : Kind → Text
  | number => "number"
  | title => "title"
  | description => "description"
  | date => "date"
  | notexists => "notexists"
  | latest => "latest"

/-- The kind that a word names. -/
def ofName? (word : Text) : Option Kind := every.find? (·.name == word)

end Kind

/-- What was expected in place of a fragment. -/
inductive Expected where
  /-- The word for downloaded items, and nothing with it. -/
  | bareNotexists
  /-- A kind of query. -/
  | kind
  /-- The kind together with a value. -/
  | clause (kind : Kind)
  /-- The forms in which the most recent items are asked for. -/
  | latestForm
  /-- How many items, at least one. -/
  | count
  /-- A value behind the colon. -/
  | value (kind : Kind)
  /-- The opening brace of a set. -/
  | setOpening
  /-- The closing brace of a set. -/
  | setClosing
  /-- The end of the query behind a set. -/
  | setEnd
  /-- A set without sets in it. -/
  | flatSet
  /-- A set with elements. -/
  | inhabitedSet
  /-- Elements that are not empty. -/
  | elements
  /-- The closing bracket of a range. -/
  | rangeClosing
  /-- The opening bracket of a range. -/
  | rangeOpening
  /-- The end of the element behind a range. -/
  | rangeEnd
  /-- A number, or a range of numbers. -/
  | numberOrRange
  /-- A range of numbers. -/
  | numberRange
  | day
  /-- A range of days. -/
  | dayRange
  /-- A lower end. -/
  | lowerEnd
  /-- An upper end. -/
  | upperEnd
  /-- Numbers in order, which these are not. -/
  | orderedNumbers (lo hi : Nat)
  /-- Days in order, which these are not. -/
  | orderedDays (lo hi : Date)
deriving Repr, DecidableEq

/-- The wording of what was expected. -/
def Expected.text : Expected → Text
  | bareNotexists => "'notexists' without an argument"
  | kind => Text.concat ["a query kind, one of ", Text.joinWith ", " (Kind.every.map Kind.name)]
  | clause k => Text.concat ["'", k.name, ":<value>'"]
  | latestForm => "'latest' or 'latest:<N>'"
  | count => "a positive integer count"
  | value k => Text.concat ["a value after '", k.name, ":'"]
  | setOpening => "a set opened with '\x7b'"
  | setClosing => "a set closed with '\x7d'"
  | setEnd => "nothing after the closing '\x7d'"
  | flatSet => "a flat set, sets cannot be nested"
  | inhabitedSet => "a set with at least one element"
  | elements => "comma-separated elements, none of them empty"
  | rangeClosing => "a range closed with ']'"
  | rangeOpening => "a range opened with '['"
  | rangeEnd => "nothing after the closing ']'"
  | numberOrRange => "a non-negative integer or a range like [A-B]"
  | numberRange => "a range like [A-B]"
  | day => "a date formatted as YYYY-MM-DD"
  | dayRange => "a date range like [YYYY-MM-DD:YYYY-MM-DD]"
  | lowerEnd => "a range start before the delimiter"
  | upperEnd => "a range end after the delimiter"
  | orderedNumbers lo hi =>
      Text.concat ["a range whose start (", Text.ofNat lo, ") is not greater than its end (",
        Text.ofNat hi, ")"]
  | orderedDays lo hi =>
      Text.concat ["a range whose start (", lo.iso, ") is not after its end (", hi.iso, ")"]

/-- A fragment that cannot be read, and what was expected instead. -/
structure Malformed where
  /-- The fragment, taken from the query. -/
  fragment : Text
  /-- What should have stood there. -/
  expected : Expected
deriving Repr, DecidableEq

/-- The message about a malformed query. -/
def Malformed.message (m : Malformed) : Text :=
  Text.concat ["invalid query fragment '", m.fragment, "': expected ", m.expected.text]

/-- Why a query is refused. -/
inductive Refusal where
  /-- It is malformed. -/
  | malformed (what : Malformed)
  /-- A numeral in it has too many digits. -/
  | tooLong (digits : Nat)
deriving Repr, DecidableEq

/-- Refuses a fragment. -/
def refuse {α : Type} (fragment : Text) (expected : Expected) : Except Refusal α :=
  .error (.malformed ⟨fragment, expected⟩)

end FeedSieve.Query
