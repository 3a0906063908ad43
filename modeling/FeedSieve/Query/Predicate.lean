/-
Predicates: what a query asks of the items of a feed.

Item numbers and days are described by sets made of ranges and single
members. What a set contains does not depend on how it was written, and the
reader of queries brings every set into one form, but a set need not be in
that form to have a meaning.
-/
import FeedSieve.Span
import FeedSieve.Calendar.Date

namespace FeedSieve.Query

open Calendar (Date)

/-- A set of item numbers. -/
structure NumberSet where
  /-- Ranges of numbers, ends included. -/
  ranges : List (Span Int)
  /-- Single numbers. -/
  scalars : List Int
deriving Repr, DecidableEq

/-- Whether a number is in the set. -/
def NumberSet.contains (s : NumberSet) (n : Int) : Bool :=
  s.scalars.contains n || s.ranges.any (·.contains (fun a b => decide (a ≤ b)) n)

/-- A set of days. -/
structure DateSet where
  /-- Ranges of days, ends included. -/
  ranges : List (Span Date)
  /-- Single days. -/
  dates : List Date
deriving Repr, DecidableEq

/-- Whether a day is in the set. -/
def DateSet.contains (s : DateSet) (d : Date) : Bool :=
  s.dates.contains d || s.ranges.any (·.contains Date.upTo d)

/-- What is asked of the items. -/
inductive Predicate where
  /-- Nothing: every item matches. -/
  | all
  /-- The number of the item is in the set. -/
  | number (set : NumberSet)
  /-- The title contains one of the phrases, whatever their case. -/
  | title (keywords : List Text)
  /-- The description contains one of the phrases, whatever their case. -/
  | description (keywords : List Text)
  /-- The item was published on a day of the set. -/
  | date (set : DateSet)
  /-- The file of the item is not there yet. -/
  | notexists
  /-- The item is among the `n` most recent ones. -/
  | latest (n : Nat)
deriving Repr, DecidableEq

/-- The word for what is asked. -/
def Predicate.name : Predicate → Text
  | all => "all"
  | number _ => "number"
  | title _ => "title"
  | description _ => "description"
  | date _ => "date"
  | notexists => "notexists"
  | latest _ => "latest"

end FeedSieve.Query
