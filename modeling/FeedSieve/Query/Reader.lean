/-
Reading queries.

A query is one clause, `kind:body`, or one of the words `notexists` and
`latest`, or nothing at all. The body is one element, or a set of elements
between braces with commas between them. What an element is depends on the
kind: a number or a range of numbers, a day or a range of days, a phrase.
White space is free around every part.

Elements are read from left to right, and the first that cannot be read
decides what is reported. What was read is then brought into one form:
ranges of numbers that touch or overlap are joined, single numbers and days
inside a range are dropped, everything is put in order and said once.
-/
import FeedSieve.Ordered
import FeedSieve.Text.Blank
import FeedSieve.Text.Digits
import FeedSieve.Query.Predicate
import FeedSieve.Query.Error

namespace FeedSieve.Query

open Calendar (Date)

-- =========================================================== elements

/-- The trimmed elements of a clause body. -/
def elementsOf (kind : Kind) (body : Text) : Except Refusal (List Text) :=
  match Text.trim body with
  | [] => refuse (kind.name ++ [':']) (.value kind)
  | '{' :: rest =>
      let body := '{' :: rest
      match Text.cut '}' rest with
      | (_, none) => refuse body .setClosing
      | (inner, some after) =>
          if !(Text.trim after).isEmpty then refuse (Text.trim after) .setEnd
          else if inner.contains '{' then refuse body .flatSet
          else if (Text.trim inner).isEmpty then refuse body .inhabitedSet
          else
            let elements := (Text.splitOn ',' inner).map Text.trim
            if elements.any List.isEmpty then refuse body .elements else .ok elements
  | body => if Text.endsWith "\x7d" body then refuse body .setOpening else .ok [body]

/-- What stands between the brackets of an element; `none` for an element
without brackets. `form` is what a range should look like. -/
def bracketed (element : Text) (form : Expected) : Except Refusal (Option Text) :=
  match element with
  | '[' :: rest =>
      match Text.cut ']' rest with
      | (_, none) => refuse element .rangeClosing
      | (inner, some after) =>
          if !(Text.trim after).isEmpty then refuse (Text.trim after) .rangeEnd
          else if inner.contains '[' then refuse element form
          else .ok (some inner)
  | _ => if element.contains ']' then refuse element .rangeOpening else .ok none

/-- The number spelled by a run of digits. -/
def numeral (digits : Text) : Except Refusal Nat :=
  if Text.maxDigits < digits.length then .error (.tooLong digits.length)
  else .ok (Text.digitsValue digits)

/-- An element: one member, or a range of them. -/
inductive Element (α : Type) where
  | single (x : α)
  | range (s : Span α)
deriving Repr, DecidableEq

-- ============================================================ numbers

/-- The ends of a range of numbers: two runs of digits, each possibly empty,
with `-` or `:` between them. -/
def numberEnds? (inner : Text) : Option (Text × Text) :=
  let inner := Text.trim inner
  let lower := inner.takeWhile Text.isDigit
  match (inner.dropWhile Text.isDigit).dropWhile Text.isBlank with
  | delimiter :: rest =>
      let upper := rest.dropWhile Text.isBlank
      if (delimiter = '-' || delimiter = ':') && upper.all Text.isDigit then some (lower, upper)
      else none
  | [] => none

/-- Reads a number or a range of numbers. -/
def numberElement (element : Text) : Except Refusal (Element Nat) := do
  match ← bracketed element .numberRange with
  | none =>
      if element.isEmpty || !element.all Text.isDigit then refuse element .numberOrRange
      else .single <$> numeral element
  | some inner =>
      match numberEnds? inner with
      | none => refuse element .numberRange
      | some (lower, upper) =>
          if lower.isEmpty then refuse element .lowerEnd
          else if upper.isEmpty then refuse element .upperEnd
          else
            let lo ← numeral lower
            let hi ← numeral upper
            if hi < lo then refuse element (.orderedNumbers lo hi)
            else if lo = hi then return .single lo
            else return .range ⟨lo, hi⟩

/-- Joins each range with the next as long as no number lies between them. -/
def joinRanges : List (Span Nat) → List (Span Nat)
  | [] => []
  | s :: rest => go s rest
where
  /-- `current` is the range that may still grow. -/
  go (current : Span Nat) : List (Span Nat) → List (Span Nat)
    | [] => [current]
    | s :: rest =>
        if s.lo ≤ current.hi + 1 then go ⟨current.lo, max current.hi s.hi⟩ rest
        else current :: go s rest

/-- The single members and the ranges among elements. -/
def separate {α : Type} : List (Element α) → List α × List (Span α)
  | [] => ([], [])
  | .single x :: rest => let (xs, ss) := separate rest; (x :: xs, ss)
  | .range s :: rest => let (xs, ss) := separate rest; (xs, s :: ss)

/-- The set of numbers that elements describe, in its one form. -/
def numberSet (elements : List (Element Nat)) : NumberSet :=
  let (singles, spans) := separate elements
  let ranges := joinRanges (Ordered.ofList (Span.before (· < ·)) spans)
  let covered (n : Nat) := ranges.any (·.contains (fun a b => decide (a ≤ b)) n)
  let scalars := Ordered.ofList (fun a b => decide (a < b)) (singles.filter (!covered ·))
  ⟨ranges.map fun s => ⟨s.lo, s.hi⟩, scalars.map Int.ofNat⟩

-- =============================================================== days

/-- The day of the month in a date: two digits, or one plain digit or a
space with perhaps one digit behind it. -/
def dayOfMonth? : Text → Option Nat
  | [c] => if Text.isPlainDigit c then Text.digit? c else none
  | [c, d] =>
      if c = ' ' then Text.digit? d
      else if Text.isDigit c && Text.isDigit d then some (Text.digitsValue [c, d]) else none
  | _ => none

/-- The day that a year of up to four digits, a month of up to two and a day
name, with hyphens between them. -/
def day? (t : Text) : Option Date :=
  match Text.splitOn '-' t with
  | [year, month, day] =>
      if 1 ≤ year.length && year.length ≤ 4 && year.all Text.isDigit &&
          1 ≤ month.length && month.length ≤ 2 && month.all Text.isDigit then do
        Date.ofParts? (Text.digitsValue year) (Text.digitsValue month) (← dayOfMonth? day)
      else none
  | _ => none

/-- The ends of a range of days: two texts with one colon between them. -/
def dateEnds? (inner : Text) : Option (Text × Text) :=
  match Text.splitOn ':' inner with
  | [lower, upper] => some (Text.trim lower, Text.trim upper)
  | _ => none

/-- Reads a day written within an element. -/
def dayIn (element t : Text) : Except Refusal Date :=
  match day? t with
  | some d => .ok d
  | none => refuse element .day

/-- Reads a day or a range of days. -/
def dateElement (element : Text) : Except Refusal (Element Date) := do
  match ← bracketed element .dayRange with
  | none => .single <$> dayIn element element
  | some inner =>
      match dateEnds? inner with
      | none => refuse element .dayRange
      | some (lower, upper) =>
          if lower.isEmpty then refuse element .lowerEnd
          else if upper.isEmpty then refuse element .upperEnd
          else
            let lo ← dayIn element lower
            let hi ← dayIn element upper
            if hi.before lo then refuse element (.orderedDays lo hi)
            else if lo = hi then return .single lo
            else return .range ⟨lo, hi⟩

/-- The set of days that elements describe: ranges in order, and the days
in none of them. -/
def dateSet (elements : List (Element Date)) : DateSet :=
  let (singles, spans) := separate elements
  let ranges := Ordered.ofList (Span.before Date.before) spans
  let covered (d : Date) := ranges.any (·.contains Date.upTo d)
  ⟨ranges, Ordered.ofList Date.before (singles.filter (!covered ·))⟩

-- ============================================================ clauses

/-- The set of phrases, in order. -/
def keywordSet (elements : List Text) : List Text := Ordered.ofList Text.before elements

/-- Reads how many of the most recent items are asked for. -/
def latestClause (text : Text) : Option Text → Except Refusal Predicate
  | none => .ok (.latest 1)
  | some body => do
      let count := Text.trim body
      if count.isEmpty then refuse text .latestForm
      else if !count.all Text.isDigit then refuse count .count
      else
        let n ← numeral count
        if n < 1 then refuse count .count else return .latest n

/-- Reads a query. -/
def read (query : Text) : Except Refusal Predicate := do
  let text := Text.trim query
  if text.isEmpty then return .all
  let (start, body) := Text.cut ':' text
  match Kind.ofName? (Text.trim start) with
  | none => refuse (Text.trim start) .kind
  | some .notexists => if body.isSome then refuse text .bareNotexists else return .notexists
  | some .latest => latestClause text body
  | some kind =>
      match body with
      | none => refuse text (.clause kind)
      | some body =>
          let elements ← elementsOf kind body
          match kind with
          | .number => (fun es => .number (numberSet es)) <$> elements.mapM numberElement
          | .date => (fun es => .date (dateSet es)) <$> elements.mapM dateElement
          | .title => return .title (keywordSet elements)
          | _ => return .description (keywordSet elements)

end FeedSieve.Query
