/-
Checking values against what is asked of them.

A check either accepts a value or lists everything that is wrong with it,
each fault with the place where it is: names of fields and positions in
lists, from the outside in. Checks of several fields are put together so
that the faults of all of them are reported, in the order of the fields.
-/
import FeedSieve.Text.Basic

namespace FeedSieve.Lax

/-- What can be wrong with a value. -/
inductive Flaw where
  | missing
  | intType
  | intParsing
  | intParsingSize
  | intFromFloat
  | finiteNumber
  | floatType
  | floatParsing
  | stringType
  | stringUnicode
  | listType
  | tupleType
  | modelType (model : Text)
  | atLeast (bound : Int)
  | atMost (bound : Int)
  | above (bound : Int)
  | tooShort (bound : Nat) (size : Nat)
  | tooLong (bound : Nat) (size : Nat)
  | datetimeType
  | datetimeText (why : Text)
  | dateType
  | dateText (why : Text)
  | dateInexact
  /-- The value as a whole breaks a rule, given by its wording. -/
  | rule (why : Text)
deriving Repr, DecidableEq

namespace Flaw

/-- The name of the flaw. -/
def code : Flaw → Text
  | missing => "missing"
  | intType => "int_type"
  | intParsing => "int_parsing"
  | intParsingSize => "int_parsing_size"
  | intFromFloat => "int_from_float"
  | finiteNumber => "finite_number"
  | floatType => "float_type"
  | floatParsing => "float_parsing"
  | stringType => "string_type"
  | stringUnicode => "string_unicode"
  | listType => "list_type"
  | tupleType => "tuple_type"
  | modelType _ => "model_type"
  | atLeast _ => "greater_than_equal"
  | atMost _ => "less_than_equal"
  | above _ => "greater_than"
  | tooShort .. => "too_short"
  | tooLong .. => "too_long"
  | datetimeType => "datetime_type"
  | datetimeText _ => "datetime_from_date_parsing"
  | dateType => "date_type"
  | dateText _ => "date_from_datetime_parsing"
  | dateInexact => "date_from_datetime_inexact"
  | rule _ => "value_error"

/-- How many items, in words. -/
def items (n : Nat) : Text := Text.ofNat n ++ (if n = 1 then " item" else " items")

/-- The wording of the flaw. -/
def message : Flaw → Text
  | missing => "Field required"
  | intType => "Input should be a valid integer"
  | intParsing => "Input should be a valid integer, unable to parse string as an integer"
  | intParsingSize => "Unable to parse input string as an integer, exceeded maximum size"
  | intFromFloat => "Input should be a valid integer, got a number with a fractional part"
  | finiteNumber => "Input should be a finite number"
  | floatType => "Input should be a valid number"
  | floatParsing => "Input should be a valid number, unable to parse string as a number"
  | stringType => "Input should be a valid string"
  | stringUnicode =>
      "Input should be a valid string, unable to parse raw data as a unicode string"
  | listType => "Input should be a valid list"
  | tupleType => "Input should be a valid tuple"
  | modelType model =>
      Text.concat ["Input should be a valid dictionary or instance of ", model]
  | atLeast bound =>
      Text.concat ["Input should be greater than or equal to ", Text.ofInt bound]
  | atMost bound => Text.concat ["Input should be less than or equal to ", Text.ofInt bound]
  | above bound => Text.concat ["Input should be greater than ", Text.ofInt bound]
  | tooShort bound size => Text.concat
      ["Tuple should have at least ", items bound, " after validation, not ", Text.ofNat size]
  | tooLong bound size => Text.concat
      ["Tuple should have at most ", items bound, " after validation, not ", Text.ofNat size]
  | datetimeType => "Input should be a valid datetime"
  | datetimeText why => Text.concat ["Input should be a valid datetime or date, ", why]
  | dateType => "Input should be a valid date"
  | dateText why => Text.concat ["Input should be a valid date or datetime, ", why]
  | dateInexact => "Datetimes provided to dates should have zero time - e.g. be exact dates"
  | rule why => Text.concat ["Value error, ", why]

end Flaw

/-- A flaw and its place. -/
structure Fault where
  /-- Where it is, from the outside in. -/
  location : List Text
  /-- What it is. -/
  flaw : Flaw
deriving Repr, DecidableEq

/-- The place as one text. -/
def Fault.place (f : Fault) : Text := Text.joinWith "." f.location

/-- An accepted value, or what is wrong with it. -/
inductive Checked (α : Type) where
  | good (a : α)
  | bad (faults : List Fault)
deriving Repr, DecidableEq

namespace Checked

variable {α β : Type}

/-- Both checks; the faults of the first come first. -/
instance : Applicative Checked where
  pure a := .good a
  seq f x := match f, x () with
    | .good f, .good a => .good (f a)
    | .good _, .bad faults => .bad faults
    | .bad faults, .good _ => .bad faults
    | .bad faults, .bad more => .bad (faults ++ more)

/-- A single flaw of the value itself. -/
def flawed (flaw : Flaw) : Checked α := .bad [⟨[], flaw⟩]

/-- A check that looks at what another accepted. -/
def andThen (x : Checked α) (next : α → Checked β) : Checked β :=
  match x with
  | .good a => next a
  | .bad faults => .bad faults

/-- The check of a part: its faults are placed within that part. -/
def within (part : Text) : Checked α → Checked α
  | .good a => .good a
  | .bad faults => .bad (faults.map fun f => ⟨part :: f.location, f.flaw⟩)

/-- The checks of all members, from a position on. -/
def all (check : β → Checked α) (position : Nat) : List β → Checked (List α)
  | [] => .good []
  | b :: rest =>
      (fun a more => a :: more) <$> (check b).within (Text.ofNat position) <*>
        all check (position + 1) rest

/-- The outcome for those who want only one. -/
def toExcept : Checked α → Except (List Fault) α
  | .good a => .ok a
  | .bad faults => .error faults

end Checked

end FeedSieve.Lax
