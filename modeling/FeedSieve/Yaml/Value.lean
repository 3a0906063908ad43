/-
The values of a settings document.

A node stands for a value of the sort it is tagged with, and a node whose
form does not fit its sort for none. What stands for no value of a settings
document in the first place, such as a point in time, is still checked.
-/
import FeedSieve.Calendar.Date
import FeedSieve.Lax.Read
import FeedSieve.Text.Base64
import FeedSieve.Text.Utf8
import FeedSieve.Yaml.Node

namespace FeedSieve.Yaml

open Lax (Value)
open Number (Double)

-- ============================================================ numbers

/-- The value of a digit in a base: a decimal digit of any script, or a
letter. -/
def digitIn? (base : Nat) (c : Char) : Option Nat :=
  ((Text.digit? c).orElse fun _ => Text.hexDigit? c).filter (· < base)

/-- The letter that marks numbers in a base. -/
def baseMark : Nat → Char
  | 2 => 'b'
  | 8 => 'o'
  | _ => 'x'

/-- A number without the mark of its base, if it has it. -/
def withoutMark (base : Nat) : Text → Text
  | zero :: mark :: rest =>
      if Text.digit? zero = some 0 && Text.lowerPlain [mark] = [baseMark base] then rest
      else zero :: mark :: rest
  | t => t

/-- A number in a base. Like every numeral it may carry blanks around it and
a sign, and the mark of its base as well. -/
def inBase (base : Nat) (word : Text) : Except Fault Int :=
  let (negative, body) := match Text.trim word with
    | '-' :: rest => (true, rest)
    | '+' :: rest => (false, rest)
    | rest => (false, rest)
  let digits := withoutMark base body
  if Form.isRun (fun c => (digitIn? base c).isSome) digits then
    let value : Int :=
      (digits.foldl (fun n c => base * n + (digitIn? base c).getD 0) 0 : Nat)
    .ok (if negative then -value else value)
  else .error (.notInteger base word)

/-- A decimal number. -/
def decimal (word : Text) : Except Fault Int :=
  match Text.integer word with
  | .ok n => .ok n
  | .error (.tooLong digits) => .error (.tooLong digits)
  | .error .notInteger => .error (.notInteger 10 word)

/-- A number without its sign. -/
def magnitude (word : Text) : Except Fault Int :=
  match word with
  | [] => .error .emptyNumber
  | ['0'] => .ok 0
  | '0' :: 'b' :: digits => inBase 2 digits
  | '0' :: 'x' :: digits => inBase 16 digits
  | '0' :: digits => inBase 8 ('0' :: digits)
  | word =>
      if word.contains ':' then do
        let parts ← (Text.splitOn ':' word).mapM decimal
        return parts.foldl (fun sum part => 60 * sum + part) 0
      else decimal word

/-- The value of an integer. -/
def intValue (t : Text) : Except Fault Int :=
  match t.filter (· != '_') with
  | [] => .error .emptyNumber
  | '-' :: word => (magnitude word).map (- ·)
  | '+' :: word => magnitude word
  | word => magnitude word

/-- A finite double as a ratio. -/
def ratioOf : Double → Int × Nat
  | .finite negative mantissa exponent =>
      let (num, den) := Double.ratio mantissa exponent
      (if negative then -(num : Int) else num, den)
  | _ => (0, 1)

/-- The double nearest to a ratio with a sign. -/
def doubleOf (num : Int) (den : Nat) : Double := .ofRatio (decide (num < 0)) num.natAbs den

/-- The sum of a double and a multiple of another, rounded after every step. -/
def plusMultiple (sum part : Double) (base : Nat) : Except Fault Double :=
  let unit := Double.ofInt base
  if !unit.isFinite then .error .tooManyPlaces
  else
    let (num, den) := ratioOf part
    let (num', den') := ratioOf unit
    let (n, d) := ratioOf (doubleOf (num * num') (den * den'))
    let (m, e) := ratioOf sum
    .ok (doubleOf (m * d + n * e) (e * d))

/-- A sum with more parts, of which the first counts `base` and each of the
others sixty times as much as the one before it. -/
def sumInSixties (sum : Double) (base : Nat) : List Double → Except Fault Double
  | [] => .ok sum
  | part :: parts => do
      let sum ← plusMultiple sum part base
      sumInSixties sum (base * 60) parts

/-- A digit of any script as a plain one. -/
def plainDigitOf (c : Char) : Char :=
  match Text.digit? c with
  | some d => Char.ofNat ('0'.toNat + d)
  | none => c

/-- A floating number without its sign. -/
def floatPart (word : Text) : Except Fault Double :=
  match Lax.double? ((Text.trim word).map plainDigitOf) with
  | some d => .ok d
  | none => .error (.notNumber word)

/-- The value of a floating number. -/
def floatValue (t : Text) : Except Fault Double := do
  let word := Text.lowerPlain (t.filter (· != '_'))
  let negative := word.head? = some '-'
  let body := Form.unsigned word
  let opposite (d : Double) : Double := match d with
    | .finite sign mantissa exponent => .finite (sign != negative) mantissa exponent
    | .infinite sign => .infinite (sign != negative)
    | .nan => .nan
  if word.isEmpty then throw .emptyNumber
  else if body = ".inf".toList then return opposite (.infinite false)
  else if body = ".nan".toList then return .nan
  else if body.contains ':' then
    let parts ← (Text.splitOn ':' body).mapM floatPart
    let sum ← sumInSixties (Double.zero false) 1 parts.reverse
    return opposite sum
  else return opposite (← floatPart body)

-- ============================================================= others

/-- The value of a word for a truth value. -/
def boolValue (t : Text) : Except Fault Bool :=
  let word := String.ofList (Text.lowerPlain t)
  if ["yes", "true", "on"].contains word then .ok true
  else if ["no", "false", "off"].contains word then .ok false
  else .error (.notBool (Text.lowerPlain t))

/-- The number that digits spell. -/
def digitsValue (t : Text) : Nat := t.foldl (fun n c => 10 * n + (Text.plainDigit? c).getD 0) 0

/-- Refuses a day that does not exist. -/
def checkDate (year month day : Nat) : Except Fault Unit :=
  if year = 0 then .error (.noMoment "year 0 is out of range")
  else if month = 0 || 12 < month then .error (.noMoment "month must be in 1..12")
  else if (Calendar.Date.ofParts? year month day).isNone then
    .error (.noMoment "day is out of range for month")
  else .ok ()

/-- Refuses an offset of a day or more. -/
def checkZone (sign : Char) (hours minutes : Nat) : Except Fault Unit :=
  let size : Int := (hours * 60 + minutes) * 60
  let seconds := if sign = '-' then -size else size
  if size < 86400 then .ok ()
  else
    let days := Int.fdiv seconds 86400
    let left := Int.fmod seconds 86400
    let parts : List Text := [Text.concat ["days=", Text.ofInt days]] ++
      (if left = 0 then [] else [Text.concat ["seconds=", Text.ofInt left]])
    .error (.noMoment (Text.concat
      ["offset must be a timedelta strictly between -timedelta(hours=24) and ",
        "timedelta(hours=24), not datetime.timedelta(", Text.joinWith ", " parts, ")."]))

/-- Refuses a point in time that does not exist. A line end behind it is
passed over. -/
def checkTimestamp (t : Text) : Except Fault Unit := do
  match Form.timestamp? (if t.getLast? = some '\n' then t.dropLast else t) with
  | none => throw .notTimestamp
  | some moment =>
      let (year, month, day) := moment.date
      let date := checkDate (digitsValue year) (digitsValue month) (digitsValue day)
      match moment.time with
      | none => date
      | some (hour, minute, second, _) => do
          match moment.zone with
          | some (some (sign, hours, minutes)) =>
              checkZone sign (digitsValue hours) (digitsValue minutes)
          | _ => pure ()
          date
          if 23 < digitsValue hour then throw (.noMoment "hour must be in 0..23")
          if 59 < digitsValue minute then throw (.noMoment "minute must be in 0..59")
          if 59 < digitsValue second then throw (.noMoment "second must be in 0..59")

/-- The bytes that a text stands for. -/
def bytesOf (t : Text) : Except Fault Bytes :=
  match Base64.decode? t with
  | some bytes => .ok bytes
  | none => .error .malformed

/-- The value of a scalar. -/
def scalarValue (tag : Tag) (t : Text) : Except Fault Value :=
  match tag with
  | .null => .ok .null
  | .bool => (boolValue t).map .bool
  | .int => (intValue t).map .int
  | .float => (floatValue t).map .double
  | .timestamp => (checkTimestamp t).map fun _ => .other
  | .text => .ok (.text t)
  | .binary => (bytesOf t).map fun bytes => .bytes (Utf8.decode bytes).toOption
  | _ => .error .malformed

/-- Whether a node can be a key: collections cannot. -/
def Node.isKey : Node → Bool
  | .scalar .. => true
  | _ => false

/-- Whether a node is a mapping of one key. -/
def Node.isPair : Node → Bool
  | .mapping _ [_] _ => true
  | _ => false

/-- The fields of a record: those whose names are texts. -/
def textFields : List (Value × Value) → List (Text × Value)
  | (.text name, value) :: rest => (name, value) :: textFields rest
  | _ :: rest => textFields rest
  | [] => []

mutual

/-- The value of a node. -/
def Node.value : Node → Except Fault Value
  | .scalar tag text => scalarValue tag text
  | .sequence tag members => do
      let values ← valuesOf members
      match tag with
      | .sequence => return .list values
      | .pairs => if members.all Node.isPair then return .list [] else throw .malformed
      | _ => throw .malformed
  | .mapping tag keys values => do
      let names ← valuesOf keys
      let values ← valuesOf values
      if !keys.all Node.isKey then throw .malformed
      match tag with
      | .mapping => return .record (textFields (names.zip values))
      | .set => return .other
      | _ => throw .malformed
  | .inner isMapping => .ok (if isMapping then .record [] else .list [])

/-- The values of nodes. -/
def valuesOf : List Node → Except Fault (List Value)
  | [] => .ok []
  | node :: rest => do
      let value ← node.value
      let values ← valuesOf rest
      return value :: values

end

/-- Whether all keys of a mapping are texts. -/
def Node.namesFields : Node → Bool
  | .mapping _ keys _ => keys.all fun key => match key with
      | .scalar tag _ => tag == .text
      | _ => false
  | _ => false

/-- The fields that a document gives, if it is a record at all. Nothing gives
no fields. -/
def readFields (t : Text) : Except Fault (Option (List (Text × Value))) := do
  match ← Node.ofTokens (← Token.scan t) with
  | none => return some []
  | some node =>
      match ← node.value with
      | .null => return some []
      | .record fields => return if node.namesFields then some fields else none
      | _ => return none

end FeedSieve.Yaml
