/-
What sort of value a scalar is.

A scalar that is written plain has the sort that its form shows: a word for
a truth value, digits for a number, and so on. What fits no form is text,
and so is everything in quotes. A tag says otherwise.
-/
import FeedSieve.Text.Basic

namespace FeedSieve.Yaml

/-- A sort of values. -/
inductive Tag where
  | null
  | bool
  | int
  | float
  | timestamp
  | text
  | sequence
  | mapping
  /-- A mapping of which only the keys count. -/
  | set
  /-- Bytes. -/
  | binary
  /-- A sequence of single pairs, with or without repetition. -/
  | pairs
  /-- The key for a mapping to be merged in. -/
  | merge
  /-- The key for a value that stands for the whole mapping. -/
  | default
  /-- A sort that nobody knows. -/
  | unknown
deriving Repr, DecidableEq

/-- Whether a sort is one of scalars. -/
def Tag.isScalar : Tag → Bool
  | null | bool | int | float | timestamp | text | binary => true
  | _ => false

/-- What the names of the common tags begin with. -/
def tagSpace : Text := "tag:yaml.org,2002:"

/-- The names of the common tags. -/
def commonTags : List (String × Tag) :=
  [("null", .null), ("bool", .bool), ("int", .int), ("float", .float),
   ("timestamp", .timestamp), ("str", .text), ("seq", .sequence), ("map", .mapping),
   ("set", .set), ("binary", .binary), ("omap", .pairs), ("pairs", .pairs), ("merge", .merge),
   ("value", .default)]

/-- The sort that a tag names. -/
def Tag.ofName (name : Text) : Tag :=
  match Text.after? tagSpace name with
  | some word => (commonTags.lookup (String.ofList word)).getD .unknown
  | none => .unknown

namespace Form

/-- What is left after a sign, if there is one. -/
def unsigned : Text → Text
  | '-' :: rest => rest
  | '+' :: rest => rest
  | t => t

/-- Whether a text is not empty and has only such characters. -/
def isRun (p : Char → Bool) (t : Text) : Bool := !t.isEmpty && t.all p

/-- A digit or an underscore. -/
def isSpacedDigit (c : Char) : Bool := Text.isPlainDigit c || c = '_'

/-- The words for truth values. -/
def boolWords : List String :=
  ["yes", "Yes", "YES", "no", "No", "NO", "true", "True", "TRUE", "false", "False", "FALSE",
   "on", "On", "ON", "off", "Off", "OFF"]

/-- The words for nothing. -/
def nullWords : List String := ["", "~", "null", "Null", "NULL"]

/-- A number below sixty. -/
def isSixtieth (t : Text) : Bool :=
  match t with
  | [a] => Text.isPlainDigit a
  | [a, b] => '0' ≤ a && a ≤ '5' && Text.isPlainDigit b
  | _ => false

/-- Digits that begin with no underscore. -/
def isDigits : Text → Bool
  | a :: rest => Text.isPlainDigit a && rest.all isSpacedDigit
  | [] => false

/-- The form of an integer: binary, octal, hexadecimal, decimal, or in
sixties. -/
def isInt (t : Text) : Bool :=
  match unsigned t with
  | '0' :: 'b' :: rest => isRun (fun c => c = '0' || c = '1' || c = '_') rest
  | '0' :: 'x' :: rest => isRun (fun c => (Text.hexDigit? c).isSome || c = '_') rest
  | ['0'] => true
  | '0' :: rest => isRun (fun c => ('0' ≤ c && c ≤ '7') || c = '_') rest
  | body =>
      match Text.splitOn ':' body with
      | whole :: parts => isDigits whole && parts.all isSixtieth
      | [] => false

/-- The form of an exponent, or nothing. -/
def isExponent : Text → Bool
  | [] => true
  | e :: sign :: digits =>
      (e = 'e' || e = 'E') && (sign = '-' || sign = '+') && isRun Text.isPlainDigit digits
  | _ => false

/-- The form of a fraction: digits behind a point, and an exponent. -/
def isFraction (t : Text) : Bool :=
  isExponent (t.dropWhile isSpacedDigit)

/-- The form of a floating number. -/
def isFloat (t : Text) : Bool :=
  let body := unsigned t
  let special (words : List String) (t : Text) : Bool := words.contains (String.ofList t)
  if special [".inf", ".Inf", ".INF"] body || special [".nan", ".NaN", ".NAN"] t then true
  else match t with
    | '.' :: d :: rest => Text.isPlainDigit d && isFraction rest
    | _ =>
        match Text.cut '.' body with
        | (whole, some fraction) =>
            (isDigits whole && isFraction fraction) ||
              (match Text.splitOn ':' whole with
               | first :: part :: parts =>
                   isDigits first && (part :: parts).all isSixtieth && fraction.all isSpacedDigit
               | _ => false)
        | _ => false

/-- The parts of a point in time as they are written. -/
structure Timestamp where
  /-- Year, month and day. -/
  date : Text × Text × Text
  /-- Hour, minute, second and the digits of its fraction. -/
  time : Option (Text × Text × Text × Text)
  /-- Whether there is a zone; its sign, hours and minutes if it has any. -/
  zone : Option (Option (Char × Text × Text))
deriving Repr, DecidableEq

/-- Takes digits, as many as there are but no more than `most`. -/
def digits (most : Nat) (t : Text) : Text × Text :=
  let taken := (t.take most).takeWhile Text.isPlainDigit
  (taken, t.drop taken.length)

/-- Reads a zone, blanks before it included. -/
def zone? (t : Text) : Option (Option (Option (Char × Text × Text))) :=
  match t.dropWhile fun c => c = ' ' || c = '\t' with
  | [] => if t.isEmpty then some none else none
  | ['Z'] => some (some none)
  | sign :: rest =>
      if sign != '+' && sign != '-' then none
      else
        let (hours, rest) := digits 2 rest
        let minutes? : Option Text := match rest with
          | [] => some []
          | ':' :: rest =>
              let (minutes, rest) := digits 2 rest
              if minutes.length = 2 && rest.isEmpty then some minutes else none
          | _ => none
        if hours.isEmpty then none
        else minutes?.map fun minutes => some (some (sign, hours, minutes))

/-- Reads the time of day and the zone. -/
def clock? (t : Text) : Option (Option (Text × Text × Text × Text) ×
    Option (Option (Char × Text × Text))) :=
  let (hour, rest) := digits 2 t
  match rest with
  | ':' :: rest =>
      let (minute, rest) := digits 2 rest
      match rest with
      | ':' :: rest =>
          let (second, rest) := digits 2 rest
          let (fraction, rest) := match rest with
            | '.' :: rest => (rest.takeWhile Text.isPlainDigit, rest.dropWhile Text.isPlainDigit)
            | rest => ([], rest)
          if hour.isEmpty || minute.length != 2 || second.length != 2 then none
          else (zone? rest).map fun zone => (some (hour, minute, second, fraction), zone)
      | _ => none
  | _ => none

/-- Reads a point in time: a date, perhaps with a time of day. -/
def timestamp? (t : Text) : Option Timestamp :=
  let (year, rest) := digits 4 t
  match rest with
  | '-' :: rest =>
      let (month, rest) := digits 2 rest
      match rest with
      | '-' :: rest =>
          let (day, rest) := digits 2 rest
          if year.length != 4 || month.isEmpty || day.isEmpty then none
          else match rest with
            | [] => some ⟨(year, month, day), none, none⟩
            | c :: rest =>
                let time :=
                  if c = 'T' || c = 't' then rest
                  else rest.dropWhile fun c => c = ' ' || c = '\t'
                if c = 'T' || c = 't' || c = ' ' || c = '\t' then
                  (clock? time).map fun (time, zone) => ⟨(year, month, day), time, zone⟩
                else none
      | _ => none
  | _ => none

/-- The form of a point in time: a date alone is written out in full. -/
def isTimestamp (t : Text) : Bool :=
  match timestamp? t with
  | some ⟨(_, month, day), none, _⟩ => month.length == 2 && day.length == 2
  | some _ => true
  | none => false

end Form

/-- The sort that the form of a plain scalar shows. -/
def Tag.ofForm (t : Text) : Tag :=
  let word := String.ofList t
  if Form.boolWords.contains word then .bool
  else if Form.isFloat t then .float
  else if Form.isInt t then .int
  else if word = "<<" then .merge
  else if Form.nullWords.contains word then .null
  else if Form.isTimestamp t then .timestamp
  else if word = "=" then .default
  else .text

end FeedSieve.Yaml
