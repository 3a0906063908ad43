/-
Lenient readings of values.

A value is taken for what is asked if it can be meant so: whole doubles,
truth values and numerals for integers, numerals for doubles, texts in the
interchange form for dates and moments. Only a text is a text, also where it
comes as its bytes.
-/
import FeedSieve.Lax.Value
import FeedSieve.Lax.Checked
import FeedSieve.Text.Blank
import FeedSieve.Text.Digits
import FeedSieve.Calendar.Interchange
import FeedSieve.Number.Word

namespace FeedSieve.Lax

open Number (Double)

-- =========================================================== numerals

/-- White space around numerals: the separators of data are not among it. -/
def isAround (c : Char) : Bool := Text.isBlank c && !('\x1c' ≤ c && c ≤ '\x1f')

/-- The text without its underscores, which must be single and stand within. -/
def withoutUnderscores? (t : Text) : Option Text :=
  if t.head? == some '_' || t.getLast? == some '_' || Text.occursIn "__" t then none
  else some (t.filter (· != '_'))

/-- The value of plain digits. -/
def plainValue (t : Text) : Nat := Text.digitsValue t

/-- An integer as it is written strictly: a minus sign or none, digits, and
no zero before other digits. -/
def strictInteger? (t : Text) : Option Int :=
  let (negative, body) := match t with
    | '-' :: rest => (true, rest)
    | rest => (false, rest)
  let headed := body.length ≤ 1 || body.head? != some '0'
  if body.isEmpty || !body.all Text.isPlainDigit || !headed then none
  else some (if negative then -(plainValue body : Int) else plainValue body)

/-- What is left of a numeral after its leading zeros, underscores among
them: at least one character. -/
def withoutLeadingZeros? (t : Text) : Option Text :=
  match t with
  | '0' :: rest => go '0' rest
  | c :: _ => if Text.isPlainDigit c || c = '-' then some t else none
  | [] => none
where
  /-- `last` is the character just passed over. -/
  go (last : Char) : Text → Option Text
    | [] => some [last]
    | c :: rest =>
        if c = '0' || c = '_' then go c rest
        else if c = '.' then some (last :: c :: rest)
        else if Text.isPlainDigit c then some (c :: rest)
        else none

/-- The numeral without a point that only zeros follow. -/
def withoutZeroFraction (t : Text) : Text :=
  match Text.cut '.' t with
  | (whole, some zeros) => if !zeros.isEmpty && zeros.all (· == '0') then whole else t
  | (_, none) => t

/-- The integer that a lenient numeral spells. -/
def lenientInteger? (t : Text) : Option Int := do
  let t := if t.head? = some '+' then t.drop 1 else t
  let t ← withoutLeadingZeros? t
  strictInteger? (← withoutUnderscores? (withoutZeroFraction t))

/-- Reads an integer from a text. -/
def integerText (t : Text) : Checked Int :=
  let t := Text.strip isAround t
  if Text.maxDigits < (t.filter Text.isPlainDigit).length then .flawed .intParsingSize
  else match strictInteger? t with
    | some i => .good i
    | none => match lenientInteger? t with
      | some i => .good i
      | none => .flawed .intParsing

/-- A double in decimal: digits with perhaps a point among them, and perhaps
an exponent. -/
def decimalDouble? (negative : Bool) (t : Text) : Option Double :=
  let whole := t.takeWhile Text.isPlainDigit
  let t := t.dropWhile Text.isPlainDigit
  let (fraction, t) := match t with
    | '.' :: rest => (rest.takeWhile Text.isPlainDigit, rest.dropWhile Text.isPlainDigit)
    | t => ([], t)
  if whole.isEmpty && fraction.isEmpty then none
  else
    let value (exponent : Int) : Option Double :=
      some (Double.ofDecimal negative (plainValue (whole ++ fraction))
        (exponent - fraction.length))
    match t with
    | [] => value 0
    | c :: rest =>
        if c != 'e' && c != 'E' then none
        else
          let (below, rest) := match rest with
            | '-' :: rest => (true, rest)
            | '+' :: rest => (false, rest)
            | rest => (false, rest)
          if rest.isEmpty || !rest.all Text.isPlainDigit then none
          else value (if below then -(plainValue rest : Int) else plainValue rest)

/-- A double as a text spells it, infinities and no number included. -/
def double? (t : Text) : Option Double :=
  let (negative, body) := match t with
    | '-' :: rest => (true, rest)
    | '+' :: rest => (false, rest)
    | rest => (false, rest)
  let word := Text.lowerPlain body
  if word = "inf".toList || word = "infinity".toList then some (.infinite negative)
  else if word = "nan".toList then some .nan
  else decimalDouble? negative body

-- =========================================================== readings

/-- Reads an integer. -/
def int : Value → Checked Int
  | .int i => .good i
  | .bool b => .good (if b then 1 else 0)
  | .double d =>
      match d.truncated? with
      | none => .flawed .finiteNumber
      | some i =>
          if !d.isWhole then .flawed .intFromFloat
          else if i.natAbs < Number.longEnd then .good i
          else .flawed .intParsingSize
  | .text t | .bytes (some t) => integerText t
  | .bytes none => .flawed .intParsing
  | _ => .flawed .intType

/-- Reads a double from a text. -/
def doubleText (t : Text) : Checked Double :=
  let t := Text.strip isAround t
  match double? t with
  | some d => .good d
  | none => match (withoutUnderscores? t).bind double? with
    | some d => .good d
    | none => .flawed .floatParsing

/-- Reads a double. -/
def double : Value → Checked Double
  | .double d => .good d
  | .int i => if (Double.ofInt i).isFinite then .good (Double.ofInt i) else .flawed .floatType
  | .bool b => .good (Double.ofInt (if b then 1 else 0))
  | .text t | .bytes (some t) => doubleText t
  | .bytes none => .flawed .floatParsing
  | _ => .flawed .floatType

/-- Reads a text. -/
def text : Value → Checked Text
  | .text t | .bytes (some t) => .good t
  | .bytes none => .flawed .stringUnicode
  | _ => .flawed .stringType

/-- Reads a moment; a date alone is its midnight. -/
def moment : Value → Checked Calendar.Moment
  | .text t =>
      match Calendar.Interchange.moment t with
      | .ok m => .good m
      | .error _ => match Calendar.Interchange.date t with
        | .ok d => .good (Calendar.Moment.midnight d none)
        | .error fault => .flawed (.datetimeText fault.message)
  | _ => .flawed .datetimeType

/-- Reads a date; a moment is one if it is a midnight. -/
def date : Value → Checked Calendar.Date
  | .text t =>
      match Calendar.Interchange.date t with
      | .ok d => .good d
      | .error _ => match Calendar.Interchange.moment t with
        | .ok m => if m.micros = 0 then .good m.date else .flawed .dateInexact
        | .error fault => .flawed (.dateText fault.message)
  | _ => .flawed .dateType

/-- Reads an integer that is at least `bound`. -/
def intFrom (bound : Int) (v : Value) : Checked Int :=
  (int v).andThen fun i => if i < bound then .flawed (.atLeast bound) else .good i

/-- Reads a number from 0 or a greater bound. -/
def natFrom (bound : Nat) (v : Value) : Checked Nat := Int.toNat <$> intFrom bound v

/-- Reads a double above zero. -/
def positive (v : Value) : Checked Double :=
  (double v).andThen fun d => if d.isPositive then .good d else .flawed (.above 0)

/-- Reads a value that may be absent. -/
def optional {α : Type} (read : Value → Checked α) : Value → Checked (Option α)
  | .null => .good none
  | v => some <$> read v

/-- Reads the members of a list; `wrong` is the flaw of other values. -/
def members {α : Type} (wrong : Flaw) (read : Value → Checked α) : Value → Checked (List α)
  | .list vs => Checked.all read 0 vs
  | _ => .flawed wrong

/-- Reads a field; `absent` is for records without it. -/
def field {α : Type} (fields : List (Text × Value)) (name : Text) (absent : Checked α)
    (read : Value → Checked α) : Checked α :=
  match fieldOf? fields name with
  | none => absent.within name
  | some v => (read v).within name

end FeedSieve.Lax
