/-
Doubles in decimal.

Two forms are written. The fixed one has six places, rounded from the exact
value. The shortest one has the fewest digits that read back as the same
double, and of those the ones nearest to it; it is positional for values
from 10^-4 up to 10^16 and has an exponent otherwise.

The doubles next to a value leave it an interval of reals that round to it,
whose ends belong to it when its mantissa is even. For one digit, two, and
so on, the two neighbours of the value on the decimal grid are tested
against that interval; the first grid with a hit gives the digits.
-/
import FeedSieve.Number.Double

namespace FeedSieve.Number.Double

-- ========================================================= six places

/-- The number with six places. -/
def sixPlaces : Double → Text
  | finite negative mantissa exponent =>
      let (num, den) := ratio mantissa exponent
      let millionths := roundDiv (num * 1000000) den
      let body := Text.concat
        [Text.ofNat (millionths / 1000000), ".", Text.padded 6 (millionths % 1000000)]
      if negative then '-' :: body else body
  | infinite negative => if negative then "-inf" else "inf"
  | nan => "nan"

-- =========================================================== shortest

/-- How many zeros follow the point of `num / den < 1`; at most `bound`. -/
def zerosBehindPoint (num den : Nat) : (bound : Nat) → Nat
  | 0 => 0
  | bound + 1 => if den ≤ num * 10 then 0 else zerosBehindPoint (num * 10) den bound + 1

/-- The power of ten next above `num / den`. -/
def decimalExponent (num den : Nat) : Int :=
  if den ≤ num then (Nat.toDigits 10 (num / den)).length
  else -(zerosBehindPoint num den 400 : Int)

/-- The fewest digits, as a number, and the power of ten by which that
number, read as a fraction below one, is to be multiplied. -/
def shortestDigits (mantissa : Nat) (exponent : Int) : Nat × Int :=
  let wide := decide (2 ≤ exponent)
  let unit := if wide then Nat.pow 2 (exponent - 2).toNat else 1
  let den := if wide then 1 else Nat.pow 2 (2 - exponent).toNat
  let value := 4 * mantissa * unit
  let power := decimalExponent value den
  let isLeast := mantissa == mantissaEnd / 2 && leastExponent < exponent
  let low := value - (if isLeast then unit else 2 * unit)
  let high := value + 2 * unit
  let closed := mantissa % 2 == 0
  let onGrid (count : Nat) : Option (Nat × Int) :=
    let place := power - count
    let grid := if 0 ≤ place then den * Nat.pow 10 place.toNat else den
    let scale := if 0 ≤ place then 1 else Nat.pow 10 (-place).toNat
    let inside (n : Nat) : Bool :=
      if closed then low * scale ≤ n * grid && n * grid ≤ high * scale
      else low * scale < n * grid && n * grid < high * scale
    let below := value * scale / grid
    let twice := 2 * (value * scale % grid)
    let nearer := if grid < twice || (twice == grid && below % 2 == 1) then below + 1 else below
    let farther := if nearer = below then below + 1 else below
    if inside nearer then some (nearer, place)
    else if inside farther then some (farther, place)
    else none
  match (List.range 17).findSome? fun i => onGrid (i + 1) with
  | some (digits, place) => (digits, place + (Nat.toDigits 10 digits).length)
  | none => (0, 0)

/-- The digits of a magnitude laid out: `point` digits stand before the point. -/
def layOut (digits : Text) (point : Int) : Text :=
  if point ≤ -4 || 16 < point then
    let exponent := point - 1
    let sign : Text := if exponent < 0 then "-" else "+"
    let fraction := match digits.drop 1 with
      | [] => []
      | rest => '.' :: rest
    Text.concat [digits.take 1, fraction, "e", sign, Text.padded 2 exponent.natAbs]
  else if point ≤ 0 then
    Text.concat ["0.", List.replicate (-point).toNat '0', digits]
  else
    let count := point.toNat
    if digits.length ≤ count then
      Text.concat [digits, List.replicate (count - digits.length) '0', ".0"]
    else Text.concat [digits.take count, ".", digits.drop count]

/-- The shortest form. -/
def shortest : Double → Text
  | finite negative mantissa exponent =>
      let body : Text :=
        if mantissa = 0 then "0.0"
        else
          let (digits, point) := shortestDigits mantissa exponent
          layOut (Text.stripEnd (· == '0') (Text.ofNat digits)) point
      if negative then '-' :: body else body
  | infinite negative => if negative then "-inf" else "inf"
  | nan => "nan"

end FeedSieve.Number.Double
