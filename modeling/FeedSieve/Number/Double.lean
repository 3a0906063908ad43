/-
Double-precision numbers.

A finite double is a sign, a whole mantissa below 2^53 and an exponent of
two from -1074 to 971. A mantissa below 2^52 goes with the least exponent
only, so every value but zero has one form, and equality of forms is
equality of values and signs. Beyond the largest finite double there are
the infinities, and `nan` is no number at all.

A double enters as an exact ratio, which is rounded to the nearest double,
a ratio half way between two doubles to the one with the even mantissa.
Nothing here is approximate: rounding is done once, in whole numbers.
-/
import FeedSieve.Text.Basic

namespace FeedSieve.Number

/-- A number of double precision. -/
inductive Double where
  /-- The number `mantissa * 2 ^ exponent`, or its opposite. -/
  | finite (negative : Bool) (mantissa : Nat) (exponent : Int)
  /-- Beyond all finite numbers. -/
  | infinite (negative : Bool)
  /-- No number. -/
  | nan
deriving Repr, DecidableEq

namespace Double

/-- The least exponent. -/
def leastExponent : Int := -1074

/-- The greatest exponent. -/
def greatestExponent : Int := 971

/-- Mantissas are below this number, two to the 53rd. -/
def mantissaEnd : Nat := 9007199254740992

/-- Zero, of either sign. -/
def zero (negative : Bool) : Double := finite negative 0 leastExponent

/-- `num / den` rounded to a whole number, a half to the even one. -/
def roundDiv (num den : Nat) : Nat :=
  let whole := num / den
  let twice := 2 * (num % den)
  if den < twice || (twice == den && whole % 2 == 1) then whole + 1 else whole

/-- `num / den` scaled by `2 ^ -exponent`, as a ratio. -/
def scaled (num den : Nat) (exponent : Int) : Nat × Nat :=
  if 0 ≤ exponent then (num, den * Nat.pow 2 exponent.toNat)
  else (num * Nat.pow 2 (-exponent).toNat, den)

/-- The exponent with which the mantissa of `num / den` has 53 bits, or the
least exponent if that is greater. -/
def exponentFor (num den : Nat) : Int :=
  let guess : Int := (Nat.log2 num : Int) - (Nat.log2 den : Int) - 52
  let (n, d) := scaled num den guess
  max leastExponent (if n / d < mantissaEnd / 2 then guess - 1 else guess)

/-- The double nearest to a ratio. -/
def ofRatio (negative : Bool) (num den : Nat) : Double :=
  if num = 0 then zero negative
  else
    let exponent := exponentFor num den
    let (n, d) := scaled num den exponent
    let mantissa := roundDiv n d
    let (mantissa, exponent) :=
      if mantissa = mantissaEnd then (mantissaEnd / 2, exponent + 1) else (mantissa, exponent)
    if greatestExponent < exponent then infinite negative else finite negative mantissa exponent

/-- The double nearest to an integer. -/
def ofInt (i : Int) : Double := ofRatio (decide (i < 0)) i.natAbs 1

/-- The double nearest to `digits * 10 ^ exponent`. Exponents so large or so
small that no double comes near are settled without computing the power. -/
def ofDecimal (negative : Bool) (digits : Nat) (exponent : Int) : Double :=
  let leading : Int := (Nat.log2 digits : Int) * 3 / 10 + exponent
  if digits = 0 then zero negative
  else if 400 < leading then infinite negative
  else if leading < -400 - (Nat.log2 digits : Int) then zero negative
  else if 0 ≤ exponent then ofRatio negative (digits * Nat.pow 10 exponent.toNat) 1
  else ofRatio negative digits (Nat.pow 10 (-exponent).toNat)

/-- Whether the number is above zero. -/
def isPositive : Double → Bool
  | finite negative mantissa _ => !negative && mantissa != 0
  | infinite negative => !negative
  | nan => false

/-- Whether the number is finite. -/
def isFinite : Double → Bool
  | finite .. => true
  | _ => false

/-- The magnitude of a finite double, as a ratio. -/
def ratio (mantissa : Nat) (exponent : Int) : Nat × Nat :=
  if 0 ≤ exponent then (mantissa * Nat.pow 2 exponent.toNat, 1)
  else (mantissa, Nat.pow 2 (-exponent).toNat)

/-- The integer next to a finite number on the side of zero. -/
def truncated? : Double → Option Int
  | finite negative mantissa exponent =>
      let (num, den) := ratio mantissa exponent
      let whole : Int := num / den
      some (if negative then -whole else whole)
  | _ => none

/-- Whether the number is a whole one. -/
def isWhole : Double → Bool
  | finite _ mantissa exponent => let (num, den) := ratio mantissa exponent; num % den == 0
  | _ => false

end Double

end FeedSieve.Number
