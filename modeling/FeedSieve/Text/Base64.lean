/-
Bytes written as text.

Each character stands for six bits, so that four characters make three
bytes. Characters that stand for none are passed over. Signs for padding
fill up the last four; what is behind them does not count.
-/
import FeedSieve.Text.Basic

namespace FeedSieve.Base64

/-- The bits of a character. -/
def sextet? (c : Char) : Option Nat :=
  if 'A' ≤ c ∧ c ≤ 'Z' then some (c.toNat - 'A'.toNat)
  else if 'a' ≤ c ∧ c ≤ 'z' then some (c.toNat - 'a'.toNat + 26)
  else if '0' ≤ c ∧ c ≤ '9' then some (c.toNat - '0'.toNat + 52)
  else if c = '+' then some 62
  else if c = '/' then some 63
  else none

/-- Reads on: `place` counts the characters of the last four, `bits` are those
that they have left over, and `pads` counts the signs for padding behind
them. -/
def decodeFrom (place bits pads : Nat) : Text → Option Bytes
  | [] => if place = 0 then some [] else none
  | c :: rest =>
      if c = '=' then
        if place < 2 then decodeFrom place bits pads rest
        else if place + pads < 3 then decodeFrom place bits (pads + 1) rest
        else some []
      else match sextet? c with
        | none => decodeFrom place bits pads rest
        | some n => match place with
          | 0 => decodeFrom 1 n 0 rest
          | 1 => (decodeFrom 2 (n % 16) 0 rest).map ((bits * 4 + n / 16).toUInt8 :: ·)
          | 2 => (decodeFrom 3 (n % 4) 0 rest).map ((bits * 16 + n / 4).toUInt8 :: ·)
          | _ => (decodeFrom 0 0 0 rest).map ((bits * 64 + n).toUInt8 :: ·)

/-- The bytes that a text stands for. There are none if it is not plain, or if
it ends too early. -/
def decode? (t : Text) : Option Bytes :=
  if t.all fun c => c.toNat < 128 then decodeFrom 0 0 0 t else none

end FeedSieve.Base64
