/-
Decimal digits and the integers they spell.

The decimal digits of Unicode come in runs of ten, zero first, so the zeros
determine both which characters are digits and what each is worth. A run of
digits, of whatever scripts, spells a natural number. An integer literal may
carry blanks around it, a sign, and single underscores between digits.

Reading is bounded: a literal of more than `maxDigits` digits is refused,
because conversion time grows with the square of the length. The refusal is
an outcome of its own, since whoever asks may not expect it. Writing is
bounded likewise.
-/
import FeedSieve.Text.Blank

namespace FeedSieve.Text

/-- The code points of the characters that are decimal zeros. -/
def zeros : List Nat :=
  [0x30, 0x660, 0x6f0, 0x7c0, 0x966, 0x9e6, 0xa66, 0xae6, 0xb66, 0xbe6,
   0xc66, 0xce6, 0xd66, 0xde6, 0xe50, 0xed0, 0xf20, 0x1040, 0x1090, 0x17e0,
   0x1810, 0x1946, 0x19d0, 0x1a80, 0x1a90, 0x1b50, 0x1bb0, 0x1c40, 0x1c50,
   0xa620, 0xa8d0, 0xa900, 0xa9d0, 0xa9f0, 0xaa50, 0xabf0, 0xff10, 0x104a0,
   0x10d30, 0x11066, 0x110f0, 0x11136, 0x111d0, 0x112f0, 0x11450, 0x114d0,
   0x11650, 0x116c0, 0x11730, 0x118e0, 0x11950, 0x11c50, 0x11d50, 0x11da0,
   0x16a60, 0x16ac0, 0x16b50, 0x1d7ce, 0x1d7d8, 0x1d7e2, 0x1d7ec, 0x1d7f6,
   0x1e140, 0x1e2f0, 0x1e950, 0x1fbf0]

/-- The code points of characters, not decimal, that still count as digits:
superscripts, circled digits and their like. -/
def otherDigitRuns : List (Nat × Nat) :=
  [(0xb2, 0xb3), (0xb9, 0xb9), (0x1369, 0x1371), (0x19da, 0x19da),
   (0x2070, 0x2070), (0x2074, 0x2079), (0x2080, 0x2089), (0x2460, 0x2468),
   (0x2474, 0x247c), (0x2488, 0x2490), (0x24ea, 0x24ea), (0x24f5, 0x24fd),
   (0x24ff, 0x24ff), (0x2776, 0x277e), (0x2780, 0x2788), (0x278a, 0x2792),
   (0x10a40, 0x10a43), (0x10e60, 0x10e68), (0x11052, 0x1105a),
   (0x1f100, 0x1f10a)]

/-- The value of a decimal digit of any script. -/
def digit? (c : Char) : Option Nat :=
  (zeros.find? fun z => z ≤ c.toNat && c.toNat < z + 10).map (c.toNat - ·)

/-- Whether a character is a decimal digit of some script. -/
def isDigit (c : Char) : Bool := (digit? c).isSome

/-- Whether a character is a digit in the wider sense. -/
def isDigitLike (c : Char) : Bool :=
  isDigit c || otherDigitRuns.any fun (first, last) => first ≤ c.toNat && c.toNat ≤ last

/-- The number spelled by digits, the most significant first. -/
def digitsValue (t : Text) : Nat :=
  t.foldl (fun n c => 10 * n + (digit? c).getD 0) 0

/-- The most digits an integer may be read from. -/
def maxDigits : Nat := 4300

/-- How reading an integer fails. -/
inductive IntegerFault where
  /-- More digits than are read. -/
  | tooLong (digits : Nat)
  /-- Not an integer literal. -/
  | notInteger
deriving Repr, DecidableEq

/-- The digits of a literal in which single underscores may stand
between digits; `none` if it is anything else. -/
def ungroup? : Text → Option Text
  | [] => none
  | [c] => if isDigit c then some [c] else none
  | c :: '_' :: rest => if isDigit c then (ungroup? rest).map (c :: ·) else none
  | c :: rest => if isDigit c then (ungroup? rest).map (c :: ·) else none

/-- Reads an integer literal. -/
def integer (t : Text) : Except IntegerFault Int :=
  let body := trim t
  let (negative, body) := match body with
    | '-' :: rest => (true, rest)
    | '+' :: rest => (false, rest)
    | rest => (false, rest)
  match ungroup? body with
  | none => .error .notInteger
  | some digits =>
      if maxDigits < digits.length then .error (.tooLong digits.length)
      else
        let value : Int := digitsValue digits
        .ok (if negative then -value else value)

/-- The integer that a literal spells, if it is one and not too long. -/
def integer? (t : Text) : Option Int := (integer t).toOption

/-- The message about a numeral with too many digits. -/
def tooLongMessage (digits : Nat) : Text :=
  concat ["Exceeds the limit (", ofNat maxDigits,
    " digits) for integer string conversion: value has ", ofNat digits,
    " digits; use sys.set_int_max_str_digits() to increase the limit"]

/-- Whether a number has no more digits than are written. -/
def isWritable (n : Nat) : Bool := (ofNat n).length ≤ maxDigits

/-- The message about a number with too many digits. -/
def unwritableMessage : Text :=
  concat ["Exceeds the limit (", ofNat maxDigits,
    " digits) for integer string conversion; use sys.set_int_max_str_digits() to increase the limit"]

end FeedSieve.Text
