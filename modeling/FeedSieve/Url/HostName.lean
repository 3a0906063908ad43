/-
Host names in ASCII.

A host name is made of labels with points between them. A label beyond ASCII
is written as `xn--`, its ASCII characters and a code for the others. The
code goes through the others in the order of their code points and says of
each how many places for a character are passed, from the one before, until
it goes in. These numbers are written to the base 36, the last digit of each
below a threshold that no earlier one is below. The threshold adapts to the
numbers so far, so that small ones take little room.
-/
import FeedSieve.Ordered
import FeedSieve.Text.Basic
import FeedSieve.Text.Fold

namespace FeedSieve.Url

-- ============================================================= numbers

/-- A digit to the base 36, letters before figures. -/
def codeDigit (n : Nat) : Char :=
  if n < 26 then Char.ofNat ('a'.toNat + n) else Char.ofNat ('0'.toNat + (n - 26))

/-- The least digit at a place, counted from one, that is not the last. -/
def threshold (bias place : Nat) : Nat := min 26 (max 1 (36 * place - bias))

/-- The digits of a number from a place on, the least first. -/
def codeDigits (bias place n : Nat) : Text :=
  let least := threshold bias place
  if n < least then [codeDigit n]
  else
    codeDigit (least + (n - least) % (36 - least)) ::
      codeDigits bias (place + 1) ((n - least) / (36 - least))
termination_by n
decreasing_by
  have one : 1 ≤ threshold bias place := by unfold threshold; omega
  exact Nat.lt_of_le_of_lt (Nat.div_le_self _ _) (by omega)

/-- The bias for numbers about as large as this one. -/
def biasAround (n : Nat) : Nat :=
  if 455 < n then 36 + biasAround (n / 35) else 36 * n / (n + 38)
termination_by n
decreasing_by exact Nat.div_lt_self (by omega) (by omega)

/-- The bias after a number; the first is damped, since it tells of the jump
to a script. `count` characters are in place then. -/
def biasAfter (isFirst : Bool) (n count : Nat) : Nat :=
  let n := if isFirst then n / 700 else n / 2
  biasAround (n + n / count)

-- ============================================================== labels

/-- A code in the making. -/
structure Coding where
  /-- What is written. -/
  written : Text
  /-- The places passed since. -/
  passed : Nat
  bias : Nat
  /-- How many characters are in place. -/
  placed : Nat

/-- Passes a character of the label on the way of those with a code point:
an earlier one is a place, one that is due goes in. `plain` characters were
in place from the start. -/
def Coding.pass (plain due : Nat) (s : Coding) (c : Char) : Coding :=
  if c.toNat < due then { s with passed := s.passed + 1 }
  else if c.toNat = due then
    ⟨s.written ++ codeDigits s.bias 1 s.passed, 0,
      biasAfter (s.placed == plain) s.passed (s.placed + 1), s.placed + 1⟩
  else s

/-- Puts in all characters with a code point, when those below `least` are
done with. The code points between are places too, once for each place. -/
def Coding.enter (label : Text) (plain least due : Nat) (s : Coding) : Coding :=
  let s := { s with passed := s.passed + (due - least) * (s.placed + 1) }
  let s := label.foldl (Coding.pass plain due) s
  { s with passed := s.passed + 1 }

/-- Puts in the characters with these code points. -/
def Coding.enterAll (label : Text) (plain least : Nat) : List Nat → Coding → Coding
  | [], s => s
  | due :: rest, s => enterAll label plain (due + 1) rest (s.enter label plain least due)

/-- Whether a character is ASCII. -/
def isPlainChar (c : Char) : Bool := c.toNat < 0x80

/-- The bias of the first number. -/
def firstBias : Nat := 72

/-- The ASCII characters of a label and the code for the others. -/
def labelCode (label : Text) : Text :=
  let plain := label.filter isPlainChar
  let others := Ordered.ofList (· < ·) ((label.filter (!isPlainChar ·)).map Char.toNat)
  let s := Coding.enterAll label plain.length 0x80 others ⟨[], 0, firstBias, plain.length⟩
  (if plain.isEmpty then [] else plain ++ ['-']) ++ s.written

/-- What marks a label with a code. -/
def codeMark : Text := "xn--"

/-- The most characters of a label. -/
def labelLimit : Nat := 63

/-- The most characters of a name, without a point at its end. -/
def hostNameLimit : Nat := 253

/-- Whether the hyphens of a label are where they may be. -/
def hyphensFit (label : Text) : Bool :=
  label.head? != some '-' && label.getLast? != some '-' && (label.drop 2).take 2 != ['-', '-']

/-- Whether an ASCII character may be in a label. -/
def fitsLabel (c : Char) : Bool := Text.isLetter c || Text.isPlainDigit c || c = '-'

/-- A label in ASCII. One with a code stays as it is; every character beyond
ASCII counts as one of names. -/
def asciiLabel? (label : Text) : Option Text :=
  let written :=
    if Text.beginsWith codeMark label && label.all isPlainChar then some label
    else if label.isEmpty || !hyphensFit label then none
    else if !label.all fun c => fitsLabel c || !isPlainChar c then none
    else if label.all isPlainChar then some label
    else some (codeMark ++ labelCode label)
  written.filter (·.length ≤ labelLimit)

-- =============================================================== names

/-- A character in small letters. Two letters are small ones although they
fold. -/
def smallChar (c : Char) : Text :=
  if c = 'ß' || c = 'ς' then [c] else Text.foldChar c

/-- The points between labels. -/
def isLabelEnd (c : Char) : Bool := "。．｡".toList.contains c

/-- A host name in ASCII. A point may stand at its end. -/
def asciiName? (name : Text) : Option Text := do
  let points := (name.flatMap smallChar).map fun c => if isLabelEnd c then '.' else c
  let labels := Text.splitOn '.' points
  let atEnd := labels.getLast? == some []
  let labels ← (if atEnd then labels.dropLast else labels).mapM asciiLabel?
  let written := Text.joinWith "." labels
  if labels.isEmpty || hostNameLimit < written.length then none
  else some (if atEnd then written ++ ['.'] else written)

end FeedSieve.Url
