/-
Positions in a settings document.

Where something stands decides what it means: how far it is indented, and
whether it is still on the line on which something else began. So reading
goes on from a cursor, which knows what is still to be read and its line
and column. The readers of scalars look at text alone; the cursor then
moves on to what they leave.

The end of the document shows as the character of number zero, which no
document contains.
-/
import FeedSieve.Text.Digits
import FeedSieve.Text.Quoted
import FeedSieve.Number.Word

namespace FeedSieve.Yaml

/-- What is wrong with a document, or with a value in it. -/
inductive Fault where
  /-- It is malformed, or has a value of a sort that is not known. -/
  | malformed
  /-- An escape for a character that there is not. -/
  | noCharacter (code : Nat)
  /-- A truth value that is none. -/
  | notBool (word : Text)
  /-- A number without a first character. -/
  | emptyNumber
  /-- An integer that is none. -/
  | notInteger (base : Nat) (digits : Text)
  /-- An integer with more digits than are read. -/
  | tooLong (digits : Nat)
  /-- A number that is none. -/
  | notNumber (word : Text)
  /-- A number in sixties with more places than doubles reach to. -/
  | tooManyPlaces
  /-- A point in time that is none by its form. -/
  | notTimestamp
  /-- A point in time that does not exist, and why. -/
  | noMoment (why : Text)
deriving Repr, DecidableEq

/-- The wording. -/
def Fault.message : Fault → Text
  | malformed => "malformed document"
  | noCharacter code =>
      if code < Number.shortEnd then "chr() arg not in range(0x110000)"
      else "Python int too large to convert to C int"
  | notBool word => Text.quoted word
  | emptyNumber => "string index out of range"
  | notInteger base digits => Text.concat
      ["invalid literal for int() with base ", Text.ofNat base, ": ", Text.quoted digits]
  | tooLong digits => Text.tooLongMessage digits
  | notNumber word => "could not convert string to float: ".toList ++ Text.quoted word
  | tooManyPlaces => "int too large to convert to float"
  | notTimestamp => "'NoneType' object has no attribute 'groupdict'"
  | noMoment why => why

-- ============================================================ classes

/-- A character that ends a line. -/
def isBreak (c : Char) : Bool := c = '\n' || c = '\x85' || c = '\u2028' || c = '\u2029'

/-- A space or a tab. -/
def isBlank (c : Char) : Bool := c = ' ' || c = '\t'

/-- The end of a line or of the document. -/
def endsLine (c : Char) : Bool := c = '\x00' || isBreak c

/-- A space, or the end of a line or of the document. -/
def endsWord (c : Char) : Bool := c = ' ' || endsLine c

/-- A blank, or the end of a line or of the document. -/
def endsToken (c : Char) : Bool := isBlank c || endsLine c

/-- What a character that ends a line becomes in a value. -/
def breakText (c : Char) : Char := if c = '\u2028' || c = '\u2029' then c else '\n'

/-- A character of names: a letter, a digit, or one of two marks. -/
def isNameChar (c : Char) : Bool :=
  Text.isLetter c || Text.isPlainDigit c || c = '-' || c = '_'

/-- The first character of what is left; its end shows as zero. -/
def first (t : Text) : Char := t.headD '\x00'

/-- Whether three marks that separate documents stand at the beginning. -/
def isSeparator (mark : Char) : Text → Bool
  | a :: b :: c :: rest => a = mark && b = mark && c = mark && endsToken (first rest)
  | _ => false

/-- Whether a line begins with marks that end a document. -/
def endsDocument (t : Text) : Bool := isSeparator '-' t || isSeparator '.' t

-- ============================================================ cursors

/-- A position. -/
structure Cursor where
  /-- What is still to be read. -/
  rest : Text
  /-- How many characters have been read. -/
  index : Nat
  /-- The line, from 0. -/
  line : Nat
  /-- The column, from 0. -/
  column : Nat
deriving Repr, DecidableEq

namespace Cursor

/-- The beginning of a document. -/
def start (t : Text) : Cursor := ⟨t, 0, 0, 0⟩

/-- Past one character. A byte order mark takes up no column. -/
def next (c : Cursor) : Cursor :=
  match c.rest with
  | [] => c
  | x :: rest =>
      if isBreak x then ⟨rest, c.index + 1, c.line + 1, 0⟩
      else ⟨rest, c.index + 1, c.line, if x = '\uFEFF' then c.column else c.column + 1⟩

/-- Past a number of characters. -/
def skip (c : Cursor) : Nat → Cursor
  | 0 => c
  | n + 1 => c.next.skip n

/-- On to the point where only `rest` is left. -/
def upTo (c : Cursor) (rest : Text) : Cursor := c.skip (c.rest.length - rest.length)

/-- The character at the cursor. -/
def peek (c : Cursor) : Char := first c.rest

/-- The character behind the one at the cursor. -/
def peekNext (c : Cursor) : Char := first (c.rest.drop 1)

end Cursor

/-- Takes steps until one of them has a result; there are not more of them
than `limit`. -/
def steps {σ ρ : Type} (limit : Nat) (step : σ → Except Fault (σ ⊕ ρ)) (s : σ) : Except Fault ρ :=
  match limit with
  | 0 => .error .malformed
  | limit + 1 =>
      match step s with
      | .error fault => .error fault
      | .ok (.inr result) => .ok result
      | .ok (.inl s) => steps limit step s

end FeedSieve.Yaml
