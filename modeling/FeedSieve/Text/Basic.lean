/-
Text as the list of its characters.

Every rule of this library that looks at text (a query, a feed document, a
settings file, a URL) reads it one character after another, and every
statement about such a rule is a statement about the characters read so
far and those to come. So text is kept as a list of characters from the
moment it enters to the moment it leaves, and recursion on text is
recursion on a list.

A character is a Unicode scalar value and texts are ordered by the code
points of their characters, first difference first: this is the order of
lists over the order of characters, and no normalization is applied.
-/
namespace FeedSieve

/-- Text: its characters from left to right. -/
abbrev Text := List Char

/-- A string literal stands for the text it spells. -/
instance : Coe String Text := ⟨String.toList⟩

/-- A list of bytes, as files and responses hold them. -/
abbrev Bytes := List UInt8

namespace Text

-- ================================================== putting together

/-- The texts one after another: how every message is put together. -/
def concat (parts : List Text) : Text := parts.flatten

/-- The texts in order with `sep` between neighbours. -/
def joinWith (sep : Text) : List Text → Text
  | [] => []
  | [t] => t
  | t :: u :: rest => t ++ sep ++ joinWith sep (u :: rest)

-- ========================================================== comparing

/-- Whether a text comes before another: by the first character in which
they differ, a beginning before the whole. -/
def before : Text → Text → Bool
  | _, [] => false
  | [], _ :: _ => true
  | a :: as, b :: bs => if a = b then before as bs else a < b

-- ====================================================== taking apart

/-- The text before the first `sep`, and what follows it if there is one. -/
def cut (sep : Char) : Text → Text × Option Text
  | [] => ([], none)
  | c :: rest =>
      if c = sep then ([], some rest)
      else let (before, after) := cut sep rest; (c :: before, after)

/-- The pieces between the occurrences of `sep`: one more than there are
occurrences. -/
def splitOn (sep : Char) : Text → List Text
  | [] => [[]]
  | c :: rest =>
      if c = sep then [] :: splitOn sep rest
      else match splitOn sep rest with
        | [] => [[c]]
        | piece :: pieces => (c :: piece) :: pieces

/-- What remains of the text after `start`, if it begins so. -/
def after? : (start text : Text) → Option Text
  | [], t => some t
  | _ :: _, [] => none
  | a :: as, b :: bs => if a = b then after? as bs else none

/-- Whether `text` begins with `start`. -/
def beginsWith (start text : Text) : Bool := (after? start text).isSome

/-- Whether `text` ends with `tail`. -/
def endsWith (tail text : Text) : Bool := beginsWith tail.reverse text.reverse

/-- Whether `needle` occurs in the text at some place. -/
def occursIn (needle : Text) : Text → Bool
  | [] => needle.isEmpty
  | c :: rest => beginsWith needle (c :: rest) || occursIn needle rest

/-- The text without the characters satisfying `p` at its two ends. -/
def strip (p : Char → Bool) (t : Text) : Text :=
  ((t.dropWhile p).reverse.dropWhile p).reverse

/-- The text without the characters satisfying `p` at its end. -/
def stripEnd (p : Char → Bool) (t : Text) : Text := (t.reverse.dropWhile p).reverse

-- ============================================================== ASCII

/-- A letter `A` to `Z` or `a` to `z`. -/
def isLetter (c : Char) : Bool := ('A' ≤ c && c ≤ 'Z') || ('a' ≤ c && c ≤ 'z')

/-- A digit `0` to `9`. -/
def isPlainDigit (c : Char) : Bool := '0' ≤ c && c ≤ '9'

/-- The value of a digit `0` to `9`. -/
def plainDigit? (c : Char) : Option Nat :=
  if isPlainDigit c then some (c.toNat - '0'.toNat) else none

/-- The value of a hexadecimal digit of either case. -/
def hexDigit? (c : Char) : Option Nat :=
  if isPlainDigit c then some (c.toNat - '0'.toNat)
  else if 'a' ≤ c && c ≤ 'f' then some (c.toNat - 'a'.toNat + 10)
  else if 'A' ≤ c && c ≤ 'F' then some (c.toNat - 'A'.toNat + 10)
  else none

/-- The ASCII capitals made small, everything else kept. -/
def lowerPlain (t : Text) : Text := t.map Char.toLower

/-- A hexadecimal numeral with small letters, at least `width` digits. -/
def hex (width n : Nat) : Text :=
  let digits := Nat.toDigits 16 n
  List.replicate (width - digits.length) '0' ++ digits

/-- A hexadecimal numeral with capital letters, at least `width` digits. -/
def hexCapital (width n : Nat) : Text := (hex width n).map Char.toUpper

/-- A decimal numeral of at least `width` digits. -/
def padded (width n : Nat) : Text :=
  let digits := Nat.toDigits 10 n
  List.replicate (width - digits.length) '0' ++ digits

/-- The decimal numeral of a natural number. -/
def ofNat (n : Nat) : Text := Nat.toDigits 10 n

/-- The decimal numeral of an integer. -/
def ofInt : Int → Text
  | .ofNat n => ofNat n
  | .negSucc n => '-' :: ofNat (n + 1)

end Text

end FeedSieve
