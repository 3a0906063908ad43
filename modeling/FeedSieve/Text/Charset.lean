/-
Character sets of documents.

Besides UTF-8 there are sets of one byte a character and the forms of UTF-16
and UTF-32; in two of these a mark at the beginning tells the order of the
bytes. Bytes that a set does not know make the whole document
unreadable in it; then another set may be tried.

The windows set fills the places between 0x80 and 0x9f that others leave to
controls. Text in which such controls appear was meant in that set, and
text all of whose characters are bytes that make up UTF-8 was meant so;
`mended` undoes both accidents.
-/
import FeedSieve.Text.CharsetTable
import FeedSieve.Text.Utf8

namespace FeedSieve.Charset

/-- A character set. -/
inductive Encoding where
  | utf8
  | ascii
  /-- One byte a character; `upper` lists the code points from 0x80 on. -/
  | single (upper : List Nat)
  | utf16 (bigEndian : Bool)
  | utf32 (bigEndian : Bool)
  /-- UTF-16 in the order that a mark tells. -/
  | marked16
  /-- UTF-32 in the order that a mark tells. -/
  | marked32
deriving Repr, DecidableEq

/-- The windows set that is tried when nothing is known. -/
def Encoding.windows : Encoding := .single windowsWesternTable

/-- The set that is tried last. -/
def Encoding.latin2 : Encoding := .single latin2Table

/-- The sets and their names, in small letters with underscores between words. -/
def names : List (Encoding × List String) :=
  [(.utf8, ["utf_8", "cp65001", "u8", "utf", "utf8", "utf8_ucs2", "utf8_ucs4"]),
   (.ascii, ["ascii", "646", "ansi_x3.4_1968", "ansi_x3.4_1986", "ansi_x3_4_1968", "cp367",
      "csascii", "ibm367", "iso646_us", "iso_646.irv_1991", "iso_ir_6", "us", "us_ascii"]),
   (.single latin1Table, ["latin_1", "8859", "cp819", "csisolatin1", "ibm819", "iso8859",
      "iso8859_1", "iso_8859_1", "iso_8859_1_1987", "iso_ir_100", "l1", "latin", "latin1"]),
   (.single latin2Table, ["iso8859_2", "csisolatin2", "iso_8859_2", "iso_8859_2_1987",
      "iso_ir_101", "l2", "latin2"]),
   (.single cyrillicTable, ["iso8859_5", "csisolatincyrillic", "cyrillic", "iso_8859_5",
      "iso_8859_5_1988", "iso_ir_144"]),
   (.single greekTable, ["iso8859_7", "csisolatingreek", "ecma_118", "elot_928", "greek",
      "greek8", "iso_8859_7", "iso_8859_7_1987", "iso_ir_126"]),
   (.single latin5Table, ["iso8859_9", "csisolatin5", "iso_8859_9", "iso_8859_9_1989",
      "iso_ir_148", "l5", "latin5"]),
   (.single latin9Table, ["iso8859_15", "iso_8859_15", "l9", "latin9"]),
   (.single windowsCentralTable, ["cp1250", "1250", "windows_1250"]),
   (.single windowsCyrillicTable, ["cp1251", "1251", "windows_1251"]),
   (.single windowsWesternTable, ["cp1252", "1252", "windows_1252"]),
   (.single koi8Table, ["koi8_r", "cskoi8r"]),
   (.marked16, ["utf_16", "u16", "utf16"]),
   (.utf16 false, ["utf_16_le", "unicodelittleunmarked", "utf_16le"]),
   (.utf16 true, ["utf_16_be", "unicodebigunmarked", "utf_16be"]),
   (.marked32, ["utf_32", "u32", "utf32"]),
   (.utf32 false, ["utf_32_le", "utf_32le"]),
   (.utf32 true, ["utf_32_be", "utf_32be"])]

/-- Whether a character belongs to a word of a name. -/
def inWord (c : Char) : Bool := Text.isLetter c || Text.isPlainDigit c || c = '.'

/-- The words of a name. -/
def wordsOf (name : Text) : List Text :=
  (Text.splitOn ' ' (name.map fun c => if inWord c then c else ' ')).filter (!·.isEmpty)

/-- The set that a name stands for. -/
def ofName? (name : Text) : Option Encoding :=
  let name := Text.joinWith "_" (wordsOf (Text.lowerPlain name))
  let undotted := name.map fun c => if c = '.' then '_' else c
  (names.find? fun entry =>
    entry.2.any fun known => known.toList == name || known.toList == undotted).map (·.1)

/-- The character with a code point, if there is one. -/
def char? (n : Nat) : Option Char := if n.isValidChar then some (Char.ofNat n) else none

/-- The number that two bytes make. -/
def pair (bigEndian : Bool) (a b : UInt8) : Nat :=
  if bigEndian then a.toNat * 256 + b.toNat else b.toNat * 256 + a.toNat

/-- Reads units of sixteen bits, two for the characters beyond. -/
def decode16? (bigEndian : Bool) : Bytes → Option Text
  | [] => some []
  | a :: b :: c :: d :: rest =>
      let first := pair bigEndian a b
      let second := pair bigEndian c d
      if 0xd800 ≤ first && first < 0xdc00 then
        if 0xdc00 ≤ second && second < 0xe000 then do
          let char ← char? (0x10000 + (first - 0xd800) * 1024 + (second - 0xdc00))
          return char :: (← decode16? bigEndian rest)
        else none
      else do return (← char? first) :: (← decode16? bigEndian (c :: d :: rest))
  | [a, b] => (char? (pair bigEndian a b)).map fun c => [c]
  | _ => none

/-- Reads units of thirty-two bits. -/
def decode32? (bigEndian : Bool) : Bytes → Option Text
  | [] => some []
  | a :: b :: c :: d :: rest => do
      let unit := if bigEndian then pair true a b * 65536 + pair true c d
        else pair false c d * 65536 + pair false a b
      return (← char? unit) :: (← decode32? bigEndian rest)
  | _ => none

/-- A character of a set with one byte a character. -/
def singleChar? (upper : List Nat) (b : UInt8) : Option Char :=
  if b < 0x80 then some (Char.ofNat b.toNat)
  else match upper.getD (b.toNat - 0x80) 0 with
    | 0 => none
    | code => some (Char.ofNat code)

/-- Reads UTF-16 in the order that a mark tells, small end first if none does. -/
def decodeMarked16? : Bytes → Option Text
  | 0xfe :: 0xff :: rest => decode16? true rest
  | 0xff :: 0xfe :: rest => decode16? false rest
  | bytes => decode16? false bytes

/-- Reads UTF-32 likewise. -/
def decodeMarked32? : Bytes → Option Text
  | 0 :: 0 :: 0xfe :: 0xff :: rest => decode32? true rest
  | 0xff :: 0xfe :: 0 :: 0 :: rest => decode32? false rest
  | bytes => decode32? false bytes

/-- The text that bytes spell in a set. -/
def Encoding.decode? (set : Encoding) (bytes : Bytes) : Option Text :=
  match set with
  | .utf8 => (Utf8.decode bytes).toOption
  | .ascii =>
      if bytes.all (· < 0x80) then some (bytes.map fun b => Char.ofNat b.toNat) else none
  | .single upper => bytes.mapM (singleChar? upper)
  | .utf16 bigEndian => decode16? bigEndian bytes
  | .utf32 bigEndian => decode32? bigEndian bytes
  | .marked16 => decodeMarked16? bytes
  | .marked32 => decodeMarked32? bytes

/-- The text meant by a text all of whose characters are bytes of UTF-8. -/
def undoubled (t : Text) : Text :=
  if t.all (·.toNat < 0x100) then
    match Utf8.decode (t.map fun c => c.toNat.toUInt8) with
    | .ok meant => meant
    | .error _ => t
  else t

/-- A control character that was meant in the windows set. -/
def meantChar (c : Char) : Char :=
  if 0x80 ≤ c.toNat && c.toNat < 0xa0 then
    match windowsWesternTable.getD (c.toNat - 0x80) 0 with
    | 0 => c
    | code => Char.ofNat code
  else c

/-- The text that was meant. -/
def mended (t : Text) : Text := (undoubled t).map meantChar

end FeedSieve.Charset
