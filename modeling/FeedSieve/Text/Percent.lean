/-
Percent escapes.

A percent sign with two hexadecimal digits stands for a byte. Reading turns
every such escape into its byte and every other character into its UTF-8
bytes, and reads the bytes as text, bad ones as U+FFFD; an escape that is
not well formed is kept as it stands. Writing escapes every byte that is
not in a set of safe characters.
-/
import FeedSieve.Text.Utf8

namespace FeedSieve.Percent

/-- The bytes a text stands for. -/
def bytes : Text → Bytes
  | [] => []
  | '%' :: a :: b :: rest =>
      match Text.hexDigit? a, Text.hexDigit? b with
      | some x, some y => (16 * x + y).toUInt8 :: bytes rest
      | _, _ => 0x25 :: bytes (a :: b :: rest)
  | c :: rest => Utf8.encodeChar c ++ bytes rest

/-- The text with its escapes read. -/
def decode (t : Text) : Text := Utf8.decodeLossy (bytes t)

/-- One byte as an escape. -/
def escape (b : UInt8) : Text := '%' :: Text.hexCapital 2 b.toNat

/-- The text with every character escaped that is not safe. -/
def encode (isSafe : Char → Bool) (t : Text) : Text :=
  t.flatMap fun c => if isSafe c then [c] else (Utf8.encodeChar c).flatMap escape

/-- Whether the text begins with an escape. -/
def isEscape : Text → Bool
  | '%' :: a :: b :: _ => (Text.hexDigit? a).isSome && (Text.hexDigit? b).isSome
  | _ => false

end FeedSieve.Percent
