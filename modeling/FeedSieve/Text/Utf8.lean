/-
UTF-8.

A character is written in one to four bytes. Reading is strict: overlong
forms, surrogates and code points past the last one are not characters.
What cannot be read is described by a fault: how many bytes are given up,
and why. The bytes given up are the longest beginning that some character
could have had, so reading resumes as early as it can.

There are two readers over one step. The strict one stops at the first
fault and says where it was; the lenient one puts U+FFFD for every fault
and goes on.
-/
import FeedSieve.Text.Basic

namespace FeedSieve.Utf8

-- ============================================================ writing

/-- The bytes of one character. -/
def encodeChar (c : Char) : Bytes :=
  let n := c.toNat
  let tail (unit : Nat) : UInt8 := (0x80 + n / unit % 64).toUInt8
  if n < 0x80 then [n.toUInt8]
  else if n < 0x800 then [(0xc0 + n / 64).toUInt8, tail 1]
  else if n < 0x10000 then [(0xe0 + n / 4096).toUInt8, tail 64, tail 1]
  else [(0xf0 + n / 262144).toUInt8, tail 4096, tail 64, tail 1]

/-- The bytes of a text. -/
def encode (t : Text) : Bytes := t.flatMap encodeChar

/-- The number of bytes a text takes. -/
def size (t : Text) : Nat := (encode t).length

-- ============================================================ reading

/-- Why bytes are not a character. -/
inductive Fault where
  /-- No character begins with this byte. -/
  | start
  /-- A byte that should continue a character does not. -/
  | continuation
  /-- The bytes end within a character. -/
  | ending
deriving Repr, DecidableEq

/-- What a fault is called. -/
def Fault.name : Fault → Text
  | .start => "invalid start byte"
  | .continuation => "invalid continuation byte"
  | .ending => "unexpected end of data"

/-- What the first bytes are: a character, or bytes to give up. -/
inductive Step where
  /-- A character, written in `size` bytes. -/
  | char (c : Char) (size : Nat)
  /-- No character: `size` bytes are given up. -/
  | fault (size : Nat) (why : Fault)
deriving Repr, DecidableEq

/-- Whether a byte continues a character. -/
def isTail (b : UInt8) : Bool := 0x80 ≤ b && b < 0xc0

/-- The six bits a continuing byte carries. -/
def tailBits (b : UInt8) : Nat := b.toNat % 64

/-- Whether `second` may follow `first` in a character: besides being a
continuing byte it must rule out overlong forms, surrogates and code points
past the last. -/
def admits (first second : UInt8) : Bool :=
  isTail second &&
    (if first = 0xe0 then 0xa0 ≤ second
     else if first = 0xed then second < 0xa0
     else if first = 0xf0 then 0x90 ≤ second
     else if first = 0xf4 then second < 0x90
     else true)

/-- Reads one character off bytes that begin with `first`. -/
def step (first : UInt8) (rest : Bytes) : Step :=
  let head := first.toNat
  if first < 0x80 then .char (Char.ofNat head) 1
  else if first < 0xc2 || 0xf5 ≤ first then .fault 1 .start
  else match rest with
    | [] => .fault 1 .ending
    | b :: rest =>
      if !admits first b then .fault 1 .continuation
      else if first < 0xe0 then .char (Char.ofNat (head % 32 * 64 + tailBits b)) 2
      else match rest with
        | [] => .fault 2 .ending
        | c :: rest =>
          if !isTail c then .fault 2 .continuation
          else
            let upTo := tailBits b * 64 + tailBits c
            if first < 0xf0 then .char (Char.ofNat (head % 16 * 4096 + upTo)) 3
            else match rest with
              | [] => .fault 3 .ending
              | d :: _ =>
                if !isTail d then .fault 3 .continuation
                else .char (Char.ofNat (head % 8 * 262144 + upTo * 64 + tailBits d)) 4

/-- Where and why strict reading stopped. -/
structure Undecodable where
  /-- The byte that could not be read. -/
  byte : UInt8
  position : Nat
  /-- The number of bytes at fault. -/
  size : Nat
  /-- What is wrong with them. -/
  why : Fault
deriving Repr, DecidableEq

/-- The strict reader: `skip` bytes of the character before are still to be
passed over, and `position` bytes lie behind. -/
def decodeFrom (skip position : Nat) (done : Text) : Bytes → Except Undecodable Text
  | [] => .ok done.reverse
  | first :: rest =>
    match skip with
    | skip + 1 => decodeFrom skip (position + 1) done rest
    | 0 =>
      match step first rest with
      | .char c size => decodeFrom (size - 1) (position + 1) (c :: done) rest
      | .fault size why => .error ⟨first, position, size, why⟩

/-- The text that bytes spell. -/
def decode (bytes : Bytes) : Except Undecodable Text := decodeFrom 0 0 [] bytes

/-- The lenient reader; `skip` as for the strict one. -/
def decodeLossyFrom (skip : Nat) (done : Text) : Bytes → Text
  | [] => done.reverse
  | first :: rest =>
    match skip with
    | skip + 1 => decodeLossyFrom skip done rest
    | 0 =>
      match step first rest with
      | .char c size => decodeLossyFrom (size - 1) (c :: done) rest
      | .fault size _ => decodeLossyFrom (size - 1) ('\uFFFD' :: done) rest

/-- The text that bytes spell, with U+FFFD for what cannot be read. -/
def decodeLossy (bytes : Bytes) : Text := decodeLossyFrom 0 [] bytes

/-- The message about bytes that are not UTF-8. -/
def Undecodable.message (u : Undecodable) : Text :=
  if u.size = 1 then
    Text.concat ["'utf-8' codec can't decode byte 0x", Text.hex 2 u.byte.toNat,
      " in position ", Text.ofNat u.position, ": ", u.why.name]
  else
    Text.concat ["'utf-8' codec can't decode bytes in position ", Text.ofNat u.position, "-",
      Text.ofNat (u.position + u.size - 1), ": ", u.why.name]

end FeedSieve.Utf8
