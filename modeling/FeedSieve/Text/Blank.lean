/-
White space.

A character is blank when Unicode counts it as white space or it is one of
the four information separators. Trimming removes blanks at the ends of a
text and the words of a text are its longest runs without blanks.
-/
import FeedSieve.Text.Basic

namespace FeedSieve.Text

/-- The first and last code points of the runs of white space. -/
def blankRuns : List (Nat × Nat) :=
  [(0x9, 0xd), (0x1c, 0x20), (0x85, 0x85), (0xa0, 0xa0), (0x1680, 0x1680),
   (0x2000, 0x200a), (0x2028, 0x2029), (0x202f, 0x202f), (0x205f, 0x205f),
   (0x3000, 0x3000)]

/-- Whether a character is white space. -/
def isBlank (c : Char) : Bool :=
  blankRuns.any fun (first, last) => first ≤ c.toNat && c.toNat ≤ last

/-- The text without blanks at its ends. -/
def trim (t : Text) : Text := strip isBlank t

/-- The longest runs without blanks, in order. -/
def words : Text → List Text
  | [] => []
  | c :: rest =>
      if isBlank c then words rest
      else match rest with
        | [] => [[c]]
        | d :: _ =>
            if isBlank d then [c] :: words rest
            else match words rest with
              | [] => [[c]]
              | w :: ws => (c :: w) :: ws

/-- The text with each run of blanks turned into one space. -/
def squeeze : Text → Text
  | [] => []
  | c :: rest =>
      if isBlank c then
        match rest with
        | [] => [' ']
        | d :: _ => if isBlank d then squeeze rest else ' ' :: squeeze rest
      else c :: squeeze rest

end FeedSieve.Text
