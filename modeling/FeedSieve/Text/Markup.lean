/-
Console markup.

The console reads `[` with a letter or one of `#`, `/`, `@` behind it, up
to the next `]`, as a tag. A backslash before a tag takes its meaning away,
and two stand for one. Text that is to be shown as it is has every tag in
it escaped: one more backslash, and those before it doubled. A backslash at
the very end would escape the tag that the program puts next, so it is
doubled as well.

`plain` is what the console shows of a text with markup.
-/
import FeedSieve.Text.Basic

namespace FeedSieve.Markup

/-- Whether a character may be the first of a tag. -/
def startsTag (c : Char) : Bool := ('a' ≤ c && c ≤ 'z') || c = '#' || c = '/' || c = '@'

/-- Whether what follows a `[` makes it a tag: a proper first character,
and a `]` before any other `[`. -/
def opensTag : Text → Bool
  | [] => false
  | c :: rest =>
      startsTag c && ((rest.dropWhile fun d => d != '[' && d != ']').head? == some ']')

/-- The text with its tags escaped; `slashes` backslashes come right before. -/
def escapeTags (slashes : Nat) : Text → Text
  | [] => []
  | c :: rest =>
      if c = '\\' then c :: escapeTags (slashes + 1) rest
      else if c = '[' && opensTag rest then
        List.replicate (slashes + 1) '\\' ++ c :: escapeTags 0 rest
      else c :: escapeTags 0 rest

/-- Whether a text ends in a single backslash. -/
def hangs (t : Text) : Bool := Text.endsWith "\\" t && !Text.endsWith "\\\\" t

/-- The text as markup that shows it. -/
def escape (t : Text) : Text :=
  let escaped := escapeTags 0 t
  if hangs escaped then escaped ++ ['\\'] else escaped

/-- What is shown of a text with markup; `slashes` backslashes come right
before, and `inTag` says whether it begins within a tag. Before a tag two
backslashes stand for one, and an odd one makes it plain text. -/
def plainFrom (inTag : Bool) (slashes : Nat) : Text → Text
  | [] => List.replicate slashes '\\'
  | c :: rest =>
      if inTag then plainFrom (c != ']') 0 rest
      else if c = '\\' then plainFrom false (slashes + 1) rest
      else if c = '[' && opensTag rest then
        let shown := List.replicate (slashes / 2) '\\'
        if slashes % 2 = 1 then shown ++ c :: plainFrom false 0 rest
        else shown ++ plainFrom true 0 rest
      else List.replicate slashes '\\' ++ c :: plainFrom false 0 rest

/-- What is shown of a text with markup. -/
def plain (t : Text) : Text := plainFrom false 0 t

end FeedSieve.Markup
