/-
Writing scalars into a settings document.

A text is written plain if it reads back as text that way. Otherwise it
goes in single quotes, and if it has characters that are not visible ASCII,
or blanks where lines may be folded, in double quotes. Long texts are folded
at single spaces, and those in double quotes anywhere between spaces, as
soon as a line has more than eighty columns; the further lines are
indented.
-/
import FeedSieve.Number.Decimal
import FeedSieve.Yaml.Cursor
import FeedSieve.Yaml.Tag

namespace FeedSieve.Yaml

/-- The columns after which lines are folded. -/
def bestWidth : Nat := 80

/-- How far the further lines of a scalar are indented. -/
def foldIndent : Nat := 4

/-- The beginning of a further line. -/
def folded : Text := '\n' :: List.replicate foldIndent ' '

-- ============================================================== styles

/-- How a text can be written. -/
inductive Style where
  | plain | single | double
deriving Repr, DecidableEq

/-- A character that is written as it is: visible ASCII or a line end. -/
def isOrdinary (c : Char) : Bool := c = '\n' || (' ' ≤ c && c ≤ '~')

/-- Whether two neighbours can be found in a text. -/
def hasNeighbours (p q : Char → Bool) (t : Text) : Bool :=
  (t.zip (t.drop 1)).any fun (a, b) => p a && q b

/-- Whether a text has marks that would be taken for something else. -/
def hasMarks (t : Text) : Bool :=
  let c := first t
  let after := first (t.drop 1)
  Text.beginsWith "---" t || Text.beginsWith "..." t ||
    "#,[]\x7b\x7d&*!|>'\"%@`".toList.contains c ||
    ((c = '?' || c = '-') && endsToken after) ||
    hasNeighbours (· = ':') endsToken (t ++ ['\x00']) ||
    hasNeighbours endsToken (· = '#') t

/-- Whether a text is visible ASCII on one line, without blanks at its ends
and without marks. -/
def isPlainText (t : Text) : Bool :=
  t.all (fun c => isOrdinary c && c != '\n') && t.head? != some ' ' && t.getLast? != some ' ' &&
    !hasMarks t

/-- Whether the lines of a text are visible ASCII without blanks at the line
ends. -/
def isQuotable (t : Text) : Bool :=
  t.all isOrdinary && !hasNeighbours (· = '\n') (· = ' ') t && !hasNeighbours (· = ' ') (· = '\n') t

/-- How a text is written. -/
def styleOf (t : Text) : Style :=
  if isPlainText t && Tag.ofForm t = .text then .plain
  else if isQuotable t then .single
  else .double

-- ============================================================= writing

/-- A run of characters of one sort. -/
inductive Run where
  | word (t : Text)
  | spaces (count : Nat)
  | breaks (count : Nat)
deriving Repr, DecidableEq

/-- Puts a character before runs. -/
def consRun (c : Char) (runs : List Run) : List Run :=
  if c = ' ' then
    match runs with
    | .spaces n :: rest => .spaces (n + 1) :: rest
    | runs => .spaces 1 :: runs
  else if c = '\n' then
    match runs with
    | .breaks n :: rest => .breaks (n + 1) :: rest
    | runs => .breaks 1 :: runs
  else match runs with
    | .word t :: rest => .word (c :: t) :: rest
    | runs => .word [c] :: runs

/-- The runs of a text. -/
def runsOf (t : Text) : List Run := t.foldr consRun []

/-- Writes runs from a column on. `opening` says whether these are all. -/
def writeRuns (isSingle : Bool) (column : Nat) (opening : Bool) : List Run → Text
  | [] => []
  | .word t :: rest =>
      let t := if isSingle then t.flatMap fun c => if c = '\'' then ['\'', '\''] else [c] else t
      t ++ writeRuns isSingle (column + t.length) false rest
  | .spaces n :: rest =>
      let inner := !isSingle || (!opening && !rest.isEmpty)
      if n = 1 && bestWidth < column && inner then
        folded ++ writeRuns isSingle foldIndent false rest
      else List.replicate n ' ' ++ writeRuns isSingle (column + n) false rest
  | .breaks n :: rest =>
      List.replicate n '\n' ++ folded ++ writeRuns isSingle foldIndent false rest

/-- The letters behind an escape sign that stand for characters. -/
def escapeLetters : List (Char × Char) :=
  [('\x00', '0'), ('\x07', 'a'), ('\x08', 'b'), ('\t', 't'), ('\n', 'n'), ('\x0b', 'v'),
   ('\x0c', 'f'), ('\r', 'r'), ('\x1b', 'e'), ('"', '"'), ('\\', '\\'), ('\x85', 'N'),
   ('\xa0', '_'), ('\u2028', 'L'), ('\u2029', 'P')]

/-- The escape for a character that is not visible ASCII, or has a meaning. -/
def escape? (c : Char) : Option Text :=
  match escapeLetters.lookup c with
  | some letter => some ['\\', letter]
  | none =>
      if ' ' ≤ c && c ≤ '~' then none
      else if c.toNat < 0x100 then some ('\\' :: 'x' :: Text.hexCapital 2 c.toNat)
      else if c.toNat < 0x10000 then some ('\\' :: 'u' :: Text.hexCapital 4 c.toNat)
      else some ('\\' :: 'U' :: Text.hexCapital 8 c.toNat)

/-- Writes a text between double quotes from a column on. `opening` says
whether this is all of it, `fresh` whether an escape comes right before. -/
def writeDouble (column : Nat) (opening fresh : Bool) : Text → Text
  | [] => []
  | c :: rest =>
      let inner := !opening && !rest.isEmpty
      match escape? c with
      | some e =>
          let column := column + e.length
          if inner && bestWidth < column - 1 then
            let guard : Text := if first rest = ' ' then ['\\'] else []
            e ++ '\\' :: folded ++ guard ++ writeDouble (foldIndent + guard.length) false true rest
          else e ++ writeDouble column false true rest
      | none =>
          if inner && (c = ' ' || fresh) && bestWidth < column then
            let guard : Text := if c = ' ' then ['\\'] else []
            '\\' :: folded ++ guard ++
              c :: writeDouble (foldIndent + guard.length + 1) false false rest
          else c :: writeDouble (column + 1) false false rest

/-- Writes a text from a column on. -/
def writeText (column : Nat) (t : Text) : Text :=
  match styleOf t with
  | .plain => writeRuns false column true (runsOf t)
  | .single => '\'' :: writeRuns true (column + 1) true (runsOf t) ++ ['\'']
  | .double => '"' :: writeDouble (column + 1) true false t ++ ['"']

/-- Writes a double: the shortest form, but with a point before an exponent. -/
def writeDoubleNumber : Number.Double → Text
  | .infinite negative => if negative then "-.inf" else ".inf"
  | .nan => ".nan"
  | d =>
      let t := d.shortest
      if t.contains '.' then t
      else t.flatMap fun c => if c = 'e' then ".0e" else [c]

end FeedSieve.Yaml
