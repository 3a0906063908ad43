/-
What the console shows.

A line is put together from pieces. Some are the program's own and hold
markup; the others are texts from somewhere else, to be shown as they are,
and are escaped when the line is written down. Lines make up tables and
panels; a bar shows how much of a job is done.
-/
import FeedSieve.Text.Markup

namespace FeedSieve.Console

/-- A piece of a line. -/
inductive Piece where
  /-- Markup, written as it is. -/
  | raw (markup : Text)
  /-- Text, shown as it is. -/
  | text (t : Text)
deriving Repr, DecidableEq

/-- A piece as markup. -/
def Piece.markup : Piece → Text
  | raw markup => markup
  | text t => Markup.escape t

/-- A line. -/
abbrev Line := List Piece

/-- A line as markup. -/
def Line.markup (line : Line) : Text := line.flatMap Piece.markup

/-- A piece of the program's own. -/
def raw (markup : Text) : Piece := .raw markup

/-- What is shown. -/
inductive Shown where
  | line (l : Line)
  /-- A table: its title, the heads of its columns, its rows. -/
  | table (title : Line) (columns : List Text) (rows : List (List Line))
  /-- A text in a frame. -/
  | panel (l : Line)
  /-- A bar, when it is taken away: how much is done, and of how much. -/
  | bar (done total : Nat)
deriving Repr, DecidableEq

/-- What is shown as markup. -/
def Shown.markup : Shown → Text
  | line l | panel l => l.markup
  | table title _ rows => title.markup ++ rows.flatten.flatMap Line.markup
  | bar .. => []

/-- A line between the marks of a colour. -/
def inColour (colour : Text) (line : Line) : Shown :=
  .line (raw (Text.concat ["[", colour, "]"]) ::
    line ++ [raw (Text.concat ["[/", colour, "]"])])

/-- What is seen of a line. -/
def Line.plain (line : Line) : Text := Markup.plain (Line.markup line)

/-- What is seen on a console without colours and frames. -/
def Shown.plain : Shown → Text
  | line l => Line.plain l ++ ['\n']
  | table title columns rows =>
      let row (cells : List Text) : Text := Text.joinWith "  " cells ++ ['\n']
      Text.concat (Line.plain title :: ['\n'] :: row columns ::
        rows.map fun cells => row (cells.map Line.plain))
  | panel l => Line.plain l ++ ['\n']
  | bar done total => Text.concat [Text.ofNat done, "/", Text.ofNat total, "\n"]

end FeedSieve.Console
