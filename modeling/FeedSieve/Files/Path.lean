/-
Paths.

A path is a list of names, either from the root or from the directory at
hand. Writing it down and reading it back drops what makes no difference:
repeated slashes, single points, a slash at the end. Two points are kept,
since what lies behind them depends on links. Exactly two slashes at the
beginning are a root of their own.
-/
import FeedSieve.Text.Basic

namespace FeedSieve.Files

/-- Where a path begins. -/
inductive Root where
  /-- At the directory at hand. -/
  | here
  /-- At the root. -/
  | top
  /-- At the other root. -/
  | other
deriving Repr, DecidableEq

/-- A path. -/
structure Path where
  /-- Where it begins. -/
  root : Root
  /-- The names along it. -/
  parts : List Text
deriving Repr, DecidableEq

namespace Path

/-- How the root is written. -/
def rootText : Root → Text
  | .here => []
  | .top => "/"
  | .other => "//"

/-- Where a written path begins. -/
def rootOf : Text → Root
  | ['/', '/'] => .other
  | '/' :: '/' :: c :: _ => if c = '/' then .top else .other
  | '/' :: _ => .top
  | _ => .here

/-- The names of a written path that make a difference. -/
def namesOf (t : Text) : List Text :=
  (Text.splitOn '/' t).filter fun name => !name.isEmpty && name != ['.']

/-- Reads a path. -/
def ofText (t : Text) : Path := ⟨rootOf t, namesOf t⟩

/-- Writes a path; the directory at hand is a point. -/
def text (p : Path) : Text :=
  let body := rootText p.root ++ Text.joinWith "/" p.parts
  if body.isEmpty then "." else body

/-- The last name; empty if there is none. -/
def name (p : Path) : Text := p.parts.getLast?.getD []

/-- The path without its last name. -/
def parent (p : Path) : Path := { p with parts := p.parts.dropLast }

/-- The path to a name within a directory. -/
def child (p : Path) (name : Text) : Path := { p with parts := p.parts ++ [name] }

/-- A path continued by another, unless that one begins at a root. -/
def append (p q : Path) : Path :=
  if q.root = .here then { p with parts := p.parts ++ q.parts } else q

/-- The path with another last name. -/
def withName (p : Path) (name : Text) : Path := p.parent.child name

end Path

end FeedSieve.Files
