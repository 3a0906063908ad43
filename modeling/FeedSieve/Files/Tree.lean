/-
The file system.

It is a tree of directories with files in them, kept as a list of places
and what is there. A place is the list of names that lead to it from the
root, and the directory at hand is one place below the root. A path is
walked name by name: two points lead back, every other name must be one of a
directory, except that the last may be free.

Files hold bytes and a mode. Directories hold nothing themselves; what is in
them are the places one name longer.
-/
import FeedSieve.Files.Error
import FeedSieve.Ordered
import FeedSieve.Text.Utf8

namespace FeedSieve.Files

/-- A place in the tree. -/
abbrev Place := List Text

/-- What can be at a place. -/
inductive Node where
  | directory
  | file (content : Bytes) (mode : Nat)
deriving Repr, DecidableEq

/-- The mode of files that nobody gave another. -/
def plainMode : Nat := 0o644

/-- The mode of files that are nobody else's business. -/
def privateMode : Nat := 0o600

/-- The places that hold something, besides the root. -/
structure Tree where
  nodes : List (Place × Node)
deriving Repr, DecidableEq

namespace Tree

/-- The place of the directory at hand. -/
def here : Place := ["here"]

/-- A tree in which the directory at hand is empty. -/
def empty : Tree := ⟨[(here, .directory)]⟩

/-- What is at a place. -/
def at? (t : Tree) (place : Place) : Option Node :=
  if place.isEmpty then some .directory else t.nodes.lookup place

/-- The tree with something else at a place. -/
def set (t : Tree) (place : Place) (node : Node) : Tree :=
  if t.nodes.any (·.1 == place) then
    ⟨t.nodes.map fun n => if n.1 == place then (place, node) else n⟩
  else ⟨t.nodes ++ [(place, node)]⟩

/-- The tree with nothing at a place. -/
def clear (t : Tree) (place : Place) : Tree := ⟨t.nodes.filter (·.1 != place)⟩

-- ============================================================= walking

/-- The most bytes of a name. -/
def nameLimit : Nat := 255

/-- The most bytes of a path, with the end mark. -/
def pathLimit : Nat := 4096

/-- Walks names from a place on. All but the last must lead to directories. -/
def walk (t : Tree) (place : Place) : List Text → Except Reason Place
  | [] => .ok place
  | name :: rest =>
      let next : Except Reason Place :=
        if name = "..".toList then .ok place.dropLast
        else if nameLimit < Utf8.size name then .error .nameTooLong
        else .ok (place ++ [name])
      match next with
      | .error reason => .error reason
      | .ok next =>
          if rest.isEmpty then .ok next
          else match t.at? next with
            | some .directory => walk t next rest
            | some (.file ..) => .error .notDirectory
            | none => .error .missing

/-- The place of a path. -/
def place (t : Tree) (p : Path) : Except Reason Place :=
  if pathLimit ≤ Utf8.size p.text then .error .nameTooLong
  else t.walk (if p.root = .here then here else []) p.parts

/-- The place of a path, or the refusal. -/
def find (t : Tree) (p : Path) : Except Fault Place :=
  if p.text.contains '\x00' then .error .nul
  else match t.place p with
    | .ok place => .ok place
    | .error reason => .error (.refused reason p.text none)

/-- What is at a path; nothing counts as a refusal. -/
def stat (t : Tree) (p : Path) : Except Fault Node := do
  let place ← t.find p
  match t.at? place with
  | some node => return node
  | none => throw (.refused .missing p.text none)

/-- Whether there is something that satisfies a test at a path. Only a name
that is too long is an error. -/
def check (t : Tree) (p : Path) (test : Node → Bool) : Except Fault Bool :=
  match t.stat p with
  | .ok node => .ok (test node)
  | .error (.refused .nameTooLong path target) => .error (.refused .nameTooLong path target)
  | .error _ => .ok false

/-- Whether there is anything at a path. -/
def exists? (t : Tree) (p : Path) : Except Fault Bool := t.check p fun _ => true

/-- Whether there is a directory at a path. -/
def isDirectory? (t : Tree) (p : Path) : Except Fault Bool := t.check p (· == .directory)

/-- The names in a directory. -/
def names (t : Tree) (directory : Place) : List Text :=
  t.nodes.filterMap fun (place, _) =>
    if place.dropLast == directory then place.getLast? else none

/-- The names in the directory at a path; none if there is no directory. -/
def namesAt (t : Tree) (p : Path) : Except Fault (List Text) :=
  match t.isDirectory? p with
  | .error fault => .error fault
  | .ok false => .ok []
  | .ok true => .ok ((t.find p).toOption.elim [] t.names)

-- =========================================================== changing

/-- The content of a file. -/
def read (t : Tree) (p : Path) : Except Fault Bytes := do
  match ← t.stat p with
  | .file content _ => return content
  | .directory => throw (.refused .isDirectory p.text none)

/-- Writes a file; one that is there is emptied first and keeps its mode. -/
def write (t : Tree) (p : Path) (content : Bytes) (mode : Nat) : Except Fault Tree := do
  let place ← t.find p
  match t.at? place with
  | some .directory => throw (.refused .isDirectory p.text none)
  | some (.file _ mode) => return t.set place (.file content mode)
  | none =>
      match t.at? place.dropLast with
      | some .directory => return t.set place (.file content mode)
      | some _ => throw (.refused .notDirectory p.text none)
      | none => throw (.refused .missing p.text none)

/-- Bytes with a piece written over them from an offset on; a gap before it
is filled with zeros. -/
def overwritten (content : Bytes) (offset : Nat) (piece : Bytes) : Bytes :=
  content.take offset ++ List.replicate (offset - content.length) 0 ++ piece
    ++ content.drop (offset + piece.length)

/-- Writes into a file that is there, from an offset on. -/
def writeAt (t : Tree) (p : Path) (offset : Nat) (piece : Bytes) : Except Fault Tree := do
  let place ← t.find p
  match t.at? place with
  | some (.file content mode) =>
      return t.set place (.file (overwritten content offset piece) mode)
  | some .directory => throw (.refused .isDirectory p.text none)
  | none => throw (.refused .missing p.text none)

/-- Makes a directory. -/
def makeOne (t : Tree) (p : Path) : Except Fault Tree := do
  let place ← t.find p
  match t.at? place with
  | some _ => throw (.refused .present p.text none)
  | none => return t.set place .directory

/-- The refusal that is left of one to make a directory: none if there is one
already. -/
def unlessThere (t : Tree) (p : Path) (fault : Fault) : Option Fault :=
  if fault = .nul then some fault
  else match t.isDirectory? p with
    | .ok true => none
    | .ok false => some fault
    | .error other => some other

/-- Makes a directory and those it is in, as far as they are missing, and
keeps those that were made before a refusal. `last` is the last name of the
path, `earlier` the names before it, backwards. -/
def makeAllAt (t : Tree) (root : Root) : (parts : List Text) → Tree × Option Fault
  | [] => (t, unlessThere t ⟨root, []⟩ (.refused .present (Path.text ⟨root, []⟩) none))
  | last :: earlier =>
      let p : Path := ⟨root, (last :: earlier).reverse⟩
      match t.makeOne p with
      | .ok t => (t, none)
      | .error (.refused .missing ..) =>
          match makeAllAt t root earlier with
          | (t, some fault) => (t, some fault)
          | (t, none) =>
              match t.makeOne p with
              | .ok t => (t, none)
              | .error (.refused .missing path target) => (t, some (.refused .missing path target))
              | .error fault => (t, unlessThere t p fault)
      | .error fault => (t, unlessThere t p fault)

/-- Makes a directory and those it is in; one that is there is fine. -/
def makeAll (t : Tree) (p : Path) : Tree × Option Fault := t.makeAllAt p.root p.parts.reverse

/-- Takes a file away. -/
def remove (t : Tree) (p : Path) : Except Fault Tree := do
  let place ← t.find p
  match t.at? place with
  | some (.file ..) => return t.clear place
  | some .directory => throw (.refused .isDirectory p.text none)
  | none => throw (.refused .missing p.text none)

/-- Gives a file another mode. -/
def setMode (t : Tree) (p : Path) (mode : Nat) : Except Fault Tree := do
  let place ← t.find p
  match t.at? place with
  | some (.file content _) => return t.set place (.file content mode)
  | some .directory => return t
  | none => throw (.refused .missing p.text none)

/-- Moves a file; a file at the target gives way. A path that ends in points
is no target. -/
def move (t : Tree) (p target : Path) : Except Fault Tree := do
  let refuse (reason : Reason) : Fault := .refused reason p.text (some target.text)
  let source ← (t.place p).mapError refuse
  let goal ← (t.place target).mapError refuse
  if target.parts.isEmpty || target.name = "..".toList then throw (refuse .busy)
  match t.at? source with
  | none => throw (refuse .missing)
  | some node =>
      match t.at? goal with
      | some .directory => throw (refuse .isDirectory)
      | some (.file ..) => return if source = goal then t else (t.clear source).set goal node
      | none =>
          match t.at? goal.dropLast with
          | some .directory => return (t.clear source).set goal node
          | some _ => throw (refuse .notDirectory)
          | none => throw (refuse .missing)

/-- The path of every place below the directory at hand, in order, those of
directories with a slash behind them. -/
def listing (t : Tree) : List Text :=
  Ordered.ofList Text.before <| t.nodes.filterMap fun (place, node) =>
    match place with
    | top :: c :: rest =>
        if [top] = here then
          let body := Text.joinWith "/" (c :: rest)
          some (if node = .directory then body ++ ['/'] else body)
        else none
    | _ => none

end Tree

end FeedSieve.Files
