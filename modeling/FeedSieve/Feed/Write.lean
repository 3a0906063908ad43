/-
Writing a feed to its file.

The document is written to a new file beside the one that is wanted, which
nobody else may read; then it gets the mode that files have and is moved
into place. Whatever is refused on the way, a file that was there before is
untouched, and the new one is taken away.

The file system of this program refuses little. `Obstacle` says what else is
refused.
-/
import FeedSieve.Feed.Document
import FeedSieve.World

namespace FeedSieve.Feed

open Files (Fault Path Tree)

/-- What the file system refuses. -/
structure Obstacle where
  /-- To make the directory, and how many of the names that lead to it have
  their directories by then. -/
  directory : Option (Nat × Fault)
  /-- To begin a new file. -/
  start : Option Fault
  /-- To write all of the document, and how many bytes of it are written. -/
  body : Option (Nat × Fault)
  /-- To change the mode. -/
  mode : Option Fault
  /-- To move the file into place. -/
  finish : Option Fault

/-- Nothing is refused. -/
def Obstacle.none : Obstacle := ⟨.none, .none, .none, .none, .none⟩

/-- Why a feed is not written. -/
inductive Unwritten where
  /-- The file system refuses. -/
  | refused (path : Path) (fault : Fault)
  /-- The path is none. -/
  | nul
deriving Repr, DecidableEq

/-- The wording. -/
def Unwritten.message : Unwritten → Text
  | refused path fault => Text.concat ["Cannot write feed to ", path.text, ": ", fault.message]
  | nul => Fault.nul.message

/-- How a fault of the file system is reported. -/
def Unwritten.ofFault (path : Path) : Fault → Unwritten
  | .nul => .nul
  | fault => .refused path fault

/-- A path without the names that two points lead back from. -/
def straight (p : Path) : Path :=
  let backwards := p.parts.foldl (fun (before : List Text) name =>
    match before with
    | last :: earlier =>
        if name = "..".toList && last != "..".toList then earlier else name :: before
    | [] => [name]) []
  { p with parts := backwards.reverse }

/-- The path of the new file: hidden, and marked as temporary. `mark` is to
make it different from all that are there. -/
def temporary (mark : Text) (path : Path) : Path :=
  (straight path.parent).child (Text.concat [".", path.name, ".", mark, ".tmp"])

/-- Makes the directory that a path is in. -/
def makeParent (obstacle : Obstacle) (path : Path) (files : Tree) : Tree × Option Fault :=
  let parent := path.parent
  match obstacle.directory with
  | some (count, fault) =>
      ((files.makeAll { parent with parts := parent.parts.take count }).1, some fault)
  | none => files.makeAll parent

/-- What is done if it is not refused. -/
def granted (refused : Option Fault) (act : Except Fault Tree) : Except Fault Tree :=
  match refused with
  | some fault => .error fault
  | none => act

/-- Writes the document to the new file, and how far that came. -/
def writeBody (obstacle : Obstacle) (path : Path) (bytes : Bytes) (files : Tree) :
    Tree × Option Fault :=
  match obstacle.body with
  | some (count, fault) =>
      (((files.writeAt path 0 (bytes.take count)).toOption).getD files, some fault)
  | none =>
      match files.writeAt path 0 bytes with
      | .ok files => (files, none)
      | .error fault => (files, some fault)

/-- Gives the new file its mode and moves it into place. -/
def settle (obstacle : Obstacle) (temp path : Path) (files : Tree) : Except Fault Tree := do
  let files ← granted obstacle.mode (files.setMode temp Files.plainMode)
  granted obstacle.finish (files.move temp path)

/-- Writes bytes to a file by way of a new one, against obstacles. -/
def replaceThrough (obstacle : Obstacle) (mark : Text) (path : Path) (bytes : Bytes)
    (files : Tree) : Tree × Except Unwritten Unit :=
  let fails (files : Tree) (fault : Fault) : Tree × Except Unwritten Unit :=
    (files, .error (.ofFault path fault))
  match makeParent obstacle path files with
  | (files, some fault) => fails files fault
  | (files, none) =>
      let temp := temporary mark path
      match granted obstacle.start (files.write temp [] Files.privateMode) with
      | .error fault => fails files fault
      | .ok begun =>
          let cleared (files : Tree) : Tree := ((files.remove temp).toOption).getD files
          match writeBody obstacle temp bytes begun with
          | (written, some fault) => fails (cleared written) fault
          | (written, none) =>
              match settle obstacle temp path written with
              | .ok files => (files, .ok ())
              | .error fault => fails (cleared written) fault

/-- Writes a new feed of items to a file, against obstacles. -/
def writeThrough (obstacle : Obstacle) (source : Channel) (items : List Item) (title : Text)
    (path : Path) (world : World) : World × Except Unwritten Unit :=
  let (files, ending) := replaceThrough obstacle world.mark path
    (Utf8.encode (Xml.writeDocument (document source items title world.now))) world.files
  ({ world with files := files }, ending)

/-- Writes a new feed of items to a file. -/
def write : Channel → List Item → Text → Path → World → World × Except Unwritten Unit :=
  writeThrough .none

end FeedSieve.Feed
