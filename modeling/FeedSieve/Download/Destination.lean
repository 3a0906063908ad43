/-
The directory to download to.

It is made if it is not there, with everything it is in. What cannot be made
into a directory is no destination, and neither is a directory in which the
user may not make entries.
-/
import FeedSieve.Files.Tree

namespace FeedSieve.Download

open Files (Path Tree)

/-- Why there is no destination. -/
inductive Unready where
  /-- It cannot be made. -/
  | refused (path : Path) (fault : Files.Fault)
  /-- It is something else. -/
  | notDirectory (path : Path)
  /-- The user may not write there. -/
  | unwritable (path : Path)
  /-- The path is none. -/
  | nul
deriving Repr, DecidableEq

/-- The wording. -/
def Unready.message : Unready → Text
  | refused path fault => Text.concat
      ["Cannot create output directory ", path.text, ": ", fault.message]
  | notDirectory path => Text.concat ["Output path ", path.text, " is not a directory"]
  | unwritable path => Text.concat [path.text, " is not writable by the current user"]
  | nul => Files.Fault.nul.message

/-- How a fault of the file system is reported. -/
def Unready.ofFault (path : Path) : Files.Fault → Unready
  | .nul => .nul
  | fault => .refused path fault

/-- Makes the destination; what says why there is none comes with the tree.
`access` says where the user may make entries. -/
def prepare (access : Tree → Path → Bool) (tree : Tree) (destination : Path) :
    Tree × Option Unready :=
  match tree.makeAll destination with
  | (tree, some fault) => (tree, some (.ofFault destination fault))
  | (tree, none) =>
      match tree.isDirectory? destination with
      | .ok true =>
          (tree, if access tree destination then none else some (.unwritable destination))
      | .ok false => (tree, some (.notDirectory destination))
      | .error fault => (tree, some (.ofFault destination fault))

/-- The message about a number of downloads at a time that is too small. -/
def tooFewMessage (limit : Int) : Text :=
  Text.concat ["Concurrent downloads must be at least 1, got ", Text.ofInt limit]

end FeedSieve.Download
