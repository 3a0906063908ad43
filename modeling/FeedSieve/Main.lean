/-
The program on the command line.

What a run may look at is read into a tree of files beforehand, and what it
has changed there is written back afterwards. The web is out of reach from
here: every address is answered as if nothing were behind it. A path that
leads out of the directory at hand by two points is not followed.
-/
import FeedSieve.CommandLine.Program
import Std.Time.DateTime.Timestamp

namespace FeedSieve

open Files (Node Place Tree)

/-- Where a place is on the disk. -/
def diskName : Place → String
  | [] => "/"
  | top :: rest =>
      let relative := [top] = Tree.here
      let names := if relative then rest else top :: rest
      let start : Text := if relative then "." else []
      String.ofList (Text.joinWith "/" (start :: names))

/-- What is at a place of the disk. -/
def diskNode (place : Place) : IO (Option Node) := do
  try
    let bytes ← IO.FS.readBinFile (diskName place)
    return some (.file bytes.toList Files.plainMode)
  catch _ =>
    try
      let _ ← ((← IO.currentDir) / diskName place).readDir
      return some .directory
    catch _ => return none

/-- The places in a directory of the disk; their files are not read. -/
def diskEntries (place : Place) : IO (List (Place × Node)) := do
  let entries ← ((← IO.currentDir) / diskName place).readDir
  return entries.toList.map fun entry =>
    (place ++ [entry.fileName.toList], .file [] Files.plainMode)

/-- What a path leads to, and the directories on the way. -/
def diskWay (path : Files.Path) : IO (List (Place × Node)) := do
  let place := if path.root = .here then Tree.here ++ path.parts else path.parts
  let mut found : List (Place × Node) := []
  for length in List.range (place.length + 1) do
    let step := place.take length
    match ← diskNode step with
    | some node => found := found ++ [(step, node)]
    | none => pure ()
  match found.lookup place with
  | some .directory => return found ++ (← diskEntries place)
  | _ => return found

/-- The paths that a command line is about. -/
def pathsOf (words : List Text) (world : World) : List Files.Path :=
  match CommandLine.readShared words with
  | .error _ => []
  | .ok (shared, name, left) =>
      let own : List Files.Path := match name.read left with
        | .ok (.init (some path) ..) => [path]
        | _ => []
      let named := shared.file.toList ++ shared.output.toList ++
        (shared.output.map Files.Path.parent).toList ++ shared.config.toList ++
        (Settings.defaultPath? world).toList ++ own
      named ++ named.filterMap world.expand?

/-- The files that a command line is about. -/
def diskTree (words : List Text) (world : World) : IO Tree := do
  let mut tree := Tree.empty
  for path in pathsOf words world do
    for (place, node) in ← diskWay path do
      if (tree.at? place).isNone then tree := tree.set place node
  return tree

/-- Makes the disk what the tree is, where that has changed. -/
def storeTree (before after : Tree) : IO Unit := do
  for (place, node) in after.nodes do
    if before.at? place != some node then
      match node with
      | .directory => IO.FS.createDirAll (diskName place)
      | .file content _ => IO.FS.writeBinFile (diskName place) ⟨content.toArray⟩
  for (place, _) in before.nodes do
    if (after.at? place).isNone then IO.FS.removeFile (diskName place)

/-- The variables that a run asks for. -/
def userVariables : IO (List (Text × Text)) := do
  let names : List Text := [Settings.pathVariable, "HOME"]
  let values ← names.mapM fun name => return (name, ← IO.getEnv (String.ofList name))
  return values.filterMap fun (name, value) => value.map fun v => (name, v.toList)

/-- What a run finds outside, but for the files. -/
def outside : IO World := do
  let seconds := (← Std.Time.Timestamp.now).toSecondsSinceUnixEpoch.val.toNat
  let now := (Calendar.Moment.ofSeconds? seconds).getD .first
  let mark := (← IO.getRandomBytes 4).toList.flatMap fun b => Text.hex 2 b.toNat
  return {
    files := .empty, web := .silent, pauses := [], bindings := ← userVariables, homes := [],
    now := now, mark := mark }

end FeedSieve

open FeedSieve

def main (args : List String) : IO UInt32 := do
  let words := args.map String.toList
  let world ← outside
  let files ← diskTree words world
  let (after, _, ending) := CommandLine.program words { world with files := files }
  storeTree files after.files
  for shown in ending.shown do IO.print (String.ofList shown.plain)
  IO.print (String.ofList ending.printed)
  return UInt32.ofNat ending.code
