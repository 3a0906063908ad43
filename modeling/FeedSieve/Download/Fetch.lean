/-
Fetching a file.

A fetch makes attempts until one of them does not fail, or as many as it
may make have failed. An attempt gets an answer from the web, writes its
body piece by piece to a file beside the one that is wanted, and moves that
file into place when it is complete. So what is at the wanted path is never
an incomplete body, and a failed attempt, which takes the file beside it
away again, leaves everything as it was.

Between attempts there is a pause, after the first as long as the settings
say, after the second twice as long, and so on.

Failing is not the only way to end badly: what is neither the fault of the
web nor of the file system ends the fetch at once.

The file system of this program refuses little. `Trouble` says what else is
refused during an attempt.
-/
import FeedSieve.Download.Outcome
import FeedSieve.Download.Schedule
import FeedSieve.Download.Status
import FeedSieve.World

namespace FeedSieve.Download

open Files (Fault Path Tree)
open Http (Failure Response)
open Number (Double)

/-- What is to be fetched, and how. -/
structure Errand where
  /-- The address. -/
  url : Text
  /-- The path of the file. -/
  path : Path
  /-- The name that the program goes by. -/
  agent : Text
  /-- How often a failed attempt is repeated. -/
  retries : Int
  /-- The pause after the first attempt, in milliseconds. -/
  delay : Int
deriving Repr, DecidableEq

/-- How a fetch ends at once. -/
inductive Crash where
  /-- Something odd happens on the web, or the address is none. -/
  | web (failure : Failure)
  /-- The path has no last name. -/
  | nameless (path : Path)
  /-- The path is none. -/
  | nul
  /-- The pause is too long. -/
  | endless
deriving Repr, DecidableEq

/-- The wording. -/
def Crash.message : Crash → Text
  | web failure => failure.message
  | nameless path => Text.concat ["PosixPath(", Text.quoted path.text, ") has an empty name"]
  | nul => Fault.nul.message
  | endless => "integer division result too large for a float"

/-- How a fetch, or an attempt, ends. -/
inductive Ending where
  /-- The file is in place. -/
  | saved
  /-- It failed. -/
  | failed (reason : Text)
  /-- It ended at once. -/
  | crashed (why : Crash)
deriving Repr, DecidableEq

/-- What the file system refuses during an attempt. -/
structure Trouble where
  /-- To begin the file beside the wanted one. -/
  start : Option Fault
  /-- To write the piece of a number. -/
  piece : Nat → Option Fault
  /-- To move the file into place. -/
  finish : Option Fault

/-- Nothing is refused. -/
def Trouble.none : Trouble := ⟨.none, fun _ => .none, .none⟩

/-- How an answer of the file system ends an attempt. -/
def Ending.ofFault : Fault → Ending
  | .nul => .crashed .nul
  | fault => .failed ("Write error: ".toList ++ fault.message)

/-- How an answer of the web ends an attempt. -/
def Ending.ofFailure : Failure → Ending
  | .timeout _ => .failed "Request timed out"
  | .transport text => .failed ("Transport error: ".toList ++ text)
  | .system text => .failed ("Write error: ".toList ++ text)
  | failure => .crashed (.web failure)

-- ============================================================== pieces

/-- The size of a piece in bytes, two to the 20th. -/
def pieceSize : Nat := 1048576

/-- Cuts bytes into pieces, at most `most` of them. -/
def cutPieces : (most : Nat) → Bytes → List Bytes
  | 0, _ => []
  | most + 1, bytes =>
      if bytes.isEmpty then [] else bytes.take pieceSize :: cutPieces most (bytes.drop pieceSize)

/-- The pieces in which a body is written. What has come when it breaks off
is only written as far as it makes whole pieces. -/
def pieces (response : Response) : List Bytes :=
  let bytes := response.chunks.flatten
  let whole := bytes.length / pieceSize
  cutPieces (if response.broken.isSome then whole else whole + 1) bytes

-- =============================================================== steps

/-- The path of the file that a body is written to. -/
def partPath? (path : Path) : Option Path :=
  if path.name.isEmpty then none else some (path.withName (path.name ++ ".part".toList))

/-- Begins the file. -/
def beginPart (trouble : Trouble) (part : Path) (files : Tree) : Except Fault Tree :=
  match trouble.start with
  | some fault => .error fault
  | none => files.write part [] Files.plainMode

/-- Writes a piece. -/
def writePiece (trouble : Trouble) (part : Path) (number offset : Nat) (piece : Bytes)
    (files : Tree) : Except Fault Tree :=
  match trouble.piece number with
  | some fault => .error fault
  | none => files.writeAt part offset piece

/-- Writes pieces one after another. -/
def writePieces (trouble : Trouble) (part : Path) (number offset : Nat) :
    List Bytes → Tree → Tree × Option Fault
  | [], files => (files, none)
  | piece :: rest, files =>
      match writePiece trouble part number offset piece files with
      | .error fault => (files, some fault)
      | .ok files =>
          writePieces trouble part (number + 1) (offset + piece.length) rest files

/-- Moves the file into place. -/
def movePart (trouble : Trouble) (part path : Path) (files : Tree) : Except Fault Tree :=
  match trouble.finish with
  | some fault => .error fault
  | none => files.move part path

/-- Takes the file away; that there is none, or none that can be taken away,
does not matter. -/
def clearPart (path : Path) (files : Tree) : Except Crash Tree :=
  match partPath? path with
  | none => .error (.nameless path)
  | some part =>
      match files.remove part with
      | .ok files => .ok files
      | .error .nul => .error .nul
      | .error _ => .ok files

-- ============================================================ attempts

/-- Writes an answer to its file. -/
def store (trouble : Trouble) (path : Path) (response : Response) (files : Tree) :
    Tree × Ending :=
  if !response.isSuccess then (files, .failed (describeStatus response.status))
  else match partPath? path with
    | none => (files, .crashed (.nameless path))
    | some part =>
        match beginPart trouble part files with
        | .error fault => (files, .ofFault fault)
        | .ok files =>
            match writePieces trouble part 0 0 (pieces response) files, response.broken with
            | (files, some fault), _ => (files, .ofFault fault)
            | (files, none), some failure => (files, .ofFailure failure)
            | (files, none), none =>
                match movePart trouble part path files with
                | .error fault => (files, .ofFault fault)
                | .ok files => (files, .saved)

/-- Makes one attempt. -/
def attempt (trouble : Trouble) (errand : Errand) (world : World) : World × Ending :=
  match world.web.get errand.agent errand.url with
  | (web, .error failure) => ({ world with web := web }, .ofFailure failure)
  | (web, .ok response) =>
      let (files, ending) := store trouble errand.path response world.files
      ({ world with web := web, files := files }, ending)

/-- The pause after an attempt, in seconds; `none` if that is too long. -/
def pauseAfter? (delay : Int) (number : Nat) : Option Double :=
  let total := delay * number
  match Double.ofRatio (decide (total < 0)) total.natAbs 1000 with
  | .infinite _ => none
  | seconds => some seconds

/-- Makes the attempt of a number and those after it, of which `left` are
left. -/
def attempts (trouble : Nat → Trouble) (errand : Errand) (left number : Nat) (world : World) :
    World × Ending :=
  match attempt (trouble number) errand world with
  | (world, .failed reason) =>
      match clearPart errand.path world.files with
      | .error crash => (world, .crashed crash)
      | .ok files =>
          let world := { world with files := files }
          match left, pauseAfter? errand.delay number with
          | 0, _ => (world, .failed reason)
          | _ + 1, none => (world, .crashed .endless)
          | left + 1, some pause =>
              attempts trouble errand left (number + 1)
                { world with pauses := pause :: world.pauses }
  | (world, ending) => (world, ending)

/-- Fetches a file, whatever trouble there is with the attempts. -/
def fetchThrough (trouble : Nat → Trouble) (errand : Errand) (world : World) : World × Ending :=
  if errand.retries < 0 then (world, .saved)
  else attempts trouble errand errand.retries.toNat 1 world

/-- Fetches a file. -/
def fetch : Errand → World → World × Ending := fetchThrough fun _ => .none

/-- What a fetch means to the download that it is made for; only the user
stops that. -/
def Ending.result : Ending → Except Text Result
  | .saved => .ok .saved
  | .failed reason => .ok (.failed reason)
  | .crashed (.web (.interrupted text)) => .error text
  | .crashed why => .ok (.crashed why.message)

/-- Fetching for downloads. Nobody waits for a fetch. -/
def fetching (agent : Text) (retries delay : Int) : Fetching World where
  launch _ _ world := (world, 0)
  land url path world :=
    let (world, ending) := fetch ⟨url, path, agent, retries, delay⟩ world
    (world, ending.result)

end FeedSieve.Download
