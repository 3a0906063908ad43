/-
A fetch in flight, one step at a time.

Where several fetches are in flight their steps take turns. A step is a
request, the beginning of the file beside the wanted one, the writing of a
piece, the move into place, or the taking away of the file beside after a
failed attempt. A fetch all of whose steps are made without others between
them is `fetchThrough`.

What an attempt meets with is not known here: every request is given its
answer, and what the file system refuses until the next one.

A file that is being written is open, and is no longer known by its path.
If it is moved meanwhile what is written goes where it is; if it is taken
away or another file takes its place, what is written is lost. The desk
keeps, beside the files, where the file is that each task has open.
-/
import FeedSieve.Download.Fetch

namespace FeedSieve.Download

open Files (Fault Path Place Tree)
open Http (Failure Response)

/-- What an attempt meets with. -/
structure Fortune where
  /-- The answer of the web. -/
  answer : Except Failure Response
  /-- What the file system refuses. -/
  trouble : Trouble

/-- The body of an attempt that nothing stands in the way of: a complete
answer of success, and no refusal. -/
def Fortune.body? (fortune : Fortune) : Option Bytes :=
  match fortune.answer with
  | .error _ => none
  | .ok response =>
      let trouble := fortune.trouble
      let written := (List.range (pieces response).length).all fun number =>
        (trouble.piece number).isNone
      if response.isSuccess && response.broken.isNone && trouble.start.isNone && written
          && trouble.finish.isNone then some response.chunks.flatten
      else none

-- =============================================================== desk

/-- The files, and the places of those that tasks have open. -/
structure Desk where
  files : Tree
  /-- Where the file is that a task has open, if it is anywhere. -/
  opened : Nat → Option Place

namespace Desk

/-- The desk with other files, after a task has opened one of them. -/
def started (desk : Desk) (task : Nat) (part : Path) (files : Tree) : Desk :=
  ⟨files, fun other => if other = task then (files.find part).toOption else desk.opened other⟩

/-- The desk after a task has written a piece. -/
def written (desk : Desk) (task offset : Nat) (piece : Bytes) : Desk :=
  match desk.opened task with
  | none => desk
  | some place =>
      match desk.files.at? place with
      | some (.file content mode) =>
          { desk with
            files := desk.files.set place (.file (Tree.overwritten content offset piece) mode) }
      | _ => desk

/-- The desk with other files, after one was moved: who has it open follows
it, and who has the one open that gave way has lost it. -/
def moved (desk : Desk) (part path : Path) (files : Tree) : Desk :=
  let source := (desk.files.place part).toOption
  let goal := (desk.files.place path).toOption
  ⟨files, fun task => (desk.opened task).bind fun place =>
    if source = some place then goal else if goal = some place then none else some place⟩

/-- The desk with other files, after one may have been taken away. -/
def cleared (desk : Desk) (files : Tree) : Desk :=
  ⟨files, fun task => (desk.opened task).filter fun place => (files.at? place).isSome⟩

end Desk

-- ============================================================= flights

/-- How far a fetch has come. -/
inductive Stage where
  /-- The next attempt is to be made. -/
  | asking
  /-- A good answer has come; the file is to be begun. -/
  | starting (trouble : Trouble) (response : Response)
  /-- The file is begun; the next piece has a number and an offset, and the
  rest is to be written. -/
  | writing (trouble : Trouble) (response : Response) (number offset : Nat) (rest : List Bytes)
  /-- The attempt failed; the file is to be taken away. -/
  | clearing (reason : Text)
  /-- The fetch is over. -/
  | over (ending : Ending)

/-- Where a fetch goes from an attempt that ended so. -/
def Stage.after : Ending → Stage
  | .failed reason => .clearing reason
  | ending => .over ending

/-- Where a fetch goes from an attempt of a number that failed and is cleared
away: to the next one if there is one. -/
def Stage.again (errand : Errand) (number : Nat) (reason : Text) : Stage :=
  if errand.retries.toNat < number then .over (.failed reason)
  else match pauseAfter? errand.delay number with
    | none => .over (.crashed .endless)
    | some _ => .asking

/-- A fetch in flight. -/
structure Flight where
  /-- What its attempts have met with, the latest first. -/
  met : List Fortune
  stage : Stage

namespace Flight

/-- A fetch that has not begun. -/
def ready : Flight := ⟨[], .asking⟩

/-- Makes the next step. A request meets with the fortune; the other steps go
by the one of the last request. -/
def step (errand : Errand) (task : Nat) (fortune : Fortune) (flight : Flight) (desk : Desk) :
    Flight × Desk :=
  match flight with
  | ⟨met, .asking⟩ =>
      match fortune.answer with
      | .error failure => (⟨fortune :: met, .after (.ofFailure failure)⟩, desk)
      | .ok response =>
          if !response.isSuccess then
            (⟨fortune :: met, .clearing (describeStatus response.status)⟩, desk)
          else (⟨fortune :: met, .starting fortune.trouble response⟩, desk)
  | ⟨met, .starting trouble response⟩ =>
      match partPath? errand.path with
      | none => (⟨met, .over (.crashed (.nameless errand.path))⟩, desk)
      | some part =>
          match beginPart trouble part desk.files with
          | .error fault => (⟨met, .after (.ofFault fault)⟩, desk)
          | .ok files =>
              (⟨met, .writing trouble response 0 0 (pieces response)⟩,
                desk.started task part files)
  | ⟨met, .writing trouble response number offset (piece :: rest)⟩ =>
      match trouble.piece number with
      | some fault => (⟨met, .after (.ofFault fault)⟩, desk)
      | none =>
          (⟨met, .writing trouble response (number + 1) (offset + piece.length) rest⟩,
            desk.written task offset piece)
  | ⟨met, .writing trouble response _ _ []⟩ =>
      match response.broken, partPath? errand.path with
      | some failure, _ => (⟨met, .after (.ofFailure failure)⟩, desk)
      | none, none => (⟨met, .over (.crashed (.nameless errand.path))⟩, desk)
      | none, some part =>
          match movePart trouble part errand.path desk.files with
          | .error fault => (⟨met, .after (.ofFault fault)⟩, desk)
          | .ok files => (⟨met, .over .saved⟩, desk.moved part errand.path files)
  | ⟨met, .clearing reason⟩ =>
      match clearPart errand.path desk.files with
      | .error crash => (⟨met, .over (.crashed crash)⟩, desk)
      | .ok files => (⟨met, .again errand met.length reason⟩, desk.cleared files)
  | ⟨met, .over ending⟩ => (⟨met, .over ending⟩, desk)

end Flight

end FeedSieve.Download
