/-
What is outside the program: files, the web, time, the variables that the
user has set, and what decides for itself: who may write where, what a console
shows, and what the library for feeds does beyond what is written out.
-/
import FeedSieve.Calendar.Moment
import FeedSieve.Feed.Library
import FeedSieve.Files.Tree
import FeedSieve.Http.Web
import FeedSieve.Number.Double

namespace FeedSieve

/-- What a run finds outside, and what it leaves there. -/
structure World where
  files : Files.Tree
  web : Http.Web
  /-- The pauses made, in seconds, the latest first. -/
  pauses : List Number.Double
  /-- The variables of the user. -/
  bindings : List (Text × Text)
  /-- The accounts and their home directories, that of the user first. -/
  homes : List (Text × Text)
  /-- The time. -/
  now : Calendar.Moment
  /-- A mark that no name of a file has yet. -/
  mark : Text
  /-- Whether the user may make entries in the directory at a path. -/
  access : Files.Tree → Files.Path → Bool := fun _ _ => true
  /-- What the console says against markup that it refuses to show, such as a
  mark that closes what was not opened. -/
  refusal? : Text → Option Text := fun _ => none
  /-- The library for feed documents. -/
  library : Feed.Library := .plain

namespace World

/-- The value of a variable; an empty one counts as unset. -/
def valueOf? (w : World) (name : Text) : Option Text :=
  (w.bindings.lookup name).filter (!·.isEmpty)

/-- The home directory that a word stands for: a tilde alone is that of the
user, who may have moved it, and a tilde with a name that of an account. -/
def home? (w : World) (word : Text) : Option Text :=
  let own : Option Text := w.homes.head?.map (·.2)
  let directory : Option Text := match word with
    | '~' :: [] => (w.bindings.lookup "HOME".toList).orElse fun _ => own
    | '~' :: name => w.homes.lookup name
    | _ => none
  let written := directory.map fun d =>
    let body := Text.stripEnd (· = '/') d
    if body.isEmpty then "/".toList else body
  written.filter fun d => d.head? != some '~'

/-- A path with the home directory that it may begin with; `none` if there
is no such directory. -/
def expand? (w : World) (p : Files.Path) : Option Files.Path :=
  match p.root, p.parts with
  | .here, ('~' :: name) :: rest =>
      (w.home? ('~' :: name)).map fun d => (Files.Path.ofText d).append ⟨.here, rest⟩
  | _, _ => some p

/-- The message about a home directory that is not there. -/
def homelessMessage : Text := "Could not determine home directory."

end World

end FeedSieve
