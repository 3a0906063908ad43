/-
How a run fails.

A run may fail at each of its stages. Failures that a user can expect are
of four kinds, each with a name and an exit code; the others have none, and
the program exits with 1.
-/
import FeedSieve.Download.Destination
import FeedSieve.Download.Schedule
import FeedSieve.Feed.Load
import FeedSieve.Feed.Write
import FeedSieve.Query.Error
import FeedSieve.Query.Selection
import FeedSieve.Run.Config
import FeedSieve.Settings.File

namespace FeedSieve.Run

/-- The kinds of failures that a user can expect. -/
inductive Kind where
  /-- Of options and settings. -/
  | config
  /-- Of the query. -/
  | query
  /-- Of the feed. -/
  | load
  /-- Of what is written. -/
  | write
deriving Repr, DecidableEq

/-- The name by which a failure is reported. -/
def Kind.name : Kind → Text
  | config => "ConfigError"
  | query => "QueryParseError"
  | load => "FeedLoadError"
  | write => "OutputWriteError"

/-- The exit code. -/
def Kind.exitCode : Kind → Nat
  | config => 2
  | query => 3
  | load => 4
  | write => 6

/-- The exit code of a failure of no kind. -/
def unexpectedCode : Nat := 1

/-- Why a run fails. -/
inductive Failure where
  /-- There are no settings. -/
  | settings (why : Settings.Unloaded)
  /-- The options break a rule. -/
  | options (why : OptionFault)
  /-- The query cannot be read. -/
  | query (why : Query.Refusal)
  /-- The feed cannot be loaded. -/
  | feed (why : Feed.Unloaded)
  /-- It cannot be seen which files are there. -/
  | directory (fault : Files.Fault)
  /-- The items cannot be selected. -/
  | selection (why : Query.Unselectable)
  /-- There is no directory to download to. -/
  | destination (why : Download.Unready)
  /-- The downloads are stopped. -/
  | stopped (why : Download.Stop)
  /-- The new feed cannot be written. -/
  | output (why : Feed.Unwritten)
  /-- A number is too long to be shown. -/
  | numeral
  /-- The console refuses a line. -/
  | markup (what : Text)
deriving Repr, DecidableEq

namespace Failure

/-- The wording. -/
def message : Failure → Text
  | settings why => why.message
  | options why => why.message
  | query (.malformed what) => what.message
  | query (.tooLong digits) => Text.tooLongMessage digits
  | feed why => why.message
  | directory fault => fault.message
  | selection why => why.message
  | destination why => why.message
  | stopped why => why.message
  | output why => why.message
  | numeral => Text.unwritableMessage
  | markup what => what

/-- The kind of a failure, if it is of one. -/
def kind? : Failure → Option Kind
  | settings (.malformed _) | settings (.invalid ..) | settings (.unreadable ..) => some .config
  | settings _ => none
  | options _ => some .config
  | query (.malformed _) => some .query
  | query (.tooLong _) => none
  | feed (.status ..) | feed (.unreachable ..) | feed (.file ..) => some .load
  | feed (.content (.unreadable _)) => some .load
  | feed _ => none
  | directory _ => none
  | selection .noDirectory => some .config
  | selection (.url _) => none
  | destination .nul => none
  | destination _ => some .write
  | stopped _ => none
  | output (.refused ..) => some .write
  | output .nul => none
  | numeral => none
  | markup _ => none

/-- The exit code. -/
def exitCode (f : Failure) : Nat := (f.kind?.map Kind.exitCode).getD unexpectedCode

/-- Whether the user stopped the run. -/
def isInterruption : Failure → Bool
  | feed (.web (.interrupted _)) => true
  | stopped (.interrupted _) => true
  | _ => false

end Failure

end FeedSieve.Run
