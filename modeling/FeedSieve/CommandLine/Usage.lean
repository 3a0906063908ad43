/-
What can be asked for on the command line.

First come options that all commands share, then a command, then its own
options. A command line is read in two steps for that reason: what is wrong
with the first part is found before anything else is done. In each part a
question for help or for the version is answered before the values of
options are looked at, and the values are looked at in the order in which
their options are given.
-/
import FeedSieve.CommandLine.Option
import FeedSieve.Files.Path
import FeedSieve.Run.Config
import FeedSieve.Text.Digits

namespace FeedSieve.CommandLine

open Files (Path)
open Run (Mode)

/-- Why a part of the command line does not lead to a command. -/
inductive Refusal where
  /-- It is not understood. -/
  | misuse
  /-- It asks for help. -/
  | help
  /-- It asks for the version. -/
  | version
  /-- A path in it is none. -/
  | brokenPath
deriving Repr, DecidableEq

/-- The option that asks for help. -/
def helpFlag : Flag := .plain "--help"

/-- The option that asks for the version. -/
def versionFlag : Flag := .plain "--version"

-- ============================================================== values

/-- What the value of an option must be. -/
inductive Form where
  /-- Any text. -/
  | text
  | path
  /-- A whole number, not below a bound if there is one. -/
  | whole (least : Option Int)
deriving Repr, DecidableEq

/-- The number that a value spells, if it is not below the bound. -/
def whole? (least : Option Int) (value : Text) : Option Int :=
  (Text.integer? value).filter fun n => decide (least.getD n ≤ n)

/-- What is wrong with a value. -/
def Form.fault? : Form → Text → Option Refusal
  | text, _ => none
  | path, value => if value.contains '\x00' then some .brokenPath else none
  | whole least, value => if (whole? least value).isNone then some .misuse else none

/-- The option that asks for an answer at once, if one is given. -/
def question? (given : List Given) : Option Refusal :=
  given.findSome? fun g =>
    if g.long = helpFlag.long then some .help
    else if g.long = versionFlag.long then some .version
    else none

/-- Reads a part of the command line whose options have values of certain
forms. -/
def readPart (flags : List Flag) (forms : List (Text × Form)) (mixed : Bool)
    (words : List Text) : Except Refusal (List Given × List Text) :=
  match readWords flags mixed words with
  | .error _ => .error .misuse
  | .ok (given, left) =>
      let wrong : Option Refusal := given.findSome? fun g => do
        let form ← forms.lookup g.long
        let value ← valueOf? given g.long
        form.fault? value
      match question? given, wrong with
      | some refusal, _ => .error refusal
      | none, some refusal => .error refusal
      | none, none => .ok (given, left)

-- ====================================================== shared options

/-- The options that all commands share. -/
structure Shared where
  /-- The address of the feed. -/
  url : Option Text
  /-- The file of the feed. -/
  file : Option Path
  /-- The directory to download to, or the file of the new feed. -/
  output : Option Path
  query : Text
  /-- How many downloads run at a time. -/
  ndownloads : Option Int
  /-- The file with the settings. -/
  config : Option Path
  /-- Whether everything is logged. -/
  verbose : Bool
deriving Repr, DecidableEq

/-- How the shared options are given. -/
def sharedFlags : List Flag :=
  [.valuedWith 'u' "--url", .valuedWith 'f' "--file", .valuedWith 'o' "--output",
    .valuedWith 'q' "--query", .valuedWith 'd' "--ndownloads", .valuedLong "--config",
    ⟨"--verbose", some 'v', false⟩, versionFlag, helpFlag]

/-- What their values are. -/
def sharedForms : List (Text × Form) :=
  [("--file", .path), ("--output", .path), ("--ndownloads", .whole none), ("--config", .path)]

/-- The shared options that are given. -/
def Shared.ofGiven (given : List Given) : Shared :=
  let path (long : Text) : Option Path := (valueOf? given long).map Path.ofText
  ⟨valueOf? given "--url", path "--file", path "--output", (valueOf? given "--query").getD [],
    (valueOf? given "--ndownloads").bind (whole? none), path "--config",
    isGiven given "--verbose"⟩

-- ============================================================ commands

/-- The commands. -/
inductive Name where
  /-- A run in one of its modes. -/
  | run (mode : Mode)
  /-- Making a file with settings. -/
  | init
deriving Repr, DecidableEq

/-- The command that a word names. -/
def Name.ofWord? (word : Text) : Option Name :=
  match Mode.ofName? word with
  | some mode => some (.run mode)
  | none => if word = "init".toList then some .init else none

/-- The first part of a command line: the shared options, the command, and
the words that are left for it. -/
def readShared (words : List Text) : Except Refusal (Shared × Name × List Text) :=
  match readPart sharedFlags sharedForms false words with
  | .error refusal => .error refusal
  | .ok (_, []) => .error .misuse
  | .ok (given, word :: left) =>
      match Name.ofWord? word with
      | none => .error .misuse
      | some name => .ok (Shared.ofGiven given, name, left)

/-- What a command is to do. -/
inductive Command where
  /-- A run, and the title of the feed that it makes. -/
  | run (mode : Mode) (title : Option Text)
  /-- Making a file with settings: where, how many downloads run at a time,
  how often a failed one is tried again, and whether a file that is there
  is replaced. -/
  | init (path : Option Path) (ndownloads retries : Nat) (force : Bool)
deriving Repr, DecidableEq

/-- The options of a command. -/
def Name.flags : Name → List Flag
  | run .create => [.valuedWith 't' "--title", helpFlag]
  | run _ => [helpFlag]
  | init =>
      [.valuedWith 'p' "--path", .valuedWith 'd' "--ndownloads", .valuedLong "--retries",
        .plain "--force", helpFlag]

/-- What their values are. -/
def Name.forms : Name → List (Text × Form)
  | run _ => []
  | init =>
      [("--path", .path), ("--ndownloads", .whole (some 1)), ("--retries", .whole (some 0))]

/-- The command that is given. -/
def Name.command (given : List Given) : Name → Command
  | run mode => .run mode (valueOf? given "--title")
  | init =>
      let number (long : Text) (absent : Nat) : Nat :=
        (((valueOf? given long).bind (whole? none)).map Int.toNat).getD absent
      .init ((valueOf? given "--path").map Path.ofText)
        (number "--ndownloads" Settings.Download.default.ndownloads)
        (number "--retries" Settings.Download.default.retries)
        (isGiven given "--force")

/-- The second part of a command line. -/
def Name.read (name : Name) (words : List Text) : Except Refusal Command :=
  match readPart name.flags name.forms true words with
  | .error refusal => .error refusal
  | .ok (given, []) => .ok (name.command given)
  | .ok (_, _ :: _) => .error .misuse

end FeedSieve.CommandLine
