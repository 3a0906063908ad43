/-
The program.

It reads its command line, does what the command says, and exits with a
code. Whatever a run fails of is shown on the console, and the exit code
tells its kind. Making settings is less careful: some failures break the
program down.
-/
import FeedSieve.CommandLine.Usage
import FeedSieve.Run.Execution

namespace FeedSieve.CommandLine

open Console (Shown raw)
open Files (Path)
open Run (Failure)
open Settings (Profile)

/-- How much is logged. -/
inductive Loudness where
  /-- Nothing was said about it. -/
  | warnings
  | news
  | everything
deriving Repr, DecidableEq

/-- The name of a level. -/
def Loudness.name : Loudness → Text
  | warnings => "WARNING"
  | news => "INFO"
  | everything => "DEBUG"

/-- What breaks the program down. -/
inductive Breakdown where
  /-- There is no home directory. -/
  | homeless
  /-- A path is none, or it cannot be seen what is there. -/
  | file (fault : Files.Fault)
  /-- There are no such settings. -/
  | settings (faults : List Lax.Fault)
  /-- The console refuses a line. -/
  | markup (what : Text)
deriving Repr, DecidableEq

/-- How the program ends. -/
structure Exit where
  /-- The exit code. -/
  code : Nat
  /-- What was shown. -/
  shown : List Shown
  /-- What was printed besides. -/
  printed : Text
  /-- What broke it down, if anything did. -/
  breakdown : Option Breakdown

namespace Exit

/-- The program ends after it has shown something. -/
def showing (code : Nat) (shown : List Shown) : Exit := ⟨code, shown, [], none⟩

/-- The program breaks down. -/
def broken (why : Breakdown) : Exit := ⟨Run.unexpectedCode, [], [], some why⟩

/-- The program ends after it has shown something, or breaks down because the
console refuses that. -/
def saying (world : World) (code : Nat) (shown : Shown) : Exit :=
  match world.refusal? shown.markup with
  | some what => .broken (.markup what)
  | none => .showing code [shown]

/-- The exit code for a command line that is not understood. -/
def misuseCode : Nat := 2

/-- The program ends over a command line that does not lead to a command. -/
def ofRefusal : Refusal → Exit
  | .misuse => showing misuseCode []
  | .help => showing 0 []
  | .version => ⟨0, [], Text.concat [Product.name, " ", Product.version, "\n"], none⟩
  | .brokenPath => broken (.file .nul)

end Exit

-- ================================================================ runs

/-- The line about a run that failed. -/
def failureLine (why : Failure) : Shown :=
  if why.isInterruption then .line [raw "\n[yellow]Interrupted by user[/yellow]"]
  else
    let name : Text := match why.kind? with
      | some kind => kind.name
      | none => "Run failed"
    Console.inColour "red" [raw name, raw ": ", .text why.message]

/-- The end of a run that failed. -/
def failedRun (shown : List Shown) (why : Failure) : Exit :=
  .showing why.exitCode (shown ++ [failureLine why])

/-- The options of a run. -/
def Shared.options (shared : Shared) (title : Option Text) : Run.Options :=
  ⟨shared.url, shared.file, shared.output, shared.query, shared.ndownloads, title⟩

/-- Makes a run. -/
def run (shared : Shared) (mode : Run.Mode) (title : Option Text) (world : World) :
    World × Exit :=
  match Settings.loadFrom shared.config world with
  | .error why => (world, failedRun [] (.settings why))
  | .ok settings =>
      match Run.Config.ofOptions mode (shared.options title) settings with
      | .error why => (world, failedRun [] (.options why))
      | .ok config =>
          let (world, report) := Run.run settings config world
          match report.ending with
          | .error why => (world, failedRun report.shown why)
          | .ok code => (world, .showing code report.shown)

-- ============================================================ settings

/-- What is shown of settings that were made. -/
def settingsPanel (path : Path) (ndownloads retries : Nat) : Shown :=
  .panel [raw (Text.concat
    ["[green]✅ Created settings: ", path.text, "[/green]\n\nConcurrent downloads: ",
      Text.ofNat ndownloads, "\nRetries: ", Text.ofNat retries, "\n\nNext step:\n[bold]",
      Product.name, " --url <FEED_URL> --output <FOLDER> check[/bold]"])]

/-- Saves settings to a file. -/
def saveAt (path : Path) (settings : Profile) (world : World) : World × Exit :=
  match Settings.save settings path world.files with
  | (files, .error .nul) => ({ world with files := files }, .broken (.file .nul))
  | (files, .error fault) =>
      ({ world with files := files },
        .saying world Run.unexpectedCode <| Console.inColour "red"
          [raw "❌ Failed to write settings: ", raw fault.message])
  | (files, .ok ()) =>
      ({ world with files := files },
        .saying world 0
          (settingsPanel path settings.download.ndownloads settings.download.retries))

/-- Makes a file with settings. -/
def init (path : Option Path) (ndownloads retries : Nat) (force : Bool) (world : World) :
    World × Exit :=
  match path.orElse fun _ => Settings.defaultPath? world with
  | none => (world, .broken .homeless)
  | some path =>
      match world.files.exists? path with
      | .error fault => (world, .broken (.file fault))
      | .ok there =>
          if there && !force then
            (world, .saying world Run.unexpectedCode <| Console.inColour "red"
              [raw path.text, raw " already exists. Use --force to overwrite it."])
          else match Settings.Profile.starting ndownloads retries with
            | .bad faults => (world, .broken (.settings faults))
            | .good settings => saveAt path settings world

-- ============================================================= program

/-- Does what a command says. -/
def perform (shared : Shared) (command : Command) (world : World) : World × Exit :=
  match command with
  | .run mode title => run shared mode title world
  | .init path ndownloads retries force => init path ndownloads retries force world

/-- The program, given the words of its command line. It also says how much
is logged. -/
def program (words : List Text) (world : World) : World × Loudness × Exit :=
  match readShared words with
  | .error refusal => (world, .warnings, .ofRefusal refusal)
  | .ok (shared, name, left) =>
      let loudness : Loudness := if shared.verbose then .everything else .news
      match name.read left with
      | .error refusal => (world, loudness, .ofRefusal refusal)
      | .ok command =>
          let (world, ending) := perform shared command world
          (world, loudness, ending)

end FeedSieve.CommandLine
