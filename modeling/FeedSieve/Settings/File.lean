/-
Settings in a file.

The file is a document of plain records. One that is not there, and one
with nothing in it, leave everything at its default. What is written reads
back as the same settings.
-/
import FeedSieve.Settings.Basic
import FeedSieve.World
import FeedSieve.Yaml.Value
import FeedSieve.Yaml.Written

namespace FeedSieve.Settings

open Files (Path)

-- ============================================================ location

/-- The variable that says where the settings are. -/
def pathVariable : Text := "DUMPTRUCK_CONFIG"

/-- Where the settings are if nobody says so; `none` if there is no home
directory to look in. -/
def defaultPath? (world : World) : Option Path :=
  match world.valueOf? pathVariable with
  | some path => world.expand? (.ofText path)
  | none => world.expand? (.ofText "~/.config/dumptruck/config.yaml")

-- ============================================================= reading

/-- Why there are no settings. -/
inductive Unloaded where
  /-- The document is malformed. -/
  | malformed (path : Path)
  /-- The document is no record of settings. -/
  | invalid (path : Path) (faults : List Lax.Fault)
  /-- The file cannot be read. -/
  | unreadable (path : Path) (fault : Files.Fault)
  /-- It cannot even be seen whether it is there. -/
  | hidden (fault : Files.Fault)
  /-- The file is no text. -/
  | undecodable (what : Utf8.Undecodable)
  /-- A value in the document is none. -/
  | value (fault : Yaml.Fault)
  /-- There is no home directory to look for it in. -/
  | homeless
deriving Repr, DecidableEq

/-- The wording. -/
def Unloaded.message : Unloaded → Text
  | malformed path => Text.concat
      ["Invalid YAML in config file ", path.text, ": ", Yaml.Fault.malformed.message]
  | invalid path faults => Text.concat
      ["Invalid configuration in ", path.text, ": ",
        if faults.isEmpty then "not a record"
        else Text.joinWith "; " (faults.map fun f => f.flaw.message)]
  | unreadable path fault => Text.concat
      ["Cannot read config file ", path.text, ": ", fault.message]
  | hidden fault => fault.message
  | undecodable what => what.message
  | value fault => fault.message
  | homeless => World.homelessMessage

/-- A text with the line ends of other systems made into plain ones. -/
def plainLines : Text → Text
  | [] => []
  | '\r' :: '\n' :: rest => '\n' :: plainLines rest
  | c :: rest => (if c = '\r' then '\n' else c) :: plainLines rest

/-- Where a file that ends within a character is said to end: what comes
before has been read by then. -/
def reported (what : Utf8.Undecodable) : Utf8.Undecodable :=
  if what.why = .ending then { what with position := 0 } else what

/-- The settings in a document. -/
def ofText (path : Path) (t : Text) : Except Unloaded Profile :=
  match Yaml.readFields (plainLines t) with
  | .error .malformed => .error (.malformed path)
  | .error fault => .error (.value fault)
  | .ok none => .error (.invalid path [])
  | .ok (some fields) =>
      match Profile.check fields with
      | .good settings => .ok settings
      | .bad faults => .error (.invalid path faults)

/-- Loads settings from a file. -/
def load (files : Files.Tree) (path : Path) : Except Unloaded Profile :=
  match files.exists? path with
  | .error fault => .error (.hidden fault)
  | .ok false => .ok .default
  | .ok true =>
      match files.read path with
      | .error fault => .error (.unreadable path fault)
      | .ok bytes =>
          match Utf8.decode bytes with
          | .error what => .error (.undecodable (reported what))
          | .ok t => ofText path t

/-- Loads settings from a file, or from where they are if none is named. -/
def loadFrom (path : Option Path) (world : World) : Except Unloaded Profile :=
  match path.orElse fun _ => defaultPath? world with
  | none => .error .homeless
  | some path => load world.files path

-- ============================================================= writing

/-- A field on a line of its own. -/
def line (indent : Nat) (name value : Text) : Text :=
  Text.concat [List.replicate indent ' ', name, ":", value, "\n"]

/-- A field and its value. -/
def field (name value : Text) : Text := line 2 name (' ' :: value)

/-- The document with these settings. -/
def toText (s : Profile) : Text :=
  let agent : Text := "user_agent"
  Text.concat
    [line 0 "download" [],
      field "ndownloads" (Text.ofNat s.download.ndownloads),
      field "timeout" (Yaml.writeDoubleNumber s.download.timeout),
      field "retries" (Text.ofNat s.download.retries),
      field "retry_delay_ms" (Text.ofNat s.download.retryDelay),
      line 0 "http" [],
      field "timeout" (Yaml.writeDoubleNumber s.http.timeout),
      field agent (Yaml.writeText (agent.length + 4) s.http.userAgent)]

/-- Saves settings to a file, and makes the directories it is in. -/
def save (s : Profile) (path : Path) (files : Files.Tree) : Files.Tree × Except Files.Fault Unit :=
  match files.makeAll path.parent with
  | (files, some fault) => (files, .error fault)
  | (files, none) =>
      match files.write path (Utf8.encode (toText s)) Files.plainMode with
      | .error fault => (files, .error fault)
      | .ok files => (files, .ok ())

end FeedSieve.Settings
