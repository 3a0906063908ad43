/-
What a run is to do.

A run reads a feed from a URL or a file, selects items by a query, and does
one of three things with them: it lists them, downloads their enclosures,
or makes a new feed of them. Its options are taken as the user gives them,
with one default from the settings, and are checked together; the first
rule they break is reported.
-/
import FeedSieve.Files.Path
import FeedSieve.Settings.Basic

namespace FeedSieve.Run

open Files (Path)

/-- What to do with the selected items. -/
inductive Mode where
  | check | download | create
deriving Repr, DecidableEq

/-- The word for a mode. -/
def Mode.name : Mode → Text
  | check => "check"
  | download => "download"
  | create => "create"

/-- The mode that a word names. -/
def Mode.ofName? (word : Text) : Option Mode :=
  [Mode.check, .download, .create].find? (·.name == word)

/-- Options as the user gives them. -/
structure Options where
  /-- The address of the feed. -/
  url : Option Text
  /-- The file of the feed. -/
  file : Option Path
  /-- The directory to download to, or the file of the new feed. -/
  output : Option Path
  /-- The query; empty for all items. -/
  query : Text
  /-- How many downloads run at a time. -/
  ndownloads : Option Int
  /-- The title of the new feed. -/
  title : Option Text
deriving Repr, DecidableEq

/-- Options that make a run. -/
structure Config where
  /-- What to do. -/
  mode : Mode
  /-- The address of the feed, empty if there is none. -/
  url : Option Text
  /-- The file of the feed. -/
  file : Option Path
  /-- The directory to download to, or the file of the new feed. -/
  output : Path
  query : Text
  /-- How many downloads run at a time. -/
  ndownloads : Nat
  /-- The title of the new feed. -/
  title : Option Text
deriving Repr, DecidableEq

/-- Which rule options break. -/
inductive OptionFault where
  /-- There are two sources. -/
  | twoSources
  /-- There is no source. -/
  | noSource
  /-- There is no output. -/
  | noOutput
  /-- There should be at least one download at a time. -/
  | noDownloads (given : Int)
  /-- Only a new feed has a title. -/
  | title
deriving Repr, DecidableEq

/-- The wording. -/
def OptionFault.message : OptionFault → Text
  | twoSources => "--url and --file are mutually exclusive"
  | noSource => "one of --url or --file is required"
  | noOutput => "--output is required"
  | noDownloads given => Text.concat
      ["--ndownloads must be at least 1, got ", Text.ofInt given]
  | title => "--title only applies to create"

/-- The breach of a rule as a fault of the options as a whole. -/
def OptionFault.fault (f : OptionFault) : Lax.Fault := ⟨[], .rule f.message⟩

/-- Whether an address is given; an empty one is not. -/
def hasUrl (url : Option Text) : Bool := !(url.getD []).isEmpty

namespace Config

/-- Puts the options of a run together. -/
def ofOptions (mode : Mode) (options : Options) (settings : Settings.Profile) :
    Except OptionFault Config :=
  let ndownloads := options.ndownloads.getD settings.download.ndownloads
  if hasUrl options.url && options.file.isSome then .error .twoSources
  else if !hasUrl options.url && options.file.isNone then .error .noSource
  else match options.output with
    | none => .error .noOutput
    | some output =>
        if ndownloads < 1 then .error (.noDownloads ndownloads)
        else if options.title.isSome && mode != .create then .error .title
        else .ok ⟨mode, options.url, options.file, output, options.query, ndownloads.toNat,
          options.title⟩

/-- Whether the feed comes from a URL. -/
def sourceIsUrl (config : Config) : Bool := hasUrl config.url

/-- Where the feed comes from. -/
def source (config : Config) : Text :=
  if config.sourceIsUrl then config.url.getD []
  else (config.file.map Path.text).getD []

/-- The directory in which downloaded files are looked for. -/
def directory (config : Config) : Path :=
  if config.mode = .create then config.output.parent else config.output

end Config

end FeedSieve.Run
