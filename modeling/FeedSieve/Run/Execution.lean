/-
Running.

The query is read before anything is touched, the feed is loaded, items are
selected, and the mode does something with them. Each stage is entered only
when the one before has succeeded, so what a later stage would do is not
done when an earlier one fails.
-/
import FeedSieve.Query.Reader
import FeedSieve.Run.Check
import FeedSieve.Run.Create
import FeedSieve.Run.Download

namespace FeedSieve.Run

open Feed (Channel Item)
open Query (Predicate)
open Settings (Profile)

/-- The items that a run is about. Which files are there is only asked for a
predicate that depends on it. -/
def selected (config : Config) (predicate : Predicate) (channel : Channel) (world : World) :
    Except Failure (List Item) :=
  let names : Except Files.Fault (Option (List Text)) :=
    if predicate = .notexists then some <$> world.files.namesAt config.directory else .ok none
  match names with
  | .error fault => .error (.directory fault)
  | .ok names => (Query.select names predicate channel.items).mapError .selection

/-- Runs the mode. -/
def runMode (settings : Profile) (config : Config) (channel : Channel) (items : List Item)
    (world : World) : World × Report :=
  match config.mode with
  | .check => (world, check config channel items)
  | .download => download settings config channel items world
  | .create => create config channel items world

/-- Selects items and goes on. -/
def runSelection (settings : Profile) (config : Config) (predicate : Predicate)
    (channel : Channel) (world : World) : World × Report :=
  match selected config predicate channel world with
  | .error why => (world, .failed why)
  | .ok items =>
      let (world, report) := runMode settings config channel items world
      (world, report.after [("matches", .count items.length)])

/-- Loads the feed and goes on. -/
def runFeed (settings : Profile) (config : Config) (predicate : Predicate) (world : World) :
    World × Report :=
  match Feed.load settings.http.userAgent config.source (some config.sourceIsUrl) world with
  | (world, .error why) => (world, .failed (.feed why))
  | (world, .ok channel) =>
      let (world, report) := runSelection settings config predicate channel world
      (world, report.after [("items", .count channel.items.length)])

/-- Reads the query and goes on. -/
def run (settings : Profile) (config : Config) (world : World) : World × Report :=
  match Query.read config.query with
  | .error why => (world, .failed (.query why))
  | .ok predicate =>
      let (world, report) := runFeed settings config predicate world
      (world, report.after [("kind", .word predicate.name)])

end FeedSieve.Run
