/-
Making a new feed of the selected items.

The new feed has the title that the user gives it, or else the title of its
source and the query. It is there before this is shown, so it stays even if
the console refuses the line that says so.
-/
import FeedSieve.Feed.Write
import FeedSieve.Run.Report

namespace FeedSieve.Run

open Console (Shown raw)
open Feed (Channel Item)

/-- The title of the new feed. -/
def Config.newTitle (config : Config) (channel : Channel) : Text :=
  config.title.getD (Text.concat [channel.title, "-", config.query])

/-- The line that says that there is a new feed. -/
def createdLine (title : Text) (count : Nat) (path : Files.Path) : Shown :=
  Console.inColour "green" [raw "✅ Created feed '", .text title,
    raw (Text.concat ["' with ", Text.ofNat count, " items: ", path.text])]

/-- Makes a new feed of items. -/
def create (config : Config) (channel : Channel) (selected : List Item) (world : World) :
    World × Report :=
  let title := config.newTitle channel
  match Feed.write channel selected title config.output world with
  | (world, .error why) => (world, .failed (.output why))
  | (world, .ok ()) =>
      let line := createdLine title selected.length config.output
      match world.refusal? line.markup with
      | some what => (world, .failed (.markup what))
      | none => (world, ⟨[[]], [line], .ok 0⟩)

end FeedSieve.Run
