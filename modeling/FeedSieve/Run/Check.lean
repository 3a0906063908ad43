/-
Listing the selected items.

A table has one row for each, and the command that downloads them is shown
below it. The command names everything that makes a difference, so that it
means the same run even if the settings have changed. It is put together
last: if there is a number in it that is too long to be written, the table
has been shown by then.
-/
import FeedSieve.Run.Report
import FeedSieve.Text.ShellWord

namespace FeedSieve.Run

open Console (Line Shown raw)
open Feed (Channel Item)

/-- The words of the command that downloads what a run selects. -/
def Config.downloadWords (config : Config) : List Text :=
  let query : List Text := if config.query.isEmpty then [] else ["--query", config.query]
  Product.name ::
    (if config.sourceIsUrl then "--url".toList else "--file".toList) :: config.source ::
    "--output".toList :: config.output.text ::
    "--ndownloads".toList :: Text.ofNat config.ndownloads ::
    (query ++ ["download".toList])

/-- The command that downloads what a run selects. -/
def Config.downloadCommand (config : Config) : Text := ShellWord.join config.downloadWords

/-- The line that says that nothing was selected. -/
def noMatches (query : Text) : Shown :=
  Console.inColour "yellow"
    [raw "Didn't find any matches with query: ",
      if query.isEmpty then raw "(all)" else .text query]

/-- The row of an item. -/
def itemRow (item : Item) : List Line :=
  let published := match item.publishedAt with
    | some moment => moment.short
    | none => "-"
  let enclosure := match item.enclosureUrl with
    | some url => if url.isEmpty then raw "[red]none[/red]" else .text url
    | none => raw "[red]none[/red]"
  [[raw (Text.ofNat item.index)], [.text item.title], [raw published], [enclosure]]

/-- The table of items. -/
def itemTable (channel : Channel) (selected : List Item) : Shown :=
  .table
    [if channel.title.isEmpty then raw "Feed" else .text channel.title,
      raw (Text.concat [": ", Text.ofNat selected.length, " of ",
        Text.ofNat channel.items.length, " items match"])]
    ["#", "Title", "Published", "Enclosure"]
    (selected.map itemRow)

/-- What is shown of the selected items. -/
def listing (config : Config) (channel : Channel) (selected : List Item) : List Shown :=
  if selected.isEmpty then [noMatches config.query]
  else
    [itemTable channel selected,
      .line [raw "\nTo download these files run:\n\t", .text config.downloadCommand]]

/-- Lists items. -/
def check (config : Config) (channel : Channel) (selected : List Item) : Report :=
  if selected.isEmpty || Text.isWritable config.ndownloads then
    ⟨[[]], listing config channel selected, .ok 0⟩
  else ⟨[], [itemTable channel selected], .error .numeral⟩

end FeedSieve.Run
