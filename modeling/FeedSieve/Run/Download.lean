/-
Downloading the selected items.

The directory is made, the enclosures are fetched, and a table says of every
item where its file is or why it is not. A download that fails is no failure
of the run, but shows in its exit code. While downloads run a bar counts the
items that are done with; it is taken away before anything else is shown,
even if the run fails.
-/
import FeedSieve.Download.Fetch
import FeedSieve.Run.Report

namespace FeedSieve.Run

open Console (Line Shown raw)
open Download (Happening Outcome)
open Feed (Channel Item)
open Settings (Profile)

/-- The exit code if not all downloads succeeded. -/
def partialCode : Nat := 5

/-- The line that begins a download. -/
def announcement (channel : Channel) : Shown :=
  .line [raw "You are about to download the contents of the feed: [bold]", .text channel.title,
    raw "[/bold]"]

/-- The row of an outcome. -/
def outcomeRow (o : Outcome) : List Line :=
  let status : Text := if o.succeeded then "[green]✓[/green]" else "[red]✗[/red]"
  let details := match o.reason with
    | none => o.path.text
    | some reason => if reason.isEmpty then "Failed" else reason
  [[raw (Text.ofNat o.index)], [.text o.title], [raw status], [.text details]]

/-- The table of outcomes; there is none without outcomes. -/
def summary (outcomes : List Outcome) : List Shown :=
  if outcomes.isEmpty then []
  else [.table [raw "Download Summary"] ["#", "Title", "Status", "Details"]
    (outcomes.map outcomeRow)]

/-- How many downloads succeeded. -/
def successes (outcomes : List Outcome) : Nat := (outcomes.filter (·.succeeded)).length

/-- The last line. -/
def verdict (outcomes : List Outcome) : Shown :=
  let failures := outcomes.length - successes outcomes
  if 0 < failures then
    Console.inColour "red" [raw (Text.concat
      ["❌ ", Text.ofNat failures, " of ", Text.ofNat outcomes.length, " downloads failed"])]
  else if outcomes.isEmpty then Console.inColour "yellow" [raw "Nothing to download"]
  else Console.inColour "green" [raw "✅ Full download successfully completed"]

/-- How many items were done with. -/
def reported (happened : List Happening) : Nat :=
  (happened.filter fun
    | .reported _ => true
    | _ => false).length

/-- What is left behind by downloads that have run. -/
def downloadReport (channel : Channel) (total : Nat) (happened : List Happening)
    (outcome : Except Download.Stop (List Outcome)) : Report :=
  let before := [announcement channel, .bar (reported happened) total]
  match outcome with
  | .error why => ⟨[], before, .error (.stopped why)⟩
  | .ok outcomes =>
      let succeeded := successes outcomes
      ⟨[[("succeeded", .count succeeded), ("failed", .count (outcomes.length - succeeded))]],
        before ++ summary outcomes ++ [verdict outcomes],
        .ok (if succeeded = outcomes.length then 0 else partialCode)⟩

/-- Downloads the enclosures of items. -/
def download (settings : Profile) (config : Config) (channel : Channel) (selected : List Item)
    (world : World) : World × Report :=
  match Download.prepare world.access world.files config.output with
  | (files, some why) =>
      ({ world with files := files },
        ⟨[], [announcement channel, .bar 0 selected.length], .error (.destination why)⟩)
  | (files, none) =>
      let fetching := Download.fetching settings.http.userAgent settings.download.retries
        settings.download.retryDelay
      let ended := Download.run fetching config.ndownloads config.output selected
        { world with files := files }
      (ended.world, downloadReport channel selected.length ended.happened ended.outcome)

end FeedSieve.Run
