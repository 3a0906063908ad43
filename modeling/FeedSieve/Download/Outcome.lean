/-
What becomes of the download of an item.
-/
import FeedSieve.Download.Naming

namespace FeedSieve.Download

/-- How a fetch ends. -/
inductive Result where
  /-- The file is there. -/
  | saved
  /-- It failed, for a reason that fetches have. -/
  | failed (reason : Text)
  /-- It broke off for some other reason. -/
  | crashed (why : Text)
deriving Repr, DecidableEq

/-- Why there is no file after a fetch. -/
def Result.reason? : Result → Option Text
  | saved => none
  | failed reason => some reason
  | crashed why => some ("Unexpected error: ".toList ++ why)

/-- Why there is nothing to fetch for an item without enclosure. -/
def noEnclosure : Text := "no enclosure"

/-- What became of an item. -/
structure Outcome where
  /-- The number of the item. -/
  index : Nat
  title : Text
  /-- Where its file belongs. -/
  path : Files.Path
  /-- Why the file is not there, if it is not. -/
  reason : Option Text
deriving Repr, DecidableEq

/-- Whether the download succeeded. -/
def Outcome.succeeded (o : Outcome) : Bool := o.reason.isNone

/-- An item that is to be downloaded, and the path of its file. -/
structure Job where
  item : Feed.Item
  path : Files.Path
deriving Repr, DecidableEq

/-- The address to fetch, if there is one. -/
def Job.url? (job : Job) : Option Text := job.item.enclosureUrl.filter (!·.isEmpty)

/-- The outcome for a job, given why there is no file. -/
def Job.outcome (job : Job) (reason : Option Text) : Outcome :=
  ⟨job.item.index, job.item.title, job.path, reason⟩

/-- The outcomes in the order of the items they are about; of several items
with one number the last one counts. -/
def inItemOrder (items : List Feed.Item) (outcomes : List Outcome) : List Outcome :=
  let position (o : Outcome) : Nat :=
    items.length - (items.reverse.findIdx fun item => item.index == o.index)
  outcomes.mergeSort fun a b => position a ≤ position b

end FeedSieve.Download
