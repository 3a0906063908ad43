/-
Selecting items.

Every predicate but one looks at an item alone, so selecting keeps the
items that satisfy it, in the order of the feed. The exception is `latest`,
which ranks all items by their instants, undated ones as the very first
moment of the calendar and equal instants by number, keeps the highest, and
puts them back in the order of their numbers.

Nothing is looked at when there are no items to select from.
-/
import FeedSieve.Download.Naming
import FeedSieve.Query.Predicate
import FeedSieve.Text.Fold

namespace FeedSieve.Query

open Feed (Item)

/-- Why items cannot be selected. -/
inductive Unselectable where
  /-- It is not known which files are there. -/
  | noDirectory
  /-- The address of an enclosure is broken. -/
  | url (why : Url.Broken)
deriving Repr, DecidableEq

/-- The wording. -/
def Unselectable.message : Unselectable → Text
  | noDirectory => "'notexists' needs a destination directory to compare against"
  | url why => why.message

/-- Whether a text contains one of the phrases, whatever their case. -/
def containsAny (t : Text) (keywords : List Text) : Bool :=
  keywords.any fun keyword => Text.occursIn (Text.fold keyword) (Text.fold t)

/-- Whether an item was published on a day of the set. -/
def publishedIn (set : DateSet) (item : Item) : Bool :=
  match item.publishedAt with
  | none => false
  | some moment => set.contains moment.date

/-- The instant by which an item is ranked. -/
def instantOf (item : Item) : Int := (item.publishedAt.getD Calendar.Moment.first).instant

/-- Whether an item is at least as recent as another. -/
def notOlder (a b : Item) : Bool :=
  instantOf b < instantOf a || (instantOf a == instantOf b && b.index ≤ a.index)

/-- The `n` most recent items by number; where two rank the same the one
that comes first in the feed is preferred. -/
def latest (n : Nat) (items : List Item) : List Item :=
  ((items.mergeSort notOlder).take n).mergeSort fun a b => a.index ≤ b.index

/-- Whether the file of an item is not among the names. -/
def isMissing (names : List Text) (item : Item) : Except Unselectable Bool :=
  match Download.fileName item with
  | .ok name => .ok (!names.contains name)
  | .error why => .error (.url why)

/-- The items whose files are not among the names. -/
def missingAmong (names : List Text) : List Item → Except Unselectable (List Item)
  | [] => .ok []
  | item :: rest => do
      let keep ← isMissing names item
      let kept ← missingAmong names rest
      return if keep then item :: kept else kept

/-- The items that satisfy a predicate. `names` are the files that are there,
if that is known. -/
def select (names : Option (List Text)) (predicate : Predicate) (items : List Item) :
    Except Unselectable (List Item) :=
  if items.isEmpty then .ok []
  else match predicate with
    | .all => .ok items
    | .number set => .ok (items.filter fun item => set.contains item.index)
    | .title keywords => .ok (items.filter fun item => containsAny item.title keywords)
    | .description keywords =>
        .ok (items.filter fun item => containsAny item.description keywords)
    | .date set => .ok (items.filter (publishedIn set))
    | .notexists =>
        match names with
        | none => .error .noDirectory
        | some names => missingAmong names items
    | .latest n => .ok (latest n items)

end FeedSieve.Query
