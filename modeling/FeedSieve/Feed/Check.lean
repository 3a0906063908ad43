/-
Items and channels given as data.
-/
import FeedSieve.Lax.Read
import FeedSieve.Feed.Basic

namespace FeedSieve.Feed

open Lax (Checked Value)

/-- Reads an item from the fields of a record. A naive moment is taken to be
in UTC, so that any two dates compare. -/
def Item.check (fields : List (Text × Value)) : Checked Item :=
  let part {α : Type} (name : Text) (absent : Checked α) (read : Value → Checked α) :=
    Lax.field fields name absent read
  let word (name : Text) : Checked (Option Text) := part name (.good none) (Lax.optional Lax.text)
  let moment := part "published_at" (.good none) (Lax.optional Lax.moment)
  Item.mk
    <$> part "index" (.flawed .missing) (Lax.natFrom 1)
    <*> part "title" (.good []) Lax.text
    <*> part "description" (.good []) Lax.text
    <*> ((Option.map Calendar.Moment.inUtcIfNaive) <$> moment)
    <*> word "published"
    <*> word "link"
    <*> word "guid"
    <*> word "enclosure_url"
    <*> word "enclosure_type"
    <*> part "enclosure_length" (.good none) (Lax.optional Lax.int)

/-- Reads an item from a value. -/
def Item.checkValue : Value → Checked Item
  | .record fields => Item.check fields
  | _ => .flawed (.modelType "FeedItem")

/-- Reads a channel from the fields of a record. -/
def Channel.check (fields : List (Text × Value)) : Checked Channel :=
  let part {α : Type} (name : Text) (absent : Checked α) (read : Value → Checked α) :=
    Lax.field fields name absent read
  let word (name : Text) : Checked (Option Text) := part name (.good none) (Lax.optional Lax.text)
  Channel.mk
    <$> part "title" (.good []) Lax.text
    <*> part "link" (.good []) Lax.text
    <*> part "description" (.good []) Lax.text
    <*> word "language"
    <*> word "copyright"
    <*> word "managing_editor"
    <*> word "pub_date"
    <*> part "categories" (.good []) (Lax.members .listType Lax.text)
    <*> part "items" (.good []) (Lax.members .listType Item.checkValue)

end FeedSieve.Feed
