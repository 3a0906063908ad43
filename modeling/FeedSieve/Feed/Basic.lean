/-
Feeds: a channel and its items.

An item is one entry of a feed; its number counts the entries from 1 in
document order. Of its date it keeps both the text the feed gives and the
moment that text was found to mean. What the feed does not say is absent,
except that the title and the description are empty then.
-/
import FeedSieve.Calendar.Moment

namespace FeedSieve.Feed

/-- An entry of a feed. -/
structure Item where
  /-- The position in the feed, from 1. -/
  index : Nat
  title : Text
  /-- The description or summary. -/
  description : Text
  /-- When it was published. -/
  publishedAt : Option Calendar.Moment
  /-- When it was published, as the feed says it. -/
  published : Option Text
  /-- The address of its page. -/
  link : Option Text
  /-- The identifier the feed gives it. -/
  guid : Option Text
  /-- The address of the enclosed media. -/
  enclosureUrl : Option Text
  /-- The media type of the enclosure. -/
  enclosureType : Option Text
  /-- The size of the enclosure in bytes, as the feed says it. -/
  enclosureLength : Option Int
deriving Repr, DecidableEq

/-- A feed. -/
structure Channel where
  title : Text
  /-- The address of its site. -/
  link : Text
  description : Text
  /-- The language code. -/
  language : Option Text
  /-- The copyright notice. -/
  copyright : Option Text
  /-- Who edits it. -/
  managingEditor : Option Text
  /-- When it was published, as the feed says it. -/
  pubDate : Option Text
  /-- What it is about. -/
  categories : List Text
  /-- Its entries in document order. -/
  items : List Item
deriving Repr, DecidableEq

end FeedSieve.Feed
