/-
Feed documents as this program makes them.

A new feed takes over what its source says about itself, under a title of
its own, and holds the selected items in the order in which they are given.
Of an item everything is kept that the format has a place for: the date as
the source wrote it, or the moment in mail form if there is only that. An
identifier that is not the address of the item is marked as not being one.
What is absent or empty is left out, but for the three fields every channel
must have.
-/
import FeedSieve.Feed.Basic
import FeedSieve.Product
import FeedSieve.Xml.Tree

namespace FeedSieve.Feed

open Calendar (Moment)
open Xml (Node)

/-- An element that holds text. -/
def leaf (name : Text) (t : Text) : Node := .element name [] [.text t]

/-- An element for a text that is given and not empty. -/
def leaf? (name : Text) : Option Text → List Node
  | some t => if t.isEmpty then [] else [leaf name t]
  | none => []

/-- The identifier of an item. -/
def guidNode (item : Item) : List Node :=
  match item.guid with
  | some guid =>
      if guid.isEmpty then []
      else
        let marks : List (Text × Text) :=
          if item.link = some guid then [] else [("isPermaLink", "false")]
        [.element "guid" marks [.text guid]]
  | none => []

/-- The date of an item. -/
def dateNode (item : Item) : List Node :=
  if (item.published.getD []).isEmpty then leaf? "pubDate" (item.publishedAt.map Moment.mail)
  else leaf? "pubDate" item.published

/-- The enclosure of an item. -/
def enclosureNode (item : Item) : List Node :=
  match item.enclosureUrl with
  | some url =>
      if url.isEmpty then []
      else
        let type : List (Text × Text) := match item.enclosureType with
          | some type => if type.isEmpty then [] else [("type", type)]
          | none => []
        let size := Text.ofInt (item.enclosureLength.getD 0)
        [.element "enclosure" (("url", url) :: ("length", size) :: type) []]
  | none => []

/-- The element of an item. -/
def itemNode (item : Item) : Node :=
  .element "item" []
    (leaf? "title" (some item.title) ++ leaf? "link" item.link ++
      leaf? "description" (some item.description) ++ guidNode item ++ dateNode item ++
      enclosureNode item)

/-- The document that holds `items`, made at the moment `now`. -/
def document (source : Channel) (items : List Item) (title : Text) (now : Moment) : Node :=
  .element "rss" [("version", "2.0")]
    [.element "channel" []
      ([leaf "title" title, leaf "link" source.link, leaf "description" source.description] ++
        leaf? "language" source.language ++ leaf? "copyright" source.copyright ++
        leaf? "managingEditor" source.managingEditor ++ leaf? "pubDate" source.pubDate ++
        [leaf "lastBuildDate" now.mail] ++
        source.categories.flatMap (fun category => leaf? "category" (some category)) ++
        [leaf "generator" Product.generator] ++ items.map itemNode)]

end FeedSieve.Feed
