/-
What is said about a feed or an entry.

While a document is read, what it says is gathered in records, one for the
feed and one for each entry. A record keeps for a key what was said last, and
at which depth. A date is kept as it is written, and beside it in numbers if
it could be told what it means.

At the end a record is handed over as named values (`channelFields`,
`entryFields`).
-/
import FeedSieve.Feed.Draft

namespace FeedSieve.Feed

open Lax (Value)

-- ============================================================== stamps

/-- A date in numbers, shifted to UTC. There need not be such a date. -/
structure Stamp where
  year : Int32
  month : Int32
  day : Int32
  hour : Int32
  minute : Int32
  second : Int32
deriving Repr, DecidableEq

/-- The numbers in order. -/
def Stamp.numbers (s : Stamp) : List Int :=
  [s.year.toInt, s.month.toInt, s.day.toInt, s.hour.toInt, s.minute.toInt, s.second.toInt]

-- ============================================================= records

/-- What a record says by words. -/
inductive Key where
  | title | link | summary | subtitle | id | published | updated | author | rights | language
deriving Repr, DecidableEq

/-- A category: a term, the scheme it belongs to, and a label. -/
structure Tag where
  term : Text
  scheme : Text
  label : Text
deriving Repr, DecidableEq

/-- What is said about a feed or an entry. -/
structure Record where
  /-- Texts, each with the depth of the element that gave it; the latest first. -/
  words : List (Key × Nat × Text)
  /-- Categories in order. -/
  tags : List Tag
  /-- The attributes of the enclosures in order. -/
  enclosures : List (List (Text × Text))
  /-- Name and address of the latest author. -/
  author : Text × Text
  /-- The latest date of publication in numbers. -/
  publishedStamp : Option Stamp
  /-- The latest date of a change in numbers. -/
  updatedStamp : Option Stamp
deriving Repr, DecidableEq

namespace Record

/-- A record that says nothing. -/
def empty : Record := ⟨[], [], [], ([], []), none, none⟩

/-- What the record says for a key, and at which depth it was said. -/
def entry? (r : Record) (key : Key) : Option (Nat × Text) := r.words.lookup key

/-- What the record says for a key. -/
def word? (r : Record) (key : Key) : Option Text := (r.entry? key).map (·.2)

/-- Says something for a key. -/
def say (r : Record) (key : Key) (depth : Nat) (t : Text) : Record :=
  { r with words := (key, depth, t) :: r.words.filter fun w => w.1 != key }

/-- Says something for a key of which nothing has been said. -/
def suggest (r : Record) (key : Key) (depth : Nat) (t : Text) : Record :=
  if (r.word? key).isSome then r else r.say key depth t

/-- Says something for a key unless it was said further out. -/
def sayOver (r : Record) (key : Key) (depth : Nat) (t : Text) : Record :=
  match r.entry? key with
  | some (old, _) => if depth ≤ old then r.say key depth t else r
  | none => r.say key depth t

/-- Adds a category that says something and is not there yet. -/
def addTag (r : Record) (tag : Tag) : Record :=
  if (tag.term.isEmpty && tag.scheme.isEmpty && tag.label.isEmpty) || r.tags.contains tag then r
  else { r with tags := r.tags ++ [tag] }

/-- The text of a category: the term of the latest category that has none,
or a category of its own. -/
def nameTag (r : Record) (term : Text) : Record :=
  if term.isEmpty then r
  else match r.tags.getLast? with
    | some tag =>
        if tag.term.isEmpty then { r with tags := r.tags.dropLast ++ [{ tag with term := term }] }
        else r.addTag ⟨term, [], []⟩
    | none => r.addTag ⟨term, [], []⟩

/-- Says who the author is, if that is known by name or address. -/
def settleAuthor (r : Record) (depth : Nat) : Record :=
  match r.author with
  | ([], []) => r
  | (name, []) => r.say .author depth name
  | ([], email) => r.say .author depth email
  | (name, email) => r.say .author depth (Text.concat [name, " (", email, ")"])

/-- Says the date of publication in numbers. -/
def publish (r : Record) (stamp : Option Stamp) : Record := { r with publishedStamp := stamp }

/-- Says the date of a change in numbers. -/
def update (r : Record) (stamp : Option Stamp) : Record := { r with updatedStamp := stamp }

/-- A word as a field. -/
def field (r : Record) (name : Text) (key : Key) : Fields :=
  match r.word? key with
  | some t => [(name, .text t)]
  | none => []

/-- A date as a field; an empty one is none. -/
def dateField (r : Record) (name : Text) (key : Key) : Fields :=
  match r.word? key with
  | some (c :: t) => [(name, .text (c :: t))]
  | _ => []

/-- A date in numbers as a field. -/
def stampField (name : Text) : Option Stamp → Fields
  | some s => [(name, .list (s.numbers.map .int))]
  | none => []

/-- The fields for the description: the summary, or else the subtitle. -/
def descriptionField (r : Record) : Fields :=
  match r.word? .summary with
  | some t => [("description", .text t)]
  | none => r.field "description" .subtitle

/-- The record of the feed as fields. -/
def channelFields (r : Record) : Fields :=
  let tags := r.tags.map fun tag => Value.record [("term", .text tag.term)]
  r.field "title" .title ++ r.field "link" .link ++ r.field "subtitle" .subtitle ++
    r.descriptionField ++ r.field "language" .language ++ r.field "rights" .rights ++
    r.field "author" .author ++ r.dateField "published" .published ++
    [("tags".toList, Value.list tags)]

/-- The record of an entry as fields. -/
def entryFields (r : Record) : Fields :=
  let enclosures := r.enclosures.map fun attributes =>
    Value.record (attributes.map fun a => (a.1, .text a.2))
  r.field "title" .title ++ r.field "link" .link ++ r.field "summary" .summary ++
    r.descriptionField ++ r.field "id" .id ++ r.dateField "published" .published ++
    r.dateField "updated" .updated ++ stampField "published_parsed" r.publishedStamp ++
    stampField "updated_parsed" r.updatedStamp ++ [("enclosures".toList, Value.list enclosures)]

/-- The media types of the enclosures are left alone by `lower`. -/
def Lowered (lower : Text → Text) (r : Record) : Prop :=
  ∀ attributes ∈ r.enclosures, ∀ a ∈ attributes, a.1 = "type".toList → lower a.2 = a.2

end Record

end FeedSieve.Feed
