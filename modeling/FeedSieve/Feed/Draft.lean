/-
From a loose document to a channel.

A feed document, of whatever format, is first made into a draft: named
values for the channel and for each entry. A draft settles nothing. Values
may be missing, empty or of a wrong sort, and several names may carry what
one field of the channel wants. Here it is decided which counts.

For an item the date that is written down decides when it was published; a
date that comes in numbers, already shifted to UTC, is only used where the
text means nothing. Of several enclosures the first counts.

Most drafts come out as channels. A draft without a version is not a feed,
and a malformed document is refused. Whatever else goes wrong breaks the
reading off.
-/
import FeedSieve.Feed.Check
import FeedSieve.Feed.Length
import FeedSieve.Feed.Timestamp

namespace FeedSieve.Feed

open Calendar (Moment)
open Lax (Checked Value fieldOf?)

/-- Named values. -/
abbrev Fields := List (Text × Value)

/-- What was made of a document. -/
structure Draft where
  /-- The format; absent if there was no document at all. -/
  version : Option Value
  /-- What is malformed about the document. -/
  malformed : Option Text
  /-- The values of the channel. -/
  channel : Fields
  /-- The values of the entries in document order. -/
  entries : List Fields

/-- Why a document is refused. -/
inductive Unreadable where
  /-- It is malformed. -/
  | malformed (source why : Text)
  /-- It is not a feed. -/
  | notFeed (source : Text)
deriving Repr, DecidableEq

/-- The wording. -/
def Unreadable.message : Unreadable → Text
  | malformed source why => Text.concat ["Malformed feed document ", source, ": ", why]
  | notFeed source => source ++ " is not an RSS or Atom feed".toList

/-- Why reading breaks off. -/
inductive Break where
  /-- A date breaks it off. -/
  | date (what : DateBreak)
  /-- A date in numbers that are out of all bounds. -/
  | numbers (what : Calendar.Overflow)
  /-- A length that is infinite. -/
  | length
  /-- A date that is no text; the name of what it is. -/
  | notText (sort : Text)
  /-- Values of a wrong sort. -/
  | faults (faults : List Lax.Fault)
  /-- There is no document. -/
  | nothing
  /-- The library that takes the document apart breaks it off. -/
  | library (what : Text)
deriving Repr, DecidableEq

/-- The wording. -/
def Break.message : Break → Text
  | date what => what.message
  | numbers what => what.message
  | length => "cannot convert float infinity to integer"
  | notText sort => Text.concat ["'", sort, "' object has no attribute 'split'"]
  | faults all => Text.joinWith "; " (all.map fun fault => fault.flaw.message)
  | nothing => "object has no attribute 'version'"
  | library what => what

/-- How reading a document ends badly. -/
inductive Failure where
  | unreadable (what : Unreadable)
  | broken (what : Break)
deriving Repr, DecidableEq

/-- The wording. -/
def Failure.message : Failure → Text
  | unreadable what => what.message
  | broken what => what.message

-- ============================================================== values

/-- Whether a value counts as given: not null, false, zero or empty. -/
def isGiven : Value → Bool
  | .null => false
  | .bool b => b
  | .int i => i != 0
  | .double (.finite _ mantissa _) => mantissa != 0
  | .double _ => true
  | .text t => !t.isEmpty
  | .bytes spelt? => spelt? != some []
  | .list vs => !vs.isEmpty
  | .record fields => !fields.isEmpty
  | .other => true

/-- The name of the sort of a value. -/
def sortName : Value → Text
  | .null => "NoneType"
  | .bool _ => "bool"
  | .int _ => "int"
  | .double _ => "float"
  | .text _ => "str"
  | .bytes _ => "bytes"
  | .list _ => "list"
  | .record _ => "dict"
  | .other => "object"

/-- A field, or null. -/
def valueOf (fields : Fields) (name : Text) : Value := (fieldOf? fields name).getD .null

/-- A field, or the empty text. -/
def wordOf (fields : Fields) (name : Text) : Value := (fieldOf? fields name).getD (.text [])

/-- The first value if it counts as given, else the second. -/
def orElse (a b : Value) : Value := if isGiven a then a else b

/-- The members of a list. -/
def membersOf : Value → List Value
  | .list vs => vs
  | _ => []

/-- The fields of a record. -/
def fieldsOf : Value → Fields
  | .record fields => fields
  | _ => []

-- =============================================================== dates

/-- Numbers at the beginning of a list; `none` as soon as one is missing. -/
def integers? : List Value → Option (List Int)
  | [] => some []
  | .int i :: rest => (integers? rest).map (i :: ·)
  | .bool b :: rest => (integers? rest).map ((if b then 1 else 0) :: ·)
  | _ => none

/-- The moment in UTC that up to six numbers name: year, month and day at
least. A number out of all bounds counts only if all before it are numbers. -/
def momentOfNumbers (vs : List Value) : Except Calendar.Overflow (Option Moment) := do
  let vs := vs.take 6
  let before := vs.takeWhile fun v => (integers? [v]).isSome
  if vs.length < 3 then return none
  Calendar.MailDate.fitMachine ((integers? before).getD [])
  match integers? vs with
  | some (year :: month :: day :: clock) =>
      return do
        let numbers ← (year :: month :: day :: clock).mapM Calendar.MailDate.natural?
        let date ← Calendar.Date.ofParts? (numbers.getD 0 0) (numbers.getD 1 0) (numbers.getD 2 0)
        Moment.ofClock? date (numbers.getD 3 0) (numbers.getD 4 0) (numbers.getD 5 0) 0 (some 0)
  | _ => return none

/-- The moment in UTC that a value names by its numbers. -/
def momentOfValue : Value → Except Calendar.Overflow (Option Moment)
  | .list vs => momentOfNumbers vs
  | _ => .ok none

/-- The date of an entry as it is written down. -/
def writtenDate (entry : Fields) : Value :=
  orElse (valueOf entry "published") (valueOf entry "updated")

/-- The date of an entry in numbers. -/
def parsedDate (entry : Fields) : Value :=
  orElse (valueOf entry "published_parsed") (valueOf entry "updated_parsed")

/-- When an entry was published. -/
def momentOf (entry : Fields) : Except Break (Option Moment) := do
  let written ← match writtenDate entry with
    | .text [] => pure none
    | .text t => match timestamp t with
        | .ok m => pure m
        | .error what => throw (.date what)
    | v => if isGiven v then throw (.notText (sortName v)) else pure none
  match written with
  | some m => return some m
  | none =>
      match momentOfValue (parsedDate entry) with
      | .ok m => return m
      | .error what => throw (.numbers what)

-- =============================================================== items

/-- The accepted value, or a break. -/
def accept {α : Type} : Checked α → Except Break α
  | .good a => .ok a
  | .bad faults => .error (.faults faults)

/-- The item made of an entry. -/
def Item.ofEntry (index : Nat) (entry : Fields) : Except Break Item := do
  let enclosure := ((membersOf (valueOf entry "enclosures")).head?.map fieldsOf).getD []
  let description := match valueOf entry "summary" with
    | .null => wordOf entry "description"
    | v => v
  let moment ← momentOf entry
  let length ← match length? (valueOf enclosure "length") with
    | some n => pure n
    | none => throw .length
  let optional (name : Text) (v : Value) : Checked (Option Text) :=
    (Lax.optional Lax.text v).within name
  accept <| (fun title description published link guid url type =>
      (⟨index, title, description, moment.map Moment.inUtcIfNaive, published, link, guid, url,
        type, length⟩ : Item))
    <$> (Lax.text (wordOf entry "title")).within "title"
    <*> (Lax.text (orElse description (.text []))).within "description"
    <*> optional "published" (writtenDate entry)
    <*> optional "link" (valueOf entry "link")
    <*> optional "guid" (valueOf entry "id")
    <*> optional "enclosure_url" (orElse (valueOf enclosure "href") (valueOf enclosure "url"))
    <*> optional "enclosure_type" (orElse (valueOf enclosure "type") .null)

/-- The items made of entries, numbered from `index`. -/
def itemsOf (index : Nat) : List Fields → Except Break (List Item)
  | [] => .ok []
  | entry :: rest => do
      let item ← Item.ofEntry index entry
      let items ← itemsOf (index + 1) rest
      return item :: items

-- ============================================================ channels

/-- The terms of the categories that have one. -/
def termsOf (tags : Value) : List Value :=
  ((membersOf tags).map fun tag => valueOf (fieldsOf tag) "term").filter isGiven

/-- The channel made of a draft. `source` is where the document comes from. -/
def Draft.channel? (draft : Draft) (source : Text) : Except Failure Channel := do
  match draft.malformed with
  | some why => throw (.unreadable (.malformed source why))
  | none =>
    match draft.version with
    | none => throw (.broken .nothing)
    | some version =>
      if !isGiven version then throw (.unreadable (.notFeed source))
      let items ← match itemsOf 1 draft.entries with
        | .ok items => pure items
        | .error what => throw (.broken what)
      let feed := draft.channel
      let word (name : Text) (v : Value) : Checked Text := (Lax.text v).within name
      let optional (name : Text) (v : Value) : Checked (Option Text) :=
        (Lax.optional Lax.text v).within name
      let made := (fun title link description language rights author published categories =>
          (⟨title, link, description, language, rights, author, published, categories, items⟩ :
            Channel))
        <$> word "title" (wordOf feed "title")
        <*> word "link" (wordOf feed "link")
        <*> word "description" (orElse (wordOf feed "subtitle") (wordOf feed "description"))
        <*> optional "language" (valueOf feed "language")
        <*> optional "copyright" (valueOf feed "rights")
        <*> optional "managing_editor" (valueOf feed "author")
        <*> optional "pub_date" (valueOf feed "published")
        <*> (Checked.all Lax.text 0 (termsOf (valueOf feed "tags"))).within "categories"
      match made with
      | .good channel => return channel
      | .bad faults => throw (.broken (.faults faults))

end FeedSieve.Feed
