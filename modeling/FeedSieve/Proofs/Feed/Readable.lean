/-
Whether a new feed can be read.

The title of a new feed is free text: it comes from the user, or from the
query, and no reader has seen it before. The writer escapes what is markup in
it, but a character that may not stand in a document at all it writes as any
other, and then the document is malformed. So a feed that was written is not
always one that is read: it depends on the characters of its texts, on the
dates of its items, and on whether those texts that are taken for pages can be
made harmless (`written_readable_iff`). The title is the given one, trimmed,
unless it is taken for a page that is not, or looks as if it had been decoded
wrongly.
-/
import FeedSieve.Proofs.Feed.Dates
import FeedSieve.Proofs.Feed.Legible
import FeedSieve.Proofs.Feed.Replaced
import FeedSieve.Proofs.Feed.Settled

namespace FeedSieve.Feed

open Charset (mended)
open Files (Path Tree)

variable {library : Library} {source : Channel} {items : List Item} {title mark : Text}
  {now : Calendar.Moment} {obstacle : Obstacle} {path : Path} {bytes : Bytes}
  {files after : Tree}

-- ============================================================== dates

/-- An item comes back unless reading breaks off at the date that is kept. -/
theorem again_ok_iff (library : Library) (item : Item) (index : Nat) :
    (∃ again, item.again library index = .ok again) ↔ ∀ t, item.kept = some t → ¬ Breaks t := by
  unfold Item.again
  cases item.kept with
  | none => exact ⟨fun _ _ h => (by cases h), fun _ => ⟨_, rfl⟩⟩
  | some t =>
      have hone : (∀ u, some t = some u → ¬ Breaks u) ↔ ¬ Breaks t :=
        ⟨fun h => h t rfl, fun h _ hu => Option.some.inj hu ▸ h⟩
      rw [hone, ← timestamp_breaks_iff, Option.elim_some, Library.meaning]
      cases timestamp t with
      | error why => exact ⟨fun ⟨_, h⟩ => (by cases h), fun h => absurd ⟨why, rfl⟩ h⟩
      | ok m => exact ⟨fun _ ⟨_, h⟩ => (by cases h), fun _ => ⟨_, rfl⟩⟩

/-- Items come back if each of them does. -/
theorem items_again_ok_iff (library : Library) (items : List Item) (index : Nat) :
    (∃ again, itemsOfRecords index (items.map (Item.record library)) = .ok again)
      ↔ ∀ item ∈ items, ∀ t, item.kept = some t → ¬ Breaks t := by
  induction items generalizing index with
  | nil => exact ⟨fun _ _ h => (by cases h), fun _ => ⟨[], rfl⟩⟩
  | cons item rest ih =>
      rw [List.forall_mem_cons, ← ih (index + 1), ← again_ok_iff library item index, ← record_item]
      constructor
      · rintro ⟨again, hagain⟩
        cases again with
        | nil => cases (itemsOfRecords_eq_ok_iff.mp hagain).1
        | cons first more =>
            obtain ⟨hfirst, hmore⟩ := itemsOfRecords_cons.mp hagain
            exact ⟨⟨first, hfirst⟩, more, hmore⟩
      · rintro ⟨⟨first, hfirst⟩, more, hmore⟩
        exact ⟨first :: more, itemsOfRecords_cons.mpr ⟨hfirst, hmore⟩⟩

-- ========================================================== documents

/-- A new feed is read, and its title as one without blanks at its ends, if
and only if its texts may stand in a document, none of them and no date breaks
reading off, and the title is left as it is. -/
theorem read_document_title_iff (library : Library) (place : Text) :
    (∃ again, read library (Utf8.encode (Xml.writeDocument (document source items title now)))
        place = .ok again ∧ again.title = Text.trim (Xml.unifyLines title))
      ↔ ((∀ t ∈ source.texts title, Legible t)
          ∧ ∀ item ∈ items, ∀ t ∈ item.texts, Legible t)
        ∧ (source.flaw? library title = none ∧ ∀ item ∈ items, item.flaw? library = none)
        ∧ (∀ item ∈ items, ∀ t, item.kept = some t → ¬ Breaks t)
        ∧ (library.purify .plain false (Text.trim (Xml.unifyLines title))).map mended
          = .ok (Text.trim (Xml.unifyLines title)) := by
  have htitle (again : List Item) : ((source.record library title now).channel again).title
      = library.cleaned .plain title := by
    rw [record_channel]
  rw [← legal_document_iff, ← items_again_ok_iff library items 1, ← documentFlaw?_eq_none_iff,
    Library.map_mended_eq_ok_iff]
  constructor
  · rintro ⟨again, hread, hsame⟩
    by_cases hlegal : (document source items title now).Legal
    · obtain ⟨hflaw, hitems, hchannel⟩ := (read_document_eq_ok_iff hlegal place).mp hread
      have hplain := (documentFlaw?_eq_none_iff.mp hflaw).1
      rw [Channel.flaw?, Option.or_eq_none_iff, Option.or_eq_none_iff] at hplain
      rw [← hchannel, htitle] at hsame
      exact ⟨hlegal, hflaw, ⟨_, hitems⟩, hplain.1.1, hsame⟩
    · exact absurd hread (read_document_illegal library hlegal place again)
  · rintro ⟨hlegal, hflaw, ⟨again, hitems⟩, -, hsame⟩
    refine ⟨(source.record library title now).channel again, ?_, (htitle again).trans hsame⟩
    exact (read_document_eq_ok_iff hlegal place).mpr ⟨hflaw, hitems, rfl⟩

-- =============================================================== files

/-- The bytes are at the path when writing has come to its end. -/
theorem stat_of_replaced (hfresh : Fresh mark path files) (hsystem : obstacle.OfSystem)
    (h : replaceThrough obstacle mark path bytes files = (after, .ok ())) :
    after.stat path = .ok (.file bytes Files.plainMode) := by
  obtain ⟨made, -, hspec⟩ := replaceThrough_spec bytes hfresh hsystem
  rw [h] at hspec
  obtain ⟨hnul, directory, hgoal, hplain, hat⟩ := hspec
  exact (stat_of_placed hnul hgoal hplain hat).2.2

/-- A new feed that has been written is at its path. It is read, and its title
is the given one without blanks at its ends, if and only if all of its texts
may stand in a document, none that is taken for a page breaks reading off, the
dates of its items are such that reading does not break off there either, and
the title is not changed where it is taken for a page and does not look as if
it had been decoded wrongly. -/
theorem written_readable_iff (library : Library) {world left : World}
    (hfresh : Fresh world.mark path world.files) (hsystem : obstacle.OfSystem)
    (hwritten : writeThrough obstacle source items title path world = (left, .ok ()))
    (place : Text) :
    ∃ content, left.files.stat path = .ok (.file content Files.plainMode)
      ∧ ((∃ again, read library content place = .ok again
            ∧ again.title = Text.trim (Xml.unifyLines title))
        ↔ ((∀ t ∈ source.texts title, Legible t)
            ∧ ∀ item ∈ items, ∀ t ∈ item.texts, Legible t)
          ∧ (source.flaw? library title = none ∧ ∀ item ∈ items, item.flaw? library = none)
          ∧ (∀ item ∈ items, ∀ t, item.kept = some t → ¬ Breaks t)
          ∧ (library.purify .plain false (Text.trim (Xml.unifyLines title))).map mended
            = .ok (Text.trim (Xml.unifyLines title))) := by
  unfold writeThrough at hwritten
  simp only [Prod.mk.injEq] at hwritten
  obtain ⟨rfl, hended⟩ := hwritten
  exact ⟨_, stat_of_replaced hfresh hsystem (Prod.ext rfl hended),
    read_document_title_iff library place⟩

/-- A feed without items. -/
def bareFeed : Channel := ⟨"A", [], [], none, none, none, none, [], []⟩

/-- A title with blanks around it is read trimmed. One that holds a control
character is written as well, and is not read. -/
theorem written_readable_iff_control :
    (writeThrough .none bareFeed [] " <A> & B\r" ⟨.here, ["feed.xml"]⟩ outOfDate).2 = .ok ()
      ∧ (∃ content, (writeThrough .none bareFeed [] " <A> & B\r" ⟨.here, ["feed.xml"]⟩
            outOfDate).1.files.stat ⟨.here, ["feed.xml"]⟩ = .ok (.file content Files.plainMode)
          ∧ ∃ again, read .plain content "feed.xml" = .ok again ∧ again.title = "<A> & B".toList)
      ∧ (writeThrough .none bareFeed [] "\x01" ⟨.here, ["feed.xml"]⟩ outOfDate).2 = .ok ()
      ∧ ∃ content, (writeThrough .none bareFeed [] "\x01" ⟨.here, ["feed.xml"]⟩
            outOfDate).1.files.stat ⟨.here, ["feed.xml"]⟩ = .ok (.file content Files.plainMode)
          ∧ ¬ ∃ again, read .plain content "feed.xml" = .ok again
            ∧ again.title = "\x01".toList := by
  have hfresh : Fresh outOfDate.mark ⟨.here, ["feed.xml"]⟩ outOfDate.files :=
    fresh_of_getLast? (by decide) (by decide)
  have hsystem : Obstacle.none.OfSystem := fun fault h _ => by simp [Obstacle.none] at h
  have hplain : (writeThrough .none bareFeed [] " <A> & B\r" ⟨.here, ["feed.xml"]⟩ outOfDate).2
      = .ok () := by decide +kernel
  have hcontrol : (writeThrough .none bareFeed [] "\x01" ⟨.here, ["feed.xml"]⟩ outOfDate).2
      = .ok () := by decide +kernel
  refine ⟨hplain, ?_, hcontrol, ?_⟩
  · obtain ⟨content, hstat, hread⟩ :=
      written_readable_iff .plain hfresh hsystem (Prod.ext rfl hplain) "feed.xml"
    exact ⟨content, hstat, hread.mpr ⟨by decide +kernel, by decide +kernel,
      fun _ hitem => (by cases hitem), by decide +kernel⟩⟩
  · obtain ⟨content, hstat, hread⟩ :=
      written_readable_iff .plain hfresh hsystem (Prod.ext rfl hcontrol) "feed.xml"
    refine ⟨content, hstat, fun h => ?_⟩
    have htitle := (hread.mp h).1.1 "\x01".toList List.mem_cons_self
    exact absurd htitle (by decide)

end FeedSieve.Feed
