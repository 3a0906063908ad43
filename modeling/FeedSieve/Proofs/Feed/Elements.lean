/-
The elements of a written feed, one by one.

Between two elements the reader is within the channel or within an item
(`atChannel`, `atItem`), and all that an element changes is the record of the
one or the other. An element that holds a text is read in three steps: it
begins, and its text is wanted; the text is collected; it ends, and the text
goes where its name says (`run_leaf`). So there is one lemma for each element
of an item and of a channel, and each says where the text goes and in what
form: trimmed and mended (`cleaned`), as an address without slashes in excess
(`cleanedAddress`), or as a page or a plain text (`Library.cleaned`). Only of
these something may break off, and then it is what comes first that counts.
-/
import FeedSieve.Feed.Document
import FeedSieve.Proofs.Feed.Drafted
import FeedSieve.Proofs.Feed.Written

namespace FeedSieve.Feed

open Xml (Event Node startOf textEvents)

variable {library : Library} {name t : Text} {attributes : List (Text × Text)} {role : Role}
  {depth : Nat}
  {feed entry : Record} {earlier entries : List Record} {titleDepth : Option Nat}
  {guidIsLink : Bool} {broken : Option Text} {blanks : List Text}

-- =============================================================== words

/-- Names without a prefix are known by what they are in small letters. -/
private theorem prefixOf?_nil : prefixOf? [] = none := by
  have hnamed : ∀ entry ∈ namespaces, entry.1 ≠ "" := by decide
  have hnone : (namespaces.find? fun entry => entry.1.toList == []) = none := by
    rw [List.find?_eq_none]
    intro entry hentry h
    exact hnamed entry hentry (String.toList_eq_nil_iff.mp (beq_iff_eq.mp h))
  have hloose : Text.occursIn loosePlain [] = false := by decide
  unfold prefixOf?
  simp only [Text.lowerPlain, List.map_nil, hnone, hloose, Bool.false_eq_true, if_false,
    Option.map_none]

private theorem wordOfName_plain (inUse : List (Text × Text)) (name : Text) :
    wordOfName inUse ⟨[], name⟩ = Text.lowerPlain name := by
  unfold wordOfName
  simp only [prefixOf?_nil, List.isEmpty_nil, if_true]

private theorem wordOfAttribute_of_prefixOf? {name : Xml.Name} (h : prefixOf? name.space = none) :
    wordOfAttribute name = Text.lowerPlain name.base := by
  unfold wordOfAttribute
  rw [h]

theorem wordOfAttribute_plain (name : Text) :
    wordOfAttribute ⟨[], name⟩ = Text.lowerPlain name :=
  wordOfAttribute_of_prefixOf? prefixOf?_nil

/-- The elements of a written feed and their roles. -/
def writtenRoles : List (String × Role) :=
  [("rss", .rss), ("channel", .channel), ("item", .item), ("title", .title), ("link", .link),
   ("description", .description), ("guid", .guid), ("pubDate", .published),
   ("enclosure", .enclosure), ("language", .language), ("copyright", .rights),
   ("managingEditor", .author), ("lastBuildDate", .updated), ("category", .category),
   ("generator", .other "generator")]

theorem roleOf_written {name : String} (h : (name, role) ∈ writtenRoles) :
    roleOf (Text.lowerPlain name) = role := by
  have hall : ∀ w ∈ writtenRoles, roleOf (Text.lowerPlain w.1) = w.2 := by decide
  exact hall (name, role) h

/-- Attributes by their words. -/
def wordsOf (library : Library) (attributes : List (Text × Text)) : List (Text × Text) :=
  Reader.attributesOf library (attributes.map fun a => (⟨[], a.1⟩, a.2))

-- =============================================================== texts

/-- The text of an element as it is kept. -/
def cleaned (t : Text) : Text := Charset.mended (Text.trim (Xml.unifyLines t))

/-- The text of an element as it is kept if it is taken in some way. -/
def Library.cleaned (library : Library) (manner : Manner) (t : Text) : Text :=
  Charset.mended (library.kept manner false (Text.trim (Xml.unifyLines t)))

/-- What breaks off the text of an element that is taken in some way. -/
def Library.flaw? (library : Library) (manner : Manner) (t : Text) : Option Text :=
  library.fault? manner false (Text.trim (Xml.unifyLines t))

private theorem Library.purify_nil (library : Library) (manner : Manner) (isAtom : Bool) :
    library.purify manner isAtom [] = .ok [] := by
  cases manner with
  | asIs => rfl
  | plain =>
      show (if !isAtom && library.looksLikePage [] then library.purified [] else .ok []) = .ok []
      rw [library.purified_nil, ite_self]
  | page => exact library.purified_nil

/-- Of an empty text nothing breaks off. -/
@[simp] theorem Library.flaw?_nil (library : Library) (manner : Manner) :
    library.flaw? manner [] = none := by
  have hnil : Text.trim (Xml.unifyLines []) = [] := rfl
  rw [flaw?, fault?, hnil, library.purify_nil]

@[simp] theorem Library.cleaned_nil (library : Library) (manner : Manner) :
    library.cleaned manner [] = [] := by
  have hnil : Text.trim (Xml.unifyLines []) = [] := rfl
  rw [cleaned, kept, hnil, library.purify_nil]
  rfl

/-- The text of an element as it is kept if it is an address. -/
def cleanedAddress (t : Text) : Text :=
  Charset.mended (Reader.withoutExcess (Text.trim (Xml.unifyLines t)))

/-- The pieces in which the text of an element is collected. -/
private def collected (t : Text) : List Text :=
  if (Xml.unifyLines t).isEmpty then [] else [Xml.unifyLines t]

private theorem flatten_collected (t : Text) :
    (collected t).reverse.flatten = Xml.unifyLines t := by
  unfold collected
  split
  case isTrue h => rw [List.isEmpty_iff.mp h]; rfl
  case isFalse => simp

namespace Reader

-- ================================================================ runs

/-- The reader after some more events. -/
def run (library : Library) (r : Reader) (events : List Event) : Reader :=
  events.foldl (step library) r

@[simp] theorem run_nil (r : Reader) : r.run library [] = r := rfl

theorem run_cons (r : Reader) (event : Event) (events : List Event) :
    r.run library (event :: events) = (r.step library event).run library events := rfl

theorem run_append (r : Reader) (events more : List Event) :
    r.run library (events ++ more) = (r.run library events).run library more := List.foldl_append

/-- The names of an element without prefixes are spelled in ASCII. -/
def Plainly (name : Text) (attributes : List (Text × Text)) : Prop :=
  hasPlainNames [] ⟨[], name⟩ (attributes.map fun a => (⟨[], a.1⟩, a.2)) = true

instance (name : Text) (attributes : List (Text × Text)) : Decidable (Plainly name attributes) :=
  inferInstanceAs (Decidable (_ = true))

/-- The reader is in no content, image or text input. -/
structure Between (r : Reader) : Prop where
  content : r.inContent = false
  image : r.inImage = false
  textInput : r.inTextInput = false

/-- An element without prefixes begins, and is no more than what is read. -/
theorem step_startOf {r : Reader} (hr : r.Between) (hplain : Plainly name attributes)
    (hrole : roleOf (Text.lowerPlain name) = role)
    (hbeyond : r.isBeyond role (wordsOf library attributes) = false)
    (hlanguage : ∀ r : Reader, r.takeLanguage role (wordsOf library attributes) = r) :
    r.step library (startOf name attributes)
      = { r with around := role :: r.around }.startRole role (wordsOf library attributes) := by
  have hbind : r.bind [] = r := by simp [bind]
  unfold Plainly at hplain
  unfold wordsOf at *
  simp only [startOf, step, hbind, wordOfName_plain, hrole, hr.content, hlanguage, hr.image,
    hr.textInput, hplain, hbeyond, Bool.not_true, Bool.or_false, Bool.false_and,
    Bool.false_eq_true, if_false]

/-- Only the outermost element tells the language. -/
theorem takeLanguage_of_ne (hne : role ≠ .rss ∧ role ≠ .feed)
    (attributes : List (Text × Text)) (r : Reader) : r.takeLanguage role attributes = r := by
  simp [takeLanguage, hne]

/-- The reader within an element whose text it collects. -/
private def within (r : Reader) (role : Role) (slot : Slot) (manner : Manner) (content : Bool)
    (pieces : List Text) : Reader :=
  { r with
    around := role :: r.around, pending := ⟨slot, true, manner, pieces⟩ :: r.pending,
    inContent := content }

/-- An element with nothing but text in it. -/
private theorem run_leaf {name : String} {r : Reader} (hr : r.Between) (begun : Reader)
    (role : Role) (slot : Slot) (manner : Manner) (content : Bool) (hinner : begun.inner = 0)
    (haround : begun.around = r.around) (hplain : Plainly name attributes)
    (hwritten : (name, role) ∈ writtenRoles) (hne : role ≠ .rss ∧ role ≠ .feed)
    (hbeyond : r.isBeyond role (wordsOf library attributes) = false)
    (hstart : { r with around := role :: r.around }.startRole role (wordsOf library attributes)
      = begun.within role slot manner content []) (t : Text) :
    r.run library ((Node.element name attributes [.text t]).events depth)
      = { (begun.within role slot manner content (collected t)).finishRole library role with
          around := r.around } := by
  have hcollect : (begun.within role slot manner content []).run library
      (textEvents (Xml.unifyLines t)) = begun.within role slot manner content (collected t) := by
    unfold textEvents collected
    split <;> rfl
  have hopen : (begun.within role slot manner content (collected t)).around = role :: r.around :=
    congrArg (role :: ·) haround
  have hflat : (begun.within role slot manner content (collected t)).inner = 0 := hinner
  rw [Xml.Node.events_leaf, List.cons_append, run_cons,
    step_startOf hr hplain (roleOf_written hwritten) hbeyond (takeLanguage_of_ne hne _), hstart,
    run_append, hcollect, run_cons, run_nil]
  simp only [step, hopen, hflat]
  simp

/-- Collecting ends: the text of a word. -/
private theorem pop_within (library : Library) {r : Reader} (hr : r.isAtom = false) (role : Role)
    (key : Key) (manner : Manner) (content : Bool) (hkey : key ≠ .link)
    (hid : key = .id → r.guidIsLink = false) (t : Text) :
    (r.within role (.word key) manner content (collected t)).pop library (.word key)
      = (library.cleaned manner t,
        { r with
          around := role :: r.around, inContent := content,
          broken := r.broken.or (library.flaw? manner t) }.store key
            (library.cleaned manner t)) := by
  have hnot : (decide (Slot.word key = .word .link)
      || decide (Slot.word key = .word .id) && r.guidIsLink) = false := by
    by_cases h : key = .id
    · simp [h, hid h]
    · simp [hkey, h]
  simp only [pop, within, hnot, flatten_collected, hr, bne_self_eq_false, Bool.not_true,
    Bool.false_eq_true, if_false]
  rfl

/-- A text that is taken as it is breaks nothing off. -/
private theorem pop_within_asIs (library : Library) {r : Reader} (hr : r.isAtom = false)
    (role : Role) (key : Key) (hkey : key ≠ .link) (hid : key = .id → r.guidIsLink = false)
    (t : Text) :
    (r.within role (.word key) .asIs false (collected t)).pop library (.word key)
      = (cleaned t,
        { r with around := role :: r.around, inContent := false }.store key (cleaned t)) := by
  have hnone : library.flaw? .asIs t = none := rfl
  rw [pop_within library hr role key .asIs false hkey hid t, hnone, Option.or_none]
  rfl

/-- The text of a word that holds an address. -/
private theorem pop_within_address (library : Library) (r : Reader) (role : Role) (key : Key)
    (hkey : key = .link ∨ key = .id ∧ r.guidIsLink = true) (t : Text) :
    (r.within role (.word key) .asIs false (collected t)).pop library (.word key)
      = (cleanedAddress t,
        { r with around := role :: r.around, inContent := false }.store key
          (cleanedAddress t)) := by
  have hyes : (decide (Slot.word key = .word .link)
      || decide (Slot.word key = .word .id) && r.guidIsLink) = true := by
    rcases hkey with h | ⟨h, hlink⟩
    · simp [h]
    · simp [h, hlink]
  have hnone (t : Text) : library.fault? .asIs r.isAtom t = none := rfl
  simp only [pop, within, hyes, flatten_collected, bne_self_eq_false, Bool.not_true,
    Bool.false_eq_true, if_false, if_true, hnone, Option.or_none]
  rfl

/-- The text of what is no word. -/
private theorem pop_within_loose (library : Library) (r : Reader) (role : Role) (slot : Slot)
    (hslot : ∀ key, slot ≠ .word key) (t : Text) :
    (r.within role slot .asIs false (collected t)).pop library slot
      = (cleaned t, { r with around := role :: r.around, inContent := false }) := by
  have hnone (t : Text) : library.fault? .asIs r.isAtom t = none := rfl
  cases slot with
  | word key => exact absurd rfl (hslot key)
  | content | category | loose =>
      simp [pop, within, flatten_collected, hnone]
      rfl

-- =============================================================== states

/-- The reader within the channel, between two elements. -/
def atChannel (feed : Record) (entries : List Record) (titleDepth : Option Nat)
    (guidIsLink : Bool) (broken : Option Text) : Reader :=
  { initial with
    isFeed := true, inFeed := true, around := [.channel, .rss], feed := feed, entries := entries,
    titleDepth := titleDepth, guidIsLink := guidIsLink, broken := broken }

/-- The reader within an item, between two elements; `blanks` is the text
there. -/
def atItem (feed entry : Record) (earlier : List Record) (titleDepth : Option Nat)
    (guidIsLink : Bool) (broken : Option Text) (blanks : List Text) : Reader :=
  { initial with
    isFeed := true, inFeed := true, inEntry := true, around := [.item, .channel, .rss],
    pending := [⟨.loose "item", false, .asIs, blanks⟩], feed := feed, entries := entry :: earlier,
    titleDepth := titleDepth, guidIsLink := guidIsLink, broken := broken }

theorem between_atChannel :
    (atChannel feed entries titleDepth guidIsLink broken).Between := ⟨rfl, rfl, rfl⟩

theorem between_atItem :
    (atItem feed entry earlier titleDepth guidIsLink broken blanks).Between := ⟨rfl, rfl, rfl⟩

-- ================================================= elements of an item

/-- The title of an item. -/
theorem item_title (t : Text) : ∃ titleDepth,
    (atItem feed entry earlier none guidIsLink broken blanks).run library
        ((leaf "title" t).events depth)
      = atItem feed (entry.sayOver .title 4 (library.cleaned .plain t)) earlier titleDepth
        guidIsLink (broken.or (library.flaw? .plain t)) blanks := by
  let r := atItem feed entry earlier none guidIsLink broken blanks
  have hpop := pop_within library (r := r) rfl .title .title .plain true (by decide)
    (fun h => by cases h) t
  refine ⟨if (library.cleaned .plain t).isEmpty then none else some 4, ?_⟩
  rw [leaf, run_leaf between_atItem r .title (.word .title) .plain true rfl rfl (by decide)
    (by simp [writtenRoles]) (by decide) rfl rfl]
  simp only [finishRole, popContent, hpop]
  cases (library.cleaned .plain t).isEmpty <;> rfl

/-- Its link. -/
theorem item_link (t : Text) :
    (atItem feed entry earlier titleDepth guidIsLink broken blanks).run library
        ((leaf "link" t).events depth)
      = atItem feed (entry.say .link 4 (mendLink (cleanedAddress t))) earlier titleDepth guidIsLink
        broken blanks := by
  let r := atItem feed entry earlier titleDepth guidIsLink broken blanks
  have hpop := pop_within_address library r .link .link (.inl rfl) t
  rw [leaf, run_leaf between_atItem r .link (.word .link) .asIs false rfl rfl (by decide)
    (by simp [writtenRoles]) (by decide) rfl rfl]
  simp only [finishRole, hpop]
  rfl

/-- Its description. -/
theorem item_description (t : Text) (hsummary : entry.word? .summary = none) :
    (atItem feed entry earlier titleDepth guidIsLink broken blanks).run library
        ((leaf "description" t).events depth)
      = atItem feed (entry.sayOver .summary 4 (library.cleaned .page t)) earlier titleDepth
        guidIsLink (broken.or (library.flaw? .page t)) blanks := by
  let r := atItem feed entry earlier titleDepth guidIsLink broken blanks
  have hpop := pop_within library (r := r) rfl .description .summary .page true (by decide)
    (fun h => by cases h) t
  have hstart : { r with around := .description :: r.around }.startRole .description
      (wordsOf library []) = r.within .description (.word .summary) .page true [] := by
    show (if ((entry.word? .summary).isSome && !false) = true then _ else _) = _
    rw [hsummary]
    rfl
  rw [leaf, run_leaf between_atItem r .description (.word .summary) .page true rfl rfl (by decide)
    (by simp [writtenRoles]) (by decide) rfl hstart]
  show { ((r.within .description (.word .summary) .page true (collected t)).popContent library
    (.word .summary)).2 with around := r.around } = _
  simp only [popContent, hpop]
  rfl

/-- Its identifier, if it is not its link. -/
theorem item_guid (t : Text) :
    (atItem feed entry earlier titleDepth guidIsLink broken blanks).run library
        ((Node.element "guid" [("isPermaLink", "false")] [.text t]).events depth)
      = atItem feed (entry.sayOver .id 4 (cleaned t)) earlier titleDepth false broken blanks := by
  let r := atItem feed entry earlier titleDepth false broken blanks
  have hpop := pop_within_asIs library (r := r) rfl .guid .id (by decide) (fun _ => rfl) t
  have hwords : wordsOf library [("isPermaLink", "false")]
      = [("ispermalink".toList, "false".toList)] := by
    have hname : Text.lowerPlain "isPermaLink" = "ispermalink".toList := by decide
    simp only [wordsOf, attributesOf, List.map_cons, List.map_nil, wordOfAttribute_plain, hname]
    rfl
  rw [run_leaf (r := atItem feed entry earlier titleDepth guidIsLink broken blanks) between_atItem
    r .guid (.word .id) .asIs false rfl rfl (by decide) (by simp [writtenRoles]) (by decide)
    (by rw [hwords]; rfl) (by rw [hwords]; rfl)]
  simp only [finishRole, hpop]
  rfl

/-- Its identifier, if it is its link. -/
theorem item_guid_link (t : Text) :
    (atItem feed entry earlier titleDepth guidIsLink broken blanks).run library
        ((Node.element "guid" [] [.text t]).events depth)
      = atItem feed ((entry.sayOver .id 4 (cleanedAddress t)).suggest .link 4 (cleanedAddress t))
        earlier titleDepth true broken blanks := by
  let r := atItem feed entry earlier titleDepth true broken blanks
  have hpop := pop_within_address library r .guid .id (.inr ⟨rfl, rfl⟩) t
  rw [run_leaf (r := atItem feed entry earlier titleDepth guidIsLink broken blanks) between_atItem
    r .guid (.word .id) .asIs false rfl rfl (by decide) (by simp [writtenRoles]) (by decide) rfl
    rfl]
  simp only [finishRole, hpop]
  rfl

/-- Its date. -/
theorem item_date (t : Text) :
    (atItem feed entry earlier titleDepth guidIsLink broken blanks).run library
        ((leaf "pubDate" t).events depth)
      = atItem feed ((entry.sayOver .published 4 (cleaned t)).publish
          (library.stampOf? (cleaned t))) earlier titleDepth guidIsLink broken blanks := by
  let r := atItem feed entry earlier titleDepth guidIsLink broken blanks
  have hpop := pop_within_asIs library (r := r) rfl .published .published (by decide)
    (fun h => by cases h) t
  rw [leaf, run_leaf between_atItem r .published (.word .published) .asIs false rfl rfl (by decide)
    (by simp [writtenRoles]) (by decide) rfl rfl]
  simp only [finishRole, hpop]
  rfl

/-- Its enclosure. -/
theorem item_enclosure (hplain : Plainly "enclosure" attributes)
    (hbase : attribute? (wordsOf library attributes) "base" = none
      ∧ attribute? (wordsOf library attributes) "xml:base" = none) :
    (atItem feed entry earlier titleDepth guidIsLink broken blanks).run library
        ((Node.element "enclosure" attributes []).events depth)
      = atItem feed
        { entry with
          enclosures := entry.enclosures
            ++ [enclosureFields (withHref (wordsOf library attributes))] }
        earlier titleDepth guidIsLink broken blanks := by
  have hrole : roleOf (Text.lowerPlain "enclosure") = .enclosure :=
    roleOf_written (by simp [writtenRoles])
  rw [Xml.Node.events_void, run_cons, step_startOf between_atItem hplain hrole
    (by simp only [isBeyond, hbase]; rfl) (takeLanguage_of_ne (by decide) _)]
  rfl

-- ============================================== elements of the channel

/-- The title of the feed. -/
theorem channel_title (t : Text) : ∃ titleDepth,
    (atChannel feed entries none guidIsLink broken).run library ((leaf "title" t).events depth)
      = atChannel (feed.say .title 3 (library.cleaned .plain t)) entries titleDepth guidIsLink
        (broken.or (library.flaw? .plain t)) := by
  let r := atChannel feed entries none guidIsLink broken
  have hpop := pop_within library (r := r) rfl .title .title .plain true (by decide)
    (fun h => by cases h) t
  refine ⟨if (library.cleaned .plain t).isEmpty then none else some 3, ?_⟩
  rw [leaf, run_leaf between_atChannel r .title (.word .title) .plain true rfl rfl (by decide)
    (by simp [writtenRoles]) (by decide) rfl rfl]
  simp only [finishRole, popContent, hpop]
  cases (library.cleaned .plain t).isEmpty <;> rfl

/-- Its link. -/
theorem channel_link (t : Text) :
    (atChannel feed entries titleDepth guidIsLink broken).run library
        ((leaf "link" t).events depth)
      = atChannel (feed.say .link 3 (mendLink (cleanedAddress t))) entries titleDepth
        guidIsLink broken := by
  let r := atChannel feed entries titleDepth guidIsLink broken
  have hpop := pop_within_address library r .link .link (.inl rfl) t
  rw [leaf, run_leaf between_atChannel r .link (.word .link) .asIs false rfl rfl (by decide)
    (by simp [writtenRoles]) (by decide) rfl rfl]
  simp only [finishRole, hpop]
  rfl

/-- Its description. -/
theorem channel_description (t : Text) (hsummary : feed.word? .summary = none) :
    (atChannel feed entries titleDepth guidIsLink broken).run library
        ((leaf "description" t).events depth)
      = atChannel (feed.say .subtitle 3 (library.cleaned .page t)) entries titleDepth guidIsLink
        (broken.or (library.flaw? .page t)) := by
  let r := atChannel feed entries titleDepth guidIsLink broken
  have hpop := pop_within library (r := r) rfl .description .subtitle .page true (by decide)
    (fun h => by cases h) t
  have hstart : { r with around := .description :: r.around }.startRole .description
      (wordsOf library []) = r.within .description (.word .subtitle) .page true [] := by
    show (if ((feed.word? .summary).isSome && !false) = true then _ else _) = _
    rw [hsummary]
    rfl
  rw [leaf, run_leaf between_atChannel r .description (.word .subtitle) .page true rfl rfl
    (by decide) (by simp [writtenRoles]) (by decide) rfl hstart]
  show { ((r.within .description (.word .subtitle) .page true (collected t)).popContent library
    (.word .subtitle)).2 with around := r.around } = _
  simp only [popContent, hpop]
  rfl

/-- Its copyright notice. -/
theorem channel_copyright (t : Text) :
    (atChannel feed entries titleDepth guidIsLink broken).run library
        ((leaf "copyright" t).events depth)
      = atChannel (feed.say .rights 3 (library.cleaned .plain t)) entries titleDepth guidIsLink
        (broken.or (library.flaw? .plain t)) := by
  let r := atChannel feed entries titleDepth guidIsLink broken
  have hpop := pop_within library (r := r) rfl .rights .rights .plain true (by decide)
    (fun h => by cases h) t
  rw [leaf, run_leaf between_atChannel r .rights (.word .rights) .plain true rfl rfl (by decide)
    (by simp [writtenRoles]) (by decide) rfl rfl]
  simp only [finishRole, popContent, hpop]
  rfl

/-- Who edits it, if no author is known by name or address. -/
theorem channel_editor (t : Text) (hauthor : feed.author = ([], [])) :
    (atChannel feed entries titleDepth guidIsLink broken).run library
        ((leaf "managingEditor" t).events depth)
      = atChannel (feed.say .author 3 (cleaned t)) entries titleDepth guidIsLink broken := by
  let r := { atChannel feed entries titleDepth guidIsLink broken with inAuthor := true }
  have hpop := pop_within_asIs library (r := r) rfl .author .author (by decide)
    (fun h => by cases h) t
  have hsame : { feed with author := ([], []) } = feed := by rw [← hauthor]
  have hstart : ({ atChannel feed entries titleDepth guidIsLink broken with
      around := [.author, .channel, .rss] } : Reader).startRole .author (wordsOf library [])
      = r.within .author (.word .author) .asIs false [] := by
    show ({ r.within .author (.word .author) .asIs false [] with
      feed := { feed with author := ([], []) } } : Reader) = _
    rw [hsame]
    rfl
  rw [leaf, run_leaf (r := atChannel feed entries titleDepth guidIsLink broken) between_atChannel
    r .author (.word .author) .asIs false rfl rfl (by decide) (by simp [writtenRoles])
    (by decide) rfl hstart]
  simp only [finishRole, hpop]
  show atChannel ((feed.say .author 3 (cleaned t)).settleAuthor 3) entries titleDepth guidIsLink
    broken = _
  unfold Record.settleAuthor
  rw [show (feed.say .author 3 (cleaned t)).author = ([], []) from hauthor]

/-- Its language. -/
theorem channel_language (t : Text) :
    (atChannel feed entries titleDepth guidIsLink broken).run library
        ((leaf "language" t).events depth)
      = atChannel (feed.say .language 3 (cleaned t)) entries titleDepth guidIsLink broken := by
  let r := atChannel feed entries titleDepth guidIsLink broken
  have hpop := pop_within_asIs library (r := r) rfl .language .language (by decide)
    (fun h => by cases h) t
  rw [leaf, run_leaf between_atChannel r .language (.word .language) .asIs false rfl rfl (by decide)
    (by simp [writtenRoles]) (by decide) rfl rfl]
  simp only [finishRole, hpop]
  rfl

/-- When it was published. -/
theorem channel_date (t : Text) :
    (atChannel feed entries titleDepth guidIsLink broken).run library
        ((leaf "pubDate" t).events depth)
      = atChannel ((feed.say .published 3 (cleaned t)).publish (library.stampOf? (cleaned t)))
        entries titleDepth guidIsLink broken := by
  let r := atChannel feed entries titleDepth guidIsLink broken
  have hpop := pop_within_asIs library (r := r) rfl .published .published (by decide)
    (fun h => by cases h) t
  rw [leaf, run_leaf between_atChannel r .published (.word .published) .asIs false rfl rfl
    (by decide) (by simp [writtenRoles]) (by decide) rfl rfl]
  simp only [finishRole, hpop]
  rfl

/-- When it was made. -/
theorem channel_made (t : Text) :
    (atChannel feed entries titleDepth guidIsLink broken).run library
        ((leaf "lastBuildDate" t).events depth)
      = atChannel ((feed.say .updated 3 (cleaned t)).update (library.stampOf? (cleaned t)))
        entries titleDepth guidIsLink broken := by
  let r := atChannel feed entries titleDepth guidIsLink broken
  have hpop := pop_within_asIs library (r := r) rfl .updated .updated (by decide)
    (fun h => by cases h) t
  rw [leaf, run_leaf between_atChannel r .updated (.word .updated) .asIs false rfl rfl (by decide)
    (by simp [writtenRoles]) (by decide) rfl rfl]
  simp only [finishRole, hpop]
  rfl

/-- One of its categories. -/
theorem channel_category (t : Text) :
    (atChannel feed entries titleDepth guidIsLink broken).run library
        ((leaf "category" t).events depth)
      = atChannel (feed.nameTag (cleaned t)) entries titleDepth guidIsLink broken := by
  let r := atChannel feed entries titleDepth guidIsLink broken
  have hpop := pop_within_loose library r .category .category
    (fun key h => by cases h) t
  rw [leaf, run_leaf between_atChannel r .category .category .asIs false rfl rfl (by decide)
    (by simp [writtenRoles]) (by decide) rfl rfl]
  simp only [finishRole, hpop]
  rfl

/-- What made it. -/
theorem channel_generator (t : Text) :
    (atChannel feed entries titleDepth guidIsLink broken).run library
        ((leaf "generator" t).events depth)
      = atChannel feed entries titleDepth guidIsLink broken := by
  let r := atChannel feed entries titleDepth guidIsLink broken
  have hpop := pop_within_loose library r (.other "generator") (.loose "generator")
    (fun key h => by cases h) t
  rw [leaf, run_leaf between_atChannel r (.other "generator") (.loose "generator") .asIs false
    rfl rfl (by decide) (by simp [writtenRoles]) (by decide) rfl rfl]
  simp only [finishRole, hpop]
  rfl

end Reader

end FeedSieve.Feed
