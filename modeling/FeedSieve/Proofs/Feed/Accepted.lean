/-
What is known of the items of a feed that has been read.

A document that is accepted has a digest, and the records in it come to the
channel (`read_eq_ok`). So neither the date of an item nor its media type is
empty.

Media types are in small letters besides. They come from the attributes of
elements, which are put in small letters as they come (`lowered_attributesOf`),
and from there go to the records. No event leaves a record with a media type
that is not (`Reader.Lowered.step`), so no document does (`lowered_digest`).
-/
import FeedSieve.Proofs.Feed.Drafted

namespace FeedSieve.Feed

open Calendar (Moment)

variable {library : Library} {lower : Text → Text} {bytes : Bytes} {place : Text}
  {channel : Channel} {attributes : List (Text × Text)}

-- ============================================================ records

/-- An accepted document is read off the records of its digest. -/
theorem read_eq_ok (h : read library bytes place = .ok channel) :
    ∃ d, digest library bytes = .ok d ∧ itemsOfRecords 1 d.entries = .ok channel.items := by
  unfold read Draft.ofBytes at h
  split at h
  case isTrue => cases h
  case isFalse =>
    cases hdigest : digest library bytes with
    | error what =>
        rw [hdigest] at h
        cases h
    | ok d =>
        rw [hdigest] at h
        refine ⟨d, rfl, ?_⟩
        change d.draft.channel? place = _ at h
        obtain ⟨malformed, isFeed, feed, entries⟩ := d
        cases malformed with
        | some why => cases h
        | none =>
            cases isFeed with
            | false => cases h
            | true =>
                rw [channel?_digest] at h
                cases hitems : itemsOfRecords 1 entries with
                | error what =>
                    rw [hitems] at h
                    cases h
                | ok items =>
                    rw [hitems] at h
                    obtain rfl := Except.ok.inj h
                    rfl

-- ====================================================== small letters

/-- Attributes whose types are in small letters. -/
def Lowered (lower : Text → Text) (attributes : List (Text × Text)) : Prop :=
  ∀ a ∈ attributes, a.1 = "type".toList → lower a.2 = a.2

/-- Another enclosure. -/
private theorem Record.Lowered.enclose {r : Record} (h : r.Lowered lower)
    (hattributes : Feed.Lowered lower attributes) :
    Record.Lowered lower { r with enclosures := r.enclosures ++ [attributes] } :=
  List.forall_mem_append.mpr ⟨h, List.forall_mem_singleton.mpr hattributes⟩

/-- What is said changes no enclosures. -/
private theorem Record.Lowered.of_enclosures {r r' : Record} (h : r.Lowered lower)
    (hsame : r'.enclosures = r.enclosures) : r'.Lowered lower := by
  rw [Record.Lowered, hsame]
  exact h

namespace Record

private theorem enclosures_suggest (r : Record) (key : Key) (depth : Nat) (t : Text) :
    (r.suggest key depth t).enclosures = r.enclosures := by
  unfold suggest
  split <;> rfl

private theorem enclosures_sayOver (r : Record) (key : Key) (depth : Nat) (t : Text) :
    (r.sayOver key depth t).enclosures = r.enclosures := by
  unfold sayOver
  repeat' first | rfl | split

private theorem enclosures_addTag (r : Record) (tag : Tag) :
    (r.addTag tag).enclosures = r.enclosures := by
  unfold addTag
  split <;> rfl

private theorem enclosures_nameTag (r : Record) (term : Text) :
    (r.nameTag term).enclosures = r.enclosures := by
  unfold nameTag
  repeat' first | rfl | exact enclosures_addTag _ _ | split

private theorem enclosures_settleAuthor (r : Record) (depth : Nat) :
    (r.settleAuthor depth).enclosures = r.enclosures := by
  unfold settleAuthor
  repeat' first | rfl | split

private theorem enclosures_addTerms (r : Record) (scheme : Text) (terms : List Text) :
    (terms.foldl (fun c term => if term.isEmpty then c else c.addTag ⟨term, scheme, []⟩)
      r).enclosures = r.enclosures := by
  induction terms generalizing r with
  | nil => rfl
  | cons term rest ih =>
      rw [List.foldl_cons, ih]
      split
      · rfl
      · exact enclosures_addTag _ _

end Record

namespace Reader

/-- Attributes are put in small letters as they come. -/
private theorem lowered_attributesOf (attributes : List (Xml.Name × Text)) :
    Lowered library.lowered (attributesOf library attributes) := by
  intro a ha htype
  obtain ⟨⟨name, value⟩, -, rfl⟩ := List.mem_map.mp ha
  dsimp only at htype ⊢
  split at htype
  case isTrue hword =>
    rw [if_pos hword]
    exact library.lowered_lowered value
  case isFalse hword =>
    rw [Bool.or_eq_true, decide_eq_true_eq, decide_eq_true_eq] at hword
    exact absurd (Or.inr htype) hword

private theorem lowered_withHref (h : Lowered lower attributes) :
    Lowered lower (withHref attributes) := by
  have hhref : "href".toList ≠ "type".toList := by decide
  unfold withHref
  dsimp only
  split
  case h_2 => exact h
  case h_1 c address _ =>
    intro a ha htype
    rcases List.mem_append.mp ha with ha | ha
    · exact h a (List.mem_filter.mp ha).1 htype
    · obtain rfl := List.mem_singleton.mp ha
      exact absurd htype hhref

private theorem lowered_enclosureFields (h : Lowered lower attributes) :
    Lowered lower (enclosureFields attributes) := fun a ha => h a (List.mem_filter.mp ha).1

theorem lowered_attribute? (h : Lowered lower attributes) {t : Text}
    (ht : attribute? attributes "type" = some t) : lower t = t := by
  obtain ⟨before, after, hsplit, -⟩ := List.lookup_eq_some_iff.mp ht
  have hmem : ("type".toList, t) ∈ attributes.reverse := by
    rw [hsplit]
    exact List.mem_append_right _ List.mem_cons_self
  exact h _ (List.mem_reverse.mp hmem) rfl

/-- All records of a reader have their types in small letters. -/
def Lowered (lower : Text → Text) (r : Reader) : Prop :=
  r.feed.Lowered lower ∧ (∀ image ∈ r.image, image.Lowered lower) ∧ r.textInput.Lowered lower
    ∧ r.source.Lowered lower ∧ ∀ entry ∈ r.entries, entry.Lowered lower

variable {r : Reader}

private theorem Lowered.ite {p : Prop} [Decidable p] {r r' : Reader} (h : r.Lowered lower)
    (h' : r'.Lowered lower) : (if p then r else r').Lowered lower := by
  split
  · exact h
  · exact h'

private theorem Lowered.onEntry (h : r.Lowered lower) {change : Record → Record}
    (hchange : ∀ c : Record, c.Lowered lower → (change c).Lowered lower) :
    (r.onEntry change).Lowered lower := by
  obtain ⟨hfeed, himage, htext, hsource, hentries⟩ := h
  unfold Reader.onEntry
  cases hr : r.entries with
  | nil => exact ⟨hfeed, himage, htext, hsource, hentries⟩
  | cons entry earlier =>
      rw [hr, List.forall_mem_cons] at hentries
      exact ⟨hfeed, himage, htext, hsource,
        List.forall_mem_cons.mpr ⟨hchange entry hentries.1, hentries.2⟩⟩

private theorem Lowered.onContext (h : r.Lowered lower) {change : Record → Record}
    (hchange : ∀ c : Record, c.Lowered lower → (change c).Lowered lower) :
    (r.onContext change).Lowered lower := by
  have hentry := h.onEntry hchange
  obtain ⟨hfeed, himage, htext, hsource, hentries⟩ := h
  unfold Reader.onContext
  split
  · exact ⟨hfeed, himage, htext, hchange _ hsource, hentries⟩
  · split
    · refine ⟨hfeed, fun image hmem => ?_, htext, hsource, hentries⟩
      obtain ⟨old, hold, rfl⟩ := Option.map_eq_some_iff.mp hmem
      exact hchange old (himage old hold)
    · split
      · exact ⟨hfeed, himage, hchange _ htext, hsource, hentries⟩
      · split
        · exact hentry
        · exact ⟨hchange _ hfeed, himage, htext, hsource, hentries⟩

/-- What is said changes no enclosures. -/
private theorem Lowered.say (h : r.Lowered lower) {change : Record → Record}
    (hchange : ∀ c : Record, (change c).enclosures = c.enclosures) :
    (r.onContext change).Lowered lower ∧ (r.onEntry change).Lowered lower :=
  ⟨h.onContext fun c hc => hc.of_enclosures (hchange c),
    h.onEntry fun c hc => hc.of_enclosures (hchange c)⟩

private theorem Lowered.store (h : r.Lowered lower) (key : Key) (t : Text) :
    (r.store key t).Lowered lower := by
  have hsay (key : Key) (t : Text) := h.say fun c => Record.enclosures_say c key r.depth t
  have hover (key : Key) := h.say fun c => Record.enclosures_sayOver c key r.depth t
  unfold Reader.store
  dsimp only
  -- whatever the key and the part, something is said or nothing at all
  repeat' first
    | exact h
    | exact (hsay _ _).1
    | exact (hsay _ _).2
    | exact (hover _).2
    | split

private theorem Lowered.pop (h : r.Lowered lower) (library : Library) (slot : Slot) :
    (r.pop library slot).2.Lowered lower := by
  unfold Reader.pop
  cases hpending : r.pending with
  | nil => exact h
  | cons p earlier =>
      have hpopped (broken : Option Text) :
          Reader.Lowered lower { r with pending := earlier, broken := broken } := h
      dsimp only
      split
      · exact h
      · split
        · exact hpopped _
        · split
          · exact (hpopped _).store _ _
          · exact hpopped _

private theorem Lowered.popContent (h : r.Lowered lower) (library : Library) (slot : Slot) :
    (r.popContent library slot).2.Lowered lower := h.pop library slot

/-- Content that stands in for a summary. -/
private theorem Lowered.finishContent (h : r.Lowered lower) (library : Library) :
    (finishRole.finishContent library r).Lowered lower := by
  have hpop := h.popContent library .content
  unfold finishRole.finishContent
  dsimp only
  split
  · exact (hpop.say fun c => Record.enclosures_suggest c _ _ _).1
  · exact hpop

-- ============================================================== steps

/-- A link begins. -/
private theorem Lowered.startLink (h : r.Lowered library.lowered)
    (hattributes : Feed.Lowered library.lowered attributes) :
    (r.startLink attributes).Lowered library.lowered := by
  have hhref := lowered_withHref hattributes
  have hcustom : library.lowered (if (attribute? (withHref attributes) "rel").getD "alternate"
        = "self".toList then "application/atom+xml".toList else "text/html".toList)
      = if (attribute? (withHref attributes) "rel").getD "alternate"
        = "self".toList then "application/atom+xml".toList else "text/html".toList := by
    split
    · exact (library.lowered_ascii _ (by simp)).trans rfl
    · exact (library.lowered_ascii _ (by simp)).trans rfl
  have htype : library.lowered ((attribute? (withHref attributes) "type").getD
      (if (attribute? (withHref attributes) "rel").getD "alternate" = "self".toList
        then "application/atom+xml" else "text/html"))
      = (attribute? (withHref attributes) "type").getD
      (if (attribute? (withHref attributes) "rel").getD "alternate" = "self".toList
        then "application/atom+xml" else "text/html") := by
    cases ht : attribute? (withHref attributes) "type" with
    | some t => exact lowered_attribute? hhref ht
    | none => exact hcustom
  unfold Reader.startLink
  dsimp only
  split
  case h_1 => exact h
  case h_2 address _ =>
    refine .ite (Lowered.say (.ite (h.onContext fun c hc => hc.enclose ?_) h)
      fun c => Record.enclosures_say c _ _ _).1 (.ite (h.onContext fun c hc => hc.enclose ?_) h)
    all_goals
      have hfirst : "href".toList ≠ "type".toList := by decide
      intro a ha hkey
      simp only [List.cons_append, List.nil_append, List.mem_cons] at ha
      rcases ha with rfl | rfl | ha
      · exact absurd hkey hfirst
      · exact htype
      · exact hhref a (List.mem_filter.mp ha).1 hkey

/-- An element begins. -/
private theorem Lowered.startRole (h : r.Lowered library.lowered) (role : Role)
    (hattributes : Feed.Lowered library.lowered attributes) :
    (r.startRole role attributes).Lowered library.lowered := by
  have htag (tag : Tag) := h.say fun c => Record.enclosures_addTag c tag
  have hnew : Record.empty.Lowered library.lowered := fun _ hmem => by cases hmem
  cases role
  case enclosure =>
    exact h.onContext fun c hc =>
      hc.enclose (lowered_enclosureFields (lowered_withHref hattributes))
  case link => exact h.startLink hattributes
  case category | mediaCategory | podcastCategory => exact (htag _).1
  case author => exact Lowered.onContext (r := r.push _ _) h fun c hc => hc
  case item =>
    obtain ⟨hfeed, himage, htext, hsource, hentries⟩ := h
    refine ⟨hfeed, himage, htext, hsource, List.forall_mem_cons.mpr ⟨?_, hentries⟩⟩
    split
    · exact hnew
    · exact hnew
  case image =>
    obtain ⟨hfeed, himage, htext, hsource, hentries⟩ := h
    refine ⟨hfeed, fun image hmem => ?_, htext, hsource, hentries⟩
    have himages : (r.startRole .image attributes).image
        = if r.inEntry = true then r.image else some (r.image.getD .empty) := rfl
    rw [himages] at hmem
    split at hmem
    · exact himage image hmem
    · obtain rfl := Option.some.inj hmem
      cases hold : r.image with
      | none => exact hnew
      | some old => exact himage old hold
  case description | summary => exact .ite h h
  case other word => exact .ite h h
  all_goals exact h

/-- An element ends. -/
private theorem Lowered.finishRole (h : r.Lowered lower) (library : Library) (role : Role) :
    (r.finishRole library role).Lowered lower := by
  have hnew : Record.empty.Lowered lower := fun _ hmem => by cases hmem
  cases role
  case source =>
    obtain ⟨hfeed, himage, htext, -, hentries⟩ := h.pop library (.loose "source")
    exact ⟨hfeed, himage, htext, hnew, hentries⟩
  case author =>
    have hpop := h.pop library (.word .author)
    exact (Lowered.say (r := { (r.pop library (.word .author)).2 with inAuthor := false }) hpop
      fun c => Record.enclosures_settleAuthor c _).1
  case name =>
    have hpop := h.pop library (.loose "name")
    exact .ite (hpop.onContext fun c hc => hc) hpop
  case email =>
    have hpop := h.pop library (.loose "email")
    exact .ite (hpop.onContext fun c hc => hc) hpop
  case title =>
    have hpop := h.popContent library (.word .title)
    exact .ite hpop hpop
  case guid =>
    have hpop := h.pop library (.word .id)
    exact .ite (hpop.say fun c => Record.enclosures_suggest c _ _ _).1 hpop
  case description | summary => exact .ite (h.finishContent library) (h.popContent library _)
  case content | encoded | body => exact h.finishContent library
  case published => exact (h.pop library (.word .published)).onContext fun c hc => hc
  case updated => exact (h.pop library (.word .updated)).onContext fun c hc => hc
  case category | mediaCategory | podcastCategory =>
    exact ((h.pop library .category).say fun c => Record.enclosures_nameTag c _).1
  case podcastKeywords =>
    exact ((h.pop library (.loose "keywords")).say fun c => Record.enclosures_addTerms c _ _).1
  case rss | feed | channel | enclosure => exact h
  case minorTitle | subtitle | rights => exact h.popContent library _
  all_goals exact h.pop library _

/-- The language of a feed is no enclosure. -/
private theorem Lowered.takeLanguage (h : r.Lowered lower) (role : Role)
    (attributes : List (Text × Text)) : (r.takeLanguage role attributes).Lowered lower :=
  .ite h h

/-- No event leaves a record with a type that is not in small letters. -/
theorem Lowered.step (h : r.Lowered library.lowered) (event : Xml.Event) :
    (r.step library event).Lowered library.lowered := by
  cases event with
  | start bindings name attributes =>
      have hlanguage (role : Role) (beyond : Bool) := Lowered.takeLanguage
        (r := { r.bind bindings with
          around := role :: (r.bind bindings).around, beyond := beyond }) h role
      simp only [Reader.step]
      refine .ite h (Lowered.startRole ?_ _ (lowered_attributesOf attributes))
      exact hlanguage _ _ _
  | text t =>
      simp only [Reader.step]
      split <;> exact h
  | finish =>
      simp only [Reader.step]
      split
      · exact h
      · exact .ite h (h.finishRole library _)

/-- So no document does. -/
theorem Lowered.run (library : Library) (events : List Xml.Event)
    (h : r.Lowered library.lowered) :
    (events.foldl (Reader.step library) r).Lowered library.lowered := by
  induction events generalizing r with
  | nil => exact h
  | cons event rest ih => exact ih (h.step event)

theorem lowered_initial : initial.Lowered lower := by
  have hnew : Record.empty.Lowered lower := fun _ hmem => by cases hmem
  exact ⟨hnew, fun _ hmem => (by cases hmem), hnew, hnew, fun _ hmem => by cases hmem⟩

end Reader

-- ========================================================== documents

/-- The entries of a digest have their types in small letters. -/
theorem lowered_digest {d : Digest} (h : digest library bytes = .ok d) :
    ∀ entry ∈ d.entries, entry.Lowered library.lowered := by
  have hown {d : Digest} (h : (ownDigest library bytes).1 = .ok d) :
      ∀ entry ∈ d.entries, entry.Lowered library.lowered := by
    unfold ownDigest at h
    split at h
    case h_1 =>
      split at h
      case h_1 => cases h
      case h_2 =>
        obtain rfl := Except.ok.inj h
        exact fun _ hmem => by cases hmem
    case h_2 events _ =>
      have hrun := (Reader.lowered_initial.run library events).2.2.2.2
      dsimp only [Reader.digest] at h
      split at h
      case h_1 => cases h
      case h_2 =>
        obtain rfl := Except.ok.inj h
        exact fun entry hmem => hrun entry (List.mem_reverse.mp hmem)
  unfold digest at h
  cases hdigest : ownDigest library bytes with
  | mk own beyond =>
      rw [hdigest] at h hown
      cases beyond with
      | false => exact hown h
      | true =>
          dsimp only at h
          cases hother : library.digest? bytes with
          | none =>
              rw [hother] at h
              exact hown h
          | some other =>
              rw [hother, Option.getD_some] at h
              subst h
              exact library.lowered_digest bytes d hother

-- =============================================================== items

/-- What is known of an item that has been read: its date and its media type
are not empty, and its media type is in small letters. -/
structure Item.Accepted (library : Library) (item : Item) : Prop where
  published : ∀ t, item.published = some t → t ≠ []
  type : ∀ t, item.enclosureType = some t → t ≠ [] ∧ library.lowered t = t

/-- The item that the record of an entry comes to. -/
private theorem accepted_of_item {r : Record} {index : Nat} {item : Item}
    (hlowered : r.Lowered library.lowered) (h : r.item index = .ok item) :
    item.Accepted library := by
  have henclosure : Lowered library.lowered r.enclosure := by
    unfold Record.enclosure
    cases hr : r.enclosures with
    | nil => exact fun _ hmem => by cases hmem
    | cons attributes rest => exact hlowered attributes (hr ▸ List.mem_cons_self)
  obtain ⟨moment, -, rfl⟩ := Except.map_eq_ok_iff.mp h
  refine ⟨fun t ht => Record.ne_nil_of_written ht, fun t ht => ?_⟩
  obtain ⟨htype, hne⟩ := given_eq_some_iff.mp ht
  exact ⟨hne, Reader.lowered_attribute? henclosure htype⟩

/-- The items of an accepted document. -/
theorem accepted_of_read (h : read library bytes place = .ok channel) :
    ∀ item ∈ channel.items, item.Accepted library := by
  obtain ⟨d, hdigest, hitems⟩ := read_eq_ok h
  intro item hitem
  obtain ⟨hlength, hall⟩ := itemsOfRecords_eq_ok_iff.mp hitems
  obtain ⟨i, hi⟩ := List.mem_iff_getElem?.mp hitem
  have hlt : i < d.entries.length := hlength ▸ (List.getElem?_eq_some_iff.mp hi).1
  have hr := List.getElem?_eq_getElem hlt
  exact accepted_of_item (lowered_digest hdigest _ (List.mem_of_getElem? hr))
    (hall i _ item hr hi)

end FeedSieve.Feed
