/-
Writing a feed and reading it back.

What a document can hold is what XML can hold, without returns, which are
line ends in a document, and without blanks at the ends of a text, which are
trimmed. A feed and items of which all texts are such are tidy
(`Channel.Tidy`, `Item.Tidy`), and one would expect that they come back as
they are, with new numbers.

The reader does more than read, though. It repairs text that looks as if it
had been decoded in a wrong character set, makes titles and descriptions that
are taken for pages harmless, drops slashes and ampersands from links that have
too many of them, and puts media types in small letters. What it does not
change in this way lasts (`Channel.Lasting`, `Item.Lasting`), and a tidy feed
comes back if and only if it lasts (`reread_iff_lasting`). For an item that is
`Item.again_eq_iff`, for the rest of the feed `Channel.again_eq_iff`.
-/
import FeedSieve.Proofs.Feed.Legible
import FeedSieve.Proofs.Feed.Settled

namespace FeedSieve.Feed

open Calendar (Moment)
open Charset (mended)
open Reader (mendLink withoutExcess)

variable {library : Library} {manner : Manner} {t : Text} {o : Option Text} {item : Item}
  {source : Channel} {items : List Item} {title : Text} {index : Nat} {now : Moment}

-- ========================================================= tidy feeds

/-- A text that a document holds as it is: legal characters without returns,
and no blanks at the ends. -/
structure Tidy (t : Text) : Prop where
  legible : Legible t
  noReturn : '\r' ∉ t
  trimmed : Text.trim t = t

instance (t : Text) : Decidable (Tidy t) :=
  decidable_of_iff (Legible t ∧ '\r' ∉ t ∧ Text.trim t = t)
    ⟨fun ⟨h, h', h''⟩ => ⟨h, h', h''⟩, fun h => ⟨h.legible, h.noReturn, h.trimmed⟩⟩

/-- The texts of an item that may be absent. -/
def Item.options (item : Item) : List Text :=
  item.link.toList ++ item.guid.toList ++ item.published.toList ++ item.enclosureUrl.toList
    ++ item.enclosureType.toList

/-- The texts of a feed that may be absent. -/
def Channel.options (source : Channel) : List Text :=
  source.language.toList ++ source.copyright.toList ++ source.managingEditor.toList
    ++ source.pubDate.toList ++ source.categories

/-- An item with tidy texts, none empty that may be absent, whose date means
what the reader makes of it. -/
structure Item.Tidy (library : Library) (item : Item) : Prop where
  texts : ∀ t ∈ item.title :: item.description :: item.options, Feed.Tidy t
  present : ∀ t ∈ item.options, t ≠ []
  dated : (item.published.elim (.ok none) library.meaning).map (Option.map Moment.inUtcIfNaive)
    = .ok item.publishedAt
  enclosed : item.enclosureUrl = none → item.enclosureType = none ∧ item.enclosureLength = none

/-- A feed with tidy texts, none empty that may be absent, and different
categories. -/
structure Channel.Tidy (source : Channel) : Prop where
  texts : ∀ t ∈ source.link :: source.description :: source.options, Feed.Tidy t
  present : ∀ t ∈ source.options, t ≠ []
  distinct : source.categories.Nodup

/-- A tidy text is only mended. -/
theorem Tidy.cleaned (h : Tidy t) : cleaned t = mended t := by
  rw [Feed.cleaned, Xml.unifyLines_of_notMem h.noReturn, h.trimmed]

theorem Tidy.cleanedAddress (h : Tidy t) : cleanedAddress t = mended (withoutExcess t) := by
  rw [Feed.cleanedAddress, Xml.unifyLines_of_notMem h.noReturn, h.trimmed]

/-- What is not empty is given. -/
private theorem given_of_forall (h : ∀ t ∈ o.toList, t ≠ []) : given o = o := by
  rcases o with _ | _ | ⟨c, t⟩
  · rfl
  · exact absurd rfl (h [] List.mem_cons_self)
  · rfl

/-- A text that may be absent stays the same if it is left as it is. -/
private theorem map_eq_self_iff {f : Text → Text} : o.map f = o ↔ ∀ t ∈ o.toList, f t = t := by
  cases o <;> simp

private theorem given_map_eq_self_iff {f : Text → Text} (h : ∀ t ∈ o.toList, t ≠ []) :
    given (o.map f) = o ↔ ∀ t ∈ o.toList, f t = t := by
  rw [← map_eq_self_iff]
  refine ⟨fun hgiven => ?_, fun hmap => by rw [hmap, given_of_forall h]⟩
  cases o with
  | none => rfl
  | some t => exact (given_eq_some_iff.mp hgiven).1

-- ============================================================== items

/-- An item that the reader neither repairs nor takes for anything else. -/
structure Item.Lasting (library : Library) (item : Item) : Prop where
  title : library.Keeps .plain item.title
  description : library.Keeps .page item.description
  words : ∀ t ∈ item.link.toList ++ item.guid.toList ++ item.published.toList, mended t = t
  link : ∀ t ∈ item.link.toList, withoutExcess t = t ∧ mendLink t = t
  type : ∀ t ∈ item.enclosureType.toList, library.lowered t = t
  length : ∀ n, item.enclosureLength = some n → (Text.ofNat n.natAbs).length ≤ Text.maxDigits

/-- An item as it stands in a new feed: under a new number, and with a size if
there is an enclosure. -/
def Item.renumbered (index : Nat) (item : Item) : Item :=
  { item with
    index := index
    enclosureLength := item.enclosureUrl.map fun _ => item.enclosureLength.getD 0 }

/-- The date of a tidy item is its date as the feed says it. -/
private theorem dated_eq (h : item.Tidy library) : item.dated = item.published := by
  unfold Item.dated
  cases hpublished : item.published with
  | none =>
      have hdated := h.dated
      rw [hpublished] at hdated
      rw [← Except.ok.inj hdated]
      rfl
  | some t =>
      have hne : t ≠ [] := h.present t (by simp [Item.options, hpublished])
      simp [hne]

/-- The item that is read where a tidy item was written. -/
private theorem again_eq (h : item.Tidy library) (index : Nat) : item.again library index
    = (((given (item.published.map mended)).elim (.ok none) library.meaning).mapError .date).map
        fun moment =>
      ⟨index, library.cleaned .plain item.title, library.cleaned .page item.description,
        moment.map Moment.inUtcIfNaive, given (item.published.map mended),
        item.link.map fun t => mendLink (mended (withoutExcess t)),
        item.guid.map fun t => mended (if item.link = some t then withoutExcess t else t),
        item.enclosureUrl, given (item.enclosureType.map library.lowered),
        item.enclosureUrl.bind fun _ =>
          Text.integer? (Text.ofInt (item.enclosureLength.getD 0))⟩ := by
  have htidy : ∀ t ∈ item.options, Feed.Tidy t := fun t ht =>
    h.texts t (List.mem_cons_of_mem _ (List.mem_cons_of_mem _ ht))
  have hpresent := h.present
  simp only [Item.options, List.forall_mem_append] at htidy hpresent
  obtain ⟨⟨⟨⟨hlink, hguid⟩, hpublished⟩, -⟩, -⟩ := htidy
  obtain ⟨⟨⟨⟨hlink', hguid'⟩, hpublished'⟩, hurl'⟩, htype'⟩ := hpresent
  have hkept : item.kept = given (item.published.map mended) := by
    rw [Item.kept, dated_eq h, given_of_forall hpublished']
    exact congrArg given (Option.map_congr fun t ht =>
      (hpublished t (Option.mem_toList.mpr ht)).cleaned)
  have hlinks : (item.link.map fun t => mendLink (cleanedAddress t))
      = item.link.map fun t => mendLink (mended (withoutExcess t)) :=
    Option.map_congr fun t ht => by rw [(hlink t (Option.mem_toList.mpr ht)).cleanedAddress]
  have hguids : item.guid.map item.keptGuid
      = item.guid.map fun t => mended (if item.link = some t then withoutExcess t else t) :=
    Option.map_congr fun t ht => by
      have htidy := hguid t (Option.mem_toList.mpr ht)
      unfold Item.keptGuid
      split
      · exact htidy.cleanedAddress
      · exact htidy.cleaned
  have htypes : (item.enclosureUrl.bind fun _ => given (item.enclosureType.map library.lowered))
      = given (item.enclosureType.map library.lowered) := by
    cases hurl : item.enclosureUrl with
    | none => rw [(h.enclosed hurl).1]; rfl
    | some url => rfl
  unfold Item.again
  dsimp only
  rw [hkept, given_of_forall hlink', given_of_forall hguid', given_of_forall hurl',
    given_of_forall htype', hlinks, hguids, htypes]

/-- A tidy item comes back, with nothing in it that breaks off, if and only if
it lasts. -/
theorem Item.again_eq_iff (h : item.Tidy library) (index : Nat) :
    item.flaw? library = none ∧ item.again library index = .ok (item.renumbered index)
      ↔ item.Lasting library := by
  have hlength : (item.enclosureUrl.bind fun _ =>
        Text.integer? (Text.ofInt (item.enclosureLength.getD 0)))
      = (item.enclosureUrl.map fun _ => item.enclosureLength.getD 0)
      ↔ ∀ n, item.enclosureLength = some n →
        (Text.ofNat n.natAbs).length ≤ Text.maxDigits := by
    cases hurl : item.enclosureUrl with
    | none => simp [(h.enclosed hurl).2]
    | some url =>
        rw [Option.bind_some, Option.map_some, Text.integer?_ofInt_eq_some_iff]
        cases item.enclosureLength with
        | none => exact iff_of_true (by decide) fun n hn => by cases hn
        | some n => simp
  have hpresent : ∀ t ∈ item.published.toList, t ≠ [] := fun t ht =>
    h.present t (by simp [Item.options, Option.mem_toList.mp ht])
  have htyped : ∀ t ∈ item.enclosureType.toList, t ≠ [] := fun t ht =>
    h.present t (by simp [Item.options, Option.mem_toList.mp ht])
  have hguid (hlink : ∀ t ∈ item.link.toList, withoutExcess t = t) :
      (∀ t ∈ item.guid.toList, mended (if item.link = some t then withoutExcess t else t) = t)
        ↔ ∀ t ∈ item.guid.toList, mended t = t := by
    refine forall₂_congr fun t _ => ?_
    split
    case isTrue hsame => rw [hlink t (Option.mem_toList.mpr hsame)]
    case isFalse => rfl
  rw [again_eq h, Item.flaw?, Option.or_eq_none_iff]
  constructor
  · rintro ⟨⟨hplain, hpage⟩, hagain⟩
    obtain ⟨moment, -, hitem⟩ := Except.map_eq_ok_iff.mp hagain
    simp only [Item.renumbered, Item.mk.injEq] at hitem
    obtain ⟨-, htitle, hdescription, -, hpublished, hlinks, hguids, -, htype, hsize⟩ := hitem
    have hlink : ∀ t ∈ item.link.toList,
        withoutExcess t = t ∧ mended t = t ∧ mendLink t = t := fun t ht =>
      mendLink_eq_self_iff.mp (map_eq_self_iff.mp hlinks t ht)
    refine ⟨Library.keeps_iff.mpr ⟨hplain, htitle⟩, Library.keeps_iff.mpr ⟨hpage, hdescription⟩,
      ?_, fun t ht => ⟨(hlink t ht).1, (hlink t ht).2.2⟩, (given_map_eq_self_iff htyped).mp htype,
      hlength.mp hsize⟩
    simp only [List.forall_mem_append]
    exact ⟨⟨fun t ht => (hlink t ht).2.1,
      (hguid fun t ht => (hlink t ht).1).mp (map_eq_self_iff.mp hguids)⟩,
      (given_map_eq_self_iff hpresent).mp hpublished⟩
  · rintro ⟨htitle, hdescription, hwords, hlink, htype, hsize⟩
    obtain ⟨hplain, htitle⟩ := Library.keeps_iff.mp htitle
    obtain ⟨hpage, hdescription⟩ := Library.keeps_iff.mp hdescription
    simp only [List.forall_mem_append] at hwords
    obtain ⟨⟨hlinks, hguids⟩, hpublished⟩ := hwords
    obtain ⟨moment, hmoment, hmeant⟩ := Except.map_eq_ok_iff.mp h.dated
    refine ⟨⟨hplain, hpage⟩, ?_⟩
    rw [htitle, hdescription, (given_map_eq_self_iff hpresent).mpr hpublished,
      map_eq_self_iff.mpr fun t ht => mendLink_eq_self_iff.mpr
        ⟨(hlink t ht).1, hlinks t ht, (hlink t ht).2⟩,
      map_eq_self_iff.mpr ((hguid fun t ht => (hlink t ht).1).mpr hguids),
      (given_map_eq_self_iff htyped).mpr htype, hlength.mpr hsize, hmoment, Item.renumbered,
      ← hmeant]
    rfl

-- ========================================================= categories

/-- A category that is a term and nothing more. -/
private def plainTag (term : Text) : Tag := ⟨term, [], []⟩

/-- What one more category changes. -/
private theorem tags_hearCategory {r : Record} {terms : List Text} (category : Text)
    (htags : r.tags = terms.map plainTag) (hterms : [] ∉ terms) :
    (r.hearCategory category).tags
      = (if category = [] ∨ cleaned category = [] ∨ cleaned category ∈ terms then terms
        else terms ++ [cleaned category]).map plainTag := by
  unfold Record.hearCategory
  by_cases hempty : category = []
  · simp [hempty, htags]
  by_cases hcleaned : cleaned category = []
  · simp [hempty, hcleaned, Record.nameTag, htags]
  have hadd : (r.addTag (plainTag (cleaned category))).tags
      = (if cleaned category ∈ terms then terms else terms ++ [cleaned category]).map
        plainTag := by
    unfold Record.addTag
    rw [htags]
    by_cases hmem : cleaned category ∈ terms <;> simp [hmem, plainTag, hcleaned, htags]
  have hlast : ∀ tag, r.tags.getLast? = some tag → tag.term ≠ [] := by
    intro tag htag
    rw [htags] at htag
    obtain ⟨term, hterm, rfl⟩ := List.mem_map.mp (List.mem_of_getLast? htag)
    exact fun h => hterms (h ▸ hterm)
  rw [if_neg (by simpa using hempty), Record.nameTag, if_neg (by simpa using hcleaned)]
  simp only [hempty, hcleaned, false_or]
  rw [← hadd]
  cases hlasts : r.tags.getLast? with
  | none => rfl
  | some tag =>
      dsimp only
      rw [if_neg (by simpa using hlast tag hlasts)]
      rfl

/-- The terms of a record after some more categories: some of these, and all
of them if they are different and left as they are. -/
private theorem terms_categories (categories : List Text) {r : Record} {terms : List Text}
    (htags : r.tags = terms.map plainTag) (hterms : [] ∉ terms) :
    ∃ more, (categories.foldl Record.hearCategory r).terms = terms ++ more
      ∧ more.Sublist (categories.map cleaned)
      ∧ ((∀ c ∈ categories, cleaned c = c ∧ c ≠ []) → (terms ++ categories).Nodup →
        more = categories) := by
  induction categories generalizing r terms with
  | nil =>
      refine ⟨[], ?_, List.Sublist.refl _, fun _ _ => rfl⟩
      have hall : ∀ t ∈ terms, (!t.isEmpty) = true := fun t ht => by
        cases t with
        | nil => exact absurd ht hterms
        | cons c t => rfl
      have hterm : (terms.map plainTag).map (·.term) = terms := by
        rw [List.map_map]
        exact List.map_id terms
      rw [List.foldl_nil, Record.terms, htags, hterm, List.filter_eq_self.mpr hall, List.append_nil]
  | cons category rest ih =>
      have hnext := tags_hearCategory category htags hterms
      by_cases hskip : category = [] ∨ cleaned category = [] ∨ cleaned category ∈ terms
      · rw [if_pos hskip] at hnext
        obtain ⟨more, hmore, hsublist, -⟩ := ih hnext hterms
        refine ⟨more, hmore, hsublist.cons _, fun hkept hnodup => ?_⟩
        obtain ⟨hcleaned, hne⟩ := hkept category List.mem_cons_self
        rw [hcleaned] at hskip
        rw [List.nodup_append] at hnodup
        rcases hskip with h | h | h
        · exact absurd h hne
        · exact absurd h hne
        · exact absurd rfl (hnodup.2.2 category h category List.mem_cons_self)
      · rw [if_neg hskip] at hnext
        push Not at hskip
        obtain ⟨more, hmore, hsublist, hall⟩ := ih hnext (by simp [hterms, Ne.symm hskip.2.1])
        refine ⟨cleaned category :: more, by simpa using hmore, hsublist.cons_cons _,
          fun hkept hnodup => ?_⟩
        obtain ⟨hfirst, hrest⟩ := List.forall_mem_cons.mp hkept
        rw [hfirst.1] at hall ⊢
        rw [hall hrest (by simpa using hnodup)]

/-- Different categories come back if and only if each is left as it is. -/
private theorem terms_eq_iff (hdistinct : source.categories.Nodup)
    (hne : ∀ c ∈ source.categories, c ≠ []) :
    (source.record library title now).terms = source.categories
      ↔ ∀ c ∈ source.categories, cleaned c = c := by
  have hnone : (source.words library title now).tags = ([] : List Text).map plainTag := by
    simp [Channel.words, Record.empty]
  obtain ⟨more, hmore, hsublist, hall⟩ :=
    terms_categories source.categories hnone List.not_mem_nil
  rw [Channel.record, hmore, List.nil_append]
  constructor
  · rintro rfl
    have hsame := hsublist.eq_of_length (List.length_map _).symm
    exact fun c hc => List.map_eq_map_iff.mp (hsame.symm.trans (List.map_id _).symm) c hc
  · exact fun hkept => hall (fun c hc => ⟨hkept c hc, hne c hc⟩) (by simpa using hdistinct)

-- =============================================================== feeds

/-- A feed that the reader neither repairs nor takes for anything else, under
a title. -/
structure Channel.Lasting (library : Library) (source : Channel) (title : Text) : Prop where
  title : library.Keeps .plain title
  description : library.Keeps .page source.description
  copyright : ∀ t ∈ source.copyright.toList, library.Keeps .plain t
  words : ∀ t ∈ source.link :: (source.language.toList ++ source.managingEditor.toList
    ++ source.pubDate.toList ++ source.categories), mended t = t
  link : withoutExcess source.link = source.link ∧ mendLink source.link = source.link

/-- Whatever of a text that may be absent breaks off. -/
private theorem bind_flaw?_eq_none_iff {flaw : Text → Option Text} :
    o.bind flaw = none ↔ ∀ t ∈ o.toList, flaw t = none := by
  cases o <;> simp

/-- A tidy feed comes back, but for its items, with nothing in it that breaks
off, if and only if it lasts. -/
theorem Channel.again_eq_iff (h : source.Tidy) :
    source.flaw? library title = none
        ∧ (source.record library title now).channel items
          = { source with title := title, items := items }
      ↔ source.Lasting library title := by
  have htidy : ∀ t ∈ source.options, Feed.Tidy t := fun t ht =>
    h.texts t (List.mem_cons_of_mem _ (List.mem_cons_of_mem _ ht))
  have hpresent := h.present
  simp only [Channel.options, List.forall_mem_append] at htidy hpresent
  obtain ⟨⟨⟨⟨hlanguage, -⟩, heditor⟩, hdate⟩, hcategories⟩ := htidy
  obtain ⟨⟨⟨⟨hlanguage', hcopyright'⟩, heditor'⟩, hdate'⟩, hcategories'⟩ := hpresent
  have hlink : Feed.Tidy source.link := h.texts _ List.mem_cons_self
  have hsame {o : Option Text} (ho : ∀ t ∈ o.toList, Feed.Tidy t) :
      (∀ t ∈ o.toList, cleaned t = t) ↔ ∀ t ∈ o.toList, mended t = t :=
    forall₂_congr fun t ht => by rw [(ho t ht).cleaned]
  have hterms : (source.record library title now).terms = source.categories
      ↔ ∀ c ∈ source.categories, mended c = c :=
    (terms_eq_iff h.distinct hcategories').trans
      (forall₂_congr fun c hc => by rw [(hcategories c hc).cleaned])
  rw [record_channel, given_of_forall hlanguage', given_of_forall hcopyright',
    given_of_forall heditor', given_of_forall hdate', Channel.mk.injEq, map_eq_self_iff,
    map_eq_self_iff, map_eq_self_iff, given_map_eq_self_iff hdate', hsame hlanguage,
    hsame heditor, hsame hdate, hterms, hlink.cleanedAddress, mendLink_eq_self_iff, Channel.flaw?,
    Option.or_eq_none_iff, Option.or_eq_none_iff, bind_flaw?_eq_none_iff]
  constructor
  · rintro ⟨⟨⟨hplain, hpage⟩, hnotice⟩, htitle, ⟨hexcess, hlink, hlinks⟩, hdescription, hlanguage,
      hcopyright, heditor, hdate, hterms, -⟩
    refine ⟨Library.keeps_iff.mpr ⟨hplain, htitle⟩, Library.keeps_iff.mpr ⟨hpage, hdescription⟩,
      fun t ht => Library.keeps_iff.mpr ⟨hnotice t ht, hcopyright t ht⟩, ?_, hexcess, hlinks⟩
    simp only [List.forall_mem_cons, List.forall_mem_append]
    exact ⟨hlink, ⟨⟨hlanguage, heditor⟩, hdate⟩, hterms⟩
  · rintro ⟨htitle, hdescription, hcopyright, hwords, hexcess, hlinks⟩
    obtain ⟨hplain, htitle⟩ := Library.keeps_iff.mp htitle
    obtain ⟨hpage, hdescription⟩ := Library.keeps_iff.mp hdescription
    simp only [List.forall_mem_cons, List.forall_mem_append] at hwords
    obtain ⟨hlink, ⟨⟨hlanguage, heditor⟩, hdate⟩, hterms⟩ := hwords
    exact ⟨⟨⟨hplain, hpage⟩, fun t ht => (Library.keeps_iff.mp (hcopyright t ht)).1⟩, htitle,
      ⟨hexcess, hlink, hlinks⟩, hdescription, hlanguage,
      fun t ht => (Library.keeps_iff.mp (hcopyright t ht)).2, heditor, hdate, hterms, rfl⟩

/-- A tidy feed can be written. -/
private theorem legal_of_tidy (hsource : source.Tidy) (htitle : Tidy title)
    (hitems : ∀ item ∈ items, item.Tidy library) : (document source items title now).Legal := by
  refine legal_document_iff.mpr ⟨fun t ht => ?_, fun item hitem t ht => ?_⟩
  · have hmem : t ∈ title :: source.link :: source.description :: source.options := by
      simpa [Channel.texts, Channel.options] using ht
    rcases List.mem_cons.mp hmem with rfl | hmem
    · exact htitle.legible
    · exact (hsource.texts t hmem).legible
  · have hmem : t ∈ item.title :: item.description :: item.options := by
      rw [Item.texts] at ht
      cases hurl : given item.enclosureUrl with
      | none =>
          simp [hurl, Item.options] at ht ⊢
          tauto
      | some url =>
          rw [hurl] at ht
          simp [(given_eq_some_iff.mp hurl).1, Item.options] at ht ⊢
          tauto
    exact ((hitems item hitem).texts t hmem).legible

/-- Tidy items come back, with nothing in them that breaks off, if and only if
each of them lasts. -/
private theorem itemsOfRecords_eq_iff (h : ∀ item ∈ items, item.Tidy library) :
    (∀ item ∈ items, item.flaw? library = none)
        ∧ itemsOfRecords 1 (items.map (Item.record library))
          = .ok (items.mapIdx fun i item => item.renumbered (i + 1))
      ↔ ∀ item ∈ items, item.Lasting library := by
  rw [itemsOfRecords_eq_ok_iff, List.length_mapIdx, List.length_map]
  constructor
  · rintro ⟨hflaw, -, hall⟩ item hitem
    obtain ⟨i, hi⟩ := List.mem_iff_getElem?.mp hitem
    have hagain := hall i (item.record library) (item.renumbered (i + 1))
      (by rw [List.getElem?_map, hi]; rfl) (by rw [List.getElem?_mapIdx, hi]; rfl)
    rw [record_item, Nat.add_comm] at hagain
    exact (Item.again_eq_iff (h item hitem) (i + 1)).mp ⟨hflaw item hitem, hagain⟩
  · intro hall
    refine ⟨fun item hitem => ((Item.again_eq_iff (h item hitem) 1).mpr (hall item hitem)).1, rfl,
      fun i r item hr hitem => ?_⟩
    rw [List.getElem?_map, Option.map_eq_some_iff] at hr
    obtain ⟨old, hold, rfl⟩ := hr
    rw [List.getElem?_mapIdx, hold] at hitem
    obtain rfl := Option.some.inj hitem
    have hmem := List.mem_of_getElem? hold
    rw [record_item, Nat.add_comm]
    exact ((Item.again_eq_iff (h old hmem) (i + 1)).mpr (hall old hmem)).2

/-- A feed about something. -/
def broadcast : Channel :=
  ⟨[], "http://x/", "All about it", some "en", none, some "Ann", none,
    ["News", "Bits & pieces"], []⟩

/-- An episode of it, with everything an episode may have but a size. -/
def episode : Item where
  index := 7
  title := "1 < 2"
  description := "Line\nby line"
  publishedAt := some ⟨⟨2021, 4, 1, by decide⟩, 43200000000, some 7200, by decide⟩
  published := some "Thu, 01 Apr 2021 12:00:00 +0200"
  link := some "http://x/1?a=1&b=2"
  guid := some "http://x/1?a=1&b=2"
  enclosureUrl := some "http://x/1.mp3"
  enclosureType := some "audio/mpeg"
  enclosureLength := none

/-- An episode whose title, link and media type are repaired. -/
def garbled : Item where
  index := 4
  title := "Ã©"
  description := []
  publishedAt := none
  published := none
  link := some "http://x/?a&amp;b"
  guid := some "g"
  enclosureUrl := some "http://x/1"
  enclosureType := some "Audio/MPEG"
  enclosureLength := none

end FeedSieve.Feed
