/-
What the reader makes of a written feed.

The elements of an item stand in one order, and so do those of a channel.
Each is read to its end before the next begins, so what they change adds up:
to the record of an item (`Item.record`, `InChannel.item`) and to that of the
feed (`Channel.record`, `run_document`). What a written feed is read as are
the items and the channel that these records come to, unless one of its texts
breaks off (`read_document`).
-/
import FeedSieve.Proofs.Feed.Elements

namespace FeedSieve.Feed

open Xml (Event Node startOf)

variable {library : Library} {name t : Text} {attributes : List (Text × Text)} {depth : Nat}
  {feed entry : Record} {earlier entries : List Record} {broken : Option Text}

namespace Reader

-- ====================================================== runs of items

/-- An element in a line of its own: the line is read, and then the element. -/
private theorem run_single (r : Reader) (node : Node) (depth : Nat) :
    r.run library (Xml.eventsAll depth [node])
      = (r.step library (.text (Xml.line depth))).run library (node.events depth) := by
  rw [Xml.eventsAll, Xml.eventsAll, List.append_nil, run_cons]

/-- A text with something in it has an element. -/
private theorem leaf?_cons (name : Text) (c : Char) (t : Text) :
    leaf? name (some (c :: t)) = [leaf name (c :: t)] := rfl

/-- The reader is within an item, this is the record of its entry, and what
has broken off so far. -/
private def InItem (feed entry : Record) (earlier : List Record) (broken : Option Text)
    (r : Reader) : Prop :=
  ∃ titleDepth guidIsLink blanks, r = atItem feed entry earlier titleDepth guidIsLink broken blanks

namespace InItem

variable {r : Reader}

/-- A line of the layout changes nothing. -/
private theorem line (h : InItem feed entry earlier broken r) (library : Library) (t : Text) :
    InItem feed entry earlier broken (r.step library (.text t)) := by
  obtain ⟨titleDepth, guidIsLink, blanks, rfl⟩ := h
  exact ⟨titleDepth, guidIsLink, t :: blanks, rfl⟩

/-- An element that may be left out. -/
private theorem optional (h : InItem feed entry earlier broken r) (library : Library)
    (depth : Nat) (o : Option Text) (entry' : Record) (flaw : Text → Option Text)
    (hnone : given o = none → entry' = entry)
    (hleaf : ∀ t, given o = some t → ∀ titleDepth guidIsLink blanks,
      (atItem feed entry earlier titleDepth guidIsLink broken blanks).run library
          ((leaf name t).events depth)
        = atItem feed entry' earlier titleDepth guidIsLink (broken.or (flaw t)) blanks) :
    InItem feed entry' earlier (broken.or ((given o).bind flaw))
      (r.run library (Xml.eventsAll depth (leaf? name o))) := by
  rcases o with _ | _ | ⟨c, t⟩
  · rw [hnone rfl, given_none, Option.bind_none, Option.or_none]
    exact h
  · rw [hnone rfl, given_nil, Option.bind_none, Option.or_none]
    exact h
  · obtain ⟨titleDepth, guidIsLink, blanks, hline⟩ := h.line library (Xml.line depth)
    refine ⟨titleDepth, guidIsLink, blanks, ?_⟩
    rw [leaf?_cons, run_single, hline, hleaf _ rfl]
    rfl

/-- An element that says a word and breaks off as its text does. -/
private theorem word {key : Key} {keep : Text → Text} {flaw : Text → Option Text}
    (h : InItem feed entry earlier broken r) (library : Library) (depth : Nat) (o : Option Text)
    (hleaf : ∀ t titleDepth guidIsLink blanks,
      (atItem feed entry earlier titleDepth guidIsLink broken blanks).run library
          ((leaf name t).events depth)
        = atItem feed (entry.say key 4 (keep t)) earlier titleDepth guidIsLink
          (broken.or (flaw t)) blanks) :
    InItem feed (entry.hear key 4 ((given o).map keep)) earlier (broken.or ((given o).bind flaw))
      (r.run library (Xml.eventsAll depth (leaf? name o))) :=
  h.optional library depth o _ flaw (fun hnone => by rw [hnone]; rfl)
    (fun t ht titleDepth guidIsLink blanks => by
      rw [ht]
      exact hleaf t titleDepth guidIsLink blanks)

/-- The link of an item. -/
private theorem link (h : InItem feed entry earlier broken r) (library : Library) (depth : Nat)
    (o : Option Text) :
    InItem feed (entry.hear .link 4 ((given o).map fun t => mendLink (cleanedAddress t))) earlier
      broken (r.run library (Xml.eventsAll depth (leaf? "link" o))) := by
  have hlink := h.optional library depth o
    (entry.hear .link 4 ((given o).map fun t => mendLink (cleanedAddress t))) (fun _ => none)
    (fun hnone => by rw [hnone]; rfl)
    (fun t ht _ _ _ => by rw [ht, Option.or_none]; exact item_link t)
  rwa [Option.bind_fun_none, Option.or_none] at hlink

/-- Its date. -/
private theorem date (h : InItem feed entry earlier broken r) (library : Library) (depth : Nat)
    (hpublished : entry.word? .published = none) (o : Option Text) :
    InItem feed (entry.hearDate library 4 ((given o).map cleaned)) earlier broken
      (r.run library (Xml.eventsAll depth (leaf? "pubDate" o))) := by
  have hdate := h.optional library depth o (entry.hearDate library 4 ((given o).map cleaned))
    (fun _ => none) (fun hnone => by rw [hnone]; rfl) (fun t ht _ _ _ => by
      rw [ht, Option.or_none, item_date, Record.sayOver_of_word? hpublished]
      rfl)
  rwa [Option.bind_fun_none, Option.or_none] at hdate

end InItem

end Reader

/-- The identifier of an item as it is kept. -/
def Item.keptGuid (item : Item) (guid : Text) : Text :=
  if item.link = some guid then cleanedAddress guid else cleaned guid

/-- The attributes of the enclosure of an item as they are kept. -/
def Item.enclosures (library : Library) (item : Item) : List (List (Text × Text)) :=
  ((given item.enclosureUrl).map fun url =>
    [("length".toList, Text.ofInt (item.enclosureLength.getD 0))]
      ++ ((given item.enclosureType).map fun type => ("type".toList, library.lowered type)).toList
      ++ [("href".toList, url)]).toList

/-- The record of an item that was written, but for its enclosure. -/
def Item.words (library : Library) (item : Item) : Record :=
  ((((Record.empty.hear .title 4 ((given (some item.title)).map (library.cleaned .plain))).hear
    .link 4 ((given item.link).map fun t => Reader.mendLink (cleanedAddress t))).hear
    .summary 4 ((given (some item.description)).map (library.cleaned .page))).hear
    .id 4 ((given item.guid).map item.keptGuid)).hearDate library 4 ((given item.dated).map cleaned)

/-- The record of an item that was written. -/
def Item.record (library : Library) (item : Item) : Record :=
  { item.words library with enclosures := item.enclosures library }

/-- What breaks off the texts of an item that was written. -/
def Item.flaw? (library : Library) (item : Item) : Option Text :=
  (library.flaw? .plain item.title).or (library.flaw? .page item.description)

namespace Reader

/-- The attributes of an enclosure by their words. -/
private theorem wordsOf_enclosure (url size : Text) (type : Option Text) :
    wordsOf library
        (("url", url) :: ("length", size) :: (type.map fun t => ("type".toList, t)).toList)
      = ("url".toList, url) :: ("length".toList, size)
        :: (type.map fun t => ("type".toList, library.lowered t)).toList := by
  have hurl : Text.lowerPlain "url" = "url".toList := by decide
  have hlength : Text.lowerPlain "length" = "length".toList := by decide
  have htype : Text.lowerPlain "type" = "type".toList := by decide
  cases type <;>
  · simp only [wordsOf, attributesOf, Option.map_none, Option.map_some, Option.toList_none,
      Option.toList_some, List.map_cons, List.map_nil, wordOfAttribute_plain, hurl, hlength, htype]
    rfl

/-- Their names, and that there is no base among them. -/
private theorem plainly_enclosure (library : Library) (url size : Text) (type : Option Text) :
    Plainly "enclosure"
        (("url", url) :: ("length", size) :: (type.map fun t => ("type".toList, t)).toList)
      ∧ attribute? (wordsOf library (("url", url) :: ("length", size)
          :: (type.map fun t => ("type".toList, t)).toList)) "base" = none
      ∧ attribute? (wordsOf library (("url", url) :: ("length", size)
          :: (type.map fun t => ("type".toList, t)).toList)) "xml:base" = none := by
  rw [wordsOf_enclosure]
  cases type <;> exact ⟨rfl, rfl, rfl⟩

/-- What is kept of them. -/
private theorem enclosureFields_written (c : Char) (url size : Text) (type : Option Text) :
    enclosureFields (withHref (("url".toList, c :: url) :: ("length".toList, size)
        :: (type.map fun t => ("type".toList, t)).toList))
      = [("length".toList, size)] ++ (type.map fun t => ("type".toList, t)).toList
        ++ [("href".toList, c :: url)] := by
  cases type <;> rfl

/-- The enclosure of an item. -/
private theorem InItem.enclosure {r : Reader} (h : InItem feed entry earlier broken r)
    (library : Library) (depth : Nat) (hnone : entry.enclosures = []) (item : Item) :
    InItem feed { entry with enclosures := item.enclosures library } earlier broken
      (r.run library (Xml.eventsAll depth (enclosureNode item))) := by
  rw [enclosureNode_eq, Item.enclosures]
  cases hurl : given item.enclosureUrl with
  | none =>
      have hsame : { entry with enclosures := [] } = entry := by rw [← hnone]
      simpa [hsame, Xml.eventsAll] using h
  | some url =>
      obtain ⟨titleDepth, guidIsLink, blanks, hline⟩ := h.line library (Xml.line depth)
      obtain ⟨c, url, rfl⟩ := List.exists_cons_of_ne_nil (given_eq_some_iff.mp hurl).2
      obtain ⟨hplain, hbase⟩ := plainly_enclosure library (c :: url)
        (Text.ofInt (item.enclosureLength.getD 0)) (given item.enclosureType)
      have hkept := enclosureFields_written c url (Text.ofInt (item.enclosureLength.getD 0))
        ((given item.enclosureType).map library.lowered)
      rw [Option.map_map] at hkept
      refine ⟨titleDepth, guidIsLink, blanks, ?_⟩
      rw [Option.map_some, Option.toList_some, run_single, hline, item_enclosure hplain hbase,
        wordsOf_enclosure]
      simp only [Function.comp_def] at hkept ⊢
      rw [hkept, hnone]
      rfl

/-- The identifier of an item. -/
private theorem InItem.guid {r : Reader} (h : InItem feed entry earlier broken r)
    (library : Library) (depth : Nat) (hnone : entry.word? .id = none) (item : Item)
    (hlink : given item.link ≠ none → (entry.word? .link).isSome = true) :
    InItem feed (entry.hear .id 4 ((given item.guid).map item.keptGuid)) earlier broken
      (r.run library (Xml.eventsAll depth (guidNode item))) := by
  unfold guidNode
  rcases hguid : item.guid with _ | _ | ⟨c, guid⟩
  · exact h
  · exact h
  · obtain ⟨titleDepth, guidIsLink, blanks, hline⟩ := h.line library (Xml.line depth)
    simp only [List.isEmpty_cons, Bool.false_eq_true, if_false, given_cons, Option.map_some,
      Record.hear, Item.keptGuid]
    rw [run_single, hline]
    split
    case isTrue hsame =>
      rw [item_guid_link, Record.sayOver_of_word? hnone, Record.suggest_of_word?]
      · exact ⟨_, _, _, rfl⟩
      · rw [Record.word?_say, if_neg (by decide)]
        exact hlink (by rw [hsame]; exact Option.some_ne_none _)
    case isFalse =>
      rw [item_guid, Record.sayOver_of_word? hnone]
      exact ⟨_, _, _, rfl⟩

/-- The reader behind an item. -/
private def InChannel (feed : Record) (entries : List Record) (broken : Option Text)
    (r : Reader) : Prop :=
  ∃ titleDepth guidIsLink, r = atChannel feed entries titleDepth guidIsLink broken

/-- A text that is not there breaks nothing off. -/
private theorem bind_flaw? (manner : Manner) (o : Option Text) :
    (given o).bind (library.flaw? manner) = o.bind (library.flaw? manner) := by
  rcases o with _ | _ | ⟨c, t⟩
  · rfl
  · exact (library.flaw?_nil manner).symm
  · rfl

/-- The elements of an item say what its record says. -/
private theorem run_itemNodes (item : Item) :
    InItem feed (item.record library) entries (broken.or (item.flaw? library))
      ((atItem feed .empty entries none false broken []).run library
        (Xml.eventsAll depth (itemNodes item))) := by
  obtain ⟨first, h₁⟩ : ∃ r, r = Record.empty.hear .title 4
    ((given (some item.title)).map (library.cleaned .plain)) := ⟨_, rfl⟩
  obtain ⟨second, h₂⟩ : ∃ r, r = first.hear .link 4
    ((given item.link).map fun t => mendLink (cleanedAddress t)) := ⟨_, rfl⟩
  obtain ⟨third, h₃⟩ : ∃ r, r = second.hear .summary 4
    ((given (some item.description)).map (library.cleaned .page)) := ⟨_, rfl⟩
  obtain ⟨fourth, h₄⟩ : ∃ r, r = third.hear .id 4 ((given item.guid).map item.keptGuid) := ⟨_, rfl⟩
  obtain ⟨fifth, h₅⟩ : ∃ r, r = fourth.hearDate library 4 ((given item.dated).map cleaned) :=
    ⟨_, rfl⟩
  have htitle : InItem feed first entries (broken.or (library.flaw? .plain item.title))
      ((atItem feed .empty entries none false broken []).run library
        (Xml.eventsAll depth (leaf? "title" (some item.title)))) := by
    rw [h₁]
    rcases item.title with _ | ⟨c, t⟩
    · rw [library.flaw?_nil, Option.or_none]
      exact ⟨_, _, _, rfl⟩
    · obtain ⟨titleDepth, hrun⟩ : ∃ titleDepth,
          (atItem feed .empty entries none false broken [Xml.line depth]).run library
            ((leaf "title" (c :: t)).events depth)
          = atItem feed (Record.empty.sayOver .title 4 (library.cleaned .plain (c :: t))) entries
            titleDepth false (broken.or (library.flaw? .plain (c :: t))) [Xml.line depth] :=
        item_title (c :: t)
      refine ⟨titleDepth, false, [Xml.line depth], ?_⟩
      have hline : (atItem feed .empty entries none false broken []).step library
          (.text (Xml.line depth))
          = atItem feed .empty entries none false broken [Xml.line depth] := rfl
      rw [leaf?_cons, run_single, hline, hrun]
      rfl
  have hlink := htitle.link library depth item.link
  rw [← h₂] at hlink
  have hsummary : second.word? .summary = none := by simp [h₂, h₁]
  have hdescription := hlink.word library depth (some item.description) fun t _ _ _ => by
    rw [item_description t hsummary, Record.sayOver_of_word? hsummary]
  rw [← h₃] at hdescription
  have hguid := hdescription.guid library depth (by simp [h₃, h₂, h₁]) item fun h => by
    cases hgiven : given item.link with
    | none => exact absurd hgiven h
    | some t => simp [h₃, h₂, hgiven]
  rw [← h₄] at hguid
  have hdate := hguid.date library depth (by simp [h₄, h₃, h₂, h₁]) item.dated
  rw [← h₅] at hdate
  have henclosure := hdate.enclosure library depth
    (by simp [h₅, h₄, h₃, h₂, h₁, Record.empty]) item
  simp only [itemNodes, Xml.eventsAll_append, run_append, dateNode_eq]
  rw [bind_flaw?, Option.or_assoc, h₅, h₄, h₃, h₂, h₁] at henclosure
  exact henclosure

/-- An item is read to its end. -/
private theorem InChannel.item {r : Reader} (h : InChannel feed entries broken r)
    (library : Library) (item : Item) :
    InChannel feed (item.record library :: entries) (broken.or (item.flaw? library))
      (r.run library ((itemNode item).events depth)) := by
  obtain ⟨titleDepth, guidIsLink, rfl⟩ := h
  have hrole : roleOf (Text.lowerPlain "item") = .item :=
    roleOf_written (by simp [writtenRoles])
  have hbegin : (atChannel feed entries titleDepth guidIsLink broken).step library
      (startOf "item" []) = atItem feed .empty entries none false broken [] := by
    rw [step_startOf between_atChannel (by decide) hrole rfl (takeLanguage_of_ne (by decide) _)]
    rfl
  have hend {r : Reader}
      (h : InItem feed (item.record library) entries (broken.or (item.flaw? library)) r) :
      InChannel feed (item.record library :: entries) (broken.or (item.flaw? library))
        (r.step library .finish) := by
    obtain ⟨titleDepth, guidIsLink, blanks, rfl⟩ := h
    exact ⟨titleDepth, guidIsLink, rfl⟩
  have hinner (depth : Nat) : InItem feed (item.record library) entries
      (broken.or (item.flaw? library))
      ((atItem feed .empty entries none false broken []).run library
        (Xml.eventsAll depth (itemNodes item))) :=
    run_itemNodes item
  show InChannel _ _ _ (run _ _ ((Node.element "item" [] (itemNodes item)).events depth))
  by_cases hne : itemNodes item = []
  · have hempty := hinner depth
    rw [hne] at hempty ⊢
    rw [Xml.Node.events_void, run_cons, hbegin]
    exact hend hempty
  · rw [Xml.Node.events_row hne (isElement_itemNodes item), List.cons_append, run_cons, hbegin,
      run_append, run_append]
    exact hend ((hinner _).line library _)

-- ====================================================== runs of feeds

namespace InChannel

variable {r : Reader}

/-- A line of the layout changes nothing. -/
private theorem line (h : InChannel feed entries broken r) (library : Library) (t : Text) :
    InChannel feed entries broken (r.step library (.text t)) := by
  obtain ⟨titleDepth, guidIsLink, rfl⟩ := h
  exact ⟨titleDepth, guidIsLink, rfl⟩

/-- An element in a line of its own. -/
private theorem element {feed' : Record} {broken' : Option Text}
    (h : InChannel feed entries broken r) (library : Library) (depth : Nat) (t : Text)
    (hleaf : ∀ titleDepth guidIsLink,
      (atChannel feed entries titleDepth guidIsLink broken).run library
          ((leaf name t).events depth)
        = atChannel feed' entries titleDepth guidIsLink broken') :
    InChannel feed' entries broken' (r.run library (Xml.eventsAll depth [leaf name t])) := by
  obtain ⟨titleDepth, guidIsLink, hline⟩ := h.line library (Xml.line depth)
  refine ⟨titleDepth, guidIsLink, ?_⟩
  rw [run_single, hline, hleaf]

/-- An element that may be left out. -/
private theorem optional (h : InChannel feed entries broken r) (library : Library) (depth : Nat)
    (o : Option Text) (feed' : Record) (flaw : Text → Option Text)
    (hnone : given o = none → feed' = feed)
    (hleaf : ∀ t, given o = some t → ∀ titleDepth guidIsLink,
      (atChannel feed entries titleDepth guidIsLink broken).run library
          ((leaf name t).events depth)
        = atChannel feed' entries titleDepth guidIsLink (broken.or (flaw t))) :
    InChannel feed' entries (broken.or ((given o).bind flaw))
      (r.run library (Xml.eventsAll depth (leaf? name o))) := by
  rcases o with _ | _ | ⟨c, t⟩
  · rw [hnone rfl, given_none, Option.bind_none, Option.or_none]
    exact h
  · rw [hnone rfl, given_nil, Option.bind_none, Option.or_none]
    exact h
  · exact h.element library depth (c :: t) (hleaf (c :: t) rfl)

/-- An element that says a word and breaks off as its text does. -/
private theorem word {key : Key} {keep : Text → Text} {flaw : Text → Option Text}
    (h : InChannel feed entries broken r) (library : Library) (depth : Nat) (o : Option Text)
    (hleaf : ∀ t titleDepth guidIsLink,
      (atChannel feed entries titleDepth guidIsLink broken).run library
          ((leaf name t).events depth)
        = atChannel (feed.say key 3 (keep t)) entries titleDepth guidIsLink
          (broken.or (flaw t))) :
    InChannel (feed.hear key 3 ((given o).map keep)) entries (broken.or ((given o).bind flaw))
      (r.run library (Xml.eventsAll depth (leaf? name o))) :=
  h.optional library depth o _ flaw (fun hnone => by rw [hnone]; rfl)
    (fun t ht titleDepth guidIsLink => by rw [ht]; exact hleaf t titleDepth guidIsLink)

/-- An element that says a word and never breaks off. -/
private theorem sureWord {key : Key} {keep : Text → Text}
    (h : InChannel feed entries broken r) (library : Library) (depth : Nat) (o : Option Text)
    (hleaf : ∀ t titleDepth guidIsLink,
      (atChannel feed entries titleDepth guidIsLink broken).run library
          ((leaf name t).events depth)
        = atChannel (feed.say key 3 (keep t)) entries titleDepth guidIsLink broken) :
    InChannel (feed.hear key 3 ((given o).map keep)) entries broken
      (r.run library (Xml.eventsAll depth (leaf? name o))) := by
  have hword := h.optional library depth o (feed.hear key 3 ((given o).map keep)) (fun _ => none)
    (fun hnone => by rw [hnone]; rfl)
    (fun t ht _ _ => by rw [ht, Option.or_none]; exact hleaf t _ _)
  rwa [Option.bind_fun_none, Option.or_none] at hword

/-- The date of the feed. -/
private theorem date (h : InChannel feed entries broken r) (library : Library) (depth : Nat)
    (o : Option Text) :
    InChannel (feed.hearDate library 3 ((given o).map cleaned)) entries broken
      (r.run library (Xml.eventsAll depth (leaf? "pubDate" o))) := by
  have hdate := h.optional library depth o (feed.hearDate library 3 ((given o).map cleaned))
    (fun _ => none) (fun hnone => by rw [hnone]; rfl)
    (fun t ht _ _ => by rw [ht, Option.or_none]; exact channel_date t)
  rwa [Option.bind_fun_none, Option.or_none] at hdate

end InChannel

end Reader

/-- The record with a category that was written. -/
def Record.hearCategory (r : Record) (category : Text) : Record :=
  if category.isEmpty then r else r.nameTag (cleaned category)

/-- The record of a feed that was written, but for its categories. -/
def Channel.words (library : Library) (source : Channel) (title : Text) (now : Calendar.Moment) :
    Record :=
  let made := cleaned now.mail
  (((((((((Record.empty.say .title 3 (library.cleaned .plain title)).say
    .link 3 (Reader.mendLink (cleanedAddress source.link))).say
    .subtitle 3 (library.cleaned .page source.description)).hear
    .language 3 ((given source.language).map cleaned)).hear
    .rights 3 ((given source.copyright).map (library.cleaned .plain))).hear
    .author 3 ((given source.managingEditor).map cleaned)).hearDate library 3
    ((given source.pubDate).map cleaned)).say
    .updated 3 made).update (library.stampOf? made))

/-- The record of a feed that was written. -/
def Channel.record (library : Library) (source : Channel) (title : Text) (now : Calendar.Moment) :
    Record :=
  source.categories.foldl Record.hearCategory (source.words library title now)

/-- What breaks off the texts of a feed that was written, but for its items. -/
def Channel.flaw? (library : Library) (source : Channel) (title : Text) : Option Text :=
  ((library.flaw? .plain title).or (library.flaw? .page source.description)).or
    (source.copyright.bind (library.flaw? .plain))

namespace Reader

/-- The categories of a feed. -/
private theorem InChannel.categories {r : Reader} (h : InChannel feed entries broken r)
    (library : Library) (depth : Nat) (categories : List Text) :
    InChannel (categories.foldl Record.hearCategory feed) entries broken
      (r.run library (Xml.eventsAll depth
        (categories.flatMap fun category => leaf? "category" (some category)))) := by
  induction categories generalizing feed r with
  | nil => exact h
  | cons category rest ih =>
      rw [List.flatMap_cons, Xml.eventsAll_append, run_append]
      refine ih ?_
      rcases category with _ | ⟨c, category⟩
      · exact h
      · exact h.element library depth (c :: category) fun _ _ => channel_category _

/-- The items of a feed. -/
private theorem InChannel.items {r : Reader} (h : InChannel feed entries broken r)
    (library : Library) (depth : Nat) (items : List Item) :
    InChannel feed ((items.map (Item.record library)).reverse ++ entries)
      (broken.or (items.findSome? (Item.flaw? library)))
      (r.run library (Xml.eventsAll depth (items.map itemNode))) := by
  induction items generalizing entries broken r with
  | nil => simpa [Xml.eventsAll] using h
  | cons item rest ih =>
      have hrest := ih (r := run library (r.step library (.text (Xml.line depth)))
        ((itemNode item).events depth)) ((h.line library (Xml.line depth)).item library item)
      have hfirst : (item.flaw? library).or (rest.findSome? (Item.flaw? library))
          = (item :: rest).findSome? (Item.flaw? library) := by
        rw [List.findSome?_cons]
        cases item.flaw? library <;> rfl
      rw [Option.or_assoc, hfirst] at hrest
      simpa [Xml.eventsAll, run_cons, run_append] using hrest

/-- They say what the record of the feed says, and hold its items. -/
private theorem run_channelNodes (library : Library) (source : Channel) (items : List Item)
    (title : Text) (now : Calendar.Moment) (depth : Nat) :
    InChannel (source.record library title now) (items.map (Item.record library)).reverse
      ((source.flaw? library title).or (items.findSome? (Item.flaw? library)))
      ((atChannel .empty [] none false none).run library
        (Xml.eventsAll depth (channelNodes source items title now))) := by
  have h : InChannel (Record.empty.say .title 3 (library.cleaned .plain title)) []
      (library.flaw? .plain title) ((atChannel .empty [] none false none).run library
        (Xml.eventsAll depth [leaf "title" title])) := by
    obtain ⟨titleDepth, hrun⟩ : ∃ titleDepth,
        (atChannel .empty [] none false none).run library ((leaf "title" title).events depth)
        = atChannel (Record.empty.say .title 3 (library.cleaned .plain title)) [] titleDepth false
          (Option.none.or (library.flaw? .plain title)) := channel_title title
    refine ⟨titleDepth, false, ?_⟩
    have hline : (atChannel .empty [] none false none).step library (.text (Xml.line depth))
        = atChannel .empty [] none false none := rfl
    rw [run_single, hline, hrun]
    rfl
  have h := h.element library depth source.link fun _ _ => channel_link _
  have h := h.element library depth source.description fun _ _ =>
    channel_description _ (by simp)
  have h := h.sureWord library depth source.language fun t _ _ => channel_language t
  have h := h.word library depth source.copyright fun t _ _ => channel_copyright t
  have h := h.sureWord library depth source.managingEditor fun t _ _ =>
    channel_editor t (by simp)
  have h := h.date library depth source.pubDate
  have h := h.element library depth now.mail fun _ _ => channel_made _
  have h := h.categories library depth source.categories
  have h := h.element library depth Product.generator fun _ _ => channel_generator _
  have h := h.items library depth items
  rw [List.append_nil] at h
  have hnodes : channelNodes source items title now = [leaf "title" title] ++
      ([leaf "link" source.link] ++ ([leaf "description" source.description] ++
      (leaf? "language" source.language ++ (leaf? "copyright" source.copyright ++
      (leaf? "managingEditor" source.managingEditor ++ (leaf? "pubDate" source.pubDate ++
      ([leaf "lastBuildDate" now.mail] ++
      (source.categories.flatMap (fun category => leaf? "category" (some category)) ++
      ([leaf "generator" Product.generator] ++ items.map itemNode))))))))) := by
    simp [channelNodes]
  rw [hnodes]
  simp only [Xml.eventsAll_append, run_append]
  simpa [bind_flaw?, Channel.flaw?, Channel.record, Channel.words] using h

/-- What the reader knows when it has read a written feed. -/
theorem run_document (library : Library) (source : Channel) (items : List Item) (title : Text)
    (now : Calendar.Moment) :
    let r := initial.run library ((document source items title now).events 0)
    r.beyond = false
      ∧ r.broken = (source.flaw? library title).or (items.findSome? (Item.flaw? library))
      ∧ r.isFeed = true ∧ r.feed = source.record library title now
      ∧ r.entries.reverse = items.map (Item.record library) := by
  have hrss : roleOf (Text.lowerPlain "rss") = .rss := roleOf_written (by simp [writtenRoles])
  have hchannel : roleOf (Text.lowerPlain "channel") = .channel :=
    roleOf_written (by simp [writtenRoles])
  have hwords : wordsOf library [("version", "2.0")] = [("version".toList, "2.0".toList)] := by
    have hname : Text.lowerPlain "version" = "version".toList := by decide
    simp only [wordsOf, attributesOf, List.map_cons, List.map_nil, wordOfAttribute_plain, hname]
    rfl
  have hbegin : ((initial.step library (startOf "rss" [("version", "2.0")])).step library
      (.text (Xml.line 1))).step library (startOf "channel" [])
      = atChannel .empty [] none false none := by
    rw [step_startOf ⟨rfl, rfl, rfl⟩ (by decide) hrss (by rw [hwords]; rfl)
        (fun r => by rw [hwords]; rfl),
      step_startOf ⟨rfl, rfl, rfl⟩ (by decide) hchannel rfl (takeLanguage_of_ne (by decide) _)]
    rfl
  have hevents : (document source items title now).events 0
      = startOf "rss" [("version", "2.0")] :: .text (Xml.line 1) :: startOf "channel" []
        :: (Xml.eventsAll 2 (channelNodes source items title now)
          ++ [.text (Xml.line 1), .finish, .text (Xml.line 0), .finish]) := by
    have hne : channelNodes source items title now ≠ [] := by simp [channelNodes]
    show (Node.element "rss" _ [.element "channel" [] (channelNodes source items title now)]).events
      0 = _
    rw [Xml.Node.events_row (by simp) (by simp [Node.isElement]), Xml.eventsAll,
      Xml.Node.events_row hne (isElement_channelNodes)]
    simp [Xml.eventsAll]
  obtain ⟨titleDepth, guidIsLink, hinner⟩ := run_channelNodes library source items
    title now 2
  have hrun : initial.run library ((document source items title now).events 0)
      = (atChannel (source.record library title now) (items.map (Item.record library)).reverse
          titleDepth guidIsLink
          ((source.flaw? library title).or (items.findSome? (Item.flaw? library)))).run library
        [.text (Xml.line 1), .finish, .text (Xml.line 0), .finish] := by
    rw [hevents, run_cons, run_cons, run_cons, hbegin, run_append, hinner]
  rw [hrun]
  exact ⟨rfl, rfl, rfl, rfl, List.reverse_reverse _⟩

end Reader

-- =========================================================== documents

variable {source : Channel} {items : List Item} {title : Text} {now : Calendar.Moment}

/-- What breaks off a feed that was written: the first of its texts that does
so. -/
def documentFlaw? (library : Library) (source : Channel) (items : List Item) (title : Text) :
    Option Text :=
  (source.flaw? library title).or (items.findSome? (Item.flaw? library))

/-- Nothing breaks it off if nothing breaks off its own texts and those of its
items. -/
theorem documentFlaw?_eq_none_iff : documentFlaw? library source items title = none
    ↔ source.flaw? library title = none ∧ ∀ item ∈ items, item.flaw? library = none := by
  rw [documentFlaw?, Option.or_eq_none_iff, List.findSome?_eq_none_iff]

/-- What a written feed is read as. -/
theorem read_document (library : Library) (h : (document source items title now).Legal)
    (place : Text) :
    read library (Utf8.encode (Xml.writeDocument (document source items title now))) place
      = match documentFlaw? library source items title with
        | some what => .error (.broken (.library what))
        | none => ((itemsOfRecords 1 (items.map (Item.record library))).map
            (source.record library title now).channel).mapError .broken := by
  obtain ⟨hbeyond, hbroken, hfeed, hrecord, hentries⟩ :=
    Reader.run_document library source items title now
  have hdigest : (Reader.initial.run library ((document source items title now).events 0)).digest
      = match documentFlaw? library source items title with
        | some what => .error what
        | none => .ok ⟨none, true, source.record library title now,
            items.map (Item.record library)⟩ := by
    rw [Reader.digest, hbroken, hfeed, hrecord, hentries]
    rfl
  have hbytes : Draft.ofBytes library
        (Utf8.encode (Xml.writeDocument (document source items title now)))
      = ((Reader.initial.run library ((document source items title now).events 0)).digest.map
          Digest.draft).mapError .library :=
    ofBytes_written (by decide) (proper_document h) (List.cons_ne_nil _ _)
      (by simp [Node.isElement]) rfl hbeyond
  rw [read, hbytes, hdigest]
  cases documentFlaw? library source items title with
  | some what => rfl
  | none => exact channel?_digest _ _ place

/-- A written feed is read as a channel if none of its texts breaks off, its
items are read as those of the channel, and the rest as the rest. -/
theorem read_document_eq_ok_iff (h : (document source items title now).Legal) (place : Text)
    {channel : Channel} :
    read library (Utf8.encode (Xml.writeDocument (document source items title now))) place
        = .ok channel
      ↔ documentFlaw? library source items title = none
        ∧ itemsOfRecords 1 (items.map (Item.record library)) = .ok channel.items
        ∧ (source.record library title now).channel channel.items = channel := by
  rw [read_document library h]
  cases documentFlaw? library source items title with
  | some what => exact ⟨fun h => (by cases h), fun h => (by cases h.1)⟩
  | none =>
      rw [Except.mapError_eq_ok_iff, Except.map_eq_ok_iff]
      constructor
      · rintro ⟨again, hagain, rfl⟩
        exact ⟨rfl, hagain, rfl⟩
      · rintro ⟨-, hagain, hchannel⟩
        exact ⟨channel.items, hagain, hchannel⟩

/-- A feed with a character in it that may not stand in a document is never
read as a channel. -/
theorem read_document_illegal (library : Library)
    (h : ¬ (document source items title now).Legal) (place : Text) (channel : Channel) :
    read library (Utf8.encode (Xml.writeDocument (document source items title now))) place
      ≠ .ok channel := by
  unfold read
  rw [document]
  rcases ofBytes_illegal library (by decide) h with ⟨what, hofBytes⟩ | ⟨draft, hofBytes, hmalformed⟩
  · rw [hofBytes]
    exact fun h => by cases h
  · rw [hofBytes]
    show draft.channel? place ≠ _
    unfold Draft.channel?
    rw [hmalformed]
    exact fun h => by cases h

-- =============================================================== items

@[simp] theorem cleaned_nil : cleaned [] = [] := rfl

/-- The moment that a date means: as it is written down if it means anything
so, in numbers otherwise. -/
def Library.meaning (library : Library) (t : Text) :
    Except DateBreak (Option Calendar.Moment) :=
  (timestamp t).map (·.or ((library.stampOf? t).bind Stamp.moment?))

/-- The date of an item that was written, as it is kept. -/
def Item.kept (item : Item) : Option Text := given ((given item.dated).map cleaned)

/-- The item that is read where an item was written. -/
def Item.again (library : Library) (index : Nat) (item : Item) : Except Break Item :=
  let url := given item.enclosureUrl
  ((item.kept.elim (.ok none) library.meaning).mapError .date).map fun moment =>
    ⟨index, library.cleaned .plain item.title, library.cleaned .page item.description,
      moment.map Calendar.Moment.inUtcIfNaive, item.kept,
      (given item.link).map fun t => Reader.mendLink (cleanedAddress t),
      (given item.guid).map item.keptGuid, url,
      url.bind fun _ => given ((given item.enclosureType).map library.lowered),
      url.bind fun _ => Text.integer? (Text.ofInt (item.enclosureLength.getD 0))⟩

/-- What the attributes of a written enclosure say. -/
private theorem enclosure_again (library : Library) (item : Item) :
    let attributes := (item.enclosures library).head?.getD []
    (given (Reader.attribute? attributes "href")).or (Reader.attribute? attributes "url")
        = given item.enclosureUrl
      ∧ given (Reader.attribute? attributes "type")
        = (given item.enclosureUrl).bind
          (fun _ => given ((given item.enclosureType).map library.lowered))
      ∧ Reader.attribute? attributes "length"
        = (given item.enclosureUrl).map fun _ => Text.ofInt (item.enclosureLength.getD 0) := by
  unfold Item.enclosures
  rcases item.enclosureUrl with _ | _ | ⟨c, url⟩
  · exact ⟨rfl, rfl, rfl⟩
  · exact ⟨rfl, rfl, rfl⟩
  · rcases item.enclosureType with _ | _ | ⟨d, type⟩ <;> exact ⟨rfl, rfl, rfl⟩

/-- What the record of a written item says. -/
private theorem word?_record (library : Library) (item : Item) :
    (item.record library).word? .title
        = (given (some item.title)).map (library.cleaned .plain)
      ∧ (item.record library).word? .summary
        = (given (some item.description)).map (library.cleaned .page)
      ∧ (item.record library).word? .subtitle = none
      ∧ (item.record library).word? .link
        = (given item.link).map (fun t => Reader.mendLink (cleanedAddress t))
      ∧ (item.record library).word? .id = (given item.guid).map item.keptGuid
      ∧ (item.record library).word? .published = (given item.dated).map cleaned
      ∧ (item.record library).word? .updated = none := by
  have hword (key : Key) : (item.record library).word? key = (item.words library).word? key := rfl
  simp [hword, Item.words]

/-- The moment that its date in numbers names. -/
private theorem time_record (item : Item) : (item.record library).time
    = (((given item.dated).map cleaned).bind library.stampOf?).bind Stamp.moment? := by
  have htime : (item.record library).time = (item.words library).time := rfl
  rw [htime, Record.time, Item.words]
  cases (given item.dated).map cleaned <;> simp [Record.empty]

/-- The moment of a written item is what its date means. -/
private theorem moment_record (item : Item) : (item.record library).moment
    = (item.kept.elim (.ok none) library.meaning).mapError .date := by
  obtain ⟨-, -, -, -, -, hpublished, hupdated⟩ := word?_record library item
  have hwritten : (item.record library).written = item.kept := by
    rw [Record.written, hpublished, hupdated, given_none, Option.or_none]
    rfl
  unfold Record.moment
  rw [hwritten, time_record, Item.kept]
  rcases (given item.dated).map cleaned with _ | _ | ⟨c, t⟩
  · rfl
  · rfl
  · show ((timestamp (c :: t)).mapError Break.date).map _ = ((timestamp (c :: t)).map _).mapError _
    cases timestamp (c :: t) <;> rfl

/-- The record of a written item comes to that item. -/
theorem record_item (item : Item) (index : Nat) :
    (item.record library).item index = item.again library index := by
  obtain ⟨hurl, htype, hlength⟩ := enclosure_again library item
  obtain ⟨htitle, hsummary, hsubtitle, hlink, hid, hpublished, hupdated⟩ :=
    word?_record library item
  have hwritten : (item.record library).written = item.kept := by
    rw [Record.written, hpublished, hupdated, given_none, Option.or_none]
    rfl
  have hkept (manner : Manner) (t : Text) :
      ((given (some t)).map (library.cleaned manner)).getD [] = library.cleaned manner t := by
    cases t with
    | nil => exact (library.cleaned_nil manner).symm
    | cons c t => rfl
  have henclosure : (item.record library).enclosure = (item.enclosures library).head?.getD [] := rfl
  unfold Record.item Item.again
  rw [htitle, hsummary, hsubtitle, hlink, hid, hwritten, moment_record, henclosure, hurl, htype,
    hlength, Option.or_none, hkept, hkept, Option.bind_map]
  rfl

/-- Categories are no words. -/
private theorem word?_hearCategory (r : Record) (category : Text) (key : Key) :
    (r.hearCategory category).word? key = r.word? key := by
  unfold Record.hearCategory Record.nameTag Record.addTag
  split
  · rfl
  · split
    · rfl
    · split
      · split
        · rfl
        · split <;> rfl
      · split <;> rfl

private theorem word?_categories (r : Record) (categories : List Text) (key : Key) :
    (categories.foldl Record.hearCategory r).word? key = r.word? key := by
  induction categories generalizing r with
  | nil => rfl
  | cons category rest ih => rw [List.foldl_cons, ih, word?_hearCategory]

/-- The channel that the record of a written feed comes to. -/
theorem record_channel (source : Channel) (title : Text) (now : Calendar.Moment)
    (items : List Item) : (source.record library title now).channel items
      = ⟨library.cleaned .plain title, Reader.mendLink (cleanedAddress source.link),
        library.cleaned .page source.description, (given source.language).map cleaned,
        (given source.copyright).map (library.cleaned .plain),
        (given source.managingEditor).map cleaned, given ((given source.pubDate).map cleaned),
        (source.record library title now).terms, items⟩ := by
  have hdescription : (given (some (library.cleaned .page source.description))).getD
      (library.cleaned .page source.description) = library.cleaned .page source.description := by
    cases library.cleaned .page source.description <;> rfl
  unfold Record.channel
  simp only [Channel.record, word?_categories]
  simp [Channel.words, hdescription]

end FeedSieve.Feed
