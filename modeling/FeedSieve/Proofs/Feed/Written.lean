/-
What is read off the bytes of a written document.

A document says in its first line which set its bytes are in, and its text
comes back (`documentText_written`). That line is cut off before the rest is
read, and so is any grammar, of which a written document has none
(`plainDocument_written`); so its text is certain (`isCertain_written`). What is
left are the events of the tree (`ofBytes_written`), unless there is a
character in it that may not stand in a document (`ofBytes_illegal`).
-/
import FeedSieve.Feed.Document
import FeedSieve.Proofs.Feed.Drafted
import FeedSieve.Proofs.Text.Utf8
import FeedSieve.Proofs.Xml.Nested

namespace FeedSieve.Feed

open Xml (Node)

variable {library : Library} {name body : Text} {attributes : List (Text × Text)}
  {children : List Node} {c : Char}

-- ================================================================ text

/-- The declaration in bytes: the marks of other sets are not among them. -/
private theorem encode_written (body : Text) :
    Utf8.encode (Xml.declaration ++ body) = Utf8.encode Xml.declaration ++ Utf8.encode body :=
  List.flatMap_append

private theorem encode_declaration : Utf8.encode Xml.declaration
    = Xml.declaration.map fun c => c.toNat.toUInt8 := by
  decide

/-- The set that a written document declares. -/
private theorem declaredSet?_written (body : Text) :
    declaredSet? none (Utf8.encode (Xml.declaration ++ body)) = some .utf8 := by
  have hname : declaredName? (Utf8.encode (Xml.declaration ++ body)) = some "utf-8".toList := by
    rw [encode_written, encode_declaration]
    rfl
  have hset : Charset.ofName? "utf-8" = some .utf8 := by decide
  unfold declaredSet?
  simp only [hname, Option.getD_some, hset]
  rfl

/-- It has no mark. -/
private theorem marked_written (body : Text) : marked (Utf8.encode (Xml.declaration ++ body))
    = (none, Utf8.encode (Xml.declaration ++ body)) := by
  rw [encode_written, encode_declaration]
  rfl

/-- The text of a written document is the one that was written. -/
theorem documentText_written (body : Text) :
    documentText (Utf8.encode (Xml.declaration ++ body)) = Xml.declaration ++ body := by
  unfold documentText
  simp only [marked_written, candidates, declaredSet?_written, Option.toList_some, List.cons_append,
    List.findSome?_cons, Charset.Encoding.decode?, Utf8.decode_encode]
  rfl

/-- Only the declaration is cut off. -/
theorem plainDocument_written (hc : isWordChar c = true) :
    plainDocument (Xml.declaration ++ '<' :: c :: body) = '\n' :: '<' :: c :: body := by
  have hprologue : splitPrologue ('\n' :: '<' :: c :: body) = ("\n<".toList, c :: body) := by
    simp [splitPrologue, hc]
  have hcut : (Text.after? "<?xml" (Xml.declaration ++ '<' :: c :: body)).map (Text.cut '>')
      = some (" version='1.0' encoding='utf-8'?".toList, some ('\n' :: '<' :: c :: body)) := rfl
  unfold plainDocument
  simp only [hcut]
  unfold withoutGrammar
  simp only [hprologue]
  rfl

/-- Up to a bracket everything comes before the first element. -/
private theorem splitPrologue_append {before : Text} (h : '<' ∉ before) (rest : Text) :
    splitPrologue (before ++ rest)
      = (before ++ (splitPrologue rest).1, (splitPrologue rest).2) := by
  induction before with
  | nil => rfl
  | cons c before ih =>
      have hne : '<' ≠ c := List.ne_of_not_mem_cons h
      have hnot : '<' ∉ before := List.not_mem_of_not_mem_cons h
      rw [List.cons_append, splitPrologue, ih hnot]
      · rfl
      · intro _ _ hc
        exact absurd hc.symm hne

/-- Before the first element of a written document there is nothing but the
declaration. -/
private theorem hasGrammar_written (hc : isWordChar c = true) :
    hasGrammar (Xml.declaration ++ '<' :: c :: body) = false := by
  have hprologue : splitPrologue (Xml.declaration ++ '<' :: c :: body)
      = (Xml.declaration ++ ['<'], c :: body) := by
    have hopens : Xml.declaration = '<' :: '?' :: Xml.declaration.drop 2 := by decide
    have hmark : isWordChar '?' = false := by decide
    have hnot : '<' ∉ '?' :: Xml.declaration.drop 2 := by decide
    have hsplit := splitPrologue_append hnot ('<' :: c :: body)
    rw [splitPrologue, if_pos hc] at hsplit
    rw [hopens, List.cons_append, List.cons_append, splitPrologue, hmark, ← List.cons_append,
      hsplit]
    rfl
  have hnone : (Text.occursIn "<!DOCTYPE" (Xml.declaration ++ ['<'])
      || Text.occursIn "<!ENTITY" (Xml.declaration ++ ['<'])) = false := by decide
  unfold hasGrammar
  rw [hprologue]
  exact hnone

/-- It is certain what its text is. -/
theorem isCertain_written (hc : isWordChar c = true) :
    isCertain (Utf8.encode (Xml.declaration ++ '<' :: c :: body)) = true := by
  unfold isCertain
  simp only [marked_written, declaredSet?_written, Option.bind_some, Charset.Encoding.decode?,
    Utf8.decode_encode, Except.toOption, hasGrammar_written hc]
  rfl

-- =============================================================== drafts

/-- A written element begins with its name. -/
private theorem write_laidOut (c : Char) (name : Text) (attributes : List (Text × Text))
    (children : List Node) (depth : Nat) :
    ∃ body, ((Node.element (c :: name) attributes children).laidOut depth).write
      = '<' :: c :: body := by
  rw [Node.laidOut]
  split <;>
  · rw [Node.write]
    split <;> exact ⟨_, rfl⟩

/-- A written document is read from its first element on. -/
private theorem events?_written (attributes : List (Text × Text)) (children : List Node)
    (hname : name.head?.any isWordChar = true) :
    let bytes := Utf8.encode (Xml.writeDocument (.element name attributes children))
    isCertain bytes = true ∧ Xml.events? (plainDocument (documentText bytes))
      = Xml.events? ('\n' :: ((Node.element name attributes children).laidOut 0).write) := by
  cases name with
  | nil => cases hname
  | cons c name =>
      obtain ⟨body, hbody⟩ := write_laidOut c name attributes children 0
      simp only [Xml.writeDocument, hbody]
      exact ⟨isCertain_written hname, by
        rw [documentText_written, plainDocument_written hname]⟩

/-- It has bytes. -/
private theorem isEmpty_written (body : Text) :
    (Utf8.encode (Xml.declaration ++ body)).isEmpty = false := by
  rw [encode_written, encode_declaration]
  rfl

/-- What is read of a written document is read of the events of its tree, if
there is no more in it than that. -/
theorem ofBytes_written (hname : name.head?.any isWordChar = true)
    (h : Xml.Proper (.element name attributes children)) (hne : children ≠ [])
    (hall : ∀ child ∈ children, child.isElement = true) {r : Reader}
    (hr : ((Node.element name attributes children).events 0).foldl (Reader.step library)
      Reader.initial = r) (hbeyond : r.beyond = false) :
    Draft.ofBytes library (Utf8.encode (Xml.writeDocument (.element name attributes children)))
      = (r.digest.map Digest.draft).mapError .library := by
  obtain ⟨hcertain, hevents⟩ := events?_written attributes children hname
  rw [Xml.events?_laidOut h hne hall] at hevents
  have hown : ownDigest library (Utf8.encode
      (Xml.writeDocument (.element name attributes children))) = (r.digest, false) := by
    unfold ownDigest
    rw [hevents, hcertain]
    simp only [hr, hbeyond]
    rfl
  unfold Draft.ofBytes digest
  rw [hown, Xml.writeDocument, isEmpty_written]
  rfl

/-- A document with a character in it that may not stand in one is malformed,
unless something escapes when it is gone over. -/
theorem ofBytes_illegal (library : Library) (hname : name.head?.any isWordChar = true)
    (h : ¬ (Node.element name attributes children).Legal) :
    (∃ what, Draft.ofBytes library
        (Utf8.encode (Xml.writeDocument (.element name attributes children))) = .error what)
      ∨ ∃ draft, Draft.ofBytes library
          (Utf8.encode (Xml.writeDocument (.element name attributes children))) = .ok draft
        ∧ draft.malformed = some notWellFormed := by
  obtain ⟨hcertain, hevents⟩ := events?_written attributes children hname
  rw [Xml.events?_eq_none h] at hevents
  have hofBytes : Draft.ofBytes library
        (Utf8.encode (Xml.writeDocument (.element name attributes children)))
      = ((digest library (Utf8.encode (Xml.writeDocument (.element name attributes children)))).map
          Digest.draft).mapError .library := by
    unfold Draft.ofBytes
    rw [Xml.writeDocument, isEmpty_written]
    rfl
  rw [hofBytes]
  unfold digest ownDigest
  rw [hevents, hcertain]
  simp only [Bool.not_true]
  cases library.stray? _ with
  | some what => exact .inl ⟨_, rfl⟩
  | none => exact .inr ⟨_, rfl, rfl⟩

-- =========================================================== elements

/-- The names in a written feed. -/
private def writtenNames : List Text :=
  ["rss", "channel", "item", "title", "link", "description", "guid", "pubDate", "enclosure",
   "language", "copyright", "managingEditor", "lastBuildDate", "category", "generator"]

/-- The names of its attributes. -/
private def writtenKeys : List Text := ["version", "isPermaLink", "url", "length", "type"]

private theorem unbound_written (hkeys : ∀ a ∈ attributes, a.1 ∈ writtenKeys)
    (hdiffer : Xml.allDiffer (attributes.map (·.1)) = true) : Xml.Unbound attributes := by
  have hall : ∀ key ∈ writtenKeys, Xml.Plain key ∧ key ≠ "xmlns".toList := by decide
  exact ⟨fun a ha => hall _ (hkeys a ha), hdiffer⟩

private theorem unbound_nil : Xml.Unbound [] := ⟨fun a ha => (by cases ha), rfl⟩

/-- The tag of an element of a written feed. -/
private theorem fit_written (hname : name ∈ writtenNames) (hunbound : Xml.Unbound attributes)
    (h : (Node.element name attributes children).Legal) :
    (Xml.Piece.opens name attributes).Fit := by
  have hall : ∀ name ∈ writtenNames, Xml.Plain name := by decide
  exact ⟨⟨hall _ hname, fun a ha => ⟨(hunbound.plain a ha).1, h.value ha⟩⟩, hunbound⟩

/-- An element of a written feed that holds a text or nothing. -/
private structure Simple (node : Node) : Prop where
  exists_eq : ∃ name ∈ writtenNames, ∃ attributes, Xml.Unbound attributes
    ∧ (node = .element name attributes [] ∨ ∃ t, node = .element name attributes [.text t])

private theorem Simple.isElement {node : Node} (h : Simple node) : node.isElement = true := by
  obtain ⟨name, -, attributes, -, rfl | ⟨t, rfl⟩⟩ := h.exists_eq <;> rfl

private theorem Simple.proper {node : Node} (h : Simple node) (hlegal : node.Legal) :
    Xml.Proper node := by
  obtain ⟨name, hname, attributes, hunbound, rfl | ⟨t, rfl⟩⟩ := h.exists_eq
  · exact .row _ _ _ (fit_written hname hunbound hlegal) fun child hchild => by cases hchild
  · exact .leaf _ _ _ (fit_written hname hunbound hlegal)
      (hlegal.child List.mem_cons_self t List.mem_cons_self)

private theorem simple_leaf (hname : name ∈ writtenNames) (t : Text) : Simple (leaf name t) :=
  ⟨name, hname, [], unbound_nil, .inr ⟨t, rfl⟩⟩

/-- An element that may be left out. -/
theorem leaf?_eq (name : Text) (o : Option Text) :
    leaf? name o = ((given o).map (leaf name)).toList := by
  rcases o with _ | _ | ⟨c, t⟩ <;> rfl

private theorem simple_leaf? (hname : name ∈ writtenNames) (o : Option Text) :
    ∀ child ∈ leaf? name o, Simple child := by
  intro child h
  rw [leaf?_eq, Option.mem_toList, Option.map_eq_some_iff] at h
  obtain ⟨t, -, rfl⟩ := h
  exact simple_leaf hname t

-- =============================================================== items

/-- The identifier of an item as it is written. -/
theorem guidNode_eq (item : Item) :
    guidNode item = ((given item.guid).map fun guid => Node.element "guid"
      (if item.link = some guid then [] else [("isPermaLink", "false")]) [.text guid]).toList := by
  unfold guidNode
  rcases item.guid with _ | _ | ⟨c, guid⟩ <;> rfl

/-- The date of an item as it is written. -/
def Item.dated (item : Item) : Option Text :=
  if (item.published.getD []).isEmpty then item.publishedAt.map Calendar.Moment.mail
  else item.published

theorem dateNode_eq (item : Item) : dateNode item = leaf? "pubDate" item.dated := by
  unfold dateNode Item.dated
  split <;> rfl

/-- The enclosure of an item as it is written. -/
theorem enclosureNode_eq (item : Item) :
    enclosureNode item = ((given item.enclosureUrl).map fun url =>
      Node.element "enclosure" (("url", url)
        :: ("length", Text.ofInt (item.enclosureLength.getD 0))
        :: ((given item.enclosureType).map fun t => ("type".toList, t)).toList) []).toList := by
  unfold enclosureNode
  rcases item.enclosureUrl with _ | _ | ⟨c, url⟩
  · rfl
  · rfl
  · rcases item.enclosureType with _ | _ | ⟨c, type⟩ <;> rfl

/-- The elements of an item. -/
def itemNodes (item : Item) : List Node :=
  leaf? "title" (some item.title) ++ leaf? "link" item.link ++
    leaf? "description" (some item.description) ++ guidNode item ++ dateNode item ++
    enclosureNode item

private theorem simple_itemNodes (item : Item) : ∀ child ∈ itemNodes item, Simple child := by
  intro child h
  simp only [itemNodes, List.mem_append, dateNode_eq] at h
  rcases h with ((((h | h) | h) | h) | h) | h
  case inl.inl.inr =>
    rw [guidNode_eq, Option.mem_toList, Option.map_eq_some_iff] at h
    obtain ⟨guid, -, rfl⟩ := h
    refine ⟨"guid", by simp [writtenNames], _, ?_, .inr ⟨guid, rfl⟩⟩
    split
    · exact unbound_nil
    · exact unbound_written (by simp [writtenKeys]) rfl
  case inr =>
    rw [enclosureNode_eq, Option.mem_toList, Option.map_eq_some_iff] at h
    obtain ⟨url, -, rfl⟩ := h
    refine ⟨"enclosure", by simp [writtenNames], _, ?_, .inl rfl⟩
    cases given item.enclosureType with
    | none => exact unbound_written (by simp [writtenKeys]) rfl
    | some type => exact unbound_written (by simp [writtenKeys]) rfl
  all_goals exact simple_leaf? (by simp [writtenNames]) _ child h

/-- They are elements. -/
theorem isElement_itemNodes (item : Item) : ∀ child ∈ itemNodes item, child.isElement = true :=
  fun child h => (simple_itemNodes item child h).isElement

private theorem proper_itemNode {item : Item} (h : (itemNode item).Legal) :
    Xml.Proper (itemNode item) :=
  .row _ _ (itemNodes item) (fit_written (by simp [writtenNames]) unbound_nil h)
    fun child hchild => (simple_itemNodes item child hchild).proper (h.child hchild)

-- =============================================================== feeds

/-- The elements of a written channel. -/
def channelNodes (source : Channel) (items : List Item) (title : Text) (now : Calendar.Moment) :
    List Node :=
  [leaf "title" title, leaf "link" source.link, leaf "description" source.description] ++
    leaf? "language" source.language ++ leaf? "copyright" source.copyright ++
    leaf? "managingEditor" source.managingEditor ++ leaf? "pubDate" source.pubDate ++
    [leaf "lastBuildDate" now.mail] ++
    source.categories.flatMap (fun category => leaf? "category" (some category)) ++
    [leaf "generator" Product.generator] ++ items.map itemNode

variable {source : Channel} {items : List Item} {title : Text} {now : Calendar.Moment}

private theorem simple_or_item {child : Node} (h : child ∈ channelNodes source items title now) :
    Simple child ∨ ∃ item ∈ items, child = itemNode item := by
  simp only [channelNodes, List.mem_append, List.mem_cons, List.not_mem_nil, or_false,
    List.mem_flatMap, List.mem_map] at h
  rcases h with
    ((((((((rfl | rfl | rfl) | h) | h) | h) | h) | rfl) | ⟨category, -, h⟩) | rfl) | ⟨item, hi, rfl⟩
  case inr => exact .inr ⟨item, hi, rfl⟩
  all_goals
    left
    first
    | exact simple_leaf (by simp [writtenNames]) _
    | exact simple_leaf? (by simp [writtenNames]) _ child h

/-- They are elements. -/
theorem isElement_channelNodes :
    ∀ child ∈ channelNodes source items title now, child.isElement = true := by
  intro child h
  rcases simple_or_item h with h | ⟨item, -, rfl⟩
  · exact h.isElement
  · rfl

/-- A written feed is proper if its texts are legal. -/
theorem proper_document (h : (document source items title now).Legal) :
    Xml.Proper (document source items title now) := by
  refine .row _ _ _ (fit_written (by simp [writtenNames])
    (unbound_written (by simp [writtenKeys]) rfl) h) fun channel hchannel => ?_
  have hlegal := h.child hchannel
  obtain rfl := List.mem_singleton.mp hchannel
  refine .row _ _ (channelNodes source items title now)
    (fit_written (by simp [writtenNames]) unbound_nil hlegal) fun child hchild => ?_
  have hchildLegal := hlegal.child hchild
  rcases simple_or_item hchild with hsimple | ⟨item, -, rfl⟩
  · exact hsimple.proper hchildLegal
  · exact proper_itemNode hchildLegal

end FeedSieve.Feed
