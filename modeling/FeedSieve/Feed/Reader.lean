/-
Reading feed documents.

A feed document is read event by event. The reader keeps the elements whose
text is being collected, innermost last begun, and knows within which parts
of the feed it is; when an element ends, its text goes to the record of the
innermost part, that is to an entry, or to the feed itself. What stands in
an image, a text input or the source of an entry goes to a record of its
own, so that it does not mix with what the feed says about itself.

Several rules decide between elements that say the same thing. Within an
entry an element does not replace what one further out has said. The first
title that is not empty counts, unless one further out follows. A second
description is taken for content, and content stands in for a summary that
is missing. An identifier is also the link of an entry that has none,
unless it is marked as not being one. The text of an element is trimmed,
made harmless if it is a page, and mended.

Formats are not told apart any further: whatever has the elements of a feed
is one. But there are documents with more in them than what is read here:
elements within a text, other bases for addresses, a grammar. Such a document
is noticed, and then it is the library that tells what comes of it.
-/
import FeedSieve.Feed.Library
import FeedSieve.Feed.Vocabulary
import FeedSieve.Text.Charset
import FeedSieve.Feed.Prologue

namespace FeedSieve.Feed

-- ============================================================== reader

/-- Where the text of an element goes. -/
inductive Slot where
  /-- To a record, under a key. -/
  | word (key : Key)
  /-- To the content of an entry. -/
  | content
  /-- To the categories. -/
  | category
  /-- To whoever ends the element. -/
  | loose (word : Text)
deriving Repr, DecidableEq

/-- An element whose text is being collected. -/
structure Pending where
  /-- Where the text goes. -/
  slot : Slot
  /-- Whether the text is wanted. -/
  wanted : Bool
  /-- How it is taken. -/
  manner : Manner
  /-- The text so far, in pieces, the latest first. -/
  pieces : List Text
deriving Repr, DecidableEq

/-- The state of reading. -/
structure Reader where
  /-- Whether the document has been found to be a feed. -/
  isFeed : Bool
  /-- Whether it has been found to be an Atom feed. -/
  isAtom : Bool
  /-- Whether it holds more than what is read here. -/
  beyond : Bool
  /-- What has broken a text off, the first time. -/
  broken : Option Text
  /-- The prefixes bound so far. -/
  inUse : List (Text × Text)
  /-- The roles of the open elements, the innermost first. -/
  around : List Role
  /-- The elements that collect text, the innermost first. -/
  pending : List Pending
  /-- How many elements are open within one that collects content. -/
  inner : Nat
  /-- Whether the innermost collecting element collects content. -/
  inContent : Bool
  inFeed : Bool
  inEntry : Bool
  inSource : Bool
  inImage : Bool
  inTextInput : Bool
  inAuthor : Bool
  inOwner : Bool
  /-- Whether the latest identifier may be the link. -/
  guidIsLink : Bool
  /-- Whether the entry has content. -/
  hasContent : Bool
  /-- Whether the open description is taken for content. -/
  asContent : Bool
  /-- Whether the open content stands in for a summary. -/
  isSummary : Bool
  /-- The depth of the title that counts. -/
  titleDepth : Option Nat
  /-- What the feed says about itself. -/
  feed : Record
  /-- What it says about its image, if it has begun one. -/
  image : Option Record
  /-- What it says about its text input. -/
  textInput : Record
  /-- What an entry says about its source. -/
  source : Record
  /-- The entries, the latest first. -/
  entries : List Record
deriving Repr, DecidableEq

namespace Reader

/-- The reader at the beginning of a document. -/
def initial : Reader :=
  ⟨false, false, false, none, [], [], [], 0, false, false, false, false, false, false, false,
    false, false, false, false, false, none, .empty, none, .empty, .empty, []⟩

/-- The depth of the innermost open element. -/
def depth (r : Reader) : Nat := r.around.length

/-- Changes the record of the entry. -/
def onEntry (r : Reader) (change : Record → Record) : Reader :=
  match r.entries with
  | entry :: earlier => { r with entries := change entry :: earlier }
  | [] => r

/-- Changes the record of the innermost part. -/
def onContext (r : Reader) (change : Record → Record) : Reader :=
  if r.inSource then { r with source := change r.source }
  else if r.inImage && r.image.isSome then { r with image := r.image.map change }
  else if r.inTextInput then { r with textInput := change r.textInput }
  else if r.inEntry then r.onEntry change
  else { r with feed := change r.feed }

/-- The record of the innermost part. -/
def context (r : Reader) : Record :=
  if r.inSource then r.source
  else match r.image with
    | some image => if r.inImage then image else inner
    | none => inner
where
  /-- The record of the innermost part but images. -/
  inner : Record :=
    if r.inTextInput then r.textInput
    else if r.inEntry then r.entries.head?.getD .empty
    else r.feed

/-- Whether a text is to be kept wherever it stands. -/
def expects (r : Reader) : Bool := r.inFeed || r.inEntry || r.inSource

/-- Begins to collect text. -/
def collect (r : Reader) (slot : Slot) (wanted : Bool) (manner : Manner) : Reader :=
  { r with pending := ⟨slot, wanted, manner, []⟩ :: r.pending }

/-- Begins to collect text that is taken as it is. -/
def push (r : Reader) (slot : Slot) (wanted : Bool) : Reader := r.collect slot wanted .asIs

/-- Begins to collect content; `none` is content of some other kind. -/
def pushContent (r : Reader) (slot : Slot) (wanted : Bool) (manner : Option Manner) : Reader :=
  { r.collect slot wanted (manner.getD .asIs) with
    inContent := true, inner := 0, beyond := r.beyond || manner.isNone }

/-- The address without slashes in excess behind its scheme. -/
def withoutExcess (address : Text) : Text :=
  match Text.cut ':' address with
  | (c :: scheme, some ('/' :: '/' :: rest)) =>
      let isMore (d : Char) : Bool := Text.isLetter d || Text.isPlainDigit d || ('+' ≤ d && d ≤ '.')
      if Text.isLetter c && scheme.all isMore then
        (c :: scheme) ++ "://".toList ++ rest.dropWhile (· == '/')
      else address
  | _ => address

/-- The ampersands of a link: written out, or with a semicolon behind the
word that follows. -/
def mendLink (link : Text) : Text :=
  match Text.splitOn '&' link with
  | [] => []
  | first :: rest => first ++ (rest.map fun piece =>
      match Text.cut ';' piece with
      | (word, some after) =>
          let isWord (c : Char) : Bool := Text.isLetter c || Text.isPlainDigit c || c = '_'
          if word = "amp".toList then '&' :: after
          else if !word.isEmpty && word.all isWord then '&' :: word ++ after
          else '&' :: piece
      | _ => '&' :: piece).flatten

/-- Keeps the text of an element. -/
def store (r : Reader) (key : Key) (t : Text) : Reader :=
  let blocked := key = .title && match r.titleDepth with
    | some depth => depth ≤ r.depth
    | none => false
  if blocked then r
  else if r.inEntry && !r.inSource then
    match key with
    | .link => if r.inImage then r else r.onEntry (·.say .link r.depth (mendLink t))
    | key => r.onEntry (·.sayOver key r.depth t)
  else if r.inFeed || r.inSource then
    match key with
    | .link => r.onContext (·.say .link r.depth (mendLink t))
    | .summary => r.onContext (·.say .summary r.depth t)
    | key => r.onContext (·.say key r.depth t)
  else r

/-- Ends collecting, if that is what the innermost element collects: the
text, and the reader that has kept it. -/
def pop (library : Library) (r : Reader) (slot : Slot) : Text × Reader :=
  match r.pending with
  | [] => ([], r)
  | p :: earlier =>
      if p.slot != slot then ([], r)
      else
        let r := { r with pending := earlier }
        let t := Text.trim p.pieces.reverse.flatten
        if !p.wanted then (t, r)
        else
          let isAddress := slot = .word .link || (slot = .word .id && r.guidIsLink)
          let t := if isAddress then withoutExcess t else t
          let r := { r with broken := r.broken.or (library.fault? p.manner r.isAtom t) }
          let t := Charset.mended (library.kept p.manner r.isAtom t)
          match slot with
          | .word key => (t, r.store key t)
          | _ => (t, r)

/-- Ends collecting content. -/
def popContent (library : Library) (r : Reader) (slot : Slot) : Text × Reader :=
  let (t, r) := r.pop library slot
  (t, { r with inContent := false, inner := 0 })

-- ============================================================ elements

/-- The attributes of an element by their words; those that name a relation
or a type in small letters. -/
def attributesOf (library : Library) (attributes : List (Xml.Name × Text)) :
    List (Text × Text) :=
  attributes.map fun (name, value) =>
    let word := wordOfAttribute name
    if word = "rel".toList || word = "type".toList then (word, library.lowered value)
    else (word, value)

/-- The value of an attribute. -/
def attribute? (attributes : List (Text × Text)) (word : Text) : Option Text :=
  attributes.reverse.lookup word

/-- The attributes with the address under the word `href`, whatever it was
called. An empty address keeps its place. -/
def withHref (attributes : List (Text × Text)) : List (Text × Text) :=
  let address := ((attribute? attributes "url").orElse fun _ => attribute? attributes "uri").orElse
    fun _ => attribute? attributes "href"
  match address with
  | some (c :: address) =>
      attributes.filter (fun a => a.1 != "url".toList && a.1 != "uri".toList &&
        a.1 != "href".toList) ++ [("href".toList, c :: address)]
  | _ => attributes

/-- The type of a document under its full name. -/
def fullType (type : Text) : Text :=
  match String.ofList type with
  | "text" | "plain" => "text/plain"
  | "html" => "text/html"
  | "xhtml" => "application/xhtml+xml"
  | _ => type

/-- Whether a type is one of those for pages. -/
def isPage (type : Text) : Bool :=
  let type := fullType type
  type == "text/html".toList || type == "application/xhtml+xml".toList

/-- The attributes of an enclosure that count. -/
def enclosureFields (attributes : List (Text × Text)) : List (Text × Text) :=
  attributes.filter fun a => a.1 == "href".toList || a.1 == "url".toList ||
    a.1 == "type".toList || a.1 == "length".toList

/-- How the text of an element is taken, going by its attributes: `absent` if
they do not say; `none` if it is encoded, or a document of some other kind. -/
def manner? (attributes : List (Text × Text)) (absent : Manner) : Option Manner :=
  if (attribute? attributes "mode").isSome then none
  else match attribute? attributes "type" with
    | none => some absent
    | some type =>
        if fullType type == "text/plain".toList then some .plain
        else if fullType type == "text/html".toList then some .page
        else none

/-- Begins content that stands in for a summary if its type allows that. -/
def startContent (r : Reader) (attributes : List (Text × Text)) (absent : Manner) : Reader :=
  let type := (attribute? attributes "type").getD "text/plain"
  let plain := fullType type == "text/plain".toList
  { r.pushContent .content true (manner? attributes absent) with
    hasContent := true, isSummary := plain || isPage type }

/-- A link begins: either it has an address, or its text is one. -/
def startLink (r : Reader) (attributes : List (Text × Text)) : Reader :=
  let attributes := withHref attributes
  let rel := (attribute? attributes "rel").getD "alternate"
  let type := (attribute? attributes "type").getD
    (if rel = "self".toList then "application/atom+xml" else "text/html")
  match attribute? attributes "href" with
  | none =>
      { r.push (.word .link) r.expects with beyond := r.beyond || rel = "enclosure".toList }
  | some address =>
      let address := withoutExcess address
      let r :=
        if rel = "enclosure".toList && !(r.inEntry && r.inImage) then
          let fields : List (Text × Text) :=
            [("href".toList, address), ("type".toList, type)] ++
              (attributes.filter fun a => a.1 == "length".toList)
          r.onContext fun c => { c with enclosures := c.enclosures ++ [fields] }
        else r
      if rel = "alternate".toList && isPage type then
        r.onContext (·.say .link r.depth address)
      else r

/-- An element with a role begins. -/
def startRole (r : Reader) (role : Role) (attributes : List (Text × Text)) : Reader :=
  let value? (word : String) : Option Text := attribute? attributes word.toList
  let value (word : String) : Text := (value? word).getD []
  match role with
  | .rss => { r with isFeed := true, isAtom := false }
  | .feed => { r with isFeed := true, isAtom := r.isAtom || !r.isFeed, inFeed := true }
  | .channel => { r with inFeed := true }
  | .item =>
      let entry := match value? "rdf:about" with
        | some (c :: id) => Record.empty.say .id r.depth (c :: id)
        | _ => .empty
      { r.push (.loose "item") false with
        entries := entry :: r.entries, inEntry := true, guidIsLink := false, titleDepth := none }
  | .image =>
      let image := if r.inEntry then r.image else some (r.image.getD .empty)
      { r.push (.loose "image") false with image := image, inImage := true, titleDepth := none }
  | .textInput =>
      { r.push (.loose "textinput") false with inTextInput := true, titleDepth := none }
  | .source => { r.push (.loose "source") true with inSource := true, titleDepth := none }
  | .author =>
      { (r.push (.word .author) true).onContext (fun c => { c with author := ([], []) }) with
        inAuthor := true }
  | .owner => { r.push (.loose "owner") false with inOwner := true }
  | .contributor => r.push (.loose "contributor") false
  | .name => r.push (.loose "name") false
  | .email => r.push (.loose "email") false
  | .title | .minorTitle => r.pushContent (.word .title) r.expects (manner? attributes .plain)
  | .link => r.startLink attributes
  | .enclosure =>
      r.onContext fun c =>
        { c with enclosures := c.enclosures ++ [enclosureFields (withHref attributes)] }
  | .guid =>
      { r.push (.word .id) true with
        guidIsLink := (value? "ispermalink").getD "true" == "true".toList }
  | .description =>
      if (r.context.word? .summary).isSome && !r.hasContent then
        { r.startContent attributes .plain with asContent := true }
      else
        r.pushContent (.word (if r.inEntry && !r.inSource then .summary else .subtitle)) r.expects
          (manner? attributes .page)
  | .summary =>
      if (r.context.word? .summary).isSome && !r.hasContent then
        { r.startContent attributes .plain with asContent := true }
      else r.pushContent (.word .summary) true (manner? attributes .plain)
  | .content => r.startContent attributes .plain
  | .encoded => r.startContent attributes .page
  | .body => { r.startContent attributes .page with hasContent := r.hasContent }
  | .subtitle => r.pushContent (.word .subtitle) r.expects (manner? attributes .plain)
  | .rights => r.pushContent (.word .rights) r.expects (manner? attributes .plain)
  | .published => r.push (.word .published) true
  | .updated => r.push (.word .updated) true
  | .language => r.push (.word .language) true
  | .category =>
      let scheme := ((value? "scheme").orElse fun _ => value? "domain").getD []
      (r.onContext (·.addTag ⟨value "term", scheme, value "label"⟩)).push .category true
  | .mediaCategory =>
      let scheme := (value? "scheme").getD "http://search.yahoo.com/mrss/category_schema"
      (r.onContext (·.addTag ⟨value "term", scheme, value "label"⟩)).push .category true
  | .podcastCategory =>
      (r.onContext (·.addTag ⟨value "text", "http://www.itunes.com/", []⟩)).push .category true
  | .podcastKeywords => r.push (.loose "keywords") true
  | .other word => if attributes.isEmpty then r.push (.loose word) true else r

/-- An element with a role ends. -/
def finishRole (library : Library) (r : Reader) (role : Role) : Reader :=
  match role with
  | .rss => r
  | .feed | .channel => { r with inFeed := false }
  | .item => { (r.pop library (.loose "item")).2 with inEntry := false, hasContent := false }
  | .image => { (r.pop library (.loose "image")).2 with inImage := false }
  | .textInput => { (r.pop library (.loose "textinput")).2 with inTextInput := false }
  | .source => { (r.pop library (.loose "source")).2 with inSource := false, source := .empty }
  | .author =>
      let r := { (r.pop library (.word .author)).2 with inAuthor := false }
      r.onContext (·.settleAuthor r.depth)
  | .owner => { (r.pop library (.loose "owner")).2 with inOwner := false }
  | .contributor => (r.pop library (.loose "contributor")).2
  | .name =>
      let (t, r) := r.pop library (.loose "name")
      if r.inAuthor && !r.inOwner then
        r.onContext fun c => { c with author := (t, c.author.2) }
      else r
  | .email =>
      let (t, r) := r.pop library (.loose "email")
      if r.inAuthor && !r.inOwner then
        r.onContext fun c => { c with author := (c.author.1, t) }
      else r
  | .title =>
      let (t, r) := r.popContent library (.word .title)
      if t.isEmpty then r else { r with titleDepth := some r.depth }
  | .minorTitle => (r.popContent library (.word .title)).2
  | .link => (r.pop library (.word .link)).2
  | .enclosure => r
  | .guid =>
      let (t, r) := r.pop library (.word .id)
      if r.guidIsLink then r.onContext (·.suggest .link r.depth t) else r
  | .description =>
      if r.asContent then { finishContent library r with asContent := false }
      else
        (r.popContent library
          (.word (if r.inEntry && !r.inSource then .summary else .subtitle))).2
  | .summary =>
      if r.asContent then { finishContent library r with asContent := false }
      else (r.popContent library (.word .summary)).2
  | .content | .encoded | .body => finishContent library r
  | .subtitle => (r.popContent library (.word .subtitle)).2
  | .rights => (r.popContent library (.word .rights)).2
  | .published =>
      let (t, r) := r.pop library (.word .published)
      r.onContext (·.publish (library.stampOf? t))
  | .updated =>
      let (t, r) := r.pop library (.word .updated)
      r.onContext (·.update (library.stampOf? t))
  | .language => (r.pop library (.word .language)).2
  | .category | .mediaCategory | .podcastCategory =>
      let (t, r) := r.pop library .category
      r.onContext (·.nameTag t)
  | .podcastKeywords =>
      let (t, r) := r.pop library (.loose "keywords")
      r.onContext fun c => ((Text.splitOn ',' t).map Text.trim).foldl
        (fun c term => if term.isEmpty then c else c.addTag ⟨term, "http://www.itunes.com/", []⟩) c
  | .other word => (r.pop library (.loose word)).2
where
  /-- Ends content. -/
  finishContent (library : Library) (r : Reader) : Reader :=
    let (t, r) := r.popContent library .content
    if r.isSummary then r.onContext (·.suggest .summary r.depth t) else r

-- ============================================================== events

/-- Takes note of the prefixes bound at an element. The first one that makes
the document a feed tells whether it is an Atom feed. -/
def bind (r : Reader) (bindings : List (Text × Text)) : Reader :=
  { r with
    isFeed := r.isFeed || bindings.any makesFeed
    isAtom := r.isAtom || !r.isFeed && (bindings.find? makesFeed).any (isAtomSpace ·.2)
    inUse := bindings.foldl (fun inUse b =>
      if (prefixOf? b.2).isSome || b.2.isEmpty then inUse
      else if inUse.any (·.1 == b.1) then inUse.map (fun old => if old.1 == b.1 then b else old)
      else inUse ++ [b]) r.inUse }

/-- Whether an element may stand in an image or a text input that is still
open, as far as it has no prefix: others end the image. -/
def keepsImage (word : Text) : Bool :=
  word.contains '_' ||
    ["title", "link", "description", "url", "href", "width", "height"].any (·.toList == word)

/-- Whether an element may stand in a text input. -/
def keepsTextInput (word : Text) : Bool :=
  word.contains '_' || ["title", "link", "description", "name"].any (·.toList == word)

/-- Takes the language of a feed off its outermost element. -/
def takeLanguage (r : Reader) (role : Role) (attributes : List (Text × Text)) : Reader :=
  let language := ((attribute? attributes "xml:lang").orElse
    fun _ => attribute? attributes "lang").getD []
  if (role = .feed || role = .rss) && !language.isEmpty then
    let language := language.map fun c => if c = '_' then '-' else c
    { r with feed := r.feed.say .language r.depth language }
  else r

/-- Words that the library keeps among what it says about a feed, and those
of elements that it takes for others. -/
def keptWords : List String :=
  ["abstract", "info", "feedburner_browserfriendly", "media_keywords", "date", "date_parsed",
   "issued_parsed", "modified_parsed", "published_parsed", "updated_parsed", "enclosures", "links",
   "tags", "authors", "author_detail", "contributors", "publisher_detail"]

/-- Whether what stands in the innermost element is a text, and an element in
it would be one within a text. -/
def inText (r : Reader) (role : Role) (attributes : List (Text × Text)) : Bool :=
  r.pending.head?.any fun p =>
    match p.slot with
    | .word .author => !attributes.isEmpty && role != .name && role != .email
    | .word _ | .content | .category => true
    | .loose word => ["name", "email", "keywords"].any (·.toList == word)

/-- Whether an element with a role is more than what is read here. -/
def isBeyond (r : Reader) (role : Role) (attributes : List (Text × Text)) : Bool :=
  r.inText role attributes || (attribute? attributes "base").isSome ||
    (attribute? attributes "xml:base").isSome ||
    match role with
    | .owner | .body => true
    | .other word => keptWords.any (·.toList == word)
    | _ => false

/-- Whether the names of an element are all in ASCII; only then it is certain
what they are in small letters. -/
def hasPlainNames (bindings : List (Text × Text)) (name : Xml.Name)
    (attributes : List (Xml.Name × Text)) : Bool :=
  let isPlain (t : Text) : Bool := t.all (·.toNat < 128)
  bindings.all (fun b => isPlain b.1 && isPlain b.2) &&
    (name :: attributes.map (·.1)).all fun name => isPlain name.space && isPlain name.base

/-- One more event. -/
def step (library : Library) (r : Reader) : Xml.Event → Reader
  | .start bindings name attributes =>
      let plain := hasPlainNames bindings name attributes
      let r := r.bind bindings
      let word := wordOfName r.inUse name
      let role := roleOf word
      let attributes := attributesOf library attributes
      let r := { r with
        around := role :: r.around, beyond := r.beyond || !plain || r.isBeyond role attributes }
      if r.inContent then { r with inner := r.inner + 1 }
      else
        let r := r.takeLanguage role attributes
        startRole
          { r with
            inImage := r.inImage && keepsImage word
            inTextInput := r.inTextInput && keepsTextInput word }
          role attributes
  | .text t =>
      match r.pending with
      | p :: earlier => { r with pending := { p with pieces := t :: p.pieces } :: earlier }
      | [] => r
  | .finish =>
      match r.around with
      | [] => r
      | role :: outer =>
          if r.inContent && 0 < r.inner then { r with inner := r.inner - 1, around := outer }
          else
            let r := r.finishRole library role
            { r with around := outer }

end Reader

-- =========================================================== documents

/-- The text without an XML declaration in front, and without a grammar. -/
def plainDocument (t : Text) : Text :=
  match (Text.after? "<?xml" t).map (Text.cut '>') with
  | some (_, some rest) => withoutGrammar false rest
  | _ => withoutGrammar true t

/-- The name that a declaration gives of its set, which stands behind the
last place where one is given. `line` is what follows in its line. -/
def setName? : (line : Text) → Option Text
  | [] => none
  | c :: rest =>
      (setName? rest).orElse fun _ =>
        match Text.after? "encoding=" (c :: rest) with
        | some (quote :: rest) =>
            let isQuote (c : Char) : Bool := c = '"' || c = '\''
            let name := rest.takeWhile (!isQuote ·)
            let after := rest.drop name.length
            if isQuote quote && !after.isEmpty && Text.occursIn "?>" after then some name else none
        | _ => none

/-- The name that a document in ASCII, or in a set that goes beyond it, gives
of its set. -/
def declaredName? (bytes : Bytes) : Option Text :=
  let line := (bytes.takeWhile (· != 10)).map fun b => Char.ofNat b.toNat
  ((Text.after? "<?" line).bind setName?).map Text.lowerPlain

/-- The set that the beginning of a document tells, and the document without
the mark that it may begin with. -/
def marked (bytes : Bytes) : Option Charset.Encoding × Bytes :=
  match bytes with
  | 0 :: 0 :: 0xfe :: 0xff :: rest => (some (.utf32 true), rest)
  | 0xff :: 0xfe :: 0 :: 0 :: rest => (some (.utf32 false), rest)
  | 0xfe :: 0xff :: 0 :: 0 :: _ => (none, bytes)
  | 0xfe :: 0xff :: rest => (some (.utf16 true), rest)
  | 0xff :: 0xfe :: rest => (some (.utf16 false), rest)
  | 0xef :: 0xbb :: 0xbf :: rest => (some .utf8, rest)
  | 0 :: 0x3c :: 0 :: 0x3f :: _ => (some (.utf16 true), bytes)
  | 0x3c :: 0 :: 0x3f :: 0 :: _ => (some (.utf16 false), bytes)
  | 0 :: 0 :: 0 :: 0x3c :: _ => (some (.utf32 true), bytes)
  | 0x3c :: 0 :: 0 :: 0 :: _ => (some (.utf32 false), bytes)
  | _ => (none, bytes)

/-- Names of sets with wide characters; which one is meant is told by the
mark. -/
def wideNames : List String :=
  ["u16", "utf-16", "utf16", "utf_16", "u32", "utf-32", "utf32", "utf_32", "iso-10646-ucs-2",
   "iso-10646-ucs-4", "csucs4", "csunicode", "ucs-2", "ucs-4"]

/-- The set that a document declares, given the one that its beginning
tells; UTF-8 if it declares none, and none if it declares one that is not
known. -/
def declaredSet? (mark : Option Charset.Encoding) (bytes : Bytes) : Option Charset.Encoding :=
  let plain := match mark with
    | some set => ((set.decode? bytes).map Utf8.encode).getD []
    | none => bytes
  let name := (declaredName? plain).getD []
  if name.isEmpty then some .utf8
  else if mark.isSome && wideNames.any (·.toList == name) then mark
  else Charset.ofName? name

/-- The sets in which a document is tried, in order: the one it declares, the
one that its beginning tells, and those that are common. -/
def candidates (mark : Option Charset.Encoding) (bytes : Bytes) : List Charset.Encoding :=
  (declaredSet? mark bytes).toList ++ mark.toList ++ [.utf8, .windows, .latin2]

/-- The text of a document. -/
def documentText (bytes : Bytes) : Text :=
  let (mark, bytes) := marked bytes
  ((candidates mark bytes).findSome? (·.decode? bytes)).getD []

/-- What malformed documents are said to be. -/
def notWellFormed : Text := "not well-formed"

/-- Whether the text of a document is certain: it is in the set that the
document declares, and brings no grammar along. -/
def isCertain (bytes : Bytes) : Bool :=
  let (mark, bytes) := marked bytes
  match (declaredSet? mark bytes).bind (·.decode? bytes) with
  | some t => !hasGrammar t
  | none => false

/-- What a reader has made of a document when it has read it to its end, or
what has broken a text off. -/
def Reader.digest (r : Reader) : Except Text Digest :=
  match r.broken with
  | some what => .error what
  | none => .ok ⟨none, r.isFeed, r.feed, r.entries.reverse⟩

/-- What is made of a document as it is read here, and whether it holds more
than that. -/
def ownDigest (library : Library) (bytes : Bytes) : Except Text Digest × Bool :=
  match Xml.events? (plainDocument (documentText bytes)) with
  | none =>
      let digest := match library.stray? bytes with
        | some what => .error what
        | none => .ok ⟨some notWellFormed, false, .empty, []⟩
      (digest, !isCertain bytes)
  | some events =>
      let r := events.foldl (Reader.step library) Reader.initial
      (r.digest, r.beyond || !isCertain bytes)

/-- What is made of a document, or what escapes. -/
def digest (library : Library) (bytes : Bytes) : Except Text Digest :=
  match ownDigest library bytes with
  | (own, true) => (library.digest? bytes).getD own
  | (own, false) => own

/-- The draft made of a document. No bytes at all are no document. -/
def Draft.ofBytes (library : Library) (bytes : Bytes) : Except Break Draft :=
  if bytes.isEmpty then .ok ⟨none, none, [], []⟩
  else ((digest library bytes).map Digest.draft).mapError .library

/-- Reads a feed document. `source` is where it comes from. -/
def read (library : Library) (bytes : Bytes) (source : Text) : Except Failure Channel := do
  let draft ← (Draft.ofBytes library bytes).mapError .broken
  draft.channel? source

end FeedSieve.Feed
