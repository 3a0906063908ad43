/-
Scanning a document.

A document is read one character at a time. Between tags characters pile up
until the next tag begins; within a tag they make names and values; comments,
instructions and the document type pass by unseen, except that the document
type may declare entities. A character that cannot come next makes the
document malformed, and there is no way back from that.

Scanning knows nothing of how elements nest. What it finds are tokens: text
with its references resolved, start tags with their attributes, end tags.
White space that is written as such is told apart from other text, because
it may also stand where there is no text.
-/
import FeedSieve.Xml.Grammar

namespace FeedSieve.Xml

/-- A piece of a document as it is written. -/
inductive Token where
  /-- Text between tags. -/
  | text (t : Text)
  /-- White space between tags, written as it is. -/
  | blank (t : Text)
  /-- A start tag; `closed` if the element ends at once. -/
  | start (name : Text) (attributes : List (Text × Text)) (closed : Bool)
  /-- An end tag. -/
  | finish (name : Text)
  /-- The document type. -/
  | grammar
deriving Repr, DecidableEq

/-- Where within a start tag the scanner is. Names and values that are being
read are kept backwards. -/
inductive InTag where
  /-- In the name of the element. -/
  | name (done : Text)
  /-- Behind a blank, before an attribute or the end. -/
  | gap
  /-- In the name of an attribute. -/
  | key (done : Text)
  /-- Behind the name of an attribute. -/
  | afterKey (key : Text)
  /-- Behind the equals sign. -/
  | equals (key : Text)
  /-- In a value, which ends at `quote`. -/
  | value (key : Text) (quote : Char) (done : Text)
  /-- Right behind a value. -/
  | afterValue
  /-- Behind the slash that ends an element at once. -/
  | slash
deriving Repr, DecidableEq

/-- Where within the document type the scanner is. -/
inductive InType where
  /-- Outside brackets. -/
  | outside
  /-- Between brackets. -/
  | inside
  /-- In a quoted text, which ends at `quote`; `inner` if between brackets. -/
  | quoted (quote : Char) (inner : Bool)
  | comment
  /-- In an instruction. -/
  | instruction
deriving Repr, DecidableEq

/-- Where the scanner is. -/
inductive Mode where
  /-- Between tags, with the characters since the last one. -/
  | text (done : Text)
  /-- Behind `<`. -/
  | angle
  /-- In the start tag of an element, with its attributes so far, backwards. -/
  | tag (element : Text) (attributes : List (Text × Text)) (place : InTag)
  /-- In the name of an end tag. -/
  | closing (done : Text)
  /-- Behind that name. -/
  | closed (name : Text)
  /-- Behind `<!`, with what has followed. -/
  | bang (done : Text)
  /-- In a comment, with up to two hyphens just seen. -/
  | comment (hyphens : Nat)
  /-- In characters that are taken as they are. -/
  | verbatim (done : Text)
  /-- In an instruction, with what has followed `<?`. -/
  | instruction (done : Text)
  /-- In the document type, with what has followed its keyword. -/
  | doctype (done : Text) (place : InType)
deriving Repr, DecidableEq

/-- The scanner: where it is, what the document declares, and the tokens so
far, the latest first. -/
structure Scanner where
  mode : Mode
  grammar : Grammar
  tokens : List Token
deriving Repr, DecidableEq

namespace Scanner

/-- Goes on in another place. -/
def goTo (s : Scanner) (mode : Mode) : Option Scanner := some { s with mode := mode }

/-- Goes on between tags, with one more token. -/
def emit (s : Scanner) (token : Token) : Option Scanner :=
  some { s with mode := .text [], tokens := token :: s.tokens }

/-- Ends the text between two tags. -/
def endText (s : Scanner) (done : Text) : Option Scanner :=
  let raw := done.reverse
  if raw.isEmpty then some s
  else if raw.all isSpace then some { s with tokens := .blank raw :: s.tokens }
  else if Text.occursIn "]]>" raw then none
  else (resolve? s.grammar raw).map fun t => { s with tokens := .text t :: s.tokens }

/-- The value of an attribute: blanks are spaces, references are resolved. -/
def attributeValue? (grammar : Grammar) (raw : Text) : Option Text :=
  if raw.contains '<' then none
  else resolve? grammar (raw.map fun c => if isSpace c then ' ' else c)

/-- Ends a start tag. -/
def endTag (s : Scanner) (element : Text) (attributes : List (Text × Text)) (closed : Bool) :
    Option Scanner :=
  s.emit (.start element attributes.reverse closed)

/-- One more character of a start tag. -/
def inTag (s : Scanner) (element : Text) (attributes : List (Text × Text)) (place : InTag)
    (c : Char) : Option Scanner :=
  let goOn (place : InTag) := s.goTo (.tag element attributes place)
  match place with
  | .name done =>
      let name := done.reverse
      if isNameChar c then goOn (.name (c :: done))
      else if isSpace c then s.goTo (.tag name attributes .gap)
      else if c = '/' then s.goTo (.tag name attributes .slash)
      else if c = '>' then s.endTag name attributes false
      else none
  | .gap =>
      if isSpace c then goOn .gap
      else if isNameStart c then goOn (.key [c])
      else if c = '/' then goOn .slash
      else if c = '>' then s.endTag element attributes false
      else none
  | .key done =>
      if isNameChar c then goOn (.key (c :: done))
      else if c = '=' then goOn (.equals done.reverse)
      else if isSpace c then goOn (.afterKey done.reverse)
      else none
  | .afterKey key =>
      if isSpace c then goOn (.afterKey key)
      else if c = '=' then goOn (.equals key)
      else none
  | .equals key =>
      if isSpace c then goOn (.equals key)
      else if c = '"' || c = '\'' then goOn (.value key c [])
      else none
  | .value key quote done =>
      if c = quote then
        (attributeValue? s.grammar done.reverse).bind fun value =>
          s.goTo (.tag element ((key, value) :: attributes) .afterValue)
      else goOn (.value key quote (c :: done))
  | .afterValue =>
      if isSpace c then goOn .gap
      else if c = '/' then goOn .slash
      else if c = '>' then s.endTag element attributes false
      else none
  | .slash => if c = '>' then s.endTag element attributes true else none

/-- Ends the document type. -/
def endType (s : Scanner) (done : Text) : Option Scanner :=
  (Grammar.ofText? done.reverse).bind fun grammar => { s with grammar := grammar }.emit .grammar

/-- Where one more character of the document type leads; `done` ends with it. -/
def inType (place : InType) (c : Char) (done : Text) : InType :=
  let isQuote := c = '"' || c = '\''
  match place with
  | .outside =>
      if isQuote then .quoted c false else if c = '[' then .inside else .outside
  | .inside =>
      if isQuote then .quoted c true
      else if c = ']' then .outside
      else if Text.beginsWith "--!<" done then .comment
      else if Text.beginsWith "?<" done then .instruction
      else .inside
  | .quoted quote inner =>
      if c != quote then .quoted quote inner else if inner then .inside else .outside
  | .comment => if Text.beginsWith ">--" done then .inside else .comment
  | .instruction => if Text.beginsWith ">?" done then .inside else .instruction

/-- One more character. -/
def step (s : Scanner) (c : Char) : Option Scanner :=
  if !isChar c then none
  else match s.mode with
  | .text done =>
      if c = '<' then (s.endText done).bind (·.goTo .angle) else s.goTo (.text (c :: done))
  | .angle =>
      if c = '/' then s.goTo (.closing [])
      else if c = '!' then s.goTo (.bang [])
      else if c = '?' then s.goTo (.instruction [])
      else if isNameStart c then s.goTo (.tag [] [] (.name [c]))
      else none
  | .tag element attributes place => s.inTag element attributes place c
  | .closing done =>
      if (if done.isEmpty then isNameStart c else isNameChar c) then s.goTo (.closing (c :: done))
      else if done.isEmpty then none
      else if isSpace c then s.goTo (.closed done.reverse)
      else if c = '>' then s.emit (.finish done.reverse)
      else none
  | .closed name =>
      if isSpace c then s.goTo (.closed name)
      else if c = '>' then s.emit (.finish name)
      else none
  | .bang done =>
      let seen := (c :: done).reverse
      if seen = "--".toList then s.goTo (.comment 0)
      else if seen = "[CDATA[".toList then s.goTo (.verbatim [])
      else if seen = "DOCTYPE".toList then s.goTo (.doctype [] .outside)
      else if Text.beginsWith seen "--" || Text.beginsWith seen "[CDATA["
          || Text.beginsWith seen "DOCTYPE" then s.goTo (.bang (c :: done))
      else none
  | .comment hyphens =>
      if hyphens = 2 then (if c = '>' then s.goTo (.text []) else none)
      else s.goTo (.comment (if c = '-' then hyphens + 1 else 0))
  | .verbatim done =>
      match c, done with
      | '>', ']' :: ']' :: inner => s.emit (.text inner.reverse)
      | _, _ => s.goTo (.verbatim (c :: done))
  | .instruction done =>
      match c, done with
      | '>', '?' :: inner =>
          let target := inner.reverse.takeWhile (!isSpace ·)
          if isName target && !target.contains ':' && Text.lowerPlain target != "xml".toList then
            s.goTo (.text [])
          else none
      | _, _ => s.goTo (.instruction (c :: done))
  | .doctype done place =>
      if c = '>' && place = .outside then s.endType done
      else s.goTo (.doctype (c :: done) (inType place c (c :: done)))

/-- The scanner at the beginning of a document. -/
def initial : Scanner := ⟨.text [], .silent, []⟩

/-- What remains to be done at the end of a document, which must not come
within markup. -/
def finish (s : Scanner) : Option (List Token) :=
  match s.mode with
  | .text done => (s.endText done).map fun s => s.tokens.reverse
  | _ => none

end Scanner

/-- The line ends of a document, each as one character. -/
def unifyLines : Text → Text
  | [] => []
  | '\r' :: '\n' :: rest => '\n' :: unifyLines rest
  | '\r' :: rest => '\n' :: unifyLines rest
  | c :: rest => c :: unifyLines rest

/-- The tokens of a document, unless it is malformed. -/
def tokens? (document : Text) : Option (List Token) :=
  ((unifyLines document).foldlM Scanner.step Scanner.initial).bind Scanner.finish

end FeedSieve.Xml
