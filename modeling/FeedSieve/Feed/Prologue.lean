/-
What comes before the first element of a feed document.

A feed is not trusted to bring a grammar along. Declarations of entities
that begin a line are taken out, and so is the document type. Only if there
is just one document type, the entities among those whose values are
harmless are declared in its place: a plain text, or one character by its
number.
-/
import FeedSieve.Text.Basic

namespace FeedSieve.Feed

/-- Whether a character separates words of a declaration. -/
def isSeparator (c : Char) : Bool := c = ' ' || ('\t' ≤ c && c ≤ '\r')

/-- Whether a character belongs to a word of a declaration. -/
def isWordChar (c : Char) : Bool := Text.isLetter c || Text.isPlainDigit c || c = '_'

/-- The declaration with which a text begins, blanks aside: what follows its
keyword, and how many characters it takes up. -/
def declaration? (keyword t : Text) : Option (Text × Nat) := do
  let rest ← Text.after? (Text.concat ["<!", keyword]) (t.dropWhile isSeparator)
  match Text.cut '>' rest with
  | (body, some after) => some (body, t.length - after.length)
  | (_, none) => none

/-- Takes out the declarations that begin a line, and puts `stand` in their
place. `skip` characters are part of one that was found; `fresh` says
whether a line begins. -/
def cutDeclarations (keyword stand : Text) (skip : Nat) (fresh : Bool) : Text → List Text × Text
  | [] => ([], [])
  | c :: rest =>
      match skip, (if fresh then declaration? keyword (c :: rest) else none) with
      | skip + 1, _ => cutDeclarations keyword stand skip false rest
      | 0, some (body, length) =>
          let (bodies, kept) := cutDeclarations keyword stand (length - 1) false rest
          (body :: bodies, stand ++ kept)
      | 0, none =>
          let (bodies, kept) := cutDeclarations keyword stand 0 (c == '\n') rest
          (bodies, c :: kept)

/-- Whether the value of an entity is harmless. -/
def isHarmlessValue (value : Text) : Bool :=
  !value.contains '&' ||
    match Text.after? "&#" value with
    | some rest =>
        let word := rest.takeWhile isWordChar
        !word.isEmpty && rest.drop word.length == [';']
    | none => false

/-- Whether the declaration of an entity is harmless. -/
def isHarmless (body : Text) : Bool :=
  let start := body.dropWhile isSeparator
  let rest := start.dropWhile isWordChar
  let quoted := rest.dropWhile isSeparator
  match quoted with
  | '"' :: value =>
      let (value, after) := Text.cut '"' value
      start.length < body.length && rest.length < start.length &&
        quoted.length < rest.length && after.isSome && isHarmlessValue value
  | _ => false

/-- A document type that declares entities and nothing else. -/
def typeDeclaring (bodies : List Text) : Text :=
  if bodies.isEmpty then []
  else Text.concat ["<!DOCTYPE feed [\n<!ENTITY",
    Text.joinWith ">\n<!ENTITY " bodies, ">\n]>"]

/-- What comes before the name of the first element, and what follows. -/
def splitPrologue : Text → Text × Text
  | '<' :: c :: rest =>
      if isWordChar c then (['<'], c :: rest)
      else
        let (before, after) := splitPrologue (c :: rest)
        ('<' :: before, after)
  | c :: rest =>
      let (before, after) := splitPrologue rest
      (c :: before, after)
  | [] => ([], [])

/-- Whether a document brings a grammar along. -/
def hasGrammar (document : Text) : Bool :=
  let before := (splitPrologue document).1
  Text.occursIn "<!DOCTYPE" before || Text.occursIn "<!ENTITY" before

/-- A document with its grammar taken out. `fresh` says whether it begins a
line. -/
def withoutGrammar (fresh : Bool) (document : Text) : Text :=
  let (before, after) := splitPrologue document
  if after.isEmpty then document
  else
    let (entities, before) := cutDeclarations "ENTITY" [] 0 fresh before
    let types := (cutDeclarations "DOCTYPE" [] 0 fresh before).1
    let stand := if types.length = 1 then typeDeclaring (entities.filter isHarmless) else []
    (cutDeclarations "DOCTYPE" stand 0 fresh before).2 ++ after

end FeedSieve.Feed
