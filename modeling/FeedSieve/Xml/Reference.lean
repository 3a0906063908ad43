/-
References in text and attributes.

A reference stands between an ampersand and a semicolon. It names a
character by its code point, or one of five characters that markup needs
for itself, or an entity that the document declares. If more entities may be
declared elsewhere, a name that is none of these stands for nothing. No
other ampersand may stand in a document.
-/
import FeedSieve.Text.Percent
import FeedSieve.Xml.Char

namespace FeedSieve.Xml

/-- The entities of a document, and what they stand for. -/
abbrev Entities := List (Text × Text)

/-- What a document says about its entities. -/
structure Grammar where
  /-- Those that it declares. -/
  entities : Entities
  /-- Whether more may be declared elsewhere. -/
  isOpen : Bool
deriving Repr, DecidableEq

/-- A document that says nothing. -/
def Grammar.silent : Grammar := ⟨[], false⟩

/-- The entities that every document has. -/
def commonEntities : List (String × Char) :=
  [("lt", '<'), ("gt", '>'), ("amp", '&'), ("quot", '"'), ("apos", '\'')]

/-- The number that digits to some base spell; `none` unless there are only
digits, and at least one. -/
def numeral? (base : Nat) (digits : Text) : Option Nat :=
  if digits.isEmpty then none
  else digits.foldlM (fun n c =>
    match Text.hexDigit? c with
    | some d => if d < base then some (base * n + d) else none
    | none => none) 0

/-- The character with a code point, if it may stand in a document. -/
def charOf? (code : Nat) : Option Char :=
  if code.isValidChar && isChar (Char.ofNat code) then some (Char.ofNat code) else none

/-- What a reference stands for; `body` is what is between its ends. -/
def reference? (grammar : Grammar) (body : Text) : Option Text :=
  match body with
  | '#' :: 'x' :: digits => (numeral? 16 digits).bind charOf? |>.map fun c => [c]
  | '#' :: digits => (numeral? 10 digits).bind charOf? |>.map fun c => [c]
  | name =>
      match commonEntities.find? fun entry => entry.1.toList == name with
      | some (_, c) => some [c]
      | none =>
          match grammar.entities.lookup name with
          | some t => some t
          | none => if grammar.isOpen && isName name then some [] else none

/-- The text that begins with a reference, its ampersand taken away. -/
def afterAmpersand? (grammar : Grammar) (t : Text) : Option Text :=
  match Text.cut ';' t with
  | (body, some rest) => (reference? grammar body).map (· ++ rest)
  | _ => none

/-- The text with its references replaced. -/
def resolve? (grammar : Grammar) (t : Text) : Option Text :=
  match Text.splitOn '&' t with
  | [] => some []
  | first :: rest => (rest.mapM (afterAmpersand? grammar)).map fun parts => first ++ parts.flatten

end FeedSieve.Xml
