/-
Elements and their names.

Tokens must nest: every start tag has its end tag, there is one outermost
element, and outside it there is nothing but white space. Names with a
prefix belong to the namespace that the prefix is bound to, at the element
or at one around it; names of elements without a prefix to the default
namespace, if there is one. What is left is the sequence of events: an
element begins, with its attributes; text; an element ends.
-/
import FeedSieve.Xml.Scanner

namespace FeedSieve.Xml

/-- A name within a namespace; the empty one is no namespace. -/
structure Name where
  /-- The address of the namespace. -/
  space : Text
  /-- The name in it. -/
  base : Text
deriving Repr, DecidableEq

/-- What a document consists of. -/
inductive Event where
  /-- An element begins. `bindings` are the prefixes bound at it. -/
  | start (bindings : List (Text × Text)) (name : Name) (attributes : List (Name × Text))
  /-- Text. -/
  | text (t : Text)
  /-- The latest element that began ends. -/
  | finish
deriving Repr, DecidableEq

/-- The namespace that the prefix `xml` is bound to for ever. -/
def xmlSpace : Text := "http://www.w3.org/XML/1998/namespace"

/-- The namespace of bindings. -/
def bindingSpace : Text := "http://www.w3.org/2000/xmlns/"

/-- The prefix of a name, and the rest. -/
def cutPrefix? (name : Text) : Option (Text × Text) :=
  match Text.splitOn ':' name with
  | [base] => some ([], base)
  | [space, base] => if isName space && isName base then some (space, base) else none
  | _ => none

/-- The binding that an attribute makes, if it makes one. -/
def bindingOf? (a : Text × Text) : Option (Text × Text) :=
  if a.1 = "xmlns".toList then some ([], a.2)
  else (Text.after? "xmlns:" a.1).map fun space => (space, a.2)

/-- Whether a binding is allowed. -/
def isBindable (binding : Text × Text) : Bool :=
  let (space, address) := binding
  let isXml := space == "xml".toList
  (isXml == (address == xmlSpace)) && !address.contains ' ' &&
    space != "xmlns".toList && address != bindingSpace &&
    (space.isEmpty || !address.isEmpty) && (space.isEmpty || cutPrefix? space == some ([], space))

/-- The name that a written name stands for; `plain` is the namespace of
names without a prefix. -/
def expand? (bindings : List (Text × Text)) (plain : Text) (name : Text) : Option Name := do
  let (space, base) ← cutPrefix? name
  if space.isEmpty then return ⟨plain, base⟩
  let address ← bindings.lookup space
  if address.isEmpty then none else return ⟨address, base⟩

/-- Whether the members of a list differ from each other. -/
def allDiffer {α : Type} [BEq α] : List α → Bool
  | [] => true
  | a :: rest => !rest.contains a && allDiffer rest

/-- The elements around the place reached, the events so far, the latest
first, and whether the outermost element has begun, and a document type has
been given. -/
structure Nesting where
  /-- Each element with all bindings that hold in it. -/
  around : List (Text × List (Text × Text))
  events : List Event
  begun : Bool
  typed : Bool
deriving Repr, DecidableEq

namespace Nesting

/-- An element begins. -/
def begin? (n : Nesting) (name : Text) (attributes : List (Text × Text)) (closed : Bool) :
    Option Nesting := do
  if n.around.isEmpty && n.begun then none
  let own := attributes.filterMap bindingOf?
  if !own.all isBindable || !allDiffer (attributes.map (·.1)) then none
  let outer := match n.around with
    | [] => [("xml".toList, xmlSpace)]
    | (_, bindings) :: _ => bindings
  let bindings := own ++ outer
  let expanded ← expand? bindings ((bindings.lookup []).getD []) name
  let proper := attributes.filter fun a => (bindingOf? a).isNone
  let named ← proper.mapM fun a => (expand? bindings [] a.1).map fun name => (name, a.2)
  if !allDiffer (named.map (·.1)) then none
  let start := Event.start own expanded named
  if closed then return { n with events := .finish :: start :: n.events, begun := true }
  return { n with around := (name, bindings) :: n.around, events := start :: n.events,
                  begun := true }

/-- There is text. -/
def said (n : Nesting) (t : Text) : Nesting := { n with events := .text t :: n.events }

/-- One more token. -/
def step (n : Nesting) : Token → Option Nesting
  | .start name attributes closed => n.begin? name attributes closed
  | .finish name =>
      match n.around with
      | (opened, _) :: around =>
          if opened = name then some { n with around := around, events := .finish :: n.events }
          else none
      | [] => none
  | .text t => if n.around.isEmpty then none else some (n.said t)
  | .grammar => if n.begun || n.typed then none else some { n with typed := true }
  | .blank t => if n.around.isEmpty then some n else some (n.said t)

end Nesting

/-- The events of a document, unless it is malformed. -/
def events? (document : Text) : Option (List Event) := do
  let nesting ← (← tokens? document).foldlM Nesting.step ⟨[], [], false, false⟩
  if nesting.around.isEmpty && nesting.begun then return nesting.events.reverse else none

end FeedSieve.Xml
