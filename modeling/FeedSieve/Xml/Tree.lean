/-
XML trees and how they are written.

An element has a name, attributes in order, and children; what stands
between tags is a child as well. Written text escapes the characters that
would begin markup or end it. In attributes, which stand between double
quotes, the quote is escaped too, and so are line ends and tabs, which a
reader would take for spaces. An element without anything in it is written
as one tag.
-/
import FeedSieve.Text.Basic

namespace FeedSieve.Xml

/-- A piece of a document. -/
inductive Node where
  /-- Text between tags. -/
  | text (t : Text)
  | element (name : Text) (attributes : List (Text × Text)) (children : List Node)
deriving Repr, Inhabited

/-- A character of text. -/
def textChar (c : Char) : Text :=
  if c = '&' then "&amp;" else if c = '<' then "&lt;" else if c = '>' then "&gt;" else [c]

/-- A character of an attribute. -/
def attributeChar (c : Char) : Text :=
  if c = '"' then "&quot;"
  else if c = '\r' then "&#13;"
  else if c = '\n' then "&#10;"
  else if c = '\t' then "&#09;"
  else textChar c

/-- Text with its markup escaped. -/
def escapeText (t : Text) : Text := t.flatMap textChar

/-- An attribute, with the space before it. -/
def writeAttribute (a : Text × Text) : Text :=
  Text.concat [" ", a.1, "=\"", a.2.flatMap attributeChar, "\""]

/-- Whether a node writes nothing. -/
def Node.isVoid : Node → Bool
  | .text t => t.isEmpty
  | .element .. => false

mutual

/-- The written form of a node. -/
def Node.write : Node → Text
  | .text t => escapeText t
  | .element name attributes children =>
      let start := '<' :: name ++ attributes.flatMap writeAttribute
      if children.all Node.isVoid then start ++ " />".toList
      else Text.concat [start, ">", writeAll children, "</", name, ">"]

/-- The written forms of nodes, one after another. -/
def writeAll : List Node → Text
  | [] => []
  | node :: rest => node.write ++ writeAll rest

end

/-- Whether a node is an element. -/
def Node.isElement : Node → Bool
  | .text _ => false
  | .element .. => true

/-- A line end and the blanks at the beginning of a line at some depth. -/
def lineAt (depth : Nat) : Node := .text ('\n' :: List.replicate (2 * depth) ' ')

mutual

/-- The node with every element that holds nothing but elements laid out,
one child a line. -/
def Node.laidOut (depth : Nat) : Node → Node
  | .text t => .text t
  | .element name attributes children =>
      let inner := layOutAll (depth + 1) children
      if children.isEmpty || !children.all Node.isElement then .element name attributes inner
      else .element name attributes
        (inner.flatMap (fun child => [lineAt (depth + 1), child]) ++ [lineAt depth])

/-- The nodes, each laid out. -/
def layOutAll (depth : Nat) : List Node → List Node
  | [] => []
  | node :: rest => node.laidOut depth :: layOutAll depth rest

end

/-- The first line of a written document. -/
def declaration : Text := "<?xml version='1.0' encoding='utf-8'?>\n"

/-- A whole document, laid out. -/
def writeDocument (root : Node) : Text := declaration ++ (root.laidOut 0).write

end FeedSieve.Xml
