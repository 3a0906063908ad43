/-
The document type.

A document may say what type it is of: by a name, by the address of a
grammar, which is not looked up, and by declarations between brackets. Of
those only the declarations of entities matter. If there is a grammar
elsewhere, an entity that is not declared may be declared there, and a
reference to it stands for nothing; otherwise it is an error.
-/
import FeedSieve.Xml.Reference

namespace FeedSieve.Xml

/-- What follows the white space with which a text begins. -/
def space? : Text → Option Text
  | [] => none
  | c :: rest => if isSpace c then some (rest.dropWhile isSpace) else none

/-- The name with which a text begins, and what follows. -/
def name? (t : Text) : Option (Text × Text) :=
  let name := t.takeWhile isNameChar
  if isName name then some (name, t.drop name.length) else none

/-- The quoted text with which a text begins, and what follows. -/
def quoted? : Text → Option (Text × Text)
  | [] => none
  | quote :: rest =>
      if quote = '"' || quote = '\'' then
        match Text.cut quote rest with
        | (t, some rest) => some (t, rest)
        | (_, none) => none
      else none

/-- What follows the address of a grammar. -/
def afterAddress? (t : Text) : Option Text := do
  match Text.after? "SYSTEM" t with
  | some rest => return (← quoted? (← space? rest)).2
  | none =>
      let (_, rest) ← quoted? (← space? (← Text.after? "PUBLIC" t))
      return (← quoted? (← space? rest)).2

/-- What follows a declaration that is not looked at: its end, outside
quotes. -/
def afterDeclaration? (quote : Option Char) : Text → Option Text
  | [] => none
  | c :: rest =>
      match quote with
      | some q => afterDeclaration? (if c = q then none else some q) rest
      | none =>
          if c = '>' then some rest
          else if c = '<' then none
          else afterDeclaration? (if c = '"' || c = '\'' then some c else none) rest

/-- What follows the first occurrence of a text. -/
def afterFirst? (mark : Text) : Text → Option Text
  | [] => none
  | c :: rest => (Text.after? mark (c :: rest)).orElse fun _ => afterFirst? mark rest

/-- The entity that a declaration is about, if it gives a text for it, and
what follows the declaration. An entity that stands for markup, or for
others that are not declared before it, counts as not declared. -/
def entity? (declared : Entities) (t : Text) : Option (Entities × Text) := do
  let (name, rest) ← name? (← space? t)
  match quoted? (← space? rest) with
  | some (value, rest) =>
      let rest ← Text.after? ">" (rest.dropWhile isSpace)
      return match resolve? ⟨declared, false⟩ value with
        | some value => (if value.contains '<' then [] else [(name, value)], rest)
        | none => ([], rest)
  | none =>
      let rest ← afterAddress? (← space? rest)
      return ([], ← afterDeclaration? none rest)

/-- The entities declared between brackets, and what follows the closing
one. Every declaration takes up characters, so as many steps as there are
characters are enough. -/
def subset? (declared : Entities) : (steps : Nat) → Text → Option (Entities × Text)
  | 0, _ => none
  | steps + 1, t =>
      let t := t.dropWhile isSpace
      match Text.after? "]" t, Text.after? "<!--" t, Text.after? "<?" t, Text.after? "<!ENTITY" t,
        Text.after? "<!" t with
      | some rest, _, _, _, _ => some (declared, rest)
      | _, some rest, _, _, _ => (afterFirst? "-->" rest).bind (subset? declared steps)
      | _, _, some rest, _, _ => (afterFirst? "?>" rest).bind (subset? declared steps)
      | _, _, _, some rest, _ =>
          (entity? declared rest).bind fun (more, rest) => subset? (declared ++ more) steps rest
      | _, _, _, _, some rest => (afterDeclaration? none rest).bind (subset? declared steps)
      | _, _, _, _, none => none

/-- Reads a document type, from behind its keyword to before its end. -/
def Grammar.ofText? (t : Text) : Option Grammar := do
  let (_, rest) ← name? (← space? t)
  let address := (space? rest).bind afterAddress?
  match (address.getD rest).dropWhile isSpace with
  | [] => return ⟨[], address.isSome⟩
  | '[' :: inner =>
      let (entities, rest) ← subset? [] (inner.length + 1) inner
      if rest.all isSpace then return ⟨entities, address.isSome⟩ else none
  | _ => none

end FeedSieve.Xml
