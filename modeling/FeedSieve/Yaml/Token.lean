/-
The tokens of a settings document.

A document is a row of tokens. Some of them are written down: brackets,
scalars, names. Others follow from how things are indented, namely where a
collection that is written as a block begins and ends. What is a key shows
only at the colon behind it; up to there everything that could be one is
remembered, and the tokens that make it one are put in front of it when the
colon comes. A key must be on one line, and not too long.
-/
import FeedSieve.Text.Utf8
import FeedSieve.Yaml.Scalar

namespace FeedSieve.Yaml

/-- An instruction to the reader at the top of a document. -/
inductive Directive where
  /-- The version of the format. -/
  | version (major : Nat)
  /-- What a handle of tags stands for. -/
  | handle (name meaning : Text)
  /-- Anything else. -/
  | unknown
deriving Repr, DecidableEq

/-- A token. -/
inductive Token where
  | directive (d : Directive)
  | documentStart
  | documentEnd
  | blockSequence
  | blockMapping
  | blockEnd
  | flowSequence
  | flowSequenceEnd
  | flowMapping
  | flowMappingEnd
  | flowEntry
  | blockEntry
  | key
  | value
  | alias (name : Text)
  | anchor (name : Text)
  /-- A tag: a handle, if there is one, and what follows it. -/
  | tag (handle : Option Text) (suffix : Text)
  | scalar (text : Text) (isPlain : Bool)
deriving Repr, DecidableEq

-- =============================================================== names

/-- Reads a name that is not empty. -/
def readName (t : Text) : Except Fault (Text × Text) :=
  let name := t.takeWhile isNameChar
  if name.isEmpty then .error .malformed else .ok (name, t.drop name.length)

/-- Reads the name of an anchor. -/
def readAnchor (t : Text) : Except Fault (Text × Text) := do
  let (name, rest) ← readName t
  let c := first rest
  if endsToken c || "?:,]\x7d%@`".toList.contains c then return (name, rest) else throw .malformed

/-- Reads a handle of tags: a mark, a name, a mark. The mark alone is one too
before a space, and before everything that is no name. -/
def readHandle (t : Text) : Except Fault (Text × Text) :=
  match t with
  | '!' :: rest =>
      if first rest = ' ' then .ok (['!'], rest)
      else
        let name := rest.takeWhile isNameChar
        match rest.drop name.length with
        | '!' :: left => .ok ('!' :: name ++ ['!'], left)
        | _ => .error .malformed
  | _ => .error .malformed

/-- Whether a character may stand in a tag. -/
def inTag (c : Char) : Bool :=
  Text.isLetter c || Text.isPlainDigit c || "-;/?:@&=+$,_.!~*'()[]%".toList.contains c

/-- The bytes of escapes one after another, as far as there are any, and what
follows them. -/
def escapedBytes : Text → Except Fault (Bytes × Text)
  | '%' :: a :: b :: rest =>
      match hexValue? [a, b] with
      | none => .error .malformed
      | some n => (escapedBytes rest).map fun (bytes, left) => (n.toUInt8 :: bytes, left)
  | '%' :: _ => .error .malformed
  | rest => .ok ([], rest)

/-- Reads the text of a tag, at most `limit` characters and escapes. -/
def readTagText (limit : Nat) (done t : Text) : Except Fault (Text × Text) :=
  match limit, t with
  | limit + 1, '%' :: rest => do
      let (bytes, left) ← escapedBytes ('%' :: rest)
      match Utf8.decode bytes with
      | .ok text => readTagText limit (done ++ text) left
      | .error _ => throw .malformed
  | limit + 1, c :: rest =>
      if inTag c then readTagText limit (done ++ [c]) rest
      else if done.isEmpty then .error .malformed
      else .ok (done, c :: rest)
  | _, t => if done.isEmpty then .error .malformed else .ok (done, t)

/-- Reads a tag; `t` begins with its mark. -/
def readTag (t : Text) : Except Fault (Token × Text) := do
  let body := t.drop 1
  let (token, rest) ←
    if first body = '<' then do
      let (suffix, rest) ← readTagText t.length [] (body.drop 1)
      if first rest != '>' then throw .malformed
      pure (Token.tag none suffix, rest.drop 1)
    else if endsToken (first body) then pure (Token.tag none "!", body)
    else do
      let hasHandle := (body.takeWhile (!endsWord ·)).contains '!'
      let (handle, rest) ← if hasHandle then readHandle t else pure ("!".toList, body)
      let (suffix, rest) ← readTagText t.length [] rest
      pure (Token.tag (some handle) suffix, rest)
  if endsWord (first rest) then return (token, rest) else throw .malformed

/-- Reads the number of a version. -/
def readVersionNumber (t : Text) : Except Fault (Nat × Text) :=
  let digits := t.takeWhile Text.isPlainDigit
  if digits.isEmpty then .error .malformed
  else if Text.maxDigits < digits.length then .error (.tooLong digits.length)
  else .ok (digits.foldl (fun n c => 10 * n + (Text.plainDigit? c).getD 0) 0, t.drop digits.length)

/-- Reads a directive; `t` begins with its mark. -/
def readDirective (t : Text) : Except Fault (Directive × Text) := do
  let (name, rest) ← readName (t.drop 1)
  if !endsWord (first rest) then throw .malformed
  let (directive, rest) ←
    if name = "YAML".toList then do
      let (major, rest) ← readVersionNumber (rest.dropWhile (· = ' '))
      if first rest != '.' then throw .malformed
      let (_, rest) ← readVersionNumber (rest.drop 1)
      if !endsWord (first rest) then throw .malformed
      pure (Directive.version major, rest)
    else if name = "TAG".toList then do
      let (handle, rest) ← readHandle (rest.dropWhile (· = ' '))
      if first rest != ' ' then throw .malformed
      let (meaning, rest) ← readTagText t.length [] (rest.dropWhile (· = ' '))
      if !endsWord (first rest) then throw .malformed
      pure (Directive.handle handle meaning, rest)
    else pure (Directive.unknown, rest.dropWhile (!endsLine ·))
  let rest ← emptyLine rest
  return (directive, rest)

-- ============================================================ scanning

/-- Something that may turn out to be a key. -/
structure Candidate where
  /-- How many tokens are before it. -/
  place : Nat
  /-- Whether nothing else makes sense there. -/
  required : Bool
  /-- Where it begins. -/
  index : Nat
  line : Nat
  column : Nat
deriving Repr, DecidableEq

/-- How far the reading of tokens has come. -/
structure Scan where
  cursor : Cursor
  /-- The tokens so far, the latest first. -/
  tokens : List Token
  /-- How many brackets are open. -/
  depth : Nat
  /-- How far the present block is indented; -1 outside all blocks. -/
  indent : Int
  /-- How far the blocks around it are. -/
  outer : List Int
  /-- Whether a key may begin here. -/
  keyAllowed : Bool
  /-- What may be a key, by the number of brackets around it. -/
  candidates : List (Nat × Candidate)

namespace Scan

/-- Nothing has been read. -/
def start (t : Text) : Scan := ⟨.start t, [], 0, -1, [], true, []⟩

/-- With one more token. -/
def push (s : Scan) (token : Token) : Scan := { s with tokens := token :: s.tokens }

/-- Whether brackets are open. -/
def inFlow (s : Scan) : Bool := s.depth != 0

/-- The column of the cursor. -/
def column (s : Scan) : Int := s.cursor.column

/-- The candidate within the same brackets. -/
def candidate? (s : Scan) : Option Candidate := s.candidates.lookup s.depth

/-- Gives up the candidate within the same brackets. -/
def dropCandidate (s : Scan) : Except Fault Scan :=
  match s.candidate? with
  | none => .ok s
  | some c =>
      if c.required then .error .malformed
      else .ok { s with candidates := s.candidates.filter (·.1 != s.depth) }

/-- Remembers that what begins here may be a key. -/
def offerCandidate (s : Scan) : Except Fault Scan :=
  if !s.keyAllowed then .ok s
  else do
    let required := !s.inFlow && s.indent == s.column
    let s ← s.dropCandidate
    let at_ := s.cursor
    return { s with candidates :=
      (s.depth, ⟨s.tokens.length, required, at_.index, at_.line, at_.column⟩) :: s.candidates }

/-- The most characters of a key. -/
def keyLimit : Nat := 1024

/-- Gives up the candidates that have become too long. -/
def dropStale (s : Scan) : Except Fault Scan :=
  let stale (c : Candidate) : Bool :=
    c.line != s.cursor.line || decide (keyLimit < s.cursor.index - c.index)
  if s.candidates.any fun (_, c) => stale c && c.required then .error .malformed
  else .ok { s with candidates := s.candidates.filter fun (_, c) => !stale c }

/-- Ends the blocks that are indented further than `column`. -/
def unwind (column : Int) (s : Scan) : Scan :=
  if s.inFlow then s
  else
    let blocks := s.indent :: s.outer
    let ended := (blocks.takeWhile (column < ·)).length
    match blocks.drop ended with
    | [] => s
    | indent :: outer =>
        { s with
          indent := indent
          outer := outer
          tokens := List.replicate ended .blockEnd ++ s.tokens }

/-- Begins a block at a column, if it is indented further than the present
one. -/
def indentTo (column : Int) (s : Scan) : Option Scan :=
  if s.indent < column then some { s with outer := s.indent :: s.outer, indent := column } else none

/-- Passes over blanks, comments and line ends. -/
def skipBlanks (s : Scan) : Scan :=
  let (rest, lines) := blanksFrom s.cursor.rest.length s.cursor.rest
  { s with
    cursor := s.cursor.upTo rest
    keyAllowed := s.keyAllowed || (lines && !s.inFlow) }
where
  /-- What is left behind blanks, and whether there are line ends in them. -/
  blanksFrom (limit : Nat) (t : Text) : Text × Bool :=
    let t := t.dropWhile (· = ' ')
    let t := if first t = '#' then t.dropWhile (!endsLine ·) else t
    match limit, t with
    | limit + 1, c :: rest =>
        if isBreak c then ((blanksFrom limit rest).1, true) else (c :: rest, false)
    | _, t => (t, false)

/-- Moves the cursor on. -/
def goTo (s : Scan) (rest : Text) : Scan := { s with cursor := s.cursor.upTo rest }

/-- Past a token of some characters. -/
def take (s : Scan) (length : Nat) (token : Token) : Scan :=
  { s with cursor := s.cursor.skip length }.push token

-- ------------------------------------------------- one kind of token each

/-- Ends the document. -/
def finish (s : Scan) : Except Fault (List Token) := do
  let s ← (s.unwind (-1)).dropCandidate
  return s.tokens.reverse

/-- A mark between documents. -/
def separator (token : Token) (s : Scan) : Except Fault Scan := do
  let s ← (s.unwind (-1)).dropCandidate
  return { s with keyAllowed := false }.take 3 token

/-- A directive. -/
def directive (s : Scan) : Except Fault Scan := do
  let s ← (s.unwind (-1)).dropCandidate
  let (d, rest) ← readDirective s.cursor.rest
  return ({ s with keyAllowed := false }.goTo rest).push (.directive d)

/-- An opening bracket. -/
def opening (token : Token) (s : Scan) : Except Fault Scan := do
  let s ← s.offerCandidate
  return { s with depth := s.depth + 1, keyAllowed := true }.take 1 token

/-- A closing bracket. -/
def closing (token : Token) (s : Scan) : Except Fault Scan := do
  let s ← s.dropCandidate
  if s.depth = 0 then throw .malformed
  return { s with depth := s.depth - 1, keyAllowed := false }.take 1 token

/-- A comma between brackets. -/
def flowEntry (s : Scan) : Except Fault Scan := do
  let s ← s.dropCandidate
  return { s with keyAllowed := true }.take 1 .flowEntry

/-- A mark that may begin a block: it must be allowed there. -/
def blockMark (block : Token) (s : Scan) : Except Fault Scan :=
  if s.inFlow then .ok s
  else if !s.keyAllowed then .error .malformed
  else match s.indentTo s.column with
    | some s => .ok (s.push block)
    | none => .ok s

/-- A dash. -/
def blockEntry (s : Scan) : Except Fault Scan := do
  let s ← (← s.blockMark .blockSequence).dropCandidate
  return { s with keyAllowed := true }.take 1 .blockEntry

/-- A question mark. -/
def explicitKey (s : Scan) : Except Fault Scan := do
  let s ← (← s.blockMark .blockMapping).dropCandidate
  return { s with keyAllowed := !s.inFlow }.take 1 .key

/-- The tokens with some more put in where the first `place` of them end. -/
def insertAt (place : Nat) (news tokens : List Token) : List Token :=
  let later := tokens.length - place
  tokens.take later ++ news.reverse ++ tokens.drop later

/-- A colon. -/
def mappingValue (s : Scan) : Except Fault Scan :=
  match s.candidate? with
  | some c => do
      let s := { s with candidates := s.candidates.filter (·.1 != s.depth) }
      let (s, news) := match if s.inFlow then none else s.indentTo c.column with
        | some s => (s, [Token.blockMapping, .key])
        | none => (s, [Token.key])
      let s := { s with tokens := insertAt c.place news s.tokens, keyAllowed := false }
      return s.take 1 .value
  | none => do
      let s ← (← s.blockMark .blockMapping).dropCandidate
      return { s with keyAllowed := !s.inFlow }.take 1 .value

/-- A token that may be a key as it stands. -/
def keyLike (read : Text → Except Fault (Token × Text)) (s : Scan) : Except Fault Scan := do
  let s ← s.offerCandidate
  let (token, rest) ← read s.cursor.rest
  return ({ s with keyAllowed := false }.goTo rest).push token

/-- A block of lines. -/
def blockScalar (folded : Bool) (s : Scan) : Except Fault Scan := do
  let s ← s.dropCandidate
  let (text, rest) ← block folded s.indent (s.cursor.rest.drop 1)
  return ({ s with keyAllowed := true }.goTo rest).push (.scalar text false)

/-- A plain scalar. -/
def plainScalar (s : Scan) : Except Fault Scan := do
  let s ← s.offerCandidate
  let p := plain s.inFlow (s.indent + 1) s.cursor.rest
  return ({ s with keyAllowed := p.lineEnded }.goTo p.rest).push (.scalar p.text true)

/-- Whether a plain scalar may begin with a character, given the next one. -/
def beginsPlain (inFlow : Bool) (c after : Char) : Bool :=
  !(endsToken c || "-?:,[]\x7b\x7d#&*!|>'\"%@`".toList.contains c) ||
    (!endsToken after && (c = '-' || (!inFlow && (c = '?' || c = ':'))))

/-- Reads the next token, or ends the document. -/
def step (s : Scan) : Except Fault (Scan ⊕ List Token) := do
  let s ← s.skipBlanks.dropStale
  let s := s.unwind s.column
  let t := s.cursor.rest
  let c := first t
  let after := s.cursor.peekNext
  let atStart := s.cursor.column = 0
  let isMark := s.inFlow || endsToken after
  let named (make : Text → Token) (t : Text) : Except Fault (Token × Text) :=
    (readAnchor (t.drop 1)).map fun (name, rest) => (make name, rest)
  let quoted (read : Text → Except Fault (Text × Text)) (t : Text) : Except Fault (Token × Text) :=
    (read (t.drop 1)).map fun (text, rest) => (.scalar text false, rest)
  if t.isEmpty then .inr <$> s.finish
  else .inl <$>
    if c = '%' && atStart then s.directive
    else if atStart && isSeparator '-' t then s.separator .documentStart
    else if atStart && isSeparator '.' t then s.separator .documentEnd
    else if c = '[' then s.opening .flowSequence
    else if c = '\x7b' then s.opening .flowMapping
    else if c = ']' then s.closing .flowSequenceEnd
    else if c = '\x7d' then s.closing .flowMappingEnd
    else if c = ',' then s.flowEntry
    else if c = '-' && endsToken after then s.blockEntry
    else if c = '?' && isMark then s.explicitKey
    else if c = ':' && isMark then s.mappingValue
    else if c = '*' then s.keyLike (named .alias)
    else if c = '&' then s.keyLike (named .anchor)
    else if c = '!' then s.keyLike readTag
    else if c = '|' && !s.inFlow then s.blockScalar false
    else if c = '>' && !s.inFlow then s.blockScalar true
    else if c = '\'' then s.keyLike (quoted (singleQuoted [] .none))
    else if c = '"' then s.keyLike (quoted (doubleQuoted [] .none))
    else if beginsPlain s.inFlow c after then s.plainScalar
    else .error .malformed

end Scan

/-- Whether a character may occur in a document. -/
def isAllowed (c : Char) : Bool :=
  c = '\t' || c = '\n' || c = '\r' || c = '\x85' || (' ' ≤ c && c ≤ '~') ||
    (0xa0 ≤ c.toNat && c.toNat != 0xfffe && c.toNat != 0xffff)

/-- The tokens of a document. A byte order mark at its beginning is none. -/
def Token.scan (t : Text) : Except Fault (List Token) :=
  if !t.all isAllowed then .error .malformed
  else
    let t := if first t = '\uFEFF' then t.drop 1 else t
    steps (2 * t.length + 2) Scan.step (.start t)

end FeedSieve.Yaml
