/-
Scalars as they are written.

A scalar is written plain, in quotes of either kind, or as a block of
lines. In all of them a single line end stands for a space, further ones
for themselves, and blanks around them for nothing; only a block may keep
its lines as they are, and escape signs in double quotes have meanings of
their own.

Every reader here takes the text behind the opening, and gives the value
and the text that is left.
-/
import FeedSieve.Yaml.Cursor

namespace FeedSieve.Yaml

-- ============================================================= quoted

/-- What has been read since the last visible character. -/
structure Gap where
  /-- Blanks on the line. -/
  blanks : Text
  /-- What the first line end counts for, if there is one. -/
  fold : Option Text
  /-- The further line ends, the latest first. -/
  breaks : Text
  /-- Whether a line has just begun. -/
  fresh : Bool
deriving Repr, DecidableEq

namespace Gap

/-- Nothing has been read. -/
def none : Gap := ⟨[], .none, [], false⟩

/-- A line end that an escape sign takes away has been read. -/
def joined : Gap := ⟨[], some [], [], true⟩

/-- With one more blank; it does not count after a line end. -/
def blank (g : Gap) (c : Char) : Gap :=
  match g.fold with
  | .none => { g with blanks := g.blanks ++ [c], fresh := false }
  | some _ => { g with fresh := false }

/-- With one more line end. -/
def lineEnd (g : Gap) (c : Char) : Gap :=
  match g.fold with
  | .none => ⟨[], some [breakText c], [], true⟩
  | some _ => { g with breaks := breakText c :: g.breaks, fresh := true }

/-- What the gap stands for. -/
def text (g : Gap) : Text :=
  match g.fold with
  | .none => g.blanks
  | some first =>
      if first = ['\n'] then (if g.breaks.isEmpty then [' '] else g.breaks.reverse)
      else first ++ g.breaks.reverse

end Gap

/-- The characters that one letter behind an escape sign stands for. -/
def escapes : List (Char × Char) :=
  [('0', '\x00'), ('a', '\x07'), ('b', '\x08'), ('t', '\t'), ('\t', '\t'), ('n', '\n'),
   ('v', '\x0b'), ('f', '\x0c'), ('r', '\r'), ('e', '\x1b'), (' ', ' '), ('"', '"'),
   ('\\', '\\'), ('/', '/'), ('N', '\x85'), ('_', '\xa0'), ('L', '\u2028'), ('P', '\u2029')]

/-- The number spelled by hexadecimal digits. -/
def hexValue? (digits : Text) : Option Nat :=
  digits.foldl (fun n c => n.bind fun n => (Text.hexDigit? c).map (16 * n + ·)) (some 0)

/-- The character of a number. -/
def character (digits : Text) : Except Fault Char :=
  match hexValue? digits with
  | none => .error .malformed
  | some code => if code < 0x110000 then .ok (Char.ofNat code) else .error (.noCharacter code)

/-- Reads on in double quotes. -/
def doubleQuoted (done : Text) (gap : Gap) : Text → Except Fault (Text × Text)
  | [] => .error .malformed
  | c :: rest =>
      if gap.fresh && endsDocument (c :: rest) then .error .malformed
      else if isBlank c then doubleQuoted done (gap.blank c) rest
      else if isBreak c then doubleQuoted done (gap.lineEnd c) rest
      else
        let done := gap.text.reverse ++ done
        if c = '"' then .ok (done.reverse, rest)
        else if c = '\\' then
          match rest with
          | [] => .error .malformed
          | e :: rest =>
              match escapes.lookup e with
              | some x => doubleQuoted (x :: done) .none rest
              | none =>
                  if isBreak e then doubleQuoted done .joined rest
                  else match e, rest with
                    | 'x', a :: b :: rest => do
                        let x ← character [a, b]
                        doubleQuoted (x :: done) .none rest
                    | 'u', a :: b :: c :: d :: rest => do
                        let x ← character [a, b, c, d]
                        doubleQuoted (x :: done) .none rest
                    | 'U', a :: b :: c :: d :: a' :: b' :: c' :: d' :: rest => do
                        let x ← character [a, b, c, d, a', b', c', d']
                        doubleQuoted (x :: done) .none rest
                    | _, _ => .error .malformed
        else doubleQuoted (c :: done) .none rest

/-- Reads on in single quotes. -/
def singleQuoted (done : Text) (gap : Gap) : Text → Except Fault (Text × Text)
  | [] => .error .malformed
  | c :: rest =>
      if gap.fresh && endsDocument (c :: rest) then .error .malformed
      else if isBlank c then singleQuoted done (gap.blank c) rest
      else if isBreak c then singleQuoted done (gap.lineEnd c) rest
      else
        let done := gap.text.reverse ++ done
        if c = '\'' then
          match rest with
          | '\'' :: rest => singleQuoted ('\'' :: done) .none rest
          | rest => .ok (done.reverse, rest)
        else singleQuoted (c :: done) .none rest

-- ============================================================== plain

/-- Whether a character ends a word of a plain scalar, given what follows. -/
def endsPlain (inFlow : Bool) (c : Char) (rest : Text) : Bool :=
  let after := first rest
  endsToken c ||
    (c = ':' && (endsToken after || (inFlow && ",[]\x7b\x7d".toList.contains after))) ||
    (inFlow && ",?[]\x7b\x7d".toList.contains c)

/-- Reads a word of a plain scalar. -/
def plainWord (inFlow : Bool) : Text → Text × Text
  | [] => ([], [])
  | c :: rest =>
      if endsPlain inFlow c rest then ([], c :: rest)
      else let (word, left) := plainWord inFlow rest; (c :: word, left)

/-- What stands between two words of a plain scalar. -/
structure PlainGap where
  /-- What it stands for; nothing at all ends the scalar. -/
  text : Text
  /-- The column behind it, if it has line ends. -/
  column : Option Nat
deriving Repr, DecidableEq

/-- Reads the lines between two words, up to the first line that has one.
`column` spaces of the present line have been read, and `breaks` are the
line ends but the first. -/
def plainLines (lineEnd : Char) (breaks : Text) (column : Nat) : Text → PlainGap × Text
  | [] => (⟨plainFold lineEnd breaks, some column⟩, [])
  | c :: rest =>
      if column = 0 && endsDocument (c :: rest) then (⟨[], some 0⟩, c :: rest)
      else if c = ' ' then plainLines lineEnd breaks (column + 1) rest
      else if isBreak c then plainLines lineEnd (breaks ++ [breakText c]) 0 rest
      else (⟨plainFold lineEnd breaks, some column⟩, c :: rest)
where
  /-- What line ends stand for. -/
  plainFold (lineEnd : Char) (breaks : Text) : Text :=
    if lineEnd = '\n' then (if breaks.isEmpty then [' '] else breaks) else lineEnd :: breaks

/-- Reads what stands between two words. -/
def plainGap (t : Text) : PlainGap × Text :=
  let spaces := t.takeWhile (· = ' ')
  match t.dropWhile (· = ' ') with
  | [] => (⟨spaces, none⟩, [])
  | c :: rest =>
      if isBreak c then plainLines (breakText c) [] 0 rest else (⟨spaces, none⟩, c :: rest)

/-- A plain scalar that has been read. -/
structure Plain where
  /-- Its value. -/
  text : Text
  /-- Whether it ended with a line. -/
  lineEnded : Bool
  /-- What is left. -/
  rest : Text
deriving Repr, DecidableEq

/-- Reads on in a plain scalar, one word and one gap at a time. `held` is the
gap before the word. -/
def plainFrom (inFlow : Bool) (indent : Int) (limit : Nat) (done held : Text) (lineEnded : Bool)
    (t : Text) : Plain :=
  match limit with
  | 0 => ⟨done, lineEnded, t⟩
  | limit + 1 =>
      if first t = '#' then ⟨done, lineEnded, t⟩
      else match plainWord inFlow t with
        | ([], t) => ⟨done, lineEnded, t⟩
        | (word, t) =>
            let done := done ++ held ++ word
            let (gap, t) := plainGap t
            let less := match gap.column with
              | some column => !inFlow && (column : Int) < indent
              | none => false
            let lineEnded := gap.column.isSome
            if gap.text.isEmpty || first t = '#' || less then ⟨done, lineEnded, t⟩
            else plainFrom inFlow indent limit done gap.text lineEnded t

/-- Reads a plain scalar. Its further lines are indented to `indent` at least. -/
def plain (inFlow : Bool) (indent : Int) (t : Text) : Plain :=
  plainFrom inFlow indent (t.length + 1) [] [] false t

-- ============================================================= blocks

/-- What becomes of the line ends at the end of a block. -/
inductive Chomping where
  /-- None is kept. -/
  | strip
  /-- One is kept. -/
  | clip
  /-- All are kept. -/
  | keep
deriving Repr, DecidableEq

/-- The chomping that a sign asks for. -/
def chomping? : Char → Option Chomping
  | '+' => some .keep
  | '-' => some .strip
  | _ => none

/-- Reads the signs behind the opening of a block: how it ends, and how far
it is indented, if that is said. -/
def blockSigns (t : Text) : Except Fault (Chomping × Option Nat × Text) := do
  let (chomping, size, t) ← match t with
    | [] => pure (none, none, t)
    | a :: rest =>
        match chomping? a, Text.plainDigit? a, rest with
        | some chomping, _, b :: later =>
            match Text.plainDigit? b with
            | some n => pure (some chomping, some n, later)
            | none => pure (some chomping, none, rest)
        | some chomping, _, [] => pure (some chomping, none, rest)
        | none, some n, b :: later =>
            match chomping? b with
            | some chomping => pure (some chomping, some n, later)
            | none => pure (none, some n, rest)
        | none, some n, [] => pure (none, some n, rest)
        | none, none, _ => pure (none, none, t)
  if size = some 0 || !endsWord (first t) then throw .malformed
  return (chomping.getD .clip, size, t)

/-- Reads the rest of a line that has nothing on it but perhaps a comment. -/
def emptyLine (t : Text) : Except Fault Text :=
  let t := t.dropWhile (· = ' ')
  let t := if first t = '#' then t.dropWhile (!endsLine ·) else t
  match t with
  | [] => .ok []
  | c :: rest => if isBreak c then .ok rest else .error .malformed

/-- Reads empty lines. `column` spaces of the present line have been read, no
more than `indent` of them count, and `breaks` are the line ends so far. -/
def blockBreaks (indent : Nat) (breaks : Text) (column : Nat) : Text → Text × Nat × Text
  | [] => (breaks, column, [])
  | c :: rest =>
      if c = ' ' && column < indent then blockBreaks indent breaks (column + 1) rest
      else if isBreak c then blockBreaks indent (breaks ++ [breakText c]) 0 rest
      else (breaks, column, c :: rest)

/-- The most spaces on the empty lines at the beginning, and on the first
line that is not empty. -/
def blockIndent (most column : Nat) : Text → Nat
  | [] => most
  | c :: rest =>
      if c = ' ' then blockIndent (max most (column + 1)) (column + 1) rest
      else if isBreak c then blockIndent most 0 rest
      else most

/-- A block that is being read. -/
structure Block where
  /-- Its value so far. -/
  done : Text
  /-- The end of the latest line. -/
  lineEnd : Text
  /-- The line ends behind it. -/
  breaks : Text
  column : Nat
  /-- What is left. -/
  rest : Text
deriving Repr, DecidableEq

/-- Reads one line of a block, with the empty lines behind it. -/
def blockLine (folded : Bool) (indent : Nat) (b : Block) : Except Fault (Block ⊕ Block) :=
  if b.column != indent || b.rest.isEmpty then .ok (.inr b)
  else
    let line := b.rest.takeWhile (!endsLine ·)
    let done := b.done ++ b.breaks ++ line
    let (lineEnd, rest) : Text × Text := match b.rest.dropWhile (!endsLine ·) with
      | [] => ([], [])
      | c :: rest => ([breakText c], rest)
    let (breaks, column, rest) := blockBreaks indent [] 0 rest
    let b' : Block := ⟨done, lineEnd, breaks, column, rest⟩
    if column != indent || rest.isEmpty then .ok (.inr b')
    else
      let visible (t : Text) : Bool := !isBlank (first t)
      let between : Text :=
        if folded && lineEnd == ['\n'] && visible b.rest && visible rest then
          (if breaks.isEmpty then [' '] else [])
        else lineEnd
      .ok (.inl { b' with done := done ++ between })

/-- Reads a block. It is in a collection indented by `outer`. -/
def block (folded : Bool) (outer : Int) (t : Text) : Except Fault (Text × Text) := do
  let (chomping, size, t) ← blockSigns t
  let t ← emptyLine t
  let least := (max (outer + 1) 1).toNat
  let indent := match size with
    | some n => least + n - 1
    | none => max least (blockIndent 0 0 t)
  let (breaks, column, rest) := blockBreaks indent [] 0 t
  let b ← steps (t.length + 1) (blockLine folded indent) ⟨[], [], breaks, column, rest⟩
  let ending : Text := match chomping with
    | .strip => []
    | .clip => b.lineEnd
    | .keep => b.lineEnd ++ b.breaks
  return (b.done ++ ending, b.rest)

end FeedSieve.Yaml
