/-
The nodes of a settings document.

A document is one node: a scalar, a sequence of nodes, or a mapping from
nodes to nodes. A node may be given a name, by which it can stand again
further down; within itself it can stand too, but has no value there. A
mapping may ask for others to be merged into it; what it says itself comes
after what they say, and so takes precedence. It may also stand for one of
its values, if that is a scalar.

Reading descends into the node that begins at a token and comes back with
the tokens behind it. Every call is either for a token that is taken, or
one of few that lead up to it, so that their depth is bounded by the number
of tokens.
-/
import FeedSieve.Yaml.Tag
import FeedSieve.Yaml.Token

namespace FeedSieve.Yaml

/-- A node. -/
inductive Node where
  /-- A scalar and its text. -/
  | scalar (tag : Tag) (text : Text)
  | sequence (tag : Tag) (members : List Node)
  /-- A mapping, as its keys and the values of them in the same order. -/
  | mapping (tag : Tag) (keys values : List Node)
  /-- A node within itself. -/
  | inner (isMapping : Bool)
deriving Repr

/-- The node that stands for nothing. -/
def Node.absent : Node := .scalar .null []

namespace Node

-- ============================================================ merging

/-- The keys and values that a node gives to a mapping it is merged into. -/
def given? : Node → Option (List Node × List Node)
  | mapping _ keys values => some (keys, values)
  | inner true => some ([], [])
  | _ => none

/-- The keys and values of several nodes, the first last. -/
def givenAll? : List Node → Option (List Node × List Node)
  | [] => some ([], [])
  | node :: rest => do
      let (keys, values) ← node.given?
      let (restKeys, restValues) ← givenAll? rest
      return (restKeys ++ keys, restValues ++ values)

/-- What is merged in by the value of a merge key. -/
def merged? : Node → Option (List Node × List Node)
  | sequence _ members => givenAll? members
  | node => node.given?

/-- The keys and values merged into a mapping, and those that are its own. -/
def split? : (keys values : List Node) → Option ((List Node × List Node) × (List Node × List Node))
  | key :: keys, value :: values => do
      let ((inKeys, inValues), (ownKeys, ownValues)) ← split? keys values
      match key with
      | scalar .merge _ =>
          let (k, v) ← value.merged?
          return ((k ++ inKeys, v ++ inValues), (ownKeys, ownValues))
      | scalar .default text =>
          return ((inKeys, inValues), (scalar .text text :: ownKeys, value :: ownValues))
      | key => return ((inKeys, inValues), (key :: ownKeys, value :: ownValues))
  | _, _ => some (([], []), ([], []))

/-- The text of the scalar that a mapping stands for, if one of its keys says
that its value does so. -/
def standing? : (keys values : List Node) → Option Text
  | scalar .default _ :: _, value :: _ =>
      match value with
      | scalar _ text => some text
      | _ => none
  | _ :: keys, _ :: values => standing? keys values
  | _, _ => none

/-- A mapping with everything merged in. One of the sort of a scalar is the
scalar that it stands for. If something cannot be merged in, the parts make
up a node of no sort. -/
def flat (tag : Tag) (keys values : List Node) : Node :=
  match if tag.isScalar then standing? keys values else none with
  | some text => scalar tag text
  | none =>
      match split? keys values with
      | none => sequence .unknown (keys ++ values)
      | some ((inKeys, inValues), (ownKeys, ownValues)) =>
          mapping tag (inKeys ++ ownKeys) (inValues ++ ownValues)

end Node

-- ============================================================ reading

/-- What is known while a document is read. -/
structure Names where
  /-- The handles of tags and what they stand for. -/
  handles : List (Text × Text)
  /-- The nodes with names. -/
  anchors : List (Text × Node)

/-- The handles that there always are. -/
def usualHandles : List (Text × Text) := [("!", "!"), ("!!", tagSpace)]

/-- What a node is given in front of it. -/
structure Properties where
  /-- Its name. -/
  anchor : Option Text
  /-- Its tag, written out. -/
  tag : Option Text

/-- The tag with its handle replaced. -/
def Names.tagName (names : Names) (handle : Option Text) (suffix : Text) : Except Fault Text :=
  match handle with
  | none => .ok suffix
  | some handle =>
      match names.handles.lookup handle with
      | some meaning => .ok (meaning ++ suffix)
      | none => .error .malformed

/-- Reads what a node is given. -/
def properties (names : Names) : List Token → Except Fault (Properties × List Token)
  | .anchor name :: .tag handle suffix :: rest
  | .tag handle suffix :: .anchor name :: rest => do
      return (⟨some name, some (← names.tagName handle suffix)⟩, rest)
  | .anchor name :: rest => .ok (⟨some name, none⟩, rest)
  | .tag handle suffix :: rest => do return (⟨none, some (← names.tagName handle suffix)⟩, rest)
  | rest => .ok (⟨none, none⟩, rest)

/-- The tag that is given in earnest; a mark alone says nothing. -/
def Properties.realTag? (p : Properties) : Option Text := p.tag.filter (· != ['!'])

/-- The sort of a collection. -/
def Properties.sort (p : Properties) (usual : Tag) : Tag := (p.realTag?.map Tag.ofName).getD usual

/-- The sort of a scalar. One in quotes shows no form, unless it is marked. -/
def Properties.scalarSort (p : Properties) (text : Text) (isPlain : Bool) : Tag :=
  match p.realTag? with
  | some name => .ofName name
  | none => if isPlain || p.tag.isSome then .ofForm text else .text

/-- Names a node. -/
def Names.add (names : Names) (anchor : Option Text) (node : Node) : Except Fault Names :=
  match anchor with
  | none => .ok names
  | some name =>
      if (names.anchors.lookup name).isSome then .error .malformed
      else .ok { names with anchors := (name, node) :: names.anchors }

/-- Puts the complete node in place of one that was begun. -/
def Names.settle (names : Names) (anchor : Option Text) (node : Node) : Names :=
  match anchor with
  | none => names
  | some name =>
      { names with
        anchors := names.anchors.map fun (n, old) => (n, if n = name then node else old) }

/-- What reading a node gives: the node, the names, the tokens behind it. -/
abbrev ReadNode := Except Fault (Node × Names × List Token)

/-- What reading several nodes gives. -/
abbrev ReadNodes := Except Fault (List Node × Names × List Token)

/-- Whether a token ends an entry of a block mapping. -/
def endsBlockEntry : List Token → Bool
  | .key :: _ | .value :: _ | .blockEnd :: _ => true
  | _ => false

/-- A node of which there is nothing but what it is given. -/
def emptyNode (names : Names) (p : Properties) (rest : List Token) : ReadNode := do
  let node := Node.scalar ((p.realTag?.map Tag.ofName).getD .null) []
  return (node, ← names.add p.anchor node, rest)

mutual

/-- Reads a node. Blocks are allowed in some places, and in fewer those
sequences that are not indented. -/
def readNode (limit : Nat) (blocks dashes : Bool) (names : Names) (tokens : List Token) :
    ReadNode :=
  match limit with
  | 0 => .error .malformed
  | limit + 1 =>
      match tokens with
      | .alias name :: rest =>
          match names.anchors.lookup name with
          | some node => .ok (node, names, rest)
          | none => .error .malformed
      | tokens => do
          let (p, tokens) ← properties names tokens
          let collection (isMapping : Bool) (read : Names → ReadNode) : ReadNode := do
            let names ← names.add p.anchor (.inner isMapping)
            let (node, names, rest) ← read names
            return (node, names.settle p.anchor node, rest)
          let sequence (read : Names → ReadNodes) : ReadNode :=
            collection false fun names => do
              let (members, names, rest) ← read names
              return (.sequence (p.sort .sequence) members, names, rest)
          let mapping (read : Names → Except Fault (List Node × List Node × Names × List Token)) :
              ReadNode :=
            collection true fun names => do
              let (keys, values, names, rest) ← read names
              return (Node.flat (p.sort .mapping) keys values, names, rest)
          match tokens with
          | .scalar text isPlain :: rest => do
              let node := Node.scalar (p.scalarSort text isPlain) text
              return (node, ← names.add p.anchor node, rest)
          | .flowSequence :: rest => sequence fun names => readFlow limit true names rest
          | .flowMapping :: rest => mapping fun names => readPairs limit true names rest
          | .blockEntry :: rest =>
              if dashes then sequence fun names => readDashes limit names (.blockEntry :: rest)
              else if p.anchor.isSome || p.tag.isSome then emptyNode names p (.blockEntry :: rest)
              else .error .malformed
          | .blockSequence :: rest =>
              if blocks then sequence fun names => readEntries limit names rest
              else if p.anchor.isSome || p.tag.isSome then
                emptyNode names p (.blockSequence :: rest)
              else .error .malformed
          | .blockMapping :: rest =>
              if blocks then mapping fun names => readBlockPairs limit names rest
              else if p.anchor.isSome || p.tag.isSome then emptyNode names p (.blockMapping :: rest)
              else .error .malformed
          | rest =>
              if p.anchor.isSome || p.tag.isSome then emptyNode names p rest
              else .error .malformed

/-- Reads the entries of a sequence that is written as a block. -/
def readEntries (limit : Nat) (names : Names) (tokens : List Token) : ReadNodes :=
  match limit with
  | 0 => .error .malformed
  | limit + 1 =>
      match tokens with
      | .blockEnd :: rest => .ok ([], names, rest)
      | .blockEntry :: rest => do
          let (node, names, rest) ← match rest with
            | .blockEntry :: _ | .blockEnd :: _ => pure (Node.absent, names, rest)
            | rest => readNode limit true false names rest
          let (nodes, names, rest) ← readEntries limit names rest
          return (node :: nodes, names, rest)
      | _ => .error .malformed

/-- Reads the entries of a sequence that is not indented. -/
def readDashes (limit : Nat) (names : Names) (tokens : List Token) : ReadNodes :=
  match limit with
  | 0 => .error .malformed
  | limit + 1 =>
      match tokens with
      | .blockEntry :: rest => do
          let (node, names, rest) ←
            if endsBlockEntry rest || rest.head? = some .blockEntry then
              pure (Node.absent, names, rest)
            else readNode limit true false names rest
          let (nodes, names, rest) ← readDashes limit names rest
          return (node :: nodes, names, rest)
      | rest => .ok ([], names, rest)

/-- Reads the pairs of a mapping that is written as a block. -/
def readBlockPairs (limit : Nat) (names : Names) (tokens : List Token) :
    Except Fault (List Node × List Node × Names × List Token) :=
  match limit with
  | 0 => .error .malformed
  | limit + 1 =>
      match tokens with
      | .blockEnd :: rest => .ok ([], [], names, rest)
      | .key :: rest => do
          let (key, names, rest) ←
            if endsBlockEntry rest then pure (Node.absent, names, rest)
            else readNode limit true true names rest
          let (value, names, rest) ← match rest with
            | .value :: rest =>
                if endsBlockEntry rest then pure (Node.absent, names, rest)
                else readNode limit true true names rest
            | rest => pure (Node.absent, names, rest)
          let (keys, values, names, rest) ← readBlockPairs limit names rest
          return (key :: keys, value :: values, names, rest)
      | _ => .error .malformed

/-- Reads the members of a sequence in brackets. `opening` says whether there
is none yet. A pair counts as a mapping of its own. -/
def readFlow (limit : Nat) (opening : Bool) (names : Names) (tokens : List Token) : ReadNodes :=
  match limit with
  | 0 => .error .malformed
  | limit + 1 => do
      let tokens ← match opening, tokens with
        | _, .flowSequenceEnd :: _ | true, _ => pure tokens
        | false, .flowEntry :: rest => pure rest
        | false, _ => throw .malformed
      match tokens with
      | .flowSequenceEnd :: rest => return ([], names, rest)
      | .key :: rest => do
          let ends : List Token → Bool
            | .flowEntry :: _ | .flowSequenceEnd :: _ => true
            | _ => false
          let (key, names, rest) ←
            if ends rest || rest.head? = some .value then pure (Node.absent, names, rest)
            else readNode limit false false names rest
          let (value, names, rest) ← match rest with
            | .value :: rest =>
                if ends rest then pure (Node.absent, names, rest)
                else readNode limit false false names rest
            | rest => pure (Node.absent, names, rest)
          let (nodes, names, rest) ← readFlow limit false names rest
          return (Node.flat .mapping [key] [value] :: nodes, names, rest)
      | tokens => do
          let (node, names, rest) ← readNode limit false false names tokens
          let (nodes, names, rest) ← readFlow limit false names rest
          return (node :: nodes, names, rest)

/-- Reads the pairs of a mapping in braces. -/
def readPairs (limit : Nat) (opening : Bool) (names : Names) (tokens : List Token) :
    Except Fault (List Node × List Node × Names × List Token) :=
  match limit with
  | 0 => .error .malformed
  | limit + 1 => do
      let tokens ← match opening, tokens with
        | _, .flowMappingEnd :: _ | true, _ => pure tokens
        | false, .flowEntry :: rest => pure rest
        | false, _ => throw .malformed
      let ends : List Token → Bool
        | .flowEntry :: _ | .flowMappingEnd :: _ => true
        | _ => false
      match tokens with
      | .flowMappingEnd :: rest => return ([], [], names, rest)
      | .key :: rest => do
          let (key, names, rest) ←
            if ends rest || rest.head? = some .value then pure (Node.absent, names, rest)
            else readNode limit false false names rest
          let (value, names, rest) ← match rest with
            | .value :: rest =>
                if ends rest then pure (Node.absent, names, rest)
                else readNode limit false false names rest
            | rest => pure (Node.absent, names, rest)
          let (keys, values, names, rest) ← readPairs limit false names rest
          return (key :: keys, value :: values, names, rest)
      | tokens => do
          let (key, names, rest) ← readNode limit false false names tokens
          let (keys, values, names, rest) ← readPairs limit false names rest
          return (key :: keys, Node.absent :: values, names, rest)

end

-- ========================================================== documents

/-- Reads the directives of a document. -/
def readDirectives (versioned : Bool) (handles : List (Text × Text)) :
    List Token → Except Fault (List (Text × Text) × List Token)
  | .directive (.version major) :: rest =>
      if versioned || major != 1 then .error .malformed else readDirectives true handles rest
  | .directive (.handle name meaning) :: rest =>
      if (handles.lookup name).isSome then .error .malformed
      else readDirectives versioned ((name, meaning) :: handles) rest
  | .directive .unknown :: rest => readDirectives versioned handles rest
  | rest => .ok (handles ++ usualHandles, rest)

/-- Refuses tokens behind the only document. -/
def endDocument (tokens : List Token) : Except Fault Unit :=
  if tokens.all (· == .documentEnd) then .ok () else .error .malformed

/-- Whether there is nothing in a document that has been begun. -/
def isEmptyDocument : List Token → Bool
  | [] | .directive _ :: _ | .documentStart :: _ | .documentEnd :: _ => true
  | _ => false

/-- The node that tokens make up; `none` if there is no document at all. -/
def Node.ofTokens (tokens : List Token) : Except Fault (Option Node) := do
  let limit := 4 * tokens.length + 4
  match tokens with
  | [] => return none
  | .directive _ :: _ | .documentStart :: _ =>
      match ← readDirectives false [] tokens with
      | (handles, .documentStart :: rest) =>
          let (node, rest) ←
            if isEmptyDocument rest then pure (Node.absent, rest)
            else do
              let (node, _, rest) ← readNode limit true false ⟨handles, []⟩ rest
              pure (node, rest)
          endDocument rest
          return some node
      | _ => throw .malformed
  | tokens =>
      let (node, _, rest) ← readNode limit true false ⟨usualHandles, []⟩ tokens
      endDocument rest
      return some node

end FeedSieve.Yaml
