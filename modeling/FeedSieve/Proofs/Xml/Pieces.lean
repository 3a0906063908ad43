/-
Written documents in pieces.

A written tree is a row of pieces: tags and the texts between them
(`Node.write_eq`). Where an element is laid out, white space stands between
the pieces of its children (`pieces_laidOut`). What is said about reading is
said about rows of pieces, since a scanner does not know of trees.

Reading takes the line ends of a document for one character each, and this
too can be done piece by piece (`unifyLines_writePieces`), as long as a text
with a return in it is not followed by another text.
-/
import FeedSieve.Proofs.Xml.Escape

namespace FeedSieve.Xml

variable {name t : Text} {attributes : List (Text × Text)} {children : List Node} {depth : Nat}

-- ============================================================= pieces

/-- A piece of a written document. -/
inductive Piece where
  /-- Text between tags. -/
  | text (t : Text)
  /-- A start tag. -/
  | opens (name : Text) (attributes : List (Text × Text))
  /-- An end tag. -/
  | closes (name : Text)
  /-- The tag of an element with nothing in it. -/
  | void (name : Text) (attributes : List (Text × Text))

/-- The beginning of a start tag. -/
def tagStart (name : Text) (attributes : List (Text × Text)) : Text :=
  '<' :: name ++ attributes.flatMap writeAttribute

/-- A piece as it is written. -/
def Piece.write : Piece → Text
  | .text t => escapeText t
  | .opens name attributes => tagStart name attributes ++ ['>']
  | .closes name => Text.concat ["</", name, ">"]
  | .void name attributes => tagStart name attributes ++ " />".toList

/-- A row of pieces as it is written. -/
def writePieces (pieces : List Piece) : Text := pieces.flatMap Piece.write

@[simp] theorem writePieces_nil : writePieces [] = [] := rfl

@[simp] theorem writePieces_cons (piece : Piece) (rest : List Piece) :
    writePieces (piece :: rest) = piece.write ++ writePieces rest := List.flatMap_cons

@[simp] theorem writePieces_append (pieces rest : List Piece) :
    writePieces (pieces ++ rest) = writePieces pieces ++ writePieces rest := List.flatMap_append

mutual

/-- The pieces of a node. -/
def Node.pieces : Node → List Piece
  | .text t => [.text t]
  | .element name attributes children =>
      if children.all Node.isVoid then [.void name attributes]
      else .opens name attributes :: piecesAll children ++ [.closes name]

/-- The pieces of nodes, one after another. -/
def piecesAll : List Node → List Piece
  | [] => []
  | node :: rest => node.pieces ++ piecesAll rest

end

mutual

/-- A node is written piece by piece. -/
theorem Node.write_eq : (node : Node) → node.write = writePieces node.pieces
  | .text t => by simp [Node.write, Node.pieces, Piece.write]
  | .element name attributes children => by
      rw [Node.write, Node.pieces]
      split
      case isTrue => simp [Piece.write, tagStart]
      case isFalse => simp [Piece.write, tagStart, Text.concat, writeAll_eq children]

/-- So are nodes. -/
theorem writeAll_eq : (nodes : List Node) → writeAll nodes = writePieces (piecesAll nodes)
  | [] => rfl
  | node :: rest => by
      rw [writeAll, piecesAll, writePieces_append, node.write_eq, writeAll_eq rest]

end

@[simp] theorem piecesAll_append (nodes rest : List Node) :
    piecesAll (nodes ++ rest) = piecesAll nodes ++ piecesAll rest := by
  induction nodes with
  | nil => rfl
  | cons node nodes ih => rw [List.cons_append, piecesAll, piecesAll, ih, List.append_assoc]

-- ============================================================= layout

/-- A line end and the blanks at the beginning of a line at some depth. -/
def line (depth : Nat) : Text := '\n' :: List.replicate (2 * depth) ' '

/-- The pieces of laid out nodes, each behind a line end. -/
private theorem piecesAll_layOut (nodes : List Node) (depth : Nat) :
    piecesAll ((layOutAll depth nodes).flatMap fun child => [lineAt depth, child])
      = nodes.flatMap fun child => .text (line depth) :: (child.laidOut depth).pieces := by
  induction nodes with
  | nil => rfl
  | cons node rest ih =>
      rw [layOutAll, List.flatMap_cons, piecesAll_append, ih, List.flatMap_cons]
      simp [piecesAll, lineAt, Node.pieces, line]

/-- An element that holds elements is laid out, one of them a line. -/
theorem pieces_laidOut (hne : children ≠ []) (hall : children.all Node.isElement = true) :
    ((Node.element name attributes children).laidOut depth).pieces
      = .opens name attributes
        :: (children.flatMap fun child =>
          .text (line (depth + 1)) :: (child.laidOut (depth + 1)).pieces)
        ++ [.text (line depth), .closes name] := by
  rw [Node.laidOut]
  have hlaid : (children.isEmpty || !children.all Node.isElement) = false := by
    simp [hall, hne]
  simp only [hlaid, Bool.false_eq_true, if_false]
  rw [Node.pieces, if_neg (by simp [lineAt, Node.isVoid]), piecesAll_append, piecesAll_layOut]
  simp [piecesAll, lineAt, Node.pieces, line]

/-- The pieces of an element that holds a text or nothing. -/
def leafPieces (name : Text) (attributes : List (Text × Text)) (t : Text) : List Piece :=
  if t.isEmpty then [.void name attributes]
  else [.opens name attributes, .text t, .closes name]

/-- An element that holds a text is left as it is. -/
theorem pieces_laidOut_text (name : Text) (attributes : List (Text × Text)) (t : Text)
    (depth : Nat) :
    ((Node.element name attributes [.text t]).laidOut depth).pieces
      = leafPieces name attributes t := by
  rw [Node.laidOut, leafPieces]
  simp only [layOutAll, Node.laidOut, List.isEmpty_cons, List.all_cons, Node.isElement,
    Bool.false_and, Bool.not_false, Bool.or_true, if_true]
  rw [Node.pieces]
  simp only [List.all_cons, List.all_nil, Node.isVoid, Bool.and_true]
  split
  case isTrue => rfl
  case isFalse => simp [piecesAll, Node.pieces]

/-- So is one that holds nothing. -/
theorem pieces_laidOut_nil (name : Text) (attributes : List (Text × Text)) (depth : Nat) :
    ((Node.element name attributes []).laidOut depth).pieces = [.void name attributes] := by
  rw [Node.laidOut]
  simp [layOutAll, Node.pieces]

-- ========================================================== line ends

/-- A piece with its line ends as one character each. -/
def Piece.unified : Piece → Piece
  | .text t => .text (unifyLines t)
  | piece => piece

/-- Whether a row begins with a text. -/
def beginsWithText : List Piece → Bool
  | .text _ :: _ => true
  | _ => false

/-- No return is at the end of a text that another text follows, and none is
in a name. -/
def Tame : List Piece → Prop
  | [] => True
  | .text t :: rest => ('\r' ∉ t ∨ beginsWithText rest = false) ∧ Tame rest
  | .opens name attributes :: rest | .void name attributes :: rest =>
      '\r' ∉ name ∧ (∀ a ∈ attributes, '\r' ∉ a.1) ∧ Tame rest
  | .closes name :: rest => '\r' ∉ name ∧ Tame rest

/-- No attribute is written with a return. -/
private theorem notMem_tagStart (hname : '\r' ∉ name) (hkeys : ∀ a ∈ attributes, '\r' ∉ a.1) :
    '\r' ∉ tagStart name attributes := by
  have hattributes : '\r' ∉ attributes.flatMap writeAttribute := by
    rw [List.mem_flatMap]
    rintro ⟨a, ha, hmem⟩
    have hvalue : '\r' ∉ escapeAttribute a.2 := fun h =>
      absurd ((notMem_escapeAttribute a.2).2.2 _ h (by decide)) (by decide)
    simp only [writeAttribute, Text.concat, List.flatten_cons, List.flatten_nil, List.mem_append]
      at hmem
    rcases hmem with h | h | h | h | h | h
    · exact absurd h (by decide)
    · exact hkeys a ha h
    · exact absurd h (by decide)
    · exact hvalue h
    · exact absurd h (by decide)
    · cases h
  unfold tagStart
  simp only [List.cons_append, List.mem_cons, List.mem_append]
  rintro (h | h | h)
  · exact absurd h (by decide)
  · exact hname h
  · exact hattributes h

/-- Every character is written. -/
theorem textChar_ne_nil (c : Char) : textChar c ≠ [] := by
  unfold textChar
  split
  · decide
  · split
    · decide
    · split <;> simp

/-- A text begins with a line end if its escaped form does. -/
private theorem head?_escapeText (t : Text) (h : (escapeText t).head? = some '\n') :
    t.head? = some '\n' := by
  cases t with
  | nil => cases h
  | cons c t =>
      by_contra hne
      have hfirst : (textChar c).head? ≠ some '\n' := by
        unfold textChar
        split
        · decide
        · split
          · decide
          · split
            · decide
            · exact hne
      rw [escapeText, List.flatMap_cons, List.head?_append_of_ne_nil _ (textChar_ne_nil c)] at h
      exact hfirst h

/-- The line ends of a text may be made one character before or after it is
escaped, unless a line end follows it. -/
theorem unifyLines_escapeText_append (t rest : Text) (h : rest.head? ≠ some '\n') :
    unifyLines (escapeText t ++ rest) = escapeText (unifyLines t) ++ unifyLines rest := by
  induction t using unifyLines.induct with
  | case1 => rfl
  | case2 t ih =>
      show unifyLines ('\r' :: '\n' :: (escapeText t ++ rest)) = '\n' :: _
      rw [unifyLines, ih]
      rfl
  | case3 t hnot ih =>
      have hhead : ∀ s, escapeText t ++ rest = '\n' :: s → False := by
        intro s hs
        have hfirst : (escapeText t ++ rest).head? = some '\n' := by rw [hs]; rfl
        cases t with
        | nil => exact h hfirst
        | cons c t =>
            have hne : escapeText (c :: t) ≠ [] := by
              rw [escapeText, List.flatMap_cons]
              exact List.append_ne_nil_of_left_ne_nil (textChar_ne_nil c) _
            rw [List.head?_append_of_ne_nil _ hne] at hfirst
            obtain rfl := Option.some.inj (head?_escapeText _ hfirst)
            exact hnot t rfl
      show unifyLines ('\r' :: (escapeText t ++ rest)) = _
      rw [unifyLines, unifyLines, ih]
      · rfl
      · exact hnot
      · exact hhead
  | case4 c t _ hc ih =>
      have hchar : '\r' ∉ textChar c := fun hmem =>
        forall_mem_textChar (p := (· ≠ '\r')) (by decide) (fun _ _ _ h => hc h) _ hmem rfl
      show unifyLines (textChar c ++ escapeText t ++ rest) = _
      rw [unifyLines_cons hc, List.append_assoc, unifyLines_append_of_notMem hchar, ih,
        ← List.append_assoc]
      rfl

/-- A written piece that is no text begins with a tag. -/
private theorem head?_writePieces (pieces : List Piece) (h : beginsWithText pieces = false) :
    (writePieces pieces).head? ≠ some '\n' := by
  cases pieces with
  | nil => decide
  | cons piece rest =>
      cases piece with
      | text t => cases h
      | opens | closes | void => exact fun h => absurd (Option.some.inj h) (by decide)

/-- Line ends may be made one character piece by piece. -/
theorem unifyLines_writePieces {pieces : List Piece} (h : Tame pieces) :
    unifyLines (writePieces pieces) = writePieces (pieces.map Piece.unified) := by
  induction pieces with
  | nil => rfl
  | cons piece rest ih =>
      rw [List.map_cons, writePieces_cons, writePieces_cons]
      cases piece with
      | text t =>
          obtain ⟨hfollowed, hrest⟩ := h
          rw [← ih hrest]
          rcases hfollowed with hnot | hnext
          · have hplain : '\r' ∉ escapeText t := fun hmem => by
              obtain ⟨c, hc, hmem⟩ := List.mem_flatMap.mp hmem
              exact forall_mem_textChar (p := (· ≠ '\r')) (by decide)
                (fun _ _ _ h => hnot (h ▸ hc)) _ hmem rfl
            rw [Piece.write, Piece.unified, unifyLines_of_notMem hnot,
              unifyLines_append_of_notMem hplain]
            rfl
          · exact unifyLines_escapeText_append t _ (head?_writePieces rest hnext)
      | opens name attributes =>
          obtain ⟨hname, hkeys, hrest⟩ := h
          rw [← ih hrest]
          refine unifyLines_append_of_notMem ?_ _
          rw [Piece.write, List.mem_append, not_or]
          exact ⟨notMem_tagStart hname hkeys, by decide⟩
      | void name attributes =>
          obtain ⟨hname, hkeys, hrest⟩ := h
          rw [← ih hrest]
          refine unifyLines_append_of_notMem ?_ _
          rw [Piece.write, List.mem_append, not_or]
          exact ⟨notMem_tagStart hname hkeys, by decide⟩
      | closes name =>
          obtain ⟨hname, hrest⟩ := h
          rw [← ih hrest]
          refine unifyLines_append_of_notMem ?_ _
          simpa [Piece.write, Text.concat] using hname

end FeedSieve.Xml
