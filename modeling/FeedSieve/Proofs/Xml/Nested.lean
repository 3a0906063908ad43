/-
What is written nests.

A tree is proper if its names have no prefix, its characters may stand in a
document, and each of its elements holds one text or nothing but elements
(`Proper`). Whatever way such a tree is laid out, a reader finds its events:
every element begins and ends where it does in the tree, with the texts that
were written, and between elements there is the white space of the layout
(`events?_laidOut`).

The pieces of a tree close every element that they open
(`Proper.closes_append`); that each token is accepted where it stands is then
an induction on the pieces (`foldlM_step`), which knows no more of a tree than
the names of the elements still open.
-/
import FeedSieve.Proofs.Xml.Scanned
import FeedSieve.Xml.Event

namespace FeedSieve.Xml

variable {name t before : Text} {attributes : List (Text × Text)} {names : List Text}
  {children : List Node} {depth : Nat} {rest : List Piece} {events : List Event} {typed : Bool}

-- ============================================================== events

/-- The beginning of an element whose names have no prefix. -/
def startOf (name : Text) (attributes : List (Text × Text)) : Event :=
  .start [] ⟨[], name⟩ (attributes.map fun a => (⟨[], a.1⟩, a.2))

/-- The event of the text between two tags. -/
def textEvents (t : Text) : List Event := if t.isEmpty then [] else [.text t]

/-- The events of a row of pieces; `before` is the text since the last tag. -/
def eventsOf (before : Text) : List Piece → List Event
  | [] => textEvents before
  | .text t :: rest => eventsOf (before ++ t) rest
  | .opens name attributes :: rest =>
      textEvents before ++ startOf name attributes :: eventsOf [] rest
  | .void name attributes :: rest =>
      textEvents before ++ startOf name attributes :: .finish :: eventsOf [] rest
  | .closes _ :: rest => textEvents before ++ .finish :: eventsOf [] rest

/-- Whether a row of pieces ends the elements that are open, the innermost
first, and nothing stands behind. -/
def closes : List Text → List Piece → Bool
  | [], pieces => pieces.isEmpty
  | _ :: _, [] => false
  | opened :: outer, .text _ :: rest => closes (opened :: outer) rest
  | opened :: outer, .opens name _ :: rest => closes (name :: opened :: outer) rest
  | opened :: outer, .void _ _ :: rest => closes (opened :: outer) rest
  | opened :: outer, .closes name :: rest => opened == name && closes outer rest

-- ============================================================= nesting

/-- Nothing is asked of keys but that they differ and bind no prefix. -/
structure Unbound (attributes : List (Text × Text)) : Prop where
  plain : ∀ a ∈ attributes, Plain a.1 ∧ a.1 ≠ "xmlns".toList
  differ : allDiffer (attributes.map (·.1)) = true

/-- A piece that may stand within an element and binds no prefix. -/
def Piece.Fit : Piece → Prop
  | .text t => (Piece.text t).Legal
  | .opens name attributes => (Piece.opens name attributes).Legal ∧ Unbound attributes
  | .void name attributes => (Piece.void name attributes).Legal ∧ Unbound attributes
  | .closes name => (Piece.closes name).Legal

/-- Such a piece is legal. -/
theorem Piece.Fit.legal {piece : Piece} (h : piece.Fit) : piece.Legal := by
  cases piece with
  | text | closes => exact h
  | opens | void => exact h.1

namespace Nesting

/-- An open element in which no prefix has been bound. -/
private def within (name : Text) : Text × List (Text × Text) := (name, [("xml".toList, xmlSpace)])

/-- A name without a prefix stands for itself. -/
private theorem expand?_plain (h : Plain name) (bindings : List (Text × Text)) :
    expand? bindings [] name = some ⟨[], name⟩ := by
  unfold expand? cutPrefix?
  rw [Text.splitOn_of_notMem h.colon]
  rfl

/-- A key without a prefix binds nothing. -/
private theorem bindingOf?_eq_none {a : Text × Text} (h : Plain a.1) (hne : a.1 ≠ "xmlns".toList) :
    bindingOf? a = none := by
  have hcolon : Text.after? "xmlns:" a.1 = none := by
    rw [Option.eq_none_iff_forall_ne_some]
    intro rest hrest
    refine h.colon ?_
    rw [Text.after?_eq_some_iff.mp hrest]
    exact List.mem_append_left _ (by decide)
  rw [bindingOf?, if_neg hne, hcolon]
  rfl

/-- Members that differ still do under other names. -/
private theorem allDiffer_map (texts : List Text) :
    allDiffer (texts.map fun t => (⟨[], t⟩ : Name)) = allDiffer texts := by
  induction texts with
  | nil => rfl
  | cons t texts ih =>
      have hcontains : (texts.map fun t => (⟨[], t⟩ : Name)).contains ⟨[], t⟩
          = texts.contains t := by
        rw [Bool.eq_iff_iff, List.contains_iff_mem, List.contains_iff_mem, List.mem_map]
        exact ⟨fun ⟨u, hu, heq⟩ => (Name.mk.inj heq).2 ▸ hu, fun h => ⟨t, h, rfl⟩⟩
      rw [List.map_cons, allDiffer, allDiffer, hcontains, ih]

/-- An element begins wherever an element is open, and the outermost one at
the beginning. -/
private theorem begin?_eq {begun : Bool} (hname : Plain name) (hattributes : Unbound attributes)
    (hroom : names = [] → begun = false) (closed : Bool) :
    begin? ⟨names.map within, events, begun, typed⟩ name attributes closed = some
      (if closed then
        ⟨names.map within, .finish :: startOf name attributes :: events, true, typed⟩
      else ⟨(name :: names).map within, startOf name attributes :: events, true, typed⟩) := by
  have hnone : ∀ a ∈ attributes, bindingOf? a = none := fun a ha =>
    bindingOf?_eq_none (hattributes.plain a ha).1 (hattributes.plain a ha).2
  have hown : attributes.filterMap bindingOf? = [] := List.filterMap_eq_nil_iff.mpr hnone
  have hproper : attributes.filter (fun a => (bindingOf? a).isNone) = attributes :=
    List.filter_eq_self.mpr fun a ha => by rw [hnone a ha]; rfl
  have hnamed (bindings : List (Text × Text)) :
      (attributes.mapM fun a => (expand? bindings [] a.1).map fun name => (name, a.2))
        = some (attributes.map fun a => ((⟨[], a.1⟩ : Name), a.2)) := by
    have hall := fun a ha => (hattributes.plain a ha).1
    clear hattributes hnone hown hproper
    induction attributes with
    | nil => rfl
    | cons a attributes ih =>
        rw [List.mapM_cons, expand?_plain (hall a List.mem_cons_self),
          ih fun a ha => hall a (List.mem_cons_of_mem _ ha)]
        rfl
  have hdiffer : allDiffer ((attributes.map fun a => ((⟨[], a.1⟩ : Name), a.2)).map (·.1))
      = true := by
    rw [List.map_map, ← hattributes.differ, ← allDiffer_map, List.map_map]
    rfl
  have hspace : (List.lookup [] [("xml".toList, xmlSpace)]).getD [] = ([] : Text) := rfl
  cases names with
  | nil =>
      obtain rfl := hroom rfl
      simp only [begin?, List.map_nil, List.isEmpty_nil, Bool.and_false, hown, hproper,
        hattributes.differ, List.nil_append, hspace, expand?_plain hname, hnamed, hdiffer,
        List.all_nil, Bool.not_true, Bool.or_self, Bool.false_eq_true, if_false, Option.bind_some,
        bind, pure]
      cases closed <;> rfl
  | cons opened outer =>
      simp only [begin?, List.map_cons, within, List.isEmpty_cons, Bool.false_and, hown, hproper,
        hattributes.differ, List.nil_append, hspace, expand?_plain hname, hnamed, hdiffer,
        List.all_nil, Bool.not_true, Bool.or_self, Bool.false_eq_true, if_false, Option.bind_some,
        bind, pure]
      cases closed <;> rfl

/-- The text between two tags is accepted within an element. -/
private theorem foldlM_textTokens (opened : Text) (t : Text) :
    (textTokens t).foldlM step ⟨(opened :: names).map within, events, true, typed⟩
      = some ⟨(opened :: names).map within, (textEvents t).reverse ++ events, true, typed⟩ := by
  unfold textTokens textEvents
  split
  case isTrue => rfl
  case isFalse => split <;> rfl

/-- What closes the open elements is accepted. -/
private theorem foldlM_step {pieces : List Piece} (hfit : ∀ p ∈ pieces, p.Fit)
    (hcloses : closes names pieces = true) (hbefore : names = [] → before = []) :
    (tokensOf before pieces).foldlM step ⟨names.map within, events, true, typed⟩
      = some ⟨[], (eventsOf before pieces).reverse ++ events, true, typed⟩ := by
  induction pieces generalizing names before events with
  | nil =>
      cases names with
      | nil =>
          rw [hbefore rfl]
          rfl
      | cons opened outer => cases hcloses
  | cons piece rest ih =>
      cases names with
      | nil => cases hcloses
      | cons opened outer =>
          obtain ⟨hfirst, hrest⟩ := List.forall_mem_cons.mp hfit
          cases piece with
          | text t => exact ih hrest hcloses (fun h => by cases h)
          | opens name attributes =>
              have hgo : (tokensOf [] rest).foldlM step ⟨(name :: opened :: outer).map within,
                  startOf name attributes :: ((textEvents before).reverse ++ events), true, typed⟩
                    = _ :=
                ih hrest hcloses fun _ => rfl
              rw [tokensOf, List.foldlM_append, foldlM_textTokens]
              simp only [bind, Option.bind_some, List.foldlM_cons, step]
              rw [begin?_eq hfirst.1.1 hfirst.2 (fun h => by cases h)]
              simp only [Option.bind_some, Bool.false_eq_true, if_false]
              rw [hgo, eventsOf]
              simp
          | void name attributes =>
              have hgo : (tokensOf [] rest).foldlM step ⟨(opened :: outer).map within,
                  .finish :: startOf name attributes :: ((textEvents before).reverse ++ events),
                  true, typed⟩ = _ :=
                ih hrest hcloses fun _ => rfl
              rw [tokensOf, List.foldlM_append, foldlM_textTokens]
              simp only [bind, Option.bind_some, List.foldlM_cons, step]
              rw [begin?_eq hfirst.1.1 hfirst.2 (fun h => by cases h)]
              simp only [Option.bind_some, if_true]
              rw [hgo, eventsOf]
              simp
          | closes name =>
              obtain ⟨hsame, hcloses⟩ := Bool.and_eq_true_iff.mp hcloses
              have hgo : (tokensOf [] rest).foldlM step ⟨outer.map within,
                  .finish :: ((textEvents before).reverse ++ events), true, typed⟩ = _ :=
                ih hrest hcloses fun _ => rfl
              rw [tokensOf, List.foldlM_append, foldlM_textTokens]
              simp only [bind, Option.bind_some, List.foldlM_cons, step, List.map_cons, within]
              rw [if_pos (beq_iff_eq.mp hsame), Option.bind_some, hgo, eventsOf]
              simp

end Nesting

/-- The events of pieces that make up one element, in a line of their own. -/
private theorem events?_writePieces {pieces : List Piece}
    (htame : Tame (.opens name attributes :: pieces))
    (hfit : ∀ p ∈ (Piece.opens name attributes :: pieces).map Piece.unified, p.Fit)
    (hcloses : closes [name] (pieces.map Piece.unified) = true) :
    events? ('\n' :: writePieces (.opens name attributes :: pieces))
      = some (eventsOf [] ((Piece.opens name attributes :: pieces).map Piece.unified)) := by
  obtain ⟨hfirst, hrest⟩ := List.forall_mem_cons.mp hfit
  have htokens : tokens? ('\n' :: writePieces (.opens name attributes :: pieces))
      = some (.blank ['\n'] :: .start name attributes false
        :: tokensOf [] (pieces.map Piece.unified)) := by
    have hlegal : ∀ p ∈ (Piece.text ['\n'] :: .opens name attributes :: pieces).map Piece.unified,
        p.Legal :=
      List.forall_mem_cons.mpr ⟨by simp [Piece.unified, Piece.Legal, unifyLines, isChar, inRanges],
        fun p hp => (hfit p hp).legal⟩
    have htamed : Tame (.text ['\n'] :: .opens name attributes :: pieces) :=
      ⟨.inl (by decide), htame⟩
    exact tokens?_writePieces htamed hlegal
  have hinner : (tokensOf [] (pieces.map Piece.unified)).foldlM Nesting.step
      ⟨[name].map Nesting.within, [startOf name attributes], true, false⟩ = _ :=
    Nesting.foldlM_step hrest hcloses fun h => by cases h
  have hbegin : Nesting.begin? ⟨([] : List Text).map Nesting.within, [], false, false⟩ name
      attributes false = _ :=
    Nesting.begin?_eq hfirst.1.1 hfirst.2 (fun _ => rfl) false
  unfold events?
  rw [htokens]
  simp only [bind, Option.bind_some, List.foldlM_cons, Nesting.step, List.isEmpty_nil, if_true]
  rw [List.map_nil] at hbegin
  rw [hbegin]
  simp only [Bool.false_eq_true, if_false, Option.bind_some]
  rw [hinner]
  simp [eventsOf, Piece.unified, textEvents, pure]

-- =============================================================== trees

/-- A tree that can be written and read: each element holds one text, or
nothing but elements. -/
inductive Proper : Node → Prop where
  | leaf (name : Text) (attributes : List (Text × Text)) (t : Text)
      (fit : (Piece.opens name attributes).Fit) (legal : ∀ c ∈ t, isChar c = true) :
      Proper (.element name attributes [.text t])
  | row (name : Text) (attributes : List (Text × Text)) (children : List Node)
      (fit : (Piece.opens name attributes).Fit) (all : ∀ child ∈ children, Proper child) :
      Proper (.element name attributes children)

mutual

/-- The events of a tree that is laid out. -/
def Node.events (depth : Nat) : Node → List Event
  | .text t => textEvents (unifyLines t)
  | .element name attributes children =>
      let inner := match children with
        | [] => []
        | [.text t] => textEvents (unifyLines t)
        | children => eventsAll (depth + 1) children ++ [.text (line depth)]
      startOf name attributes :: inner ++ [.finish]

/-- The events of elements, each in a line of its own. -/
def eventsAll (depth : Nat) : List Node → List Event
  | [] => []
  | child :: rest => .text (line depth) :: child.events depth ++ eventsAll depth rest

end

/-- The events of an element that holds a text. -/
theorem Node.events_leaf (name : Text) (attributes : List (Text × Text)) (t : Text) (depth : Nat) :
    (Node.element name attributes [.text t]).events depth
      = startOf name attributes :: textEvents (unifyLines t) ++ [.finish] := by
  rw [Node.events]

/-- The events of an element that holds nothing. -/
theorem Node.events_void (name : Text) (attributes : List (Text × Text)) (depth : Nat) :
    (Node.element name attributes []).events depth = [startOf name attributes, .finish] := by
  rw [Node.events]
  rfl

/-- The events of an element that holds elements. -/
theorem Node.events_row (hne : children ≠ []) (hall : ∀ child ∈ children, child.isElement = true) :
    (Node.element name attributes children).events depth
      = startOf name attributes :: (eventsAll (depth + 1) children ++ [.text (line depth)])
        ++ [.finish] := by
  rw [Node.events]
  · exact fun h => hne h
  · rintro t rfl
    exact absurd (hall _ List.mem_cons_self) Bool.false_ne_true

theorem eventsAll_append (depth : Nat) (nodes more : List Node) :
    eventsAll depth (nodes ++ more) = eventsAll depth nodes ++ eventsAll depth more := by
  induction nodes with
  | nil => rfl
  | cons node nodes ih => simp [eventsAll, ih]

/-- What the pieces of an element amount to, whatever follows them. -/
private structure Amounts (pieces : List Piece) (events : List Event) : Prop where
  tame : ∀ rest, Tame rest → Tame (pieces ++ rest)
  fit : ∀ p ∈ pieces.map Piece.unified, p.Fit
  closed : ∀ opened outer rest,
    closes (opened :: outer) (pieces.map Piece.unified ++ rest) = closes (opened :: outer) rest
  events : ∀ before rest,
    eventsOf before (pieces.map Piece.unified ++ rest)
      = textEvents before ++ events ++ eventsOf [] rest

/-- Names have no returns in them. -/
private theorem Plain.notMem (h : Plain name) : '\r' ∉ name := by
  intro hmem
  cases name with
  | nil => cases hmem
  | cons c rest =>
      obtain ⟨hfirst, hrest⟩ := Bool.and_eq_true_iff.mp h.isName
      rcases List.mem_cons.mp hmem with rfl | hmem
      · exact absurd hfirst (by decide +kernel)
      · exact absurd (List.all_eq_true.mp hrest _ hmem) (by decide +kernel)

/-- Legal texts stay so when their line ends are made one character. -/
private theorem isChar_unifyLines (h : ∀ c ∈ t, isChar c = true) :
    ∀ c ∈ unifyLines t, isChar c = true := by
  have hend : isChar '\n' = true := by decide
  induction t using unifyLines.induct with
  | case1 => exact h
  | case2 t ih =>
      rw [unifyLines, List.forall_mem_cons]
      exact ⟨hend, ih fun c hc => h c (List.mem_cons_of_mem _ (List.mem_cons_of_mem _ hc))⟩
  | case3 t hnot ih =>
      rw [unifyLines, List.forall_mem_cons]
      · exact ⟨hend, ih fun c hc => h c (List.mem_cons_of_mem _ hc)⟩
      · exact hnot
  | case4 c t _ hc ih =>
      obtain ⟨hfirst, hrest⟩ := List.forall_mem_cons.mp h
      rw [unifyLines_cons hc, List.forall_mem_cons]
      exact ⟨hfirst, ih hrest⟩

/-- So it is with an element that holds a text or nothing. -/
private theorem amounts_leafPieces (hfit : (Piece.opens name attributes).Fit)
    (hlegal : ∀ c ∈ t, isChar c = true) :
    Amounts (leafPieces name attributes t)
      (startOf name attributes :: textEvents (unifyLines t) ++ [.finish]) := by
  have hname := Plain.notMem hfit.1.1
  have hkeys : ∀ a ∈ attributes, '\r' ∉ a.1 := fun a ha => Plain.notMem (hfit.1.2 a ha).1
  unfold leafPieces
  split
  case isTrue hempty =>
    rw [List.isEmpty_iff] at hempty
    subst hempty
    exact ⟨fun rest hrest => ⟨hname, hkeys, hrest⟩,
      fun p hp => (by obtain rfl := List.mem_singleton.mp hp; exact hfit),
      fun opened outer rest => rfl,
      fun before rest => by simp [Piece.unified, eventsOf, textEvents, unifyLines]⟩
  case isFalse =>
    refine ⟨fun rest hrest => ⟨hname, hkeys, .inr rfl, hname, hrest⟩, ?_, ?_, ?_⟩
    · simp only [List.map_cons, List.map_nil, Piece.unified, List.forall_mem_cons]
      exact ⟨hfit, isChar_unifyLines hlegal, hfit.1.1, fun p hp => by cases hp⟩
    · intro opened outer rest
      simp [Piece.unified, closes]
    · intro before rest
      simp [Piece.unified, eventsOf]

/-- The characters of the layout. -/
private theorem mem_line {c : Char} (h : c ∈ line depth) : c = '\n' ∨ c = ' ' := by
  rcases List.mem_cons.mp h with h | h
  · exact .inl h
  · exact .inr (List.eq_of_mem_replicate h)

private theorem notMem_line : '\r' ∉ line depth := fun h => by
  rcases mem_line h with h | h <;> exact absurd h (by decide)

private theorem isChar_line : ∀ c ∈ line depth, isChar c = true := fun c h => by
  rcases mem_line h with rfl | rfl <;> decide

private theorem unifyLines_line : unifyLines (line depth) = line depth :=
  unifyLines_of_notMem notMem_line

/-- And with elements, each in a line of its own. -/
private theorem amounts_lines
    (h : ∀ child ∈ children, Amounts (child.laidOut depth).pieces (child.events depth)) :
    let pieces := children.flatMap fun child => .text (line depth) :: (child.laidOut depth).pieces
    (∀ rest, Tame rest → Tame (pieces ++ rest)) ∧ (∀ p ∈ pieces.map Piece.unified, p.Fit)
      ∧ (∀ opened outer rest,
        closes (opened :: outer) (pieces.map Piece.unified ++ rest) = closes (opened :: outer) rest)
      ∧ ∀ rest, eventsOf [] (pieces.map Piece.unified ++ rest)
        = eventsAll depth children ++ eventsOf [] rest := by
  induction children with
  | nil => exact ⟨fun rest h => h, fun p hp => (by cases hp), fun opened outer rest => rfl,
      fun rest => rfl⟩
  | cons child children ih =>
      obtain ⟨hfirst, hrest⟩ := List.forall_mem_cons.mp h
      obtain ⟨htame, hfit, hclosed, hevents⟩ := ih hrest
      simp only [List.flatMap_cons, List.map_append, List.map_cons, Piece.unified, unifyLines_line,
        List.cons_append, List.append_assoc] at *
      refine ⟨fun rest hr => ⟨.inl notMem_line, hfirst.tame _ (htame rest hr)⟩, ?_, ?_, ?_⟩
      · rw [List.forall_mem_cons, List.forall_mem_append]
        exact ⟨isChar_line, hfirst.fit, hfit⟩
      · intro opened outer rest
        rw [closes, hfirst.closed, hclosed]
      · intro rest
        rw [eventsOf, hfirst.events, hevents, eventsAll]
        simp [textEvents, line]

/-- A proper tree is an element. -/
private theorem Proper.isElement {node : Node} (h : Proper node) : node.isElement = true := by
  cases h <;> rfl

/-- So it is with every proper tree. -/
private theorem Proper.amounts {node : Node} (h : Proper node) (depth : Nat) :
    Amounts (node.laidOut depth).pieces (node.events depth) := by
  induction h generalizing depth with
  | leaf name attributes t fit legal =>
      rw [pieces_laidOut_text, Node.events_leaf]
      exact amounts_leafPieces fit legal
  | row name attributes children fit all ih =>
      by_cases hne : children = []
      · subst hne
        rw [pieces_laidOut_nil, Node.events_void]
        exact amounts_leafPieces (t := []) fit (fun c hc => by cases hc)
      have hall : ∀ child ∈ children, child.isElement = true := fun child hc =>
        (all child hc).isElement
      rw [pieces_laidOut hne (List.all_eq_true.mpr hall), Node.events_row hne hall]
      obtain ⟨htame, hfit, hclosed, hevents⟩ := amounts_lines fun child hc => ih child hc (depth + 1)
      have hname := Plain.notMem fit.1.1
      have hkeys : ∀ a ∈ attributes, '\r' ∉ a.1 := fun a ha => Plain.notMem (fit.1.2 a ha).1
      simp only [List.cons_append, List.append_assoc, List.nil_append]
      refine ⟨fun rest hrest => ⟨hname, hkeys, ?_⟩, ?_, ?_, ?_⟩
      · show Tame (_ ++ [_, _] ++ rest)
        rw [List.append_assoc]
        exact htame _ ⟨.inl notMem_line, hname, hrest⟩
      · simp only [List.map_cons, List.map_append, Piece.unified, unifyLines_line,
          List.forall_mem_cons, List.forall_mem_append]
        exact ⟨fit, hfit, isChar_line, fit.1.1, fun p hp => by cases hp⟩
      · intro opened outer rest
        simp only [List.map_cons, List.map_append, Piece.unified, unifyLines_line, List.map_nil,
          List.cons_append, List.append_assoc, List.nil_append, closes, hclosed]
        simp
      · intro before rest
        simp only [List.map_cons, List.map_append, Piece.unified, unifyLines_line, List.map_nil,
          List.cons_append, List.append_assoc, List.nil_append, eventsOf, hevents]
        simp [textEvents, line]

-- =========================================================== documents

/-- What is read of a written tree are its events. -/
theorem events?_laidOut (h : Proper (.element name attributes children)) (hne : children ≠ [])
    (hall : ∀ child ∈ children, child.isElement = true) :
    events? ('\n' :: ((Node.element name attributes children).laidOut 0).write)
      = some ((Node.element name attributes children).events 0) := by
  cases h with
  | leaf name attributes t => exact absurd (hall _ List.mem_cons_self) Bool.false_ne_true
  | row _ _ _ fit all =>
      obtain ⟨htame, hfit, hclosed, hevents⟩ := amounts_lines
        fun child hc => (all child hc).amounts 1
      have hname := Plain.notMem fit.1.1
      have hkeys : ∀ a ∈ attributes, '\r' ∉ a.1 := fun a ha => Plain.notMem (fit.1.2 a ha).1
      rw [Node.write_eq, pieces_laidOut hne (List.all_eq_true.mpr hall), Node.events_row hne hall,
        List.cons_append, events?_writePieces]
      · simp only [List.map_cons, List.map_append, Piece.unified, unifyLines_line, List.map_nil,
          eventsOf, hevents]
        simp [textEvents, line]
      · exact ⟨hname, hkeys, htame _ ⟨.inl notMem_line, hname, trivial⟩⟩
      · simp only [List.map_cons, List.map_append, Piece.unified, unifyLines_line,
          List.forall_mem_cons, List.forall_mem_append]
        exact ⟨fit, hfit, isChar_line, fit.1.1, fun p hp => by cases hp⟩
      · rw [List.map_append, hclosed]
        simp [Piece.unified, closes]

-- ================================================== illegal characters

mutual

/-- The texts in a tree and the values of its attributes. -/
def Node.contents : Node → List Text
  | .text t => [t]
  | .element _ attributes children => attributes.map (·.2) ++ contentsAll children

/-- The texts in trees. -/
def contentsAll : List Node → List Text
  | [] => []
  | node :: rest => node.contents ++ contentsAll rest

end

/-- All characters in a tree may stand in a document. -/
def Node.Legal (node : Node) : Prop := ∀ t ∈ node.contents, ∀ c ∈ t, isChar c = true

theorem mem_contentsAll {nodes : List Node} :
    t ∈ contentsAll nodes ↔ ∃ node ∈ nodes, t ∈ node.contents := by
  induction nodes with
  | nil => simp [contentsAll]
  | cons node nodes ih => simp [contentsAll, ih]

/-- A legal element is legal within. -/
theorem Node.Legal.child {child : Node} (h : (Node.element name attributes children).Legal)
    (hchild : child ∈ children) : child.Legal := fun t ht =>
  h t (List.mem_append_right _ (mem_contentsAll.mpr ⟨child, hchild, ht⟩))

/-- So are the values of its attributes. -/
theorem Node.Legal.value {a : Text × Text} (h : (Node.element name attributes children).Legal)
    (ha : a ∈ attributes) : ∀ c ∈ a.2, isChar c = true :=
  h _ (List.mem_append_left _ (List.mem_map_of_mem ha))

mutual

/-- Laying out takes nothing away. -/
private theorem Node.contents_laidOut (depth : Nat) :
    (node : Node) → node.contents ⊆ (node.laidOut depth).contents
  | .text t => List.Subset.refl _
  | .element name attributes children => by
      have hinner := contentsAll_layOutAll (depth + 1) children
      intro u hu
      rw [Node.laidOut]
      rcases List.mem_append.mp hu with hu | hu
      · split <;> exact List.mem_append_left _ hu
      · split
        · exact List.mem_append_right _ (hinner hu)
        · obtain ⟨child, hchild, hu⟩ := mem_contentsAll.mp (hinner hu)
          refine List.mem_append_right _ (mem_contentsAll.mpr ⟨child, ?_, hu⟩)
          exact List.mem_append_left _
            (List.mem_flatMap.mpr ⟨child, hchild, List.mem_cons_of_mem _ List.mem_cons_self⟩)

private theorem contentsAll_layOutAll (depth : Nat) :
    (nodes : List Node) → contentsAll nodes ⊆ contentsAll (layOutAll depth nodes)
  | [] => List.Subset.refl _
  | node :: rest => by
      intro u hu
      rcases List.mem_append.mp hu with hu | hu
      · exact List.mem_append_left _ (node.contents_laidOut depth hu)
      · exact List.mem_append_right _ (contentsAll_layOutAll depth rest hu)

end

/-- A character that may not stand in an attribute is written all the same. -/
private theorem mem_tagStart {a : Text × Text} {c : Char} (ha : a ∈ attributes) (hc : c ∈ a.2)
    (h : isChar c = false) : c ∈ tagStart name attributes := by
  refine List.mem_append_right _ (List.mem_flatMap.mpr ⟨a, ha, ?_⟩)
  have hvalue := mem_escapeAttribute hc h
  simp only [writeAttribute, Text.concat, List.flatten_cons, List.mem_append]
  exact .inr (.inr (.inr (.inl hvalue)))

mutual

/-- So is one that may not stand anywhere else. -/
private theorem Node.mem_write {c : Char} (hc : c ∈ t) (h : isChar c = false) :
    (node : Node) → t ∈ node.contents → c ∈ node.write
  | .text u, ht => by
      obtain rfl := List.mem_singleton.mp ht
      exact mem_escapeText hc h
  | .element name attributes children, ht => by
      have hstart : t ∈ attributes.map (·.2) → c ∈ tagStart name attributes := fun ht => by
        obtain ⟨a, ha, rfl⟩ := List.mem_map.mp ht
        exact mem_tagStart ha hc h
      rw [Node.write]
      rcases List.mem_append.mp ht with ht | ht
      · split
        · exact List.mem_append_left _ (hstart ht)
        · exact List.mem_append_left _ (hstart ht)
      · have hinner := mem_writeAll hc h children ht
        split
        case isTrue hvoid =>
          obtain ⟨child, hchild, ht⟩ := mem_contentsAll.mp ht
          have := List.all_eq_true.mp hvoid child hchild
          cases child with
          | text u =>
              obtain rfl := List.mem_singleton.mp ht
              rw [List.isEmpty_iff.mp this] at hc
              cases hc
          | element => cases this
        case isFalse =>
          simp only [Text.concat, List.flatten_cons, List.mem_append]
          exact .inr (.inr (.inl hinner))

private theorem mem_writeAll {c : Char} (hc : c ∈ t) (h : isChar c = false) :
    (nodes : List Node) → t ∈ contentsAll nodes → c ∈ writeAll nodes
  | [], ht => by cases ht
  | node :: rest, ht => by
      rcases List.mem_append.mp ht with ht | ht
      · exact List.mem_append_left _ (node.mem_write hc h ht)
      · exact List.mem_append_right _ (mem_writeAll hc h rest ht)

end

/-- Nothing is read of a document with a character that may not stand in
one. -/
theorem events?_eq_none {root : Node} (h : ¬ root.Legal) :
    events? ('\n' :: (root.laidOut depth).write) = none := by
  unfold Node.Legal at h
  push Not at h
  obtain ⟨t, ht, c, hc, hillegal⟩ := h
  rw [ne_eq, Bool.not_eq_true] at hillegal
  have hmem := (root.laidOut depth).mem_write hc hillegal (root.contents_laidOut depth ht)
  rw [events?, tokens?_eq_none (List.mem_cons_of_mem _ hmem) hillegal]
  rfl

end FeedSieve.Xml
