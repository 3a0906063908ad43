/-
What is written is scanned.

The tokens of a written row of pieces are the tags, with the attributes that
were written, and between them the texts (`tokens?_writePieces`). The
scanner keeps the escaped text since the last tag; that it is the escaped
form of a text is what every piece preserves (`run_write`).

A row is scanned if its names are names and its texts hold no character that
may not stand in a document (`Piece.Legal`), and only then
(`tokens?_eq_none`): at any other character the scanner stops.
-/
import FeedSieve.Proofs.Xml.Pieces

namespace FeedSieve.Xml

variable {name t done : Text} {attributes before : List (Text × Text)} {c : Char}
  {grammar : Grammar} {tokens more : List Token} {mode : Mode}

-- ============================================================== runs

namespace Scanner

/-- The scanner after some more characters. -/
def run (s : Scanner) (t : Text) : Option Scanner := t.foldlM step s

@[simp] theorem run_nil (s : Scanner) : s.run [] = some s := rfl

theorem run_cons (s : Scanner) (c : Char) (t : Text) : s.run (c :: t) = (s.step c).bind (·.run t) :=
  List.foldlM_cons ..

theorem run_append (s : Scanner) (t rest : Text) : s.run (t ++ rest) = (s.run t).bind (·.run rest) :=
  List.foldlM_append ..

/-- No scanner gets past a character that may not stand in a document. -/
theorem run_eq_none (s : Scanner) (hc : c ∈ t) (h : isChar c = false) : s.run t = none := by
  induction t generalizing s with
  | nil => cases hc
  | cons d t ih =>
      rw [run_cons]
      rcases List.mem_cons.mp hc with rfl | hc
      · simp [step, h]
      · cases s.step d with
        | none => rfl
        | some s => exact ih s hc

end Scanner

-- =============================================================== names

/-- A name without a prefix. -/
structure Plain (name : Text) : Prop where
  isName : isName name = true
  chars : ∀ c ∈ name, isChar c = true
  colon : ':' ∉ name

instance (name : Text) : Decidable (Plain name) :=
  decidable_of_iff (isName name = true ∧ (∀ c ∈ name, isChar c = true) ∧ ':' ∉ name)
    ⟨fun ⟨hname, hchars, hcolon⟩ => ⟨hname, hchars, hcolon⟩,
      fun h => ⟨h.isName, h.chars, h.colon⟩⟩

/-- It begins as names do and goes on as they do. -/
private theorem Plain.cases (h : Plain name) : ∃ c rest, name = c :: rest ∧ isNameStart c = true
    ∧ isChar c = true ∧ ∀ d ∈ rest, isNameChar d = true ∧ isChar d = true := by
  obtain ⟨hname, hchars, -⟩ := h
  cases name with
  | nil => cases hname
  | cons c rest =>
      obtain ⟨hfirst, hrest⟩ := Bool.and_eq_true_iff.mp hname
      exact ⟨c, rest, rfl, hfirst, hchars c List.mem_cons_self, fun d hd =>
        ⟨List.all_eq_true.mp hrest d hd, hchars d (List.mem_cons_of_mem _ hd)⟩⟩

namespace Scanner

/-- The marks of a tag may stand in a document, and are not part of a name. -/
private theorem marks : ∀ c ∈ " </=>\"".toList, isChar c = true ∧ isNameChar c = false := by
  decide +kernel

/-- Nor is a blank. -/
private theorem isNameStart_of_isSpace (h : isSpace c = true) : isNameStart c = false := by
  simp only [isSpace, Bool.or_eq_true, decide_eq_true_eq] at h
  rcases h with ((rfl | rfl) | rfl) | rfl <;> decide +kernel

/-- Characters pile up where each of them does. -/
private theorem run_pile (wrap : Text → Mode)
    (hstep : ∀ c ∈ t, ∀ done, step ⟨wrap done, grammar, tokens⟩ c
      = some ⟨wrap (c :: done), grammar, tokens⟩) (done : Text) :
    run ⟨wrap done, grammar, tokens⟩ t = some ⟨wrap (t.reverse ++ done), grammar, tokens⟩ := by
  induction t generalizing done with
  | nil => rfl
  | cons c t ih =>
      obtain ⟨hfirst, hrest⟩ := List.forall_mem_cons.mp hstep
      rw [run_cons, hfirst, Option.bind_some, ih hrest, List.reverse_cons, List.append_assoc]
      rfl

/-- Those of a text do. -/
private theorem run_text (h : ∀ c ∈ t, isChar c = true ∧ c ≠ '<') (done : Text) :
    run ⟨.text done, grammar, tokens⟩ t = some ⟨.text (t.reverse ++ done), grammar, tokens⟩ := by
  refine run_pile .text (fun c hmem done => ?_) done
  obtain ⟨hc, hne⟩ := h c hmem
  simp only [step, hc, hne, goTo, Bool.not_true, Bool.false_eq_true, if_false]

/-- So do those of the name of an element, -/
private theorem run_name (h : ∀ c ∈ t, isNameChar c = true ∧ isChar c = true) (done : Text) :
    run ⟨.tag [] [] (.name done), grammar, tokens⟩ t
      = some ⟨.tag [] [] (.name (t.reverse ++ done)), grammar, tokens⟩ := by
  refine run_pile (fun done => .tag [] [] (.name done)) (fun c hmem done => ?_) done
  obtain ⟨hname, hc⟩ := h c hmem
  simp only [step, hc, inTag, hname, goTo, Bool.not_true, Bool.false_eq_true, if_false, if_true]

/-- of the name of an attribute, -/
private theorem run_key (h : ∀ c ∈ t, isNameChar c = true ∧ isChar c = true) (done : Text) :
    run ⟨.tag name before (.key done), grammar, tokens⟩ t
      = some ⟨.tag name before (.key (t.reverse ++ done)), grammar, tokens⟩ := by
  refine run_pile (fun done => .tag name before (.key done)) (fun c hmem done => ?_) done
  obtain ⟨hname, hc⟩ := h c hmem
  simp only [step, hc, inTag, hname, goTo, Bool.not_true, Bool.false_eq_true, if_false, if_true]

/-- of its value, -/
private theorem run_value {key : Text} (h : ∀ c ∈ t, isChar c = true ∧ c ≠ '"') (done : Text) :
    run ⟨.tag name before (.value key '"' done), grammar, tokens⟩ t
      = some ⟨.tag name before (.value key '"' (t.reverse ++ done)), grammar, tokens⟩ := by
  refine run_pile (fun done => .tag name before (.value key '"' done))
    (fun c hmem done => ?_) done
  obtain ⟨hc, hne⟩ := h c hmem
  simp only [step, hc, inTag, hne, goTo, Bool.not_true, Bool.false_eq_true, if_false]

/-- and, behind the first, of the name of an end tag. -/
private theorem run_closing (h : ∀ c ∈ t, isNameChar c = true ∧ isChar c = true) (first : Char) :
    run ⟨.closing [first], grammar, tokens⟩ t
      = some ⟨.closing (t.reverse ++ [first]), grammar, tokens⟩ := by
  refine run_pile (fun done => .closing (done ++ [first])) (fun c hmem done => ?_) []
    |>.trans (by rw [List.append_nil])
  obtain ⟨hname, hc⟩ := h c hmem
  have hsome : (done ++ [first]).isEmpty = false := by simp
  simp only [step, hc, hname, hsome, goTo, Bool.not_true, Bool.false_eq_true, if_false, if_true]
  rfl

-- ========================================================== start tags

/-- Within a start tag, right behind its name or an attribute. -/
inductive AtTag (name : Text) : List (Text × Text) → Mode → Prop where
  | name : AtTag name [] (.tag [] [] (.name name.reverse))
  | value (attributes : List (Text × Text)) :
      AtTag name attributes (.tag name attributes .afterValue)

namespace AtTag

/-- A blank leads to the next attribute. -/
private theorem space (h : AtTag name before mode) :
    step ⟨mode, grammar, tokens⟩ ' ' = some ⟨.tag name before .gap, grammar, tokens⟩ := by
  obtain ⟨hchar, hname⟩ := marks ' ' (by decide)
  have hspace : isSpace ' ' = true := by decide
  cases h with
  | name =>
      simp only [step, inTag, goTo, hchar, hname, hspace, Bool.not_true, Bool.false_eq_true,
        if_false, if_true, List.reverse_reverse]
  | value =>
      simp only [step, inTag, goTo, hchar, hspace, Bool.not_true, Bool.false_eq_true, if_false,
        if_true]

/-- The tag may end. -/
private theorem close (h : AtTag name before mode) :
    step ⟨mode, grammar, tokens⟩ '>'
      = some ⟨.text [], grammar, .start name before.reverse false :: tokens⟩ := by
  obtain ⟨hchar, hname⟩ := marks '>' (by decide)
  have hspace : isSpace '>' = false := by decide
  have hslash : ('>' = '/') = False := by decide
  cases h with
  | name =>
      simp only [step, inTag, endTag, emit, hchar, hname, hspace, hslash, Bool.not_true,
        Bool.false_eq_true, if_false, if_true, List.reverse_reverse, List.reverse_nil]
  | value =>
      simp only [step, inTag, endTag, emit, hchar, hspace, hslash, Bool.not_true,
        Bool.false_eq_true, if_false, if_true]

/-- The element may end at once. -/
private theorem slash (h : AtTag name before mode) :
    run ⟨mode, grammar, tokens⟩ " />"
      = some ⟨.text [], grammar, .start name before.reverse true :: tokens⟩ := by
  obtain ⟨hslash, hname⟩ := marks '/' (by decide)
  obtain ⟨hclose, -⟩ := marks '>' (by decide)
  have hspace : isSpace '/' = false := by decide
  have hstart : isNameStart '/' = false := (Bool.or_eq_false_iff.mp hname).1
  show run ⟨mode, grammar, tokens⟩ [' ', '/', '>'] = _
  rw [run_cons, h.space, Option.bind_some, run_cons]
  simp only [step, inTag, goTo, hslash, hspace, hstart, Bool.not_true, Bool.false_eq_true,
    if_false, if_true, Option.bind_some]
  rw [run_cons]
  simp only [step, inTag, endTag, emit, hclose, Bool.not_true, Bool.false_eq_true, if_false,
    if_true, Option.bind_some, run_nil]

/-- An attribute may follow. -/
private theorem further {key value : Text} (h : AtTag name before mode) (hkey : Plain key)
    (hvalue : ∀ c ∈ value, isChar c = true) :
    run ⟨mode, grammar, tokens⟩ (writeAttribute (key, value))
      = some ⟨.tag name ((key, value) :: before) .afterValue, grammar, tokens⟩ := by
  obtain ⟨first, more, rfl, hfirst, hchar, hmore⟩ := hkey.cases
  have hwritten : writeAttribute (first :: more, value)
      = ' ' :: first :: (more ++ ('=' :: '"' :: (escapeAttribute value ++ ['"']))) := by
    simp [writeAttribute, Text.concat, escapeAttribute]
  have hblank : isSpace first = false := by
    rw [← Bool.not_eq_true]
    intro hspace
    rw [isNameStart_of_isSpace hspace] at hfirst
    cases hfirst
  obtain ⟨hless, hquote, -⟩ := notMem_escapeAttribute value
  obtain ⟨hequals, hends⟩ := marks '=' (by decide)
  obtain ⟨hmark, -⟩ := marks '"' (by decide)
  have hmarkBlank : isSpace '"' = false := by decide
  rw [hwritten, run_cons, h.space, Option.bind_some, run_cons]
  -- the first character of the name, then the others
  simp only [step, hchar, inTag, hblank, hfirst, goTo, Bool.not_true, Bool.false_eq_true, if_false,
    if_true, Option.bind_some]
  rw [run_append, run_key hmore, Option.bind_some, run_cons]
  simp only [step, inTag, goTo, hequals, hends, Bool.not_true, Bool.false_eq_true, if_false,
    if_true, Option.bind_some]
  rw [run_cons]
  -- the value between its quotes
  simp only [step, inTag, goTo, hmark, hmarkBlank, Bool.not_true, Bool.false_eq_true, if_false,
    Bool.true_or, decide_true, if_true, Option.bind_some]
  rw [run_append, run_value fun c hc =>
    ⟨isChar_escapeAttribute hvalue c hc, fun h => hquote (h ▸ hc)⟩, Option.bind_some, run_cons]
  simp only [step, inTag, goTo, hmark, Bool.not_true, Bool.false_eq_true, if_false, if_true,
    List.append_nil, List.reverse_reverse, attributeValue?_escape, Option.bind_some, run_nil,
    List.reverse_append, List.reverse_cons, List.reverse_nil, List.nil_append, List.cons_append]

/-- So may several. -/
private theorem furtherAll (h : AtTag name before mode)
    (hattributes : ∀ a ∈ attributes, Plain a.1 ∧ ∀ c ∈ a.2, isChar c = true) :
    ∃ mode', AtTag name (attributes.reverse ++ before) mode'
      ∧ run ⟨mode, grammar, tokens⟩ (attributes.flatMap writeAttribute)
        = some ⟨mode', grammar, tokens⟩ := by
  induction attributes generalizing before mode with
  | nil => exact ⟨mode, h, rfl⟩
  | cons a attributes ih =>
      obtain ⟨⟨hkey, hvalue⟩, hrest⟩ := List.forall_mem_cons.mp hattributes
      obtain ⟨mode', hat, hrun⟩ := ih (.value (a :: before)) hrest
      refine ⟨mode', ?_, ?_⟩
      · rwa [List.reverse_cons, List.append_assoc]
      · rw [List.flatMap_cons, run_append, h.further hkey hvalue, Option.bind_some, hrun]

end AtTag

/-- A tag begins, and has attributes. -/
private theorem run_tagStart (hname : Plain name)
    (hattributes : ∀ a ∈ attributes, Plain a.1 ∧ ∀ c ∈ a.2, isChar c = true)
    (hend : endText ⟨.text done, grammar, tokens⟩ done
      = some ⟨.text done, grammar, more⟩) :
    ∃ mode, AtTag name attributes.reverse mode
      ∧ run ⟨.text done, grammar, tokens⟩ (tagStart name attributes)
        = some ⟨mode, grammar, more⟩ := by
  obtain ⟨first, others, rfl, hfirst, hchar, hothers⟩ := hname.cases
  obtain ⟨hangle, -⟩ := marks '<' (by decide)
  have hmarks : ∀ c ∈ "/!?".toList, isNameStart c = false := by decide +kernel
  have hne : ∀ c ∈ "/!?".toList, first ≠ c := by
    rintro c hc rfl
    rw [hmarks _ hc] at hfirst
    cases hfirst
  obtain ⟨mode, hat, hrun⟩ : ∃ mode, AtTag (first :: others) (attributes.reverse ++ []) mode
      ∧ run ⟨.tag [] [] (.name (first :: others).reverse), grammar, more⟩
          (attributes.flatMap writeAttribute) = some ⟨mode, grammar, more⟩ :=
    AtTag.name.furtherAll hattributes
  rw [List.append_nil] at hat
  refine ⟨mode, hat, ?_⟩
  rw [tagStart, List.cons_append, List.cons_append, run_cons]
  simp only [step, hangle, hend, goTo, Bool.not_true, Bool.false_eq_true, if_false, if_true,
    Option.bind_some]
  rw [run_cons]
  simp only [step, hchar, hfirst, hne '/' (by decide), hne '!' (by decide), hne '?' (by decide),
    goTo, Bool.not_true, Bool.false_eq_true, if_false, if_true, Option.bind_some]
  rw [run_append, run_name hothers, Option.bind_some, ← List.reverse_cons, hrun]

/-- An end tag. -/
private theorem run_endTag (hname : Plain name)
    (hend : endText ⟨.text done, grammar, tokens⟩ done
      = some ⟨.text done, grammar, more⟩) :
    run ⟨.text done, grammar, tokens⟩ (Piece.closes name).write
      = some ⟨.text [], grammar, .finish name :: more⟩ := by
  obtain ⟨first, others, rfl, hfirst, hchar, hothers⟩ := hname.cases
  obtain ⟨hangle, -⟩ := marks '<' (by decide)
  obtain ⟨hslash, -⟩ := marks '/' (by decide)
  obtain ⟨hclose, hnot⟩ := marks '>' (by decide)
  have hblank : isSpace '>' = false := by decide
  have hwritten : (Piece.closes (first :: others)).write
      = '<' :: '/' :: first :: (others ++ ['>']) := by
    simp [Piece.write, Text.concat]
  have hsome : (others.reverse ++ [first]).isEmpty = false := by simp
  rw [hwritten, run_cons]
  simp only [step, hangle, hend, goTo, Bool.not_true, Bool.false_eq_true, if_false, if_true,
    Option.bind_some]
  rw [run_cons]
  simp only [step, hslash, goTo, Bool.not_true, Bool.false_eq_true, if_false, if_true,
    Option.bind_some]
  rw [run_cons]
  simp only [step, hchar, hfirst, goTo, List.isEmpty_nil, Bool.not_true, Bool.false_eq_true,
    if_false, if_true, Option.bind_some]
  rw [run_append, run_closing hothers, Option.bind_some, run_cons]
  simp only [step, hclose, hnot, hsome, hblank, emit, Bool.not_true, Bool.false_eq_true, if_false,
    if_true, Option.bind_some, List.reverse_append, List.reverse_reverse, List.reverse_cons,
    List.reverse_nil, List.nil_append, List.cons_append, run_nil]

end Scanner

-- ============================================================== pieces

/-- The token of the text between two tags. -/
def textTokens (t : Text) : List Token :=
  if t.isEmpty then [] else if t.all isSpace then [.blank t] else [.text t]

/-- The tokens of a row of pieces; `before` is the text since the last tag. -/
def tokensOf (before : Text) : List Piece → List Token
  | [] => textTokens before
  | .text t :: rest => tokensOf (before ++ t) rest
  | .opens name attributes :: rest =>
      textTokens before ++ .start name attributes false :: tokensOf [] rest
  | .void name attributes :: rest =>
      textTokens before ++ .start name attributes true :: tokensOf [] rest
  | .closes name :: rest => textTokens before ++ .finish name :: tokensOf [] rest

/-- Whether a piece may stand in a document. -/
def Piece.Legal : Piece → Prop
  | .text t => ∀ c ∈ t, isChar c = true
  | .opens name attributes | .void name attributes =>
      Plain name ∧ ∀ a ∈ attributes, Plain a.1 ∧ ∀ c ∈ a.2, isChar c = true
  | .closes name => Plain name

/-- White space is written as it is, and nothing else is white space. -/
private theorem escapeText_all_isSpace (t : Text) :
    (escapeText t).all isSpace = t.all isSpace
      ∧ (t.all isSpace = true → escapeText t = t) := by
  have hchar : ∀ c, (textChar c).all isSpace = isSpace c
      ∧ (isSpace c = true → textChar c = [c]) := by
    intro c
    unfold textChar
    split
    case isTrue h => subst h; decide
    case isFalse =>
      split
      case isTrue h => subst h; decide
      case isFalse =>
        split
        case isTrue h => subst h; decide
        case isFalse => simp
  induction t with
  | nil => exact ⟨rfl, fun _ => rfl⟩
  | cons c t ih =>
      rw [escapeText, List.flatMap_cons, List.all_append, (hchar c).1, List.all_cons]
      refine ⟨congrArg (isSpace c && ·) ih.1, fun h => ?_⟩
      obtain ⟨hc, ht⟩ := Bool.and_eq_true_iff.mp h
      rw [(hchar c).2 hc]
      exact congrArg (c :: ·) (ih.2 ht)

namespace Scanner

/-- Text ends where a tag begins. -/
private theorem endText_escape (mode : Mode) (t : Text) :
    endText ⟨mode, grammar, tokens⟩ (escapeText t).reverse
      = some ⟨mode, grammar, (textTokens t).reverse ++ tokens⟩ := by
  obtain ⟨hspace, hsame⟩ := escapeText_all_isSpace t
  have hempty : (escapeText t).isEmpty = t.isEmpty := by
    cases t with
    | nil => rfl
    | cons c t =>
        rw [escapeText, List.flatMap_cons]
        simp [textChar_ne_nil c]
  have hmark : Text.occursIn "]]>" (escapeText t) = false := by
    rw [← Bool.not_eq_true]
    intro h
    exact (notMem_escapeText t).2 (Text.mem_of_occursIn h (by decide))
  unfold endText textTokens
  simp only [List.reverse_reverse, hempty, hspace, hmark, resolve?_escapeText, Option.map_some,
    Bool.false_eq_true, if_false]
  split
  case isTrue => rfl
  case isFalse =>
    split
    case isTrue h => rw [hsame h]; rfl
    case isFalse => rfl

/-- What is left to be done at the end gives the tokens of the pieces. -/
private theorem finish_run {pieces : List Piece} (h : ∀ p ∈ pieces, p.Legal) (before : Text)
    (tokens : List Token) :
    (run ⟨.text (escapeText before).reverse, grammar, tokens⟩ (writePieces pieces)).bind finish
      = some (tokens.reverse ++ tokensOf before pieces) := by
  induction pieces generalizing before tokens with
  | nil =>
      rw [writePieces_nil, run_nil, Option.bind_some]
      simp only [finish, endText_escape, Option.map_some, List.reverse_append,
        List.reverse_reverse, tokensOf]
  | cons piece rest ih =>
      obtain ⟨hfirst, hrest⟩ := List.forall_mem_cons.mp h
      have hgo (tokens : List Token) :
          (run ⟨.text [], grammar, tokens⟩ (writePieces rest)).bind finish
            = some (tokens.reverse ++ tokensOf [] rest) := ih hrest [] tokens
      rw [writePieces_cons, run_append]
      cases piece with
      | text t =>
          have hchars : ∀ c ∈ escapeText t, isChar c = true ∧ c ≠ '<' := fun c hc =>
            ⟨isChar_escapeText hfirst c hc, fun h => (notMem_escapeText t).1 (h ▸ hc)⟩
          rw [Piece.write, run_text hchars, Option.bind_some, tokensOf, ← ih hrest (before ++ t),
            escapeText, escapeText, escapeText, List.flatMap_append, List.reverse_append]
      | opens name attributes =>
          obtain ⟨mode, hat, hrun⟩ := run_tagStart hfirst.1 hfirst.2 (endText_escape _ before)
          rw [Piece.write, run_append, hrun, Option.bind_some, run_cons, hat.close,
            Option.bind_some, run_nil, Option.bind_some, hgo, tokensOf]
          simp
      | void name attributes =>
          obtain ⟨mode, hat, hrun⟩ := run_tagStart hfirst.1 hfirst.2 (endText_escape _ before)
          rw [Piece.write, run_append, hrun, Option.bind_some, hat.slash, Option.bind_some, hgo,
            tokensOf]
          simp
      | closes name =>
          rw [run_endTag hfirst (endText_escape _ before), Option.bind_some, hgo, tokensOf]
          simp

end Scanner

/-- The tokens of a written row of pieces. -/
theorem tokens?_writePieces {pieces : List Piece} (htame : Tame pieces)
    (hlegal : ∀ p ∈ pieces.map Piece.unified, p.Legal) :
    tokens? (writePieces pieces) = some (tokensOf [] (pieces.map Piece.unified)) := by
  have h : (Scanner.run ⟨.text (escapeText []).reverse, .silent, []⟩
      (writePieces (pieces.map Piece.unified))).bind Scanner.finish = _ :=
    Scanner.finish_run hlegal [] []
  rw [tokens?, unifyLines_writePieces htame]
  exact h

/-- A document with a character that may not stand in one has none. -/
theorem tokens?_eq_none (hc : c ∈ t) (h : isChar c = false) : tokens? t = none := by
  have hmem : c ∈ unifyLines t := by
    induction t using unifyLines.induct with
    | case1 => cases hc
    | case2 t ih =>
        rw [unifyLines]
        rcases List.mem_cons.mp hc with rfl | hc
        · exact absurd h (by decide)
        · rcases List.mem_cons.mp hc with rfl | hc
          · exact absurd h (by decide)
          · exact List.mem_cons_of_mem _ (ih hc)
    | case3 t hnot ih =>
        rw [unifyLines]
        · rcases List.mem_cons.mp hc with rfl | hc
          · exact absurd h (by decide)
          · exact List.mem_cons_of_mem _ (ih hc)
        · exact hnot
    | case4 d t _ hd ih =>
        rw [unifyLines_cons hd]
        rcases List.mem_cons.mp hc with rfl | hc
        · exact List.mem_cons_self
        · exact List.mem_cons_of_mem _ (ih hc)
  rw [tokens?, show (unifyLines t).foldlM Scanner.step Scanner.initial = none from
    Scanner.run_eq_none _ hmem h]
  rfl

end FeedSieve.Xml
