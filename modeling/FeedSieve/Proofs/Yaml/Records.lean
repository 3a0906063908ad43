/-
Documents of records are read again.

A document of records has a block for every section, and in the block a line
for every entry. Its tokens are those of the keys and the values, with the
beginnings and ends of the blocks between them (`scan_documentText`), and
these make up a mapping from the names of the sections to mappings from the
names of the entries to their scalars (`ofTokens_documentTokens`).
-/
import FeedSieve.Proofs.Yaml.Lines
import FeedSieve.Yaml.Value

namespace FeedSieve.Yaml

-- ============================================================ documents

/-- A line with a name and a value. -/
structure Entry where
  name : Text
  /-- The value as it is written. -/
  written : Text
  /-- The text that it is read as. -/
  text : Text
  /-- Whether it is written plain. -/
  isPlain : Bool
  /-- What it stands for. -/
  value : Lax.Value

/-- A name, and lines that are indented further. -/
structure Section where
  name : Text
  entries : List Entry

/-- How far the lines of a section are indented. -/
def entryIndent : Nat := 2

namespace Entry

/-- The line. -/
def line (e : Entry) : Text :=
  List.replicate entryIndent ' ' ++ (e.name ++ ':' :: ' ' :: (e.written ++ ['\n']))

/-- The tokens of the line. -/
def tokens (e : Entry) : List Token :=
  [.key, .scalar e.name true, .value, .scalar e.text e.isPlain]

/-- The scalar of the line. -/
def node (e : Entry) : Node := .scalar (if e.isPlain then .ofForm e.text else .text) e.text

/-- The line can be read. -/
structure Sound (e : Entry) : Prop where
  name : IsName e.name
  reads : ReadsAs e.written e.text e.isPlain
  value : e.node.value = .ok e.value
  ordinary : ∀ c ∈ e.written, isOrdinary c = true

end Entry

namespace Section

/-- The lines of the section. -/
def lines (b : Section) : Text := b.name ++ ':' :: '\n' :: b.entries.flatMap Entry.line

/-- Their tokens. -/
def tokens (b : Section) : List Token :=
  .key :: .scalar b.name true :: .value :: .blockMapping :: (b.entries.flatMap Entry.tokens
    ++ [.blockEnd])

/-- The mapping of the section. -/
def node (b : Section) : Node :=
  .mapping .mapping (b.entries.map fun e => .scalar .text e.name) (b.entries.map Entry.node)

/-- The record of the section. -/
def value (b : Section) : Lax.Value := .record (b.entries.map fun e => (e.name, e.value))

/-- The section can be read; it has at least one line. -/
structure Sound (b : Section) : Prop where
  name : IsName b.name
  ne_nil : b.entries ≠ []
  entries : ∀ e ∈ b.entries, e.Sound

end Section

/-- A document. -/
def documentText (sections : List Section) : Text := sections.flatMap Section.lines

/-- The tokens of a document. -/
def documentTokens (sections : List Section) : List Token :=
  .blockMapping :: (sections.flatMap Section.tokens ++ [.blockEnd])

/-- The mapping of a document. -/
def documentNode (sections : List Section) : Node :=
  .mapping .mapping (sections.map fun b => .scalar .text b.name) (sections.map Section.node)

-- ================================================================ steps

variable {t : Text} {s : Scan} {tokens tokens' : List Token} {indent : Int}
  {outer outer' : List Int} {k n : Nat}

/-- What can follow a line whose block is indented to `k`. -/
def NextLine (k : Nat) (t : Text) : Prop :=
  ∃ n x, t = List.replicate n ' ' ++ x ∧ n ≤ k ∧ LineOf n x

/-- The end of the document. -/
theorem nextLine_nil (k : Nat) : NextLine k [] :=
  ⟨0, [], rfl, Nat.zero_le k, ⟨nofun, by decide, fun _ => rfl⟩⟩

/-- Another entry. -/
theorem nextLine_line {e : Entry} (h : e.Sound) (t : Text) :
    NextLine entryIndent (e.line ++ t) := by
  refine ⟨entryIndent, _, List.append_assoc .., Nat.le_refl _, ?_⟩
  rw [List.append_assoc]
  exact h.name.lineOf _ _

/-- More entries, or what comes behind them. -/
theorem nextLine_entries {entries : List Entry} (hentries : ∀ e ∈ entries, e.Sound)
    (ht : NextLine entryIndent t) : NextLine entryIndent (entries.flatMap Entry.line ++ t) := by
  cases entries with
  | nil => exact ht
  | cons e rest =>
      rw [List.flatMap_cons, List.append_assoc]
      exact nextLine_line (hentries e List.mem_cons_self) _

/-- Another section. -/
theorem nextLine_lines {b : Section} (h : b.Sound) (t : Text) : NextLine k (b.lines ++ t) := by
  have hlines : b.lines ++ t = List.replicate 0 ' '
      ++ (b.name ++ (':' :: '\n' :: b.entries.flatMap Entry.line ++ t)) := List.append_assoc ..
  exact ⟨0, _, hlines, Nat.zero_le k, h.name.lineOf _ _⟩

/-- More sections, or the end of the document. -/
theorem nextLine_sections {sections : List Section} (hsections : ∀ b ∈ sections, b.Sound) :
    NextLine k (documentText sections) := by
  cases sections with
  | nil => exact nextLine_nil k
  | cons b rest => exact nextLine_lines (hsections b List.mem_cons_self) _

namespace Scan

/-- An entry is read in three steps. -/
theorem Ready.entry {e : Entry} (he : e.Sound) (ht : NextLine entryIndent t)
    (henters : Enters entryIndent tokens indent outer tokens' outer')
    (h : s.Ready (e.line ++ t) tokens indent outer) :
    ∃ s', (∀ n, steps (n + 3) step s = steps n step s')
      ∧ s'.Ready t (e.tokens.reverse ++ tokens') entryIndent outer' := by
  obtain ⟨n, x, rfl, hle, hline⟩ := ht
  have hline' : e.line ++ (List.replicate n ' ' ++ x) = List.replicate entryIndent ' '
      ++ (e.name ++ ':' :: ' ' :: (e.written ++ '\n' :: (List.replicate n ' ' ++ x))) := by
    simp [Entry.line]
  rw [hline'] at h
  obtain ⟨c, hsteps, hrest, hcolumn⟩ := h.key he.name rfl henters
  obtain ⟨s', hstep, hready⟩ := he.reads c (.value :: .scalar e.name true :: .key :: tokens')
    entryIndent outer' n x hrest (by omega) (by decide) hle hline
  refine ⟨s', fun n => ?_, hready⟩
  rw [hsteps (n + 1), steps, hstep]

/-- The entries of a section are read one after another. -/
theorem Ready.entries {entries : List Entry} (hentries : ∀ e ∈ entries, e.Sound)
    (ht : NextLine entryIndent t)
    (h : s.Ready (entries.flatMap Entry.line ++ t) tokens entryIndent outer) :
    ∃ s', (∀ n, steps (n + 3 * entries.length) step s = steps n step s')
      ∧ s'.Ready t ((entries.flatMap Entry.tokens).reverse ++ tokens) entryIndent outer := by
  induction entries generalizing s tokens with
  | nil => exact ⟨s, fun n => rfl, h⟩
  | cons e rest ih =>
      obtain ⟨he, hrest⟩ := List.forall_mem_cons.mp hentries
      rw [List.flatMap_cons, List.append_assoc] at h
      obtain ⟨s₁, hsteps₁, hready₁⟩ := h.entry he (nextLine_entries hrest ht) .stays
      obtain ⟨s', hsteps, hready⟩ := ih hrest hready₁
      refine ⟨s', fun n => ?_, ?_⟩
      · rw [List.length_cons, Nat.mul_succ, ← Nat.add_assoc, hsteps₁, hsteps]
      · rwa [List.flatMap_cons, List.reverse_append, List.append_assoc]

/-- The number of steps that a section takes. -/
def sectionSteps (b : Section) : Nat := 2 + 3 * b.entries.length

/-- A section is read; its block is still open then. -/
theorem Ready.lines {b : Section} (hb : b.Sound) (ht : NextLine entryIndent t)
    (henters : Enters 0 tokens indent outer tokens' outer')
    (h : s.Ready (b.lines ++ t) tokens indent outer) :
    ∃ s', (∀ n, steps (n + sectionSteps b) step s = steps n step s')
      ∧ ∃ tokens₁, .blockEnd :: tokens₁ = b.tokens.reverse ++ tokens'
        ∧ s'.Ready t tokens₁ entryIndent (0 :: outer') := by
  obtain ⟨e, rest, hentries⟩ := List.exists_cons_of_ne_nil hb.ne_nil
  have hsound := hb.entries
  rw [hentries] at hsound
  obtain ⟨he, hrest⟩ := List.forall_mem_cons.mp hsound
  have hlines : b.lines ++ t
      = List.replicate 0 ' '
        ++ (b.name ++ ':' :: '\n' :: (e.line ++ (rest.flatMap Entry.line ++ t))) := by
    simp [Section.lines, hentries]
  rw [hlines] at h
  obtain ⟨c, hsteps, hleft, -⟩ := h.key hb.name rfl henters
  have hready₀ : Ready
      ⟨c, .value :: .scalar b.name true :: .key :: tokens', 0, 0, outer', false, []⟩
      (e.line ++ (rest.flatMap Entry.line ++ t))
      (.value :: .scalar b.name true :: .key :: tokens') 0 outer' := by
    obtain ⟨n, x, hsplit, -, hline⟩ := nextLine_line he (rest.flatMap Entry.line ++ t)
    rw [hsplit] at hleft ⊢
    exact ready_of_lineEnd hleft hline rfl
  -- the first entry begins the block, and the others go on with it
  obtain ⟨s₁, hsteps₁, hready₁⟩ := hready₀.entry he (nextLine_entries hrest ht)
    (.opens (by decide))
  obtain ⟨s', hsteps', hready⟩ := hready₁.entries hrest ht
  refine ⟨s', fun n => ?_, _, ?_, hready⟩
  · have hcount : n + sectionSteps b = n + 3 * rest.length + 3 + 2 := by
      rw [sectionSteps, hentries, List.length_cons]
      omega
    rw [hcount, hsteps]
    exact (hsteps₁ _).trans (hsteps' n)
  · simp [Section.tokens, hentries]

/-- All further sections are read: each ends the block of the one before it. -/
theorem Ready.document {sections : List Section} (hsections : ∀ b ∈ sections, b.Sound)
    (h : s.Ready (documentText sections) tokens entryIndent (0 :: outer)) :
    ∃ s', (∀ n, steps (n + (sections.map sectionSteps).sum) step s = steps n step s')
      ∧ ∃ tokens₁, .blockEnd :: tokens₁
          = (sections.flatMap Section.tokens).reverse ++ .blockEnd :: tokens
        ∧ s'.Ready [] tokens₁ entryIndent (0 :: outer) := by
  induction sections generalizing s tokens with
  | nil => exact ⟨s, fun n => rfl, tokens, rfl, h⟩
  | cons b rest ih =>
      obtain ⟨hb, hrest⟩ := List.forall_mem_cons.mp hsections
      have hends : Enters 0 tokens entryIndent (0 :: outer) (.blockEnd :: tokens) outer :=
        .closes (by decide)
      obtain ⟨s₁, hsteps₁, tokens₁, htokens₁, hready₁⟩ := Ready.lines hb
        (nextLine_sections hrest) hends (by rwa [documentText, List.flatMap_cons] at h)
      obtain ⟨s', hsteps, tokens', htokens, hready⟩ := ih hrest hready₁
      refine ⟨s', fun n => ?_, tokens', ?_, hready⟩
      · rw [List.map_cons, List.sum_cons, Nat.add_comm (sectionSteps b), ← Nat.add_assoc, hsteps₁,
          hsteps]
      · rw [htokens, htokens₁, List.flatMap_cons, List.reverse_append, List.append_assoc]

/-- At the end all blocks end. -/
theorem Ready.finish (h : s.Ready [] tokens entryIndent [0, -1]) :
    s.step = .ok (.inr (tokens.reverse ++ [.blockEnd, .blockEnd])) := by
  obtain ⟨c, hblanks, htext, -⟩ := h
  obtain ⟨hspaces, hrest⟩ := List.append_eq_nil_iff.mp htext.symm
  have hcolumn : c.column = 0 := by simpa using hspaces
  have hstale : dropStale ⟨c, tokens, 0, entryIndent, [0, -1], true, []⟩
      = .ok ⟨c, tokens, 0, entryIndent, [0, -1], true, []⟩ := rfl
  have hstart : column ⟨c, tokens, 0, entryIndent, [0, -1], true, []⟩ = (0 : Nat) := by
    rw [column, hcolumn]
  have hunwind : unwind (0 : Nat) ⟨c, tokens, 0, entryIndent, [0, -1], true, []⟩
      = ⟨c, .blockEnd :: tokens, 0, 0, [-1], true, []⟩ := rfl
  have hfinish : Scan.finish ⟨c, .blockEnd :: tokens, 0, 0, [-1], true, []⟩
      = .ok (tokens.reverse ++ [.blockEnd, .blockEnd]) := by
    show Except.ok (List.reverse (.blockEnd :: .blockEnd :: tokens)) = _
    simp
  unfold step
  simp only [hblanks, hstale, bind, Except.bind, hstart, hunwind, hrest, List.isEmpty_nil, if_true,
    hfinish]
  rfl

end Scan

/-- More steps do no harm. -/
theorem steps_add {σ ρ : Type} {step : σ → Except Fault (σ ⊕ ρ)} {s : σ} {result : ρ}
    (h : steps n step s = .ok result) (m : Nat) : steps (n + m) step s = .ok result := by
  induction n generalizing s with
  | zero => cases h
  | succ n ih =>
      rw [Nat.succ_add]
      unfold steps at h ⊢
      split at h
      · cases h
      · exact h
      · exact ih h

/-- Every step reads something. -/
theorem sectionSteps_le (b : Section) : Scan.sectionSteps b ≤ b.lines.length := by
  have hentries : 3 * b.entries.length ≤ (b.entries.flatMap Entry.line).length := by
    induction b.entries with
    | nil => exact Nat.le_refl 0
    | cons e rest ih =>
        rw [List.flatMap_cons, List.length_append, List.length_cons]
        have hline : 3 ≤ e.line.length := by
          simp only [Entry.line, List.length_append, List.length_cons, List.length_replicate]
          omega
        omega
  simp only [Scan.sectionSteps, Section.lines, List.length_append, List.length_cons]
  omega

theorem sum_sectionSteps_le (sections : List Section) :
    (sections.map Scan.sectionSteps).sum ≤ (documentText sections).length := by
  induction sections with
  | nil => exact Nat.le_refl 0
  | cons b rest ih =>
      have hb := sectionSteps_le b
      rw [documentText, List.flatMap_cons, List.length_append]
      rw [documentText] at ih
      rw [List.map_cons, List.sum_cons]
      omega

/-- Visible ASCII and line ends may occur in a document. -/
theorem isAllowed_of_isOrdinary {c : Char} (h : isOrdinary c = true) : isAllowed c = true := by
  unfold isOrdinary at h
  unfold isAllowed
  rcases Bool.or_eq_true_iff.mp h with hline | hvisible
  · rw [hline]
    simp
  · rw [hvisible]
    simp

/-- A document is written in visible ASCII and line ends. -/
theorem isOrdinary_documentText {sections : List Section} (hsections : ∀ b ∈ sections, b.Sound) :
    ∀ c ∈ documentText sections, isOrdinary c = true := by
  have hname {name : Text} (h : IsName name) : ∀ c ∈ name, isOrdinary c = true := fun c hc =>
    (letter_facts (h.letters c hc)).1
  have hentry (e : Entry) (he : e.Sound) : ∀ c ∈ e.line, isOrdinary c = true := by
    simp only [Entry.line, List.forall_mem_append, List.forall_mem_cons]
    exact ⟨fun c hc => List.eq_of_mem_replicate hc ▸ rfl, hname he.name, rfl, rfl, he.ordinary, rfl,
      nofun⟩
  intro c hc
  obtain ⟨b, hb, hmem⟩ := List.mem_flatMap.mp hc
  have hsound := hsections b hb
  have hlines : ∀ c ∈ b.lines, isOrdinary c = true := by
    simp only [Section.lines, List.forall_mem_append, List.forall_mem_cons]
    refine ⟨hname hsound.name, rfl, rfl, fun c hc => ?_⟩
    obtain ⟨e, he, hmem⟩ := List.mem_flatMap.mp hc
    exact hentry e (hsound.entries e he) c hmem
  exact hlines c hmem

/-- A reader is ready for the beginning of a text that a line can begin with. -/
theorem ready_start (h : LineOf 0 t) : (Scan.start t).Ready t [] (-1) [] := by
  refine ⟨.start t, ?_, rfl, h⟩
  rw [Scan.skipBlanks_spaces (k := 0) (x := t) rfl h.begins h.noComment]
  have hself : (Cursor.start t).upTo t = .start t := Cursor.upTo_self _
  unfold Scan.start
  simp only [hself]

/-- A document of records is read as the tokens of its lines. -/
theorem scan_documentText {sections : List Section} (hne : sections ≠ [])
    (hsections : ∀ b ∈ sections, b.Sound) :
    Token.scan (documentText sections) = .ok (documentTokens sections) := by
  obtain ⟨b, rest, rfl⟩ := List.exists_cons_of_ne_nil hne
  obtain ⟨hb, hrest⟩ := List.forall_mem_cons.mp hsections
  have htext : documentText (b :: rest) = b.lines ++ documentText rest := List.flatMap_cons
  have hstart : LineOf 0 (documentText (b :: rest)) := by
    rw [htext, Section.lines, List.append_assoc]
    exact hb.name.lineOf _ _
  have hready := ready_start hstart
  rw [htext] at hready
  -- the first section begins the block of the document, and its end ends all blocks
  have hopens : Enters 0 [] (-1) [] [.blockMapping] [-1] := .opens (by decide)
  obtain ⟨s₁, hsteps₁, tokens₁, htokens₁, hready₁⟩ := hready.lines hb
    (nextLine_sections hrest) hopens
  obtain ⟨s', hsteps, tokens', htokens, hready'⟩ := hready₁.document hrest
  have htotal := sum_sectionSteps_le (b :: rest)
  rw [List.map_cons, List.sum_cons] at htotal
  have hresult : steps (1 + (rest.map Scan.sectionSteps).sum + Scan.sectionSteps b) Scan.step
      (.start (documentText (b :: rest))) = .ok (documentTokens (b :: rest)) := by
    have hall : tokens'.reverse ++ [.blockEnd]
        = .blockMapping :: (b :: rest).flatMap Section.tokens := by
      have hreversed := congrArg List.reverse (htokens.trans (congrArg _ htokens₁))
      simpa using hreversed
    rw [htext, hsteps₁, hsteps, steps, hready'.finish]
    show Except.ok (tokens'.reverse ++ ([.blockEnd] ++ [.blockEnd])) = _
    rw [← List.append_assoc, hall]
    rfl
  have hmark : ¬ first (documentText (b :: rest)) = '\uFEFF' := by
    rw [htext, Section.lines, List.append_assoc, first_append hb.name.ne_nil]
    obtain ⟨c, name, hname⟩ := List.exists_cons_of_ne_nil hb.name.ne_nil
    have hletter := hb.name.letters c (hname ▸ List.mem_cons_self)
    rw [hname]
    show c ≠ '\uFEFF'
    rintro rfl
    exact absurd hletter (by decide)
  have hallowed : (documentText (b :: rest)).all isAllowed = true := List.all_eq_true.mpr
    fun c hc => isAllowed_of_isOrdinary (isOrdinary_documentText hsections c hc)
  unfold Token.scan
  rw [hallowed]
  simp only [Bool.not_true, Bool.false_eq_true, if_false, if_neg hmark]
  obtain ⟨m, hm⟩ := Nat.exists_eq_add_of_le (show 1 + (rest.map Scan.sectionSteps).sum
    + Scan.sectionSteps b ≤ 2 * (documentText (b :: rest)).length + 2 by omega)
  rw [hm]
  exact steps_add hresult m

-- ================================================================ nodes

variable {names : Names} {name text : Text} {isPlain blocks dashes : Bool} {limit : Nat}
  {keys values : List Node} {value : Node} {rest left : List Token}

/-- A scalar token is a scalar. -/
theorem readNode_scalar :
    readNode (limit + 1) blocks dashes names (.scalar text isPlain :: rest)
      = .ok (.scalar (if isPlain then .ofForm text else .text) text, names, rest) := by
  cases isPlain <;> rfl

/-- Keys that are texts are kept as they are. -/
theorem flat_texts (h : ∀ key ∈ keys, ∃ t, key = .scalar .text t)
    (hlength : keys.length = values.length) (tag : Tag) :
    Node.flat tag keys values = .mapping tag keys values := by
  have hparts : Node.standing? keys values = none
      ∧ Node.split? keys values = some (([], []), (keys, values)) := by
    induction keys generalizing values with
    | nil =>
        obtain rfl := List.eq_nil_of_length_eq_zero hlength.symm
        exact ⟨rfl, rfl⟩
    | cons key keys ih =>
        obtain ⟨value, values, rfl⟩ := List.exists_cons_of_length_eq_add_one hlength.symm
        obtain ⟨⟨t, rfl⟩, hkeys⟩ := List.forall_mem_cons.mp h
        obtain ⟨hstanding, hsplit⟩ := ih hkeys (Nat.succ.inj hlength)
        refine ⟨hstanding, ?_⟩
        rw [Node.split?, hsplit]
        rfl
  unfold Node.flat
  rw [hparts.1, hparts.2, ite_self]
  rfl

/-- A block of pairs is a mapping. -/
theorem readNode_blockMapping
    (hpairs : readBlockPairs limit names tokens = .ok (keys, values, names, rest))
    (hkeys : ∀ key ∈ keys, ∃ t, key = .scalar .text t) (hlength : keys.length = values.length) :
    readNode (limit + 1) true dashes names (.blockMapping :: tokens)
      = .ok (.mapping .mapping keys values, names, rest) := by
  rw [readNode]
  simp only [properties, bind, Except.bind, Names.add, if_true, hpairs, Properties.sort,
    Properties.realTag?, Option.filter_none, Option.map_none, Option.getD_none,
    flat_texts hkeys hlength, Names.settle]
  · rfl
  · nofun

/-- A pair and what comes behind it. -/
theorem readBlockPairs_pair (hname : Tag.ofForm name = .text)
    (hends : endsBlockEntry tokens = false)
    (hvalue : readNode (limit + 1) true true names tokens = .ok (value, names, rest))
    (hrest : readBlockPairs (limit + 1) names rest = .ok (keys, values, names, left)) :
    readBlockPairs (limit + 2) names (.key :: .scalar name true :: .value :: tokens)
      = .ok (.scalar .text name :: keys, value :: values, names, left) := by
  have hkey : readNode (limit + 1) true true names (.scalar name true :: .value :: tokens)
      = .ok (.scalar .text name, names, .value :: tokens) := by
    rw [readNode_scalar, if_pos rfl, hname]
  have hbegins : endsBlockEntry (.scalar name true :: .value :: tokens) = false := rfl
  rw [readBlockPairs]
  simp only [hbegins, Bool.false_eq_true, if_false, hkey, bind, Except.bind, hends, hvalue, hrest]
  rfl

/-- The entries of a section are its pairs. -/
theorem readBlockPairs_entries {entries : List Entry} (hentries : ∀ e ∈ entries, IsName e.name)
    (hlimit : entries.length < limit) (names : Names) (rest : List Token) :
    readBlockPairs limit names (entries.flatMap Entry.tokens ++ .blockEnd :: rest)
      = .ok (entries.map fun e => .scalar .text e.name, entries.map Entry.node, names, rest) := by
  induction entries generalizing limit with
  | nil =>
      obtain ⟨limit, rfl⟩ := Nat.exists_eq_succ_of_ne_zero (Nat.ne_of_gt hlimit)
      rfl
  | cons e entries ih =>
      obtain ⟨he, hrest⟩ := List.forall_mem_cons.mp hentries
      rw [List.length_cons] at hlimit
      obtain ⟨limit, rfl⟩ : ∃ l, limit = l + 2 := ⟨limit - 2, by omega⟩
      exact readBlockPairs_pair he.isText rfl readNode_scalar (ih hrest (by omega))

/-- The sections of a document are its pairs. -/
theorem readBlockPairs_sections {sections : List Section} (hsections : ∀ b ∈ sections, b.Sound)
    (hlimit : ∀ b ∈ sections, b.entries.length + sections.length + 2 < limit)
    (hpositive : sections.length < limit) (names : Names) (rest : List Token) :
    readBlockPairs limit names (sections.flatMap Section.tokens ++ .blockEnd :: rest)
      = .ok (sections.map fun b => .scalar .text b.name, sections.map Section.node, names,
          rest) := by
  induction sections generalizing limit with
  | nil =>
      obtain ⟨limit, rfl⟩ := Nat.exists_eq_succ_of_ne_zero (Nat.ne_of_gt hpositive)
      rfl
  | cons b sections ih =>
      obtain ⟨hb, hrest⟩ := List.forall_mem_cons.mp hsections
      obtain ⟨hbLimit, hrestLimit⟩ := List.forall_mem_cons.mp hlimit
      rw [List.length_cons] at hbLimit hrestLimit hpositive
      obtain ⟨limit, rfl⟩ : ∃ l, limit = l + 2 := ⟨limit - 2, by omega⟩
      have hpairs := readBlockPairs_entries (fun e he => (hb.entries e he).name)
        (show b.entries.length < limit by omega) names
        (sections.flatMap Section.tokens ++ .blockEnd :: rest)
      have htokens : (b :: sections).flatMap Section.tokens ++ .blockEnd :: rest
          = .key :: .scalar b.name true :: .value :: .blockMapping ::
            (b.entries.flatMap Entry.tokens
              ++ .blockEnd :: (sections.flatMap Section.tokens ++ .blockEnd :: rest)) := by
        simp [Section.tokens]
      rw [htokens]
      exact readBlockPairs_pair hb.name.isText rfl
        (readNode_blockMapping hpairs (by simp) (by simp))
        (ih hrest (fun b' hb' => by have := hrestLimit b' hb'; omega) (by omega))

/-- Every section and every entry has tokens of its own. -/
theorem length_tokens (sections : List Section) :
    sections.length ≤ (sections.flatMap Section.tokens).length
      ∧ ∀ b ∈ sections,
        b.entries.length + sections.length ≤ (sections.flatMap Section.tokens).length := by
  have hentries (b : Section) : b.entries.length + 1 ≤ b.tokens.length := by
    have hflat : b.entries.length ≤ (b.entries.flatMap Entry.tokens).length := by
      induction b.entries with
      | nil => exact Nat.le_refl 0
      | cons e rest ih =>
          rw [List.flatMap_cons, List.length_append, List.length_cons]
          have htokens : e.tokens.length = 4 := rfl
          omega
    simp only [Section.tokens, List.length_cons, List.length_append]
    omega
  induction sections with
  | nil => exact ⟨Nat.le_refl 0, nofun⟩
  | cons b rest ih =>
      obtain ⟨ihRest, ihEntries⟩ := ih
      have hb := hentries b
      simp only [List.flatMap_cons, List.length_append, List.length_cons, List.forall_mem_cons]
      refine ⟨by omega, by omega, fun b' hb' => ?_⟩
      have := ihEntries b' hb'
      omega

/-- The tokens of a document make up the mapping of its sections. -/
theorem ofTokens_documentTokens {sections : List Section} (hsections : ∀ b ∈ sections, b.Sound) :
    Node.ofTokens (documentTokens sections) = .ok (some (documentNode sections)) := by
  obtain ⟨hlength, hentries⟩ := length_tokens sections
  have hsize : (documentTokens sections).length
      = (sections.flatMap Section.tokens).length + 2 := by simp [documentTokens]
  have hlimit : ∀ b ∈ sections, b.entries.length + sections.length + 2
      < 4 * (documentTokens sections).length + 3 := fun b hb => by
    have := hentries b hb
    omega
  have hpairs := readBlockPairs_sections hsections hlimit (by omega) ⟨usualHandles, []⟩ []
  have hnode : readNode (4 * (documentTokens sections).length + 4) true false ⟨usualHandles, []⟩
      (documentTokens sections) = .ok (documentNode sections, ⟨usualHandles, []⟩, []) :=
    readNode_blockMapping hpairs (by simp) (by simp)
  have hread : Node.ofTokens (documentTokens sections)
      = readNode (4 * (documentTokens sections).length + 4) true false
          ⟨usualHandles, []⟩ (documentTokens sections)
        >>= fun found => endDocument found.2.2 >>= fun _ => .ok (some found.1) := rfl
  rw [hread, hnode]
  rfl

-- =============================================================== values

/-- Keys that are texts have these for their values. -/
theorem valuesOf_texts (texts : List Text) :
    valuesOf (texts.map (.scalar .text)) = .ok (texts.map .text) := by
  induction texts with
  | nil => rfl
  | cons t texts ih =>
      rw [List.map_cons, valuesOf, ih]
      rfl

/-- The fields whose names are texts are all. -/
theorem textFields_texts (fields : List (Text × Lax.Value)) :
    textFields ((fields.map fun f => .text f.1).zip (fields.map (·.2))) = fields := by
  induction fields with
  | nil => rfl
  | cons f fields ih => exact congrArg (f :: ·) ih

/-- A mapping from texts is a record of the values. -/
theorem value_mapping {nodes : List Node} (fields : List (Text × Lax.Value))
    (hnodes : valuesOf nodes = .ok (fields.map (·.2))) :
    (Node.mapping .mapping (fields.map fun f => .scalar .text f.1) nodes).value
      = .ok (.record fields) := by
  have hkeys := valuesOf_texts (fields.map (·.1))
  rw [List.map_map, List.map_map] at hkeys
  have hall : (fields.map fun f => Node.scalar .text f.1).all Node.isKey = true := by
    simp [Node.isKey]
  have htexts := textFields_texts fields
  rw [Node.value]
  simp only [Function.comp_def] at hkeys
  simp only [hkeys, hnodes, bind, Except.bind, hall, Bool.not_true, Bool.false_eq_true, if_false,
    htexts]
  rfl

/-- A section that can be read has its record for its value. -/
theorem value_section {b : Section} (hb : b.Sound) : b.node.value = .ok b.value := by
  have hnodes : valuesOf (b.entries.map Entry.node)
      = .ok ((b.entries.map fun e => (e.name, e.value)).map (·.2)) := by
    obtain ⟨-, -, hentries⟩ := hb
    generalize b.entries = entries at hentries ⊢
    induction entries with
    | nil => rfl
    | cons e rest ih =>
        obtain ⟨he, hrest⟩ := List.forall_mem_cons.mp hentries
        rw [List.map_cons, valuesOf, he.value, ih hrest]
        rfl
  have hvalue := value_mapping _ hnodes
  rwa [List.map_map] at hvalue

/-- A document of records is read as the records of its sections. -/
theorem readFields_documentText {sections : List Section} (hne : sections ≠ [])
    (hsections : ∀ b ∈ sections, b.Sound) :
    readFields (documentText sections)
      = .ok (some (sections.map fun b => (b.name, b.value))) := by
  have hnodes : valuesOf (sections.map Section.node)
      = .ok ((sections.map fun b => (b.name, b.value)).map (·.2)) := by
    clear hne
    induction sections with
    | nil => rfl
    | cons b rest ih =>
        obtain ⟨hb, hrest⟩ := List.forall_mem_cons.mp hsections
        rw [List.map_cons, valuesOf, value_section hb, ih hrest]
        rfl
  have hvalue := value_mapping _ hnodes
  rw [List.map_map] at hvalue
  have hnames : (documentNode sections).namesFields = true := by
    simp [documentNode, Node.namesFields]
  unfold readFields
  simp only [scan_documentText hne hsections, ofTokens_documentTokens hsections, bind, Except.bind]
  rw [documentNode] at hnames ⊢
  simp only [Function.comp_def] at hvalue
  simp only [hvalue, hnames, if_true]
  rfl

end FeedSieve.Yaml
