/-
The lines of a document.

A document that is written line by line is read line by line. Between two
lines a reader of tokens is ready for the next key (`Ready`): it stands
behind the indentation, a key may begin, and nothing is remembered that
could be one. A key and its colon take two steps (`Ready.key`), and the value
behind it one (`ReadsAs`), whichever way it is written; then the reader is
ready again.
-/
import FeedSieve.Yaml.Token
import FeedSieve.Proofs.Yaml.Plain

namespace FeedSieve.Yaml

variable {t u w x y name : Text} {c : Cursor} {s : Scan} {tokens tokens' : List Token}
  {indent indent' : Int} {outer outer' : List Int} {k n : Nat} {allowed : Bool}

-- ============================================================== cursors

namespace Cursor

theorem skip_add (c : Cursor) (m n : Nat) : c.skip (m + n) = (c.skip m).skip n := by
  induction m generalizing c with
  | zero => rw [Nat.zero_add]; rfl
  | succ m ih => rw [Nat.succ_add]; exact ih c.next

/-- Past a beginning, the rest is left. -/
theorem rest_skip (hrest : c.rest = u ++ x) : (c.skip u.length).rest = x := by
  induction u generalizing c with
  | nil => exact hrest
  | cons d u ih =>
      refine ih ?_
      unfold next
      rw [hrest, List.cons_append]
      dsimp only
      split <;> rfl

/-- Where only the rest is left. -/
theorem upTo_append (hrest : c.rest = u ++ x) : c.upTo x = c.skip u.length := by
  unfold upTo
  rw [hrest, List.length_append, Nat.add_sub_cancel]

theorem upTo_self (c : Cursor) : c.upTo c.rest = c := by
  unfold upTo
  rw [Nat.sub_self]
  rfl

/-- Within a line every character takes up a column. -/
theorem skip_visible (hu : ∀ d ∈ u, isBreak d = false ∧ d ≠ '\uFEFF') (hrest : c.rest = u ++ x) :
    c.skip u.length = ⟨x, c.index + u.length, c.line, c.column + u.length⟩ := by
  induction u generalizing c with
  | nil =>
      obtain ⟨rest, index, line, column⟩ := c
      obtain rfl : rest = x := hrest
      rfl
  | cons d u ih =>
      obtain ⟨⟨hbreak, hmark⟩, hu⟩ := List.forall_mem_cons.mp hu
      have hnext : c.next = ⟨u ++ x, c.index + 1, c.line, c.column + 1⟩ := by
        unfold next
        rw [hrest, List.cons_append]
        simp only [hbreak, hmark, Bool.false_eq_true, if_false]
      have hskip := ih (c := c.next) hu (by rw [hnext])
      rw [hnext] at hskip
      rw [List.length_cons, skip, hnext, hskip, Nat.add_right_comm _ 1, Nat.add_right_comm _ 1,
        Nat.add_assoc, Nat.add_assoc]

/-- Behind a line end and some spaces, these are the columns. -/
theorem upTo_line (hrest : c.rest = u ++ '\n' :: (List.replicate k ' ' ++ x)) :
    (c.upTo x).rest = x ∧ (c.upTo x).column = k := by
  have hrest' : c.rest = (u ++ '\n' :: List.replicate k ' ') ++ x := by
    rw [hrest, List.append_assoc, List.cons_append]
  have hspaces : ∀ d ∈ List.replicate k ' ', isBreak d = false ∧ d ≠ '\uFEFF' := fun d hd => by
    rw [List.eq_of_mem_replicate hd]
    decide
  have hline : ((c.skip u.length).next).rest = List.replicate k ' ' ++ x
      ∧ ((c.skip u.length).next).column = 0 := by
    unfold next
    rw [rest_skip hrest]
    exact ⟨rfl, rfl⟩
  have hskip := skip_visible hspaces hline.1
  rw [upTo_append hrest', List.length_append, List.length_cons, skip_add]
  show ((c.skip u.length).next.skip _).rest = _ ∧ ((c.skip u.length).next.skip _).column = _
  rw [hskip, hline.2, List.length_replicate]
  exact ⟨rfl, Nat.zero_add k⟩

end Cursor

-- =============================================================== blanks

/-- What can begin a line: something visible, no comment, and no mark that
ends the document. -/
structure LineOf (k : Nat) (x : Text) : Prop where
  begins : Begins x
  noComment : first x ≠ '#'
  goes : k = 0 → endsDocument x = false

/-- A character that is visible is no space. -/
theorem IsVisible.ne_space {d : Char} (h : IsVisible d) : d ≠ ' ' := by
  rintro rfl
  cases h.1

/-- A colon is visible. -/
theorem begins_colon (y : Text) : Begins (':' :: y) := fun d hd => by
  obtain rfl := Option.some.inj hd
  exact ⟨rfl, rfl⟩

/-- Spaces before something visible can be told from it. -/
theorem spaces_inj (hx : Begins x) (hy : Begins y)
    (h : List.replicate k ' ' ++ x = List.replicate n ' ' ++ y) : k = n ∧ x = y := by
  have hsplit := (plainGap_spaces k hx).symm.trans (h ▸ plainGap_spaces n hy)
  rw [Prod.mk.injEq, PlainGap.mk.injEq] at hsplit
  refine ⟨?_, hsplit.2⟩
  simpa using congrArg List.length hsplit.1.1

namespace Scan

/-- Spaces are passed over. -/
theorem blanksFrom_spaces (limit : Nat) (k : Nat) (hx : Begins x) (hmark : first x ≠ '#') :
    skipBlanks.blanksFrom limit (List.replicate k ' ' ++ x) = (x, false) := by
  have hdrop : (List.replicate k ' ' ++ x).dropWhile (fun c => decide (c = ' ')) = x := by
    rw [List.dropWhile_append_of_pos fun c hc => decide_eq_true (List.eq_of_mem_replicate hc)]
    cases x with
    | nil => rfl
    | cons d x => rw [List.dropWhile_cons_of_neg]; simpa using (hx d rfl).ne_space
  unfold skipBlanks.blanksFrom
  simp only [hdrop, if_neg hmark]
  cases x with
  | nil => cases limit <;> rfl
  | cons d x =>
      cases limit with
      | zero => rfl
      | succ limit => simp only [(hx d rfl).2, Bool.false_eq_true, if_false]

/-- So is a line end before them. -/
theorem blanksFrom_line (limit : Nat) (k : Nat) (hx : Begins x) (hmark : first x ≠ '#') :
    skipBlanks.blanksFrom (limit + 1) ('\n' :: (List.replicate k ' ' ++ x)) = (x, true) := by
  have hline : isBreak '\n' = true := rfl
  have hno : first ('\n' :: (List.replicate k ' ' ++ x)) ≠ '#' := by
    show '\n' ≠ '#'
    decide
  have hdrop : ('\n' :: (List.replicate k ' ' ++ x)).dropWhile (fun c => decide (c = ' '))
      = '\n' :: (List.replicate k ' ' ++ x) := List.dropWhile_cons_of_neg (by decide)
  unfold skipBlanks.blanksFrom
  simp only [hdrop, if_neg hno, hline, if_true, blanksFrom_spaces limit k hx hmark]

theorem skipBlanks_spaces (hrest : s.cursor.rest = List.replicate k ' ' ++ x) (hx : Begins x)
    (hmark : first x ≠ '#') : s.skipBlanks = { s with cursor := s.cursor.upTo x } := by
  unfold skipBlanks
  rw [hrest]
  simp only [blanksFrom_spaces _ k hx hmark, Bool.false_and, Bool.or_false]

theorem skipBlanks_line (hrest : s.cursor.rest = '\n' :: (List.replicate k ' ' ++ x))
    (hx : Begins x) (hmark : first x ≠ '#') :
    s.skipBlanks
      = { s with cursor := s.cursor.upTo x, keyAllowed := s.keyAllowed || !s.inFlow } := by
  unfold skipBlanks
  rw [hrest, List.length_cons]
  simp only [blanksFrom_line _ k hx hmark, Bool.true_and]

-- ============================================================== blocks

/-- Nothing ends at a column that the present block reaches. -/
theorem unwind_of_le (h : s.indent ≤ k) : s.unwind k = s := by
  have hnone : ¬ (k : Int) < s.indent := Int.not_lt.mpr h
  unfold unwind
  split
  · rfl
  · simp [hnone]

/-- One block ends at a column that only the block around it reaches. -/
theorem unwind_one (hdepth : s.depth = 0) (hless : (k : Int) < s.indent)
    (houter : s.outer = indent' :: outer') (hle : indent' ≤ k) :
    s.unwind k
      = { s with indent := indent', outer := outer', tokens := .blockEnd :: s.tokens } := by
  have hflow : s.inFlow = false := by
    unfold inFlow
    rw [hdepth]
    rfl
  have hlast : ¬ (k : Int) < indent' := Int.not_lt.mpr hle
  unfold unwind
  simp [hflow, houter, hless, hlast]

end Scan

-- =============================================================== scalars

/-- A word with which a plain scalar can begin. -/
structure OpeningWord (w : Text) : Prop extends PlainWord w where
  unmarked : first w ∉ openingMarks
  single : w ≠ ['-'] ∧ w ≠ ['?']

theorem first_append (hne : w ≠ []) (y : Text) : first (w ++ y) = first w := by
  obtain ⟨c, w, rfl⟩ := List.exists_cons_of_ne_nil hne
  rfl

/-- A mark that means something only before the end of a word is none at the
beginning of such a word. -/
theorem OpeningWord.after (hw : OpeningWord w) (y : Text)
    (h : first w = '-' ∨ first w = '?' ∨ first w = ':') :
    endsToken (first ((w ++ y).drop 1)) = false := by
  obtain ⟨c, w, rfl⟩ := List.exists_cons_of_ne_nil hw.ne_nil
  cases w with
  | cons d w => exact hw.inner d (List.mem_cons_of_mem _ List.mem_cons_self)
  | nil =>
      exfalso
      obtain ⟨hdash, hquestion⟩ := hw.single
      rcases h with h | h | h
      · exact hdash (congrArg (fun c => [c]) h)
      · exact hquestion (congrArg (fun c => [c]) h)
      · exact hw.last (congrArg some h)

/-- A plain scalar may begin with it. -/
theorem OpeningWord.beginsPlain (hw : OpeningWord w) (y : Text) :
    Scan.beginsPlain false (first (w ++ y)) (first ((w ++ y).drop 1)) = true := by
  obtain ⟨c, v, rfl⟩ := List.exists_cons_of_ne_nil hw.ne_nil
  have hvisible : endsToken c = false := hw.inner c List.mem_cons_self
  have hafter := hw.after y
  by_cases hmark : c = '-' ∨ c = '?' ∨ c = ':'
  · have hnext := hafter hmark
    unfold Scan.beginsPlain
    rw [hnext]
    rcases hmark with rfl | rfl | rfl <;> rfl
  · have hunmarked : "-?:,[]\x7b\x7d#&*!|>'\"%@`".toList.contains c = false := by
      have hsplit : ∀ d ∈ "-?:,[]\x7b\x7d#&*!|>'\"%@`".toList,
          d ∈ openingMarks ∨ d = '-' ∨ d = '?' ∨ d = ':' := by decide
      rw [Bool.eq_false_iff, ne_eq, List.contains_iff_mem]
      exact fun hmem => (hsplit c hmem).elim hw.unmarked hmark
    unfold Scan.beginsPlain
    rw [List.cons_append]
    show (!(endsToken c || "-?:,[]\x7b\x7d#&*!|>'\"%@`".toList.contains c) || _) = true
    rw [hvisible, hunmarked]
    rfl

namespace Scan

/-- Reading goes on with a plain scalar where there is a word for it. -/
theorem step_plainScalar (hw : OpeningWord w)
    (hblanks : s.skipBlanks = ⟨c, tokens, 0, indent, outer, allowed, []⟩)
    (hrest : c.rest = w ++ y) (hstart : c.column = 0 → endsDocument c.rest = false)
    (hunwind : unwind c.column ⟨c, tokens, 0, indent, outer, allowed, []⟩
      = ⟨c, tokens', 0, indent', outer', allowed, []⟩) :
    s.step = .inl <$> plainScalar ⟨c, tokens', 0, indent', outer', allowed, []⟩ := by
  have hstale : dropStale ⟨c, tokens, 0, indent, outer, allowed, []⟩
      = .ok ⟨c, tokens, 0, indent, outer, allowed, []⟩ := rfl
  have hnonempty : (w ++ y).isEmpty = false := by
    rw [List.isEmpty_eq_false_iff]
    exact List.append_ne_nil_of_left_ne_nil hw.ne_nil y
  have hword := first_append hw.ne_nil y
  have hfirst (m : Char) (hm : m ∈ openingMarks) : ¬ first (w ++ y) = m := by
    rintro rfl
    exact hw.unmarked (hword ▸ hm)
  have hafter (m : Char) (hm : m = '-' ∨ m = '?' ∨ m = ':') :
      (decide (first (w ++ y) = m) && endsToken (first ((w ++ y).drop 1))) = false := by
    rw [Bool.and_eq_false_imp, decide_eq_true_eq]
    rintro rfl
    exact hw.after y (hword ▸ hm)
  have hseparators : (decide (c.column = 0) && isSeparator '-' (w ++ y)) = false
      ∧ (decide (c.column = 0) && isSeparator '.' (w ++ y)) = false := by
    rw [hrest] at hstart
    unfold endsDocument at hstart
    simp only [Bool.or_eq_false_iff] at hstart
    simp only [Bool.and_eq_false_imp, decide_eq_true_eq]
    exact ⟨fun h => (hstart h).1, fun h => (hstart h).2⟩
  have hcolumn : column ⟨c, tokens, 0, indent, outer, allowed, []⟩ = c.column := rfl
  have hflow : inFlow ⟨c, tokens', 0, indent', outer', allowed, []⟩ = false := rfl
  unfold step
  simp only [hblanks, hstale, bind, Except.bind, hcolumn, hunwind, hflow, Cursor.peekNext, hrest,
    hnonempty, hseparators.1, hseparators.2, hafter '-' (by simp), hafter '?' (by simp),
    hafter ':' (by simp), hw.beginsPlain y, hfirst '%' (by decide), hfirst '[' (by decide),
    hfirst '\x7b' (by decide), hfirst ']' (by decide), hfirst '\x7d' (by decide),
    hfirst ',' (by decide), hfirst '*' (by decide), hfirst '&' (by decide),
    hfirst '!' (by decide), hfirst '|' (by decide), hfirst '>' (by decide),
    hfirst '\'' (by decide), hfirst '"' (by decide), decide_false, Bool.false_and, Bool.false_or,
    Bool.false_eq_true, if_false, if_true]

-- ================================================================= keys

/-- Reading goes on with a colon that can make a key. -/
theorem step_colon {candidate : Candidate} (hrest : c.rest = ':' :: y)
    (hy : endsToken (first y) = true) (hle : indent ≤ c.column) (hline : candidate.line = c.line)
    (hlimit : c.index - candidate.index ≤ keyLimit) :
    step ⟨c, tokens, 0, indent, outer, false, [(0, candidate)]⟩
      = .inl <$> mappingValue ⟨c, tokens, 0, indent, outer, false, [(0, candidate)]⟩ := by
  have hblanks : skipBlanks ⟨c, tokens, 0, indent, outer, false, [(0, candidate)]⟩
      = ⟨c, tokens, 0, indent, outer, false, [(0, candidate)]⟩ := by
    rw [skipBlanks_spaces (k := 0) hrest (begins_colon y) (by show ':' ≠ '#'; decide)]
    simp only [← hrest, Cursor.upTo_self]
  have hstale : dropStale ⟨c, tokens, 0, indent, outer, false, [(0, candidate)]⟩
      = .ok ⟨c, tokens, 0, indent, outer, false, [(0, candidate)]⟩ := by
    have hfresh : (candidate.line != c.line || decide (keyLimit < c.index - candidate.index))
        = false := by
      rw [hline, decide_eq_false (Nat.not_lt.mpr hlimit), bne_self_eq_false, Bool.false_or]
    simp only [dropStale, List.any_cons, List.any_nil, hfresh, Bool.false_and, Bool.or_self,
      Bool.false_eq_true, if_false, List.filter_cons, List.filter_nil, Bool.not_false, if_true]
  have hcolumn : column ⟨c, tokens, 0, indent, outer, false, [(0, candidate)]⟩ = c.column := rfl
  have hunwind : unwind c.column ⟨c, tokens, 0, indent, outer, false, [(0, candidate)]⟩
      = ⟨c, tokens, 0, indent, outer, false, [(0, candidate)]⟩ := unwind_of_le hle
  have hseparators : isSeparator '-' (':' :: y) = false ∧ isSeparator '.' (':' :: y) = false :=
    Bool.or_eq_false_iff.mp (endsDocument_cons (by decide) (by decide) y)
  have hflow : inFlow ⟨c, tokens, 0, indent, outer, false, [(0, candidate)]⟩ = false := rfl
  have hfirst : first (':' :: y) = ':' := rfl
  unfold step
  simp only [hblanks, hstale, bind, Except.bind, hcolumn, hunwind, hflow, Cursor.peekNext, hrest,
    hseparators.1, hseparators.2, hfirst, List.drop_one, List.tail_cons, hy, Bool.and_false]
  rfl

/-- A key that is indented further than the block it is in begins a block. -/
theorem mappingValue_opens {candidate : Candidate} {token : Token}
    (hplace : candidate.place = tokens.length) (hless : indent < candidate.column) :
    mappingValue ⟨c, token :: tokens, 0, indent, outer, false, [(0, candidate)]⟩
      = .ok ⟨c.skip 1, .value :: token :: .key :: .blockMapping :: tokens, 0, candidate.column,
          indent :: outer, false, []⟩ := by
  simp [mappingValue, candidate?, inFlow, indentTo, hless, insertAt, hplace, take, push, pure,
    Except.pure]

/-- Any other goes on with it. -/
theorem mappingValue_continues {candidate : Candidate} {token : Token}
    (hplace : candidate.place = tokens.length) (heq : indent = candidate.column) :
    mappingValue ⟨c, token :: tokens, 0, indent, outer, false, [(0, candidate)]⟩
      = .ok ⟨c.skip 1, .value :: token :: .key :: tokens, 0, indent, outer, false, []⟩ := by
  simp [mappingValue, candidate?, inFlow, indentTo, heq, insertAt, hplace, take, push, pure,
    Except.pure]

end Scan

/-- A name: letters and underscores, short enough for a key, and no word that
stands for something else. -/
structure IsName (name : Text) : Prop where
  ne_nil : name ≠ []
  letters : ∀ c ∈ name, (Text.isLetter c || c = '_') = true
  short : name.length ≤ Scan.keyLimit
  isText : Tag.ofForm name = .text

/-- A letter of a name is visible ASCII, and no mark. -/
theorem letter_facts {d : Char} (h : (Text.isLetter d || d = '_') = true) :
    isOrdinary d = true ∧ endsToken d = false ∧ d ∉ openingMarks
      ∧ d ≠ '-' ∧ d ≠ '?' ∧ d ≠ '.' ∧ d ≠ ':' := by
  have hne (m : Char) (hm : (Text.isLetter m || m = '_') = false) : d ≠ m := by
    rintro rfl
    rw [hm] at h
    cases h
  have hordinary : isOrdinary d = true := by
    simp only [Text.isLetter, Bool.or_eq_true, Bool.and_eq_true, decide_eq_true_eq] at h
    simp only [isOrdinary, Bool.or_eq_true, Bool.and_eq_true, decide_eq_true_eq]
    refine .inr ?_
    rcases h with (⟨hlow, hhigh⟩ | ⟨hlow, hhigh⟩) | rfl
    · exact ⟨Char.le_trans (by decide) hlow, Char.le_trans hhigh (by decide)⟩
    · exact ⟨Char.le_trans (by decide) hlow, Char.le_trans hhigh (by decide)⟩
    · decide
  have hmarks : ∀ m ∈ openingMarks, (Text.isLetter m || m = '_') = false := by decide
  exact ⟨hordinary, endsToken_of_isOrdinary hordinary (hne _ rfl) (hne _ rfl),
    fun hmem => hne d (hmarks d hmem) rfl, hne _ rfl, hne _ rfl, hne _ rfl, hne _ rfl⟩

/-- A plain scalar can begin with a name. -/
theorem IsName.openingWord (h : IsName name) : OpeningWord name := by
  have hletters := h.letters
  have hne := h.ne_nil
  obtain ⟨c, rest, rfl⟩ := List.exists_cons_of_ne_nil hne
  obtain ⟨-, -, hmarks, hdash, hquestion, -, -⟩ := letter_facts (hletters c List.mem_cons_self)
  refine ⟨⟨hne, fun d hd => (letter_facts (hletters d hd)).2.1, ?_, fun hlast => ?_⟩, hmarks,
    ?_, ?_⟩
  · exact fun hhash : c = '#' => hmarks (hhash ▸ by decide)
  · obtain ⟨-, -, -, -, -, -, hcolon⟩ := letter_facts (hletters _ (List.mem_of_getLast? hlast))
    exact hcolon rfl
  · exact fun h => hdash (List.cons.inj h).1
  · exact fun h => hquestion (List.cons.inj h).1

/-- A line can begin with it. -/
theorem IsName.lineOf (h : IsName name) (k : Nat) (y : Text) : LineOf k (name ++ y) := by
  obtain ⟨hbegins, hmark⟩ := h.openingWord.toPlainWord.begins y
  refine ⟨hbegins, hmark, fun _ => ?_⟩
  have hletters := h.letters
  have hne := h.ne_nil
  obtain ⟨c, rest, rfl⟩ := List.exists_cons_of_ne_nil hne
  obtain ⟨-, -, -, hdash, -, hdot, -⟩ := letter_facts (hletters c List.mem_cons_self)
  exact endsDocument_cons hdash hdot _

/-- What a key makes of the tokens and the blocks around it: it begins a
block, goes on with the present one, or ends it and goes on with the one
around it. -/
inductive Enters (k : Nat) : List Token → Int → List Int → List Token → List Int → Prop where
  | opens {before : List Token} {i : Int} {around : List Int} (h : i < k) :
      Enters k before i around (.blockMapping :: before) (i :: around)
  | stays {before : List Token} {around : List Int} : Enters k before k around before around
  | closes {before : List Token} {i : Int} {around : List Int} (h : (k : Int) < i) :
      Enters k before i (k :: around) (.blockEnd :: before) around

namespace Scan

/-- A name before a colon is read as a plain scalar. -/
theorem plain_name (hname : IsName name) (hy : endsToken (first y) = true) (indent : Int) :
    plain false indent (name ++ ':' :: y) = ⟨name, false, ':' :: y⟩ := by
  have hopening := hname.openingWord
  have hends : EndsWord (':' :: y) := by
    rintro d rest heq
    obtain ⟨rfl, rfl⟩ := List.cons.inj heq
    simp only [endsPlain, hy]
    rfl
  have hword := plainWord_append hopening.inner hopening.last hends
  have hgap : plainGap (':' :: y) = (⟨[], none⟩, ':' :: y) := plainGap_spaces 0 (begins_colon y)
  have hmark : ¬ first (name ++ ':' :: y) = '#' := (hname.lineOf 0 _).noComment
  obtain ⟨c, rest, hcons⟩ := List.exists_cons_of_ne_nil hname.ne_nil
  unfold plain
  rw [plainFrom, if_neg hmark, hword, hcons]
  simp only [hgap, List.isEmpty_nil, Bool.true_or, if_true, List.nil_append]
  rfl

/-- Ready for a line: it stands behind the indentation of the line. -/
def Ready (s : Scan) (t : Text) (tokens : List Token) (indent : Int) (outer : List Int) : Prop :=
  ∃ c : Cursor, s.skipBlanks = ⟨c, tokens, 0, indent, outer, true, []⟩
    ∧ t = List.replicate c.column ' ' ++ c.rest ∧ LineOf c.column c.rest

/-- What is read as a plain scalar where it may be a key is remembered; elsewhere it is not. -/
theorem plainScalar_eq {p : Plain} (hplain : plain false (indent + 1) c.rest = p) :
    plainScalar ⟨c, tokens, 0, indent, outer, allowed, []⟩
      = .ok ⟨c.upTo p.rest, .scalar p.text true :: tokens, 0, indent, outer, p.lineEnded,
          if allowed then [(0, ⟨tokens.length, indent == c.column, c.index, c.line, c.column⟩)]
          else []⟩ := by
  subst hplain
  cases allowed <;> rfl

/-- The name at the beginning of a line is read, and remembered. -/
theorem step_name (hname : IsName name) (hy : endsToken (first y) = true)
    (hblanks : s.skipBlanks = ⟨c, tokens, 0, indent, outer, true, []⟩)
    (hrest : c.rest = name ++ ':' :: y)
    (hunwind : unwind c.column ⟨c, tokens, 0, indent, outer, true, []⟩
      = ⟨c, tokens', 0, indent', outer', true, []⟩) :
    s.step = .ok (.inl
      ⟨⟨':' :: y, c.index + name.length, c.line, c.column + name.length⟩,
        .scalar name true :: tokens', 0, indent', outer', false,
        [(0, ⟨tokens'.length, indent' == c.column, c.index, c.line, c.column⟩)]⟩) := by
  have hstart : c.column = 0 → endsDocument c.rest = false := fun h => by
    rw [hrest]
    exact (hname.lineOf 0 _).goes rfl
  have hvisible : ∀ d ∈ name, isBreak d = false ∧ d ≠ '\uFEFF' := fun d hd => by
    obtain ⟨-, hends, -⟩ := letter_facts (hname.letters d hd)
    refine ⟨(isVisible_of_endsToken hends).2, ?_⟩
    rintro rfl
    exact absurd (hname.letters _ hd) (by decide)
  have hpassed : c.upTo (':' :: y)
      = ⟨':' :: y, c.index + name.length, c.line, c.column + name.length⟩ := by
    rw [Cursor.upTo_append hrest, Cursor.skip_visible hvisible hrest]
  rw [step_plainScalar hname.openingWord hblanks hrest hstart hunwind,
    plainScalar_eq (hrest ▸ plain_name hname hy _), hpassed]
  rfl

/-- A key and its colon at the beginning of a line. -/
theorem Ready.key (hname : IsName name) (hy : endsToken (first y) = true)
    (henters : Enters k tokens indent outer tokens' outer')
    (h : Ready s (List.replicate k ' ' ++ (name ++ ':' :: y)) tokens indent outer) :
    ∃ c' : Cursor, (∀ n, steps (n + 2) step s = steps n step
        ⟨c', .value :: .scalar name true :: .key :: tokens', 0, k, outer', false, []⟩)
      ∧ c'.rest = y ∧ c'.column = k + name.length + 1 := by
  obtain ⟨c, hblanks, htext, hline⟩ := h
  obtain ⟨hcolumn, hrest⟩ := spaces_inj (hname.lineOf k _).begins hline.begins htext
  refine ⟨⟨y, c.index + name.length + 1, c.line, c.column + name.length + 1⟩, fun n => ?_, rfl,
    by rw [hcolumn]⟩
  -- what the name has made of the blocks decides what the colon makes of them
  obtain ⟨tokens₁, indent₁, outer₁, hunwind, hle, hcolon⟩ : ∃ tokens₁ indent₁ outer₁,
      unwind c.column ⟨c, tokens, 0, indent, outer, true, []⟩
        = ⟨c, tokens₁, 0, indent₁, outer₁, true, []⟩ ∧ indent₁ ≤ c.column
      ∧ ∀ c' : Cursor, mappingValue ⟨c', .scalar name true :: tokens₁, 0, indent₁, outer₁, false,
          [(0, ⟨tokens₁.length, indent₁ == c.column, c.index, c.line, c.column⟩)]⟩
        = .ok ⟨c'.skip 1, .value :: .scalar name true :: .key :: tokens', 0, k, outer', false,
            []⟩ := by
    rw [← hcolumn]
    cases henters with
    | opens hless =>
        exact ⟨tokens, indent, outer, unwind_of_le (Int.le_of_lt hless), Int.le_of_lt hless,
          fun c' => mappingValue_opens rfl hless⟩
    | stays =>
        exact ⟨tokens, k, outer, unwind_of_le (Int.le_refl _), Int.le_refl _,
          fun c' => mappingValue_continues rfl rfl⟩
    | closes hless =>
        exact ⟨.blockEnd :: tokens, k, outer', unwind_one rfl hless rfl (Int.le_refl _),
          Int.le_refl _, fun c' => mappingValue_continues rfl rfl⟩
  have hname' := step_name hname hy hblanks hrest.symm hunwind
  rw [steps, hname']
  dsimp only
  rw [steps, step_colon rfl hy (Int.le_trans hle (Int.ofNat_le.mpr (Nat.le_add_right _ _))) rfl
    (by simpa using hname.short), hcolon]
  rfl

/-- Where a key has been read, and the next line begins a block, reading is
ready for that. -/
theorem ready_of_lineEnd (hrest : c.rest = '\n' :: (List.replicate k ' ' ++ x)) (hline : LineOf k x)
    (hallowed : s = ⟨c, tokens, 0, indent, outer, allowed, []⟩) :
    Ready s (List.replicate k ' ' ++ x) tokens indent outer := by
  subst hallowed
  obtain ⟨hleft, hcolumn⟩ := Cursor.upTo_line (u := []) hrest
  refine ⟨c.upTo x, ?_, by rw [hleft, hcolumn], by rwa [hleft, hcolumn]⟩
  rw [skipBlanks_line hrest hline.begins hline.noComment]
  simp only [inFlow, bne_self_eq_false, Bool.not_false, Bool.or_true]

/-- Where the line end and the indentation have been passed over, it is ready too. -/
theorem ready_of_passed (hrest : c.rest = u ++ '\n' :: (List.replicate k ' ' ++ x))
    (hline : LineOf k x) :
    Ready ⟨c.upTo x, tokens, 0, indent, outer, true, []⟩ (List.replicate k ' ' ++ x) tokens indent
      outer := by
  obtain ⟨hleft, hcolumn⟩ := Cursor.upTo_line hrest
  refine ⟨c.upTo x, ?_, by rw [hleft, hcolumn], by rwa [hleft, hcolumn]⟩
  rw [skipBlanks_spaces (k := 0) hleft hline.begins hline.noComment]
  have hself := Cursor.upTo_self (c.upTo x)
  rw [hleft] at hself
  simp only [hself]

/-- A space before a value is passed over. -/
theorem skipBlanks_space (hrest : c.rest = ' ' :: x) (hx : Begins x) (hmark : first x ≠ '#')
    (tokens : List Token) (indent : Int) (outer : List Int) (allowed : Bool) :
    skipBlanks ⟨c, tokens, 0, indent, outer, allowed, []⟩
      = ⟨⟨x, c.index + 1, c.line, c.column + 1⟩, tokens, 0, indent, outer, allowed, []⟩ := by
  have hspace : ∀ d ∈ [' '], isBreak d = false ∧ d ≠ '\uFEFF' := by decide
  have hskip := Cursor.skip_visible (u := [' ']) hspace hrest
  rw [skipBlanks_spaces (k := 1) hrest hx hmark, Cursor.upTo_append (u := [' ']) hrest, hskip]
  rfl

end Scan

-- =============================================================== values

/-- A text that is read as a scalar where it is written behind a colon, up to
a line that is indented no further than the key. -/
def ReadsAs (w text : Text) (isPlain : Bool) : Prop :=
  ∀ (c : Cursor) (tokens : List Token) (k : Nat) (outer : List Int) (n : Nat) (x : Text),
    c.rest = ' ' :: (w ++ '\n' :: (List.replicate n ' ' ++ x)) → k ≤ c.column → k < foldIndent →
    n ≤ k → LineOf n x →
    ∃ s', Scan.step ⟨c, tokens, 0, k, outer, false, []⟩ = .ok (.inl s')
      ∧ s'.Ready (List.replicate n ' ' ++ x) (.scalar text isPlain :: tokens) k outer

/-- A sentence is read as its text. -/
theorem readsAs_sentence {rest : List Run} (h : Sentence (.word w :: rest)) (hw : OpeningWord w)
    (column : Nat) (opening : Bool) :
    ReadsAs (writeRuns false column opening (.word w :: rest)) (textOf (.word w :: rest)) true := by
  intro c tokens k outer n x hrest hcolumn hfold hle hline
  have hread := plain_written h (show (k + 1 : Int) ≤ foldIndent by omega) (by omega)
    hline.begins hline.goes column opening
  obtain ⟨hbegins, hmark⟩ := h.begins column opening ('\n' :: (List.replicate n ' ' ++ x))
  have hblanks := Scan.skipBlanks_space hrest hbegins hmark tokens k outer false
  rw [writeRuns, List.append_assoc] at hblanks hread
  have hstep := Scan.step_plainScalar hw hblanks rfl (fun h => absurd h (Nat.succ_ne_zero _))
    (Scan.unwind_of_le (Int.ofNat_le.mpr (Nat.le_succ_of_le hcolumn)))
  refine ⟨_, hstep.trans (congrArg _ (Scan.plainScalar_eq hread)), ?_⟩
  exact Scan.ready_of_passed (List.append_assoc ..).symm hline

/-- What cannot be a key is only read. -/
theorem keyLike_eq (read : Text → Except Fault (Token × Text)) {token : Token}
    (hread : read c.rest = .ok (token, x)) (tokens : List Token) (indent : Int)
    (outer : List Int) :
    Scan.keyLike read ⟨c, tokens, 0, indent, outer, false, []⟩
      = .ok ⟨c.upTo x, token :: tokens, 0, indent, outer, false, []⟩ := by
  show Except.bind (read c.rest) _ = _
  rw [hread]
  rfl

/-- A quote, and the reader of what stands behind it. -/
inductive QuoteReader : Char → (Text → Except Fault (Text × Text)) → Prop where
  | single : QuoteReader '\'' (singleQuoted [] .none)
  | double : QuoteReader '"' (doubleQuoted [] .none)

/-- Reading goes on with a text in quotes. -/
theorem step_quoted {quote : Char} {read : Text → Except Fault (Text × Text)}
    (hquote : QuoteReader quote read)
    (hblanks : s.skipBlanks = ⟨c, tokens, 0, indent, outer, false, []⟩)
    (hrest : c.rest = quote :: y) (hle : indent ≤ c.column) (hread : read y = .ok (t, x)) :
    s.step = .ok (.inl ⟨c.upTo x, .scalar t false :: tokens, 0, indent, outer, false, []⟩) := by
  have hstale : Scan.dropStale ⟨c, tokens, 0, indent, outer, false, []⟩
      = .ok ⟨c, tokens, 0, indent, outer, false, []⟩ := rfl
  have hcolumn : Scan.column ⟨c, tokens, 0, indent, outer, false, []⟩ = c.column := rfl
  have hunwind : Scan.unwind c.column ⟨c, tokens, 0, indent, outer, false, []⟩
      = ⟨c, tokens, 0, indent, outer, false, []⟩ := Scan.unwind_of_le hle
  have hflow : Scan.inFlow ⟨c, tokens, 0, indent, outer, false, []⟩ = false := rfl
  have hseparators : isSeparator '-' (quote :: y) = false
      ∧ isSeparator '.' (quote :: y) = false := by
    have hnone : endsDocument (quote :: y) = false := by
      cases hquote <;> exact endsDocument_cons (by decide) (by decide) y
    exact Bool.or_eq_false_iff.mp hnone
  have hfirst : first (quote :: y) = quote := rfl
  have htoken : (read (c.rest.drop 1)).map (fun p => (Token.scalar p.1 false, p.2))
      = .ok (.scalar t false, x) := by
    rw [hrest, List.drop_one, List.tail_cons, hread]
    rfl
  have hscalar := congrArg (fun r => (.inl <$> r : Except Fault (Scan ⊕ List Token)))
    (keyLike_eq (fun t => (read (t.drop 1)).map fun p => (.scalar p.1 false, p.2)) htoken
      tokens indent outer)
  unfold Scan.step
  simp only [hblanks, hstale, bind, Except.bind, hcolumn, hunwind, hflow, Cursor.peekNext, hrest,
    hseparators.1, hseparators.2, hfirst, Bool.and_false]
  cases hquote <;> exact hscalar

/-- A text in quotes is read as what its reader gives. -/
theorem readsAs_quoted {quote : Char} {read : Text → Except Fault (Text × Text)}
    (hquote : QuoteReader quote read)
    (hread : ∀ x, x.head? ≠ some '\'' → read (w ++ quote :: x) = .ok (t, x)) :
    ReadsAs (quote :: w ++ [quote]) t false := by
  intro c tokens k outer n x hrest hcolumn _ _ hline
  have hbegins (y : Text) : Begins (quote :: y) ∧ first (quote :: y) ≠ '#' := by
    refine ⟨fun d hd => ?_, ?_⟩
    · obtain rfl := Option.some.inj hd
      cases hquote <;> exact ⟨rfl, rfl⟩
    · show quote ≠ '#'
      cases hquote <;> decide
  rw [List.append_assoc, List.singleton_append, List.cons_append] at hrest
  have hblanks := Scan.skipBlanks_space hrest (hbegins _).1 (hbegins _).2 tokens k outer false
  have hstep := step_quoted hquote hblanks rfl (Int.ofNat_le.mpr (Nat.le_succ_of_le hcolumn))
    (hread ('\n' :: (List.replicate n ' ' ++ x)) (by simp))
  refine ⟨_, hstep, Scan.ready_of_lineEnd ?_ hline rfl⟩
  -- the line end behind the quote is all that is left
  rw [Cursor.upTo_append (u := quote :: w ++ [quote]) (by simp)]
  exact Cursor.rest_skip (by simp)

end FeedSieve.Yaml
