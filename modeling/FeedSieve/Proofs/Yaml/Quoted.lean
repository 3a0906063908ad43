/-
Texts in quotes are read again.

A reader of quotes keeps what it has read since the last visible character
in a gap, and the gap counts for something only when the next one comes. So
what is written between two visible characters may be told from the gap it
leaves: spaces leave themselves, a fold leaves a space, and a fold behind an
escape sign nothing at all. In single quotes this goes run by run
(`singleQuoted_runs`), in double quotes character by character
(`doubleQuoted_written`).
-/
import FeedSieve.Proofs.Yaml.Runs
import FeedSieve.Yaml.Scalar

namespace FeedSieve.Yaml

variable {c : Char} {t x done blanks : Text} {gap : Gap} {runs : List Run} {n : Nat}

-- ====================================================== single quotes

/-- A character that stands for itself: no blank and no end of a line. -/
def IsVisible (c : Char) : Prop := isBlank c = false ∧ isBreak c = false

/-- Visible ASCII is visible. -/
theorem isVisible_of_isOrdinary (h : isOrdinary c = true) (hspace : c ≠ ' ') (hbreak : c ≠ '\n') :
    IsVisible c := by
  unfold isOrdinary at h
  simp only [Bool.or_eq_true, decide_eq_true_eq, hbreak, false_or, Bool.and_eq_true] at h
  obtain ⟨hlow, hhigh⟩ := h
  have hne {d : Char} (hd : d < ' ' ∨ '~' < d) : c ≠ d := by
    rintro rfl
    rcases hd with hd | hd
    · exact absurd hlow (Char.not_le.mpr hd)
    · exact absurd hhigh (Char.not_le.mpr hd)
  unfold IsVisible isBlank isBreak
  simp only [hspace, hbreak, hne (d := '\t') (Or.inl (by decide)),
    hne (d := '\x85') (Or.inr (by decide)), hne (d := '\u2028') (Or.inr (by decide)),
    hne (d := '\u2029') (Or.inr (by decide)), decide_false, Bool.or_self, and_self]

namespace Gap

@[simp] theorem text_none : Gap.none.text = [] := rfl

@[simp] theorem text_blanks (blanks breaks : Text) (fresh : Bool) :
    text ⟨blanks, .none, breaks, fresh⟩ = blanks := rfl

@[simp] theorem text_fold (blanks : Text) (fresh : Bool) :
    text ⟨blanks, some ['\n'], [], fresh⟩ = [' '] := rfl

@[simp] theorem text_breaks (blanks : Text) (fresh : Bool) (n : Nat) :
    text ⟨blanks, some ['\n'], List.replicate (n + 1) '\n', fresh⟩
      = List.replicate (n + 1) '\n' := by
  unfold text
  simp

@[simp] theorem text_joined (blanks : Text) (fresh : Bool) :
    text ⟨blanks, some [], [], fresh⟩ = [] := rfl

end Gap

/-- Only a dash or a dot can end the document. -/
theorem endsDocument_cons (hdash : c ≠ '-') (hdot : c ≠ '.') (t : Text) :
    endsDocument (c :: t) = false := by
  unfold endsDocument isSeparator
  rcases t with - | ⟨a, - | ⟨b, t⟩⟩ <;> simp [hdash, hdot]

/-- Neither a blank nor a line end can. -/
theorem notEnded_of_blank (hc : c = ' ' ∨ c = '\n') (t : Text) (fresh : Bool) :
    (fresh && endsDocument (c :: t)) = false := by
  rw [endsDocument_cons (by rcases hc with rfl | rfl <;> decide)
    (by rcases hc with rfl | rfl <;> decide), Bool.and_false]

/-- What a reader of single quotes does with what comes next. -/
inductive SingleStep : Text → Gap → Text → Text → Gap → Text → Prop where
  | blank {done x : Text} {gap : Gap} {c : Char} (hc : isBlank c = true)
      (hends : (gap.fresh && endsDocument (c :: x)) = false) :
      SingleStep done gap (c :: x) done (gap.blank c) x
  | lineEnd {done x : Text} {gap : Gap} {c : Char} (hblank : isBlank c = false)
      (hc : isBreak c = true) (hends : (gap.fresh && endsDocument (c :: x)) = false) :
      SingleStep done gap (c :: x) done (gap.lineEnd c) x
  | visible {done x : Text} {gap : Gap} {c : Char} (hc : IsVisible c) (hquote : c ≠ '\'')
      (hgap : gap.fresh = false) :
      SingleStep done gap (c :: x) (c :: (gap.text.reverse ++ done)) .none x
  | doubled {done x : Text} {gap : Gap} (hgap : gap.fresh = false) :
      SingleStep done gap ('\'' :: '\'' :: x) ('\'' :: (gap.text.reverse ++ done)) .none x

/-- It reads on from there. -/
theorem SingleStep.reads {gap' : Gap} {done' y : Text} (h : SingleStep done gap x done' gap' y) :
    singleQuoted done gap x = singleQuoted done' gap' y := by
  cases h with
  | blank hc hends =>
      rw [singleQuoted, hends, hc]
      rfl
  | lineEnd hblank hc hends =>
      rw [singleQuoted, hends, hblank, hc]
      rfl
  | visible hc hquote hgap =>
      rw [singleQuoted, hgap, hc.1, hc.2, if_neg hquote]
      rfl
  | doubled hgap =>
      have hvisible : IsVisible '\'' := ⟨rfl, rfl⟩
      rw [singleQuoted, hgap, hvisible.1, hvisible.2]
      rfl

/-- A quote that is not doubled ends the text. -/
theorem singleQuoted_end (hgap : gap.fresh = false) (hx : x.head? ≠ some '\'') :
    singleQuoted done gap ('\'' :: x) = .ok (done.reverse ++ gap.text, x) := by
  have hblank : isBlank '\'' = false := rfl
  have hbreak : isBreak '\'' = false := rfl
  rw [singleQuoted, hgap, hblank, hbreak]
  simp only [Bool.false_and, Bool.false_eq_true, if_false, if_true]
  split
  · exact absurd rfl hx
  · rw [List.reverse_append, List.reverse_reverse]

/-- How a character is written in single quotes. -/
def inSingle (c : Char) : Text := if c = '\'' then ['\'', '\''] else [c]

/-- A character that is written in single quotes is read behind its gap. -/
theorem singleQuoted_inSingle (hc : IsVisible c) (hgap : gap.fresh = false) :
    singleQuoted done gap (inSingle c ++ x)
      = singleQuoted (c :: (gap.text.reverse ++ done)) .none x := by
  unfold inSingle
  split
  · rename_i hquote
    subst hquote
    exact (SingleStep.doubled hgap).reads
  · rename_i hquote
    exact (SingleStep.visible hc hquote hgap).reads

/-- So is a word. -/
theorem singleQuoted_word (hne : t ≠ []) (h : ∀ c ∈ t, IsVisible c) (hgap : gap.fresh = false) :
    singleQuoted done gap (t.flatMap inSingle ++ x)
      = singleQuoted (t.reverse ++ (gap.text.reverse ++ done)) .none x := by
  induction t generalizing done gap with
  | nil => exact absurd rfl hne
  | cons c t ih =>
      obtain ⟨hc, ht⟩ := List.forall_mem_cons.mp h
      rw [List.flatMap_cons, List.append_assoc, singleQuoted_inSingle hc hgap]
      by_cases hnil : t = []
      · subst hnil
        rfl
      · rw [ih hnil ht rfl, List.reverse_cons, List.append_assoc]
        rfl

/-- Spaces are kept in the gap. -/
theorem singleQuoted_spaces (n : Nat) :
    singleQuoted done ⟨blanks, .none, [], false⟩ (List.replicate n ' ' ++ x)
      = singleQuoted done ⟨blanks ++ List.replicate n ' ', .none, [], false⟩ x := by
  induction n generalizing blanks with
  | zero => rw [List.replicate_zero, List.append_nil, List.nil_append]
  | succ n ih =>
      rw [List.replicate_succ, List.cons_append, (SingleStep.blank rfl rfl).reads]
      show singleQuoted done ⟨blanks ++ [' '], .none, [], false⟩ _ = _
      rw [ih, List.append_assoc]
      rfl

/-- Line ends are kept in the gap. -/
theorem singleQuoted_breaks (n : Nat) (breaks : Text) :
    singleQuoted done ⟨[], some ['\n'], breaks, true⟩ (List.replicate n '\n' ++ x)
      = singleQuoted done ⟨[], some ['\n'], List.replicate n '\n' ++ breaks, true⟩ x := by
  induction n generalizing breaks with
  | zero => rfl
  | succ n ih =>
      rw [List.replicate_succ, List.cons_append,
        (SingleStep.lineEnd rfl rfl (notEnded_of_blank (.inr rfl) _ _)).reads]
      show singleQuoted done ⟨[], some ['\n'], '\n' :: breaks, true⟩ _ = _
      rw [ih, ← List.replicate_succ, List.replicate_succ', List.append_assoc]
      rfl

/-- Spaces at the beginning of a line do not count. -/
theorem singleQuoted_indent (n : Nat) (breaks : Text) (fresh : Bool) :
    singleQuoted done ⟨[], some ['\n'], breaks, fresh⟩ (List.replicate (n + 1) ' ' ++ x)
      = singleQuoted done ⟨[], some ['\n'], breaks, false⟩ x := by
  induction n generalizing fresh with
  | zero => exact (SingleStep.blank rfl (notEnded_of_blank (.inl rfl) _ _)).reads
  | succ n ih =>
      rw [List.replicate_succ, List.cons_append,
        (SingleStep.blank rfl (notEnded_of_blank (.inl rfl) _ _)).reads]
      exact ih false

/-- A line end and the indentation behind it, and before these any number of
line ends. -/
theorem singleQuoted_folded (n : Nat) :
    singleQuoted done .none (List.replicate n '\n' ++ folded ++ x)
      = singleQuoted done ⟨[], some ['\n'], List.replicate n '\n', false⟩ x := by
  have hone : List.replicate n '\n' ++ folded ++ x
      = '\n' :: (List.replicate n '\n' ++ (List.replicate foldIndent ' ' ++ x)) := by
    unfold folded
    rw [List.append_cons, ← List.replicate_succ', List.replicate_succ, List.append_assoc]
    rfl
  rw [hone, (SingleStep.lineEnd rfl rfl rfl).reads]
  show singleQuoted done ⟨[], some ['\n'], [], true⟩ _ = _
  rw [singleQuoted_breaks, List.append_nil]
  exact singleQuoted_indent 3 _ true

/-- Runs that are written in single quotes are read behind a gap, if that
stands before a word. -/
theorem singleQuoted_runs (h : Alternating runs)
    (hordinary : ∀ c ∈ textOf runs, isOrdinary c = true) (column : Nat) (opening : Bool) (hfresh : gap.fresh = false)
    (hgap : gap = .none ∨ ∀ r ∈ runs.head?, r.isWord = true) (hx : x.head? ≠ some '\'') :
    singleQuoted done gap (writeRuns true column opening runs ++ '\'' :: x)
      = .ok (done.reverse ++ gap.text ++ textOf runs, x) := by
  induction runs generalizing done gap column opening with
  | nil =>
      rw [writeRuns, List.nil_append, singleQuoted_end hfresh hx, textOf_nil, List.append_nil]
  | cons r rest ih =>
      rw [textOf_cons, List.forall_mem_append] at hordinary
      have hsound := h.sound r List.mem_cons_self
      have hnext := (List.isChain_cons.mp h.chain).1
      cases r with
      | word w =>
          have hw : ∀ c ∈ w, IsVisible c := fun c hc =>
            isVisible_of_isOrdinary (hordinary.1 c hc) (hsound.2 c hc).1 (hsound.2 c hc).2
          have hwritten : writeRuns true column opening (.word w :: rest)
              = w.flatMap inSingle
                ++ writeRuns true (column + (w.flatMap inSingle).length) false rest := rfl
          rw [hwritten, List.append_assoc, singleQuoted_word hsound.1 hw hfresh,
            ih h.tail hordinary.2 _ _ rfl (Or.inl rfl)]
          simp [Run.text]
      | spaces n =>
          obtain rfl : gap = .none := hgap.resolve_right fun hword => by
            cases hword _ rfl
          have hword : ∀ r ∈ rest.head?, r.isWord = true := fun r hr => by
            simpa [Run.isWord] using hnext r hr
          rw [writeRuns]
          split
          · rename_i hfold
            have hone : n = 1 := by
              rw [Bool.and_eq_true, Bool.and_eq_true, decide_eq_true_eq] at hfold
              exact hfold.1.1
            have hread : singleQuoted done .none (folded ++ (writeRuns true foldIndent false rest
                ++ '\'' :: x)) = _ := singleQuoted_folded 0
            rw [List.append_assoc, hread, ih h.tail hordinary.2 _ _ rfl (Or.inr hword),
              hone, List.replicate_zero]
            simp [Run.text]
          · rw [List.append_assoc]
            show singleQuoted done ⟨[], .none, [], false⟩ _ = _
            rw [singleQuoted_spaces, ih h.tail hordinary.2 _ _ rfl (Or.inr hword)]
            simp [Run.text]
      | breaks n =>
          obtain rfl : gap = .none := hgap.resolve_right fun hword => by
            cases hword _ rfl
          have hword : ∀ r ∈ rest.head?, r.isWord = true := fun r hr => by
            simpa [Run.isWord] using hnext r hr
          obtain ⟨n, rfl⟩ := Nat.exists_eq_succ_of_ne_zero hsound
          rw [writeRuns, List.append_assoc, singleQuoted_folded,
            ih h.tail hordinary.2 _ _ rfl (Or.inr hword)]
          simp [Run.text]

-- ====================================================== double quotes

/-- Four characters one by one. -/
private theorem exists_of_length_four (h : t.length = 4) : ∃ a b c d, t = [a, b, c, d] := by
  rcases t with - | ⟨a, - | ⟨b, - | ⟨c, - | ⟨d, - | ⟨e, t⟩⟩⟩⟩⟩ <;>
    simp only [List.length_cons, List.length_nil] at h <;> try omega
  exact ⟨a, b, c, d, rfl⟩

/-- The letters of numbers and how many digits stand behind them. -/
def numberLetters : List (Char × Nat) := [('x', 2), ('u', 4), ('U', 8)]

/-- What a reader of double quotes does with what comes next. -/
inductive DoubleStep : Text → Gap → Text → Text → Gap → Text → Prop where
  | blank {done x : Text} {gap : Gap} {c : Char} (hc : isBlank c = true)
      (hends : (gap.fresh && endsDocument (c :: x)) = false) :
      DoubleStep done gap (c :: x) done (gap.blank c) x
  | visible {done x : Text} {gap : Gap} {c : Char} (hc : IsVisible c) (hquote : c ≠ '"')
      (hescape : c ≠ '\\') (hgap : gap.fresh = false) :
      DoubleStep done gap (c :: x) (c :: (gap.text.reverse ++ done)) .none x
  | letter {done x : Text} {gap : Gap} {c e : Char} (h : escapes.lookup e = some c)
      (hgap : gap.fresh = false) :
      DoubleStep done gap ('\\' :: e :: x) (c :: (gap.text.reverse ++ done)) .none x
  | number {done x digits : Text} {gap : Gap} {c e : Char}
      (he : (e, digits.length) ∈ numberLetters) (h : character digits = .ok c)
      (hgap : gap.fresh = false) :
      DoubleStep done gap ('\\' :: e :: (digits ++ x)) (c :: (gap.text.reverse ++ done)) .none x
  | join {done x : Text} {gap : Gap} (hgap : gap.fresh = false) :
      DoubleStep done gap ('\\' :: '\n' :: x) (gap.text.reverse ++ done) .joined x

/-- It reads on from there. -/
theorem DoubleStep.reads {gap' : Gap} {done' y : Text} (h : DoubleStep done gap x done' gap' y) :
    doubleQuoted done gap x = doubleQuoted done' gap' y := by
  have hsign : IsVisible '\\' ∧ '\\' ≠ '"' := ⟨⟨rfl, rfl⟩, by decide⟩
  cases h with
  | blank hc hends =>
      rw [doubleQuoted, hends, hc]
      rfl
  | visible hc hquote hescape hgap =>
      rw [doubleQuoted, hgap, hc.1, hc.2, if_neg hquote, if_neg hescape]
      rfl
  | letter h hgap =>
      rw [doubleQuoted, hgap, hsign.1.1, hsign.1.2, if_neg hsign.2, if_pos rfl]
      simp only [h]
      rfl
  | join hgap =>
      have hlookup : escapes.lookup '\n' = none := by decide
      have hline : isBreak '\n' = true := rfl
      rw [doubleQuoted, hgap, hsign.1.1, hsign.1.2, if_neg hsign.2, if_pos rfl]
      simp only [hlookup, hline, if_true]
      rfl
  | @number _ digits _ _ _ he h hgap =>
      have hletter : ∀ pair ∈ numberLetters,
          escapes.lookup pair.1 = none ∧ isBreak pair.1 = false := by decide
      obtain ⟨hlookup, hline⟩ := hletter _ he
      rw [doubleQuoted, hgap, hsign.1.1, hsign.1.2, if_neg hsign.2, if_pos rfl]
      simp only [hlookup, hline, Bool.false_eq_true, if_false]
      unfold numberLetters at he
      simp only [List.mem_cons, Prod.mk.injEq, List.not_mem_nil, or_false] at he
      -- the digits are told apart by how many there are
      rcases he with ⟨rfl, hlength⟩ | ⟨rfl, hlength⟩ | ⟨rfl, hlength⟩
      · obtain ⟨a, b, rfl⟩ := List.length_eq_two.mp hlength
        simp only [List.cons_append, List.nil_append, h]
        rfl
      · obtain ⟨a, b, d, f, rfl⟩ := exists_of_length_four hlength
        simp only [List.cons_append, List.nil_append, h]
        rfl
      · have hfront : (digits.take 4).length = 4 := by
          rw [List.length_take, hlength]
          rfl
        have hback : (digits.drop 4).length = 4 := by
          rw [List.length_drop, hlength]
        obtain ⟨a, b, d, f, hfour⟩ := exists_of_length_four hfront
        obtain ⟨a', b', d', f', hrest⟩ := exists_of_length_four hback
        obtain rfl : digits = [a, b, d, f] ++ [a', b', d', f'] := by
          rw [← hfour, ← hrest, List.take_append_drop]
        simp only [List.cons_append, List.nil_append] at h ⊢
        simp only [h]
        rfl

/-- A quote ends the text. -/
theorem doubleQuoted_end (hgap : gap.fresh = false) :
    doubleQuoted done gap ('"' :: x) = .ok (done.reverse ++ gap.text, x) := by
  have hblank : isBlank '"' = false := rfl
  have hbreak : isBreak '"' = false := rfl
  rw [doubleQuoted, hgap, hblank, hbreak]
  simp only [Bool.false_and, Bool.false_eq_true, if_false, if_true]
  rw [List.reverse_append, List.reverse_reverse]

/-- Two gaps that stand for the same make no difference to a visible
character. -/
theorem doubleQuoted_congr {gap' : Gap} (hc : IsVisible c) (hgap : gap.fresh = false)
    (hgap' : gap'.fresh = false) (htext : gap.text = gap'.text) :
    doubleQuoted done gap (c :: x) = doubleQuoted done gap' (c :: x) := by
  rw [doubleQuoted, doubleQuoted, hgap, hgap', hc.1, hc.2, htext]
  rfl

/-- Spaces at the beginning of a line do not count. -/
theorem doubleQuoted_indent (n : Nat) (fresh : Bool) :
    doubleQuoted done ⟨[], some [], [], fresh⟩ (List.replicate (n + 1) ' ' ++ x)
      = doubleQuoted done ⟨[], some [], [], false⟩ x := by
  induction n generalizing fresh with
  | zero => exact (DoubleStep.blank rfl (notEnded_of_blank (.inl rfl) _ _)).reads
  | succ n ih =>
      rw [List.replicate_succ, List.cons_append,
        (DoubleStep.blank rfl (notEnded_of_blank (.inl rfl) _ _)).reads]
      exact ih false

/-- A fold behind an escape sign. -/
theorem doubleQuoted_joined (hgap : gap.fresh = false) :
    doubleQuoted done gap ('\\' :: folded ++ x)
      = doubleQuoted (gap.text.reverse ++ done) ⟨[], some [], [], false⟩ x := by
  rw [folded, List.cons_append, List.cons_append, (DoubleStep.join hgap).reads]
  exact doubleQuoted_indent 3 true

/-- Digits in capitals spell the number that they are made of. -/
theorem hexValue?_hexCapital (width n : Nat) : hexValue? (Text.hexCapital width n) = some n := by
  have hdigit : ∀ d < 16, Text.hexDigit? (Nat.digitChar d).toUpper = some d := by decide
  have hzero : Text.hexDigit? '0'.toUpper = some 0 := by decide
  unfold Text.hexCapital Text.hex hexValue?
  rw [List.map_append, List.foldl_append]
  generalize width - (Nat.toDigits 16 n).length = zeros
  induction zeros with
  | zero =>
      rw [List.replicate_zero, List.map_nil, List.foldl_nil]
      induction n using Nat.base_induction 16 (by decide) with
      | single m hm =>
          rw [Nat.toDigits_of_lt_base hm, List.map_singleton, List.foldl_cons, hdigit m hm,
            List.foldl_nil, Option.bind_some, Option.map_some, Nat.mul_zero, Nat.zero_add]
      | digit m k hk hm ih =>
          rw [← Nat.toDigits_append_toDigits (by decide) hm hk, List.map_append, List.foldl_append,
            ih, Nat.toDigits_of_lt_base hk, List.map_singleton, List.foldl_cons, hdigit k hk,
            List.foldl_nil, Option.bind_some, Option.map_some]
  | succ zeros ih =>
      rw [List.replicate_succ, List.map_cons, List.foldl_cons, hzero]
      exact ih

/-- A number that has room is written in a width. -/
theorem length_hexCapital {width : Nat} (hwidth : 0 < width) (h : n < 16 ^ width) :
    (Text.hexCapital width n).length = width := by
  have hlength := (Nat.length_toDigits_le_iff (by decide) hwidth).mpr h
  unfold Text.hexCapital Text.hex
  rw [List.length_map, List.length_append, List.length_replicate]
  omega

/-- A character is read off its number. -/
theorem character_hexCapital (width : Nat) (c : Char) :
    character (Text.hexCapital width c.toNat) = .ok c := by
  have hbound : c.toNat < 0x110000 := by
    have h := c.valid
    simp only [UInt32.isValidChar, Nat.isValidChar] at h
    have : c.toNat = c.val.toNat := rfl
    omega
  unfold character
  rw [hexValue?_hexCapital]
  simp only
  rw [if_pos hbound, Char.ofNat_toNat]

/-- A number of as many hexadecimal digits as its letter asks for. -/
theorem doubleQuoted_number {e : Char} {width : Nat} (he : (e, width) ∈ numberLetters)
    (hc : c.toNat < 16 ^ width) (hgap : gap.fresh = false) :
    doubleQuoted done gap ('\\' :: e :: (Text.hexCapital width c.toNat ++ x))
      = doubleQuoted (c :: (gap.text.reverse ++ done)) .none x := by
  have hwidths : ∀ pair ∈ numberLetters, 0 < pair.2 := by decide
  have hlength := length_hexCapital (hwidths _ he) hc
  exact (DoubleStep.number (by rwa [hlength]) (character_hexCapital width c) hgap).reads

/-- An escape is read as the character it was written for. -/
theorem doubleQuoted_escape {e : Text} (he : escape? c = some e) (hgap : gap.fresh = false) :
    doubleQuoted done gap (e ++ x) = doubleQuoted (c :: (gap.text.reverse ++ done)) .none x := by
  have hletters : ∀ pair ∈ escapeLetters, escapes.lookup pair.2 = some pair.1 := by decide
  unfold escape? at he
  split at he
  · rename_i letter hletter
    obtain rfl := Option.some.inj he
    obtain ⟨before, after, hsplit, -⟩ := List.lookup_eq_some_iff.mp hletter
    have hmem : (c, letter) ∈ escapeLetters := hsplit ▸ List.mem_append_right _ List.mem_cons_self
    exact (DoubleStep.letter (hletters _ hmem) hgap).reads
  · split at he
    · cases he
    · split at he
      · rename_i hsmall
        obtain rfl := Option.some.inj he
        exact doubleQuoted_number (by decide) hsmall hgap
      · split at he
        · rename_i hsmall
          obtain rfl := Option.some.inj he
          exact doubleQuoted_number (by decide) hsmall hgap
        · obtain rfl := Option.some.inj he
          have hbound : c.toNat < 16 ^ 8 := by
            have : c.toNat < 2 ^ 32 := c.val.toNat_lt
            omega
          exact doubleQuoted_number (by decide) hbound hgap

/-- Every escape begins with the sign. -/
theorem exists_of_escape? {e : Text} (he : escape? c = some e) : ∃ rest, e = '\\' :: rest := by
  unfold escape? at he
  split at he
  · exact ⟨_, (Option.some.inj he).symm⟩
  · split at he
    · cases he
    · split at he
      · exact ⟨_, (Option.some.inj he).symm⟩
      · split at he <;> exact ⟨_, (Option.some.inj he).symm⟩

/-- What is not escaped is a space, or visible and without a meaning. -/
theorem unescaped_cases (h : escape? c = none) :
    c = ' ' ∨ IsVisible c ∧ c ≠ '"' ∧ c ≠ '\\' := by
  unfold escape? at h
  split at h
  · cases h
  · rename_i hlookup
    have hne {d : Char} (hd : (escapeLetters.lookup d).isSome = true) : c ≠ d := by
      rintro rfl
      rw [hlookup] at hd
      cases hd
    split at h
    · rename_i hrange
      by_cases hspace : c = ' '
      · exact Or.inl hspace
      · have hordinary : isOrdinary c = true := by
          unfold isOrdinary
          rw [hrange, Bool.or_true]
        exact Or.inr ⟨isVisible_of_isOrdinary hordinary hspace (hne (by decide)),
          hne (by decide), hne (by decide)⟩
    · split at h
      · cases h
      · split at h <;> cases h

/-- At the beginning of a line a text is written from a visible character on,
unless it begins with a space. -/
theorem exists_visible_written (hspace : first t ≠ ' ') {column : Nat}
    (hcolumn : column ≤ bestWidth) (opening fresh : Bool) (x : Text) :
    ∃ d rest, writeDouble column opening fresh t ++ '"' :: x = d :: rest ∧ IsVisible d := by
  cases t with
  | nil => exact ⟨'"', x, rfl, rfl, rfl⟩
  | cons c rest =>
      have hc : c ≠ ' ' := hspace
      rw [writeDouble]
      cases he : escape? c with
      | some e =>
          obtain ⟨e, rfl⟩ := exists_of_escape? he
          simp only
          split <;> exact ⟨'\\', _, rfl, rfl, rfl⟩
      | none =>
          have hvisible := ((unescaped_cases he).resolve_left hc).1
          have hnofold : decide (bestWidth < column) = false := decide_eq_false (by omega)
          simp only [hnofold, Bool.and_false, Bool.false_eq_true, if_false]
          exact ⟨c, _, rfl, hvisible⟩

/-- What is written in double quotes is read, behind the blanks before it. -/
theorem doubleQuoted_written (t : Text) (column : Nat) (opening fresh : Bool) :
    doubleQuoted done ⟨blanks, .none, [], false⟩ (writeDouble column opening fresh t ++ '"' :: x)
      = .ok (done.reverse ++ (blanks ++ t), x) := by
  -- behind an escape that is folded a space is passed over together with the next character
  induction hn : t.length using Nat.strong_induction_on generalizing
    t column opening fresh done blanks with
  | h n ih =>
  subst hn
  cases t with
  | nil => rw [writeDouble, List.nil_append, doubleQuoted_end rfl, List.append_nil]; rfl
  | cons c rest =>
      have hrest (done blanks : Text) (column : Nat) (opening fresh : Bool) :
          doubleQuoted done ⟨blanks, .none, [], false⟩
              (writeDouble column opening fresh rest ++ '"' :: x)
            = .ok (done.reverse ++ (blanks ++ rest), x) :=
        ih rest.length (Nat.lt_succ_self _) rest column opening fresh rfl
      have hnext (column : Nat) (opening fresh : Bool) :
          doubleQuoted (c :: (blanks.reverse ++ done)) .none
              (writeDouble column opening fresh rest ++ '"' :: x)
            = .ok (done.reverse ++ (blanks ++ c :: rest), x) := by
        refine (hrest _ [] column opening fresh).trans ?_
        simp
      rw [writeDouble]
      cases he : escape? c with
      | some e =>
          simp only
          split
          · simp only [List.append_assoc]
            rw [doubleQuoted_escape he rfl, Gap.text_blanks, doubleQuoted_joined rfl, Gap.text_none,
              List.reverse_nil, List.nil_append]
            by_cases hspace : first rest = ' '
            · obtain ⟨rest', rfl⟩ : ∃ rest', rest = ' ' :: rest' := by
                cases rest with
                | nil => cases hspace
                | cons d rest' => exact ⟨rest', congrArg (· :: rest') hspace⟩
              have hwritten (column : Nat) (hcolumn : column ≤ bestWidth) :
                  writeDouble column false true (' ' :: rest')
                    = ' ' :: writeDouble (column + 1) false false rest' := by
                have hnofold : decide (bestWidth < column) = false := decide_eq_false (by omega)
                rw [writeDouble]
                simp only [hnofold, Bool.and_false]
                rfl
              rw [if_pos hspace, hwritten _ (by decide), List.singleton_append, List.cons_append,
                (DoubleStep.letter rfl rfl).reads]
              have hless : rest'.length < (c :: ' ' :: rest').length := by
                simp only [List.length_cons]
                omega
              refine (ih rest'.length hless rest' _ _ _ rfl).trans ?_
              simp
            · obtain ⟨d, tail, hwritten, hvisible⟩ :=
                exists_visible_written hspace (show foldIndent ≤ bestWidth by decide) false true x
              have hcongr : doubleQuoted (c :: (blanks.reverse ++ done)) ⟨[], some [], [], false⟩
                  (d :: tail) = doubleQuoted (c :: (blanks.reverse ++ done)) .none (d :: tail) :=
                doubleQuoted_congr hvisible rfl rfl rfl
              rw [if_neg hspace, List.nil_append]
              show doubleQuoted _ _ (writeDouble foldIndent false true rest ++ '"' :: x) = _
              rw [hwritten, hcongr, ← hwritten]
              exact hnext _ _ _
          · rw [List.append_assoc, doubleQuoted_escape he rfl]
            exact hnext _ _ _
      | none =>
          simp only
          split
          · simp only [List.append_assoc, List.cons_append]
            rw [← List.cons_append, doubleQuoted_joined rfl, Gap.text_blanks]
            rcases unescaped_cases he with rfl | ⟨hvisible, hquote, hescape⟩
            · rw [if_pos rfl, List.singleton_append, (DoubleStep.letter rfl rfl).reads]
              exact hnext _ _ _
            · have hspace : c ≠ ' ' := by
                rintro rfl
                cases hvisible.1
              rw [if_neg hspace, List.nil_append,
                (DoubleStep.visible hvisible hquote hescape rfl).reads]
              exact hnext _ _ _
          · rcases unescaped_cases he with rfl | ⟨hvisible, hquote, hescape⟩
            · rw [List.cons_append, (DoubleStep.blank rfl rfl).reads]
              refine (hrest done (blanks ++ [' ']) _ _ _).trans ?_
              simp
            · rw [List.cons_append, (DoubleStep.visible hvisible hquote hescape rfl).reads]
              exact hnext _ _ _

end FeedSieve.Yaml
