/-
What is read of escaped texts.

A text whose tags are escaped is read as the text, whatever stands behind it. That
is the invariant of the escaping: before a tag there are twice as many backslashes as
are to be seen, and one more, which takes the meaning of the tag away
(`marksFrom_escapeTags_cons`). Only the ends of the text matter. It must not leave a
tag open that what stands behind it closes (`marks_escape_ne`), and the backslashes at
its end are read with what comes next. A single one is doubled, more are not. So a
text fits before a tag if it ends in one backslash at most, and before anything else
unless it ends in exactly one (`Whole.marks_escape_iff`).

A text that is not escaped is read as itself before a tag if there is no tag in it
and no backslash at its end (`Whole.marks_bare_iff`).
-/
import FeedSieve.Proofs.Text.Markup
import FeedSieve.Proofs.Text.Parts

namespace FeedSieve.Markup

variable {t u w between : Text} {c : Char} {n : Nat}

-- ============================================================== escaping

theorem escapeTags_slash : escapeTags n ('\\' :: t) = '\\' :: escapeTags (n + 1) t := rfl

theorem escapeTags_tag (h : opensTag t = true) :
    escapeTags n ('[' :: t) = slashes (n + 1) ++ '[' :: escapeTags 0 t := by
  rw [escapeTags, if_neg (by decide), h]
  rfl

theorem escapeTags_other (hslash : c ≠ '\\') (htag : (c = '[' && opensTag t) = false) :
    escapeTags n (c :: t) = c :: escapeTags 0 t := by
  rw [escapeTags, if_neg hslash, htag]
  rfl

/-- What the reader and the writer tell apart: a backslash, a tag, and the rest. -/
theorem char_cases (c : Char) (t : Text) : c = '\\' ∨ (c = '[' ∧ opensTag t = true)
    ∨ (c ≠ '\\' ∧ (c = '[' && opensTag t) = false) := by
  by_cases hslash : c = '\\'
  · exact .inl hslash
  · cases htag : (c = '[' && opensTag t : Bool) with
    | true =>
        rw [Bool.and_eq_true, decide_eq_true_eq] at htag
        exact .inr (.inl htag)
    | false => exact .inr (.inr ⟨hslash, rfl⟩)

theorem closes_slashes (n : Nat) : closes (slashes n ++ t) = closes t := by
  induction n with
  | zero => rfl
  | succ n ih =>
      show closes ('\\' :: (slashes n ++ t)) = closes t
      rw [closes_cons, ih]
      rfl

/-- The first bracket stays the same when tags are escaped. -/
theorem closes_escapeTags (t w : Text) (n : Nat) : closes (escapeTags n t ++ w)
    = (closes t || unbracketed t && closes w) := by
  induction t generalizing n with
  | nil => rfl
  | cons c rest ih =>
      rw [closes_cons, unbracketed_cons]
      obtain rfl | ⟨rfl, htag⟩ | ⟨hslash, htag⟩ := char_cases c rest
      · rw [escapeTags_slash, List.cons_append, closes_cons, ih]
        rfl
      · rw [escapeTags_tag htag, List.append_assoc, closes_slashes]
        rfl
      · rw [escapeTags_other hslash htag, List.cons_append, closes_cons, ih]
        exact closes_step c _ _ _

/-- What stands behind a bracket is a tag after escaping if it was one, or if it
dangles and what follows the text closes it. -/
theorem opensTag_escapeTags (hw : opensTag w = false) : opensTag (escapeTags 0 t ++ w)
    = (opensTag t || dangles t && closes w) := by
  cases t with
  | nil => exact hw
  | cons c rest =>
      cases hstarts : startsTag c with
      | true =>
          obtain ⟨hslash, hopen, hclose⟩ := ne_of_startsTag hstarts
          rw [escapeTags_other hslash (by simp [hopen]), List.cons_append, opensTag_cons,
            opensTag_cons, closes_escapeTags, dangles, unbracketed_cons]
          simp [hstarts, hopen, hclose]
      | false =>
          have hnone : (opensTag (c :: rest) || dangles (c :: rest) && closes w) = false := by
            rw [opensTag_cons, dangles, List.head?_cons, Option.any_some, hstarts]
            rfl
          rw [hnone]
          obtain rfl | ⟨rfl, htag⟩ | ⟨hslash, htag⟩ := char_cases c rest
          · rfl
          · rw [escapeTags_tag htag]
            rfl
          · rw [escapeTags_other hslash htag, List.cons_append, opensTag_cons, hstarts]
            rfl

/-- A character that is no backslash is read as itself, behind all backslashes before it,
unless what follows it dangles and is closed behind the text. -/
theorem marksFrom_escapeTags_cons (hw : opensTag w = false) (hslash : c ≠ '\\')
    (hleak : (c = '[' && dangles t) = true → closes w = false) :
    marksFrom none n (escapeTags n (c :: t) ++ w)
      = shownText (slashes n) ++ .shown c :: marks (escapeTags 0 t ++ w) := by
  cases hcase : (c = '[' && opensTag t : Bool) with
  | true =>
      obtain ⟨hbracket, htag⟩ := Bool.and_eq_true_iff.mp hcase
      obtain rfl := of_decide_eq_true hbracket
      have hopens : opensTag (escapeTags 0 t ++ w) = true := by
        rw [opensTag_escapeTags hw, htag]
        rfl
      -- the backslashes of the text are doubled, and there is one more
      have hhalf : (n + (n + 1)) / 2 = n ∧ (n + (n + 1)) % 2 = 1 := by omega
      rw [escapeTags_tag htag, List.append_assoc, marksFrom_slashes, List.cons_append,
        marksFrom_tag hopens, hhalf.1, if_pos hhalf.2]
  | false =>
      have hopens : (c = '[' && opensTag (escapeTags 0 t ++ w)) = false := by
        rw [opensTag_escapeTags hw, Bool.and_or_distrib_left, hcase, ← Bool.and_assoc,
          Bool.false_or]
        cases hdangles : (c = '[' && dangles t : Bool) with
        | true => rw [hleak hdangles, Bool.and_false]
        | false => rfl
      rw [escapeTags_other hslash hcase, List.cons_append, marksFrom_other hslash hopens]

-- ======================================================== ends of texts

/-- How many backslashes stand at the end of a text, behind those that stand
before it. -/
def slashesAtEnd (n : Nat) : Text → Nat
  | [] => n
  | c :: rest => slashesAtEnd (if c = '\\' then n + 1 else 0) rest

/-- How many backslashes a text ends in. -/
def trailing (t : Text) : Nat := slashesAtEnd 0 t

/-- Whether a text may leave a tag open. -/
def leavesOpen : Text → Bool
  | [] => false
  | c :: rest => c = '[' && dangles rest || leavesOpen rest

theorem slashesAtEnd_append (t u : Text) (n : Nat) :
    slashesAtEnd n (t ++ u) = slashesAtEnd (slashesAtEnd n t) u := by
  induction t generalizing n with
  | nil => rfl
  | cons c rest ih => exact ih _

theorem trailing_append_singleton (t : Text) (c : Char) :
    trailing (t ++ [c]) = if c = '\\' then trailing t + 1 else 0 := slashesAtEnd_append t [c] 0

/-- Escaping tags leaves the end of a text alone. -/
theorem slashesAtEnd_escapeTags (t : Text) (n : Nat) :
    slashesAtEnd n (escapeTags n t) = slashesAtEnd n t := by
  induction t generalizing n with
  | nil => rfl
  | cons c rest ih =>
      obtain rfl | ⟨rfl, htag⟩ | ⟨hslash, htag⟩ := char_cases c rest
      · exact ih (n + 1)
      · rw [escapeTags_tag htag, slashesAtEnd_append]
        exact ih 0
      · rw [escapeTags_other hslash htag, slashesAtEnd, slashesAtEnd, if_neg hslash]
        exact ih 0

theorem endsWith_slash : Text.endsWith "\\" t = decide (0 < trailing t) := by
  have hlast : Text.endsWith "\\" t = true ↔ t.getLast? = some '\\' := Text.endsWith_singleton
  rw [Bool.eq_iff_iff, decide_eq_true_eq, hlast]
  obtain rfl | ⟨u, c, rfl⟩ := List.eq_nil_or_concat t
  · decide
  · rw [List.concat_eq_append, List.getLast?_concat, trailing_append_singleton,
      Option.some.injEq]
    split <;> simp [*]

/-- A text that ends in a single backslash hangs. -/
theorem hangs_iff : hangs t = true ↔ trailing t = 1 := by
  have htwo (u : Text) (d : Char) : Text.endsWith "\\\\" (u ++ [d])
      = (d = '\\' && Text.endsWith "\\" u) := by
    unfold Text.endsWith Text.beginsWith
    rw [List.reverse_concat]
    show (if '\\' = d then Text.after? "\\" u.reverse else none).isSome = _
    by_cases hd : '\\' = d
    · rw [if_pos hd, decide_eq_true hd.symm, Bool.true_and]
      rfl
    · rw [if_neg hd, decide_eq_false (Ne.symm hd), Bool.false_and, Option.isSome_none]
  unfold hangs
  obtain rfl | ⟨u, c, rfl⟩ := List.eq_nil_or_concat t
  · decide
  · rw [List.concat_eq_append, htwo, endsWith_slash, endsWith_slash, trailing_append_singleton]
    split <;> simp [*]

/-- How many backslashes an escaped text ends in. -/
def written (t : Text) : Nat := if trailing t = 1 then 2 else trailing t

/-- A text is escaped by escaping its tags and doubling a single backslash at its
end. -/
theorem escape_eq (t : Text) :
    escape t = escapeTags 0 t ++ if trailing t = 1 then ['\\'] else [] := by
  have hends : hangs (escapeTags 0 t) = true ↔ trailing t = 1 := by
    rw [hangs_iff, trailing, slashesAtEnd_escapeTags, trailing]
  unfold escape
  simp only [hends]
  split
  · rfl
  · exact (List.append_nil _).symm

-- ============================================================== reading

/-- What is read of a text with its tags escaped is the text, up to the backslashes
at its end, unless it leaves a tag open that is closed behind it. -/
theorem marksFrom_escapeTags (hw : opensTag w = false)
    (hleak : leavesOpen t = true → closes w = false) (n : Nat) :
    ∃ b, b ++ slashes (slashesAtEnd n t) = slashes n ++ t
      ∧ marksFrom none n (escapeTags n t ++ w)
        = shownText b ++ marksFrom none (slashesAtEnd n t) w := by
  induction t generalizing n with
  | nil => exact ⟨[], (List.append_nil _).symm, rfl⟩
  | cons c rest ih =>
      have hrest : leavesOpen rest = true → closes w = false := fun hopen =>
        hleak (Bool.or_eq_true_iff.mpr (.inr hopen))
      by_cases hslash : c = '\\'
      · subst hslash
        obtain ⟨b, hb, hread⟩ := ih hrest (n + 1)
        exact ⟨b, hb.trans slashes_append_cons.symm, hread⟩
      · obtain ⟨b, hb, hread⟩ := ih hrest 0
        refine ⟨slashes n ++ c :: b, ?_, ?_⟩
        · rw [List.append_assoc, slashesAtEnd, if_neg hslash]
          exact congrArg (slashes n ++ c :: ·) hb
        · rw [marksFrom_escapeTags_cons hw hslash fun h => hleak (Bool.or_eq_true_iff.mpr (.inl h)),
            shownText_slashes_append_cons, slashesAtEnd, if_neg hslash]
          exact congrArg (shownText (slashes n) ++ .shown c :: ·) hread

/-- A tag that the text leaves open and that is closed behind it is read as one. So the
text is not read as itself. -/
theorem marksFrom_escapeTags_ne (hw : opensTag w = false) (hcloses : closes w = true)
    (hopen : leavesOpen t = true) (n : Nat) (l : List Mark) :
    marksFrom none n (escapeTags n t ++ w) ≠ shownText (slashes n ++ t) ++ l := by
  induction t generalizing n with
  | nil => cases hopen
  | cons c rest ih =>
      by_cases hslash : c = '\\'
      · subst hslash
        rw [slashes_append_cons]
        exact ih hopen (n + 1)
      · rw [shownText_slashes_append_cons]
        cases hcase : (c = '[' && dangles rest : Bool) with
        | true =>
            obtain ⟨hbracket, hdangles⟩ := Bool.and_eq_true_iff.mp hcase
            obtain rfl := of_decide_eq_true hbracket
            have htag : ('[' = '[' && opensTag rest : Bool) = false := by
              cases hopens : opensTag rest with
              | true => cases hdangles.symm.trans (dangles_of_opensTag hopens)
              | false => rfl
            rw [escapeTags_other hslash htag, List.cons_append]
            refine marksFrom_tag_ne ?_ _
            rw [opensTag_escapeTags hw, hdangles, hcloses]
            exact Bool.or_true _
        | false =>
            have hrest : leavesOpen rest = true := by
              rwa [leavesOpen, hcase, Bool.false_or] at hopen
            rw [marksFrom_escapeTags_cons hw hslash fun h => absurd (hcase.symm.trans h)
              Bool.false_ne_true]
            intro heq
            exact ih hrest 0 (List.cons.inj (List.append_cancel_left heq)).2

/-- What is read of an escaped text with something behind it is the text, up to the
backslashes at its end, unless it leaves a tag open that is closed behind it. -/
theorem marks_escape (hw : opensTag w = false) (hleak : leavesOpen t = true → closes w = false) :
    ∃ b, shownText t = shownText b ++ shownText (slashes (trailing t))
      ∧ marks (escape t ++ w) = shownText b ++ marksFrom none (written t) w := by
  rw [escape_eq, written, List.append_assoc]
  split
  · rename_i hone
    obtain ⟨b, hb, hread⟩ := marksFrom_escapeTags (w := '\\' :: w) (t := t) rfl hleak 0
    refine ⟨b, (congrArg shownText hb).symm.trans shownText_append, hread.trans ?_⟩
    rw [marksFrom_slash, ← trailing, hone]
  · obtain ⟨b, hb, hread⟩ := marksFrom_escapeTags hw hleak 0
    exact ⟨b, (congrArg shownText hb).symm.trans shownText_append, hread⟩

theorem marks_escape_ne (hw : opensTag w = false) (hcloses : closes w = true)
    (hopen : leavesOpen t = true) (l : List Mark) : marks (escape t ++ w) ≠ shownText t ++ l := by
  rw [escape_eq, List.append_assoc]
  split
  · exact marksFrom_escapeTags_ne (w := '\\' :: w) rfl hcloses hopen 0 l
  · exact marksFrom_escapeTags_ne hw hcloses hopen 0 l

/-- A text behind which markup of the program's own stands fits there: of the
backslashes at its end it has one at most if a tag comes next, and otherwise does
not have just one. -/
def Fits (t w : Text) : Prop := if w.head? = some '[' then trailing t ≤ 1 else trailing t ≠ 1

theorem fits_of_tag (h : w.head? = some '[') : Fits t w ↔ trailing t ≤ 1 := by rw [Fits, if_pos h]

theorem fits_of_no_tag (h : w.head? ≠ some '[') : Fits t w ↔ trailing t ≠ 1 := by
  rw [Fits, if_neg h]

/-- An escaped text is read as itself before such markup if it fits. -/
theorem Whole.marks_escape_iff (h : Whole w) :
    marks (escape t ++ w) = shownText t ++ marks w ↔ Fits t w := by
  obtain ⟨b, ht, hread⟩ := marks_escape (t := t) h.opensTag_eq fun _ => h.closes_eq
  rw [hread, ht, List.append_assoc, List.append_right_inj, h.marksFrom_iff, Fits, written]
  split <;> split <;> omega

/-- It does not bring a tag in, whether it fits or not. -/
theorem Whole.tagsIn_escape (h : Whole w) (t : Text) :
    (tagsIn (marks (escape t ++ w))).Sublist (tagsIn (marks w)) := by
  obtain ⟨b, -, hread⟩ := marks_escape (t := t) h.opensTag_eq fun _ => h.closes_eq
  rw [hread, tagsIn_shownText_append]
  exact h.tagsIn_marksFrom _

-- ==================================================== texts left unescaped

/-- What is read of a text without tags. -/
theorem Whole.marks_bare (h : Whole w) (hbare : escapeTags 0 t = t) :
    ∃ b, shownText t = shownText b ++ shownText (slashes (trailing t))
      ∧ marks (t ++ w) = shownText b ++ marksFrom none (trailing t) w := by
  obtain ⟨b, hb, hread⟩ := marksFrom_escapeTags (t := t) h.opensTag_eq (fun _ => h.closes_eq) 0
  rw [hbare] at hread
  exact ⟨b, (congrArg shownText hb).symm.trans shownText_append, hread⟩

/-- A tag in a text that is not escaped is read as one, or loses the backslash before
it. So the text is not read as itself. -/
theorem Whole.marksFrom_append_ne (hw : Whole w) (h : escapeTags n t ≠ t) (l : List Mark) :
    marksFrom none n (t ++ w) ≠ shownText (slashes n ++ t) ++ l := by
  induction t generalizing n with
  | nil => exact absurd rfl h
  | cons c rest ih =>
      have hopens : opensTag (rest ++ w) = opensTag rest := by
        rw [opensTag_append hw.opensTag_eq, hw.closes_eq, Bool.and_false, Bool.or_false]
      obtain rfl | ⟨rfl, htag⟩ | ⟨hslash, htag⟩ := char_cases c rest
      · rw [slashes_append_cons]
        exact ih fun heq => h (congrArg _ heq)
      · rw [shownText_slashes_append_cons]
        exact marksFrom_tag_ne (hopens.trans htag) _
      · rw [shownText_slashes_append_cons, List.cons_append,
          marksFrom_other hslash (by rwa [hopens])]
        have hrest : escapeTags 0 rest ≠ rest := fun heq =>
          h (by rw [escapeTags_other hslash htag, heq])
        intro heq
        exact ih hrest (List.cons.inj (List.append_cancel_left heq)).2

/-- A text that is not escaped is read as itself before a tag if there is no tag in it
and no backslash at its end. -/
theorem Whole.marks_bare_iff (h : Whole w) (htag : w.head? = some '[') :
    marks (t ++ w) = shownText t ++ marks w ↔ escapeTags 0 t = t ∧ trailing t = 0 := by
  by_cases hbare : escapeTags 0 t = t
  · obtain ⟨b, ht, hread⟩ := h.marks_bare hbare
    rw [hread, ht, List.append_assoc, List.append_right_inj, h.marksFrom_iff, if_pos htag,
      and_iff_right hbare]
    omega
  · exact ⟨fun heq => absurd heq (h.marksFrom_append_ne hbare _), fun h => absurd h.1 hbare⟩

/-- Without a tag in it, it does not bring one in. -/
theorem Whole.tagsIn_bare (h : Whole w) (hbare : escapeTags 0 t = t) :
    (tagsIn (marks (t ++ w))).Sublist (tagsIn (marks w)) := by
  obtain ⟨b, -, hread⟩ := h.marks_bare hbare
  rw [hread, tagsIn_shownText_append]
  exact h.tagsIn_marksFrom _

-- ========================================================= two of them

/-- Words of the program's own between two texts: there is no markup in them, and they
do not go on with a tag that the first text leaves open at its very end. -/
structure Wording (t : Text) : Prop where
  plain : Plain t
  first : ∃ d rest, t = d :: rest ∧ startsTag d = false

theorem Wording.opensTag_append (h : Wording t) (w : Text) : opensTag (t ++ w) = false := by
  obtain ⟨d, rest, rfl, hstarts⟩ := h.first
  rw [List.cons_append, opensTag_cons, hstarts]
  rfl

theorem Wording.closes_append (h : Wording t) (w : Text) : closes (t ++ w) = closes w := by
  have hall : unbracketed t = true := List.all_eq_true.mpr fun d hd => by simp [h.plain d hd]
  rw [Markup.closes_append, h.plain.whole.closes_eq, hall]
  rfl

/-- They are read as they are, also behind backslashes. -/
theorem Wording.marksFrom_append (h : Wording t) (n : Nat) (w : Text) :
    marksFrom none n (t ++ w) = shownText (slashes n) ++ (shownText t ++ marks w) := by
  have hplain := h.plain
  obtain ⟨d, rest, rfl, -⟩ := h.first
  rw [plain_cons] at hplain
  rw [List.cons_append, marksFrom_char hplain.1.1 hplain.1.2.1, hplain.2.marks_append]
  rfl

/-- Two readings with them behind backslashes are the same if the backslashes and what
comes behind the words are. -/
theorem Wording.shownText_slashes_inj (h : Wording t) {a b : Nat} {l m : List Mark} :
    shownText (slashes a) ++ (shownText t ++ l) = shownText (slashes b) ++ (shownText t ++ m)
      ↔ a = b ∧ l = m := by
  have hplain := h.plain
  obtain ⟨d, rest, rfl, -⟩ := h.first
  have hfirst : Mark.shown d ≠ .shown '\\' := fun heq =>
    (hplain d List.mem_cons_self).1 (Mark.shown.inj heq)
  have hcons (k : List Mark) : shownText (d :: rest) ++ k = .shown d :: (shownText rest ++ k) := rfl
  rw [hcons, hcons, Markup.shownText_slashes_inj hfirst hfirst, eq_self, true_and,
    List.append_right_inj]

/-- What is read of an escaped text with such words behind it, and a text that is not
escaped. -/
theorem Wording.marks_escape (hbetween : Wording between) (h : Whole w)
    (hleak : leavesOpen t = true → closes u = false) :
    ∃ b, shownText t = shownText b ++ shownText (slashes (trailing t))
      ∧ marks (escape t ++ (between ++ (u ++ w)))
        = shownText b ++ (shownText (slashes (written t))
          ++ (shownText between ++ marks (u ++ w))) := by
  rw [← hbetween.marksFrom_append]
  refine Markup.marks_escape (hbetween.opensTag_append _) fun hopen => ?_
  rw [hbetween.closes_append, Markup.closes_append, hleak hopen, h.closes_eq, Bool.and_false]
  rfl

/-- An escaped text, words of the program's own, a text that is not escaped and a tag
are read as they are meant to be if neither text has backslashes at its end that are
read otherwise, there is no tag in the other text, and it does not close one that the
escaped text leaves open. -/
theorem Wording.marks_escape_bare_iff (hbetween : Wording between) (h : Whole w)
    (htag : w.head? = some '[') :
    marks (escape t ++ (between ++ (u ++ w)))
        = shownText t ++ (shownText between ++ (shownText u ++ marks w))
      ↔ trailing t ≠ 1 ∧ (leavesOpen t = true → closes u = false) ∧ escapeTags 0 u = u
        ∧ trailing u = 0 := by
  by_cases hleak : leavesOpen t = true → closes u = false
  · obtain ⟨b, ht, hread⟩ := hbetween.marks_escape h hleak
    have hwritten : written t = trailing t ↔ trailing t ≠ 1 := by
      unfold written
      split <;> omega
    rw [hread, ht, List.append_assoc, List.append_right_inj, hbetween.shownText_slashes_inj,
      h.marks_bare_iff htag, hwritten]
    exact and_congr_right fun _ => (and_iff_right hleak).symm
  · refine iff_of_false ?_ fun h => hleak h.2.1
    rw [Classical.not_imp, Bool.not_eq_false] at hleak
    refine marks_escape_ne (hbetween.opensTag_append _) ?_ hleak.1 _
    rw [hbetween.closes_append, Markup.closes_append, hleak.2]
    rfl

/-- They bring no tag in if there is none in the other text and it does not close one. -/
theorem Wording.tagsIn_escape_bare (hbetween : Wording between) (h : Whole w)
    (hleak : leavesOpen t = true → closes u = false) (hbare : escapeTags 0 u = u) :
    (tagsIn (marks (escape t ++ (between ++ (u ++ w))))).Sublist (tagsIn (marks w)) := by
  obtain ⟨b, -, hread⟩ := hbetween.marks_escape h hleak
  rw [hread, tagsIn_shownText_append, tagsIn_shownText_append, tagsIn_shownText_append]
  exact h.tagsIn_bare hbare

end FeedSieve.Markup
