/-
Taking text apart and putting it together again.

Reading trims, cuts at the first mark and splits at every mark, and each of
these throws the whole away and keeps parts. This file says what the parts
and the whole have to do with each other, so that no later proof looks into
a trimming or splitting loop again.

- `strip_eq`: a text with something to drop around a firm core strips to
  the core, and `padded_strip`, `firm_strip` say that there is nothing else
  stripping can do.
- `cut_eq_some_iff`, `cut_eq_none_iff`: cutting at a mark is finding its
  first occurrence.
- `splitOn_append`, `splitOn_of_notMem` compute the pieces from the left,
  `pieces_induction` is the induction along them, and `joinWith_splitOn`
  says that splitting loses nothing but the marks.
- `words_append`, `words_of_visible` compute the words from the left.
- Digits are neither blanks nor marks.
-/
import Mathlib.Data.List.Infix
import Mathlib.Data.List.TakeWhile
import FeedSieve.Text.Digits

namespace FeedSieve.Text

variable {p : Char → Bool} {sep : Char} {s t a b : Text}

-- ========================================================= stripping

/-- `t` is `s` between two texts all of whose characters satisfy `p`. -/
def Padded (p : Char → Bool) (s t : Text) : Prop :=
  ∃ a b, (∀ c ∈ a, p c = true) ∧ (∀ c ∈ b, p c = true) ∧ t = a ++ s ++ b

/-- A text with something in it whose two end characters do not satisfy
`p`. -/
structure Firm (p : Char → Bool) (t : Text) : Prop where
  inhabited : t ≠ []
  first : ∀ c, t.head? = some c → p c = false
  last : ∀ c, t.getLast? = some c → p c = false

/-- Nothing is dropped in front of a character that stays. -/
theorem dropWhile_of_head (h : ∀ c, t.head? = some c → p c = false) :
    t.dropWhile p = t := by
  cases t with
  | nil => rfl
  | cons c rest =>
      have hc : p c = false := h c rfl
      rw [List.dropWhile_cons, hc]
      rfl

/-- What is left begins with a character that stays. -/
theorem head?_dropWhile (t : Text) :
    ∀ c, (t.dropWhile p).head? = some c → p c = false := by
  intro c hc
  have h := List.head?_dropWhile_not p t
  rw [hc] at h
  exact h

/-- What satisfies `p`, in front of something that does not, is what is taken
and dropped. -/
theorem takeWhile_dropWhile_append (ha : ∀ c ∈ a, p c = true)
    (hb : ∀ c, b.head? = some c → p c = false) :
    (a ++ b).takeWhile p = a ∧ (a ++ b).dropWhile p = b := by
  constructor
  · rw [List.takeWhile_append_of_pos ha]
    cases b with
    | nil => rw [List.takeWhile_nil, List.append_nil]
    | cons c rest =>
        have hc : p c = false := hb c rfl
        rw [List.takeWhile_cons, hc]
        exact List.append_nil a
  · rw [List.dropWhile_append_of_pos ha, dropWhile_of_head hb]

/-- A core between two texts to be dropped is what stripping leaves. -/
theorem strip_eq (hpad : Padded p s t) (hs : Firm p s) : strip p t = s := by
  obtain ⟨a, b, ha, hb, rfl⟩ := hpad
  obtain ⟨hne, hfirst, hlast⟩ := hs
  have hfront : (a ++ s ++ b).dropWhile p = s ++ b := by
    rw [List.append_assoc, List.dropWhile_append_of_pos ha]
    apply dropWhile_of_head
    intro c hc
    rw [List.head?_append_of_ne_nil _ hne] at hc
    exact hfirst c hc
  have hback : (s ++ b).reverse.dropWhile p = s.reverse := by
    rw [List.reverse_append, List.dropWhile_append_of_pos
      (by intro c hc; exact hb c (List.mem_reverse.mp hc))]
    apply dropWhile_of_head
    intro c hc
    rw [List.head?_reverse] at hc
    exact hlast c hc
  unfold strip
  rw [hfront, hback, List.reverse_reverse]

/-- What is left of a text whose end is dropped is its beginning. -/
theorem stripEnd_prefix (p : Char → Bool) (t : Text) : stripEnd p t <+: t := by
  have hsuffix := List.reverse_prefix.mpr (List.dropWhile_suffix p (l := t.reverse))
  rwa [List.reverse_reverse] at hsuffix

/-- Stripping drops two ends and nothing between them. -/
theorem padded_strip (p : Char → Bool) (t : Text) : Padded p (strip p t) t := by
  have hfront := List.takeWhile_append_dropWhile (p := p) (l := t)
  have hback := List.takeWhile_append_dropWhile (p := p)
    (l := (t.dropWhile p).reverse)
  refine ⟨t.takeWhile p, ((t.dropWhile p).reverse.takeWhile p).reverse,
    fun c hc => ?_, fun c hc => ?_, ?_⟩
  · exact List.all_eq_true.mp List.all_takeWhile c hc
  · exact List.all_eq_true.mp List.all_takeWhile c (List.mem_reverse.mp hc)
  · calc t = t.takeWhile p ++ t.dropWhile p := hfront.symm
      _ = t.takeWhile p ++ ((t.dropWhile p).reverse).reverse := by
          rw [List.reverse_reverse]
      _ = t.takeWhile p ++ ((t.dropWhile p).reverse.takeWhile p
            ++ (t.dropWhile p).reverse.dropWhile p).reverse := by rw [hback]
      _ = t.takeWhile p ++ strip p t
            ++ ((t.dropWhile p).reverse.takeWhile p).reverse := by
          rw [List.reverse_append, List.append_assoc]
          rfl

/-- What stripping leaves is firm, if it leaves anything. -/
theorem firm_strip (hne : strip p t ≠ []) : Firm p (strip p t) := by
  have hback := head?_dropWhile (p := p) (t.dropWhile p).reverse
  refine ⟨hne, fun c hc => ?_, fun c hc => ?_⟩
  · -- the front of the result is the front of what the first loop leaves
    have hsub : strip p t <+: t.dropWhile p := by
      have := List.dropWhile_suffix p (l := (t.dropWhile p).reverse)
      have h := List.reverse_prefix.mpr this
      rw [List.reverse_reverse] at h
      exact h
    obtain ⟨rest, hrest⟩ := hsub
    apply head?_dropWhile t c
    rw [← hrest, List.head?_append_of_ne_nil _ hne]
    exact hc
  · apply hback c
    unfold strip at hc
    rw [List.getLast?_reverse] at hc
    exact hc

/-- A firm text is its own core. -/
theorem Firm.strip (hs : Firm p s) : Text.strip p s = s :=
  strip_eq ⟨[], [], by simp, by simp, by simp⟩ hs

/-- Stripping leaves nothing exactly if everything is to be dropped. -/
theorem strip_eq_nil_iff : strip p t = [] ↔ ∀ c ∈ t, p c = true := by
  constructor
  · intro h c hc
    obtain ⟨a, b, ha, hb, ht⟩ := padded_strip p t
    rw [h, List.append_nil] at ht
    rw [ht] at hc
    rcases List.mem_append.mp hc with hc | hc
    · exact ha c hc
    · exact hb c hc
  · intro h
    unfold strip
    rw [List.dropWhile_eq_nil_iff.mpr h]
    rfl

/-- What is dropped in front may be more. -/
theorem Padded.append_left (h : Padded p s t) (ha : ∀ c ∈ a, p c = true) :
    Padded p s (a ++ t) := by
  obtain ⟨a', b, ha', hb, rfl⟩ := h
  refine ⟨a ++ a', b, fun c hc => ?_, hb, by simp only [List.append_assoc]⟩
  rcases List.mem_append.mp hc with hc | hc
  · exact ha c hc
  · exact ha' c hc

/-- What is dropped behind may be more. -/
theorem Padded.append_right (h : Padded p s t) (hb : ∀ c ∈ b, p c = true) :
    Padded p s (t ++ b) := by
  obtain ⟨a, b', ha, hb', rfl⟩ := h
  refine ⟨a, b' ++ b, ha, fun c hc => ?_, by simp only [List.append_assoc]⟩
  rcases List.mem_append.mp hc with hc | hc
  · exact hb' c hc
  · exact hb c hc

/-- What is dropped may be dropped in two goes. -/
theorem Padded.trans {r : Text} (h : Padded p r s) (h' : Padded p s t) :
    Padded p r t := by
  obtain ⟨a, b, ha, hb, rfl⟩ := h'
  exact (h.append_left ha).append_right hb

/-- Padding makes no difference to stripping. -/
theorem Padded.strip_eq (h : Padded p s t) : strip p t = strip p s := by
  by_cases hne : strip p s = []
  · rw [hne, strip_eq_nil_iff]
    rw [strip_eq_nil_iff] at hne
    obtain ⟨a, b, ha, hb, rfl⟩ := h
    intro c hc
    rcases List.mem_append.mp hc with hc | hc
    · rcases List.mem_append.mp hc with hc | hc
      · exact ha c hc
      · exact hne c hc
    · exact hb c hc
  · exact Text.strip_eq ((padded_strip p s).trans h) (firm_strip hne)

/-- Only what is in the text is left of it, in one piece. -/
theorem Padded.part (h : Padded p s t) : s <:+: t := by
  obtain ⟨a, b, -, -, rfl⟩ := h
  exact ⟨a, b, rfl⟩

-- =========================================================== cutting

/-- At the mark the cut is made. -/
theorem cut_cons_self (sep : Char) (rest : Text) :
    cut sep (sep :: rest) = ([], some rest) := by
  rw [cut, if_pos rfl]

/-- Other characters stay in front of the cut. -/
theorem cut_cons_of_ne {c : Char} (hc : c ≠ sep) (rest : Text) :
    cut sep (c :: rest) = (c :: (cut sep rest).1, (cut sep rest).2) := by
  rw [cut, if_neg hc]

/-- So what is in front of it begins with them. -/
theorem cut_cons_eq_iff {c : Char} (hc : c ≠ sep) {rest : Text} {after : Option Text} :
    cut sep (c :: rest) = (a, after) ↔ ∃ before, a = c :: before ∧ cut sep rest = (before, after) := by
  rw [cut_cons_of_ne hc, Prod.mk.injEq]
  constructor
  · rintro ⟨rfl, rfl⟩
    exact ⟨_, rfl, rfl⟩
  · rintro ⟨before, rfl, hcut⟩
    rw [hcut]
    exact ⟨rfl, rfl⟩

/-- A cut that finds the mark stands at its first occurrence. -/
theorem cut_eq_some_iff :
    cut sep t = (a, some b) ↔ t = a ++ sep :: b ∧ sep ∉ a := by
  induction t generalizing a with
  | nil => simp [cut]
  | cons c rest ih =>
      by_cases hc : c = sep
      · subst hc
        rw [cut_cons_self, Prod.mk.injEq, Option.some.injEq]
        constructor
        · rintro ⟨rfl, rfl⟩
          exact ⟨rfl, by simp⟩
        · rintro ⟨h, hnot⟩
          cases a with
          | nil => exact ⟨rfl, (List.cons.inj h).2⟩
          | cons d a =>
              -- the mark would be the first character of the part before it
              have hd := (List.cons.inj h).1
              exact absurd (List.mem_cons.mpr (Or.inl hd)) hnot
      · rw [cut_cons_eq_iff hc]
        constructor
        · rintro ⟨before, rfl, hcut⟩
          obtain ⟨rfl, hnot⟩ := ih.mp hcut
          exact ⟨rfl, List.not_mem_cons_of_ne_of_not_mem (Ne.symm hc) hnot⟩
        · rintro ⟨h, hnot⟩
          cases a with
          | nil => exact absurd (List.cons.inj h).1 hc
          | cons d before =>
              obtain ⟨rfl, hrest⟩ := List.cons.inj h
              exact ⟨before, rfl, ih.mpr ⟨hrest, fun h => hnot (List.mem_cons_of_mem _ h)⟩⟩

/-- A cut that finds no mark leaves the text as it is. -/
theorem cut_eq_none_iff : cut sep t = (a, none) ↔ a = t ∧ sep ∉ t := by
  induction t generalizing a with
  | nil => simp [cut, eq_comm]
  | cons c rest ih =>
      by_cases hc : c = sep
      · subst hc
        rw [cut_cons_self]
        simp
      · rw [cut_cons_eq_iff hc]
        constructor
        · rintro ⟨before, rfl, hcut⟩
          obtain ⟨rfl, hnot⟩ := ih.mp hcut
          exact ⟨rfl, List.not_mem_cons_of_ne_of_not_mem (Ne.symm hc) hnot⟩
        · rintro ⟨rfl, hnot⟩
          exact ⟨rest, rfl, ih.mpr ⟨rfl, fun h => hnot (List.mem_cons_of_mem _ h)⟩⟩

/-- A text without the mark, or what is before the first one and after. -/
theorem mark_cases (sep : Char) (t : Text) :
    sep ∉ t ∨ ∃ a b, t = a ++ sep :: b ∧ sep ∉ a := by
  cases h : cut sep t with
  | mk a rest =>
      cases rest with
      | none => exact Or.inl (cut_eq_none_iff.mp h).2
      | some b => exact Or.inr ⟨a, b, cut_eq_some_iff.mp h⟩

-- ========================================================= splitting

/-- A text without the mark is one piece. -/
theorem splitOn_of_notMem (h : sep ∉ t) : splitOn sep t = [t] := by
  induction t with
  | nil => rfl
  | cons c rest ih =>
      rw [List.mem_cons, not_or] at h
      have hc : c ≠ sep := fun h' => h.1 h'.symm
      rw [splitOn, if_neg hc, ih h.2]

/-- What is before the first mark is the first piece. -/
theorem splitOn_append (h : sep ∉ a) :
    splitOn sep (a ++ sep :: b) = a :: splitOn sep b := by
  induction a with
  | nil => rw [List.nil_append, splitOn, if_pos rfl]
  | cons c a ih =>
      rw [List.mem_cons, not_or] at h
      have hc : c ≠ sep := fun h' => h.1 h'.symm
      rw [List.cons_append, splitOn, if_neg hc, ih h.2]

/-- Induction along the pieces of a text, from the last one back. -/
theorem pieces_induction (sep : Char) {motive : Text → Prop}
    (last : ∀ t, sep ∉ t → motive t)
    (more : ∀ a b, sep ∉ a → motive b → motive (a ++ sep :: b)) (t : Text) :
    motive t := by
  induction h : t.length using Nat.strong_induction_on generalizing t with
  | _ n ih =>
      rcases mark_cases sep t with hnot | ⟨a, b, rfl, hnot⟩
      · exact last t hnot
      · refine more a b hnot (ih b.length ?_ b rfl)
        rw [← h, List.length_append, List.length_cons]
        omega

/-- A piece is a part of the text in which the mark does not stand. -/
theorem of_mem_splitOn (h : s ∈ splitOn sep t) : s <:+: t ∧ sep ∉ s := by
  induction t using pieces_induction sep with
  | last t hnot =>
      rw [splitOn_of_notMem hnot, List.mem_singleton] at h
      subst h
      exact ⟨List.infix_refl _, hnot⟩
  | more a b hnot ih =>
      rw [splitOn_append hnot] at h
      rcases List.mem_cons.mp h with rfl | h
      · exact ⟨⟨[], sep :: b, rfl⟩, hnot⟩
      · refine ⟨(ih h).1.trans ⟨a ++ [sep], [], ?_⟩, (ih h).2⟩
        rw [List.append_nil, List.append_assoc]
        rfl

/-- The pieces with the mark between them are the text again. -/
theorem joinWith_splitOn (sep : Char) (t : Text) :
    joinWith [sep] (splitOn sep t) = t := by
  induction t using pieces_induction sep with
  | last t hnot => rw [splitOn_of_notMem hnot, joinWith]
  | more a b hnot ih =>
      rw [splitOn_append hnot]
      cases hb : splitOn sep b with
      | nil =>
          -- there is always a piece
          rcases mark_cases sep b with hnot | ⟨c, d, rfl, hnot⟩
          · rw [splitOn_of_notMem hnot] at hb
            cases hb
          · rw [splitOn_append hnot] at hb
            cases hb
      | cons piece pieces =>
          rw [joinWith, ← hb, ih, List.append_assoc]
          rfl

/-- Texts without the mark, with marks between them, are split again. -/
theorem splitOn_joinWith {pieces : List Text} (hne : pieces ≠ [])
    (h : ∀ p ∈ pieces, sep ∉ p) : splitOn sep (joinWith [sep] pieces) = pieces := by
  induction pieces with
  | nil => exact absurd rfl hne
  | cons first rest ih =>
      have hfirst := h first List.mem_cons_self
      cases rest with
      | nil => rw [joinWith, splitOn_of_notMem hfirst]
      | cons second rest =>
          have hrest := fun p hp => h p (List.mem_cons_of_mem first hp)
          rw [joinWith, List.append_assoc, List.singleton_append, splitOn_append hfirst,
            ih (List.cons_ne_nil _ _) hrest]

/-- Texts with a separator between them end as the last one does. -/
theorem joinWith_concat_append (sep ending : Text) (pieces : List Text) (last : Text) :
    joinWith sep (pieces ++ [last ++ ending]) = joinWith sep (pieces ++ [last]) ++ ending := by
  induction pieces with
  | nil => rfl
  | cons first rest ih =>
      cases rest with
      | nil => simp [joinWith]
      | cons second more =>
          simp only [List.cons_append, joinWith] at ih ⊢
          rw [ih]
          simp

/-- A character that is not in the separator is in a joined text if it is in
one of its pieces. -/
theorem mem_joinWith {c : Char} {sep : Text} (hsep : c ∉ sep) (pieces : List Text) :
    c ∈ joinWith sep pieces ↔ ∃ p ∈ pieces, c ∈ p := by
  induction pieces with
  | nil => simp [joinWith]
  | cons first rest ih =>
      cases rest with
      | nil => simp [joinWith]
      | cons second more =>
          rw [joinWith, List.mem_append, List.mem_append, ih]
          simp [hsep]

-- ============================================================= words

/-- A blank in front makes no word. -/
theorem words_cons_blank {c : Char} (h : isBlank c = true) (t : Text) :
    words (c :: t) = words t := by
  rw [words.eq_def]
  simp [h]

/-- A text without blanks is one word. -/
theorem words_of_visible (hne : t ≠ []) (h : ∀ c ∈ t, isBlank c = false) : words t = [t] := by
  induction t with
  | nil => exact absurd rfl hne
  | cons c rest ih =>
      obtain ⟨hc, hrest⟩ := List.forall_mem_cons.mp h
      cases rest with
      | nil => simp [words, hc]
      | cons d rest =>
          have hd := hrest d List.mem_cons_self
          rw [words]
          simp [hc, hd, ih (List.cons_ne_nil d rest) hrest]

/-- What is before a space is the first word, if there is no blank in it. -/
theorem words_append (hne : a ≠ []) (h : ∀ c ∈ a, isBlank c = false) (b : Text) :
    words (a ++ ' ' :: b) = a :: words b := by
  have hspace : isBlank ' ' = true := by decide
  induction a with
  | nil => exact absurd rfl hne
  | cons c rest ih =>
      obtain ⟨hc, hrest⟩ := List.forall_mem_cons.mp h
      cases rest with
      | nil =>
          rw [List.cons_append, List.nil_append, words, words_cons_blank hspace]
          simp [hc, hspace]
      | cons d rest =>
          have hd := hrest d List.mem_cons_self
          rw [List.cons_append, List.cons_append, words, ← List.cons_append,
            ih (List.cons_ne_nil d rest) hrest]
          simp [hc, hd]

/-- Words with spaces between them are told apart again. -/
theorem words_joinWith {pieces : List Text} (hne : ∀ p ∈ pieces, p ≠ [])
    (h : ∀ p ∈ pieces, ∀ c ∈ p, isBlank c = false) : words (joinWith " " pieces) = pieces := by
  induction pieces with
  | nil => rfl
  | cons first rest ih =>
      obtain ⟨hfirst, hothers⟩ := List.forall_mem_cons.mp hne
      obtain ⟨hvisible, hrest⟩ := List.forall_mem_cons.mp h
      cases rest with
      | nil => exact words_of_visible hfirst hvisible
      | cons second rest =>
          have hjoined : joinWith " " (first :: second :: rest)
              = first ++ ' ' :: joinWith " " (second :: rest) := by
            rw [joinWith, List.append_assoc]
            rfl
          rw [hjoined, words_append hfirst hvisible, ih hothers hrest]

-- ============================================================== ends

/-- What remains behind a beginning. -/
theorem after?_eq_some_iff : after? a t = some b ↔ t = a ++ b := by
  induction a generalizing t with
  | nil => exact ⟨fun h => Option.some.inj h, fun h => congrArg some h⟩
  | cons c a ih =>
      cases t with
      | nil => simp [after?]
      | cons d t =>
          rw [after?]
          by_cases h : c = d
          · subst h
            rw [if_pos rfl, ih, List.cons_append, List.cons_inj_right]
          · rw [if_neg h]
            simp [Ne.symm h]

/-- A text begins with another if that is a beginning of it. -/
theorem beginsWith_iff : beginsWith a t = true ↔ a <+: t := by
  unfold beginsWith
  rw [Option.isSome_iff_exists]
  simp only [after?_eq_some_iff]
  exact exists_congr fun rest => eq_comm

/-- A text occurs in another if it is one piece of it. -/
theorem occursIn_iff : occursIn a t = true ↔ a <:+: t := by
  induction t with
  | nil => rw [occursIn, List.isEmpty_iff, List.infix_nil]
  | cons c t ih => rw [occursIn, Bool.or_eq_true, beginsWith_iff, ih, List.infix_cons_iff]

/-- A text has the characters of what occurs in it. -/
theorem mem_of_occursIn {c : Char} (h : occursIn a t = true) (hc : c ∈ a) : c ∈ t :=
  (occursIn_iff.mp h).subset hc

/-- A text ends with a character if that is its last one. -/
theorem endsWith_singleton {c : Char} :
    endsWith [c] t = true ↔ t.getLast? = some c := by
  unfold endsWith beginsWith
  rw [← List.head?_reverse]
  cases t.reverse with
  | nil => simp [after?]
  | cons d rest =>
      by_cases h : c = d
      · simp [after?, h]
      · simp [after?, h, Ne.symm h]

-- ============================================================ digits

/-- A digit is one of ten characters from a zero on. -/
theorem exists_zero_of_isDigit {c : Char} (h : isDigit c = true) :
    ∃ z ∈ zeros, z ≤ c.toNat ∧ c.toNat < z + 10 := by
  unfold isDigit digit? at h
  rw [Option.isSome_map, List.find?_isSome] at h
  simpa using h

/-- No digit is a blank: the two tables have nothing in common. -/
theorem isBlank_of_isDigit {c : Char} (h : isDigit c = true) :
    isBlank c = false := by
  obtain ⟨z, hz, hlo, hhi⟩ := exists_zero_of_isDigit h
  have hapart : ∀ z ∈ zeros, ∀ r ∈ blankRuns, z + 10 ≤ r.1 ∨ r.2 < z := by
    decide
  rw [← Bool.not_eq_true]
  intro hblank
  obtain ⟨⟨first, last⟩, hr, hin⟩ := List.any_eq_true.mp hblank
  rw [Bool.and_eq_true, decide_eq_true_eq, decide_eq_true_eq] at hin
  have := hapart z hz _ hr
  simp only at this
  omega

end FeedSieve.Text
