/-
Every text can be written, and is read again.

Whatever style a text is written in, reading gives the text
(`readsAs_writeText`). Written plain it has the form of a text, and in quotes
no form at all; so its value is a text in either case
(`value_writeText`), also where it looks like a number or a date. And only
visible ASCII is written (`isOrdinary_writeText`).
-/
import FeedSieve.Proofs.Yaml.Records

namespace FeedSieve.Yaml

variable {c : Char} {t : Text} {runs : List Run}

-- ============================================================== reading

/-- The first word of a text that can be written plain can begin a scalar. -/
theorem openingWord_of_isPlainText {w : Text} {rest : List Run} (h : isPlainText t = true)
    (hword : PlainWord w) (hruns : runsOf t = .word w :: rest)
    (hsentence : Sentence (.word w :: rest)) : OpeningWord w := by
  have htext : w ++ textOf rest = t := by
    rw [← textOf_runsOf t, hruns, textOf_cons]
    rfl
  -- behind the first word there is a space, or the text ends
  have hends : endsToken (first (textOf rest)) = true := by
    cases hsentence with
    | last _ => rfl
    | @more _ n _ _ hn _ =>
        obtain ⟨n, rfl⟩ := Nat.exists_eq_succ_of_ne_zero hn
        rfl
  obtain ⟨-, hopening, -, -, hmark⟩ := opening_of_isPlainText h
  rw [← htext, first_append hword.ne_nil] at hopening hmark
  refine ⟨hword, hopening, ?_, ?_⟩
  · rintro rfl
    have hgoes := hmark (.inr rfl)
    rw [List.singleton_append, List.drop_one, List.tail_cons, hends] at hgoes
    cases hgoes
  · rintro rfl
    have hgoes := hmark (.inl rfl)
    rw [List.singleton_append, List.drop_one, List.tail_cons, hends] at hgoes
    cases hgoes

/-- A text that can be written plain is read as it is. -/
theorem readsAs_plain (h : isPlainText t = true) (hne : t ≠ []) (column : Nat) :
    ReadsAs (writeRuns false column true (runsOf t)) t true := by
  have hsentence := sentence_runsOf h hne
  obtain ⟨w, rest, hword, hruns⟩ := hsentence.exists_word
  have htext := textOf_runsOf t
  rw [hruns] at hsentence htext ⊢
  have hopening := openingWord_of_isPlainText h hword hruns hsentence
  have hreads := readsAs_sentence hsentence hopening column true
  rwa [htext] at hreads

/-- A text that can be written in single quotes is read as it is. -/
theorem readsAs_single (h : isQuotable t = true) (column : Nat) :
    ReadsAs ('\'' :: writeRuns true column true (runsOf t) ++ ['\'']) t false := by
  unfold isQuotable at h
  simp only [Bool.and_eq_true, Bool.not_eq_true', List.all_eq_true] at h
  obtain ⟨⟨hordinary, hbreak⟩, hspace⟩ := h
  refine readsAs_quoted .single fun x hx => ?_
  have htext := textOf_runsOf t
  have hread : singleQuoted [] .none (writeRuns true column true (runsOf t) ++ '\'' :: x)
      = .ok (textOf (runsOf t), x) :=
    singleQuoted_runs (alternating_runsOf hbreak hspace) (by rwa [htext]) column true rfl
      (.inl rfl) hx
  rwa [htext] at hread

/-- Every text can be written in double quotes. -/
theorem readsAs_double (t : Text) (column : Nat) :
    ReadsAs ('"' :: writeDouble column true false t ++ ['"']) t false :=
  readsAs_quoted .double fun _ _ => doubleQuoted_written t column true false

/-- What a style says about a text. -/
theorem styleOf_cases (t : Text) :
    (styleOf t = .plain ∧ isPlainText t = true ∧ Tag.ofForm t = .text)
      ∨ (styleOf t = .single ∧ isQuotable t = true) ∨ styleOf t = .double := by
  unfold styleOf
  split
  · rename_i h
    rw [Bool.and_eq_true, decide_eq_true_eq] at h
    exact .inl ⟨rfl, h⟩
  · split
    · rename_i h
      exact .inr (.inl ⟨rfl, h⟩)
    · exact .inr (.inr rfl)

/-- A text that is written is read as it is. -/
theorem readsAs_writeText (column : Nat) (t : Text) :
    ReadsAs (writeText column t) t (styleOf t == .plain) := by
  unfold writeText
  obtain ⟨hstyle, hplain, hform⟩ | ⟨hstyle, hquotable⟩ | hstyle := styleOf_cases t <;> rw [hstyle]
  · have hne : t ≠ [] := by
      rintro rfl
      exact absurd hform (by decide)
    exact readsAs_plain hplain hne column
  · exact readsAs_single hquotable (column + 1)
  · exact readsAs_double t (column + 1)

/-- Its value is a text. -/
theorem value_writeText (t : Text) :
    scalarValue (if styleOf t == .plain then .ofForm t else .text) t = .ok (.text t) := by
  obtain ⟨hstyle, -, hform⟩ | ⟨hstyle, -⟩ | hstyle := styleOf_cases t <;> rw [hstyle]
  · rw [hform]
    rfl
  · rfl
  · rfl

-- =========================================================== characters

/-- Digits in capitals are visible ASCII. -/
theorem isOrdinary_hexCapital {width n : Nat} (hc : c ∈ Text.hexCapital width n) :
    isOrdinary c = true := by
  have hdigit : ∀ d < 16, isOrdinary (Nat.digitChar d).toUpper = true := by decide
  have hdigits (n : Nat) : ∀ c ∈ Nat.toDigits 16 n, isOrdinary c.toUpper = true := by
    induction n using Nat.base_induction 16 (by decide) with
    | single m hm =>
        rw [Nat.toDigits_of_lt_base hm]
        exact List.forall_mem_singleton.mpr (hdigit m hm)
    | digit m k hk hm ih =>
        rw [← Nat.toDigits_append_toDigits (by decide) hm hk, Nat.toDigits_of_lt_base hk,
          List.forall_mem_append]
        exact ⟨ih, List.forall_mem_singleton.mpr (hdigit k hk)⟩
  obtain ⟨d, hd, rfl⟩ := List.mem_map.mp hc
  rcases List.mem_append.mp hd with hzero | hd
  · rw [List.eq_of_mem_replicate hzero]
    decide
  · exact hdigits n d hd

/-- An escape is visible ASCII. -/
theorem isOrdinary_escape {e : Text} (h : escape? c = some e) : ∀ d ∈ e, isOrdinary d = true := by
  have hletters : ∀ p ∈ escapeLetters, isOrdinary p.2 = true := by decide
  unfold escape? at h
  split at h
  · rename_i letter hlookup
    obtain rfl := Option.some.inj h
    obtain ⟨before, after, hsplit, -⟩ := List.lookup_eq_some_iff.mp hlookup
    have hmem : (c, letter) ∈ escapeLetters := hsplit ▸ List.mem_append_right _ List.mem_cons_self
    simp only [List.forall_mem_cons]
    exact ⟨rfl, hletters _ hmem, nofun⟩
  · split at h
    · cases h
    · split at h
      · obtain rfl := Option.some.inj h
        simp only [List.forall_mem_cons]
        exact ⟨rfl, rfl, fun d hd => isOrdinary_hexCapital hd⟩
      · split at h
        · obtain rfl := Option.some.inj h
          simp only [List.forall_mem_cons]
          exact ⟨rfl, rfl, fun d hd => isOrdinary_hexCapital hd⟩
        · obtain rfl := Option.some.inj h
          simp only [List.forall_mem_cons]
          exact ⟨rfl, rfl, fun d hd => isOrdinary_hexCapital hd⟩

/-- So is a character that needs none. -/
theorem isOrdinary_unescaped (h : escape? c = none) : isOrdinary c = true := by
  unfold escape? at h
  split at h
  · cases h
  · split at h
    · rename_i hvisible
      unfold isOrdinary
      rw [hvisible, Bool.or_true]
    · split at h
      · cases h
      · split at h <;> cases h

/-- A fold is a line end and spaces. -/
theorem isOrdinary_folded : ∀ c ∈ folded, isOrdinary c = true := by decide

/-- So is what is written in double quotes. -/
theorem isOrdinary_writeDouble (column : Nat) (opening fresh : Bool) (t : Text) :
    ∀ c ∈ writeDouble column opening fresh t, isOrdinary c = true := by
  have hguard (p : Prop) [Decidable p] : ∀ c ∈ (if p then ['\\'] else [] : Text),
      isOrdinary c = true := by
    split <;> decide
  induction t generalizing column opening fresh with
  | nil => exact nofun
  | cons a t ih =>
      rw [writeDouble]
      cases he : escape? a with
      | some e =>
          have hescape := isOrdinary_escape he
          dsimp only
          split
          · simp only [List.forall_mem_append, List.forall_mem_cons]
            exact ⟨⟨⟨hescape, rfl, isOrdinary_folded⟩, hguard _⟩, ih _ _ _⟩
          · exact List.forall_mem_append.mpr ⟨hescape, ih _ _ _⟩
      | none =>
          have ha := isOrdinary_unescaped he
          dsimp only
          split
          · simp only [List.cons_append, List.forall_mem_append, List.forall_mem_cons]
            exact ⟨rfl, ⟨isOrdinary_folded, hguard _⟩, ha, ih _ _ _⟩
          · exact List.forall_mem_cons.mpr ⟨ha, ih _ _ _⟩

/-- And what is written of runs that are visible ASCII themselves. -/
theorem isOrdinary_writeRuns (isSingle : Bool) (column : Nat) (opening : Bool)
    (h : ∀ c ∈ textOf runs, isOrdinary c = true) :
    ∀ c ∈ writeRuns isSingle column opening runs, isOrdinary c = true := by
  have hsame {d : Char} (hd : isOrdinary d = true) (n : Nat) :
      ∀ c ∈ List.replicate n d, isOrdinary c = true := fun c hc =>
    List.eq_of_mem_replicate hc ▸ hd
  induction runs generalizing column opening with
  | nil => exact nofun
  | cons r rest ih =>
      rw [textOf_cons, List.forall_mem_append] at h
      obtain ⟨hr, hrest⟩ := h
      cases r with
      | word w =>
          rw [writeRuns]
          refine List.forall_mem_append.mpr ⟨fun c hc => ?_, ih _ _ hrest⟩
          split at hc
          · obtain ⟨d, hd, hmem⟩ := List.mem_flatMap.mp hc
            split at hmem
            · rw [List.eq_of_mem_replicate (n := 2) hmem]
              rfl
            · rw [List.mem_singleton.mp hmem]
              exact hr d hd
          · exact hr c hc
      | spaces n =>
          rw [writeRuns]
          split
          · exact List.forall_mem_append.mpr ⟨isOrdinary_folded, ih _ _ hrest⟩
          · exact List.forall_mem_append.mpr ⟨hsame rfl n, ih _ _ hrest⟩
      | breaks n =>
          rw [writeRuns]
          simp only [List.forall_mem_append]
          exact ⟨⟨hsame rfl n, isOrdinary_folded⟩, ih _ _ hrest⟩

/-- Whatever a text is, it is written in visible ASCII and line ends. -/
theorem isOrdinary_writeText (column : Nat) (t : Text) :
    ∀ c ∈ writeText column t, isOrdinary c = true := by
  have htext := textOf_runsOf t
  unfold writeText
  obtain ⟨hstyle, hplain, -⟩ | ⟨hstyle, hquotable⟩ | hstyle := styleOf_cases t <;> rw [hstyle]
  · have hunmarked := unmarked_of_isPlainText hplain
    exact isOrdinary_writeRuns false _ _ fun c hc => (hunmarked.ordinary c (htext ▸ hc)).1
  · unfold isQuotable at hquotable
    simp only [Bool.and_eq_true, List.all_eq_true] at hquotable
    simp only [List.cons_append, List.forall_mem_append, List.forall_mem_cons]
    exact ⟨rfl, isOrdinary_writeRuns true _ _ (by rw [htext]; exact hquotable.1.1), rfl, nofun⟩
  · simp only [List.cons_append, List.forall_mem_append, List.forall_mem_cons]
    exact ⟨rfl, isOrdinary_writeDouble _ _ _ t, rfl, nofun⟩

end FeedSieve.Yaml
