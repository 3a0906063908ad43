/-
What is escaped is resolved again.

Escaping puts references for the characters that markup needs, and resolving
puts the characters for the references, so that any text comes back
(`resolve?_escapeText`); in attributes line ends and tabs do as well, for
they are not written as blanks (`attributeValue?_escape`). What is escaped
holds no mark at which a reader would end it (`notMem_escapeText`,
`notMem_escapeAttribute`).
-/
import FeedSieve.Proofs.Text.Parts
import FeedSieve.Xml.Scanner
import FeedSieve.Xml.Tree

namespace FeedSieve.Xml

variable {grammar : Grammar} {c : Char} {t body value : Text}

/-- What holds of every character of a text is tried on those only, not on
all the characters there are. -/
instance (priority := 1100) decidableForallMem {p : Char → Prop} [DecidablePred p] (t : Text) :
    Decidable (∀ c ∈ t, p c) := List.decidableBAll p t

-- ========================================================== resolving

/-- There is always a first piece. -/
private theorem exists_splitOn (sep : Char) (t : Text) :
    ∃ piece pieces, Text.splitOn sep t = piece :: pieces := by
  rcases Text.mark_cases sep t with hnot | ⟨a, b, rfl, hnot⟩
  · exact ⟨t, [], Text.splitOn_of_notMem hnot⟩
  · exact ⟨a, _, Text.splitOn_append hnot⟩

/-- A character that begins no reference stands for itself. -/
theorem resolve?_cons (h : c ≠ '&') :
    resolve? grammar (c :: t) = (resolve? grammar t).map (c :: ·) := by
  obtain ⟨piece, pieces, hsplit⟩ := exists_splitOn '&' t
  unfold resolve?
  rw [Text.splitOn, if_neg h, hsplit, Option.map_map]
  rfl

/-- A reference stands for what it names. -/
theorem resolve?_reference (body : Text) (hamp : '&' ∉ body) (hend : ';' ∉ body)
    (hvalue : reference? grammar body = some value) :
    resolve? grammar ('&' :: body ++ ';' :: t) = (resolve? grammar t).map (value ++ ·) := by
  obtain ⟨piece, pieces, hsplit⟩ := exists_splitOn '&' t
  -- what follows the reference stays with it until the next ampersand
  have hbehind : ∀ s : Text, '&' ∉ s →
      Text.splitOn '&' (s ++ ';' :: t) = (s ++ ';' :: piece) :: pieces := by
    intro s hs
    induction s with
    | nil =>
        rw [List.nil_append, Text.splitOn, if_neg (by decide), hsplit]
        rfl
    | cons d s ih =>
        rw [List.mem_cons, not_or] at hs
        rw [List.cons_append, Text.splitOn, if_neg (Ne.symm hs.1), ih hs.2]
        rfl
  have hcut : afterAmpersand? grammar (body ++ ';' :: piece) = some (value ++ piece) := by
    unfold afterAmpersand?
    rw [Text.cut_eq_some_iff.mpr ⟨rfl, hend⟩]
    simp only [hvalue, Option.map_some]
  unfold resolve?
  rw [List.cons_append, Text.splitOn, if_pos rfl, hbehind body hamp, hsplit]
  simp only [List.mapM_cons, hcut, Option.map_bind, bind, Option.bind_some, pure]
  cases pieces.mapM (afterAmpersand? grammar) with
  | none => rfl
  | some parts => simp

-- =========================================================== characters

/-- A character is escaped by a reference to it, or not at all. -/
private theorem resolve?_textChar_append (c : Char) (t : Text) :
    resolve? grammar (textChar c ++ t) = (resolve? grammar t).map (c :: ·) := by
  unfold textChar
  split
  case isTrue h =>
    subst h
    exact resolve?_reference "amp" (by decide) (by decide) rfl
  case isFalse hamp =>
    split
    case isTrue h =>
      subst h
      exact resolve?_reference "lt" (by decide) (by decide) rfl
    case isFalse =>
      split
      case isTrue h =>
        subst h
        exact resolve?_reference "gt" (by decide) (by decide) rfl
      case isFalse => exact resolve?_cons hamp

/-- So it is in an attribute. -/
private theorem resolve?_attributeChar_append (c : Char) (t : Text) :
    resolve? grammar (attributeChar c ++ t) = (resolve? grammar t).map (c :: ·) := by
  unfold attributeChar
  split
  case isTrue h =>
    subst h
    exact resolve?_reference "quot" (by decide) (by decide) rfl
  case isFalse =>
    split
    case isTrue h =>
      subst h
      exact resolve?_reference "#13" (by decide) (by decide) rfl
    case isFalse =>
      split
      case isTrue h =>
        subst h
        exact resolve?_reference "#10" (by decide) (by decide) rfl
      case isFalse =>
        split
        case isTrue h =>
          subst h
          exact resolve?_reference "#09" (by decide) (by decide) rfl
        case isFalse => exact resolve?_textChar_append c t

/-- A text that is written is read again. -/
theorem resolve?_escapeText (t : Text) : resolve? grammar (escapeText t) = some t := by
  induction t with
  | nil => rfl
  | cons c t ih =>
      show resolve? grammar (textChar c ++ escapeText t) = _
      rw [resolve?_textChar_append, ih]
      rfl

/-- The value of an attribute with its markup escaped. -/
def escapeAttribute (t : Text) : Text := t.flatMap attributeChar

/-- So is the value of an attribute. -/
theorem resolve?_escapeAttribute (t : Text) :
    resolve? grammar (escapeAttribute t) = some t := by
  induction t with
  | nil => rfl
  | cons c t ih =>
      show resolve? grammar (attributeChar c ++ escapeAttribute t) = _
      rw [resolve?_attributeChar_append, ih]
      rfl

-- =============================================================== marks

/-- What holds of the characters of references, and of a character that needs
none, holds of what is written for it. -/
theorem forall_mem_textChar {p : Char → Prop} (hmarks : ∀ c ∈ "&ampltgt;".toList, p c)
    (hplain : c ≠ '&' → c ≠ '<' → c ≠ '>' → p c) : ∀ d ∈ textChar c, p d := by
  have hsub : ∀ s : Text, s ⊆ "&ampltgt;".toList → ∀ d ∈ s, p d :=
    fun s hs d hd => hmarks d (hs hd)
  unfold textChar
  split
  case isTrue => exact hsub _ (by decide)
  case isFalse hamp =>
    split
    case isTrue => exact hsub _ (by decide)
    case isFalse hless =>
      split
      case isTrue => exact hsub _ (by decide)
      case isFalse hmore => exact fun d hd => List.mem_singleton.mp hd ▸ hplain hamp hless hmore

/-- So it is in an attribute. -/
theorem forall_mem_attributeChar {p : Char → Prop}
    (hmarks : ∀ c ∈ "&ampltgtquo#0139;".toList, p c)
    (hplain : c ∉ "&<>\"\r\n\t".toList → p c) : ∀ d ∈ attributeChar c, p d := by
  have hsub : ∀ s : Text, s ⊆ "&ampltgtquo#0139;".toList → ∀ d ∈ s, p d :=
    fun s hs d hd => hmarks d (hs hd)
  unfold attributeChar
  split
  case isTrue => exact hsub _ (by decide)
  case isFalse hquote =>
    split
    case isTrue => exact hsub _ (by decide)
    case isFalse hreturn =>
      split
      case isTrue => exact hsub _ (by decide)
      case isFalse hline =>
        split
        case isTrue => exact hsub _ (by decide)
        case isFalse htab =>
          refine forall_mem_textChar (fun d hd => hmarks d ?_) fun hamp hless hmore => hplain ?_
          · revert d
            decide
          · simp [hquote, hreturn, hline, htab, hamp, hless, hmore]

/-- Escaped text begins no tag and ends none. -/
theorem notMem_escapeText (t : Text) : '<' ∉ escapeText t ∧ '>' ∉ escapeText t := by
  have hchars : ∀ d ∈ escapeText t, d ≠ '<' ∧ d ≠ '>' := by
    intro d hd
    obtain ⟨c, -, hd⟩ := List.mem_flatMap.mp hd
    exact forall_mem_textChar (p := fun d => d ≠ '<' ∧ d ≠ '>') (by decide)
      (fun _ hless hmore => ⟨hless, hmore⟩) d hd
  exact ⟨fun h => (hchars _ h).1 rfl, fun h => (hchars _ h).2 rfl⟩

/-- An escaped value begins no tag and does not end before its quote; its blanks
are spaces. -/
theorem notMem_escapeAttribute (t : Text) : '<' ∉ escapeAttribute t ∧ '"' ∉ escapeAttribute t
    ∧ ∀ c ∈ escapeAttribute t, isSpace c = true → c = ' ' := by
  have hchars : ∀ d ∈ escapeAttribute t, d ≠ '<' ∧ d ≠ '"' ∧ (isSpace d = true → d = ' ') := by
    intro d hd
    obtain ⟨c, -, hd⟩ := List.mem_flatMap.mp hd
    refine forall_mem_attributeChar
      (p := fun d => d ≠ '<' ∧ d ≠ '"' ∧ (isSpace d = true → d = ' ')) (by decide)
      (fun hplain => ?_) d hd
    refine ⟨fun h => hplain (h ▸ by decide), fun h => hplain (h ▸ by decide), fun hspace => ?_⟩
    simp only [isSpace, Bool.or_eq_true, decide_eq_true_eq] at hspace
    rcases hspace with ((h | h) | h) | h
    · exact h
    all_goals exact absurd (h ▸ by decide) hplain
  exact ⟨fun h => (hchars _ h).1 rfl, fun h => (hchars _ h).2.1 rfl, fun c h => (hchars c h).2.2⟩

/-- The value of a written attribute is read again. -/
theorem attributeValue?_escape (grammar : Grammar) (t : Text) :
    Scanner.attributeValue? grammar (escapeAttribute t) = some t := by
  obtain ⟨hless, -, hblanks⟩ := notMem_escapeAttribute t
  have hsame : (escapeAttribute t).map (fun c => if isSpace c then ' ' else c)
      = escapeAttribute t := by
    refine (List.map_congr_left fun c hc => ?_).trans (List.map_id' _)
    by_cases hspace : isSpace c = true
    · rw [if_pos hspace, hblanks c hc hspace]
    · rw [if_neg hspace]
  unfold Scanner.attributeValue?
  rw [if_neg (by simpa using hless), hsame, resolve?_escapeAttribute]

-- ===================================================== legal characters

/-- Escaping needs no character that may not stand in a document. -/
theorem isChar_escapeText (h : ∀ c ∈ t, isChar c = true) :
    ∀ d ∈ escapeText t, isChar d = true := by
  intro d hd
  obtain ⟨c, hc, hd⟩ := List.mem_flatMap.mp hd
  exact forall_mem_textChar (p := fun d => isChar d = true) (by decide) (fun _ _ _ => h c hc) d hd

theorem isChar_escapeAttribute (h : ∀ c ∈ t, isChar c = true) :
    ∀ d ∈ escapeAttribute t, isChar d = true := by
  intro d hd
  obtain ⟨c, hc, hd⟩ := List.mem_flatMap.mp hd
  exact forall_mem_attributeChar (p := fun d => isChar d = true) (by decide) (fun _ => h c hc) d hd

/-- It does not hide one either. -/
theorem mem_escapeText (hc : c ∈ t) (h : isChar c = false) : c ∈ escapeText t := by
  have hne : ∀ d : Char, isChar d = true → c ≠ d := by
    rintro d hd rfl
    rw [h] at hd
    cases hd
  refine List.mem_flatMap.mpr ⟨c, hc, ?_⟩
  unfold textChar
  rw [if_neg (hne _ (by decide)), if_neg (hne _ (by decide)), if_neg (hne _ (by decide))]
  exact List.mem_singleton_self c

theorem mem_escapeAttribute (hc : c ∈ t) (h : isChar c = false) : c ∈ escapeAttribute t := by
  have hne : ∀ d : Char, isChar d = true → c ≠ d := by
    rintro d hd rfl
    rw [h] at hd
    cases hd
  refine List.mem_flatMap.mpr ⟨c, hc, ?_⟩
  unfold attributeChar textChar
  rw [if_neg (hne _ (by decide)), if_neg (hne _ (by decide)), if_neg (hne _ (by decide)),
    if_neg (hne _ (by decide)), if_neg (hne _ (by decide)), if_neg (hne _ (by decide)),
    if_neg (hne _ (by decide))]
  exact List.mem_singleton_self c

-- ========================================================== line ends

/-- Other characters stay. -/
theorem unifyLines_cons (h : c ≠ '\r') (rest : Text) :
    unifyLines (c :: rest) = c :: unifyLines rest := by
  rw [unifyLines]
  · rintro rest rfl
    exact absurd rfl h
  · rintro rfl
    exact absurd rfl h

/-- A text without a return keeps its lines. -/
theorem unifyLines_append_of_notMem (h : '\r' ∉ t) (rest : Text) :
    unifyLines (t ++ rest) = t ++ unifyLines rest := by
  induction t with
  | nil => rfl
  | cons c t ih =>
      rw [List.mem_cons, not_or] at h
      rw [List.cons_append, unifyLines_cons (Ne.symm h.1), ih h.2]
      rfl

/-- So it is read as it is. -/
theorem unifyLines_of_notMem (h : '\r' ∉ t) : unifyLines t = t := by
  simpa [unifyLines] using unifyLines_append_of_notMem h []

end FeedSieve.Xml
