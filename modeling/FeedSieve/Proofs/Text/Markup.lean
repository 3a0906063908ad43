/-
What is read of markup.

Markup is read as marks: characters that are shown and tags between them. Without
the tags it is what the console shows (`plain_eq`). A bracket is the beginning of a
tag or not by what follows it, so a text may leave a tag open that another text
behind it closes.

Markup of the program's own is whole: it leaves none open and closes none, so it
is read by itself, whatever stands behind it. What stands before it matters. Of
backslashes before it an odd one takes its first tag away, if it begins with one,
and any two stand for one (`Whole.marksFrom_iff`). No backslashes can add a tag
(`Whole.tagsIn_marksFrom`).
-/
import Mathlib.Data.List.Basic
import FeedSieve.Text.Markup

namespace FeedSieve.Markup

variable {t u w content : Text} {c : Char} {n : Nat}

-- ================================================================ marks

/-- What is read of markup. -/
inductive Mark where
  /-- A character that is shown. -/
  | shown (c : Char)
  /-- A tag, without its brackets. -/
  | tag (content : Text)
deriving DecidableEq

/-- The character that is shown, if it is one. -/
def Mark.char? : Mark → Option Char
  | shown c => some c
  | tag _ => none

/-- The content of the tag, if it is one. -/
def Mark.tag? : Mark → Option Text
  | shown _ => none
  | tag content => some content

/-- A text of which every character is shown. -/
def shownText (t : Text) : List Mark := t.map .shown

/-- Backslashes. -/
def slashes (n : Nat) : Text := List.replicate n '\\'

/-- What is read of markup that may begin within a tag, of which there is a
content already, or behind backslashes. -/
def marksFrom (inside : Option Text) (n : Nat) : Text → List Mark
  | [] => shownText (slashes n)
  | c :: rest =>
      match inside with
      | some content =>
          if c = ']' then .tag content :: marksFrom none 0 rest
          else marksFrom (some (content ++ [c])) 0 rest
      | none =>
          if c = '\\' then marksFrom none (n + 1) rest
          else if c = '[' && opensTag rest then
            shownText (slashes (n / 2)) ++
              if n % 2 = 1 then .shown c :: marksFrom none 0 rest
              else marksFrom (some []) 0 rest
          else shownText (slashes n) ++ .shown c :: marksFrom none 0 rest

/-- What is read of markup. -/
def marks (t : Text) : List Mark := marksFrom none 0 t

theorem shownText_append : shownText (t ++ u) = shownText t ++ shownText u := List.map_append

theorem slashes_append_cons : slashes n ++ '\\' :: t = slashes (n + 1) ++ t := by
  unfold slashes
  rw [List.replicate_succ', List.append_assoc]
  rfl

theorem shownText_slashes_append_cons (l : List Mark) :
    shownText (slashes n ++ c :: t) ++ l
      = shownText (slashes n) ++ .shown c :: (shownText t ++ l) := by
  rw [shownText_append, List.append_assoc]
  rfl

theorem filterMap_char?_shownText : (shownText t).filterMap Mark.char? = t := by
  unfold shownText
  rw [List.filterMap_map]
  exact List.filterMap_some

-- ============================================================== reading

theorem marksFrom_slash : marksFrom none n ('\\' :: t) = marksFrom none (n + 1) t := rfl

theorem marksFrom_slashes (k : Nat) :
    marksFrom none n (slashes k ++ t) = marksFrom none (n + k) t := by
  induction k generalizing n with
  | zero => rfl
  | succ k ih =>
      have hcons : slashes (k + 1) ++ t = '\\' :: (slashes k ++ t) := rfl
      rw [hcons, marksFrom_slash, ih, Nat.add_right_comm]
      rfl

theorem marksFrom_tag (h : opensTag t = true) : marksFrom none n ('[' :: t)
    = shownText (slashes (n / 2))
      ++ if n % 2 = 1 then .shown '[' :: marks t else marksFrom (some []) 0 t := by
  rw [marksFrom]
  simp only
  rw [if_neg (by decide), h]
  rfl

theorem marksFrom_other (hslash : c ≠ '\\') (htag : (c = '[' && opensTag t) = false) :
    marksFrom none n (c :: t) = shownText (slashes n) ++ .shown c :: marks t := by
  rw [marksFrom, if_neg hslash, htag]
  rfl

theorem marksFrom_char (hslash : c ≠ '\\') (hopen : c ≠ '[') :
    marksFrom none n (c :: t) = shownText (slashes n) ++ .shown c :: marks t :=
  marksFrom_other hslash (by rw [decide_eq_false hopen]; rfl)

theorem marks_char (hslash : c ≠ '\\') (hopen : c ≠ '[') : marks (c :: t) = .shown c :: marks t :=
  marksFrom_char hslash hopen

/-- What a console shows is what it reads without the tags. -/
theorem plain_eq (t : Text) : plain t = (marks t).filterMap Mark.char? := by
  suffices ∀ inside n, plainFrom inside.isSome n t = (marksFrom inside n t).filterMap Mark.char?
    from this none 0
  induction t with
  | nil => exact fun _ _ => filterMap_char?_shownText.symm
  | cons c rest ih =>
      intro inside n
      cases inside with
      | some content =>
          rw [plainFrom, marksFrom, Option.isSome_some, if_pos rfl]
          split
          case isTrue hc =>
            subst hc
            exact ih none 0
          case isFalse hc =>
            rw [bne_iff_ne.mpr hc]
            exact ih (some _) 0
      | none =>
          rw [plainFrom, marksFrom, Option.isSome_none, if_neg Bool.false_ne_true]
          simp only
          split
          · exact ih none (n + 1)
          · split
            · rw [List.filterMap_append, filterMap_char?_shownText]
              split
              · exact congrArg _ (congrArg (c :: ·) (ih none 0))
              · exact congrArg _ (ih (some []) 0)
            · rw [List.filterMap_append, filterMap_char?_shownText]
              exact congrArg _ (congrArg (c :: ·) (ih none 0))

-- ================================================================= tags

/-- Whether there is no bracket in a text. -/
def unbracketed (t : Text) : Bool := t.all fun d => d ≠ '[' && d ≠ ']'

/-- Whether what stands behind a bracket may be the beginning of a tag, which is
not closed yet. -/
def dangles (t : Text) : Bool := t.head?.any startsTag && unbracketed t

/-- Whether the first bracket of a text closes a tag. -/
def closes (t : Text) : Bool := (t.dropWhile fun d => d != '[' && d != ']').head? == some ']'

theorem ne_of_startsTag (h : startsTag c = true) : c ≠ '\\' ∧ c ≠ '[' ∧ c ≠ ']' := by
  refine ⟨?_, ?_, ?_⟩ <;> rintro rfl <;> cases h

theorem opensTag_cons : opensTag (c :: t) = (startsTag c && closes t) := rfl

theorem closes_cons : closes (c :: t) = (c = ']' || c ≠ '[' && closes t) := by
  unfold closes
  rw [List.dropWhile_cons]
  by_cases hopen : c = '['
  · subst hopen
    rfl
  · by_cases hclose : c = ']'
    · subst hclose
      rfl
    · simp [hopen, hclose]

/-- What opens a tag closes it. -/
theorem closes_of_opensTag (h : opensTag t = true) : closes t = true := by
  cases t with
  | nil => cases h
  | cons c rest =>
      rw [opensTag_cons, Bool.and_eq_true] at h
      rw [closes_cons, h.2, decide_eq_true (ne_of_startsTag h.1).2.1]
      exact Bool.or_true _

theorem unbracketed_cons :
    unbracketed (c :: t) = (c ≠ '[' && c ≠ ']' && unbracketed t) := rfl

/-- One step of looking for the first bracket in two texts, one behind the other. -/
theorem closes_step (c : Char) (x y z : Bool) :
    (c = ']' || c ≠ '[' && (x || y && z))
      = ((c = ']' || c ≠ '[' && x) || (c ≠ '[' && c ≠ ']' && y) && z) := by
  by_cases hopen : c = '['
  · subst hopen
    rfl
  · by_cases hclose : c = ']'
    · subst hclose
      rfl
    · simp [hopen, hclose]

theorem closes_append (t w : Text) :
    closes (t ++ w) = (closes t || unbracketed t && closes w) := by
  induction t with
  | nil => rfl
  | cons c rest ih =>
      rw [List.cons_append, closes_cons, closes_cons, unbracketed_cons, ih]
      exact closes_step c _ _ _

theorem opensTag_append (hw : opensTag w = false) :
    opensTag (t ++ w) = (opensTag t || dangles t && closes w) := by
  cases t with
  | nil => exact hw
  | cons c rest =>
      rw [List.cons_append, opensTag_cons, opensTag_cons, closes_append, dangles,
        List.head?_cons, Option.any_some, unbracketed_cons]
      cases hstarts : startsTag c with
      | true =>
          obtain ⟨-, hopen, hclose⟩ := ne_of_startsTag hstarts
          simp [hopen, hclose]
      | false => rfl

/-- What dangles is a tag once it is closed. -/
theorem opensTag_of_dangles (h : dangles t = true) : opensTag (t ++ ']' :: w) = true := by
  rw [opensTag_append rfl, h]
  exact Bool.or_true _

/-- Without brackets nothing is closed. -/
theorem closes_of_unbracketed (h : unbracketed t = true) : closes t = false := by
  induction t with
  | nil => rfl
  | cons c rest ih =>
      rw [unbracketed_cons, Bool.and_eq_true, Bool.and_eq_true, decide_eq_true_eq,
        decide_eq_true_eq] at h
      rw [closes_cons, ih h.2, decide_eq_false h.1.2, Bool.and_false]
      rfl

/-- What is a tag already does not dangle. -/
theorem dangles_of_opensTag (h : opensTag t = true) : dangles t = false := by
  rw [← Bool.not_eq_true]
  intro hdangles
  have hnone := closes_of_unbracketed (Bool.and_eq_true_iff.mp hdangles).2
  exact Bool.false_ne_true (hnone.symm.trans (closes_of_opensTag h))

/-- A tag goes on as one where it ends. -/
theorem dangles_slash (h : dangles t = true) : dangles ('/' :: t) = true := by
  rw [dangles, unbracketed_cons, (Bool.and_eq_true_iff.mp h).2]
  rfl

/-- Within a tag that is closed the tag is read next. -/
theorem exists_marksFrom_some (content : Text) (h : closes t = true) :
    ∃ content' m, marksFrom (some content) 0 t = .tag content' :: m := by
  induction t generalizing content with
  | nil => cases h
  | cons c rest ih =>
      rw [marksFrom]
      split
      · exact ⟨_, _, rfl⟩
      · rename_i hc
        rw [closes_cons, decide_eq_false hc, Bool.false_or, Bool.and_eq_true] at h
        exact ih _ h.2

-- ============================================================ comparing

/-- Behind backslashes two readings differ as soon as one goes on otherwise. -/
theorem shownText_slashes_inj {a b : Nat} {x y : Mark} {l m : List Mark}
    (hx : x ≠ .shown '\\') (hy : y ≠ .shown '\\') :
    shownText (slashes a) ++ x :: l = shownText (slashes b) ++ y :: m
      ↔ a = b ∧ x = y ∧ l = m := by
  induction a generalizing b with
  | zero =>
      cases b with
      | zero => simp [slashes, shownText]
      | succ b =>
          refine ⟨fun h => absurd (List.cons.inj h).1 hx, fun h => absurd h.1 (by omega)⟩
  | succ a ih =>
      cases b with
      | zero =>
          refine ⟨fun h => absurd (List.cons.inj h).1.symm hy, fun h => absurd h.1 (by omega)⟩
      | succ b =>
          have hcons (n : Nat) (z : Mark) (k : List Mark) : shownText (slashes (n + 1)) ++ z :: k
              = .shown '\\' :: (shownText (slashes n) ++ z :: k) := rfl
          rw [hcons, hcons, List.cons_inj_right, ih, Nat.add_right_cancel_iff]

/-- A tag is not read as what it consists of, whatever stands before it. -/
theorem marksFrom_tag_ne (h : opensTag t = true) (m : List Mark) :
    marksFrom none n ('[' :: t) ≠ shownText (slashes n) ++ .shown '[' :: m := by
  obtain ⟨content, k, hread⟩ := exists_marksFrom_some [] (closes_of_opensTag h)
  rw [marksFrom_tag h, hread]
  intro heq
  split at heq
  · rename_i hodd
    obtain ⟨hhalf, -⟩ := (shownText_slashes_inj (by decide) (by decide)).mp heq
    omega
  · obtain ⟨-, htag, -⟩ := (shownText_slashes_inj (fun h => (by cases h)) (by decide)).mp heq
    cases htag

/-- Where a tag follows, backslashes before it are read as half as many. -/
theorem marksFrom_tag_iff (h : opensTag t = true) {k : Nat} :
    marksFrom none n ('[' :: t) = shownText (slashes k) ++ marks ('[' :: t)
      ↔ n % 2 = 0 ∧ n / 2 = k := by
  obtain ⟨content, m, hread⟩ := exists_marksFrom_some [] (closes_of_opensTag h)
  have hmarks : marks ('[' :: t) = .tag content :: m := (marksFrom_tag h).trans hread
  rw [marksFrom_tag h, hmarks, hread]
  split
  · rename_i hodd
    rw [shownText_slashes_inj (by decide) fun h => (by cases h)]
    exact ⟨fun h => (by cases h.2.1), fun h => absurd h.1 (by omega)⟩
  · rename_i heven
    rw [shownText_slashes_inj (fun h => (by cases h)) fun h => (by cases h)]
    exact ⟨fun h => ⟨by omega, h.1⟩, fun h => ⟨h.2, rfl, rfl⟩⟩

-- ============================================== markup of the program's own

/-- Markup that stands for itself: it has tags, and otherwise neither backslashes nor
brackets. -/
inductive Whole : Text → Prop
  | nil : Whole []
  | char {d : Char} {s : Text} (hslash : d ≠ '\\') (hopen : d ≠ '[') (hclose : d ≠ ']')
      (h : Whole s) : Whole (d :: s)
  | tag {content s : Text} (hcontent : dangles content = true) (h : Whole s) :
      Whole ('[' :: (content ++ ']' :: s))

theorem Whole.append (ht : Whole t) (hu : Whole u) : Whole (t ++ u) := by
  induction ht with
  | nil => exact hu
  | char hslash hopen hclose h ih => exact .char hslash hopen hclose ih
  | tag hcontent h ih =>
      rw [List.cons_append, List.append_assoc]
      exact .tag hcontent ih

/-- Words without markup. -/
def Plain (t : Text) : Prop := ∀ d ∈ t, d ≠ '\\' ∧ d ≠ '[' ∧ d ≠ ']'

instance (t : Text) : Decidable (Plain t) := List.decidableBAll _ t

theorem plain_cons : Plain (c :: t) ↔ (c ≠ '\\' ∧ c ≠ '[' ∧ c ≠ ']') ∧ Plain t :=
  List.forall_mem_cons

theorem plain_concat {parts : List Text} (h : ∀ t ∈ parts, Plain t) : Plain (Text.concat parts) :=
  fun d hd =>
    have ⟨t, ht, hmem⟩ := List.mem_flatten.mp hd
    h t ht d hmem

theorem Plain.whole (h : Plain t) : Whole t := by
  induction t with
  | nil => exact .nil
  | cons c rest ih =>
      rw [plain_cons] at h
      exact .char h.1.1 h.1.2.1 h.1.2.2 (ih h.2)

/-- A tag and its end with words between them. -/
theorem Whole.enclosed (hcontent : dangles content = true) (h : Whole t) :
    Whole ('[' :: (content ++ ']' :: (t ++ '[' :: '/' :: (content ++ [']'])))) :=
  .tag hcontent (h.append (.tag (dangles_slash hcontent) .nil))

/-- The first bracket in it opens a tag, if there is one. -/
theorem Whole.closes_eq (h : Whole t) : closes t = false := by
  induction h with
  | nil => rfl
  | char hslash hopen hclose h ih =>
      rw [closes_cons, ih, decide_eq_false hclose, Bool.and_false]
      rfl
  | tag hcontent h ih => rfl

/-- Within a tag everything up to the bracket is the tag. -/
theorem marksFrom_some (before : Text) (h : unbracketed content = true) :
    marksFrom (some before) 0 (content ++ ']' :: t) = .tag (before ++ content) :: marks t := by
  induction content generalizing before with
  | nil => rw [List.append_nil]; rfl
  | cons c rest ih =>
      rw [unbracketed_cons, Bool.and_eq_true, Bool.and_eq_true, decide_eq_true_eq,
        decide_eq_true_eq] at h
      rw [List.cons_append, marksFrom, if_neg h.1.2, ih _ h.2, List.append_assoc]
      rfl

/-- What dangles is read as a tag where it is closed, unless a backslash before it
takes its meaning away. -/
theorem marksFrom_dangling (h : dangles content = true) :
    marksFrom none n ('[' :: (content ++ ']' :: t)) = shownText (slashes (n / 2))
      ++ if n % 2 = 1 then .shown '[' :: marks (content ++ ']' :: t)
        else .tag content :: marks t := by
  have hcontent : unbracketed content = true := (Bool.and_eq_true_iff.mp h).2
  rw [marksFrom_tag (opensTag_of_dangles h), marksFrom_some [] hcontent]
  rfl

theorem marks_tag (h : dangles content = true) :
    marks ('[' :: (content ++ ']' :: t)) = .tag content :: marks t := marksFrom_dangling h

/-- It is read by itself, whatever stands behind it. -/
theorem Whole.marks_append (h : Whole t) : marks (t ++ w) = marks t ++ marks w := by
  induction h with
  | nil => rfl
  | char hslash hopen hclose h ih =>
      rw [List.cons_append, marks_char hslash hopen, marks_char hslash hopen, ih]
      rfl
  | tag hcontent h ih =>
      rw [List.cons_append, List.append_assoc, List.cons_append, marks_tag hcontent,
        marks_tag hcontent, ih]
      rfl

/-- Words without markup are read as they are. -/
theorem Plain.marks_append (h : Plain t) : marks (t ++ w) = shownText t ++ marks w := by
  induction t with
  | nil => rfl
  | cons c rest ih =>
      rw [plain_cons] at h
      rw [List.cons_append, marks_char h.1.1 h.1.2.1, ih h.2]
      rfl

theorem Plain.marks_eq (h : Plain t) : marks t = shownText t := by
  have happend := h.marks_append (w := [])
  rwa [List.append_nil, show marks [] = [] from rfl, List.append_nil] at happend

/-- Behind backslashes that are no part of it, it is read as by itself if there are as
many as are to be seen, unless it begins with a tag: then two stand for one. -/
theorem Whole.marksFrom_iff (h : Whole w) {k : Nat} :
    marksFrom none n w = shownText (slashes k) ++ marks w
      ↔ if w.head? = some '[' then n % 2 = 0 ∧ n / 2 = k else n = k := by
  cases h with
  | nil =>
      rw [if_neg (by decide)]
      refine ⟨fun heq => ?_, fun heq => heq ▸ (List.append_nil _).symm⟩
      simpa [marksFrom, marks, shownText, slashes] using congrArg List.length heq
  | char hslash hopen hclose h =>
      rw [marksFrom_char hslash hopen, marks_char hslash hopen, shownText_slashes_inj
        (by simpa using hslash) (by simpa using hslash)]
      simp [hopen]
  | tag hcontent h =>
      rw [marksFrom_tag_iff (opensTag_of_dangles hcontent)]
      exact Iff.rfl

theorem Whole.opensTag_eq (h : Whole t) : opensTag t = false := by
  rw [← Bool.not_eq_true]
  intro hopens
  exact Bool.false_ne_true (h.closes_eq ▸ closes_of_opensTag hopens)

-- ======================================================== tags that are read

/-- The tags among marks. -/
def tagsIn (l : List Mark) : List Text := l.filterMap Mark.tag?

theorem tagsIn_append (l m : List Mark) : tagsIn (l ++ m) = tagsIn l ++ tagsIn m :=
  List.filterMap_append

theorem tagsIn_shownText_append (t : Text) (l : List Mark) :
    tagsIn (shownText t ++ l) = tagsIn l := by
  have hnone : tagsIn (shownText t) = [] := by
    rw [tagsIn, List.filterMap_eq_nil_iff]
    intro m hm
    obtain ⟨c, -, rfl⟩ := List.mem_map.mp hm
    rfl
  rw [tagsIn_append, hnone, List.nil_append]

/-- Without the bracket in front of it a tag is none. -/
theorem tagsIn_content (h : unbracketed content = true) (n : Nat) :
    tagsIn (marksFrom none n (content ++ ']' :: t)) = tagsIn (marks t) := by
  induction content generalizing n with
  | nil =>
      rw [List.nil_append, marksFrom_char (by decide) (by decide), tagsIn_shownText_append]
      rfl
  | cons c rest ih =>
      rw [unbracketed_cons, Bool.and_eq_true, Bool.and_eq_true, decide_eq_true_eq] at h
      rw [List.cons_append]
      by_cases hslash : c = '\\'
      · subst hslash
        exact ih h.2 (n + 1)
      · rw [marksFrom_char hslash h.1.1, tagsIn_shownText_append]
        exact ih h.2 0

/-- Backslashes before markup of the program's own may take a tag away, but add none. -/
theorem Whole.tagsIn_marksFrom (h : Whole w) (n : Nat) :
    (tagsIn (marksFrom none n w)).Sublist (tagsIn (marks w)) := by
  cases h with
  | nil =>
      rw [← List.append_nil (marksFrom none n []), marksFrom, tagsIn_shownText_append]
      exact List.nil_sublist _
  | char hslash hopen hclose h =>
      rw [marksFrom_char hslash hopen, tagsIn_shownText_append, marks_char hslash hopen]
  | tag hcontent h =>
      rw [marksFrom_dangling hcontent, tagsIn_shownText_append, marks_tag hcontent]
      split
      · refine List.Sublist.trans ?_ (List.sublist_cons_self _ _)
        exact (tagsIn_content (Bool.and_eq_true_iff.mp hcontent).2 0).symm ▸ List.Sublist.refl _
      · exact List.Sublist.refl _

end FeedSieve.Markup
