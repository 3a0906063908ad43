/-
Every query of the grammar is read, and nothing else is.

The other half of exactness: where the grammar derives a clause, each
function of the reader gives the part of it that it is responsible for, so
the whole gives the predicate that the clause stands for. Nothing but the
length of numerals can get in the way.

The proofs follow the derivation. What the reader needs to know about the
tokens on its way is that they are firm, so that trimming finds them, and
that the marks at which it cuts and splits do not stand in them.

Together with `judged_read` this gives `read_iff_derives`: the reader
accepts exactly the grammar, and refuses the rest as malformed.
-/
import FeedSieve.Proofs.Query.Judged

namespace FeedSieve.Query

open Calendar (Date)
open Text (Firm Padded isBlank isDigit)

variable {α : Type} {t l u lower upper element body : Text} {d n : Nat}

-- ============================================================ tokens

/-- Runs of digits in a part are runs of digits in the whole. -/
theorem ShortRuns.of_infix {q : Text} (h : ShortRuns q) (hpart : t <:+: q) :
    ShortRuns t :=
  fun run hrun hdigits => h run (hrun.trans hpart) hdigits

/-- A short text has short runs. -/
theorem shortRuns_of_length {q : Text} (h : q.length ≤ 4300) : ShortRuns q :=
  fun _ hrun _ => le_trans hrun.length_le h

/-- A member of an element: firm, and made of digits, hyphens and spaces. -/
structure Plain (t : Text) : Prop where
  firm : Firm isBlank t
  chars : ∀ c ∈ t, isDigit c = true ∨ c = '-' ∨ c = ' '

/-- Any other mark does not stand in a member. -/
theorem Plain.notMem (h : Plain t) {c : Char} (hdigit : isDigit c = false)
    (hhyphen : c ≠ '-') (hspace : c ≠ ' ') : c ∉ t := by
  intro hc
  rcases h.chars c hc with hc | hc | hc
  · rw [hdigit] at hc
    cases hc
  · exact hhyphen hc
  · exact hspace hc

/-- Digits are firm. -/
theorem firm_of_digits (hne : t ≠ []) (h : ∀ c ∈ t, isDigit c = true) :
    Firm isBlank t where
  inhabited := hne
  first c hc := Text.isBlank_of_isDigit (h c (List.mem_of_mem_head? hc))
  last c hc := Text.isBlank_of_isDigit (h c (List.mem_of_getLast? hc))

/-- A run of digits is a member. -/
theorem DigitRun.plain (h : DigitRun t n) : Plain t where
  firm := firm_of_digits h.inhabited h.digits
  chars c hc := Or.inl (h.digits c hc)

/-- What stands in the day of the month, and that its end stays. -/
theorem DayOfMonth.chars (h : DayOfMonth t n) :
    (∀ c ∈ t, isDigit c = true ∨ c = ' ') ∧ t ≠ []
      ∧ ∀ c, t.getLast? = some c → isDigit c = true := by
  have isDigit_of {c : Char} {n : Nat} (h : Text.digit? c = some n) :
      isDigit c = true := by
    rw [isDigit, h]
    rfl
  cases h with
  | @plain c n hplain h =>
      refine ⟨fun e he => ?_, by simp, fun e he => ?_⟩
      · rw [List.mem_singleton.mp he]
        exact Or.inl (isDigit_of h)
      · cases he
        exact isDigit_of h
  | @spaced c n h =>
      refine ⟨fun e he => ?_, by simp, fun e he => ?_⟩
      · rcases List.mem_cons.mp he with rfl | he
        · exact Or.inr rfl
        · rw [List.mem_singleton.mp he]
          exact Or.inl (isDigit_of h)
      · cases he
        exact isDigit_of h
  | two h =>
      exact ⟨fun e he => Or.inl (h.digits e he), by simp,
        fun e he => h.digits e (List.mem_of_getLast? he)⟩

/-- The text of a day is a member. -/
theorem DayText.plain {date : Date} (h : DayText t date) : Plain t := by
  obtain ⟨hyear, -, hmonth, -, hday, -⟩ := h
  obtain ⟨hchars, hne, hlast⟩ := hday.chars
  refine ⟨⟨by simp, fun c hc => ?_, fun c hc => ?_⟩, fun c hc => ?_⟩
  · rw [List.head?_append_of_ne_nil _ hyear.inhabited] at hc
    exact hyear.plain.firm.first c hc
  · rw [List.getLast?_append_of_ne_nil _ (by simp), List.getLast?_cons,
      List.getLast?_append_of_ne_nil _ (by simp), List.getLast?_cons] at hc
    refine Text.isBlank_of_isDigit (hlast c ?_)
    rw [List.getLast?_eq_some_getLast hne] at hc ⊢
    exact hc
  · simp only [List.mem_append, List.mem_cons] at hc
    rcases hc with hc | rfl | hc | rfl | hc
    · exact Or.inl (hyear.digits c hc)
    · exact Or.inr (Or.inl rfl)
    · exact Or.inl (hmonth.digits c hc)
    · exact Or.inr (Or.inl rfl)
    · rcases hchars c hc with hc | hc
      · exact Or.inl hc
      · exact Or.inr (Or.inr hc)

/-- A mark that stands neither in a token nor among the blanks does not
stand in the token with white space around it. -/
theorem notMem_of_spaced {s : Text} {c : Char} (h : Spaced s t) (hs : c ∉ s)
    (hblank : isBlank c = false) : c ∉ t := by
  obtain ⟨a, b, ha, hb, rfl⟩ := h
  have hnot {x : Text} (hx : ∀ c ∈ x, isBlank c = true) : c ∉ x := by
    intro hc
    rw [hx c hc] at hblank
    cases hblank
  simp only [List.mem_append, not_or]
  exact ⟨⟨hnot ha, hs⟩, hnot hb⟩

-- ========================================================== elements

/-- A numeral that is not too long is read. -/
theorem numeral_eq_ok (h : DigitRun t n) (hshort : ShortRuns t) :
    numeral t = .ok n := by
  have hlength := hshort t (List.infix_refl t) h.digits
  have hmax : Text.maxDigits = 4300 := rfl
  unfold numeral
  rw [if_neg (by omega), h.value]

/-- Brackets are found where the grammar has them. -/
theorem bracketed_eq_ok {r : Option Text} (h : Bracketed element r)
    (form : Expected) : bracketed element form = .ok r := by
  cases h with
  | bare hopen hclose =>
      unfold bracketed
      split
      case h_1 => exact absurd rfl hopen
      case h_2 => rw [if_neg (by simpa using hclose)]
  | @inside inner h hopen hclose =>
      subst h
      have hcut : Text.cut ']' (inner ++ [']']) = (inner, some []) :=
        Text.cut_eq_some_iff.mpr ⟨rfl, hclose⟩
      have htrim : Text.trim [] = [] := rfl
      unfold bracketed
      simp only [List.cons_append]
      rw [hcut]
      simp only
      rw [htrim, if_neg (by simp), if_neg (by simpa using hopen)]

/-- The ends of a range of numbers are found. -/
theorem numberEnds?_eq_some {lo hi : Nat} {delimiter : Char}
    (hlo : DigitRun l lo) (hhi : DigitRun u hi) (hlower : Spaced l lower)
    (hupper : Spaced u upper) (hdelimiter : delimiter = '-' ∨ delimiter = ':') :
    numberEnds? (lower ++ delimiter :: upper) = some (l, u) := by
  obtain ⟨a, b, ha, hb, rfl⟩ := hlower
  obtain ⟨a', b', ha', hb', rfl⟩ := hupper
  have hdelimiter_digit : isDigit delimiter = false := by
    rcases hdelimiter with rfl | rfl <;> decide
  have hdelimiter_blank : isBlank delimiter = false := by
    rcases hdelimiter with rfl | rfl <;> decide
  -- what is left after trimming begins and ends with a digit
  have htrim : Text.trim ((a ++ l ++ b) ++ delimiter :: (a' ++ u ++ b'))
      = l ++ (b ++ delimiter :: (a' ++ u)) := by
    refine Text.strip_eq ⟨a, b', ha, hb', by simp⟩ ⟨by simp, fun c hc => ?_,
      fun c hc => ?_⟩
    · rw [List.head?_append_of_ne_nil _ hlo.inhabited] at hc
      exact hlo.plain.firm.first c hc
    · rw [List.getLast?_append_of_ne_nil _ (by simp),
        List.getLast?_append_of_ne_nil _ (by simp), List.getLast?_cons,
        List.getLast?_append_of_ne_nil _ hhi.inhabited] at hc
      refine hhi.plain.firm.last c ?_
      rw [List.getLast?_eq_some_getLast hhi.inhabited] at hc ⊢
      exact hc
  have hdigits := Text.takeWhile_dropWhile_append (p := isDigit)
    (b := b ++ delimiter :: (a' ++ u)) hlo.digits (by
      intro c hc
      cases b with
      | nil =>
          cases hc
          exact hdelimiter_digit
      | cons x b =>
          cases hc
          rw [← Bool.not_eq_true]
          intro hdigit
          have hblank := Text.isBlank_of_isDigit hdigit
          rw [hb _ (List.mem_cons_self ..)] at hblank
          cases hblank)
  have hblanks := Text.takeWhile_dropWhile_append (p := isBlank)
    (b := delimiter :: (a' ++ u)) hb (by
      intro c hc
      cases hc
      exact hdelimiter_blank)
  have hblanks' := Text.takeWhile_dropWhile_append (p := isBlank) (b := u) ha'
    hhi.plain.firm.first
  unfold numberEnds?
  simp only
  rw [htrim, hdigits.1, hdigits.2, hblanks.2]
  simp only
  rw [hblanks'.2, if_pos]
  rw [Bool.and_eq_true, Bool.or_eq_true, decide_eq_true_eq, decide_eq_true_eq,
    List.all_eq_true]
  exact ⟨hdelimiter, hhi.digits⟩

/-- What can be read of a member alone. -/
theorem bracketed_bare (h : Plain element) : Bracketed element none := by
  have hopen : '[' ∉ element := h.notMem (by decide) (by decide) (by decide)
  refine .bare (fun hhead => hopen (List.mem_of_mem_head? hhead)) ?_
  exact h.notMem (by decide) (by decide) (by decide)

/-- What can be read of a range. -/
theorem bracketed_range {delimiter : Char} (hl : Plain l) (hu : Plain u)
    (hlower : Spaced l lower) (hupper : Spaced u upper)
    (hdelimiter : delimiter = '-' ∨ delimiter = ':') :
    Bracketed ('[' :: (lower ++ delimiter :: upper) ++ [']'])
      (some (lower ++ delimiter :: upper)) := by
  have hnot {c : Char} (hdigit : isDigit c = false) (hblank : isBlank c = false)
      (hhyphen : c ≠ '-') (hspace : c ≠ ' ') (hcolon : c ≠ ':') :
      c ∉ lower ++ delimiter :: upper := by
    have hl := notMem_of_spaced hlower (hl.notMem hdigit hhyphen hspace) hblank
    have hu := notMem_of_spaced hupper (hu.notMem hdigit hhyphen hspace) hblank
    simp only [List.mem_append, List.mem_cons, not_or]
    refine ⟨hl, ?_, hu⟩
    rcases hdelimiter with rfl | rfl
    · exact hhyphen
    · exact hcolon
  refine .inside rfl ?_ ?_
  · exact hnot (by decide) (by decide) (by decide) (by decide) (by decide)
  · exact hnot (by decide) (by decide) (by decide) (by decide) (by decide)

/-- A number or a range of numbers of the grammar is read. -/
theorem numberElement_eq_ok {e : Element Nat} (h : NumberText element e)
    (hshort : ShortRuns element) : numberElement element = .ok e := by
  cases h with
  | single h =>
      unfold numberElement
      rw [bracketed_eq_ok (bracketed_bare h.plain)]
      simp only [bind, Except.bind]
      rw [if_neg, numeral_eq_ok h hshort]
      · rfl
      · have hne := h.inhabited
        have hdigits := h.digits
        simp only [Bool.or_eq_true, Bool.not_eq_true', List.isEmpty_iff, not_or,
          Bool.not_eq_false, List.all_eq_true]
        exact ⟨hne, hdigits⟩
  | @range lower upper l u lo hi delimiter e hlo hhi hlower hupper hdelimiter
      hends =>
      obtain ⟨hlpart, hupart⟩ :=
        infix_of_bracketed lower upper rfl rfl
      have hlread := numeral_eq_ok hlo (hshort.of_infix (hlower.part.trans hlpart))
      have huread := numeral_eq_ok hhi (hshort.of_infix (hupper.part.trans hupart))
      unfold numberElement
      rw [bracketed_eq_ok (bracketed_range hlo.plain hhi.plain hlower hupper
        hdelimiter)]
      simp only [bind, Except.bind]
      rw [numberEnds?_eq_some hlo hhi hlower hupper hdelimiter]
      simp only
      rw [if_neg (by simpa using hlo.inhabited),
        if_neg (by simpa using hhi.inhabited), hlread, huread]
      simp only
      cases hends with
      | same => rw [if_neg (by omega), if_pos rfl]; rfl
      | below hlt =>
          have hlt := of_decide_eq_true hlt
          rw [if_neg (by omega), if_neg (by omega)]
          rfl

/-- The ends of a range of days are found. -/
theorem dateEnds?_eq_some (hl : Plain l) (hu : Plain u)
    (hlower : Spaced l lower) (hupper : Spaced u upper) :
    dateEnds? (lower ++ ':' :: upper) = some (l, u) := by
  have hcolon {s t : Text} (hs : Plain s) (h : Spaced s t) : ':' ∉ t :=
    notMem_of_spaced h (hs.notMem (by decide) (by decide) (by decide)) (by decide)
  unfold dateEnds?
  rw [Text.splitOn_append (hcolon hl hlower),
    Text.splitOn_of_notMem (hcolon hu hupper)]
  simp only
  rw [Text.trim, Text.trim, Text.strip_eq hlower hl.firm,
    Text.strip_eq hupper hu.firm]

/-- A day within an element is read. -/
theorem dayIn_eq_ok {date : Date} (h : DayText t date) :
    dayIn element t = .ok date := by
  unfold dayIn
  rw [day?_eq_some_iff.mpr h]

/-- A day or a range of days of the grammar is read. -/
theorem dateElement_eq_ok {e : Element Date} (h : DateText element e) :
    dateElement element = .ok e := by
  cases h with
  | single h =>
      unfold dateElement
      rw [bracketed_eq_ok (bracketed_bare h.plain)]
      simp only [bind, Except.bind]
      rw [dayIn_eq_ok h]
      rfl
  | @range lower upper l u lo hi delimiter e hlo hhi hlower hupper hdelimiter
      hends =>
      subst hdelimiter
      unfold dateElement
      rw [bracketed_eq_ok (bracketed_range hlo.plain hhi.plain hlower hupper
        (Or.inr rfl))]
      simp only [bind, Except.bind]
      rw [dateEnds?_eq_some hlo.plain hhi.plain hlower hupper]
      simp only
      rw [if_neg (by simpa using hlo.plain.firm.inhabited),
        if_neg (by simpa using hhi.plain.firm.inhabited), dayIn_eq_ok hlo,
        dayIn_eq_ok hhi]
      simp only
      cases hends with
      | same =>
          rw [Ordered.strict_date.irrefl, if_neg (by simp), if_pos rfl]
          rfl
      | below hlt =>
          have hne : lo ≠ hi := by
            rintro rfl
            rw [Ordered.strict_date.irrefl] at hlt
            cases hlt
          rw [Ordered.strict_date.asymm hlt, if_neg (by simp), if_neg hne]
          rfl

-- ============================================================ bodies

/-- An element that can stand in a set: firm, and without the marks of a
set. -/
structure Tame (t : Text) : Prop where
  firm : Firm isBlank t
  opening : '{' ∉ t
  closing : '}' ∉ t
  comma : ',' ∉ t

/-- An element of members is firm and without the marks of a set. -/
theorem ElementText.tame {member : Text → α → Prop} {delimits : Char → Prop}
    {lt : α → α → Bool} {e : Element α}
    (hmember : ∀ {t x}, member t x → Plain t)
    (hdelimits : ∀ {c}, delimits c → c = '-' ∨ c = ':')
    (h : ElementText member delimits lt element e) : Tame element := by
  cases h with
  | single h =>
      have hplain := hmember h
      exact ⟨hplain.firm, hplain.notMem (by decide) (by decide) (by decide),
        hplain.notMem (by decide) (by decide) (by decide),
        hplain.notMem (by decide) (by decide) (by decide)⟩
  | @range lower upper l u lo hi delimiter e hlo hhi hlower hupper hdelimiter
      hends =>
      have hnot {c : Char} (hdigit : isDigit c = false) (hblank : isBlank c = false)
          (hc : c ∉ "-: []".toList) :
          c ∉ '[' :: (lower ++ delimiter :: upper) ++ [']'] := by
        simp only [String.reduceToList, List.mem_cons, List.not_mem_nil, or_false,
          not_or] at hc
        obtain ⟨hhyphen, hcolon, hspace, hopen, hclose⟩ := hc
        have hl := notMem_of_spaced hlower
          ((hmember hlo).notMem hdigit hhyphen hspace) hblank
        have hu := notMem_of_spaced hupper
          ((hmember hhi).notMem hdigit hhyphen hspace) hblank
        have hd : c ≠ delimiter := by
          rcases hdelimits hdelimiter with rfl | rfl
          · exact hhyphen
          · exact hcolon
        simp only [List.mem_append, List.mem_cons, List.not_mem_nil, or_false,
          not_or]
        exact ⟨⟨hopen, hl, hd, hu⟩, hclose⟩
      refine ⟨⟨by simp, fun c hc => ?_, fun c hc => ?_⟩, ?_, ?_, ?_⟩
      · cases hc
        decide
      · rw [List.getLast?_append_of_ne_nil _ (by simp)] at hc
        cases hc
        decide
      · exact hnot (by decide) (by decide) (by decide)
      · exact hnot (by decide) (by decide) (by decide)
      · exact hnot (by decide) (by decide) (by decide)

/-- A phrase in a set is firm and without the marks of a set. -/
theorem SetPhrase.tame {phrase : Text} (h : SetPhrase t phrase) : Tame t := by
  cases h with
  | intro hfirm hopen hclose hcomma => exact ⟨hfirm, hopen, hclose, hcomma⟩

/-- The elements of a list are its pieces. -/
theorem splitOn_of_listed {R : Text → α → Prop} {inner : Text} {xs : List α}
    (htame : ∀ {t x}, R t x → Tame t) (h : Listed R inner xs) :
    List.Forall₂ R ((Text.splitOn ',' inner).map Text.trim) xs
      ∧ (∀ p ∈ Text.splitOn ',' inner, Firm isBlank (Text.trim p))
      ∧ '{' ∉ inner ∧ '}' ∉ inner := by
  have hpiece {s t : Text} {x : α} (hs : R s x) (hspaced : Spaced s t) :
      Text.trim t = s ∧ ',' ∉ t ∧ '{' ∉ t ∧ '}' ∉ t := by
    have hs := htame hs
    exact ⟨Text.strip_eq hspaced hs.firm,
      notMem_of_spaced hspaced hs.comma (by decide),
      notMem_of_spaced hspaced hs.opening (by decide),
      notMem_of_spaced hspaced hs.closing (by decide)⟩
  induction h with
  | last hs hspaced =>
      obtain ⟨htrim, hcomma, hopen, hclose⟩ := hpiece hs hspaced
      rw [Text.splitOn_of_notMem hcomma, List.map_singleton, htrim]
      refine ⟨.cons hs .nil, fun p hp => ?_, hopen, hclose⟩
      rw [List.mem_singleton.mp hp, htrim]
      exact (htame hs).firm
  | more hs hspaced hrest ih =>
      obtain ⟨htrim, hcomma, hopen, hclose⟩ := hpiece hs hspaced
      obtain ⟨hall, hfirm, hopen', hclose'⟩ := ih
      rw [Text.splitOn_append hcomma, List.map_cons, htrim]
      refine ⟨.cons hs hall, fun p hp => ?_, ?_, ?_⟩
      · rcases List.mem_cons.mp hp with rfl | hp
        · rw [htrim]
          exact (htame hs).firm
        · exact hfirm p hp
      · simp only [List.mem_append, List.mem_cons, not_or]
        exact ⟨hopen, by decide, hopen'⟩
      · simp only [List.mem_append, List.mem_cons, not_or]
        exact ⟨hclose, by decide, hclose'⟩

/-- The elements of a body of the grammar stand in it. -/
theorem parts_of_body {lone R : Text → α → Prop} {xs : List α}
    (hlone : ∀ {t x}, lone t x →
      Firm isBlank t ∧ t.head? ≠ some '{' ∧ t.getLast? ≠ some '}')
    (htame : ∀ {t x}, R t x → Tame t) (h : Body lone R t xs) :
    ∃ parts, Parts t parts
      ∧ List.Forall₂ (fun p x => lone p x ∨ R p x) parts xs := by
  cases h with
  | one h =>
      obtain ⟨hfirm, hopen, hclose⟩ := hlone h
      exact ⟨[t], .one hfirm hopen hclose, .cons (Or.inl h) .nil⟩
  | set h =>
      obtain ⟨hall, hfirm, hopen, hclose⟩ := splitOn_of_listed htame h
      exact ⟨_, .set hopen hclose hfirm, hall.imp fun _ _ h => Or.inr h⟩

/-- A tame text can stand alone. -/
theorem Tame.lone (h : Tame t) :
    Firm isBlank t ∧ t.head? ≠ some '{' ∧ t.getLast? ≠ some '}' :=
  ⟨h.firm, fun hc => h.opening (List.mem_of_mem_head? hc),
    fun hc => h.closing (List.mem_of_getLast? hc)⟩

/-- A set of no elements has no firm piece. -/
private theorem trim_ne_nil {inner : Text}
    (hfirm : ∀ p ∈ Text.splitOn ',' inner, Firm isBlank (Text.trim p)) :
    Text.trim inner ≠ [] := by
  intro hnil
  have hblank := Text.strip_eq_nil_iff.mp hnil
  have hcomma : ',' ∉ inner := by
    intro hc
    have := hblank _ hc
    revert this
    decide
  rw [Text.splitOn_of_notMem hcomma] at hfirm
  exact (hfirm inner (List.mem_singleton_self _)).inhabited hnil

/-- The elements of a body are found. -/
theorem elementsOf_eq_ok {kind : Kind} {parts : List Text} (h : Parts t parts)
    (htrim : Text.trim body = t) : elementsOf kind body = .ok parts := by
  cases h with
  | one hfirm hopen hclose =>
      unfold elementsOf
      rw [htrim]
      split
      case h_1 => exact absurd rfl hfirm.inhabited
      case h_2 => exact absurd rfl hopen
      case h_3 =>
        rw [if_neg]
        intro hends
        exact hclose (Text.endsWith_singleton.mp hends)
  | @set inner hopen hclose hfirm =>
      have hcut : Text.cut '}' (inner ++ ['}']) = (inner, some []) :=
        Text.cut_eq_some_iff.mpr ⟨rfl, hclose⟩
      have hnil : Text.trim [] = [] := rfl
      have hempty : ¬ ((Text.splitOn ',' inner).map Text.trim).any List.isEmpty
          = true := by
        rw [List.any_map, List.any_eq_true]
        rintro ⟨p, hp, hp'⟩
        exact (hfirm p hp).inhabited (List.isEmpty_iff.mp hp')
      unfold elementsOf
      rw [htrim]
      simp only [List.cons_append]
      rw [hcut]
      simp only
      rw [hnil, if_neg (by simp), if_neg (by simpa using hopen),
        if_neg (by simpa using trim_ne_nil hfirm), if_neg hempty]

/-- A list is read if each of its members is. -/
theorem mapM_eq_ok {β : Type} {f : β → Except Refusal α} {xs : List β}
    {ys : List α} (h : List.Forall₂ (fun x y => f x = .ok y) xs ys) :
    xs.mapM f = .ok ys := by
  induction h with
  | nil => rfl
  | cons hx hrest ih =>
      rw [List.mapM_cons, hx, ih]
      rfl

/-- What has elements in it is left by trimming. -/
theorem Parts.trim_eq {parts : List Text} (h : Parts t parts)
    (hbody : Spaced t body) : Text.trim body = t := by
  refine Text.strip_eq hbody ?_
  cases h with
  | one hfirm hopen hclose => exact hfirm
  | set hopen hclose hfirm =>
      refine ⟨by simp, fun c hc => ?_, fun c hc => ?_⟩
      · cases hc
        decide
      · rw [List.getLast?_append_of_ne_nil _ (by simp)] at hc
        cases hc
        decide

/-- The elements of a body of the grammar are read. -/
theorem elements_eq_ok {R : Text → α → Prop} {f : Text → Except Refusal α}
    (kind : Kind) {rest : Text} {xs : List α}
    (htame : ∀ {t x}, R t x → Tame t)
    (hf : ∀ {p x}, p <:+: t → R p x → f p = .ok x) (h : Body R R t xs)
    (hbody : Spaced t body) (hrest : Text.trim rest = Text.trim body) :
    ∃ parts, elementsOf kind rest = .ok parts ∧ parts.mapM f = .ok xs := by
  obtain ⟨parts, hparts, hall⟩ := parts_of_body (fun h => (htame h).lone) htame h
  have htrim := hrest.trans (hparts.trim_eq hbody)
  refine ⟨parts, elementsOf_eq_ok hparts htrim, mapM_eq_ok ?_⟩
  rw [List.forall₂_iff_get] at hall ⊢
  refine ⟨hall.1, fun i hi hi' => ?_⟩
  have hpart := (hparts.of_mem (List.get_mem parts ⟨i, hi⟩)).2
  rcases hall.2 i hi hi' with h | h
  · exact hf hpart h
  · exact hf hpart h

/-- The phrases of a body of the grammar are its elements. -/
theorem phrases_eq_ok {kind : Kind} {rest : Text} {phrases : List Text}
    (h : Body LonePhrase SetPhrase t phrases) (hbody : Spaced t body)
    (hrest : Text.trim rest = Text.trim body) :
    elementsOf kind rest = .ok phrases := by
  have hlone {t x : Text} (h : LonePhrase t x) :
      Firm isBlank t ∧ t.head? ≠ some '{' ∧ t.getLast? ≠ some '}' := by
    cases h with
    | intro hfirm hopen hclose => exact ⟨hfirm, hopen, hclose⟩
  obtain ⟨parts, hparts, hall⟩ := parts_of_body hlone (fun h => h.tame) h
  have hsame : List.Forall₂ Eq parts phrases := by
    refine hall.imp fun p x h => ?_
    rcases h with h | h
    · cases h
      rfl
    · cases h
      rfl
  rw [List.forall₂_eq_eq_eq] at hsame
  rw [← hsame]
  exact elementsOf_eq_ok hparts (hrest.trans (hparts.trim_eq hbody))

-- =========================================================== queries

/-- A query with a colon is cut at it; trimming makes no difference to what
is on its two sides. -/
theorem cut_trim {kind : Text} (hkind : ':' ∉ kind) (body : Text) :
    ∃ start rest, Text.cut ':' (Text.trim (kind ++ ':' :: body)) = (start, some rest)
      ∧ Text.trim start = Text.trim kind ∧ Text.trim rest = Text.trim body := by
  obtain ⟨a, b, ha, hb, hq⟩ := Text.padded_strip isBlank (kind ++ ':' :: body)
  change _ = a ++ Text.trim (kind ++ ':' :: body) ++ b at hq
  have hcolon {s : Text} (hs : ∀ c ∈ s, isBlank c = true) : ':' ∉ s := by
    intro hc
    have := hs _ hc
    revert this
    decide
  rcases Text.mark_cases ':' (Text.trim (kind ++ ':' :: body)) with
    hnot | ⟨start, rest, htrim, hstart⟩
  · -- the colon is no blank, so it is still there
    have hmem : ':' ∈ kind ++ ':' :: body := by simp
    rw [hq] at hmem
    simp only [List.mem_append] at hmem
    rcases hmem with (hc | hc) | hc
    · exact absurd hc (hcolon ha)
    · exact absurd hc hnot
    · exact absurd hc (hcolon hb)
  · have hcut := Text.cut_eq_some_iff.mpr ⟨htrim, hstart⟩
    have hboth : Text.cut ':' (kind ++ ':' :: body) = (a ++ start, some (rest ++ b)) := by
      refine Text.cut_eq_some_iff.mpr ⟨?_, ?_⟩
      · calc kind ++ ':' :: body
            = a ++ Text.trim (kind ++ ':' :: body) ++ b := hq
          _ = _ := by
            rw [htrim]
            simp only [List.append_assoc, List.cons_append]
      · rw [List.mem_append, not_or]
        exact ⟨hcolon ha, hstart⟩
    rw [Text.cut_eq_some_iff.mpr ⟨rfl, hkind⟩] at hboth
    simp only [Prod.mk.injEq, Option.some.injEq] at hboth
    obtain ⟨rfl, rfl⟩ := hboth
    have hstart' : Padded isBlank start (a ++ start) := ⟨a, [], ha, by simp, by simp⟩
    have hrest' : Padded isBlank rest (rest ++ b) := ⟨[], b, by simp, hb, by simp⟩
    exact ⟨start, rest, hcut, hstart'.strip_eq.symm, hrest'.strip_eq.symm⟩

/-- A word of letters is firm, and no colon stands in it. -/
theorem kind_name_firm (kind : Kind) :
    Firm isBlank kind.name ∧ ':' ∉ kind.name := by
  cases kind <;>
    exact ⟨⟨by decide, fun c hc => by cases hc; rfl, fun c hc => by cases hc; rfl⟩,
      by decide⟩

/-- A word is recognized as the kind that it names. -/
theorem read_word {q : Text} (kind : Kind) (h : Spaced kind.name q) :
    (Text.trim q).isEmpty = false ∧ Text.cut ':' (Text.trim q) = (kind.name, none)
      ∧ Kind.ofName? (Text.trim kind.name) = some kind := by
  obtain ⟨hfirm, hcolon⟩ := kind_name_firm kind
  have htrim : Text.trim q = kind.name := Text.strip_eq h hfirm
  have hkind : Text.trim kind.name = kind.name := hfirm.strip
  rw [htrim, hkind]
  refine ⟨?_, Text.cut_eq_none_iff.mpr ⟨rfl, hcolon⟩,
    Kind.ofName?_eq_some_iff.mpr rfl⟩
  rw [← Bool.not_eq_true, List.isEmpty_iff]
  exact hfirm.inhabited

/-- What is read behind the colon of a clause; `text` is the whole query. -/
def behindColon (text rest : Text) : Kind → Except Refusal Predicate
  | .notexists => refuse text .bareNotexists
  | .latest => latestClause text (some rest)
  | .number => do
      let elements ← elementsOf .number rest
      (fun es => .number (numberSet es)) <$> elements.mapM numberElement
  | .date => do
      let elements ← elementsOf .date rest
      (fun es => .date (dateSet es)) <$> elements.mapM dateElement
  | .title => do
      let elements ← elementsOf .title rest
      return .title (keywordSet elements)
  | .description => do
      let elements ← elementsOf .description rest
      return .description (keywordSet elements)

/-- A word in front of a colon decides what is read behind it. Trimming the
query may have taken white space from the end of the body. -/
theorem read_colon {start : Text} (kind : Kind) (h : Spaced kind.name start)
    (body : Text) :
    ∃ rest, Text.trim rest = Text.trim body
      ∧ read (start ++ ':' :: body)
        = behindColon (Text.trim (start ++ ':' :: body)) rest kind := by
  obtain ⟨hfirm, hcolon⟩ := kind_name_firm kind
  obtain ⟨word, rest, hcut, hword, hrest⟩ :=
    cut_trim (notMem_of_spaced h hcolon (by decide)) body
  have hne : (Text.trim (start ++ ':' :: body)).isEmpty = false := by
    rw [(Text.cut_eq_some_iff.mp hcut).1, ← Bool.not_eq_true, List.isEmpty_iff]
    simp
  have hkind : Kind.ofName? (Text.trim word) = some kind := by
    rw [hword, Kind.ofName?_eq_some_iff]
    exact Text.strip_eq h hfirm
  refine ⟨rest, hrest, ?_⟩
  unfold read
  simp only
  rw [hne, hcut]
  simp only
  rw [hkind]
  cases kind <;> rfl

/-- A query of the grammar is read as the predicate that it stands for. -/
theorem read_eq_ok {q : Text} {c : Clause} {p : Predicate} (h : Derives q c)
    (hmeans : Means c p) (hshort : ShortRuns q) : read q = .ok p := by
  cases h with
  | all h =>
      have htrim : Text.trim q = [] := by
        obtain ⟨a, b, ha, hb, rfl⟩ := h
        refine Text.strip_eq_nil_iff.mpr fun c hc => ?_
        rw [List.append_nil, List.mem_append] at hc
        rcases hc with hc | hc
        · exact ha c hc
        · exact hb c hc
      cases hmeans
      unfold read
      simp only
      rw [htrim]
      rfl
  | notexists h =>
      obtain ⟨hne, hcut, hkind⟩ := read_word .notexists h
      cases hmeans
      unfold read
      simp only
      rw [hne, hcut]
      simp only
      rw [hkind]
      rfl
  | latest h =>
      obtain ⟨hne, hcut, hkind⟩ := read_word .latest h
      cases hmeans
      unfold read
      simp only
      rw [hne, hcut]
      simp only
      rw [hkind]
      rfl
  | @latestOf start count digits n hstart hcount hdigits hpos =>
      obtain ⟨rest, hrest, hread⟩ := read_colon .latest hstart count
      have hpart : digits <:+: start ++ ':' :: count :=
        hcount.part.trans ⟨start ++ [':'], [], by simp⟩
      have htrim : Text.trim rest = digits :=
        hrest.trans (Text.strip_eq hcount hdigits.plain.firm)
      have hinhabited := hdigits.inhabited
      cases hmeans
      rw [hread, behindColon, latestClause, htrim,
        if_neg (by simpa using hinhabited), if_neg (by simpa using hdigits.digits),
        numeral_eq_ok hdigits (hshort.of_infix hpart)]
      simp only [bind, Except.bind]
      rw [if_neg (by omega)]
      rfl
  | @number start body t es hstart hbody h =>
      obtain ⟨rest, hrest, hread⟩ := read_colon .number hstart body
      have hpart : t <:+: start ++ ':' :: body :=
        hbody.part.trans ⟨start ++ [':'], [], by simp⟩
      obtain ⟨parts, helements, hmap⟩ := elements_eq_ok .number
        (fun h => h.tame (fun h => h.plain) id)
        (fun hp h => numberElement_eq_ok h (hshort.of_infix (hp.trans hpart)))
        h hbody hrest
      cases hmeans with
      | number hset =>
          rw [hread, behindColon, helements]
          simp only [bind, Except.bind]
          rw [hmap, ← (numberSet_eq_iff h.proper).mpr hset]
          rfl
  | date hstart hbody h =>
      obtain ⟨rest, hrest, hread⟩ := read_colon .date hstart _
      obtain ⟨parts, helements, hmap⟩ := elements_eq_ok .date
        (fun h => h.tame (fun h => h.plain) Or.inr)
        (fun _ h => dateElement_eq_ok h) h hbody hrest
      cases hmeans with
      | date hset =>
          rw [hread, behindColon, helements]
          simp only [bind, Except.bind]
          rw [hmap, ← dateSet_eq_iff.mpr hset]
          rfl
  | title hstart hbody h =>
      obtain ⟨rest, hrest, hread⟩ := read_colon .title hstart _
      cases hmeans with
      | title horder hmem =>
          rw [hread, behindColon, phrases_eq_ok h hbody hrest,
            ← keywordSet_eq_iff.mpr ⟨horder, hmem⟩]
          rfl
  | description hstart hbody h =>
      obtain ⟨rest, hrest, hread⟩ := read_colon .description hstart _
      cases hmeans with
      | description horder hmem =>
          rw [hread, behindColon, phrases_eq_ok h hbody hrest,
            ← keywordSet_eq_iff.mpr ⟨horder, hmem⟩]
          rfl

-- ========================================================= exactness

/-- Every clause that is derived stands for a predicate. -/
theorem exists_means {q : Text} {c : Clause} (h : Derives q c) :
    ∃ p, Means c p := by
  cases h with
  | all => exact ⟨_, .all⟩
  | notexists => exact ⟨_, .notexists⟩
  | latest => exact ⟨_, .latest⟩
  | latestOf => exact ⟨_, .latest⟩
  | number hstart hbody h => exact ⟨_, .number (lists_numberSet h.proper)⟩
  | title => exact ⟨_, means_keywordSet.1⟩
  | description => exact ⟨_, means_keywordSet.2⟩
  | date => exact ⟨_, .date (dateSet_eq_iff.mp rfl)⟩

/-- A query without runs of digits that are too long is read if and only if
the grammar derives it, and then as the predicate that the derivation stands
for; any other is refused as malformed. -/
theorem read_iff_derives (q : Text) (hshort : ShortRuns q) :
    (∀ p, read q = .ok p ↔ ∃ c, Derives q c ∧ Means c p)
      ∧ ((∃ p, read q = .ok p) ↔ ∃ c, Derives q c)
      ∧ ((¬ ∃ c, Derives q c) → ∃ m, read q = .error (.malformed m)) := by
  have hread (p : Predicate) :
      read q = .ok p ↔ ∃ c, Derives q c ∧ Means c p := by
    constructor
    · intro h
      have hjudged := judged_read q
      rw [h] at hjudged
      cases hjudged with
      | read hsaid => exact hsaid
    · rintro ⟨c, hc, hmeans⟩
      exact read_eq_ok hc hmeans hshort
  have haccept : (∃ p, read q = .ok p) ↔ ∃ c, Derives q c := by
    constructor
    · rintro ⟨p, hp⟩
      obtain ⟨c, hc, -⟩ := (hread p).mp hp
      exact ⟨c, hc⟩
    · rintro ⟨c, hc⟩
      obtain ⟨p, hmeans⟩ := exists_means hc
      exact ⟨p, (hread p).mpr ⟨c, hc, hmeans⟩⟩
  refine ⟨hread, haccept, fun hnot => ?_⟩
  have hjudged := judged_read q
  generalize hresult : read q = result at hjudged
  cases hjudged with
  | read _ => exact absurd (haccept.mp ⟨_, hresult⟩) hnot
  | fragment _ => exact ⟨_, rfl⟩
  | absent _ => exact ⟨_, rfl⟩
  | tooLong hrun hdigits hlong =>
      have := hshort _ hrun hdigits
      omega

/-- A set of numbers with white space around its tokens is derived and means
what it is read as; a set with an empty element is not derived. -/
theorem read_iff_derives_sets :
    (ShortRuns " number :\x7b 9,[1 - 3] , [4:6]\x7d "
      ∧ ∃ c, Derives " number :\x7b 9,[1 - 3] , [4:6]\x7d " c
        ∧ Means c (.number ⟨[⟨1, 6⟩], [9]⟩))
      ∧ ShortRuns "number:\x7b1,,2\x7d" ∧ ¬ ∃ c, Derives "number:\x7b1,,2\x7d" c := by
  have hset : ShortRuns " number :\x7b 9,[1 - 3] , [4:6]\x7d " :=
    shortRuns_of_length (by decide)
  have hempty : ShortRuns "number:\x7b1,,2\x7d" := shortRuns_of_length (by decide)
  refine ⟨⟨hset, ((read_iff_derives _ hset).1 _).mp rfl⟩, hempty, fun hc => ?_⟩
  obtain ⟨p, hp⟩ := (read_iff_derives _ hempty).2.1.mpr hc
  have hrefused : read "number:\x7b1,,2\x7d"
      = refuse "\x7b1,,2\x7d" .elements := rfl
  rw [hrefused] at hp
  cases hp

end FeedSieve.Query
