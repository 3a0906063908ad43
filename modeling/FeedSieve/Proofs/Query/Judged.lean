/-
What reading a query can give.

Each function of the reader either reads something or refuses, and a
refusal is one of two: a fragment that cannot be read, or a numeral with
too many digits. `Judged lacks t P` says all of it at once about a result of
reading the text `t`: what is read satisfies `P`; a fragment that is
reported stands in `t`, except where a body is missing (`lacks`) and the kind
is reported with its colon; and a numeral that is too long stands in `t`.

There is one lemma for each function, and the result of one is carried
into the next by `Judged.bind`, so no proof looks into the function below
it. Only the bodies of clauses can be missing, so the lemmas about elements
hold whatever it is to lack a body. What is read is stated in the words of
the grammar, which makes `judged_read` the soundness of the reader.
-/
import FeedSieve.Proofs.Query.Grammar

namespace FeedSieve.Query

open Calendar (Date)
open Text (Firm Padded isBlank isDigit)

variable {α β : Type} {t u element body : Text} {P : α → Prop} {Q : β → Prop}
  {lacks : Kind → Prop}

-- ========================================================= judgements

/-- What is read from `t` satisfies `P`, and what is refused stands in `t`:
a fragment, or a run of digits that is too long. Only where a body is
missing the fragment is not what stands there, but the name of the clause
with its colon. -/
inductive Judged (lacks : Kind → Prop) (t : Text) (P : α → Prop) : Except Refusal α → Prop where
  | read {a : α} (h : P a) : Judged lacks t P (.ok a)
  | fragment {m : Malformed} (h : m.fragment <:+: t) :
      Judged lacks t P (.error (.malformed m))
  | absent (kind : Kind) (h : lacks kind) :
      Judged lacks t P (.error (.malformed ⟨kind.name ++ [':'], .value kind⟩))
  | tooLong {run : Text} (h : run <:+: t) (hdigits : ∀ c ∈ run, isDigit c = true)
      (hlong : 4300 < run.length) : Judged lacks t P (.error (.tooLong run.length))

/-- One reading after another. -/
theorem Judged.bind {x : Except Refusal α} {f : α → Except Refusal β}
    (hx : Judged lacks t P x) (hf : ∀ a, P a → Judged lacks t Q (f a)) :
    Judged lacks t Q (x >>= f) := by
  cases hx with
  | read h => exact hf _ h
  | fragment h => exact .fragment h
  | absent kind h => exact .absent kind h
  | tooLong h hdigits hlong => exact .tooLong h hdigits hlong

/-- What is read is turned into something else. -/
theorem Judged.map {x : Except Refusal α} {f : α → β}
    (hx : Judged lacks t P x) (hf : ∀ a, P a → Q (f a)) : Judged lacks t Q (f <$> x) := by
  cases hx with
  | read h => exact .read (hf _ h)
  | fragment h => exact .fragment h
  | absent kind h => exact .absent kind h
  | tooLong h hdigits hlong => exact .tooLong h hdigits hlong

/-- What stands in a part stands in the whole. -/
theorem Judged.within {x : Except Refusal α} (hx : Judged lacks t P x)
    (hpart : t <:+: u) : Judged lacks u P x := by
  cases hx with
  | read h => exact .read h
  | fragment h => exact .fragment (h.trans hpart)
  | absent kind h => exact .absent kind h
  | tooLong h hdigits hlong => exact .tooLong (h.trans hpart) hdigits hlong

/-- What it is to lack a body may be said in other words. -/
theorem Judged.lacking {x : Except Refusal α} {lacks' : Kind → Prop} (hx : Judged lacks t P x)
    (hlacks : ∀ kind, lacks kind → lacks' kind) : Judged lacks' t P x := by
  cases hx with
  | read h => exact .read h
  | fragment h => exact .fragment h
  | absent kind h => exact .absent kind (hlacks kind h)
  | tooLong h hdigits hlong => exact .tooLong h hdigits hlong

/-- Refusing a fragment. -/
theorem judged_refuse {fragment : Text} {expected : Expected}
    (h : fragment <:+: t) : Judged lacks t P (refuse fragment expected) :=
  .fragment h

/-- Reading a list, one after the other. -/
theorem judged_mapM {f : β → Except Refusal α} {R : β → α → Prop} {xs : List β}
    (h : ∀ x ∈ xs, Judged lacks t (R x) (f x)) :
    Judged lacks t (List.Forall₂ R xs) (xs.mapM f) := by
  induction xs with
  | nil => exact .read List.Forall₂.nil
  | cons x xs ih =>
      rw [List.mapM_cons]
      refine (h x (List.mem_cons_self ..)).bind fun a ha => ?_
      refine (ih fun y hy => h y (List.mem_cons_of_mem _ hy)).bind fun as has => ?_
      exact .read (List.Forall₂.cons ha has)

/-- A numeral is read or it is too long. -/
theorem judged_numeral {digits : Text} (hne : digits ≠ [])
    (hdigits : ∀ c ∈ digits, isDigit c = true) (hpart : digits <:+: t) :
    Judged lacks t (DigitRun digits) (numeral digits) := by
  unfold numeral
  split
  case isTrue hlong => exact .tooLong hpart hdigits hlong
  case isFalse => exact .read ⟨hne, hdigits, rfl⟩

-- =========================================================== brackets

/-- An element without brackets, or what stands between those around it. -/
inductive Bracketed (element : Text) : Option Text → Prop where
  | bare (hopen : element.head? ≠ some '[') (hclose : ']' ∉ element) :
      Bracketed element none
  | inside {inner : Text} (h : element = '[' :: inner ++ [']'])
      (hopen : '[' ∉ inner) (hclose : ']' ∉ inner) :
      Bracketed element (some inner)

/-- What follows the closing mark of a firm text is nothing, or more than
white space. -/
theorem after_eq_nil_or {a after : Text} {c : Char}
    (hfirm : Firm isBlank (a ++ c :: after)) (h : Text.trim after = []) :
    after = [] := by
  by_contra hne
  have hblank := Text.strip_eq_nil_iff.mp h
  obtain ⟨d, hd⟩ : ∃ d, after.getLast? = some d :=
    ⟨after.getLast hne, List.getLast?_eq_some_getLast hne⟩
  have hlast := hfirm.last d (by
    rw [List.getLast?_append, List.getLast?_cons, hd]
    rfl)
  rw [hblank d (List.mem_of_getLast? hd)] at hlast
  cases hlast

/-- Brackets are read off an element. -/
theorem judged_bracketed (hfirm : Firm isBlank element) (form : Expected) :
    Judged lacks element (Bracketed element) (bracketed element form) := by
  unfold bracketed
  split
  case h_1 rest =>
    split
    case h_1 => exact judged_refuse (List.infix_refl _)
    case h_2 inner after hcut =>
      obtain ⟨hrest, hclose⟩ := Text.cut_eq_some_iff.mp hcut
      subst hrest
      split
      case isTrue =>
        refine judged_refuse ((Text.padded_strip _ after).part.trans ?_)
        exact ⟨'[' :: (inner ++ [']']), [], by simp⟩
      case isFalse htrailing =>
        have hafter : after = [] := after_eq_nil_or (a := '[' :: inner) (c := ']')
          (by simpa using hfirm) (by simpa using htrailing)
        split
        case isTrue => exact judged_refuse (List.infix_refl _)
        case isFalse hopen =>
          refine .read (.inside ?_ (by simpa using hopen) hclose)
          rw [hafter]
          simp
  case h_2 helement =>
    split
    case isTrue => exact judged_refuse (List.infix_refl _)
    case isFalse hclose =>
      refine .read (.bare ?_ (by simpa using hclose))
      intro hhead
      cases element with
      | nil => cases hhead
      | cons c rest =>
          cases hhead
          exact helement rest rfl

-- ============================================================ numbers

/-- The ends of a range of numbers are digits on both sides of a delimiter,
with white space around them. -/
theorem numberEnds?_spaced {inner l u : Text}
    (h : numberEnds? inner = some (l, u)) :
    ∃ lower upper delimiter, inner = lower ++ delimiter :: upper
      ∧ (delimiter = '-' ∨ delimiter = ':')
      ∧ Spaced l lower ∧ Spaced u upper
      ∧ (∀ c ∈ l, isDigit c = true) ∧ ∀ c ∈ u, isDigit c = true := by
  obtain ⟨a, b, ha, hb, hinner⟩ := Text.padded_strip isBlank inner
  unfold numberEnds? at h
  simp only at h
  split at h
  case h_2 => cases h
  case h_1 delimiter rest hrest =>
    split at h
    case isFalse => cases h
    case isTrue hcond =>
      simp only [Option.some.injEq, Prod.mk.injEq] at h
      obtain ⟨rfl, rfl⟩ := h
      rw [Bool.and_eq_true, Bool.or_eq_true, decide_eq_true_eq, decide_eq_true_eq]
        at hcond
      -- the trimmed text is digits, blanks, the delimiter, blanks, digits
      have hdigits := List.takeWhile_append_dropWhile (p := isDigit)
        (l := Text.trim inner)
      have hblanks := List.takeWhile_append_dropWhile (p := isBlank)
        (l := (Text.trim inner).dropWhile isDigit)
      have hblanks' := List.takeWhile_append_dropWhile (p := isBlank) (l := rest)
      rw [hrest] at hblanks
      refine ⟨a ++ (Text.trim inner).takeWhile isDigit
          ++ ((Text.trim inner).dropWhile isDigit).takeWhile isBlank,
        rest.takeWhile isBlank ++ rest.dropWhile isBlank ++ b, delimiter,
        ?_, hcond.1, ⟨_, _, ha, fun c hc => ?_, rfl⟩,
        ⟨_, _, fun c hc => ?_, hb, rfl⟩, fun c hc => ?_,
        List.all_eq_true.mp hcond.2⟩
      · calc inner = a ++ Text.trim inner ++ b := hinner
          _ = a ++ ((Text.trim inner).takeWhile isDigit
                ++ (((Text.trim inner).dropWhile isDigit).takeWhile isBlank
                  ++ delimiter :: rest)) ++ b := by rw [hblanks, hdigits]
          _ = _ := by
              rw [hblanks']
              simp only [List.append_assoc, List.cons_append]
      · exact List.all_eq_true.mp List.all_takeWhile c hc
      · exact List.all_eq_true.mp List.all_takeWhile c hc
      · exact List.all_eq_true.mp List.all_takeWhile c hc

/-- A part of what stands between brackets is a part of the element. -/
theorem infix_of_bracketed {inner : Text} (lower upper : Text) {delimiter : Char}
    (helement : element = '[' :: inner ++ [']'])
    (hinner : inner = lower ++ delimiter :: upper) :
    lower <:+: element ∧ upper <:+: element := by
  subst hinner
  subst helement
  constructor
  · exact ⟨['['], delimiter :: (upper ++ [']']), by simp⟩
  · exact ⟨'[' :: (lower ++ [delimiter]), [']'], by simp⟩

/-- A number or a range of numbers is read. -/
theorem judged_numberElement (hfirm : Firm isBlank element) :
    Judged lacks element (NumberText element) (numberElement element) := by
  unfold numberElement
  refine (judged_bracketed hfirm _).bind fun r hr => ?_
  cases hr with
  | bare hopen hclose =>
      simp only
      split
      case isTrue => exact judged_refuse (List.infix_refl _)
      case isFalse hcond =>
        simp only [Bool.or_eq_true, Bool.not_eq_true', not_or,
          Bool.not_eq_false, List.all_eq_true] at hcond
        exact (judged_numeral hfirm.inhabited hcond.2 (List.infix_refl _)).map
          fun n hn => .single hn
  | @inside inner helement hopen hclose =>
      simp only
      split
      case h_1 => exact judged_refuse (List.infix_refl _)
      case h_2 l u hends =>
        obtain ⟨lower, upper, delimiter, hinner, hdelimiter, hl, hu, hldigits,
          hudigits⟩ := numberEnds?_spaced hends
        obtain ⟨hlpart, hupart⟩ := infix_of_bracketed _ _ helement hinner
        split
        case isTrue => exact judged_refuse (List.infix_refl _)
        case isFalse hlne =>
          split
          case isTrue => exact judged_refuse (List.infix_refl _)
          case isFalse hune =>
            rw [List.isEmpty_iff] at hlne hune
            refine (judged_numeral hlne hldigits
              (hl.part.trans hlpart)).bind fun lo hlo => ?_
            refine (judged_numeral hune hudigits
              (hu.part.trans hupart)).bind fun hi hhi => ?_
            have hread {e : Element Nat}
                (he : Ends (fun a b => decide (a < b)) lo hi e) :
                NumberText element e := by
              rw [helement, hinner]
              exact .range hlo hhi hl hu hdelimiter he
            split
            case isTrue => exact judged_refuse (List.infix_refl _)
            case isFalse hle =>
              split
              case isTrue heq =>
                subst heq
                exact .read (hread .same)
              case isFalse hne =>
                exact .read (hread (.below (decide_eq_true (by omega))))

-- =============================================================== days

/-- The day of the month is read as the grammar has it. -/
theorem dayOfMonth?_eq_some_iff {n : Nat} :
    dayOfMonth? t = some n ↔ DayOfMonth t n := by
  constructor
  · intro h
    unfold dayOfMonth? at h
    split at h
    case h_1 c =>
      split at h
      case isTrue hplain => exact .plain hplain h
      case isFalse => cases h
    case h_2 c d =>
      split at h
      case isTrue hc =>
        subst hc
        exact .spaced h
      case isFalse hc =>
        split at h
        case isTrue hdigits =>
          rw [Bool.and_eq_true] at hdigits
          refine .two ⟨by simp, ?_, Option.some.inj h⟩
          intro e he
          rcases List.mem_cons.mp he with rfl | he
          · exact hdigits.1
          · rw [List.mem_singleton.mp he]
            exact hdigits.2
        case isFalse => cases h
    case h_3 => cases h
  · intro h
    cases h with
    | plain hplain h =>
        rw [dayOfMonth?, if_pos hplain]
        exact h
    | spaced h =>
        rw [dayOfMonth?, if_pos rfl]
        exact h
    | @two c d n h =>
        have hc : isDigit c = true := h.digits c (by simp)
        have hd : isDigit d = true := h.digits d (by simp)
        have hspace : c ≠ ' ' := by
          rintro rfl
          exact absurd hc (by decide)
        rw [dayOfMonth?, if_neg hspace, hc, hd]
        exact congrArg some h.value

/-- The hyphen is no digit. -/
private theorem hyphen_notMem_of_digits {t : Text}
    (h : ∀ c ∈ t, isDigit c = true) : '-' ∉ t :=
  fun hmem => absurd (h _ hmem) (by decide)

/-- No hyphen stands in the day of the month. -/
private theorem hyphen_notMem_dayOfMonth {n : Nat} (h : DayOfMonth t n) :
    '-' ∉ t := by
  cases h with
  | plain hplain h =>
      rw [List.mem_singleton]
      rintro rfl
      exact absurd hplain (by decide)
  | spaced h =>
      rw [List.mem_cons, List.mem_singleton, not_or]
      refine ⟨by decide, ?_⟩
      rintro rfl
      have hnone : Text.digit? '-' = none := by decide
      rw [hnone] at h
      cases h
  | two h => exact hyphen_notMem_of_digits h.digits

/-- A day is read as the grammar has it. -/
theorem day?_eq_some_iff {d : Date} : day? t = some d ↔ DayText t d := by
  constructor
  · intro h
    unfold day? at h
    split at h
    case h_2 => cases h
    case h_1 y m dom hsplit =>
      have ht := Text.joinWith_splitOn '-' t
      rw [hsplit] at ht
      split at h
      case isFalse => cases h
      case isTrue hcond =>
        simp only [Bool.and_eq_true, decide_eq_true_eq, List.all_eq_true] at hcond
        obtain ⟨⟨⟨⟨⟨hy, hy4⟩, hydigits⟩, hm⟩, hm2⟩, hmdigits⟩ := hcond
        obtain ⟨n, hn, hdate⟩ := Option.bind_eq_some_iff.mp h
        rw [← ht]
        simp only [Text.joinWith, List.append_assoc, List.singleton_append]
        exact .intro ⟨List.ne_nil_of_length_pos hy, hydigits, rfl⟩ hy4
          ⟨List.ne_nil_of_length_pos hm, hmdigits, rfl⟩ hm2
          (dayOfMonth?_eq_some_iff.mp hn) hdate
  · intro h
    obtain ⟨hyear, hy4, hmonth, hm2, hday, hdate⟩ := h
    unfold day?
    rw [Text.splitOn_append (hyphen_notMem_of_digits hyear.digits),
      Text.splitOn_append (hyphen_notMem_of_digits hmonth.digits),
      Text.splitOn_of_notMem (hyphen_notMem_dayOfMonth hday)]
    simp only
    rw [if_pos, dayOfMonth?_eq_some_iff.mpr hday, hyear.value, hmonth.value]
    · exact hdate
    · simp only [Bool.and_eq_true, decide_eq_true_eq, List.all_eq_true]
      exact ⟨⟨⟨⟨⟨List.length_pos_iff.mpr hyear.inhabited, hy4⟩, hyear.digits⟩,
        List.length_pos_iff.mpr hmonth.inhabited⟩, hm2⟩, hmonth.digits⟩

/-- The ends of a range of days stand on both sides of a colon. -/
theorem dateEnds?_spaced {inner l u : Text} (h : dateEnds? inner = some (l, u)) :
    ∃ lower upper, inner = lower ++ ':' :: upper
      ∧ Spaced l lower ∧ Spaced u upper := by
  unfold dateEnds? at h
  split at h
  case h_2 => cases h
  case h_1 lower upper hsplit =>
    cases h
    have hinner := Text.joinWith_splitOn ':' inner
    rw [hsplit] at hinner
    refine ⟨lower, upper, ?_, Text.padded_strip _ _, Text.padded_strip _ _⟩
    rw [← hinner]
    simp [Text.joinWith]

/-- A day within an element is read. -/
theorem judged_dayIn (element t : Text) :
    Judged lacks element (DayText t) (dayIn element t) := by
  unfold dayIn
  split
  case h_1 d hd => exact .read (day?_eq_some_iff.mp hd)
  case h_2 => exact judged_refuse (List.infix_refl _)

/-- A day or a range of days is read. -/
theorem judged_dateElement (hfirm : Firm isBlank element) :
    Judged lacks element (DateText element) (dateElement element) := by
  unfold dateElement
  refine (judged_bracketed hfirm _).bind fun r hr => ?_
  cases hr with
  | bare hopen hclose => exact (judged_dayIn element element).map fun d hd => .single hd
  | @inside inner helement hopen hclose =>
      simp only
      split
      case h_1 => exact judged_refuse (List.infix_refl _)
      case h_2 l u hends =>
        obtain ⟨lower, upper, hinner, hl, hu⟩ := dateEnds?_spaced hends
        split
        case isTrue => exact judged_refuse (List.infix_refl _)
        case isFalse =>
          split
          case isTrue => exact judged_refuse (List.infix_refl _)
          case isFalse =>
            refine (judged_dayIn element l).bind fun lo hlo => ?_
            refine (judged_dayIn element u).bind fun hi hhi => ?_
            have hread {e : Element Date} (he : Ends Date.before lo hi e) :
                DateText element e := by
              rw [helement, hinner]
              exact .range hlo hhi hl hu rfl he
            split
            case isTrue => exact judged_refuse (List.infix_refl _)
            case isFalse hle =>
              split
              case isTrue heq =>
                subst heq
                exact .read (hread .same)
              case isFalse hne =>
                refine .read (hread (.below ?_))
                rw [Bool.not_eq_true] at hle
                by_contra hlt
                exact hne (Ordered.strict_date.same (by simpa using hlt) hle)

-- ============================================================= bodies

/-- The elements that stand in the body of a clause. -/
inductive Parts : Text → List Text → Prop where
  | one {t : Text} (hfirm : Firm isBlank t) (hopen : t.head? ≠ some '{')
      (hclose : t.getLast? ≠ some '}') : Parts t [t]
  | set {inner : Text} (hopen : '{' ∉ inner) (hclose : '}' ∉ inner)
      (hfirm : ∀ p ∈ Text.splitOn ',' inner, Firm isBlank (Text.trim p)) :
      Parts ('{' :: inner ++ ['}']) ((Text.splitOn ',' inner).map Text.trim)

/-- Every element is firm and a part of the body. -/
theorem Parts.of_mem {parts : List Text} {p : Text} (h : Parts t parts)
    (hp : p ∈ parts) : Firm isBlank p ∧ p <:+: t := by
  cases h with
  | one hfirm hopen hclose =>
      rw [List.mem_singleton.mp hp]
      exact ⟨hfirm, List.infix_refl _⟩
  | @set inner hopen hclose hfirm =>
      obtain ⟨piece, hpiece, rfl⟩ := List.mem_map.mp hp
      refine ⟨hfirm piece hpiece, ?_⟩
      have hinner : inner <:+: '{' :: inner ++ ['}'] := ⟨['{'], ['}'], rfl⟩
      exact (Text.padded_strip _ piece).part.trans
        ((Text.of_mem_splitOn hpiece).1.trans hinner)

/-- The elements of a body are read, unless there is nothing in it. -/
theorem judged_elementsOf (kind : Kind) (body : Text) :
    Judged (fun k => k = kind ∧ Text.trim body = []) body
      (fun parts => ∃ t, Spaced t body ∧ Parts t parts) (elementsOf kind body) := by
  have hspaced : Spaced (Text.trim body) body := Text.padded_strip _ body
  unfold elementsOf
  split
  case h_1 hempty => exact .absent kind ⟨rfl, hempty⟩
  case h_2 rest htrim =>
    rw [htrim] at hspaced
    have hpart := hspaced.part
    have hfirm : Firm isBlank ('{' :: rest) := by
      rw [← htrim]
      exact Text.firm_strip (by rw [← Text.trim, htrim]; simp)
    simp only
    split
    case h_1 => exact judged_refuse hpart
    case h_2 inner after hcut =>
      obtain ⟨hrest, hclose⟩ := Text.cut_eq_some_iff.mp hcut
      subst hrest
      split
      case isTrue =>
        refine judged_refuse ((Text.padded_strip _ after).part.trans
          (List.IsInfix.trans ?_ hpart))
        exact ⟨'{' :: (inner ++ ['}']), [], by simp⟩
      case isFalse htrailing =>
        have hafter : after = [] := after_eq_nil_or (a := '{' :: inner) (c := '}')
          (by simpa using hfirm) (by simpa using htrailing)
        subst hafter
        split
        case isTrue => exact judged_refuse hpart
        case isFalse hopen =>
          split
          case isTrue => exact judged_refuse hpart
          case isFalse =>
            split
            case isTrue => exact judged_refuse hpart
            case isFalse hempty =>
              refine .read ⟨_, hspaced, .set (by simpa using hopen) hclose ?_⟩
              intro p hp
              refine Text.firm_strip fun hnil => hempty ?_
              rw [List.any_map, List.any_eq_true]
              exact ⟨p, hp, by rw [Function.comp, Text.trim, hnil]; rfl⟩
  case h_3 hempty hopen =>
    have hfirm : Firm isBlank (Text.trim body) := Text.firm_strip hempty
    split
    case isTrue => exact judged_refuse hspaced.part
    case isFalse hclose =>
      refine .read ⟨_, hspaced, .one hfirm ?_ ?_⟩
      · intro hhead
        cases hbody : Text.trim body with
        | nil => exact hempty hbody
        | cons c rest =>
            rw [hbody] at hhead
            cases hhead
            exact hopen rest hbody
      · intro hlast
        exact hclose (Text.endsWith_singleton.mpr hlast)

/-- A list of pieces is a list of elements, if every piece is one. -/
theorem listed_of_splitOn {element : Text → α → Prop} {inner : Text} {xs : List α}
    (h : List.Forall₂ element ((Text.splitOn ',' inner).map Text.trim) xs) :
    Listed element inner xs := by
  induction inner using Text.pieces_induction ',' generalizing xs with
  | last t hnot =>
      rw [Text.splitOn_of_notMem hnot] at h
      cases h with
      | cons hx hrest =>
          cases hrest
          exact .last hx (Text.padded_strip _ _)
  | more a b hnot ih =>
      rw [Text.splitOn_append hnot] at h
      cases h with
      | cons hx hrest => exact .more hx (Text.padded_strip _ _) (ih hrest)

/-- A body whose elements are elements of the grammar is a body of it. -/
theorem body_of_parts {element : Text → α → Prop} {parts : List Text} {xs : List α}
    (hparts : Parts t parts) (h : List.Forall₂ element parts xs) :
    Body element element t xs := by
  cases hparts with
  | one hfirm hopen hclose =>
      cases h with
      | cons hx hrest =>
          cases hrest
          exact .one hx
  | set hopen hclose hfirm => exact .set (listed_of_splitOn h)

/-- The elements of a body are phrases. -/
theorem phrases_of_parts {parts : List Text} (hparts : Parts t parts) :
    Body LonePhrase SetPhrase t parts := by
  cases hparts with
  | one hfirm hopen hclose => exact .one (.intro hfirm hopen hclose)
  | @set inner hopen hclose hfirm =>
      refine .set (listed_of_splitOn (List.forall₂_same.mpr fun p hp => ?_))
      obtain ⟨piece, hpiece, rfl⟩ := List.mem_map.mp hp
      obtain ⟨hpart, hcomma⟩ := Text.of_mem_splitOn hpiece
      have hsub := (Text.padded_strip isBlank piece).part
      have hsub' := hsub.trans hpart
      exact .intro (hfirm piece hpiece) (fun h => hopen (hsub'.subset h))
        (fun h => hclose (hsub'.subset h)) (fun h => hcomma (hsub.subset h))

-- =========================================================== queries

/-- A word names a kind if it is its name. -/
theorem Kind.ofName?_eq_some_iff {word : Text} {kind : Kind} :
    Kind.ofName? word = some kind ↔ word = kind.name := by
  constructor
  · intro h
    have := List.find?_some h
    exact (beq_iff_eq.mp this).symm
  · rintro rfl
    cases kind <;> rfl

/-- A query that stands for the predicate. -/
def Said (q : Text) (p : Predicate) : Prop := ∃ c, Derives q c ∧ Means c p

/-- A query without a colon is its kind. -/
theorem spaced_of_cut_none {q start : Text}
    (h : Text.cut ':' (Text.trim q) = (start, none)) :
    Spaced (Text.trim start) q := by
  obtain ⟨rfl, -⟩ := Text.cut_eq_none_iff.mp h
  exact (Text.padded_strip _ _).trans (Text.padded_strip _ _)

/-- A query with a colon is its kind, the colon and what follows, which may
have more white space behind it than is left after trimming. -/
theorem spaced_of_cut_some {q start rest : Text}
    (h : Text.cut ':' (Text.trim q) = (start, some rest)) :
    ∃ kind body, q = kind ++ ':' :: body ∧ Spaced (Text.trim start) kind
      ∧ rest <:+: q ∧ ∀ s, Spaced s rest → Spaced s body := by
  obtain ⟨htrim, -⟩ := Text.cut_eq_some_iff.mp h
  obtain ⟨a, b, ha, hb, hq⟩ := Text.padded_strip isBlank q
  change q = a ++ Text.trim q ++ b at hq
  rw [htrim] at hq
  refine ⟨a ++ start, rest ++ b, ?_, (Text.padded_strip _ start).append_left ha,
    ?_, fun s hs => hs.append_right hb⟩
  · rw [hq]
    simp only [List.append_assoc, List.cons_append]
  · rw [hq]
    exact ⟨a ++ (start ++ [':']), b, by simp⟩

/-- The number of the most recent items is read. -/
theorem judged_latestClause {kind rest body : Text} (hkind : Spaced "latest" kind)
    (hrest : rest <:+: kind ++ ':' :: body)
    (hbody : ∀ s, Spaced s rest → Spaced s body) :
    Judged lacks (kind ++ ':' :: body) (Said (kind ++ ':' :: body))
      (latestClause (Text.trim (kind ++ ':' :: body)) (some rest)) := by
  have hcount : Spaced (Text.trim rest) rest := Text.padded_strip _ _
  have hpart := hcount.part.trans hrest
  unfold latestClause
  simp only
  split
  case isTrue => exact judged_refuse (Text.padded_strip _ _).part
  case isFalse hne =>
    split
    case isTrue => exact judged_refuse hpart
    case isFalse hdigits =>
      rw [List.isEmpty_iff] at hne
      simp only [Bool.not_eq_true', Bool.not_eq_false, List.all_eq_true] at hdigits
      refine (judged_numeral hne hdigits hpart).bind fun n hn => ?_
      split
      case isTrue => exact judged_refuse hpart
      case isFalse hpos =>
        exact .read ⟨_, .latestOf hkind (hbody _ hcount) hn (by omega), .latest⟩

/-- Elements are read one by one. -/
theorem judged_elements {f : Text → Except Refusal α} {element : Text → α → Prop}
    {parts : List Text} (hf : ∀ p, Firm isBlank p → Judged lacks p (element p) (f p))
    (hparts : Parts t parts) :
    Judged lacks t (fun xs => Body element element t xs) (parts.mapM f) := by
  have h : Judged lacks t (List.Forall₂ element parts) (parts.mapM f) :=
    judged_mapM fun p hp =>
      (hf p (hparts.of_mem hp).1).within (hparts.of_mem hp).2
  have hmap := h.map (f := id) fun xs hxs => body_of_parts hparts hxs
  rw [id_map] at hmap
  exact hmap

/-- Phrases stand for the set of them. -/
theorem means_keywordSet {phrases : List Text} :
    Means (.title phrases) (.title (keywordSet phrases))
      ∧ Means (.description phrases) (.description (keywordSet phrases)) := by
  obtain ⟨horder, hmem⟩ := keywordSet_eq_iff.mp (rfl : keywordSet phrases = _)
  exact ⟨.title horder hmem, .description horder hmem⟩

/-- A query of a kind that takes a body, with nothing behind its colon. -/
structure Bodiless (q : Text) (kind : Kind) : Prop where
  takes_body : kind ≠ .notexists ∧ kind ≠ .latest
  clause : ∃ start body, q = start ++ ':' :: body ∧ Spaced kind.name start
    ∧ ∀ c ∈ body, isBlank c = true

/-- Whatever a query is read as, it says that; whatever is refused stands in
it, unless the query has no body. -/
theorem judged_read (q : Text) : Judged (Bodiless q) q (Said q) (read q) := by
  have htrim : Text.trim q <:+: q := (Text.padded_strip _ _).part
  unfold read
  simp only
  split
  case isTrue hempty =>
    refine .read ⟨.all, .all ?_, .all⟩
    have hspaced : Spaced (Text.trim q) q := Text.padded_strip _ _
    rw [List.isEmpty_iff.mp hempty] at hspaced
    exact hspaced
  case isFalse =>
    cases hcut : Text.cut ':' (Text.trim q) with
    | mk start rest =>
        cases rest with
        | none =>
            have hspaced := spaced_of_cut_none hcut
            have hstart := hspaced.part
            simp only
            split
            case h_1 => exact judged_refuse hstart
            case h_2 hkind =>
              rw [Kind.ofName?_eq_some_iff.mp hkind] at hspaced
              exact .read ⟨_, .notexists hspaced, .notexists⟩
            case h_3 hkind =>
              rw [Kind.ofName?_eq_some_iff.mp hkind] at hspaced
              exact .read ⟨_, .latest hspaced, .latest⟩
            case h_4 => exact judged_refuse htrim
        | some rest =>
            obtain ⟨kind, body, rfl, hspaced, hrest, hbody⟩ := spaced_of_cut_some hcut
            simp only
            split
            case h_1 =>
              exact judged_refuse (hspaced.part.trans ⟨[], ':' :: body, rfl⟩)
            case h_2 => exact judged_refuse htrim
            case h_3 hkind =>
              rw [Kind.ofName?_eq_some_iff.mp hkind] at hspaced
              exact judged_latestClause hspaced hrest hbody
            case h_4 k hnotexists hlatest hkind =>
              rw [Kind.ofName?_eq_some_iff.mp hkind] at hspaced
              have hbare (k' : Kind) (h : k' = k ∧ Text.trim rest = []) :
                  Bodiless (kind ++ ':' :: body) k' := by
                obtain ⟨rfl, hempty⟩ := h
                have hblank : Spaced [] body := hbody [] (hempty ▸ Text.padded_strip _ rest)
                refine ⟨⟨hnotexists, hlatest⟩, kind, body, rfl, hspaced, ?_⟩
                exact Text.strip_eq_nil_iff.mp hblank.strip_eq
              refine (((judged_elementsOf k rest).within hrest).lacking hbare).bind
                fun parts hparts => ?_
              obtain ⟨t, ht, hparts⟩ := hparts
              have hpart : t <:+: kind ++ ':' :: body := ht.part.trans hrest
              cases k with
              | number =>
                  refine ((judged_elements (fun p hp => judged_numberElement hp)
                    hparts).within hpart).map fun es hes => ?_
                  exact ⟨_, .number hspaced (hbody t ht) hes,
                    .number (lists_numberSet hes.proper)⟩
              | date =>
                  refine ((judged_elements (fun p hp => judged_dateElement hp)
                    hparts).within hpart).map fun es hes => ?_
                  exact ⟨_, .date hspaced (hbody t ht) hes,
                    .date (dateSet_eq_iff.mp rfl)⟩
              | title =>
                  exact .read ⟨_, .title hspaced (hbody t ht)
                    (phrases_of_parts hparts), means_keywordSet.1⟩
              | description =>
                  exact .read ⟨_, .description hspaced (hbody t ht)
                    (phrases_of_parts hparts), means_keywordSet.2⟩
              | notexists => exact absurd rfl hnotexists
              | latest => exact absurd rfl hlatest

/-- What a query is read as it says. -/
theorem said_of_read {q : Text} {p : Predicate} (h : read q = .ok p) : Said q p := by
  have hjudged := judged_read q
  rw [h] at hjudged
  cases hjudged with
  | read hsaid => exact hsaid

end FeedSieve.Query
