/-
Queries for a single day.

A query for one day, without the marks of sets and ranges, is read if and only
if the day is spelled in the grammar's way (`DayText`), and it selects what was
published on that day and nothing else. Any other text there is reported as no
day.

The grammar's way is looser than the form that is shown to the user, which is
four digits, two and two, in that script and no other (`FullDay`). A day in
full is a day in the looser way of ten characters, all of them plain digits or
hyphens (`fullDay_iff`). So what is read without being a day in full is shorter
than ten characters, or has a blank or a digit of another script in it. A year
with fewer digits is a year of the first centuries (`year_of_two_digits`).
-/
import FeedSieve.Proofs.Calendar.Forms
import FeedSieve.Proofs.Query.Complete
import FeedSieve.Proofs.Query.Days

namespace FeedSieve.Query

open Calendar (Date Moment)
open Text (PlainDigits isBlank isPlainDigit)

variable {s t : Text} {d : Date}

-- ======================================================== days in full

/-- A day in full: four digits, two and two, with hyphens between them, that
spell the year, the month and the day of the month. -/
structure FullDay (t : Text) (d : Date) : Prop where
  spelled : ∃ y m e, t = y ++ '-' :: (m ++ '-' :: e)
    ∧ y.length = 4 ∧ m.length = 2 ∧ e.length = 2
    ∧ PlainDigits y ∧ PlainDigits m ∧ PlainDigits e
    ∧ Text.digitsValue y = d.year ∧ Text.digitsValue m = d.month ∧ Text.digitsValue e = d.day

/-- Digits of the usual script are a run of digits. -/
theorem digitRun_of_plain (hne : t ≠ []) (h : PlainDigits t) :
    DigitRun t (Text.digitsValue t) :=
  ⟨hne, fun c hc => Text.isDigit_of_isPlainDigit (h c hc), rfl⟩

/-- A run of digits among plain digits and hyphens consists of plain digits. -/
theorem DigitRun.plainDigits {n : Nat} (h : DigitRun t n)
    (hchars : ∀ c ∈ t, isPlainDigit c = true ∨ c = '-') : PlainDigits t := by
  intro c hc
  refine (hchars c hc).resolve_right ?_
  rintro rfl
  exact absurd (h.digits _ hc) (by decide)

theorem dayOfMonth_two (hlength : t.length = 2) {n : Nat} (h : DigitRun t n) : DayOfMonth t n := by
  obtain ⟨c, e, rfl⟩ := List.length_eq_two.mp hlength
  exact .two h

/-- The day of the month has two characters at most. -/
theorem DayOfMonth.length_le {n : Nat} (h : DayOfMonth t n) : t.length ≤ 2 := by
  cases h <;> simp

/-- A day of the month of two plain digits spells its number. -/
theorem DayOfMonth.digitRun {n : Nat} (h : DayOfMonth t n) (hlength : t.length = 2)
    (hchars : ∀ c ∈ t, isPlainDigit c = true ∨ c = '-') : DigitRun t n := by
  cases h with
  | plain hplain h => cases hlength
  | spaced h => exact absurd (hchars ' ' (by simp)) (by decide)
  | two h => exact h

/-- A day in full can be read as one. -/
theorem FullDay.dayText (h : FullDay t d) : DayText t d := by
  obtain ⟨y, m, e, rfl, hy, hm, he, hyplain, hmplain, heplain, hyear, hmonth, hday⟩ := h.spelled
  have hrun {u : Text} {n : Nat} (hpos : 0 < u.length) (hplain : PlainDigits u)
      (hvalue : Text.digitsValue u = n) : DigitRun u n :=
    hvalue ▸ digitRun_of_plain (List.ne_nil_of_length_pos hpos) hplain
  exact .intro (hrun (by omega) hyplain hyear) hy.le (hrun (by omega) hmplain hmonth) hm.le
    (dayOfMonth_two he (hrun (by omega) heplain hday)) (Date.ofParts?_parts d)

/-- The days in full are those of ten characters that are plain digits or
hyphens. -/
theorem fullDay_iff : FullDay t d
    ↔ DayText t d ∧ t.length = 10 ∧ ∀ c ∈ t, isPlainDigit c = true ∨ c = '-' := by
  constructor
  · intro h
    obtain ⟨y, m, e, rfl, hy, hm, he, hyplain, hmplain, heplain, -⟩ := id h.spelled
    refine ⟨h.dayText, by simp [hy, hm, he], fun c hc => ?_⟩
    simp only [List.mem_append, List.mem_cons] at hc
    rcases hc with hc | rfl | hc | rfl | hc
    · exact .inl (hyplain c hc)
    · exact .inr rfl
    · exact .inl (hmplain c hc)
    · exact .inr rfl
    · exact .inl (heplain c hc)
  · rintro ⟨hday, hlength, hchars⟩
    cases hday with
    | @intro y m e year month day date hyear hy hmonth hm hday hdate =>
        have he := hday.length_le
        simp only [List.length_append, List.length_cons] at hlength
        simp only [List.mem_append, List.mem_cons] at hchars
        have hrun := hday.digitRun (by omega) fun c hc => hchars c (by tauto)
        obtain ⟨rfl, rfl, rfl⟩ : d.year = year ∧ d.month = month ∧ d.day = day := by
          unfold Date.ofParts? at hdate
          split at hdate
          · obtain rfl := Option.some.inj hdate
            exact ⟨rfl, rfl, rfl⟩
          · cases hdate
        exact ⟨y, m, e, rfl, by omega, by omega, by omega,
          hyear.plainDigits fun c hc => hchars c (by tauto),
          hmonth.plainDigits fun c hc => hchars c (by tauto),
          hrun.plainDigits fun c hc => hchars c (by tauto), hyear.value, hmonth.value, hrun.value⟩

-- ============================================================= reading

/-- The marks of sets and ranges, and of what stands in front of a body. -/
def marks : Text := ['{', '}', '[', ']', ':']

/-- There are none of them in a text. -/
def MarksFree (t : Text) : Prop := ∀ c ∈ t, c ∉ marks

instance (t : Text) : Decidable (MarksFree t) := List.decidableBAll _ t

/-- Within an element a day is read where one is spelled. -/
theorem dayIn_eq_ok_iff {element : Text} : dayIn element t = .ok d ↔ DayText t d := by
  rw [← day?_eq_some_iff, dayIn]
  cases day? t with
  | none => exact ⟨fun h => (by cases h), fun h => (by cases h)⟩
  | some d' =>
      exact ⟨fun h => congrArg some (Except.ok.inj h), fun h => congrArg _ (Option.some.inj h)⟩

/-- Where none is spelled the element is reported. -/
theorem dayIn_of_not_dayText {element : Text} (h : ¬ ∃ d, DayText t d) :
    dayIn element t = refuse element .day := by
  have hday : day? t = none :=
    Option.eq_none_iff_forall_ne_some.mpr fun d hd => h ⟨d, day?_eq_some_iff.mp hd⟩
  rw [dayIn, hday]

/-- An element without brackets is read as a day. -/
theorem dateElement_bare (hopen : '[' ∉ t) (hclose : ']' ∉ t) :
    dateElement t = .single <$> dayIn t t := by
  have hbare : Bracketed t none := .bare (fun h => hopen (List.mem_of_mem_head? h)) hclose
  rw [dateElement, bracketed_eq_ok hbare]
  rfl

/-- A query for days with nothing behind the colon is refused. -/
theorem read_no_day (h : Text.trim s = []) :
    read ("date:".toList ++ s) = refuse "date:" (.value .date) := by
  obtain ⟨rest, hrest, hread⟩ := read_colon .date ⟨[], [], by simp, by simp, rfl⟩ s
  have hempty : Text.trim rest = [] := hrest.trans h
  change read ("date:".toList ++ s) = _ at hread
  rw [hread, behindColon, elementsOf, hempty]
  rfl

/-- Behind the colon a text without marks is read as a day. -/
theorem read_marksFree (hmarks : MarksFree s) (hne : Text.trim s ≠ []) :
    read ("date:".toList ++ s)
      = (fun d => .date ⟨[], [d]⟩) <$> dayIn (Text.trim s) (Text.trim s) := by
  have hfree (c : Char) (hc : c ∈ marks) : c ∉ Text.trim s := fun hmem =>
    hmarks c ((Text.padded_strip isBlank s).part.subset hmem) hc
  have hparts : Parts (Text.trim s) [Text.trim s] :=
    .one (Text.firm_strip hne) (fun h => hfree '{' (by decide) (List.mem_of_mem_head? h))
      (fun h => hfree '}' (by decide) (List.mem_of_getLast? h))
  obtain ⟨rest, hrest, hread⟩ := read_colon .date ⟨[], [], by simp, by simp, rfl⟩ s
  change read ("date:".toList ++ s) = _ at hread
  rw [hread, behindColon, elementsOf_eq_ok hparts hrest]
  simp only [bind, Except.bind, List.mapM_cons, List.mapM_nil]
  rw [dateElement_bare (hfree '[' (by decide)) (hfree ']' (by decide))]
  cases dayIn (Text.trim s) (Text.trim s) <;> rfl

/-- A set of one day contains that day alone. -/
theorem contains_lone {d' : Date} : (⟨[], [d]⟩ : DateSet).contains d' = true ↔ d' = d := by
  simp [DateSet.contains]

/-- A query for a text without marks, as a day. It is read if and only if the
text spells a day, which is the case of every day in full and, apart from these,
only of texts that are shorter or have other characters in them than plain
digits and hyphens. The set that is read contains this day alone, and what was
published on it by its own clock is selected. Any other text is reported. -/
theorem read_day_iff (s : Text) (hmarks : MarksFree s) :
    (∀ p, read ("date:".toList ++ s) = .ok p ↔ ∃ d, DayText (Text.trim s) d ∧ p = .date ⟨[], [d]⟩)
    ∧ (∀ d, FullDay (Text.trim s) d ↔ DayText (Text.trim s) d ∧ (Text.trim s).length = 10
        ∧ ∀ c ∈ Text.trim s, isPlainDigit c = true ∨ c = '-')
    ∧ (∀ d, (∀ d', (⟨[], [d]⟩ : DateSet).contains d' = true ↔ d' = d)
        ∧ ∀ names items, select names (.date ⟨[], [d]⟩) items
          = .ok (items.filter (publishedIn ⟨[], [d]⟩)))
    ∧ (∀ d item, publishedIn ⟨[], [d]⟩ item = true
        ↔ ∃ m, item.publishedAt = some m ∧ m.FallsOn d)
    ∧ ((¬ ∃ d, DayText (Text.trim s) d) → read ("date:".toList ++ s)
        = if Text.trim s = [] then refuse "date:" (.value .date)
          else refuse (Text.trim s) .day) := by
  refine ⟨fun p => ?_, fun d => fullDay_iff, fun d => ?_, fun d item => ?_, fun hnone => ?_⟩
  · by_cases hne : Text.trim s = []
    · rw [read_no_day hne, hne]
      refine ⟨fun h => (by cases h), ?_⟩
      rintro ⟨d, hd, -⟩
      exact absurd rfl hd.plain.firm.inhabited
    · rw [read_marksFree hmarks hne]
      simp only [← @dayIn_eq_ok_iff _ _ (Text.trim s)]
      cases dayIn (Text.trim s) (Text.trim s) with
      | ok d =>
          refine ⟨fun h => ⟨d, rfl, (Except.ok.inj h).symm⟩, ?_⟩
          rintro ⟨d', hd, rfl⟩
          obtain rfl := Except.ok.inj hd
          rfl
      | error why =>
          refine ⟨fun h => (by cases h), ?_⟩
          rintro ⟨d, hd, -⟩
          cases hd
  · refine ⟨fun d' => contains_lone, fun names items => ?_⟩
    exact (select_eq_ok_iff (by simp)).mpr ⟨by simp [Tellable], rfl⟩
  · unfold publishedIn
    cases item.publishedAt with
    | none => simp
    | some m => simp only [contains_lone, Option.some.injEq, exists_eq_left', Moment.fallsOn_iff]
  · split
    case isTrue hne => exact read_no_day hne
    case isFalse hne =>
      rw [read_marksFree hmarks hne, dayIn_of_not_dayText hnone]
      rfl

/-- The last day of a February is read from its day in full with white space
around it. The day after it is none. -/
theorem read_day_iff_february :
    (∃ d, FullDay "2024-02-29" d
      ∧ read ("date:".toList ++ " 2024-02-29 ".toList) = .ok (.date ⟨[], [d]⟩))
    ∧ read ("date:".toList ++ "2024-02-30".toList) = refuse "2024-02-30" .day := by
  have htrim : Text.trim " 2024-02-29 ".toList = "2024-02-29".toList := by decide
  have hfull : FullDay "2024-02-29" ⟨2024, 2, 29, by decide⟩ :=
    ⟨"2024", "02", "29", by decide, by decide, by decide, by decide, by decide, by decide,
      by decide, by decide, by decide, by decide⟩
  refine ⟨⟨_, hfull, ?_⟩, ?_⟩
  · refine ((read_day_iff _ (by decide)).1 _).mpr ⟨_, ?_, rfl⟩
    rw [htrim]
    exact hfull.dayText
  · have hnone : ¬ ∃ d, DayText (Text.trim "2024-02-30".toList) d := by
      rintro ⟨d, hd⟩
      have hrefused : day? (Text.trim "2024-02-30".toList) = none := by decide
      cases hrefused.symm.trans (day?_eq_some_iff.mpr hd)
    exact (read_day_iff _ (by decide)).2.2.2.2 hnone

/-- A day with a year of two digits is read, as one of the first century. It is
no day in full. -/
theorem year_of_two_digits :
    ∃ d : Date, d.year = 21 ∧ read "date:21-3-1" = .ok (.date ⟨[], [d]⟩)
      ∧ ¬ ∃ d, FullDay "21-3-1" d := by
  refine ⟨⟨21, 3, 1, by decide⟩, rfl, by decide +kernel, ?_⟩
  rintro ⟨d, hd⟩
  exact absurd (fullDay_iff.mp hd).2.1 (by decide)

end FeedSieve.Query
