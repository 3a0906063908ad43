/-
Standard forms have few words.

The readers of the standard forms take digits and a few marks, and no blank
is among these but the one that may stand between day and time. Each of them
leaves a rest behind something solid (`Leaves`), so a text in a standard form
has at most two words, and the reader of mail dates, which wants three, has
nothing to say about it (`MailDate.read_of_standard?`).
-/
import FeedSieve.Proofs.Calendar.Forms

namespace FeedSieve.Calendar

namespace Iso8601

variable {t rest : Text} {count value n year : Nat} {extended : Bool}

-- ============================================================ solid

/-- A character that is read in a standard form, the space apart. -/
def Solid (c : Char) : Prop := Text.isBlank c = false ∧ c ≠ '/'

instance (c : Char) : Decidable (Solid c) := inferInstanceAs (Decidable (_ ∧ _))

/-- What is left of a text when something solid is taken off its front. -/
def Leaves (t rest : Text) : Prop := ∃ a, t = a ++ rest ∧ ∀ c ∈ a, Solid c

theorem Leaves.refl (t : Text) : Leaves t t := ⟨[], rfl, fun _ hnone => by cases hnone⟩

theorem Leaves.cons {c : Char} (hc : Solid c) (h : Leaves t rest) : Leaves (c :: t) rest := by
  obtain ⟨a, rfl, ha⟩ := h
  exact ⟨c :: a, rfl, List.forall_mem_cons.mpr ⟨hc, ha⟩⟩

theorem Leaves.trans {mid : Text} (h : Leaves t mid) (h' : Leaves mid rest) : Leaves t rest := by
  obtain ⟨a, rfl, ha⟩ := h
  obtain ⟨b, rfl, hb⟩ := h'
  exact ⟨a ++ b, (List.append_assoc _ _ _).symm, List.forall_mem_append.mpr ⟨ha, hb⟩⟩

/-- A digit is solid. -/
theorem solid_of_isPlainDigit {c : Char} (h : Text.isPlainDigit c = true) : Solid c := by
  refine ⟨Text.isBlank_of_isPlainDigit h, ?_⟩
  rintro rfl
  exact absurd h (by decide)

/-- So digits are taken off the front. -/
theorem leaves_of_plain? (h : plain? count value t = some (n, rest)) : Leaves t rest := by
  induction count generalizing value t with
  | zero =>
      obtain ⟨-, rfl⟩ := Prod.mk.inj (Option.some.inj h)
      exact .refl t
  | succ count ih =>
      cases t with
      | nil => cases h
      | cons c t =>
          rw [plain?] at h
          obtain ⟨d, hdigit, hmore⟩ := Option.bind_eq_some_iff.mp h
          unfold Text.plainDigit? at hdigit
          split at hdigit
          · rename_i hc
            exact (ih hmore).cons (solid_of_isPlainDigit hc)
          · cases hdigit

/-- A number that makes a date is taken off the front, and nothing behind it. -/
theorem leaves_of_last {f : Nat → Option Date} {start : Start}
    (h : ((plain? count value t).bind fun p =>
      (f p.1).bind fun date => some ⟨date, extended, p.2⟩) = some start) :
    Leaves t start.rest := by
  obtain ⟨⟨last, afterLast⟩, hlast, h⟩ := Option.bind_eq_some_iff.mp h
  obtain ⟨date, -, h⟩ := Option.bind_eq_some_iff.mp h
  rw [← Option.some.inj h]
  exact leaves_of_plain? hlast

/-- Week and day are taken off the front. -/
theorem leaves_of_weekStart? {start : Start} (h : weekStart? year extended t = some start) :
    Leaves t start.rest := by
  unfold weekStart? at h
  obtain ⟨⟨week, afterWeek⟩, hweek, h⟩ := Option.bind_eq_some_iff.mp h
  refine (leaves_of_plain? hweek).trans ?_
  simp only at h
  split at h
  · obtain ⟨date, -, h⟩ := Option.bind_eq_some_iff.mp h
    rw [← Option.some.inj h]
    exact .refl _
  · split at h
    · exact (leaves_of_last (f := ofWeek? year week) h).cons (by decide)
    · cases h
    · exact leaves_of_last (f := ofWeek? year week) h

/-- So is a day. -/
theorem leaves_of_dateStart? {start : Start} (h : dateStart? t = some start) :
    Leaves t start.rest := by
  unfold dateStart? at h
  obtain ⟨⟨year, afterYear⟩, hyear, h⟩ := Option.bind_eq_some_iff.mp h
  refine (leaves_of_plain? hyear).trans ?_
  simp only at h
  split at h
  · obtain ⟨date, -, h⟩ := Option.bind_eq_some_iff.mp h
    rw [← Option.some.inj h]
    exact .refl _
  · exact ((leaves_of_weekStart? h).cons (by decide)).cons (by decide)
  · exact (leaves_of_weekStart? h).cons (by decide)
  · obtain ⟨⟨month, afterMonth⟩, hmonth, h⟩ := Option.bind_eq_some_iff.mp h
    refine ((leaves_of_plain? hmonth).cons (by decide)).trans ?_
    simp only at h
    split at h
    · exact (leaves_of_last (f := Date.ofParts? year month) h).cons (by decide)
    · split at h
      · obtain ⟨date, -, h⟩ := Option.bind_eq_some_iff.mp h
        rw [← Option.some.inj h]
        exact .refl _
      · exact leaves_of_last (f := fun last => ofOrdinal? year (month * 10 + last)) h
  · obtain ⟨⟨month, afterMonth⟩, hmonth, h⟩ := Option.bind_eq_some_iff.mp h
    obtain ⟨⟨tens, afterTens⟩, htens, h⟩ := Option.bind_eq_some_iff.mp h
    refine (leaves_of_plain? hmonth).trans ((leaves_of_plain? htens).trans ?_)
    simp only at h
    split at h
    · obtain ⟨date, -, h⟩ := Option.bind_eq_some_iff.mp h
      rw [← Option.some.inj h]
      exact .refl _
    · exact leaves_of_last (f := fun ones => Date.ofParts? year month (tens * 10 + ones)) h

/-- So is the fraction of a second. -/
theorem leaves_of_fraction? (h : fraction? t = some (n, rest)) : Leaves t rest := by
  unfold fraction? at h
  split at h
  · rename_i c after
    split at h
    · rename_i hmark
      simp only at h
      split at h
      · cases h
      · obtain ⟨-, rfl⟩ := Prod.mk.inj (Option.some.inj h)
        refine ⟨c :: after.takeWhile Text.isPlainDigit, ?_, List.forall_mem_cons.mpr ⟨?_, ?_⟩⟩
        · rw [List.cons_append, List.prefix_iff_eq_append.mp (List.takeWhile_prefix _)]
        · rw [Bool.or_eq_true, decide_eq_true_eq, decide_eq_true_eq] at hmark
          rcases hmark with rfl | rfl <;> decide
        · exact fun d hd => solid_of_isPlainDigit (List.mem_takeWhile_imp hd)
    · obtain ⟨-, rfl⟩ := Prod.mk.inj (Option.some.inj h)
      exact .refl _
  · obtain ⟨-, rfl⟩ := Prod.mk.inj (Option.some.inj h)
    exact .refl _

/-- And a time. -/
theorem leaves_of_clock? {clock : Clock} (h : clock? t = some clock) : Leaves t clock.rest := by
  unfold clock? at h
  obtain ⟨⟨hour, afterHour⟩, hhour, h⟩ := Option.bind_eq_some_iff.mp h
  refine (leaves_of_plain? hhour).trans ?_
  simp only at h
  split at h
  · obtain ⟨⟨minute, afterMinute⟩, hminute, h⟩ := Option.bind_eq_some_iff.mp h
    refine ((leaves_of_plain? hminute).cons (by decide)).trans ?_
    simp only at h
    split at h
    · obtain ⟨⟨second, afterSecond⟩, hsecond, h⟩ := Option.bind_eq_some_iff.mp h
      obtain ⟨⟨micro, afterMicro⟩, hmicro, h⟩ := Option.bind_eq_some_iff.mp h
      rw [← Option.some.inj h]
      exact ((leaves_of_plain? hsecond).cons (by decide)).trans (leaves_of_fraction? hmicro)
    · rw [← Option.some.inj h]
      exact .refl _
  · split at h
    · rw [← Option.some.inj h]
      exact .refl _
    · obtain ⟨⟨minute, afterMinute⟩, hminute, h⟩ := Option.bind_eq_some_iff.mp h
      refine (leaves_of_plain? hminute).trans ?_
      simp only at h
      split at h
      · rw [← Option.some.inj h]
        exact .refl _
      · obtain ⟨⟨second, afterSecond⟩, hsecond, h⟩ := Option.bind_eq_some_iff.mp h
        obtain ⟨⟨micro, afterMicro⟩, hmicro, h⟩ := Option.bind_eq_some_iff.mp h
        rw [← Option.some.inj h]
        exact (leaves_of_plain? hsecond).trans (leaves_of_fraction? hmicro)

/-- A zone is solid to its end. -/
theorem leaves_of_zone? {seconds : Int} (h : zone? t = some seconds) : Leaves t [] := by
  unfold zone? at h
  split at h
  · exact .refl _
  · exact (Leaves.refl _).cons (by decide)
  · rename_i c after _
    split at h
    · cases h
    · rename_i hsign
      have hsolid : Solid c := by
        simp only [Bool.and_eq_true, bne_iff_ne, ne_eq, not_and, not_not] at hsign
        by_cases hplus : c = '+'
        · rw [hplus]
          decide
        · rw [hsign hplus]
          decide
      obtain ⟨⟨hours, afterHours⟩, hhours, h⟩ := Option.bind_eq_some_iff.mp h
      refine ((leaves_of_plain? hhours).cons hsolid).trans ?_
      simp only at h
      -- a colon may stand between hours and minutes
      have hcolon : Leaves afterHours
          (if afterHours.head? = some ':' then afterHours.drop 1 else afterHours) := by
        split
        · rename_i hhead
          obtain ⟨rest, rfl⟩ := List.head?_eq_some_iff.mp hhead
          exact (Leaves.refl rest).cons (by decide)
        · exact .refl _
      refine hcolon.trans ?_
      generalize (if afterHours.head? = some ':' then afterHours.drop 1 else afterHours) = minutes
        at h ⊢
      split at h
      · exact .refl _
      · split at h
        · rename_i hminutes
          exact leaves_of_plain? hminutes
        · cases h

/-- A text in a standard form is solid but for one space or `T`. -/
theorem solid_of_standard? {m : Moment} (h : standard? t = some m) :
    ∃ day, (∀ c ∈ day, Solid c) ∧ (t = day ∨ ∃ c time, t = day ++ c :: time
      ∧ (c = 'T' ∨ c = ' ') ∧ ∀ c ∈ time, Solid c) := by
  unfold standard? at h
  obtain ⟨start, hstart, h⟩ := Option.bind_eq_some_iff.mp h
  obtain ⟨day, htext, hday⟩ := leaves_of_dateStart? hstart
  refine ⟨day, hday, ?_⟩
  rw [htext]
  split at h
  · rename_i hrest
    rw [hrest, List.append_nil]
    exact Or.inl rfl
  · rename_i c after hrest
    split at h
    · cases h
    · rename_i hmark
      obtain ⟨clock, hclock, h⟩ := Option.bind_eq_some_iff.mp h
      split at h
      · cases h
      · obtain ⟨offset, hzone, -⟩ := Option.bind_eq_some_iff.mp h
        obtain ⟨time, htime, hsolid⟩ := (leaves_of_clock? hclock).trans (leaves_of_zone? hzone)
        rw [List.append_nil] at htime
        refine Or.inr ⟨c, time, by rw [hrest, htime], ?_, hsolid⟩
        simp only [Bool.and_eq_true, bne_iff_ne, ne_eq, not_and, not_not] at hmark
        by_cases hc : c = 'T'
        · exact Or.inl hc
        · exact Or.inr (hmark hc)

/-- So there is no slash in it. -/
theorem slash_notMem_of_standard? {m : Moment} (h : standard? t = some m) : '/' ∉ t := by
  have hslash : ¬ Solid '/' := by decide
  obtain ⟨day, hday, rfl | ⟨c, time, rfl, hmark, htime⟩⟩ := solid_of_standard? h
  · exact fun hmem => hslash (hday _ hmem)
  · rw [List.mem_append, List.mem_cons]
    rintro (hmem | rfl | hmem)
    · exact hslash (hday _ hmem)
    · simp at hmark
    · exact hslash (htime _ hmem)

end Iso8601

/-- A text in a standard form is no mail date: it has two words at most. -/
theorem MailDate.read_of_standard? {t : Text} {m : Moment}
    (h : Iso8601.standard? t = some m) : MailDate.read t = .ok none := by
  apply read_of_few_words
  have hone {a : Text} (ha : ∀ c ∈ a, Iso8601.Solid c) : (Text.words a).length ≤ 1 := by
    by_cases hne : a = []
    · rw [hne]
      exact Nat.zero_le 1
    · rw [Text.words_of_visible hne fun c hc => (ha c hc).1]
      exact Nat.le_refl 1
  obtain ⟨day, hday, rfl | ⟨c, time, rfl, rfl | rfl, htime⟩⟩ := Iso8601.solid_of_standard? h
  · exact Nat.lt_of_le_of_lt (hone hday) (by decide)
  · have hall : ∀ c ∈ day ++ 'T' :: time, Iso8601.Solid c :=
      List.forall_mem_append.mpr ⟨hday, List.forall_mem_cons.mpr ⟨by decide, htime⟩⟩
    exact Nat.lt_of_le_of_lt (hone hall) (by decide)
  · by_cases hne : day = []
    · rw [hne, List.nil_append, Text.words_cons_blank (by decide)]
      exact Nat.lt_of_le_of_lt (hone htime) (by decide)
    · rw [Text.words_append hne (fun c hc => (hday c hc).1), List.length_cons]
      have := hone htime
      omega

end FeedSieve.Calendar
