/-
Days in the order of their numbers.

A year has the days of its months, and the years before it have as many days
as its number is ahead. So a day of an earlier month or of an earlier year
has a smaller number, and days come in the order of their numbers
(`Date.number_lt_iff`). That makes a span of days a span of numbers.

Which day a moment falls on is arithmetic as well: local time, counted in
microseconds, lies within the day with that number (`Moment.fallsOn_iff`).
The end of a month, of a year and the leap day need no care there, because
the count of days takes them in.
-/
import FeedSieve.Proofs.Calendar.First
import FeedSieve.Proofs.Ordered

namespace FeedSieve.Calendar

-- ============================================================== counts

/-- Whether a year is a leap year, by the numbers that divide it. -/
theorem isLeap_iff {year : Nat} : isLeap year = true ↔ 4 ∣ year ∧ (¬ 100 ∣ year ∨ 400 ∣ year) := by
  unfold isLeap
  simp only [Bool.and_eq_true, Bool.or_eq_true, beq_iff_eq, bne_iff_ne, Nat.dvd_iff_mod_eq_zero]

/-- The next year begins when a year is over. -/
theorem daysBeforeYear_succ {year : Nat} (h : 1 ≤ year) :
    daysBeforeYear (year + 1) = daysBeforeYear year + yearLength year := by
  obtain ⟨past, rfl⟩ := Nat.exists_eq_add_of_le' h
  -- centuries are counted out of the leap years, so they are among them
  have hcenturies : past / 100 ≤ past / 4 := Nat.div_le_div_left (by decide) (by decide)
  unfold daysBeforeYear yearLength
  simp only [Nat.add_sub_cancel, Nat.succ_div, isLeap_iff]
  by_cases h4 : 4 ∣ past + 1 <;> by_cases h100 : 100 ∣ past + 1 <;>
    by_cases h400 : 400 ∣ past + 1 <;> simp [h4, h100, h400] <;> omega

/-- The next month begins when a month is over. -/
theorem daysBeforeMonth_succ (year : Nat) {month : Nat} (h : 1 ≤ month) :
    daysBeforeMonth year (month + 1) = daysBeforeMonth year month + monthLength year month := by
  obtain ⟨past, rfl⟩ := Nat.exists_eq_add_of_le' h
  unfold daysBeforeMonth
  rw [Nat.add_sub_cancel, Nat.add_sub_cancel, List.range_succ, List.foldl_append]
  rfl

/-- A year is over when its twelve months are. -/
theorem daysBeforeMonth_thirteen (year : Nat) :
    daysBeforeMonth year 13 = yearLength year := by
  have hmonths : daysBeforeMonth year 13
      = 31 + monthLength year 2 + 31 + 30 + 31 + 30 + 31 + 31 + 30 + 31 + 30 + 31 := by
    unfold daysBeforeMonth
    simp [List.range, List.range.loop, monthLength]
  rw [hmonths, monthLength, yearLength]
  split <;> rfl

/-- No month is before an earlier one. -/
theorem daysBeforeMonth_mono (year : Nat) {m n : Nat} (hm : 1 ≤ m) (h : m ≤ n) :
    daysBeforeMonth year m ≤ daysBeforeMonth year n := by
  induction n, h using Nat.le_induction with
  | base => exact Nat.le_refl _
  | succ n hmn ih =>
      rw [daysBeforeMonth_succ year (hm.trans hmn)]
      exact ih.trans (Nat.le_add_right _ _)

/-- No year is before an earlier one. -/
theorem daysBeforeYear_mono {m n : Nat} (hm : 1 ≤ m) (h : m ≤ n) :
    daysBeforeYear m ≤ daysBeforeYear n := by
  induction n, h using Nat.le_induction with
  | base => exact Nat.le_refl _
  | succ n hmn ih =>
      rw [daysBeforeYear_succ (hm.trans hmn)]
      exact ih.trans (Nat.le_add_right _ _)

-- =============================================================== order

namespace Date

variable {a b d : Date}

/-- What it is to be a day of the calendar. -/
theorem bounds (d : Date) : 1 ≤ d.year ∧ 1 ≤ d.month ∧ d.month ≤ 12
    ∧ 1 ≤ d.day ∧ d.day ≤ monthLength d.year d.month := by
  have h := d.exists_day
  unfold names at h
  simp only [Bool.and_eq_true, decide_eq_true_eq] at h
  obtain ⟨⟨⟨hyear, -⟩, hday⟩, hlength⟩ := h
  have hmonth : 1 ≤ d.month ∧ d.month ≤ 12 := by
    by_contra hno
    -- there are no days in other months
    have hnone : monthLength d.year d.month = 0 := by
      unfold monthLength
      split <;> omega
    omega
  exact ⟨hyear, hmonth.1, hmonth.2, hday, hlength⟩

/-- A day is within its month. -/
theorem in_month (d : Date) :
    daysBeforeMonth d.year d.month + d.day ≤ daysBeforeMonth d.year (d.month + 1) := by
  obtain ⟨-, hmonth, -, -, hday⟩ := d.bounds
  rw [daysBeforeMonth_succ d.year hmonth]
  omega

/-- A day is within its year. -/
theorem in_year (d : Date) : d.number ≤ daysBeforeYear (d.year + 1) := by
  obtain ⟨hyear, -, hmonth, -, -⟩ := d.bounds
  have hwithin : daysBeforeMonth d.year d.month + d.day ≤ yearLength d.year := by
    rw [← daysBeforeMonth_thirteen]
    exact d.in_month.trans (daysBeforeMonth_mono _ (by omega) (by omega))
  rw [daysBeforeYear_succ hyear, number]
  omega

/-- What comes before a day has a smaller number. -/
theorem number_lt_of_before (h : a.before b = true) : a.number < b.number := by
  obtain ⟨hyear, hmonth, -, hday, -⟩ := b.bounds
  obtain ⟨hyear', hmonth', -, hday', -⟩ := a.bounds
  rcases Ordered.before_iff.mp h with hlt | ⟨heq, hlt | ⟨heq', hlt⟩⟩
  · -- the year of `a` is over when that of `b` begins
    have hover := a.in_year.trans (daysBeforeYear_mono (by omega) hlt)
    unfold number at hover ⊢
    omega
  · -- the month of `a` is over when that of `b` begins
    have hover := a.in_month.trans (daysBeforeMonth_mono a.year (by omega) hlt)
    unfold number
    rw [← heq]
    omega
  · unfold number
    rw [← heq, ← heq']
    omega

/-- Days come in the order of their numbers. -/
theorem number_lt_iff : a.number < b.number ↔ a.before b = true := by
  refine ⟨fun h => ?_, number_lt_of_before⟩
  by_contra hab
  cases hba : b.before a with
  | true =>
      have := number_lt_of_before hba
      omega
  | false =>
      have hsame : a = b := Ordered.strict_date.same (by simpa using hab) hba
      rw [hsame] at h
      omega

/-- A day is not after another if its number is not greater. -/
theorem upTo_iff : a.upTo b = true ↔ a.number ≤ b.number := by
  unfold upTo
  rw [Bool.not_eq_true', ← Bool.not_eq_true, ← number_lt_iff, Nat.not_lt]

/-- Each day has a number of its own. -/
theorem number_inj : a.number = b.number ↔ a = b := by
  refine ⟨fun h => ?_, fun h => h ▸ rfl⟩
  refine Ordered.strict_date.same ?_ ?_ <;>
  · rw [← Bool.not_eq_true, ← number_lt_iff]
    omega

end Date

-- ======================================================= local days

namespace Moment

/-- Local time lies within a day: not before its beginning and before that of
the next one. -/
def FallsOn (m : Moment) (d : Date) : Prop :=
  (d.number : Int) * dayMicros ≤ m.instant + m.ahead
    ∧ m.instant + m.ahead < ((d.number : Int) + 1) * dayMicros

/-- A moment falls on the day that it is written with. -/
theorem fallsOn_iff {m : Moment} {d : Date} : m.FallsOn d ↔ m.date = d := by
  have hlocal : m.instant + m.ahead = (m.date.number : Int) * dayMicros + m.micros := by
    unfold instant ahead
    omega
  have hmicros := m.in_day
  unfold FallsOn
  rw [hlocal, ← Date.number_inj]
  unfold dayMicros at hmicros ⊢
  omega

/-- There are moments of one instant that fall on a day and on the next. -/
theorem exists_across {d next : Date} (h : next.number = d.number + 1) :
    ∃ m m' : Moment, m.instant = m'.instant ∧ m.FallsOn d ∧ m'.FallsOn next := by
  -- an hour west of UTC it is still the day before
  let m : Moment := ⟨d, dayMicros - 3600000000, some (-3600), by decide⟩
  refine ⟨m, midnight next (some 0), ?_, fallsOn_iff.mpr rfl, fallsOn_iff.mpr rfl⟩
  have hwest : m.instant = (d.number : Int) * dayMicros + (dayMicros - 3600000000)
      - -3600 * 1000000 := rfl
  have hutc : (midnight next (some 0)).instant = (next.number : Int) * dayMicros + 0
      - 0 * 1000000 := rfl
  rw [hwest, hutc, h]
  unfold dayMicros
  omega

end Moment

end FeedSieve.Calendar
