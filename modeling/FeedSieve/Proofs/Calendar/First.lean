/-
The first day of the calendar.

Days are numbered from the first one, and no other day has its number
(`Date.number_eq_one_iff`). A moment is not after the beginning of that day
in UTC exactly if it is written for the same day, at a time that its offset
reaches (`Moment.instant_lt_first_iff`, `Moment.instant_eq_first_iff`): the
next day is a whole day away, and offsets are smaller than that.
-/
import FeedSieve.Calendar.Moment

namespace FeedSieve.Calendar

-- ============================================================= numbers

/-- The first month has its days before every later one. -/
theorem le_daysBeforeMonth (year : Nat) {month : Nat} (h : 2 ≤ month) :
    31 ≤ daysBeforeMonth year month := by
  obtain ⟨k, rfl⟩ := Nat.exists_eq_add_of_le h
  unfold daysBeforeMonth
  have hgrow (months : List Nat) (days : Nat) :
      days ≤ months.foldl (fun days m => days + monthLength year (m + 1)) days := by
    induction months generalizing days with
    | nil => exact Nat.le_refl _
    | cons m rest ih => exact Nat.le_trans (Nat.le_add_right _ _) (ih _)
  have hfirst : 2 + k - 1 = k + 1 := by omega
  rw [hfirst, List.range_succ_eq_map, List.foldl_cons]
  exact hgrow _ _

/-- Days are numbered from 1. -/
theorem Date.number_pos (d : Date) : 1 ≤ d.number := by
  have h := d.exists_day
  unfold names at h
  simp only [Bool.and_eq_true, decide_eq_true_eq] at h
  unfold Date.number
  omega

/-- That is the number of the first day alone. -/
theorem Date.number_eq_one_iff (d : Date) : d.number = 1 ↔ d = Date.first := by
  refine ⟨fun hnumber => ?_, fun h => h ▸ rfl⟩
  obtain ⟨year, month, day, hexists⟩ := d
  have h := hexists
  unfold names at h
  simp only [Bool.and_eq_true, decide_eq_true_eq] at h
  obtain ⟨⟨⟨hyear, -⟩, hday⟩, hlength⟩ := h
  have hsum : daysBeforeYear year + daysBeforeMonth year month + day = 1 := hnumber
  have hmonth : month = 1 := by
    have hpos : month ≠ 0 := by
      rintro rfl
      have hnone : monthLength year 0 = 0 := rfl
      omega
    rcases Nat.lt_or_ge month 2 with hearly | hlate
    · omega
    · have hdays := le_daysBeforeMonth year hlate
      omega
  have hyear : year = 1 := by
    have hnone : daysBeforeYear year = 0 := by omega
    unfold daysBeforeYear at hnone
    dsimp only at hnone
    omega
  obtain rfl : day = 1 := by omega
  subst hmonth hyear
  rfl

-- ============================================================ instants

namespace Moment

variable {m : Moment}

/-- The microseconds by which local time is ahead of UTC. -/
def ahead (m : Moment) : Int := m.offset.getD 0 * 1000000

/-- By less than a day. -/
def IsNear (m : Moment) : Prop := m.ahead < dayMicros

/-- How far a moment is from the first one. -/
private theorem instant_sub_first (m : Moment) :
    m.instant - first.instant = ((m.date.number : Int) - 1) * dayMicros + m.micros - m.ahead := by
  have hfirst : first.instant = dayMicros := rfl
  rw [hfirst, instant, ahead, Int.sub_mul]
  omega

/-- What is not after the first moment is written for the first day. -/
private theorem number_eq_one_of_le (h : m.IsNear) (hle : m.instant ≤ first.instant) :
    m.date.number = 1 := by
  have hsub := instant_sub_first m
  have hpos := m.date.number_pos
  unfold IsNear at h
  unfold dayMicros at h hsub
  omega

/-- On that day only the time and the offset count. -/
private theorem instant_sub_first_of_number (hone : m.date.number = 1) :
    m.instant - first.instant = m.micros - m.ahead := by
  rw [instant_sub_first, hone]
  simp

/-- A moment is before the first one exactly if it is a time of the first day
that its offset reaches past. -/
theorem instant_lt_first_iff (h : m.IsNear) :
    m.instant < first.instant ↔ m.date = Date.first ∧ (m.micros : Int) < m.ahead := by
  rw [← Date.number_eq_one_iff]
  constructor
  · intro hlt
    have hone := number_eq_one_of_le h (Int.le_of_lt hlt)
    have hsub := instant_sub_first_of_number hone
    exact ⟨hone, by omega⟩
  · rintro ⟨hone, hlt⟩
    have hsub := instant_sub_first_of_number hone
    omega

/-- It is the first one exactly if its offset reaches just as far. -/
theorem instant_eq_first_iff (h : m.IsNear) :
    m.instant = first.instant ↔ m.date = Date.first ∧ (m.micros : Int) = m.ahead := by
  rw [← Date.number_eq_one_iff]
  constructor
  · intro heq
    have hone := number_eq_one_of_le h (Int.le_of_eq heq)
    have hsub := instant_sub_first_of_number hone
    exact ⟨hone, by omega⟩
  · rintro ⟨hone, heq⟩
    have hsub := instant_sub_first_of_number hone
    omega

end Moment

end FeedSieve.Calendar
