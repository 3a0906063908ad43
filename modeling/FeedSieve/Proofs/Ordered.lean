/-
Strictly increasing lists as sets.

`Ordered.ofList` turns the members of a list, in whatever order and however
often they were written, into a strictly increasing list. The theorem of
this file is `ofList_eq_iff`: over a strict total order the result is the
one increasing list with those members, so two ways of writing a set are
told apart by membership alone.

The orders in use are shown to be strict and total here: numbers, texts by
their first difference, days of the calendar, and spans by their lower and
then their upper ends over any such order.
-/
import Mathlib.Data.Char
import Mathlib.Data.List.Sort
import FeedSieve.Ordered
import FeedSieve.Span
import FeedSieve.Calendar.Date

namespace FeedSieve.Ordered

variable {α : Type} {lt : α → α → Bool} {x y : α} {xs ys : List α}

/-- A test that holds in one direction at most, passes on, and tells any two
different members apart. -/
structure Strict (lt : α → α → Bool) : Prop where
  asymm : ∀ {a b}, lt a b = true → lt b a = false
  trans : ∀ {a b c}, lt a b = true → lt b c = true → lt a c = true
  same : ∀ {a b}, lt a b = false → lt b a = false → a = b

/-- No member comes before itself. -/
theorem Strict.irrefl (h : Strict lt) (a : α) : lt a a = false := by
  rw [← Bool.not_eq_true]
  intro ha
  rw [h.asymm ha] at ha
  cases ha

/-- What comes before a member comes before all that are not before it. -/
theorem Strict.of_lt_of_not (h : Strict lt) {a b c : α}
    (hab : lt a b = true) (hcb : lt c b = false) : lt a c = true := by
  cases hbc : lt b c with
  | true => exact h.trans hab hbc
  | false =>
      rw [← h.same hbc hcb]
      exact hab

/-- What is not after a member comes before all that the member does. -/
theorem Strict.of_not_of_lt (h : Strict lt) {a b c : α}
    (hba : lt b a = false) (hbc : lt b c = true) : lt a c = true := by
  cases hab : lt a b with
  | true => exact h.trans hab hbc
  | false =>
      rw [h.same hab hba]
      exact hbc

/-- Each member comes before all that follow it. -/
def Increasing (lt : α → α → Bool) (xs : List α) : Prop :=
  xs.Pairwise fun a b => lt a b = true

-- ========================================================= insertion

/-- Inserting adds the member and nothing else. -/
theorem mem_insert (h : Strict lt) :
    y ∈ insert lt x xs ↔ y = x ∨ y ∈ xs := by
  induction xs with
  | nil => simp [insert]
  | cons z zs ih =>
      rw [insert]
      split
      case isTrue => rw [List.mem_cons]
      case isFalse hxz =>
        split
        case isTrue => rw [List.mem_cons, ih, List.mem_cons, or_left_comm]
        case isFalse hzx =>
          -- the member is there already
          have hsame : x = z := h.same (by simpa using hxz) (by simpa using hzx)
          rw [hsame, List.mem_cons, ← or_assoc, or_self]

/-- Inserting keeps the list increasing. -/
theorem increasing_insert (h : Strict lt) (hxs : Increasing lt xs) :
    Increasing lt (insert lt x xs) := by
  induction xs with
  | nil => exact List.pairwise_singleton _ _
  | cons z zs ih =>
      obtain ⟨hz, hzs⟩ := List.pairwise_cons.mp hxs
      rw [insert]
      split
      case isTrue hxz =>
        refine List.pairwise_cons.mpr ⟨fun a ha => ?_, hxs⟩
        rcases List.mem_cons.mp ha with rfl | ha
        · exact hxz
        · exact h.trans hxz (hz a ha)
      case isFalse hxz =>
        split
        case isTrue hzx =>
          refine List.pairwise_cons.mpr ⟨fun a ha => ?_, ih hzs⟩
          rcases (mem_insert h).mp ha with rfl | ha
          · exact hzx
          · exact hz a ha
        case isFalse => exact hxs

-- ====================================================== whole lists

/-- The increasing list has the members of the given one. -/
theorem mem_ofList (h : Strict lt) : x ∈ ofList lt xs ↔ x ∈ xs := by
  induction xs with
  | nil => rfl
  | cons z zs ih =>
      have hcons : ofList lt (z :: zs) = insert lt z (ofList lt zs) := rfl
      rw [hcons, mem_insert h, ih, List.mem_cons]

/-- The list is increasing. -/
theorem increasing_ofList (h : Strict lt) (xs : List α) :
    Increasing lt (ofList lt xs) := by
  induction xs with
  | nil => exact List.Pairwise.nil
  | cons z zs ih => exact increasing_insert h ih

/-- Increasing lists with the same members are the same. -/
theorem Increasing.ext (h : Strict lt) (hxs : Increasing lt xs)
    (hys : Increasing lt ys) (hmem : ∀ a, a ∈ xs ↔ a ∈ ys) : xs = ys := by
  have : Std.Irrefl fun a b => lt a b = true :=
    ⟨fun a => by rw [h.irrefl]; simp⟩
  have : Std.Antisymm fun a b => lt a b = true :=
    ⟨fun a b hab hba => absurd hab (by rw [h.asymm hba]; simp)⟩
  exact hxs.eq_of_mem_iff hys hmem

/-- The result is the one increasing list with these members. -/
theorem ofList_eq_iff (h : Strict lt) :
    ofList lt xs = ys ↔ Increasing lt ys ∧ ∀ a, a ∈ ys ↔ a ∈ xs := by
  constructor
  · rintro rfl
    exact ⟨increasing_ofList h xs, fun a => mem_ofList h⟩
  · rintro ⟨hys, hmem⟩
    refine (increasing_ofList h xs).ext h hys fun a => ?_
    rw [mem_ofList h, hmem]

/-- Lists with the same members give the same list. -/
theorem ofList_congr (h : Strict lt) (hmem : ∀ a, a ∈ xs ↔ a ∈ ys) :
    ofList lt xs = ofList lt ys :=
  (ofList_eq_iff h).mpr ⟨increasing_ofList h ys, fun a => (mem_ofList h).trans (hmem a).symm⟩

-- ================================================= the orders in use

/-- Numbers by size. -/
theorem strict_nat : Strict fun a b : Nat => decide (a < b) where
  asymm h := by
    rw [decide_eq_true_eq] at h
    rw [decide_eq_false_iff_not]
    omega
  trans hab hbc := by
    rw [decide_eq_true_eq] at hab hbc ⊢
    omega
  same hab hba := by
    rw [decide_eq_false_iff_not] at hab hba
    omega

/-- Spans by lower and then by upper end. -/
theorem strict_span (h : Strict lt) : Strict (Span.before lt) where
  asymm {s t} hst := by
    unfold Span.before at hst ⊢
    rw [Bool.or_eq_true, Bool.and_eq_true] at hst
    rcases hst with hlo | ⟨hlo, hhi⟩
    · rw [h.asymm hlo, hlo]
      rfl
    · rw [h.asymm hhi, Bool.and_false, Bool.or_false]
      simpa using hlo
  trans {s t u} hst htu := by
    unfold Span.before at hst htu ⊢
    simp only [Bool.or_eq_true, Bool.and_eq_true, Bool.not_eq_true'] at *
    rcases hst with hst | ⟨hst, hst'⟩ <;> rcases htu with htu | ⟨htu, htu'⟩
    · exact Or.inl (h.trans hst htu)
    · exact Or.inl (h.of_lt_of_not hst htu)
    · exact Or.inl (h.of_not_of_lt hst htu)
    · refine Or.inr ⟨?_, h.trans hst' htu'⟩
      rw [← Bool.not_eq_true]
      intro hus
      rw [h.of_lt_of_not hus hst] at htu
      cases htu
  same {s t} hst hts := by
    unfold Span.before at hst hts
    simp only [Bool.or_eq_false_iff, Bool.and_eq_false_imp,
      Bool.not_eq_true'] at hst hts
    have hlo := h.same hst.1 hts.1
    have hhi := h.same (hst.2 hts.1) (hts.2 hst.1)
    cases s
    cases t
    simp only at hlo hhi
    rw [hlo, hhi]

/-- Texts by their first difference. -/
theorem strict_text : Strict Text.before where
  asymm {s t} hst := by
    induction s generalizing t with
    | nil => cases t <;> rfl
    | cons a s ih =>
        cases t with
        | nil => cases hst
        | cons b t =>
            rw [Text.before] at hst ⊢
            by_cases hab : a = b
            · rw [if_pos hab] at hst
              rw [if_pos hab.symm]
              exact ih hst
            · rw [if_neg hab] at hst
              rw [if_neg (Ne.symm hab), decide_eq_false_iff_not]
              exact lt_asymm (of_decide_eq_true hst)
  trans {s t u} hst htu := by
    induction s generalizing t u with
    | nil =>
        cases u with
        | nil => cases t <;> cases htu
        | cons => rfl
    | cons a s ih =>
        cases t with
        | nil => cases hst
        | cons b t =>
            cases u with
            | nil => cases htu
            | cons c u =>
                rw [Text.before] at hst htu ⊢
                by_cases hab : a = b
                · subst hab
                  rw [if_pos rfl] at hst
                  by_cases hac : a = c
                  · rw [if_pos hac] at htu ⊢
                    exact ih hst htu
                  · rw [if_neg hac] at htu ⊢
                    exact htu
                · rw [if_neg hab] at hst
                  have hab' := of_decide_eq_true hst
                  by_cases hbc : b = c
                  · subst hbc
                    rw [if_neg hab]
                    exact hst
                  · rw [if_neg hbc] at htu
                    have hac := hab'.trans (of_decide_eq_true htu)
                    rw [if_neg hac.ne]
                    exact decide_eq_true hac
  same {s t} hst hts := by
    induction s generalizing t with
    | nil =>
        cases t with
        | nil => rfl
        | cons => cases hst
    | cons a s ih =>
        cases t with
        | nil => cases hts
        | cons b t =>
            rw [Text.before] at hst hts
            by_cases hab : a = b
            · rw [if_pos hab] at hst
              rw [if_pos hab.symm] at hts
              rw [hab, ih hst hts]
            · rw [if_neg hab] at hst
              rw [if_neg (Ne.symm hab)] at hts
              have h1 := of_decide_eq_false hst
              have h2 := of_decide_eq_false hts
              exact absurd (le_antisymm (not_lt.mp h2) (not_lt.mp h1)) hab

/-- Days by year, month and day of the month. -/
theorem before_iff {a b : Calendar.Date} :
    a.before b = true ↔ a.year < b.year ∨ a.year = b.year ∧
      (a.month < b.month ∨ a.month = b.month ∧ a.day < b.day) := by
  unfold Calendar.Date.before
  simp

/-- Days in the order of the calendar. -/
theorem strict_date : Strict Calendar.Date.before where
  asymm h := by
    rw [← Bool.not_eq_true, before_iff]
    rw [before_iff] at h
    omega
  trans hab hbc := by
    rw [before_iff] at hab hbc ⊢
    omega
  same {a b} hab hba := by
    rw [← Bool.not_eq_true, before_iff] at hab hba
    cases a
    cases b
    simp only at hab hba
    simp only [Calendar.Date.mk.injEq]
    omega

end FeedSieve.Ordered
