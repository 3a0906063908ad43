/-
Sets of numbers, of days and of phrases in their one form.

What a query lists is brought into a form: ranges of numbers are joined as
long as nothing lies between them, single members inside a range are
dropped, everything is in order and said once. This file says which form
that is and that nothing is gained or lost on the way.

# The joining invariant

`joinRanges` walks over ranges in the order of their lower ends and keeps
one range that may still grow. Its invariant is `Joined`: the ranges put
out so far and the growing one lie apart, with at least one number between
neighbours, and together with the ranges still to come they cover what was
covered at the start. A range that begins at most one above the upper end
of the growing one is swallowed, which loses nothing even if it ends
earlier; any other begins a new range, and then nothing that follows can
reach back, because the lower ends increase.

# Main statements

- `joined_joinRanges`: what joining gives.
- `Joined.unique`: ranges that lie apart are determined by what they cover.
- `numberSet_eq_iff`, `dateSet_eq_iff`, `keywordSet_eq_iff`: each set is the
  only one of its form for what was listed.
-/
import FeedSieve.Query.Reader
import FeedSieve.Proofs.Ordered

namespace FeedSieve.Query

open Calendar (Date)
open Ordered (Increasing)

-- ========================================================== coverage

/-- A number lies in one of the ranges. -/
def Covered (ranges : List (Span Nat)) (n : Nat) : Prop :=
  ∃ r ∈ ranges, r.lo ≤ n ∧ n ≤ r.hi

/-- Nothing lies in no range. -/
theorem not_covered_nil (n : Nat) : ¬ Covered [] n := by
  rintro ⟨r, hr, -⟩
  cases hr

/-- A number lies in the first range or in one of the others. -/
theorem covered_cons {r : Span Nat} {ranges : List (Span Nat)} {n : Nat} :
    Covered (r :: ranges) n ↔ (r.lo ≤ n ∧ n ≤ r.hi) ∨ Covered ranges n := by
  unfold Covered
  simp only [List.mem_cons, exists_eq_or_imp]

/-- The ranges cover what `P` says and no more, none of them is a single
number, and between neighbours lies at least one number. -/
structure Joined (P : Nat → Prop) (ranges : List (Span Nat)) : Prop where
  proper : ∀ r ∈ ranges, r.lo < r.hi
  apart : ranges.Pairwise fun r s => r.hi + 1 < s.lo
  same : ∀ n, Covered ranges n ↔ P n

-- =========================================================== joining

/-- A range that begins in the growing one, or right behind it, and not
before it adds exactly its own numbers. -/
theorem mem_grown {current s : Span Nat} {n : Nat}
    (hbehind : current.lo ≤ s.lo) (hnear : s.lo ≤ current.hi + 1) :
    (current.lo ≤ n ∧ n ≤ max current.hi s.hi)
      ↔ (current.lo ≤ n ∧ n ≤ current.hi) ∨ (s.lo ≤ n ∧ n ≤ s.hi) := by
  omega

/-- The invariant of joining: the growing range and those to come are
joined, and no range of the result begins before the growing one. -/
theorem joined_go {current : Span Nat} {rest : List (Span Nat)}
    (hcurrent : current.lo < current.hi) (hrest : ∀ s ∈ rest, s.lo < s.hi)
    (hbehind : ∀ s ∈ rest, current.lo ≤ s.lo)
    (hsorted : rest.Pairwise fun s t => s.lo ≤ t.lo) :
    Joined (Covered (current :: rest)) (joinRanges.go current rest)
      ∧ ∀ r ∈ joinRanges.go current rest, current.lo ≤ r.lo := by
  induction rest generalizing current with
  | nil =>
      rw [joinRanges.go]
      refine ⟨⟨?_, List.pairwise_singleton _ _, fun n => Iff.rfl⟩, ?_⟩
      · intro r hr
        rw [List.mem_singleton.mp hr]
        exact hcurrent
      · intro r hr
        rw [List.mem_singleton.mp hr]
  | cons s rest ih =>
      obtain ⟨hs, hsorted⟩ := List.pairwise_cons.mp hsorted
      have hs_proper : s.lo < s.hi := hrest s (List.mem_cons_self ..)
      have hs_behind : current.lo ≤ s.lo := hbehind s (List.mem_cons_self ..)
      have hrest' : ∀ t ∈ rest, t.lo < t.hi :=
        fun t ht => hrest t (List.mem_cons_of_mem _ ht)
      rw [joinRanges.go]
      split
      case isTrue hnear =>
        -- the range is swallowed
        let grown : Span Nat := ⟨current.lo, max current.hi s.hi⟩
        have hgrown : grown.lo < grown.hi := by
          change current.lo < max current.hi s.hi
          omega
        obtain ⟨hj, hlo⟩ := ih hgrown hrest' (fun t ht => le_trans hs_behind (hs t ht))
          hsorted
        refine ⟨⟨hj.proper, hj.apart, fun n => ?_⟩, hlo⟩
        rw [hj.same, covered_cons, covered_cons, covered_cons,
          mem_grown hs_behind hnear, or_assoc]
      case isFalse hfar =>
        -- the growing range is finished and `s` grows in its place
        obtain ⟨hj, hlo⟩ := ih hs_proper hrest' hs hsorted
        refine ⟨⟨?_, ?_, fun n => ?_⟩, ?_⟩
        · intro r hr
          rcases List.mem_cons.mp hr with rfl | hr
          · exact hcurrent
          · exact hj.proper r hr
        · refine List.pairwise_cons.mpr ⟨fun r hr => ?_, hj.apart⟩
          have := hlo r hr
          omega
        · rw [covered_cons, covered_cons (r := current), hj.same]
        · intro r hr
          rcases List.mem_cons.mp hr with rfl | hr
          · exact le_refl _
          · exact le_trans hs_behind (hlo r hr)

/-- Joining ranges in the order of their lower ends. -/
theorem joined_joinRanges {spans : List (Span Nat)}
    (hproper : ∀ s ∈ spans, s.lo < s.hi)
    (hsorted : spans.Pairwise fun s t => s.lo ≤ t.lo) :
    Joined (Covered spans) (joinRanges spans) := by
  cases spans with
  | nil =>
      exact ⟨by simp [joinRanges], List.Pairwise.nil, fun n => Iff.rfl⟩
  | cons s rest =>
      obtain ⟨hs, hrest⟩ := List.pairwise_cons.mp hsorted
      exact (joined_go (hproper s (List.mem_cons_self ..))
        (fun t ht => hproper t (List.mem_cons_of_mem _ ht)) hs hrest).1

-- ======================================================== uniqueness

/-- Ranges that lie apart begin with the least number that is covered. -/
theorem Joined.lo_le {P : Nat → Prop} {ranges : List (Span Nat)} {r : Span Nat}
    {n : Nat} (h : Joined P (r :: ranges)) (hn : P n) :
    r.lo ≤ n := by
  obtain ⟨t, ht, hlo, -⟩ := (h.same n).mpr hn
  rcases List.mem_cons.mp ht with rfl | ht
  · exact hlo
  · have happart := (List.pairwise_cons.mp h.apart).1 t ht
    have hproper := h.proper r (List.mem_cons_self ..)
    omega

/-- The number right above the first range is not covered. -/
theorem Joined.gap {P : Nat → Prop} {ranges : List (Span Nat)} {r : Span Nat}
    (h : Joined P (r :: ranges)) : ¬ P (r.hi + 1) := by
  intro hn
  obtain ⟨t, ht, hlo, hhi⟩ := (h.same _).mpr hn
  rcases List.mem_cons.mp ht with rfl | ht
  · omega
  · have happart := (List.pairwise_cons.mp h.apart).1 t ht
    omega

/-- A range that begins as another does ends no later. -/
theorem Joined.hi_le {P : Nat → Prop} {rs ts : List (Span Nat)} {r t : Span Nat}
    (hr : Joined P (r :: rs)) (ht : Joined P (t :: ts))
    (hlo : r.lo = t.lo) : r.hi ≤ t.hi := by
  by_contra hlt
  have hproper := ht.proper t (List.mem_cons_self ..)
  -- otherwise it covers the gap behind the other one
  apply ht.gap
  rw [← hr.same, covered_cons]
  exact Or.inl (by omega)

/-- The ranges behind the first cover what is behind it. -/
theorem Joined.tail {P : Nat → Prop} {ranges : List (Span Nat)} {r : Span Nat}
    (h : Joined P (r :: ranges)) : Joined (Covered ranges) ranges
      ∧ ∀ n, Covered ranges n ↔ P n ∧ r.hi < n := by
  obtain ⟨hfirst, hapart⟩ := List.pairwise_cons.mp h.apart
  have hproper := fun t ht => h.proper t (List.mem_cons_of_mem r ht)
  refine ⟨⟨hproper, hapart, fun n => Iff.rfl⟩, fun n => ?_⟩
  rw [← h.same, covered_cons]
  constructor
  · rintro ⟨t, ht, hlo, hhi⟩
    have := hfirst t ht
    exact ⟨Or.inr ⟨t, ht, hlo, hhi⟩, by omega⟩
  · rintro ⟨⟨-, hhi⟩ | hn, hlt⟩
    · omega
    · exact hn

/-- Ranges that lie apart are determined by what they cover. -/
theorem Joined.unique {P : Nat → Prop} {rs ts : List (Span Nat)}
    (hr : Joined P rs) (ht : Joined P ts) : rs = ts := by
  induction rs generalizing P ts with
  | nil =>
      cases ts with
      | nil => rfl
      | cons t ts =>
          have hproper := ht.proper t (List.mem_cons_self ..)
          have hn : Covered (t :: ts) t.lo :=
            covered_cons.mpr (Or.inl ⟨le_refl _, hproper.le⟩)
          exact absurd ((hr.same _).mpr ((ht.same _).mp hn)) (not_covered_nil _)
  | cons r rs ih =>
      cases ts with
      | nil =>
          have hproper := hr.proper r (List.mem_cons_self ..)
          have hn : Covered (r :: rs) r.lo :=
            covered_cons.mpr (Or.inl ⟨le_refl _, hproper.le⟩)
          exact absurd ((ht.same _).mpr ((hr.same _).mp hn)) (not_covered_nil _)
      | cons t ts =>
          have first {u : Span Nat} {us : List (Span Nat)}
              (hu : Joined P (u :: us)) : P u.lo :=
            (hu.same _).mp (covered_cons.mpr (Or.inl
              ⟨le_refl _, (hu.proper u (List.mem_cons_self ..)).le⟩))
          have hlo : r.lo = t.lo :=
            le_antisymm (hr.lo_le (first ht)) (ht.lo_le (first hr))
          have hhi : r.hi = t.hi :=
            le_antisymm (hr.hi_le ht hlo) (ht.hi_le hr hlo.symm)
          have hsame : r = t := by
            cases r
            cases t
            simp only at hlo hhi
            rw [hlo, hhi]
          subst hsame
          obtain ⟨hrs, hcover⟩ := hr.tail
          obtain ⟨hts, hcover'⟩ := ht.tail
          have hts' : Joined (Covered rs) ts :=
            ⟨hts.proper, hts.apart, fun n => by rw [hcover', hcover]⟩
          rw [ih hrs hts']

-- ======================================================== what is listed

/-- The single members of a list of elements. -/
theorem mem_separate_fst {α : Type} {es : List (Element α)} {x : α} :
    x ∈ (separate es).1 ↔ .single x ∈ es := by
  induction es with
  | nil => simp [separate]
  | cons e es ih =>
      cases e with
      | single y => simp [separate, ih]
      | range s => simp [separate, ih]

/-- The ranges of a list of elements. -/
theorem mem_separate_snd {α : Type} {es : List (Element α)} {s : Span α} :
    s ∈ (separate es).2 ↔ .range s ∈ es := by
  induction es with
  | nil => simp [separate]
  | cons e es ih =>
      cases e with
      | single y => simp [separate, ih]
      | range t => simp [separate, ih]

/-- Whether a number is an element or lies in it. -/
def Element.covers : Element Nat → Nat → Bool
  | .single m, n => n == m
  | .range s, n => s.lo ≤ n && n ≤ s.hi

/-- A number lies in a range that is listed. -/
def InRange (es : List (Element Nat)) (n : Nat) : Prop :=
  ∃ r, .range r ∈ es ∧ r.lo ≤ n ∧ n ≤ r.hi

/-- A day lies in a range of days that is listed. -/
def InDays (es : List (Element Date)) (d : Date) : Prop :=
  ∃ r, .range r ∈ es ∧ r.lo.upTo d = true ∧ d.upTo r.hi = true

/-- A range that is listed has more than one member. -/
def Proper {α : Type} (lt : α → α → Bool) (es : List (Element α)) : Prop :=
  ∀ r, .range r ∈ es → lt r.lo r.hi = true

/-- The set of numbers is what the elements list: its ranges lie apart and
cover what the listed ranges do, and its scalars are the single numbers
that are listed and lie in no range. -/
def NumberSet.Lists (s : NumberSet) (es : List (Element Nat)) : Prop :=
  ∃ (ranges : List (Span Nat)) (scalars : List Nat),
    s = ⟨ranges.map fun r => ⟨r.lo, r.hi⟩, scalars.map Int.ofNat⟩
      ∧ Joined (InRange es) ranges
      ∧ Increasing (fun a b => decide (a < b)) scalars
      ∧ ∀ n, n ∈ scalars ↔ .single n ∈ es ∧ ¬ InRange es n

/-- The set of days is what the elements list: all their ranges, and the
single days that lie in none of them, each in order. -/
structure DateSet.Lists (s : DateSet) (es : List (Element Date)) : Prop where
  ranges_increasing : Increasing (Span.before Date.before) s.ranges
  mem_ranges : ∀ r, r ∈ s.ranges ↔ .range r ∈ es
  dates_increasing : Increasing Date.before s.dates
  mem_dates : ∀ d, d ∈ s.dates ↔ .single d ∈ es ∧ ¬ InDays es d

/-- Spans in order are in the order of their lower ends. -/
private theorem sorted_of_increasing {spans : List (Span Nat)}
    (h : Increasing (Span.before fun a b => decide (a < b)) spans) :
    spans.Pairwise fun s t => s.lo ≤ t.lo := by
  refine h.imp fun {s t} hst => ?_
  unfold Span.before at hst
  simp only [Bool.or_eq_true, Bool.and_eq_true, Bool.not_eq_true',
    decide_eq_true_eq, decide_eq_false_iff_not] at hst
  omega

/-- The set that elements describe is what they list. -/
theorem lists_numberSet {es : List (Element Nat)}
    (hproper : Proper (fun a b => decide (a < b)) es) :
    (numberSet es).Lists es := by
  have hstrict := Ordered.strict_span Ordered.strict_nat
  have hmem (r : Span Nat) :
      r ∈ Ordered.ofList (Span.before fun a b => decide (a < b)) (separate es).2
        ↔ .range r ∈ es := by
    rw [Ordered.mem_ofList hstrict, mem_separate_snd]
  have hjoined := joined_joinRanges
    (fun r hr => of_decide_eq_true (hproper r ((hmem r).mp hr)))
    (sorted_of_increasing (Ordered.increasing_ofList hstrict (separate es).2))
  have hcover (n : Nat) :
      Covered (Ordered.ofList (Span.before fun a b => decide (a < b))
        (separate es).2) n ↔ InRange es n := by
    unfold Covered InRange
    simp only [hmem]
  refine ⟨_, _, rfl, ⟨hjoined.proper, hjoined.apart, fun n => ?_⟩,
    Ordered.increasing_ofList Ordered.strict_nat _, fun n => ?_⟩
  · rw [hjoined.same, hcover]
  · rw [Ordered.mem_ofList Ordered.strict_nat, List.mem_filter,
      mem_separate_fst, ← hcover, ← hjoined.same]
    unfold Covered Span.contains
    simp

/-- What elements list is one set of numbers. -/
theorem numberSet_eq_iff {es : List (Element Nat)} {s : NumberSet}
    (hproper : Proper (fun a b => decide (a < b)) es) :
    numberSet es = s ↔ s.Lists es := by
  constructor
  · rintro rfl
    exact lists_numberSet hproper
  · intro hs
    obtain ⟨ranges, scalars, hset, hjoined, hinc, hmem⟩ := lists_numberSet hproper
    obtain ⟨ranges', scalars', rfl, hjoined', hinc', hmem'⟩ := hs
    have hranges := hjoined.unique hjoined'
    have hscalars := hinc.ext Ordered.strict_nat hinc'
      fun n => by rw [hmem, hmem']
    rw [hset, hranges, hscalars]

/-- What elements list is one set of days. -/
theorem dateSet_eq_iff {es : List (Element Date)} {s : DateSet} :
    dateSet es = s ↔ s.Lists es := by
  have hstrict := Ordered.strict_span Ordered.strict_date
  have hlists : (dateSet es).Lists es := by
    refine ⟨Ordered.increasing_ofList hstrict _, fun r => ?_,
      Ordered.increasing_ofList Ordered.strict_date _, fun d => ?_⟩
    · exact (Ordered.mem_ofList hstrict).trans mem_separate_snd
    · refine (Ordered.mem_ofList Ordered.strict_date).trans ?_
      rw [List.mem_filter, mem_separate_fst]
      unfold InDays Span.contains
      simp only [Bool.not_eq_true', List.any_eq_false, Bool.and_eq_true,
        Ordered.mem_ofList hstrict, mem_separate_snd, not_exists, not_and]
  constructor
  · rintro rfl
    exact hlists
  · intro hs
    have hranges := hlists.ranges_increasing.ext hstrict hs.ranges_increasing
      fun r => by rw [hlists.mem_ranges, hs.mem_ranges]
    have hdates := hlists.dates_increasing.ext Ordered.strict_date
      hs.dates_increasing fun d => by rw [hlists.mem_dates, hs.mem_dates]
    calc dateSet es = ⟨(dateSet es).ranges, (dateSet es).dates⟩ := rfl
      _ = ⟨s.ranges, s.dates⟩ := by rw [hranges, hdates]

/-- Phrases in order, each once. -/
theorem keywordSet_eq_iff {phrases keywords : List Text} :
    keywordSet phrases = keywords
      ↔ Increasing Text.before keywords ∧ ∀ w, w ∈ keywords ↔ w ∈ phrases :=
  Ordered.ofList_eq_iff Ordered.strict_text

end FeedSieve.Query
