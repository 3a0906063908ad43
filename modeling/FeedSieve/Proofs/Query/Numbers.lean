/-
What queries for numbers select.

The set of numbers that a query describes is in normal form, and it
contains the numbers that are listed: the single ones and those in the
ranges. So the items that are selected are those whose number is listed,
in the order of the feed.
-/
import FeedSieve.Query.Selection
import FeedSieve.Proofs.Query.Judged

namespace FeedSieve.Query

variable {elements : List (Element Nat)} {set : NumberSet}

/-- A set of numbers is in normal form: its ranges lie apart, in order, with
a number that none of them covers between neighbours, and its scalars are in
order, each once, outside the ranges. -/
structure NumberSet.Normal (set : NumberSet) : Prop where
  proper : ∀ r ∈ set.ranges, r.lo < r.hi
  apart : set.ranges.Pairwise fun r s => r.hi + 1 < s.lo
  increasing : set.scalars.Pairwise (· < ·)
  outside : ∀ n ∈ set.scalars, ∀ r ∈ set.ranges, ¬ (r.lo ≤ n ∧ n ≤ r.hi)

/-- A number is covered by an element if it is that or lies in it. -/
theorem any_covers_iff {n : Nat} :
    elements.any (·.covers n) = true ↔ .single n ∈ elements ∨ InRange elements n := by
  rw [List.any_eq_true]
  constructor
  · rintro ⟨e, he, hcovers⟩
    cases e with
    | single m =>
        rw [beq_iff_eq.mp hcovers]
        exact Or.inl he
    | range r =>
        rw [Element.covers, Bool.and_eq_true, decide_eq_true_eq,
          decide_eq_true_eq] at hcovers
        exact Or.inr ⟨r, he, hcovers⟩
  · rintro (he | ⟨r, he, hlo, hhi⟩)
    · exact ⟨_, he, beq_self_eq_true n⟩
    · refine ⟨_, he, ?_⟩
      rw [Element.covers, Bool.and_eq_true, decide_eq_true_eq, decide_eq_true_eq]
      exact ⟨hlo, hhi⟩

/-- A set that lists elements is in normal form. -/
theorem NumberSet.Lists.normal (h : set.Lists elements) : set.Normal := by
  obtain ⟨ranges, scalars, rfl, hjoined, hincreasing, hmem⟩ := h
  refine ⟨fun r hr => ?_, ?_, ?_, fun n hn r hr => ?_⟩
  · obtain ⟨s, hs, rfl⟩ := List.mem_map.mp hr
    have := hjoined.proper s hs
    simp only
    omega
  · rw [List.pairwise_map]
    refine hjoined.apart.imp fun {r s} hrs => ?_
    simp only
    omega
  · rw [List.pairwise_map]
    refine hincreasing.imp fun {a b} hab => ?_
    have := of_decide_eq_true hab
    simp only [Int.ofNat_eq_natCast]
    omega
  · obtain ⟨m, hm, rfl⟩ := List.mem_map.mp hn
    obtain ⟨s, hs, rfl⟩ := List.mem_map.mp hr
    rintro ⟨hlo, hhi⟩
    simp only [Int.ofNat_eq_natCast] at hlo hhi
    have hcovered : Covered ranges m := ⟨s, hs, by omega, by omega⟩
    exact ((hmem m).mp hm).2 ((hjoined.same m).mp hcovered)

/-- A set that lists elements contains the numbers that they cover. -/
theorem NumberSet.Lists.contains_eq (h : set.Lists elements) (n : Nat) :
    set.contains n = elements.any (·.covers n) := by
  obtain ⟨ranges, scalars, rfl, hjoined, hincreasing, hmem⟩ := h
  have hscalar : (scalars.map Int.ofNat).contains (n : Int) = true ↔ n ∈ scalars := by
    rw [List.contains_iff_mem]
    constructor
    · intro hn
      obtain ⟨m, hm, hmn⟩ := List.mem_map.mp hn
      rw [Int.ofNat_eq_natCast, Int.natCast_inj] at hmn
      rw [← hmn]
      exact hm
    · intro hn
      exact List.mem_map.mpr ⟨n, hn, rfl⟩
  have hrange : (ranges.map fun r => (⟨r.lo, r.hi⟩ : Span Int)).any
      (·.contains (fun a b => decide (a ≤ b)) n) = true ↔ Covered ranges n := by
    unfold Covered Span.contains
    simp
  rw [Bool.eq_iff_iff, any_covers_iff, NumberSet.contains, Bool.or_eq_true,
    hscalar, hrange, hjoined.same, hmem]
  tauto

/-- A query that is read as a set of numbers lists elements of that set. -/
theorem exists_lists {q : Text} (h : read q = .ok (.number set)) :
    ∃ es, Derives q (.number es) ∧ set.Lists es := by
  obtain ⟨c, hc, hmeans⟩ := said_of_read h
  cases hmeans with
  | number hlists => exact ⟨_, hc, hlists⟩

/-- Elements describe a set in normal form that contains what they list, and
a query for numbers selects the items whose numbers it lists, in the order
of the feed. -/
theorem numberSet_selects_listed :
    (∀ es : List (Element Nat), (∀ r, .range r ∈ es → r.lo < r.hi) →
      (∀ i : Nat, (numberSet es).contains i = true
        ↔ .single i ∈ es ∨ ∃ r, .range r ∈ es ∧ r.lo ≤ i ∧ i ≤ r.hi)
      ∧ (numberSet es).Normal)
    ∧ ∀ q s, read q = .ok (.number s) →
        ∃ es, Derives q (.number es) ∧ ∀ names items,
          select names (.number s) items
            = .ok (items.filter fun item => es.any (·.covers item.index)) := by
  constructor
  · intro es hproper
    have hlists := lists_numberSet fun r hr => decide_eq_true (hproper r hr)
    refine ⟨fun i => ?_, hlists.normal⟩
    rw [hlists.contains_eq, any_covers_iff]
    rfl
  · intro q s hread
    obtain ⟨es, hderives, hlists⟩ := exists_lists hread
    refine ⟨es, hderives, fun names items => ?_⟩
    unfold select
    split
    case isTrue hempty =>
      rw [List.isEmpty_iff.mp hempty]
      rfl
    case isFalse =>
      simp only [hlists.contains_eq]

/-- Nested and adjacent ranges in any order, and single numbers in them. -/
theorem numberSet_selects_listed_nested :
    (∃ es : List (Element Nat),
      es = [.range ⟨20, 25⟩, .single 22, .range ⟨10, 30⟩, .range ⟨31, 33⟩]
        ∧ (∀ r, .range r ∈ es → r.lo < r.hi)
        ∧ (numberSet es).Normal ∧ numberSet es = ⟨[⟨10, 33⟩], []⟩)
      ∧ ∃ es, Derives "number:\x7b[20-25], 22, [10-30]\x7d" (.number es) ∧
        ∀ names items, select names (.number ⟨[⟨10, 30⟩], []⟩) items
          = .ok (items.filter fun item => es.any (·.covers item.index)) := by
  refine ⟨⟨_, rfl, ?_⟩, numberSet_selects_listed.2 _ _ rfl⟩
  have hproper : ∀ r : Span Nat, .range r ∈ ([.range ⟨20, 25⟩, .single 22,
      .range ⟨10, 30⟩, .range ⟨31, 33⟩] : List (Element Nat)) → r.lo < r.hi := by
    intro r hr
    simp only [List.mem_cons, Element.range.injEq, reduceCtorEq, List.not_mem_nil,
      or_false, false_or] at hr
    rcases hr with rfl | rfl | rfl <;> decide
  exact ⟨hproper, (numberSet_selects_listed.1 _ hproper).2, by decide⟩

end FeedSieve.Query
