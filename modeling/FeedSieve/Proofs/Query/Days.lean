/-
What queries for days select.

The set of days that a query describes keeps the ranges that are listed, each
once and in order, and of the single days those that lie in none of them. It
contains what is listed, no more and no less (`DateSet.Lists.contains_iff`):
a day that is dropped lies in a range that is kept.

Ranges of days are ranges of numbers, since days come in the order of their
numbers. An item is selected if it was published on a listed day by its own
clock (`publishedIn_iff`), so two items of one instant can be told apart by
a set that lists one of two neighbouring days (`exists_told_apart`).
-/
import FeedSieve.Proofs.Calendar.Numbered
import FeedSieve.Proofs.Query.Judged
import FeedSieve.Proofs.Query.Stable

namespace FeedSieve.Query

open Calendar (Date Moment)
open Feed (Item)

variable {es : List (Element Date)} {set : DateSet} {d : Date}

-- ============================================================== listed

/-- A day is listed: it is one of the single days, or it lies in one of the
ranges, ends included. -/
def ListsDay (es : List (Element Date)) (d : Date) : Prop :=
  .single d ∈ es ∨ ∃ r, .range r ∈ es ∧ r.lo.number ≤ d.number ∧ d.number ≤ r.hi.number

/-- An item was published on a listed day, by the clock that its date is
written with. -/
def PublishedOn (es : List (Element Date)) (item : Item) : Prop :=
  ∃ m, item.publishedAt = some m ∧ ∃ d, ListsDay es d ∧ m.FallsOn d

/-- A set of days is in normal form: its ranges increase by their lower and
then by their upper ends, its single days increase, and none of them lies in
a range. -/
structure DateSet.Normal (set : DateSet) : Prop where
  ranges_increase : set.ranges.Pairwise fun r s =>
    r.lo.number < s.lo.number ∨ r.lo = s.lo ∧ r.hi.number < s.hi.number
  dates_increase : set.dates.Pairwise fun a b => a.number < b.number
  outside : ∀ d ∈ set.dates, ∀ r ∈ set.ranges,
    ¬ (r.lo.number ≤ d.number ∧ d.number ≤ r.hi.number)

/-- A listed day is a single one, or one in a listed range of days. -/
theorem listsDay_iff : ListsDay es d ↔ .single d ∈ es ∨ InDays es d := by
  unfold ListsDay InDays
  simp only [Date.upTo_iff]

/-- One range of days comes before another by its lower end, or by its upper
end where the lower ends agree. -/
theorem spanBefore_iff {r s : Span Date} : Span.before Date.before r s = true
    ↔ r.lo.number < s.lo.number ∨ r.lo = s.lo ∧ r.hi.number < s.hi.number := by
  unfold Span.before
  rw [Bool.or_eq_true, Bool.and_eq_true, Bool.not_eq_true', ← Bool.not_eq_true,
    ← Date.number_lt_iff, ← Date.number_lt_iff, ← Date.number_lt_iff, ← Date.number_inj]
  omega

-- ============================================================= the set

/-- A set that lists elements contains the days that are listed. -/
theorem DateSet.Lists.contains_iff (h : set.Lists es) :
    set.contains d = true ↔ ListsDay es d := by
  have hrange : set.ranges.any (·.contains Date.upTo d) = true ↔ InDays es d := by
    unfold InDays Span.contains
    simp only [List.any_eq_true, Bool.and_eq_true, h.mem_ranges]
  rw [DateSet.contains, Bool.or_eq_true, List.contains_iff_mem, hrange, h.mem_dates, listsDay_iff]
  -- a single day that is not kept lies in a range
  tauto

/-- It is in normal form. -/
theorem DateSet.Lists.normal (h : set.Lists es) : set.Normal where
  ranges_increase := h.ranges_increasing.imp spanBefore_iff.mp
  dates_increase := h.dates_increasing.imp Date.number_lt_iff.mpr
  outside := by
    rintro d hd r hr ⟨hlo, hhi⟩
    obtain ⟨-, hfree⟩ := (h.mem_dates d).mp hd
    exact hfree ⟨r, (h.mem_ranges r).mp hr, Date.upTo_iff.mpr hlo, Date.upTo_iff.mpr hhi⟩

-- =========================================================== selection

/-- Published on a day of the set is what was published on a listed day. -/
theorem publishedIn_iff (h : set.Lists es) {item : Item} :
    publishedIn set item = true ↔ PublishedOn es item := by
  unfold publishedIn PublishedOn
  cases item.publishedAt with
  | none => simp
  | some m =>
      simp only [h.contains_iff, Option.some.injEq, exists_eq_left', Moment.fallsOn_iff,
        exists_eq_right']

/-- Where one of two neighbouring days is listed and the other is not, an item
may have been published on either of them at one instant. -/
theorem exists_told_apart {next : Date} (hnext : next.number = d.number + 1)
    (hedge : ¬ (ListsDay es d ↔ ListsDay es next)) (item : Item) :
    ∃ m m' : Moment, m.instant = m'.instant
      ∧ ¬ (PublishedOn es { item with publishedAt := some m }
        ↔ PublishedOn es { item with publishedAt := some m' }) := by
  obtain ⟨m, m', hsame, hm, hm'⟩ := Moment.exists_across hnext
  refine ⟨m, m', hsame, fun hboth => hedge ?_⟩
  have hday {m : Moment} {d : Date} (hm : m.FallsOn d) :
      PublishedOn es { item with publishedAt := some m } ↔ ListsDay es d := by
    unfold PublishedOn
    simp only [Option.some.injEq, exists_eq_left', Moment.fallsOn_iff.mp hm, Moment.fallsOn_iff,
      exists_eq_right']
  rw [← hday hm, ← hday hm', hboth]

/-- A query that is read as a set of days lists elements of that set. -/
theorem exists_listed_days {q : Text} (h : read q = .ok (.date set)) :
    ∃ es, Derives q (.date es) ∧ set.Lists es := by
  obtain ⟨c, hc, hmeans⟩ := said_of_read h
  cases hmeans with
  | date hlists => exact ⟨_, hc, hlists⟩

/-- Elements describe a set in normal form that contains the days they list.
A query for days describes such a set, and it selects the items that were
published on a listed day by their own clocks, in the order of the feed:
undated items never, and of one instant perhaps only some. -/
theorem dateSet_selects_listed :
    (∀ es : List (Element Date),
      (∀ d, (dateSet es).contains d = true ↔ ListsDay es d) ∧ (dateSet es).Normal
      ∧ (∀ item, publishedIn (dateSet es) item = true ↔ PublishedOn es item)
      ∧ ∀ names items, select names (.date (dateSet es)) items
          = .ok (items.filter (publishedIn (dateSet es))))
    ∧ (∀ q s, read q = .ok (.date s) → ∃ es, Derives q (.date es) ∧ s = dateSet es)
    ∧ ∀ (es : List (Element Date)) (d next : Date), next.number = d.number + 1 →
        ¬ (ListsDay es d ↔ ListsDay es next) → ∀ item : Item,
          ∃ m m' : Moment, m.instant = m'.instant
            ∧ ¬ (PublishedOn es { item with publishedAt := some m }
              ↔ PublishedOn es { item with publishedAt := some m' }) := by
  refine ⟨fun es => ?_, fun q s hread => ?_, fun es d next => exists_told_apart⟩
  · have hlists : (dateSet es).Lists es := dateSet_eq_iff.mp rfl
    refine ⟨fun d => hlists.contains_iff, hlists.normal, fun item => publishedIn_iff hlists,
      fun names items => ?_⟩
    exact (select_eq_ok_iff (by simp)).mpr ⟨by simp [Tellable], rfl⟩
  · obtain ⟨es, hderives, hlists⟩ := exists_listed_days hread
    exact ⟨es, hderives, (dateSet_eq_iff.mpr hlists).symm⟩

/-- The days around the end of February in a leap year, in ranges that overlap
and with a day in them. An item of the last listed day by its own clock is
selected, and one of the same instant by the clock of UTC is not. -/
theorem dateSet_selects_listed_leap_day :
    ∃ (feb27 feb28 feb29 mar1 : Date) (es : List (Element Date)) (west utc : Moment),
      [feb27, feb28, feb29, mar1].map Date.iso
        = ["2020-02-27".toList, "2020-02-28".toList, "2020-02-29".toList, "2020-03-01".toList]
      ∧ read "date:\x7b[2020-02-28:2020-02-29], 2020-02-29, [2020-02-27:2020-02-28]\x7d"
        = .ok (.date ⟨[⟨feb27, feb28⟩, ⟨feb28, feb29⟩], []⟩)
      ∧ Derives "date:\x7b[2020-02-28:2020-02-29], 2020-02-29, [2020-02-27:2020-02-28]\x7d"
        (.date es)
      ∧ ListsDay es feb29 ∧ ¬ ListsDay es mar1 ∧ mar1.number = feb29.number + 1
      ∧ west.date = feb29 ∧ utc.date = mar1 ∧ west.instant = utc.instant
      ∧ ∀ item : Item, PublishedOn es { item with publishedAt := some west }
        ∧ ¬ PublishedOn es { item with publishedAt := some utc } := by
  let feb27 : Date := ⟨2020, 2, 27, by decide⟩
  let feb28 : Date := ⟨2020, 2, 28, by decide⟩
  let feb29 : Date := ⟨2020, 2, 29, by decide⟩
  let mar1 : Date := ⟨2020, 3, 1, by decide⟩
  have hread : read "date:\x7b[2020-02-28:2020-02-29], 2020-02-29, [2020-02-27:2020-02-28]\x7d"
      = .ok (.date ⟨[⟨feb27, feb28⟩, ⟨feb28, feb29⟩], []⟩) := by
    decide +kernel
  obtain ⟨es, hderives, hset⟩ := dateSet_selects_listed.2.1 _ _ hread
  obtain ⟨hcontains, -, hpublished, -⟩ := dateSet_selects_listed.1 es
  have hlisted : ListsDay es feb29 := (hcontains feb29).mp (by rw [← hset]; decide +kernel)
  have hunlisted : ¬ ListsDay es mar1 := fun h => by
    have hmar1 := (hcontains mar1).mpr h
    rw [← hset] at hmar1
    exact absurd hmar1 (by decide +kernel)
  let west : Moment := ⟨feb29, 84600000000, some (-3600), by decide⟩
  let utc : Moment := ⟨mar1, 1800000000, some 0, by decide⟩
  have hnext : mar1.number = feb29.number + 1 := by decide +kernel
  have hinstant : west.instant = utc.instant := by decide +kernel
  refine ⟨feb27, feb28, feb29, mar1, es, west, utc, by decide +kernel, hread, hderives,
    hlisted, hunlisted, hnext, rfl, rfl, hinstant, fun item => ⟨?_, ?_⟩⟩
  · exact ⟨west, rfl, feb29, hlisted, Moment.fallsOn_iff.mpr rfl⟩
  · rintro ⟨m, hm, d, hd, hfalls⟩
    obtain rfl : utc = m := Option.some.inj hm
    rw [← Moment.fallsOn_iff.mp hfalls] at hd
    exact hunlisted hd

end FeedSieve.Query
