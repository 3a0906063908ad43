/-
Selecting is stable.

What a predicate selects are items of the feed in the order of the feed, and
selecting again from what was selected changes nothing. Every predicate but
`latest` looks at one item at a time (`select_eq_ok_iff`), so it can be asked
of the parts of a feed just as well.

Items are told apart by their numbers. That is what makes `latest` stable:
what it chooses is put in order by number, and there is one list of the
chosen items in which the numbers increase, the part of the feed that they
are. Selecting again ranks no more items than are asked for.
-/
import Mathlib.Data.List.Sort
import FeedSieve.Proofs.Query.Missing

namespace FeedSieve.Query

open Download (fileName)
open Feed (Item)

variable {names : Option (List Text)} {p : Predicate} {items kept : List Item} {n : Nat}

-- ====================================================== item by item

/-- Whether an item satisfies a predicate on its own account. -/
def satisfies (names : Option (List Text)) : Predicate → Item → Bool
  | .all, _ => true
  | .number set, item => set.contains item.index
  | .title keywords, item => containsAny item.title keywords
  | .description keywords, item => containsAny item.description keywords
  | .date set, item => publishedIn set item
  | .notexists, item =>
      match fileName item with
      | .ok name => !(names.getD []).contains name
      | .error _ => false
  | .latest _, _ => true

/-- Whether items can be told to satisfy a predicate: to find out which files
are missing it must be known which are there, and every item needs a name. -/
def Tellable (names : Option (List Text)) (p : Predicate) (items : List Item) : Prop :=
  p = .notexists → ∀ item ∈ items, names.isSome = true ∧ ∃ name, fileName item = .ok name

/-- Missing among items are those that satisfy the predicate. -/
private theorem missingAmong_eq_ok_iff {names : List Text} :
    missingAmong names items = .ok kept
      ↔ (∀ item ∈ items, ∃ name, fileName item = .ok name)
        ∧ kept = items.filter (satisfies (some names) .notexists) := by
  induction items generalizing kept with
  | nil =>
      rw [missingAmong, List.filter_nil]
      exact ⟨fun h => ⟨fun _ h => absurd h List.not_mem_nil, (Except.ok.inj h).symm⟩,
        fun h => congrArg _ h.2.symm⟩
  | cons item rest ih =>
      rw [missingAmong, isMissing, List.forall_mem_cons, List.filter_cons, satisfies]
      cases hname : fileName item with
      | error why =>
          constructor
          · intro h
            cases h
          · rintro ⟨⟨⟨name, hname'⟩, -⟩, -⟩
            cases hname'
      | ok name =>
          cases hrest : missingAmong names rest with
          | error why =>
              have hnot : ¬ ∀ item ∈ rest, ∃ name, fileName item = .ok name := fun h =>
                absurd (ih.mpr ⟨h, rfl⟩) (by rw [hrest]; simp)
              constructor
              · intro h
                cases h
              · rintro ⟨⟨-, h⟩, -⟩
                exact absurd h hnot
          | ok others =>
              obtain ⟨hnamed, rfl⟩ := ih.mp hrest
              simp only [bind, Except.bind, pure, Except.pure, Option.getD_some, Except.ok.injEq]
              constructor
              · intro h
                exact ⟨⟨⟨name, rfl⟩, hnamed⟩, h.symm⟩
              · rintro ⟨-, h⟩
                exact h.symm

/-- Selected are the items that satisfy the predicate, if that can be told. -/
theorem select_eq_ok_iff (hp : ∀ n, p ≠ .latest n) :
    select names p items = .ok kept
      ↔ Tellable names p items ∧ kept = items.filter (satisfies names p) := by
  unfold select
  split
  case isTrue hempty =>
    rw [List.isEmpty_iff.mp hempty, List.filter_nil]
    constructor
    · intro h
      exact ⟨fun _ _ h => absurd h List.not_mem_nil, (Except.ok.inj h).symm⟩
    · rintro ⟨-, rfl⟩
      rfl
  case isFalse hne =>
    have hfree (hother : p ≠ .notexists) (selected : List Item) :
        (Except.ok selected : Except Unselectable (List Item)) = .ok kept
          ↔ Tellable names p items ∧ kept = selected := by
      rw [Except.ok.injEq, eq_comm]
      exact ⟨fun h => ⟨fun h' => absurd h' hother, h⟩, fun h => h.2⟩
    cases p with
    | all =>
        have hall : items.filter (satisfies names .all) = items :=
          List.filter_eq_self.mpr fun _ _ => rfl
        rw [hall]
        exact hfree (by simp) items
    | number set => exact hfree (by simp) _
    | title keywords => exact hfree (by simp) _
    | description keywords => exact hfree (by simp) _
    | date set => exact hfree (by simp) _
    | notexists =>
        cases names with
        | none =>
            obtain ⟨first, rest, rfl⟩ := List.exists_cons_of_ne_nil (by simpa using hne)
            constructor
            · intro h
              cases h
            · rintro ⟨htell, -⟩
              exact absurd (htell rfl first List.mem_cons_self).1 (by simp)
        | some names =>
            simp only
            rw [missingAmong_eq_ok_iff]
            simp [Tellable]
    | latest n => exact absurd rfl (hp n)

/-- Whether parts can be told is whether the whole can. -/
theorem tellable_append_iff {xs ys : List Item} :
    Tellable names p (xs ++ ys) ↔ Tellable names p xs ∧ Tellable names p ys := by
  unfold Tellable
  rw [← imp_and]
  simp only [List.forall_mem_append]

-- ==================================================== the most recent

/-- Each item has a greater number than those before it. -/
def Numbered (items : List Item) : Prop := items.Pairwise fun a b => a.index < b.index

/-- Items in order of their numbers. -/
private theorem numbered_mergeSort (h : (items.map (·.index)).Nodup) :
    Numbered (items.mergeSort fun a b => a.index ≤ b.index) := by
  have hsorted : (items.mergeSort fun a b => a.index ≤ b.index).Pairwise
      fun a b => decide (a.index ≤ b.index) = true := by
    apply List.pairwise_mergeSort
    · intro a b c hab hbc
      rw [decide_eq_true_eq] at hab hbc ⊢
      omega
    · intro a b
      rw [Bool.or_eq_true, decide_eq_true_eq, decide_eq_true_eq]
      omega
  have hperm := (List.mergeSort_perm items fun a b => a.index ≤ b.index).map (·.index)
  have hdiffer := List.pairwise_map.mp (hperm.nodup_iff.mpr h)
  refine (hsorted.and hdiffer).imp fun {a b} hab => ?_
  have := of_decide_eq_true hab.1
  have := hab.2
  omega

/-- Numbered items are told apart by their numbers. -/
theorem Numbered.nodup (h : Numbered items) : (items.map (·.index)).Nodup :=
  List.pairwise_map.mpr (h.imp fun hab => Nat.ne_of_lt hab)

/-- No item precedes another that precedes it. -/
private instance : Std.Antisymm fun a b : Item => a.index < b.index :=
  ⟨fun _ _ hab hba => absurd hab (Nat.lt_asymm hba)⟩

/-- The items that rank highest are items. -/
private theorem chosen_subperm (n : Nat) (items : List Item) :
    ((items.mergeSort notOlder).take n).Subperm items :=
  (List.take_sublist _ _).subperm.trans (List.mergeSort_perm _ _).subperm

/-- The most recent items are items. -/
private theorem latest_subperm (n : Nat) (items : List Item) : (latest n items).Subperm items := by
  exact (List.mergeSort_perm _ _).subperm.trans (chosen_subperm n items)

/-- The most recent items are numbered, too. -/
private theorem numbered_latest (h : Numbered items) : Numbered (latest n items) := by
  apply numbered_mergeSort
  obtain ⟨chosen, hperm, hsub⟩ := chosen_subperm n items
  rw [← (hperm.map _).nodup_iff]
  exact h.nodup.sublist (hsub.map _)

/-- The most recent items come in the order of the feed. -/
theorem latest_sublist (h : Numbered items) : (latest n items).Sublist items :=
  List.sublist_of_subperm_of_pairwise (latest_subperm n items) (numbered_latest h) h

/-- Of no more items than are asked for all are the most recent. -/
theorem latest_eq_self (h : Numbered items) (hlength : items.length ≤ n) :
    latest n items = items := by
  have htake : (items.mergeSort notOlder).take n = items.mergeSort notOlder :=
    List.take_of_length_le (by rw [List.length_mergeSort]; exact hlength)
  have hperm : (latest n items).Perm items := by
    unfold latest
    rw [htake]
    exact (List.mergeSort_perm _ _).trans (List.mergeSort_perm _ _)
  exact hperm.eq_of_pairwise' (numbered_latest h) h

/-- No more items are chosen than are asked for. -/
theorem length_latest_le (n : Nat) (items : List Item) : (latest n items).length ≤ n := by
  unfold latest
  rw [List.length_mergeSort]
  exact List.length_take_le _ _

/-- The most recent items are selected of any feed. -/
theorem select_latest (names : Option (List Text)) (n : Nat) (items : List Item) :
    select names (.latest n) items = .ok (latest n items) := by
  unfold select
  split
  case isTrue hempty =>
    rw [List.isEmpty_iff.mp hempty]
    simp [latest]
  case isFalse => rfl

-- ============================================================ selecting

/-- What is selected of numbered items stands in them in their order. -/
theorem select_sublist (hnumbered : Numbered items) (h : select names p items = .ok kept) :
    kept.Sublist items := by
  by_cases hlatest : ∃ n, p = .latest n
  · obtain ⟨n, rfl⟩ := hlatest
    rw [select_latest] at h
    rw [← Except.ok.inj h]
    exact latest_sublist hnumbered
  · obtain ⟨-, rfl⟩ := (select_eq_ok_iff fun n hn => hlatest ⟨n, hn⟩).mp h
    exact List.filter_sublist

/-- What is selected of numbered items stands in them in their order, and is
selected of itself as a whole; a feed in two parts may be asked part by part
unless the most recent items are asked for. -/
theorem select_stable (names : Option (List Text)) (p : Predicate) :
    (∀ items kept, Numbered items → select names p items = .ok kept →
      kept.Sublist items ∧ select names p kept = .ok kept)
    ∧ ((∀ n, p ≠ .latest n) → ∀ xs ys selected, select names p (xs ++ ys) = .ok selected
        ↔ ∃ first second, select names p xs = .ok first ∧ select names p ys = .ok second
            ∧ selected = first ++ second) := by
  constructor
  · intro items kept hnumbered h
    refine ⟨select_sublist hnumbered h, ?_⟩
    by_cases hlatest : ∃ n, p = .latest n
    · obtain ⟨n, rfl⟩ := hlatest
      rw [select_latest] at h
      obtain rfl := Except.ok.inj h
      rw [select_latest, latest_eq_self (numbered_latest hnumbered) (length_latest_le n items)]
    · have hp : ∀ n, p ≠ .latest n := fun n hn => hlatest ⟨n, hn⟩
      obtain ⟨htell, rfl⟩ := (select_eq_ok_iff hp).mp h
      refine (select_eq_ok_iff hp).mpr ⟨?_, ?_⟩
      · intro hmissing item hitem
        exact htell hmissing item (List.mem_of_mem_filter hitem)
      · rw [List.filter_filter]
        simp only [Bool.and_self]
  · intro hp xs ys selected
    simp only [select_eq_ok_iff hp, tellable_append_iff, List.filter_append]
    constructor
    · rintro ⟨⟨hxs, hys⟩, rfl⟩
      exact ⟨_, _, ⟨hxs, rfl⟩, ⟨hys, rfl⟩, rfl⟩
    · rintro ⟨first, second, ⟨hxs, rfl⟩, ⟨hys, rfl⟩, rfl⟩
      exact ⟨⟨hxs, hys⟩, rfl⟩

/-- The two most recent of three items, and those of them that are missing. -/
theorem select_stable_three :
    ∃ items kept : List Item, items.length = 3 ∧ Numbered items
      ∧ select none (.latest 2) items = .ok kept ∧ kept.length = 2
      ∧ kept.Sublist items ∧ select none (.latest 2) kept = .ok kept
      ∧ ∃ first second, select (some ["b".toList]) .notexists (items.take 2) = .ok first
          ∧ select (some ["b".toList]) .notexists (items.drop 2) = .ok second
          ∧ first.length = 1 ∧ second.length = 1
          ∧ select (some ["b".toList]) .notexists items = .ok (first ++ second) := by
  let published (day : Nat) : Option Calendar.Moment :=
    (Calendar.Date.ofParts? 2024 1 day).map fun date => .midnight date (some 0)
  let item (index : Nat) (title : Text) (day : Nat) : Item :=
    ⟨index, title, [], published day, none, none, none, none, none, none⟩
  let items : List Item := [item 1 "a" 9, item 2 "b" 3, item 3 "c" 8]
  have hnumbered : Numbered items := by
    unfold Numbered
    decide
  have hlatest : select none (.latest 2) items = .ok (latest 2 items) := rfl
  have hlength : (latest 2 items).length = 2 := by
    rw [latest, List.length_mergeSort, List.length_take, List.length_mergeSort]
    rfl
  have hstable := (select_stable none (.latest 2)).1 items _ hnumbered hlatest
  have hfirst : select (some ["b".toList]) .notexists (items.take 2) = .ok [item 1 "a" 9] := rfl
  have hsecond : select (some ["b".toList]) .notexists (items.drop 2) = .ok [item 3 "c" 8] := rfl
  have hboth := ((select_stable (some ["b".toList]) .notexists).2 (by simp) (items.take 2)
    (items.drop 2) _).mpr ⟨_, _, hfirst, hsecond, rfl⟩
  exact ⟨items, _, rfl, hnumbered, hlatest, hlength, hstable.1, hstable.2, _, _, hfirst, hsecond,
    rfl, rfl, hboth⟩

end FeedSieve.Query
