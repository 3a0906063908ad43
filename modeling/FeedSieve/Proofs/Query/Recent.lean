/-
The most recent items.

Items are ranked by the instants at which they were published, and by their
numbers where these are the same. Items of one feed are told apart by their
numbers, so ranking puts each of them strictly above those behind it
(`pairwise_ranked`), and whatever is chosen from the top ranks above
whatever is left. There is one part of the feed of a given length with that
property, and it is what is selected (`select_latest_top`).

An item without a date is ranked by the first moment of the calendar. Dates
that are written ahead of UTC on the first day of the calendar reach back
to it and beyond, and only these do (`instant_lt_first_iff`). So an item
without a date comes behind all that have one, except for such dates
(`undated_last_iff`).
-/
import Mathlib.Data.List.Nodup
import FeedSieve.Proofs.Calendar.First
import FeedSieve.Proofs.Query.Stable

namespace FeedSieve.Query

open Calendar (Date Moment)
open Feed (Item)

variable {items kept : List Item} {a b : Item} {m : Moment} {n : Nat}

-- ============================================================= ranking

/-- Whether an item ranks above another: it was published at a later instant,
or at the same one, and has the greater number. -/
def RanksAbove (a b : Item) : Prop :=
  instantOf b < instantOf a ∨ instantOf b = instantOf a ∧ b.index < a.index

/-- Of two items only one ranks above the other. -/
theorem RanksAbove.asymm (h : RanksAbove a b) : ¬ RanksAbove b a := by
  unfold RanksAbove at h ⊢
  omega

/-- An item that is at least as recent as another ranks above it, unless they
have one number. -/
theorem ranksAbove_of_notOlder (h : notOlder a b = true) (hne : a.index ≠ b.index) :
    RanksAbove a b := by
  unfold notOlder at h
  simp only [Bool.or_eq_true, Bool.and_eq_true, decide_eq_true_eq, beq_iff_eq] at h
  rcases h with hlater | ⟨hsame, hindex⟩
  · exact Or.inl hlater
  · exact Or.inr ⟨hsame.symm, by omega⟩

/-- The items by rank, the highest first. -/
def ranked (items : List Item) : List Item := items.mergeSort notOlder

theorem mem_ranked : a ∈ ranked items ↔ a ∈ items := List.mem_mergeSort

/-- Each of numbered items ranks above those behind it. -/
theorem pairwise_ranked (h : Numbered items) : (ranked items).Pairwise RanksAbove := by
  have hsorted : (ranked items).Pairwise fun a b => notOlder a b = true := by
    unfold ranked
    apply List.pairwise_mergeSort
    · intro a b c hab hbc
      unfold notOlder at hab hbc ⊢
      simp only [Bool.or_eq_true, Bool.and_eq_true, decide_eq_true_eq, beq_iff_eq] at hab hbc ⊢
      omega
    · intro a b
      unfold notOlder
      simp only [Bool.or_eq_true, Bool.and_eq_true, decide_eq_true_eq, beq_iff_eq]
      omega
  have hperm : ((ranked items).map (·.index)).Perm (items.map (·.index)) :=
    (List.mergeSort_perm items notOlder).map _
  have hdiffer := List.pairwise_map.mp (hperm.nodup_iff.mpr h.nodup)
  exact (hsorted.and hdiffer).imp fun hab => ranksAbove_of_notOlder hab.1 hab.2

-- ============================================================ choosing

/-- Chosen are the items of the highest ranks. -/
theorem mem_latest : a ∈ latest n items ↔ a ∈ (ranked items).take n := by
  unfold latest ranked
  exact List.mem_mergeSort

/-- As many are chosen as are asked for, if there are so many. -/
theorem length_latest (n : Nat) (items : List Item) :
    (latest n items).length = min n items.length := by
  unfold latest
  rw [List.length_mergeSort, List.length_take, List.length_mergeSort]

/-- Whatever is chosen ranks above whatever is left. -/
theorem ranksAbove_of_mem_latest (h : Numbered items) (ha : a ∈ latest n items) (hb : b ∈ items)
    (hleft : b ∉ latest n items) : RanksAbove a b := by
  have hsplit := pairwise_ranked h
  rw [← List.take_append_drop n (ranked items), List.pairwise_append] at hsplit
  rw [mem_latest] at ha hleft
  have hdrop : b ∈ (ranked items).drop n := by
    rw [← mem_ranked, ← List.take_append_drop n (ranked items), List.mem_append] at hb
    exact hb.resolve_left hleft
  exact hsplit.2.2 a ha b hdrop

/-- An item can be chosen without another exactly if it ranks above it. -/
theorem exists_latest_iff (h : Numbered items) (ha : a ∈ items) (hb : b ∈ items) :
    (∃ n, 1 ≤ n ∧ a ∈ latest n items ∧ b ∉ latest n items) ↔ RanksAbove a b := by
  constructor
  · rintro ⟨n, -, hchosen, hleft⟩
    exact ranksAbove_of_mem_latest h hchosen hb hleft
  · intro habove
    obtain ⟨higher, lower, hsplit⟩ := List.append_of_mem (mem_ranked.mpr ha)
    have hranks := pairwise_ranked h
    have htake : (ranked items).take (higher.length + 1) = higher ++ [a] := by
      rw [hsplit, List.take_length_add_append]
      rfl
    rw [hsplit, List.pairwise_append] at hranks
    refine ⟨higher.length + 1, Nat.le_add_left _ _, ?_, ?_⟩
    · rw [mem_latest, htake]
      exact List.mem_append_right _ List.mem_cons_self
    · rw [mem_latest, htake, List.mem_append, List.mem_singleton]
      rintro (hhigher | rfl)
      · exact habove.asymm (hranks.2.2 b hhigher a List.mem_cons_self)
      · exact habove.asymm habove

/-- Of two parts of numbered items that are equally long, one has nothing the
other lacks if in both whatever is there ranks above whatever is not. -/
private theorem subset_of_top {others : List Item} (hdiffer : kept.Nodup)
    (hlength : others.length ≤ kept.length) (hkept : kept ⊆ items) (hothers : others ⊆ items)
    (htop : ∀ a ∈ kept, ∀ b ∈ items, b ∉ kept → RanksAbove a b)
    (htop' : ∀ a ∈ others, ∀ b ∈ items, b ∉ others → RanksAbove a b) : others ⊆ kept := by
  intro b hb
  by_contra hnot
  have hsmall : ¬ kept ⊆ others := by
    intro hsub
    have hperm := (List.subperm_of_subset hdiffer hsub).perm_of_length_le hlength
    exact hnot (hperm.mem_iff.mpr hb)
  obtain ⟨a, ha, hleft⟩ : ∃ a, a ∈ kept ∧ a ∉ others := by
    by_contra hnone
    exact hsmall fun a ha => by_contra fun hleft => hnone ⟨a, ha, hleft⟩
  exact (htop a ha b (hothers hb) hnot).asymm (htop' b hb a (hkept ha) hleft)

/-- A part of numbered items with as many items as are chosen, each of which
ranks above each that is left, is what is chosen. -/
theorem eq_latest_of_top {others : List Item} (h : Numbered items) (hsub : others.Sublist items)
    (hlength : others.length = min n items.length)
    (htop : ∀ a ∈ others, ∀ b ∈ items, b ∉ others → RanksAbove a b) : others = latest n items := by
  have hlatest := latest_sublist (n := n) h
  have hdiffer : items.Nodup := h.nodup.of_map _
  have hsame : others.length = (latest n items).length := hlength.trans (length_latest n items).symm
  have hinto : others ⊆ latest n items :=
    subset_of_top (hdiffer.sublist hlatest) hsame.le hlatest.subset hsub.subset
      (fun a ha b hb hleft => ranksAbove_of_mem_latest h ha hb hleft) htop
  have hperm := (List.subperm_of_subset (hdiffer.sublist hsub) hinto).perm_of_length_le hsame.ge
  exact hperm.eq_of_pairwise' (h.sublist hsub) (h.sublist hlatest)

/-- The `n` most recent of numbered items are a part of them in their order,
with `n` items if there are so many, and each of these ranks above each that
is left. There is no other part like that. -/
theorem select_latest_top (names : Option (List Text)) (n : Nat) (h : Numbered items) :
    ∃ kept, select names (.latest n) items = .ok kept
      ∧ kept.Sublist items ∧ kept.Nodup ∧ kept.length = min n items.length
      ∧ (∀ a ∈ kept, ∀ b ∈ items, b ∉ kept → RanksAbove a b)
      ∧ ∀ others : List Item, others.Sublist items → others.length = min n items.length →
          (∀ a ∈ others, ∀ b ∈ items, b ∉ others → RanksAbove a b) → others = kept := by
  have hsub := latest_sublist (n := n) h
  have hdiffer : items.Nodup := h.nodup.of_map _
  refine ⟨latest n items, select_latest names n items, hsub, hdiffer.sublist hsub,
    length_latest n items, ?_, ?_⟩
  · intro a ha b hb hleft
    exact ranksAbove_of_mem_latest h ha hb hleft
  · intro others hothers hlength htop
    exact eq_latest_of_top h hothers hlength htop

/-- Of four items the first three are the same instant, once in UTC, once
ahead of it and once on the day before, and the last has no date: the two
most recent are those with the greater numbers among the three. -/
theorem select_latest_top_offsets :
    ∃ items kept : List Item, Numbered items ∧ select none (.latest 2) items = .ok kept
      ∧ kept.map (·.index) = [2, 3] ∧ kept.Sublist items
      ∧ ∀ a ∈ kept, ∀ b ∈ items, b ∉ kept → RanksAbove a b := by
  let published (day hour : Nat) (offset : Int) : Option Moment :=
    (Date.ofParts? 2024 3 day).bind fun date => Moment.ofClock? date hour 0 0 0 (some offset)
  let item (index : Nat) (publishedAt : Option Moment) : Item :=
    ⟨index, [], [], publishedAt, none, none, none, none, none, none⟩
  let items : List Item := [item 1 (published 1 1 0), item 2 (published 1 3 7200),
    item 3 (published 1 0 (-3600)), item 4 none]
  have hnumbered : Numbered items := by
    unfold Numbered
    decide
  obtain ⟨kept, hkept, hsub, -, -, htop, hunique⟩ := select_latest_top none 2 hnumbered
  have hothers : (items.drop 1).take 2 = kept := by
    refine hunique _ ((List.take_sublist _ _).trans (List.drop_sublist _ _)) (by decide) ?_
    unfold RanksAbove
    decide
  refine ⟨items, kept, hnumbered, hkept, ?_, hsub, htop⟩
  rw [← hothers]
  rfl

-- ======================================================== without date

/-- Whether the date of an item lets it fall behind another that has none: it
is a time of the first day that its offset reaches past, or just reaches if
the other item has the greater number. -/
def FallsBehind (b a : Item) : Prop :=
  ∃ m, b.publishedAt = some m ∧ m.date = Date.first
    ∧ ((m.micros : Int) < m.ahead ∨ (m.micros : Int) = m.ahead ∧ b.index < a.index)

/-- An item without a date ranks above those that fall behind it. -/
theorem ranksAbove_undated_iff (ha : a.publishedAt = none) (hb : b.publishedAt = some m)
    (hnear : m.IsNear) : RanksAbove a b ↔ FallsBehind b a := by
  have hinstant : instantOf a = Moment.first.instant := by
    unfold instantOf
    rw [ha]
    rfl
  have hinstant' : instantOf b = m.instant := by
    unfold instantOf
    rw [hb]
    rfl
  unfold RanksAbove FallsBehind
  rw [hinstant, hinstant', Moment.instant_lt_first_iff hnear, Moment.instant_eq_first_iff hnear]
  constructor
  · rintro (⟨hdate, hpast⟩ | ⟨⟨hdate, hjust⟩, hindex⟩)
    · exact ⟨m, hb, hdate, Or.inl hpast⟩
    · exact ⟨m, hb, hdate, Or.inr ⟨hjust, hindex⟩⟩
  · rintro ⟨m', hb', hdate, hreach⟩
    obtain rfl := Option.some.inj (hb.symm.trans hb')
    rcases hreach with hpast | ⟨hjust, hindex⟩
    · exact Or.inl ⟨hdate, hpast⟩
    · exact Or.inr ⟨⟨hdate, hjust⟩, hindex⟩

/-- An item with a date is among the most recent whenever one without a date
is, exactly if it falls behind none of these. -/
theorem undated_last_iff (names : Option (List Text)) (h : Numbered items) (hb : b ∈ items)
    (hdated : b.publishedAt = some m) (hnear : m.IsNear) :
    (∀ n kept, 1 ≤ n → select names (.latest n) items = .ok kept →
        (∃ a ∈ kept, a.publishedAt = none) → b ∈ kept)
      ↔ ∀ a ∈ items, a.publishedAt = none → ¬ FallsBehind b a := by
  constructor
  · intro hlast a ha hundated hbehind
    have habove := (ranksAbove_undated_iff hundated hdated hnear).mpr hbehind
    obtain ⟨n, hn, hchosen, hleft⟩ := (exists_latest_iff h ha hb).mpr habove
    exact hleft (hlast n _ hn (select_latest names n items) ⟨a, hchosen, hundated⟩)
  · rintro hnone n kept hn hkept ⟨a, ha, hundated⟩
    rw [select_latest] at hkept
    obtain rfl := Except.ok.inj hkept
    by_contra hleft
    have hmem : a ∈ items := (latest_sublist h).subset ha
    have habove := (exists_latest_iff h hmem hb).mp ⟨n, hn, ha, hleft⟩
    exact hnone a hmem hundated ((ranksAbove_undated_iff hundated hdated hnear).mp habove)

/-- A date an hour after the first moment, written an hour ahead of UTC and
another, comes before an item without a date. -/
theorem undated_last_iff_early :
    ∃ (items : List Item) (b : Item) (m : Moment), Numbered items ∧ b ∈ items
      ∧ b.publishedAt = some m ∧ m.IsNear ∧ m.date = Date.first ∧ 0 < m.ahead
      ∧ ∀ n kept, 1 ≤ n → select none (.latest n) items = .ok kept →
        (∃ a ∈ kept, a.publishedAt = none) → b ∈ kept := by
  let m : Moment := ⟨Date.first, 2 * 3600000000, some 3600, by decide⟩
  let b : Item := ⟨1, [], [], some m, none, none, none, none, none, none⟩
  let a : Item := ⟨2, [], [], none, none, none, none, none, none, none⟩
  have hnumbered : Numbered [b, a] := by
    unfold Numbered
    decide
  have hnear : m.IsNear := by
    unfold Moment.IsNear
    decide
  refine ⟨[b, a], b, m, hnumbered, List.mem_cons_self, rfl, hnear, rfl, by decide, ?_⟩
  refine (undated_last_iff none hnumbered List.mem_cons_self rfl hnear).mpr ?_
  rintro a' ha' hundated ⟨m', hm', hdate, hreach⟩
  obtain rfl := Option.some.inj hm'
  rcases hreach with hpast | ⟨hjust, -⟩
  · exact absurd hpast (by decide)
  · exact absurd hjust (by decide)

/-- The first hour of the calendar an hour ahead of UTC is before its first
moment: an item with that date is left out, and one without a date is the
most recent. -/
theorem undated_most_recent :
    ∃ (items kept : List Item) (a b : Item), Numbered items
      ∧ select none (.latest 1) items = .ok kept ∧ a ∈ kept ∧ a.publishedAt = none
      ∧ b ∈ items ∧ b.publishedAt = some (.midnight Date.first (some 3600)) ∧ b ∉ kept := by
  let b : Item :=
    ⟨1, [], [], some (.midnight Date.first (some 3600)), none, none, none, none, none, none⟩
  let a : Item := ⟨2, [], [], none, none, none, none, none, none, none⟩
  have hnumbered : Numbered [b, a] := by
    unfold Numbered
    decide
  have hlatest : [a] = latest 1 [b, a] := by
    refine eq_latest_of_top hnumbered (List.sublist_cons_self b [a]) rfl ?_
    unfold RanksAbove
    decide
  have hselect : select none (.latest 1) [b, a] = .ok [a] := congrArg _ hlatest.symm
  have hother : b ∉ [a] := by decide
  exact ⟨[b, a], [a], a, b, hnumbered, hselect, List.mem_cons_self, rfl, List.mem_cons_self, rfl,
    hother⟩

end FeedSieve.Query
