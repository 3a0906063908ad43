/-
Selecting what does not exist.

An item does not exist if the name of its file is not among the names that
are there (`mem_missing_iff`). That can be told if every item has a name,
whether it is selected or not, and only then (`exists_missing_iff`).
-/
import FeedSieve.Proofs.Download.Naming
import FeedSieve.Query.Selection

namespace FeedSieve.Query

open Download (fileName Named named_nil)

variable {names : List Text} {items kept : List Feed.Item} {item : Feed.Item} {name : Text}

/-- Of an item that has a name it can be told whether it exists. -/
private theorem isMissing_eq_ok (names : List Text) (hname : fileName item = .ok name) :
    isMissing names item = .ok (!names.contains name) := by
  unfold isMissing
  rw [hname]

/-- Of one that has none it cannot. -/
private theorem isMissing_eq_error {why : Url.Broken} (names : List Text)
    (hname : fileName item = .error why) : isMissing names item = .error (.url why) := by
  unfold isMissing
  rw [hname]

/-- What does not exist can be told if every item has a name, and only then. -/
private theorem exists_missingAmong_iff (names : List Text) (items : List Feed.Item) :
    (∃ kept, missingAmong names items = .ok kept) ↔ Named items := by
  induction items with
  | nil => simp [missingAmong, Named]
  | cons item rest ih =>
      have hcons : Named (item :: rest) ↔ (∃ name, fileName item = .ok name) ∧ Named rest :=
        List.forall_mem_cons
      rw [hcons, ← ih, missingAmong]
      cases hname : fileName item with
      | error why => simp [isMissing_eq_error names hname, bind, Except.bind]
      | ok name =>
          rw [isMissing_eq_ok names hname]
          cases missingAmong names rest <;> simp [bind, Except.bind, pure, Except.pure]

/-- What is left of a list that begins with an item. -/
private theorem missingAmong_cons {first : Feed.Item} {rest : List Feed.Item}
    (h : missingAmong names (first :: rest) = .ok kept) :
    ∃ name others, fileName first = .ok name ∧ missingAmong names rest = .ok others
      ∧ kept = if names.contains name then others else first :: others := by
  rw [missingAmong] at h
  cases hname : fileName first with
  | error why =>
      rw [isMissing_eq_error names hname] at h
      cases h
  | ok name =>
      rw [isMissing_eq_ok names hname] at h
      cases hrest : missingAmong names rest with
      | error why =>
          rw [hrest] at h
          cases h
      | ok others =>
          rw [hrest] at h
          refine ⟨name, others, rfl, rfl, (Except.ok.inj h).symm.trans ?_⟩
          cases names.contains name <;> rfl

/-- Kept are the items whose names are not there. -/
private theorem mem_missingAmong_iff (h : missingAmong names items = .ok kept)
    (item : Feed.Item) :
    item ∈ kept ↔ item ∈ items ∧ ∃ name, fileName item = .ok name ∧ name ∉ names := by
  induction items generalizing kept with
  | nil =>
      obtain rfl := Except.ok.inj h
      simp
  | cons first rest ih =>
      obtain ⟨name, others, hname, hothers, rfl⟩ := missingAmong_cons h
      have ih := ih hothers
      rw [List.mem_cons, or_and_right, ← ih]
      have hfirst : item = first ∧ (∃ name, fileName item = .ok name ∧ name ∉ names)
          ↔ item = first ∧ name ∉ names := by
        constructor
        · rintro ⟨rfl, name', hname', hnot⟩
          obtain rfl := Except.ok.inj (hname'.symm.trans hname)
          exact ⟨rfl, hnot⟩
        · rintro ⟨rfl, hnot⟩
          exact ⟨rfl, name, hname, hnot⟩
      rw [hfirst]
      by_cases hthere : name ∈ names
      · simp [hthere]
      · simp [hthere]

/-- If an item has no name, the first of these is the reason why nothing can
be told. -/
private theorem missingAmong_error_of_not_named (h : ¬ Named items) :
    ∃ item before after why, items = before ++ item :: after ∧ Named before
      ∧ fileName item = .error why ∧ ∀ names, missingAmong names items = .error (.url why) := by
  induction items with
  | nil => exact absurd named_nil h
  | cons first rest ih =>
      cases hname : fileName first with
      | error why =>
          refine ⟨first, [], rest, why, rfl, named_nil, hname, fun names => ?_⟩
          rw [missingAmong, isMissing_eq_error names hname]
          rfl
      | ok name =>
          have hrest : ¬ Named rest :=
            fun hrest => h (List.forall_mem_cons.mpr ⟨⟨name, hname⟩, hrest⟩)
          obtain ⟨item, before, after, why, rfl, hbefore, hbroken, herror⟩ := ih hrest
          refine ⟨item, first :: before, after, why, rfl,
            List.forall_mem_cons.mpr ⟨⟨name, hname⟩, hbefore⟩, hbroken, fun names => ?_⟩
          rw [missingAmong, isMissing_eq_ok names hname, herror names]
          rfl

/-- Selecting what does not exist is looking for the names that are not there. -/
private theorem select_notexists (names : List Text) (items : List Feed.Item) :
    select (some names) .notexists items = missingAmong names items := by
  unfold select
  cases items <;> rfl

/-- What does not exist can be selected if every item has a name, and only
then. -/
theorem exists_missing_iff (names : List Text) (items : List Feed.Item) :
    (∃ kept, select (some names) .notexists items = .ok kept) ↔ Named items := by
  rw [select_notexists]
  exact exists_missingAmong_iff names items

/-- If an item has no name, nothing can be selected; the first of these is the
reason. -/
theorem missing_error_of_not_named (h : ¬ Named items) :
    ∃ item before after why, items = before ++ item :: after ∧ Named before
      ∧ fileName item = .error why
      ∧ ∀ names, select (some names) .notexists items = .error (.url why) := by
  obtain ⟨item, before, after, why, hitems, hbefore, hbroken, herror⟩ :=
    missingAmong_error_of_not_named h
  exact ⟨item, before, after, why, hitems, hbefore, hbroken, fun names =>
    (select_notexists names items).trans (herror names)⟩

/-- Selected are the items whose names are not there. -/
theorem mem_missing_iff (h : select (some names) .notexists items = .ok kept)
    (item : Feed.Item) :
    item ∈ kept ↔ item ∈ items ∧ ∃ name, fileName item = .ok name ∧ name ∉ names :=
  mem_missingAmong_iff (select_notexists names items ▸ h) item

end FeedSieve.Query
