/-
What the names of files are like.

A name begins with a character that is neither a space nor a point
(`fileName_begins`), so it is never empty and never leads back: within a
directory it names an entry of it.

An item has no name only because of its address (`fileName_eq_error_iff`):
if its type is not a known one, and it has an address, and that cannot be
taken apart.
-/
import FeedSieve.Download.Naming
import FeedSieve.Proofs.Text.Parts

namespace FeedSieve.Download

variable {item : Feed.Item} {name t : Text} {destination path : Files.Path} {why : Url.Broken}

-- =============================================================== names

/-- What is dropped at the ends of a name does not begin a safe one. -/
theorem sanitize_first {c : Char} (h : (sanitize t).head? = some c) : isMargin c = false := by
  let core := Text.strip isMargin (Text.squeeze (t.map fun c => if isUnsafe c then '-' else c))
  have hkept : sanitize t <+: core.take stemLength := Text.stripEnd_prefix isMargin _
  obtain ⟨after, hafter⟩ := hkept.trans (List.take_prefix stemLength core)
  have hhead : core.head? = some c := by
    rw [← hafter, List.head?_append, h]
    rfl
  have hcore : core ≠ [] := by
    intro hempty
    rw [hempty] at hhead
    cases hhead
  exact (Text.firm_strip hcore).first c hhead

/-- A safe name with something in it begins with something else. -/
private theorem sanitize_begins (hne : sanitize t ≠ []) :
    ∃ c rest, sanitize t = c :: rest ∧ isMargin c = false := by
  obtain ⟨c, rest, hsafe⟩ := List.exists_cons_of_ne_nil hne
  exact ⟨c, rest, hsafe, sanitize_first (by rw [hsafe]; rfl)⟩

/-- Nor a name without extension: what follows if there is neither a title
nor an identifier does not begin so either. -/
private theorem stem_begins (item : Feed.Item) :
    ∃ c rest, stem item = c :: rest ∧ isMargin c = false := by
  unfold stem
  simp only
  split
  case isTrue htitle => exact sanitize_begins (by simpa using htitle)
  case isFalse =>
    split
    case isTrue hguid => exact sanitize_begins (by simpa using hguid)
    case isFalse => exact ⟨'i', _, rfl, by decide⟩

/-- An item has a name if its extension can be told. -/
theorem fileName_eq_ok_iff : fileName item = .ok name ↔ ∃ extension, extension? item = .ok extension
    ∧ name = match extension with
      | some extension => Text.concat [stem item, ".", extension]
      | none => stem item := by
  unfold fileName
  cases extension? item with
  | error why => simp [bind, Except.bind]
  | ok extension => cases extension <;> simp [bind, Except.bind, pure, Except.pure, eq_comm]

/-- A name begins with neither a space nor a point. -/
theorem fileName_begins (h : fileName item = .ok name) :
    ∃ c rest, name = c :: rest ∧ isMargin c = false := by
  obtain ⟨extension, -, rfl⟩ := fileName_eq_ok_iff.mp h
  obtain ⟨c, rest, hstem, hc⟩ := stem_begins item
  cases extension with
  | none => exact ⟨c, rest, hstem, hc⟩
  | some extension =>
      refine ⟨c, rest ++ Text.concat [".", extension], ?_, hc⟩
      show stem item ++ Text.concat [".", extension] = _
      rw [hstem]
      rfl

/-- A name is not empty. -/
theorem fileName_ne_nil (h : fileName item = .ok name) : name ≠ [] := by
  obtain ⟨c, rest, rfl, -⟩ := fileName_begins h
  exact List.cons_ne_nil _ _

/-- A name does not lead back. -/
theorem fileName_ne_back (h : fileName item = .ok name) : name ≠ "..".toList := by
  obtain ⟨c, rest, rfl, hc⟩ := fileName_begins h
  intro hback
  obtain ⟨rfl, -⟩ := List.cons.inj hback
  revert hc
  decide

/-- Every item has a name. -/
def Named (items : List Feed.Item) : Prop := ∀ item ∈ items, ∃ name, fileName item = .ok name

theorem named_nil : Named [] := fun _ hmem => nomatch hmem

/-- The path of a file is its name within the directory. -/
theorem filePath_eq_ok_iff : filePath item destination = .ok path
    ↔ ∃ name, fileName item = .ok name ∧ path = destination.child name := by
  unfold filePath
  cases fileName item <;> simp [bind, Except.bind, pure, Except.pure, eq_comm]

/-- Items that have names have paths. -/
theorem named_iff (items : List Feed.Item) (destination : Files.Path) :
    Named items ↔ ∀ item ∈ items, ∃ path, filePath item destination = .ok path := by
  unfold Named
  refine forall_congr' fun item => forall_congr' fun _ => ?_
  constructor
  · rintro ⟨name, hname⟩
    exact ⟨_, filePath_eq_ok_iff.mpr ⟨name, hname, rfl⟩⟩
  · rintro ⟨path, hpath⟩
    obtain ⟨name, hname, -⟩ := filePath_eq_ok_iff.mp hpath
    exact ⟨name, hname⟩

-- =========================================================== addresses

/-- The type of the enclosure of an item says what extension its file has. -/
def HasKnownType (item : Feed.Item) : Prop :=
  ((item.enclosureType.filter (!·.isEmpty)).bind MediaType.extension?).isSome = true

/-- An item has no name if its type is not a known one and its address cannot
be taken apart, and only then. -/
theorem fileName_eq_error_iff : fileName item = .error why
    ↔ ¬ HasKnownType item ∧ ∃ url, item.enclosureUrl = some url ∧ url ≠ []
      ∧ Url.split url = .error why := by
  have hname : fileName item = .error why ↔ extension? item = .error why := by
    unfold fileName
    cases extension? item with
    | error why => simp [bind, Except.bind]
    | ok extension => cases extension <;> simp [bind, Except.bind, pure, Except.pure]
  rw [hname]
  unfold extension? HasKnownType
  cases (item.enclosureType.filter (!·.isEmpty)).bind MediaType.extension? with
  | some extension => simp
  | none =>
      simp only [Option.isSome_none, Bool.false_eq_true, not_false_iff, true_and]
      cases item.enclosureUrl with
      | none => simp
      | some url =>
          simp only [Option.some.injEq, exists_eq_left']
          by_cases hurl : url = []
          · simp [hurl]
          · have hempty : url.isEmpty = false := by simpa using hurl
            rw [hempty]
            unfold urlExtension?
            cases Url.split url <;> simp [hurl, bind, Except.bind, pure, Except.pure]

end FeedSieve.Download
