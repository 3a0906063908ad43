/-
Paths that come back from what is written.

Reading a path drops what makes no difference, so the names along it are
never empty, never a single point, and hold no slash (`tidy_ofText`). A path
with such names is written in a way that is read as the same path
(`Tidy.ofText_text`): between them, the slashes can be told from the names, and
the first name from the root.
-/
import FeedSieve.Files.Path
import FeedSieve.Proofs.Text.Parts

namespace FeedSieve.Files.Path

open Text (joinWith splitOn)

/-- The names along a path are names as they are written. -/
def Tidy (p : Path) : Prop := ∀ name ∈ p.parts, name ≠ [] ∧ name ≠ ['.'] ∧ '/' ∉ name

/-- Paths that are read are tidy. -/
theorem tidy_ofText (t : Text) : (ofText t).Tidy := by
  intro name hname
  obtain ⟨hpiece, hkept⟩ := List.mem_filter.mp hname
  simp only [Bool.and_eq_true, Bool.not_eq_true', List.isEmpty_eq_false_iff, bne_iff_ne] at hkept
  exact ⟨hkept.1, hkept.2, (Text.of_mem_splitOn hpiece).2⟩

variable {p : Path}

/-- The names of a tidy path are found between its slashes. -/
private theorem Tidy.namesOf_joinWith (h : p.Tidy) : namesOf (joinWith "/" p.parts) = p.parts := by
  have hnames : p.parts.filter (fun name => !name.isEmpty && name != ['.']) = p.parts := by
    rw [List.filter_eq_self]
    intro name hname
    obtain ⟨hne, hpoint, -⟩ := h name hname
    simp [hne, hpoint]
  cases hparts : p.parts with
  | nil => rfl
  | cons first rest =>
      rw [← hparts, namesOf, show joinWith "/" p.parts = joinWith ['/'] p.parts from rfl,
        Text.splitOn_joinWith (by simp [hparts]) fun name hname => (h name hname).2.2]
      exact hnames

/-- What a tidy path is written as, behind its root, does not begin with a
slash. -/
private theorem Tidy.head?_joinWith (h : p.Tidy) : (joinWith "/" p.parts).head? ≠ some '/' := by
  cases hparts : p.parts with
  | nil => simp [joinWith]
  | cons first rest =>
      obtain ⟨hne, -, hslash⟩ := h first (by simp [hparts])
      obtain ⟨c, name, rfl⟩ := List.exists_cons_of_ne_nil hne
      have hc : c ≠ '/' := fun hc => hslash (hc ▸ List.mem_cons_self)
      cases rest <;> simpa [joinWith] using hc

/-- The slashes of a root are no part of the names. -/
private theorem namesOf_rootText (root : Root) (t : Text) :
    namesOf (rootText root ++ t) = namesOf t := by
  have hslash (t : Text) : namesOf ('/' :: t) = namesOf t := by
    rw [namesOf, splitOn, if_pos rfl]
    exact List.filter_cons_of_neg (by simp)
  cases root with
  | here => rfl
  | top => exact hslash t
  | other => exact (hslash ('/' :: t)).trans (hslash t)

/-- They tell the root if no slash follows them. -/
private theorem rootOf_rootText {t : Text} (h : t.head? ≠ some '/') (root : Root) :
    rootOf (rootText root ++ t) = root := by
  cases t with
  | nil => cases root <;> rfl
  | cons c rest =>
      have hc : c ≠ '/' := fun hc => h (by rw [List.head?_cons, hc])
      cases root with
      | here =>
          show rootOf (c :: rest) = .here
          unfold rootOf
          split <;> simp_all
      | top =>
          show rootOf ('/' :: c :: rest) = .top
          unfold rootOf
          split <;> simp_all
      | other =>
          show rootOf ('/' :: '/' :: c :: rest) = .other
          rw [rootOf, if_neg hc]

/-- A tidy path comes back from what is written. -/
theorem Tidy.ofText_text (h : p.Tidy) : ofText p.text = p := by
  have hnames : namesOf (rootText p.root ++ joinWith "/" p.parts) = p.parts :=
    (namesOf_rootText p.root _).trans h.namesOf_joinWith
  have hroot := rootOf_rootText h.head?_joinWith p.root
  have hboth {t : Text} (hroot : rootOf t = p.root) (hnames : namesOf t = p.parts) :
      ofText t = p := by
    rw [ofText, hroot, hnames]
  unfold text
  dsimp only
  split
  case isTrue hempty =>
    -- the directory at hand is written as a point
    rw [List.isEmpty_iff.mp hempty] at hroot hnames
    exact hboth hroot hnames
  case isFalse => exact hboth hroot hnames

end FeedSieve.Files.Path
