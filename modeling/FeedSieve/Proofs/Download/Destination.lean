/-
The directory that files are downloaded to.

Making a destination takes nothing away: it adds directories where nothing
was (`prepare_grown`), and none if the destination is there already
(`prepare_of_isDirectory?`). What is made is a directory, in which the user may
make entries (`prepare_spec`).

In a directory the file of an item, and the one beside it, are the entries
of these names (`spots_child`), so files of different names have nothing to
do with each other.
-/
import FeedSieve.Download.Destination
import FeedSieve.Proofs.Download.AllOrNothing
import FeedSieve.Proofs.Files.Grown

namespace FeedSieve.Download

open Files (Path Place Tree)

variable {access : Tree → Path → Bool} {t t' : Tree} {destination : Path} {directory : Place}
  {name : Text}

-- ========================================================= destinations

/-- Making a destination adds directories where nothing was. -/
theorem prepare_grown (access : Tree → Path → Bool) (t : Tree) (destination : Path) :
    t.Grown (prepare access t destination).1 := by
  have hgrown := (Tree.makeAll_along t destination).grown
  unfold prepare
  generalize t.makeAll destination = made at hgrown ⊢
  obtain ⟨made, fault⟩ := made
  cases fault with
  | some fault => exact hgrown
  | none =>
      simp only
      split <;> exact hgrown

/-- What is made is a directory in which the user may make entries. -/
theorem prepare_spec (h : prepare access t destination = (t', none)) :
    t.Grown t' ∧ access t' destination = true
      ∧ ∃ directory, t'.find destination = .ok directory ∧ t'.at? directory = some .directory := by
  have hgrown := prepare_grown access t destination
  rw [h] at hgrown
  unfold prepare at h
  split at h
  case h_1 => cases h
  case h_2 made _ =>
    split at h
    case h_1 hmade =>
      obtain ⟨rfl, hwritable⟩ := Prod.mk.inj h
      refine ⟨hgrown, ?_, Tree.isDirectory?_eq_ok_true_iff.mp hmade⟩
      by_contra hnot
      rw [if_neg hnot] at hwritable
      cases hwritable
    case h_2 => cases h
    case h_3 => cases h

/-- A destination that is there needs nothing to be made. -/
theorem prepare_of_isDirectory? (h : t.isDirectory? destination = .ok true) :
    prepare access t destination
      = (t, if access t destination then none else some (.unwritable destination)) := by
  have hmade : t.makeAll destination = (t, none) := by
    obtain ⟨place, hfind, hat⟩ := Tree.isDirectory?_eq_ok_true_iff.mp h
    obtain ⟨root, parts⟩ := destination
    unfold Tree.makeAll
    cases hparts : parts.reverse with
    | nil =>
        obtain rfl := List.reverse_eq_nil_iff.mp hparts
        simp [Tree.makeAllAt, Tree.unlessThere, h]
    | cons last earlier =>
        obtain rfl : parts = (last :: earlier).reverse := by rw [← hparts, List.reverse_reverse]
        have hthere : t.makeOne ⟨root, (last :: earlier).reverse⟩
            = .error (.refused .present (Path.text ⟨root, (last :: earlier).reverse⟩) none) := by
          unfold Tree.makeOne
          simp only [hfind, bind, Except.bind, hat]
          rfl
        rw [Tree.makeAllAt]
        simp only [hthere, Tree.unlessThere, h]
        rfl
  unfold prepare
  rw [hmade]
  simp only [h]

/-- The file beside one in a directory is in it as well. -/
theorem partPath?_child (destination : Path) (hname : name ≠ []) :
    partPath? (destination.child name) = some (destination.child (name ++ partEnding)) :=
  partPath?_eq_some_iff.mpr ⟨destination.parts, name, rfl, hname, rfl⟩

/-- In a directory a file and the one beside it are the entries of these
names. -/
theorem spots_child (hfind : t.find destination = .ok directory) (hname : name ≠ [])
    (hback : name ≠ "..".toList) :
    Spots t (destination.child name) (directory ++ [name]) (directory ++ [name ++ partEnding]) := by
  refine ⟨fun other hother => Tree.find_child hfind hback hother, fun part other hpart hother => ?_,
    fun h => ?_⟩
  · rw [partPath?_child destination hname] at hpart
    obtain rfl := Option.some.inj hpart
    exact Tree.find_child hfind (append_partEnding_ne name) hother
  · have := congrArg List.length (List.singleton_inj.mp (List.append_cancel_left h))
    simp [partEnding] at this

end FeedSieve.Download
