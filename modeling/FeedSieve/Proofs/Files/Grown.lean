/-
Directories that are made.

Making a directory, and those it is in as far as they are missing, takes
nothing away. A tree that has `Grown` has directories where nothing was and
is otherwise the same, so every path still leads where it led
(`Grown.find_eq_ok`). Where the new directories are is known, too: they are
those along the path (`makeAll_along`), also if making them was refused on
the way.
-/
import FeedSieve.Proofs.Files.Tree

namespace FeedSieve.Files

-- =============================================================== names

/-- The last name of a path within a directory. -/
@[simp] theorem Path.name_child (p : Path) (name : Text) : (p.child name).name = name := by
  unfold Path.name Path.child
  simp

namespace Tree

variable {t t' : Tree} {p : Path} {place goal : Place} {names : List Text} {root : Root}

-- ============================================================= growing

/-- A tree has directories that another has nothing instead of, and is
otherwise the same. -/
def Grown (t t' : Tree) : Prop :=
  ∀ place, t'.at? place = t.at? place
    ∨ t.at? place = none ∧ t'.at? place = some .directory

/-- What is anywhere stays. -/
theorem Grown.at?_eq_some {node : Node} (h : Grown t t') (hat : t.at? place = some node) :
    t'.at? place = some node := by
  rcases h place with hsame | ⟨hnone, -⟩
  · exact hsame.trans hat
  · rw [hat] at hnone
    cases hnone

/-- A walk that gets to its end still does. -/
theorem Grown.walk_eq_ok (h : Grown t t') (hwalk : t.walk place names = .ok goal) :
    t'.walk place names = .ok goal := by
  induction names using List.reverseRecOn generalizing goal with
  | nil => exact hwalk
  | append_singleton names name ih =>
      obtain ⟨directory, hearlier, hdirectory, hlast⟩ := (walk_concat t _ _ _ _).mp hwalk
      refine (walk_concat t' _ _ _ _).mpr
        ⟨directory, ih hearlier, hdirectory.imp_right h.at?_eq_some, ?_⟩
      rw [walk_singleton_eq_ok_iff] at hlast ⊢
      exact hlast

/-- A path that leads anywhere still leads there. -/
theorem Grown.find_eq_ok (h : Grown t t') (hfind : t.find p = .ok place) :
    t'.find p = .ok place := by
  obtain ⟨hnul, hplace⟩ := find_eq_ok_iff.mp hfind
  refine find_eq_ok_iff.mpr ⟨hnul, ?_⟩
  unfold Tree.place at hplace ⊢
  split at hplace
  case isTrue => cases hplace
  case isFalse hlong => rw [if_neg hlong, h.walk_eq_ok hplace]

/-- What is at a path is still there. -/
theorem Grown.stat_eq_ok {node : Node} (h : Grown t t') (hstat : t.stat p = .ok node) :
    t'.stat p = .ok node := by
  obtain ⟨place, hfind, hat⟩ := stat_eq_ok_iff.mp hstat
  exact stat_eq_ok_iff.mpr ⟨place, h.find_eq_ok hfind, h.at?_eq_some hat⟩

-- ====================================================== along a path

/-- A tree has grown, and the new directories are some of those along a path:
the beginnings of the path lead to them. -/
def GrownAlong (p : Path) (t t' : Tree) : Prop :=
  ∀ place, t'.at? place = t.at? place
    ∨ t.at? place = none ∧ t'.at? place = some .directory
      ∧ ∃ names, names <+: p.parts ∧ t'.find ⟨p.root, names⟩ = .ok place

/-- Such a tree has grown. -/
theorem GrownAlong.grown (h : GrownAlong p t t') : Grown t t' :=
  fun place => (h place).imp_right fun h => ⟨h.1, h.2.1⟩

theorem GrownAlong.refl (p : Path) (t : Tree) : GrownAlong p t t := fun _ => Or.inl rfl

theorem GrownAlong.trans {t'' : Tree} (h : GrownAlong p t t') (h' : GrownAlong p t' t'') :
    GrownAlong p t t'' := by
  intro place
  rcases h place with hsame | ⟨hnone, hmade, names, hnames, hfind⟩
  · rw [← hsame]
    exact h' place
  · exact Or.inr ⟨hnone, h'.grown.at?_eq_some hmade, names, hnames, h'.grown.find_eq_ok hfind⟩

/-- What is along the beginning of a path is along the path. -/
theorem GrownAlong.mono {parts : List Text} (h : GrownAlong ⟨root, names⟩ t t')
    (hnames : names <+: parts) : GrownAlong ⟨root, parts⟩ t t' :=
  fun place => (h place).imp_right fun ⟨hnone, hmade, earlier, hearlier, hfind⟩ =>
    ⟨hnone, hmade, earlier, hearlier.trans hnames, hfind⟩

/-- A directory that is made is made where nothing was, and where its path
leads. -/
theorem makeOne_along (h : t.makeOne p = .ok t') : GrownAlong p t t' := by
  obtain ⟨place, hfind, hat, rfl⟩ := makeOne_eq_ok_iff.mp h
  have hset := at?_set t .directory (ne_nil_of_at? (t := t) (by simp [hat]) : place ≠ [])
  have hgrown : Grown t (t.set place .directory) := by
    intro other
    rw [hset]
    by_cases hother : other = place
    · subst hother
      exact Or.inr ⟨hat, if_pos rfl⟩
    · exact Or.inl (if_neg hother)
  intro other
  refine (hgrown other).imp_right fun ⟨hnone, hmade⟩ => ⟨hnone, hmade, p.parts, ?_, ?_⟩
  · exact List.prefix_refl _
  · -- the only place that has changed is the one that the path leads to
    have hother : other = place := by
      by_contra hother
      rw [hset, if_neg hother, hnone] at hmade
      cases hmade
    rw [hother]
    exact hgrown.find_eq_ok hfind

/-- Nor does making those that it is in take anything away. The names are
given backwards. -/
theorem makeAllAt_along (t : Tree) (root : Root) (backwards : List Text) :
    GrownAlong ⟨root, backwards.reverse⟩ t (t.makeAllAt root backwards).1 := by
  induction backwards generalizing t with
  | nil => exact .refl _ t
  | cons last earlier ih =>
      rw [makeAllAt]
      split
      case h_1 made hmade => exact makeOne_along hmade
      case h_2 =>
        have hearlier : GrownAlong ⟨root, (last :: earlier).reverse⟩ t
            (t.makeAllAt root earlier).1 := by
          refine (ih t).mono ?_
          rw [List.reverse_cons]
          exact List.prefix_append _ _
        split
        case h_1 made fault heq =>
          rw [heq] at hearlier
          exact hearlier
        case h_2 made heq =>
          rw [heq] at hearlier
          split
          case h_1 made' hmade => exact hearlier.trans (makeOne_along hmade)
          case h_2 => exact hearlier
          case h_3 => exact hearlier
      case h_3 => exact .refl _ t

/-- Making a directory and those it is in makes none but these. -/
theorem makeAll_along (t : Tree) (p : Path) : GrownAlong p t (t.makeAll p).1 := by
  have h := makeAllAt_along t p.root p.parts.reverse
  rw [List.reverse_reverse] at h
  exact h

end Tree

end FeedSieve.Files
