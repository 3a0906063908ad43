/-
Paths that can be written.

A file can be written at a path if the directories it is in are there or can be
made, and nothing but a file stands at its end (`Writable`). It makes no
difference what is written. Whether there is something at such a path can be
told before the directories are made (`Writable.exists_exists?`): of all that
can be wrong with a path only names that are too long keep that from being
told, and these would be as long afterwards.
-/
import FeedSieve.Proofs.Files.Tree

namespace FeedSieve.Files.Tree

variable {t t' : Tree} {p : Path} {place goal : Place} {names : List Text}

/-- A file can be written at a path, once the directories it is in are made. -/
structure Writable (t : Tree) (p : Path) : Prop where
  parents : (t.makeAll p.parent).2 = none
  place : ∃ place, (t.makeAll p.parent).1.find p = .ok place
    ∧ (t.makeAll p.parent).1.Admits place

theorem Writable.exists_write (h : t.Writable p) (content : Bytes) (mode : Nat) :
    ∃ t', (t.makeAll p.parent).1.write p content mode = .ok t' := by
  obtain ⟨place, hfind, hadmits⟩ := h.place
  exact ⟨_, write_eq_ok_iff.mpr ⟨place, hfind, hadmits, rfl⟩⟩

/-- Names along which one tree is walked are not too long for another. -/
theorem walk_ne_nameTooLong (h : t'.walk place names = .ok goal) :
    t.walk place names ≠ .error .nameTooLong := by
  induction names generalizing place with
  | nil => exact fun hlong => by cases hlong
  | cons name rest ih =>
      rw [walk] at h ⊢
      generalize (if name = "..".toList then Except.ok place.dropLast
        else if nameLimit < Utf8.size name then .error Reason.nameTooLong
        else .ok (place ++ [name]) : Except Reason Place) = next at h ⊢
      cases next with
      | error reason => cases h
      | ok next =>
          cases rest with
          | nil => exact fun hlong => by cases hlong
          | cons second more =>
              simp only [List.isEmpty_cons, Bool.false_eq_true, if_false] at h ⊢
              split at h
              · split
                · exact ih h
                · exact fun hlong => by cases hlong
                · exact fun hlong => by cases hlong
              · cases h
              · cases h

/-- Whether there is something at a path that can be written can be told. -/
theorem Writable.exists_exists? (h : t.Writable p) : ∃ there, t.exists? p = .ok there := by
  obtain ⟨place, hfind, -⟩ := h.place
  obtain ⟨hnul, hplace⟩ := find_eq_ok_iff.mp hfind
  have hshort : t.place p ≠ .error .nameTooLong := by
    unfold Tree.place at hplace ⊢
    split at hplace
    · cases hplace
    · rename_i hlength
      rw [if_neg hlength]
      exact walk_ne_nameTooLong hplace
  unfold exists? check stat find
  rw [if_neg (by simpa using hnul)]
  cases hat : t.place p with
  | ok place =>
      simp only [bind, Except.bind]
      cases t.at? place with
      | none => exact ⟨false, rfl⟩
      | some node => exact ⟨true, rfl⟩
  | error reason =>
      refine ⟨false, ?_⟩
      cases reason with
      | nameTooLong => exact absurd hat hshort
      | _ => rfl

end FeedSieve.Files.Tree
