/-
The file beside the wanted one.

A body is written to a file beside the one that is wanted, whose name is
that of the wanted one with an ending. This file says where it is: in the
same directory, at another place (`place_of_part`). It also says what is in
it: the pieces of a body put together are the body (`flatten_pieces`), and
writing them one behind the other puts them together (`overwritten_end`).
-/
import Mathlib.Data.List.Flatten
import FeedSieve.Download.Flight
import FeedSieve.Proofs.Files.Tree
import FeedSieve.Proofs.Text.Parts
import FeedSieve.Proofs.Text.Utf8

namespace FeedSieve.Download

open Files (Path Place Tree)
open Http (Response)

variable {t t' : Tree} {path part : Path} {place beside : Place} {bytes : Bytes}

-- ============================================================= beside

/-- What the name of a file beside another ends with. -/
def partEnding : Text := ".part"

/-- There is a file beside every path that has a last name. -/
theorem partPath?_eq_some_iff :
    partPath? path = some part ↔ ∃ names name, path.parts = names ++ [name] ∧ name ≠ []
      ∧ part = ⟨path.root, names ++ [name ++ partEnding]⟩ := by
  obtain ⟨root, parts⟩ := path
  unfold partPath? Path.withName Path.child Path.parent Path.name
  cases parts using List.reverseRecOn with
  | nil => simp
  | append_singleton names name =>
      simp only [List.getLast?_concat, Option.getD_some, List.dropLast_concat, List.isEmpty_iff]
      constructor
      · intro h
        split at h
        case isTrue => cases h
        case isFalse hname => exact ⟨names, name, rfl, hname, (Option.some.inj h).symm⟩
      · rintro ⟨names', name', hparts, hname, rfl⟩
        obtain ⟨rfl, hsame⟩ := List.append_inj' hparts rfl
        obtain rfl := List.singleton_inj.mp hsame
        rw [if_neg hname]
        rfl

/-- The text of the path beside is that of the path with the ending. -/
theorem text_of_partPath? (h : partPath? path = some part) :
    part.text = path.text ++ partEnding := by
  obtain ⟨names, name, hparts, hname, rfl⟩ := partPath?_eq_some_iff.mp h
  obtain ⟨root, parts⟩ := path
  obtain rfl : parts = names ++ [name] := hparts
  have hbody : Path.rootText root ++ Text.joinWith "/".toList (names ++ [name]) ≠ [] := by
    intro hnil
    have hjoin := (List.append_eq_nil_iff.mp hnil).2
    cases names with
    | nil => exact hname hjoin
    | cons first rest =>
        cases rest <;> simp [Text.joinWith] at hjoin
  unfold Path.text
  simp only [Text.joinWith_concat_append, ← List.append_assoc, List.isEmpty_iff, hbody, if_false]
  rw [if_neg fun hnil => hbody (List.append_eq_nil_iff.mp hnil).1]

/-- A text takes no less room than a beginning of it. -/
theorem size_le_size_append (s t : Text) : Utf8.size s ≤ Utf8.size (s ++ t) := by
  rw [Utf8.size_append]
  exact Nat.le_add_right _ _

/-- The last name of the path beside does not lead back. -/
theorem append_partEnding_ne (name : Text) : name ++ partEnding ≠ "..".toList := by
  intro h
  have := congrArg List.length h
  simp [partEnding] at this

/-- Where the path beside leads somewhere the wanted one leads to another
place: to its name in the same directory, unless the name leads back. -/
theorem place_of_part (h : partPath? path = some part) (hbeside : t.place part = .ok beside) :
    ∃ place, t.place path = .ok place ∧ place ≠ beside := by
  have htext := text_of_partPath? h
  obtain ⟨names, name, hparts, hname, rfl⟩ := partPath?_eq_some_iff.mp h
  unfold Tree.place at hbeside
  rw [htext] at hbeside
  have hsize := size_le_size_append path.text partEnding
  split at hbeside
  case isTrue => cases hbeside
  case isFalse hshort =>
    obtain ⟨directory, hwalk, hdirectory, hlast⟩ := (Tree.walk_concat t _ _ _ _).mp hbeside
    rcases (Tree.walk_singleton_eq_ok_iff t _ _ _).mp hlast with ⟨hback, -⟩ | ⟨-, hlong, rfl⟩
    · exact absurd hback (append_partEnding_ne name)
    · have hplace : ∀ place, t.walk directory [name] = .ok place → t.place path = .ok place := by
        intro place hstep
        unfold Tree.place
        rw [if_neg (by omega), hparts]
        exact (Tree.walk_concat t _ _ _ _).mpr ⟨directory, hwalk, hdirectory, hstep⟩
      by_cases hback : name = "..".toList
      · refine ⟨directory.dropLast, hplace _ ?_, fun hsame => ?_⟩
        · exact (Tree.walk_singleton_eq_ok_iff t _ _ _).mpr (Or.inl ⟨hback, rfl⟩)
        · have := congrArg List.length hsame
          simp at this
      · have hfits := size_le_size_append name partEnding
        refine ⟨directory ++ [name], hplace _ ?_, fun hsame => ?_⟩
        · exact (Tree.walk_singleton_eq_ok_iff t _ _ _).mpr
            (Or.inr ⟨hback, Nat.le_trans hfits hlong, rfl⟩)
        · have := congrArg List.length
            (List.singleton_inj.mp (List.append_cancel_left hsame))
          simp [partEnding] at this

/-- The two paths do not lead to one place. -/
theorem place_ne_of_part (h : partPath? path = some part) (place : Place)
    (hbeside : t.place part = .ok place) : t.place path ≠ .ok place := by
  intro hplace
  obtain ⟨other, hother, hne⟩ := place_of_part h hbeside
  exact hne (Except.ok.inj (hother.symm.trans hplace))

/-- Where the file beside is found the wanted one is found at another place. -/
theorem find_of_part (h : partPath? path = some part) (hbeside : t.find part = .ok beside) :
    ∃ place, t.find path = .ok place ∧ place ≠ beside := by
  obtain ⟨hnul, hbeside⟩ := Tree.find_eq_ok_iff.mp hbeside
  rw [text_of_partPath? h] at hnul
  obtain ⟨place, hplace, hne⟩ := place_of_part h hbeside
  exact ⟨place, Tree.find_eq_ok_iff.mpr
    ⟨fun hmem => hnul (List.mem_append_left _ hmem), hplace⟩, hne⟩

-- ============================================================= pieces

/-- As many pieces as there is room for put together are the bytes. -/
theorem flatten_cutPieces (most : Nat) (h : bytes.length ≤ most * pieceSize) :
    (cutPieces most bytes).flatten = bytes := by
  induction most generalizing bytes with
  | zero =>
      obtain rfl : bytes = [] := List.eq_nil_of_length_eq_zero (by omega)
      rfl
  | succ most ih =>
      rw [cutPieces]
      split
      case isTrue hnil => rw [List.isEmpty_iff.mp hnil]; rfl
      case isFalse =>
        rw [List.flatten_cons, ih, List.take_append_drop]
        rw [List.length_drop]
        rw [Nat.succ_mul] at h
        omega

/-- The pieces of a complete body put together are the body. -/
theorem flatten_pieces {response : Response} (h : response.broken = none) :
    (pieces response).flatten = response.chunks.flatten := by
  unfold pieces
  rw [h]
  refine flatten_cutPieces _ ?_
  have hpos : 0 < pieceSize := by decide
  have := Nat.lt_div_mul_add hpos (a := response.chunks.flatten.length)
  rw [Option.isSome_none, if_neg Bool.false_ne_true, Nat.succ_mul]
  omega

/-- A piece written at the end goes behind what is there. -/
theorem overwritten_end (content piece : Bytes) :
    Tree.overwritten content content.length piece = content ++ piece := by
  unfold Tree.overwritten
  simp

end FeedSieve.Download
