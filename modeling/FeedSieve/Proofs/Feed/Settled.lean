/-
Texts that reading leaves alone.

The text of an element is trimmed and mended, that of an address loses the
slashes it has too many of, and the ampersands of a link are written out. A
text goes through all of this unchanged if and only if each of these steps
leaves it alone and there is no return in it, because what goes through them
gets shorter or stays as it is (`cleaned_eq_self_iff`,
`cleanedAddress_eq_self_iff`, `mendLink_eq_self_iff`). Where a text may be taken
for a page, what the library makes of that comes in between
(`Library.Keeps`).
-/
import FeedSieve.Proofs.Feed.Elements
import FeedSieve.Proofs.Text.Shrinking

namespace FeedSieve.Feed

open Charset (mended)
open Reader (mendLink withoutExcess)

variable {library : Library} {manner : Manner} {t : Text}

-- ============================================================== links

/-- Slashes in excess are left out. -/
theorem withoutExcess_sublist (t : Text) : (withoutExcess t).Sublist t := by
  unfold withoutExcess
  split
  case h_2 => exact List.Sublist.refl _
  case h_1 c scheme rest hcut =>
    obtain ⟨rfl, -⟩ := Text.cut_eq_some_iff.mp hcut
    dsimp only
    split
    case isFalse => exact List.Sublist.refl _
    case isTrue =>
      rw [List.append_assoc]
      refine List.Sublist.append_left ?_ _
      exact ((List.dropWhile_sublist _).cons_cons '/').cons_cons '/' |>.cons_cons ':'

/-- What stands behind an ampersand, with it. -/
private def mendPiece (piece : Text) : Text :=
  match Text.cut ';' piece with
  | (word, some after) =>
      let isWord (c : Char) : Bool := Text.isLetter c || Text.isPlainDigit c || c = '_'
      if word = "amp".toList then '&' :: after
      else if !word.isEmpty && word.all isWord then '&' :: word ++ after
      else '&' :: piece
  | _ => '&' :: piece

/-- The word is left out, or the semicolon behind it. -/
private theorem mendPiece_sublist (piece : Text) : (mendPiece piece).Sublist ('&' :: piece) := by
  unfold mendPiece
  split
  case h_2 => exact List.Sublist.refl _
  case h_1 word after hcut =>
    obtain ⟨rfl, -⟩ := Text.cut_eq_some_iff.mp hcut
    have hafter : after.Sublist (';' :: after) := List.sublist_cons_self _ _
    dsimp only
    split
    · exact (hafter.trans (List.sublist_append_right _ _)).cons_cons '&'
    · split
      · exact (hafter.append_left word).cons_cons '&'
      · exact List.Sublist.refl _

private theorem mendPieces_sublist (t : Text) :
    ((Text.splitOn '&' t).map mendPiece).flatten.Sublist ('&' :: t) := by
  induction t using Text.pieces_induction '&' with
  | last t hnot =>
      rw [Text.splitOn_of_notMem hnot]
      simpa using mendPiece_sublist t
  | more a b hnot ih =>
      rw [Text.splitOn_append hnot, List.map_cons, List.flatten_cons]
      exact (mendPiece_sublist a).append ih

/-- Of the ampersands of a link something is left out. -/
theorem mendLink_sublist (t : Text) : (mendLink t).Sublist t := by
  have hlink {first : Text} {rest : List Text} (h : Text.splitOn '&' t = first :: rest) :
      mendLink t = first ++ (rest.map mendPiece).flatten := by
    unfold mendLink
    rw [h]
    rfl
  rcases Text.mark_cases '&' t with hnot | ⟨a, b, rfl, hnot⟩
  · rw [hlink (Text.splitOn_of_notMem hnot), List.map_nil, List.flatten_nil, List.append_nil]
  · rw [hlink (Text.splitOn_append hnot)]
    exact (mendPieces_sublist b).append_left a

/-- A link comes back unless it has slashes in excess or ampersands that are
written out, or is mended. -/
theorem mendLink_eq_self_iff : mendLink (mended (withoutExcess t)) = t
    ↔ withoutExcess t = t ∧ mended t = t ∧ mendLink t = t := by
  have hlink : Text.Shrinks mendLink := Text.shrinks_of_sublist mendLink_sublist
  have hexcess : Text.Shrinks withoutExcess := Text.shrinks_of_sublist withoutExcess_sublist
  rw [hexcess.eq_self_iff_inner fun t => (hlink.length_le _).trans (Charset.length_mended_le t),
    hlink.eq_self_iff_outer Charset.length_mended_le]

-- =============================================================== texts

/-- No returns are left. -/
private theorem notMem_unifyLines (t : Text) : '\r' ∉ Xml.unifyLines t := by
  induction t using Xml.unifyLines.induct with
  | case1 => exact List.not_mem_nil
  | case2 t ih =>
      rw [Xml.unifyLines]
      simpa using ih
  | case3 t hnot ih =>
      rw [Xml.unifyLines]
      · simpa using ih
      · exact hnot
  | case4 c t _ hc ih =>
      rw [Xml.unifyLines_cons hc]
      simpa [Ne.symm hc] using ih

private theorem length_unifyLines_le (t : Text) : (Xml.unifyLines t).length ≤ t.length := by
  induction t using Xml.unifyLines.induct with
  | case1 => exact Nat.le_refl _
  | case2 t ih =>
      rw [Xml.unifyLines]
      simp only [List.length_cons]
      omega
  | case3 t hnot ih =>
      rw [Xml.unifyLines]
      · simpa using ih
      · exact hnot
  | case4 c t _ hc ih =>
      rw [Xml.unifyLines_cons hc]
      simpa using ih

/-- If a text comes back mended, there is no return in it. -/
private theorem notMem_of_mended {cut : Text → Text} (hcut : ∀ t, (cut t).Sublist t)
    (h : mended (cut (Xml.unifyLines t)) = t) : '\r' ∉ t := by
  have hlength : t.length ≤ (cut (Xml.unifyLines t)).length := by
    conv_lhs => rw [← h]
    exact Charset.length_mended_le _
  have hsame : (cut (Xml.unifyLines t)).length = t.length :=
    Nat.le_antisymm ((hcut _).length_le.trans (length_unifyLines_le t)) hlength
  rw [← h, Charset.mended_eq_map (by rw [h, hsame])]
  exact Charset.notMem_map_meantChar fun hmem => notMem_unifyLines t ((hcut _).subset hmem)

/-- The text of an element comes back unless it has returns in it or blanks
at its ends, or is mended. -/
theorem cleaned_eq_self_iff :
    cleaned t = t ↔ '\r' ∉ t ∧ Text.trim t = t ∧ mended t = t := by
  have htrim : mended (Text.trim t) = t ↔ Text.trim t = t ∧ mended t = t :=
    Text.shrinks_trim.eq_self_iff_inner Charset.length_mended_le
  constructor
  · intro h
    have hnot := notMem_of_mended Text.trim_sublist h
    rw [cleaned, Xml.unifyLines_of_notMem hnot] at h
    exact ⟨hnot, htrim.mp h⟩
  · rintro ⟨hnot, h⟩
    rw [cleaned, Xml.unifyLines_of_notMem hnot]
    exact htrim.mpr h

/-- That of an address must not have slashes in excess either. -/
theorem cleanedAddress_eq_self_iff : cleanedAddress t = t
    ↔ '\r' ∉ t ∧ Text.trim t = t ∧ withoutExcess t = t ∧ mended t = t := by
  have hexcess : Text.Shrinks withoutExcess := Text.shrinks_of_sublist withoutExcess_sublist
  have htrim : mended (withoutExcess (Text.trim t)) = t
      ↔ Text.trim t = t ∧ withoutExcess t = t ∧ mended t = t := by
    rw [Text.shrinks_trim.eq_self_iff_inner
      fun t => (Charset.length_mended_le _).trans (hexcess.length_le t),
      hexcess.eq_self_iff_inner Charset.length_mended_le]
  constructor
  · intro h
    have hnot := notMem_of_mended
      (fun t => (withoutExcess_sublist _).trans (Text.trim_sublist t)) h
    rw [cleanedAddress, Xml.unifyLines_of_notMem hnot] at h
    exact ⟨hnot, htrim.mp h⟩
  · rintro ⟨hnot, h⟩
    rw [cleanedAddress, Xml.unifyLines_of_notMem hnot]
    exact htrim.mpr h

-- =============================================================== pages

/-- What a text that is taken in some way comes to: nothing breaks it off, and
this is kept of it. -/
theorem Library.map_mended_eq_ok_iff {u : Text} :
    (library.purify manner false (Text.trim (Xml.unifyLines t))).map mended = .ok u
      ↔ library.flaw? manner t = none ∧ library.cleaned manner t = u := by
  unfold flaw? cleaned fault? kept
  cases library.purify manner false (Text.trim (Xml.unifyLines t)) with
  | error what => exact ⟨fun h => (by cases h), fun h => (by cases h.1)⟩
  | ok v =>
      show Except.ok (mended v) = Except.ok u ↔ _
      rw [Except.ok.injEq]
      exact (and_iff_right rfl).symm

/-- The library leaves a text alone that is taken in some way: trimmed, made
harmless if it is a page, and mended, it is the same. -/
def Library.Keeps (library : Library) (manner : Manner) (t : Text) : Prop :=
  (library.purify manner false (Text.trim (Xml.unifyLines t))).map mended = .ok t

theorem Library.keeps_iff :
    library.Keeps manner t ↔ library.flaw? manner t = none ∧ library.cleaned manner t = t :=
  map_mended_eq_ok_iff

instance : Decidable (library.Keeps manner t) :=
  decidable_of_iff (library.flaw? manner t = none ∧ library.cleaned manner t = t)
    Library.keeps_iff.symm

/-- A text that is harmless is left alone as any other text. -/
theorem Library.keeps_iff_of_harmless
    (h : library.purify manner false (Text.trim (Xml.unifyLines t))
      = .ok (Text.trim (Xml.unifyLines t))) :
    library.Keeps manner t ↔ '\r' ∉ t ∧ Text.trim t = t ∧ mended t = t := by
  unfold Keeps
  rw [h, ← cleaned_eq_self_iff]
  show Except.ok (Feed.cleaned t) = Except.ok t ↔ _
  rw [Except.ok.injEq]

end FeedSieve.Feed
