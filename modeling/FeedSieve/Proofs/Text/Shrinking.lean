/-
What only takes away.

Much of what is done to a text that is read only takes characters away, so
that a text it does not shorten it does not change either (`Shrinks`).
Trimming is such (`shrinks_trim`), and so is undoing that the bytes of a text
were taken for characters (`shrinks_undoubled`). If several such things done
in a row give the text back, then each of them has left it alone, because
what has been taken away does not come again (`Shrinks.eq_self_iff_inner`,
`Shrinks.eq_self_iff_outer`).

Mending also puts characters in the place of others, but lengthens nothing
(`length_mended_le`); where it does not shorten either it goes character by
character (`mended_eq_map`), and no return comes of anything else
(`notMem_map_meantChar`).
-/
import FeedSieve.Proofs.Text.Parts
import FeedSieve.Proofs.Text.Utf8
import FeedSieve.Text.Charset

namespace FeedSieve.Text

variable {f g : Text → Text} {t : Text}

-- ========================================================== shrinking

/-- A function that leaves a text alone or makes it shorter. -/
def Shrinks (f : Text → Text) : Prop := ∀ t, f t = t ∨ (f t).length < t.length

namespace Shrinks

theorem length_le (h : Shrinks f) (t : Text) : (f t).length ≤ t.length := by
  rcases h t with h | h
  · exact Nat.le_of_eq (congrArg List.length h)
  · exact Nat.le_of_lt h

/-- What is not shorter is the same. -/
theorem eq_self (h : Shrinks f) (t : Text) (hlength : (f t).length = t.length) : f t = t := by
  rcases h t with h | h
  · exact h
  · exact absurd hlength (Nat.ne_of_lt h)

/-- What is taken away does not come again. -/
theorem eq_self_iff_inner (hg : Shrinks g) (hf : ∀ t, (f t).length ≤ t.length) :
    f (g t) = t ↔ g t = t ∧ f t = t := by
  constructor
  · intro h
    have hlength : (g t).length = t.length := by
      have hle := hf (g t)
      rw [h] at hle
      exact Nat.le_antisymm (hg.length_le t) hle
    have hsame := hg.eq_self t hlength
    exact ⟨hsame, by rw [hsame] at h; exact h⟩
  · rintro ⟨hg, hf⟩
    rw [hg, hf]

/-- Nor does what is taken away last come of what has been taken before. -/
theorem eq_self_iff_outer (hf : Shrinks f) (hg : ∀ t, (g t).length ≤ t.length) :
    f (g t) = t ↔ g t = t ∧ f t = t := by
  constructor
  · intro h
    have hlength : (f (g t)).length = (g t).length := by
      refine Nat.le_antisymm (hf.length_le _) ?_
      rw [h]
      exact hg t
    have hsame : g t = t := (hf.eq_self _ hlength).symm.trans h
    exact ⟨hsame, by rw [hsame] at h; exact h⟩
  · rintro ⟨hg, hf⟩
    rw [hg, hf]

end Shrinks

/-- What only leaves characters out shrinks. -/
theorem shrinks_of_sublist (h : ∀ t, (f t).Sublist t) : Shrinks f := fun t =>
  (Nat.lt_or_eq_of_le (h t).length_le).elim .inr fun heq => .inl ((h t).eq_of_length heq)

theorem trim_sublist (t : Text) : (trim t).Sublist t := (padded_strip isBlank t).part.sublist

theorem shrinks_trim : Shrinks trim := shrinks_of_sublist trim_sublist

end FeedSieve.Text

namespace FeedSieve.Charset

open Text (Shrinks)

variable {t : Text}

-- ============================================================ mending

/-- Undoing a double encoding takes bytes together. -/
theorem shrinks_undoubled : Shrinks undoubled := by
  intro t
  unfold undoubled
  split
  case isFalse => exact .inl rfl
  case isTrue hbytes =>
    cases h : Utf8.decode (t.map fun c => c.toNat.toUInt8) with
    | error why => exact .inl rfl
    | ok meant =>
        have hle := Utf8.length_decode_le h
        rw [List.length_map] at hle
        refine (Nat.lt_or_eq_of_le hle).elim .inr fun hlength => .inl ?_
        show meant = t
        rw [Utf8.decode_eq_map_of_length h (by simpa using hlength), List.map_map]
        refine (List.map_congr_left fun c hc => ?_).trans (List.map_id t)
        have hbyte : c.toNat < 0x100 := of_decide_eq_true (List.all_eq_true.mp hbytes c hc)
        show Char.ofNat c.toNat.toUInt8.toNat = c
        rw [Nat.toUInt8, UInt8.toNat_ofNat', Nat.mod_eq_of_lt hbyte, Char.ofNat_toNat]

/-- Mending makes nothing longer. -/
theorem length_mended_le (t : Text) : (mended t).length ≤ t.length := by
  rw [mended, List.length_map]
  exact shrinks_undoubled.length_le t

/-- Where it makes nothing shorter, only single characters are changed. -/
theorem mended_eq_map (h : (mended t).length = t.length) : mended t = t.map meantChar := by
  rw [mended, List.length_map] at h
  rw [mended, shrinks_undoubled.eq_self t h]

/-- No return is put in the place of a character. -/
theorem notMem_map_meantChar (h : '\r' ∉ t) : '\r' ∉ t.map meantChar := by
  have hall : ∀ i < 32, Char.ofNat (windowsWesternTable.getD i 0) ≠ '\r' := by decide +kernel
  intro hmem
  obtain ⟨c, hc, hmeant⟩ := List.mem_map.mp hmem
  unfold meantChar at hmeant
  split at hmeant
  case isFalse => exact h (hmeant ▸ hc)
  case isTrue hrange =>
    simp only [Bool.and_eq_true, decide_eq_true_eq] at hrange
    split at hmeant
    · exact h (hmeant ▸ hc)
    · exact hall (c.toNat - 0x80) (by omega) hmeant

end FeedSieve.Charset
