/-
Single spaces.

Squeezing a text leaves no blank in it but spaces, and no two of these next
to each other. A text that is like that already is left as it is
(`squeeze_eq_self_iff`), and so is every part of it.
-/
import Mathlib.Data.List.Chain
import FeedSieve.Text.Blank

namespace FeedSieve.Text

variable {s t : Text}

/-- The blanks of a text are spaces, and none of them is next to another. -/
structure Spaced (t : Text) : Prop where
  blanks : ∀ c ∈ t, isBlank c = true → c = ' '
  single : t.IsChain fun a b => a = ' ' → b ≠ ' '

/-- A space is a blank. -/
theorem isBlank_space : isBlank ' ' = true := by decide

/-- So is every part of such a text. -/
theorem Spaced.part (h : Spaced t) (hpart : s <:+: t) : Spaced s where
  blanks := fun c hc => h.blanks c (hpart.subset hc)
  single := h.single.infix hpart

/-- Two such texts make up another if no space ends the first, or none begins
the second. -/
theorem Spaced.append (hs : Spaced s) (ht : Spaced t)
    (hjoint : ∀ a ∈ s.getLast?, ∀ b ∈ t.head?, a = ' ' → b ≠ ' ') : Spaced (s ++ t) where
  blanks := fun c hc => (List.mem_append.mp hc).elim (hs.blanks c) (ht.blanks c)
  single := List.isChain_append.mpr ⟨hs.single, ht.single, hjoint⟩

/-- A text without blanks is one of them. -/
theorem spaced_of_forall (h : ∀ c ∈ t, isBlank c = false) : Spaced t where
  blanks := fun c hc hblank => absurd hblank (by rw [h c hc]; decide)
  single := by
    refine List.isChain_iff_forall_rel_of_append_cons_cons.mpr ?_
    rintro a b before after rfl hspace
    have hfree := h a (List.mem_append_right _ List.mem_cons_self)
    rw [hspace, isBlank_space] at hfree
    cases hfree

/-- Spaces are single exactly if no two of them are a part of the text. -/
theorem single_iff :
    (t.IsChain fun a b => a = ' ' → b ≠ ' ') ↔ ¬ [' ', ' '] <:+: t := by
  rw [List.isChain_iff_forall_rel_of_append_cons_cons]
  constructor
  · rintro h ⟨before, after, htext⟩
    rw [List.append_assoc] at htext
    exact h htext.symm rfl rfl
  · rintro h a b before after rfl rfl rfl
    exact h ⟨before, after, by rw [List.append_assoc]; rfl⟩

-- =========================================================== squeezing

/-- What is no blank stays. -/
private theorem squeeze_visible {c : Char} (hc : ¬ isBlank c = true) (rest : Text) :
    squeeze (c :: rest) = c :: squeeze rest := by
  cases rest <;> simp [squeeze, hc]

/-- A squeezed text begins as the text does, with a space for a blank. -/
private theorem head?_squeeze (c : Char) (rest : Text) :
    (squeeze (c :: rest)).head? = some (if isBlank c then ' ' else c) := by
  induction rest generalizing c with
  | nil => cases hc : isBlank c <;> simp [squeeze, hc]
  | cons d rest ih =>
      cases hc : isBlank c with
      | false => simp [squeeze, hc]
      | true =>
          cases hd : isBlank d with
          | false => simp [squeeze, hc, hd]
          | true =>
              have hskip : squeeze (c :: d :: rest) = squeeze (d :: rest) := by
                rw [squeeze, if_pos hc]
                exact if_pos hd
              rw [hskip, ih, if_pos hd, if_pos rfl]

/-- Nothing but spaces comes in. -/
theorem mem_squeeze {c : Char} (h : c ∈ squeeze t) : c = ' ' ∨ c ∈ t ∧ isBlank c = false := by
  induction t using squeeze.induct with
  | case1 => cases h
  | case2 d hd =>
      rw [squeeze, if_pos hd] at h
      exact Or.inl (List.mem_singleton.mp h)
  | case3 d hd e rest he ih =>
      rw [squeeze, if_pos hd] at h
      simp only [he, if_true] at h
      exact (ih h).imp_right fun h => ⟨List.mem_cons_of_mem _ h.1, h.2⟩
  | case4 d hd e rest he ih =>
      rw [squeeze, if_pos hd] at h
      simp only [he, Bool.false_eq_true, if_false] at h
      rcases List.mem_cons.mp h with hspace | h
      · exact Or.inl hspace
      · exact (ih h).imp_right fun h => ⟨List.mem_cons_of_mem _ h.1, h.2⟩
  | case5 d rest hd ih =>
      rw [squeeze_visible hd] at h
      rcases List.mem_cons.mp h with rfl | h
      · exact Or.inr ⟨List.mem_cons_self, Bool.not_eq_true _ ▸ hd⟩
      · exact (ih h).imp_right fun h => ⟨List.mem_cons_of_mem _ h.1, h.2⟩

/-- The spaces of a squeezed text are single. -/
theorem spaced_squeeze (t : Text) : Spaced (squeeze t) where
  blanks := by
    intro c hc hblank
    rcases mem_squeeze hc with hspace | ⟨-, hfree⟩
    · exact hspace
    · rw [hfree] at hblank
      cases hblank
  single := by
    induction t using squeeze.induct with
    | case1 => exact .nil
    | case2 c hc =>
        rw [squeeze, if_pos hc]
        exact .singleton _
    | case3 c hc d rest hd ih =>
        rw [squeeze, if_pos hc]
        simpa only [hd, if_true] using ih
    | case4 c hc d rest hd ih =>
        rw [squeeze, if_pos hc]
        simp only [hd, Bool.false_eq_true, if_false]
        refine List.isChain_cons.mpr ⟨?_, ih⟩
        intro e he hspace hspace'
        rw [head?_squeeze, if_neg hd] at he
        obtain rfl := Option.some.inj he
        exact hd (hspace' ▸ isBlank_space)
    | case5 c rest hc ih =>
        rw [squeeze_visible hc]
        refine List.isChain_cons.mpr ⟨?_, ih⟩
        rintro e - rfl
        exact absurd isBlank_space hc

/-- A text is squeezed already if its spaces are single and there are no other
blanks in it. -/
theorem squeeze_eq_self_iff : squeeze t = t ↔ Spaced t := by
  refine ⟨fun h => h ▸ spaced_squeeze t, fun h => ?_⟩
  induction t using squeeze.induct with
  | case1 => rfl
  | case2 c hc =>
      rw [squeeze, if_pos hc, h.blanks c List.mem_cons_self hc]
  | case3 c hc d rest hd ih =>
      have hspace := h.blanks c List.mem_cons_self hc
      have hspace' := h.blanks d (List.mem_cons_of_mem _ List.mem_cons_self) hd
      exact absurd hspace' ((List.isChain_cons.mp h.single).1 d rfl hspace)
  | case4 c hc d rest hd ih =>
      rw [squeeze, if_pos hc]
      simp only [hd, Bool.false_eq_true, if_false]
      rw [ih (h.part (List.suffix_cons c _).isInfix), h.blanks c List.mem_cons_self hc]
  | case5 c rest hc ih =>
      rw [squeeze_visible hc, ih (h.part (List.suffix_cons c _).isInfix)]

end FeedSieve.Text
