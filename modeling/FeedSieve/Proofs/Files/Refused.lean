/-
How the file system says no.

A change to the files is refused by the file system, with a reason, or it
breaks off since its path is none: a path must not hold a null character.
Without one nothing breaks off (`write_ne_nul`, `makeAll_ne_nul`), so every
way to fail is a refusal. A move never breaks off, because what is moved has
been found before.
-/
import FeedSieve.Files.Tree
import FeedSieve.Proofs.Text.Parts

namespace FeedSieve.Files

variable {p : Path} {t : Tree}

-- ====================================================== null characters

/-- A path holds a null character if one of its names does. -/
theorem Path.nul_mem_text_iff : '\x00' ∈ p.text ↔ ∃ name ∈ p.parts, '\x00' ∈ name := by
  have hroot : '\x00' ∉ Path.rootText p.root := by
    cases p.root <;> decide
  have hbody : '\x00' ∈ Path.rootText p.root ++ Text.joinWith "/".toList p.parts
      ↔ ∃ name ∈ p.parts, '\x00' ∈ name := by
    rw [List.mem_append, Text.mem_joinWith (by decide)]
    simp [hroot]
  unfold Path.text
  by_cases hnil : (Path.rootText p.root ++ Text.joinWith "/".toList p.parts).isEmpty = true
  · rw [if_pos hnil, ← hbody, List.isEmpty_iff.mp hnil]
    decide
  · rw [if_neg hnil, hbody]

namespace Tree

theorem find_ne_nul (h : '\x00' ∉ p.text) : t.find p ≠ .error .nul := by
  unfold find
  rw [if_neg (by simpa using h)]
  cases t.place p <;> simp

/-- What finds its place first breaks off if the rest does, and else not. -/
private theorem find_bind_ne_nul (h : '\x00' ∉ p.text) {rest : Place → Except Fault Tree}
    (hrest : ∀ place, rest place ≠ .error .nul) : (t.find p >>= rest) ≠ .error .nul := by
  cases hfound : t.find p with
  | error fault =>
      rintro ⟨⟩
      exact find_ne_nul h hfound
  | ok place => exact hrest place

theorem write_ne_nul {content : Bytes} {mode : Nat} (h : '\x00' ∉ p.text) :
    t.write p content mode ≠ .error .nul := by
  unfold write
  refine find_bind_ne_nul h fun place => ?_
  split
  · simp [throw, throwThe, MonadExceptOf.throw]
  · simp [pure, Except.pure]
  · split <;> simp [throw, throwThe, MonadExceptOf.throw, pure, Except.pure]

theorem remove_ne_nul (h : '\x00' ∉ p.text) : t.remove p ≠ .error .nul := by
  unfold remove
  refine find_bind_ne_nul h fun place => ?_
  split <;> simp [throw, throwThe, MonadExceptOf.throw, pure, Except.pure]

theorem find_eq_nul_iff : t.find p = .error .nul ↔ '\x00' ∈ p.text := by
  refine ⟨fun h => Decidable.byContradiction fun hnul => find_ne_nul hnul h, fun h => ?_⟩
  unfold find
  rw [if_pos (by simpa using h)]

/-- Moving is refused by the file system, or not at all. -/
theorem move_ne_nul (target : Path) : t.move p target ≠ .error .nul := by
  unfold move
  cases t.place p with
  | error reason => simp [bind, Except.bind, Except.mapError]
  | ok source =>
  cases t.place target with
  | error reason => simp [bind, Except.bind, Except.mapError]
  | ok goal =>
      simp only [bind, Except.bind, Except.mapError, throw, throwThe, MonadExceptOf.throw, pure,
        Except.pure]
      split
      · simp
      · cases t.at? source with
        | none => simp
        | some node =>
            simp only
            split
            · simp
            · simp
            · split <;> simp

-- =================================================== making directories

private theorem makeOne_ne_nul (h : '\x00' ∉ p.text) : t.makeOne p ≠ .error .nul := by
  unfold makeOne
  refine find_bind_ne_nul h fun place => ?_
  split <;> simp [throw, throwThe, MonadExceptOf.throw, pure, Except.pure]

/-- What is left of a refusal is a refusal. -/
private theorem unlessThere_ne_nul {fault : Fault} (hfault : fault ≠ .nul) :
    t.unlessThere p fault ≠ some .nul := by
  unfold unlessThere isDirectory? check
  rw [if_neg hfault]
  split
  case h_1 => simp
  case h_2 => simpa using hfault
  case h_3 other hother =>
    -- asking for a directory is an error only if a name is too long
    split at hother
    · cases hother
    · obtain rfl := Except.error.inj hother
      simp
    · cases hother

private theorem makeAllAt_ne_nul (root : Root) (backwards : List Text)
    (h : ∀ name ∈ backwards, '\x00' ∉ name) :
    (t.makeAllAt root backwards).2 ≠ some .nul := by
  induction backwards generalizing t with
  | nil =>
      show t.unlessThere ⟨root, []⟩ (.refused .present _ none) ≠ some .nul
      exact unlessThere_ne_nul (by simp)
  | cons last earlier ih =>
      have htext : '\x00' ∉ Path.text ⟨root, (last :: earlier).reverse⟩ := by
        intro hmem
        obtain ⟨name, hname, hnul⟩ := Path.nul_mem_text_iff.mp hmem
        exact h name (List.mem_reverse.mp hname) hnul
      have hone : ∀ t : Tree, t.makeOne ⟨root, (last :: earlier).reverse⟩ ≠ .error .nul :=
        fun t => makeOne_ne_nul htext
      have hearlier := ih (t := t) fun name hname => h name (List.mem_cons_of_mem _ hname)
      rw [makeAllAt]
      split
      case h_1 => simp
      case h_2 =>
        split
        case h_1 made fault heq =>
          rw [heq] at hearlier
          exact hearlier
        case h_2 made heq =>
          split
          case h_1 => simp
          case h_2 => simp
          case h_3 fault hnot hfault =>
            refine unlessThere_ne_nul ?_
            rintro rfl
            exact hone made hfault
      case h_3 fault hnot hfault =>
        refine unlessThere_ne_nul ?_
        rintro rfl
        exact hone t hfault

/-- A path with a null character is found out before anything is made. -/
theorem makeAll_eq_nul (h : '\x00' ∈ p.text) : (t.makeAll p).2 = some .nul := by
  obtain ⟨root, parts⟩ := p
  unfold makeAll
  cases hparts : parts.reverse with
  | nil =>
      obtain rfl := List.reverse_eq_nil_iff.mp hparts
      obtain ⟨name, hname, -⟩ := Path.nul_mem_text_iff.mp h
      cases hname
  | cons last earlier =>
      have hone : t.makeOne ⟨root, (last :: earlier).reverse⟩ = .error .nul := by
        unfold makeOne
        rw [← hparts, List.reverse_reverse, find_eq_nul_iff.mpr h]
        rfl
      rw [makeAllAt]
      simp only [hone, unlessThere, if_true]

theorem makeAll_ne_nul (h : '\x00' ∉ p.text) : (t.makeAll p).2 ≠ some .nul := by
  refine makeAllAt_ne_nul p.root p.parts.reverse fun name hname hnul => ?_
  exact h (Path.nul_mem_text_iff.mpr ⟨name, List.mem_reverse.mp hname, hnul⟩)

end Tree

end FeedSieve.Files
