/-
Attempts and the pauses between them.

A fetch makes its attempts one after another: each finds the world as the one
before has left it, with the file beside taken away and a pause made
(`worldBefore`). An attempt is `Final` if it is the last that is allowed or
does not fail, and the first such attempt decides how the fetch ends
(`fetchThrough_retries`). So no attempt is made behind it, and its ending is
that of the fetch, never the reason of an earlier one.

Between two attempts there is a pause, of as many delays as attempts have been
made. It is counted in seconds as a double, so it is not exact, but nearly
(`lasts_of_pauseAfter?`), and no double is near to one that is too long
(`pauseAfter?_eq_none_iff`): then the fetch breaks off where the pause should
be, though it might try again.
-/
import Mathlib.Order.Lattice.Nat
import FeedSieve.Proofs.Download.Flight
import FeedSieve.Proofs.Files.Refused
import FeedSieve.Proofs.Number.Rounded

namespace FeedSieve.Download

open Files (Path Tree)
open Number (Double)

-- ============================================================== pauses

/-- A time in seconds is that of so many milliseconds, up to the 2^53th part. -/
def Lasts (seconds : ℚ) (millis : Nat) : Prop := |1000 * seconds - millis| ≤ millis / 2 ^ 53

/-- The shortest pause, in milliseconds, that is too long to be made. -/
def endlessPause : Nat := Double.overflow * 1000

theorem endlessPause_pos : 0 < endlessPause := Nat.mul_pos Double.overflow_pos (by decide)

/-- Times one after the other last as long as both. -/
theorem Lasts.add {s t : ℚ} {m n : Nat} (hs : Lasts s m) (ht : Lasts t n) :
    Lasts (s + t) (m + n) := by
  unfold Lasts at *
  calc |1000 * (s + t) - ((m + n : Nat) : ℚ)|
      = |(1000 * s - m) + (1000 * t - n)| := by
        congr 1
        push_cast
        ring
    _ ≤ |1000 * s - m| + |1000 * t - n| := abs_add_le _ _
    _ ≤ m / 2 ^ 53 + n / 2 ^ 53 := add_le_add hs ht
    _ = ((m + n : Nat) : ℚ) / 2 ^ 53 := by
        push_cast
        ring

variable {delay number : Nat} {pause : Double}

/-- A pause is the double nearest to as many delays as attempts were made. -/
private theorem pauseAfter?_eq (delay number : Nat) :
    pauseAfter? delay number = match Double.ofRatio false (number * delay) 1000 with
      | .infinite _ => none
      | seconds => some seconds := by
  have hpositive : ¬ (delay : Int) * number < 0 := not_lt.mpr (by positivity)
  have hnat : ((delay : Int) * number).natAbs = number * delay := by
    rw [Int.natAbs_mul, Int.natAbs_natCast, Int.natAbs_natCast, Nat.mul_comm]
  have hratio : Double.ofRatio (decide ((delay : Int) * number < 0))
      ((delay : Int) * number).natAbs 1000 = Double.ofRatio false (number * delay) 1000 := by
    rw [hnat, decide_eq_false hpositive]
  rw [← hratio]
  rfl

/-- It cannot be made if it is too long, and only then. -/
theorem pauseAfter?_eq_none_iff (delay number : Nat) :
    pauseAfter? delay number = none ↔ endlessPause ≤ number * delay := by
  have hnone : pauseAfter? delay number = none
      ↔ Double.ofRatio false (number * delay) 1000 = .infinite false := by
    rw [pauseAfter?_eq]
    split
    case h_1 negative hinfinite =>
      obtain rfl : negative = false := Double.negative_of_infinite hinfinite
      exact iff_of_true rfl hinfinite
    case h_2 seconds hfinite => exact iff_of_false (by simp) (hfinite false)
  rw [hnone]
  by_cases hzero : number * delay = 0
  · rw [hzero]
    exact iff_of_false (by decide) (Nat.not_le.mpr endlessPause_pos)
  · have hthousand : (0 : ℚ) < (1000 : Nat) := by norm_num
    unfold endlessPause
    rw [Double.ofRatio_eq_infinite_iff hzero (by decide), le_div_iff₀ hthousand, ← Nat.cast_mul]
    exact Nat.cast_le

/-- If it can it is nearly as long as it should be. -/
theorem lasts_of_pauseAfter? (h : pauseAfter? delay number = some pause) :
    Lasts pause.value (number * delay) := by
  have hfinite : Double.ofRatio false (number * delay) 1000 ≠ .infinite false := by
    intro hinfinite
    rw [pauseAfter?_eq, hinfinite] at h
    cases h
  have hpause : pause = Double.ofRatio false (number * delay) 1000 := by
    rw [pauseAfter?_eq] at h
    split at h
    · cases h
    · exact (Option.some.inj h).symm
  by_cases hzero : number * delay = 0
  · rw [hpause, hzero]
    simp [Lasts, Double.ofRatio, Double.zero, Double.value]
  · have hone : (1 : ℚ) ≤ (number * delay : Nat) := mod_cast Nat.one_le_iff_ne_zero.mpr hzero
    have hnormal : (2 : ℚ) ^ (-1022 : Int) ≤ ((number * delay : Nat) : ℚ) / (1000 : Nat) := by
      calc (2 : ℚ) ^ (-1022 : Int) ≤ 2 ^ (-10 : Int) := zpow_le_zpow_right₀ one_le_two (by decide)
        _ ≤ 1 / (1000 : Nat) := by norm_num
        _ ≤ ((number * delay : Nat) : ℚ) / (1000 : Nat) :=
          div_le_div_of_nonneg_right hone (by norm_num)
    have hnear := Double.near_ofRatio hzero (by decide) hnormal hfinite
    rw [← hpause] at hnear
    unfold Lasts
    generalize ((number * delay : Nat) : ℚ) = millis at hnear ⊢
    calc |1000 * pause.value - millis|
        = 1000 * |pause.value - millis / (1000 : Nat)| := by
          rw [← abs_of_pos (show (0 : ℚ) < 1000 by norm_num), ← abs_mul]
          congr 1
          push_cast
          ring
      _ ≤ 1000 * (millis / (1000 : Nat) / 2 ^ 53) := by linarith
      _ = millis / 2 ^ 53 := by
          push_cast
          ring

/-- Pauses one behind the other, the first of one delay, the second of two, and
so on. -/
def BacksOff (delay : Nat) (pauses : List Double) : Prop :=
  ∀ (i : Nat) (h : i < pauses.length), Lasts pauses[i].value ((i + 1) * delay)

/-- The next pause is one delay longer. -/
theorem BacksOff.concat {pauses : List Double} (h : BacksOff delay pauses)
    (hpause : Lasts pause.value ((pauses.length + 1) * delay)) :
    BacksOff delay (pauses ++ [pause]) := by
  intro i hi
  rw [List.getElem_append]
  split
  case isTrue hearlier => exact h i hearlier
  case isFalse hlast =>
    rw [List.length_append, List.length_singleton] at hi
    obtain rfl : i = pauses.length := by omega
    simpa using hpause

/-- So together they last as many delays as there are pairs of attempts. -/
theorem BacksOff.total {pauses : List Double} (h : BacksOff delay pauses) :
    Lasts (pauses.map Double.value).sum ((pauses.length + 1) * pauses.length / 2 * delay) := by
  induction pauses using List.reverseRecOn with
  | nil => simp [Lasts]
  | append_singleton pauses pause ih =>
      have hearlier : BacksOff delay pauses := by
        intro i hi
        have hsame := h i (by rw [List.length_append]; omega)
        rwa [List.getElem_append_left hi] at hsame
      have hlast : Lasts pause.value ((pauses.length + 1) * delay) := by
        have hsame := h pauses.length (by simp)
        simpa using hsame
      have hsum : (pauses.length + 1) * pauses.length / 2 * delay + (pauses.length + 1) * delay
          = ((pauses ++ [pause]).length + 1) * (pauses ++ [pause]).length / 2 * delay := by
        rw [List.length_append, List.length_singleton, ← Nat.add_mul]
        congr 1
        have hnext : (pauses.length + 1 + 1) * (pauses.length + 1)
            = (pauses.length + 1) * pauses.length + (pauses.length + 1) * 2 := by ring
        rw [hnext, Nat.add_mul_div_right _ _ (by decide)]
      rw [List.map_append, List.sum_append, List.map_singleton, List.sum_singleton, ← hsum]
      exact (ih hearlier).add hlast

-- ============================================================ attempts

/-- What an attempt leaves, without the file beside if it has failed. -/
def tidied (errand : Errand) : World × Ending → World
  | (world, .failed _) =>
      { world with files := (clearPart errand.path world.files).toOption.getD world.files }
  | (world, _) => world

/-- The world after so many attempts, if another is to be made. -/
def worldBefore (trouble : Nat → Trouble) (errand : Errand) (world : World) : Nat → World
  | 0 => world
  | made + 1 =>
      let after := tidied errand
        (attempt (trouble (made + 1)) errand (worldBefore trouble errand world made))
      { after with pauses := (pauseAfter? errand.delay (made + 1)).toList ++ after.pauses }

/-- How the attempt of a number ends. -/
def endingOf (trouble : Nat → Trouble) (errand : Errand) (world : World) (number : Nat) : Ending :=
  (attempt (trouble number) errand (worldBefore trouble errand world (number - 1))).2

/-- The world when it is over. -/
def worldAfter (trouble : Nat → Trouble) (errand : Errand) (world : World) (number : Nat) : World :=
  tidied errand (attempt (trouble number) errand (worldBefore trouble errand world (number - 1)))

/-- An attempt after which there is none: as many as are allowed have been made
with it, or it does not fail. -/
def Final (trouble : Nat → Trouble) (errand : Errand) (world : World) (number : Nat) : Prop :=
  1 ≤ number ∧ (number = errand.retries.toNat + 1
    ∨ ∀ reason, endingOf trouble errand world number ≠ .failed reason)

variable {trouble : Nat → Trouble} {errand : Errand} {world : World} {part : Path} {made : Nat}

/-- An attempt makes no pause. -/
theorem pauses_attempt (trouble : Trouble) (errand : Errand) (world : World) :
    (attempt trouble errand world).1.pauses = world.pauses := by
  unfold attempt
  split <;> rfl

/-- Clearing away changes files only. -/
theorem tidied_eq (errand : Errand) (after : World × Ending) :
    (tidied errand after).web = after.1.web ∧ (tidied errand after).pauses = after.1.pauses := by
  obtain ⟨world, ending⟩ := after
  cases ending <;> exact ⟨rfl, rfl⟩

/-- There is a request for each attempt. -/
theorem web_worldBefore (trouble : Nat → Trouble) (errand : Errand) (world : World) (made : Nat) :
    (worldBefore trouble errand world made).web = Flight.webAfter errand world.web made := by
  induction made with
  | zero => rfl
  | succ made ih =>
      rw [worldBefore, Flight.webAfter, ← ih, ← Flight.web_attempt (trouble (made + 1))]
      exact (tidied_eq errand _).1

/-- There is a pause after each. -/
theorem pauses_worldBefore (trouble : Nat → Trouble) (world : World) (made : Nat)
    (hdelay : errand.delay = delay)
    (hmade : ∀ number, 1 ≤ number → number ≤ made → pauseAfter? errand.delay number ≠ none) :
    ∃ pauses : List Double,
      (worldBefore trouble errand world made).pauses = pauses.reverse ++ world.pauses
        ∧ pauses.length = made ∧ BacksOff delay pauses := by
  induction made with
  | zero => exact ⟨[], rfl, rfl, fun i hi => absurd hi (Nat.not_lt_zero i)⟩
  | succ made ih =>
      obtain ⟨pauses, hpauses, rfl, hbacks⟩ := ih fun number hone hle => hmade number hone (by omega)
      obtain ⟨pause, hpause⟩ := Option.ne_none_iff_exists'.mp
        (hmade (pauses.length + 1) (by omega) (Nat.le_refl _))
      refine ⟨pauses ++ [pause], ?_, by simp, hbacks.concat ?_⟩
      · rw [worldBefore, hpause]
        show [pause] ++ (tidied errand _).pauses = _
        rw [(tidied_eq errand _).2, pauses_attempt, hpauses]
        simp
      · rw [hdelay] at hpause
        exact lasts_of_pauseAfter? hpause

-- ================================================================ runs

/-- A file beside a path without null characters can be cleared away. -/
theorem clearPart_ne_error (hpart : partPath? errand.path = some part) (hnul : '\x00' ∉ part.text)
    (files : Tree) : ∃ files', clearPart errand.path files = .ok files' := by
  unfold clearPart
  simp only [hpart]
  have hremove := Tree.remove_ne_nul (t := files) hnul
  generalize files.remove part = removed at hremove ⊢
  cases removed with
  | ok files' => exact ⟨files', rfl⟩
  | error fault =>
      cases fault with
      | refused reason path target => exact ⟨files, rfl⟩
      | nul => exact absurd rfl hremove

section Steps

variable {reason : Text} {left : Nat}
  (hclear : ∀ files, ∃ files', clearPart errand.path files = .ok files')

/-- An attempt that does not fail is the last. -/
theorem attempts_of_not_failed
    (hends : ∀ reason, endingOf trouble errand world (made + 1) ≠ .failed reason) :
    attempts trouble errand left (made + 1) (worldBefore trouble errand world made)
      = (worldAfter trouble errand world (made + 1), endingOf trouble errand world (made + 1)) := by
  have hending : endingOf trouble errand world (made + 1)
      = (attempt (trouble (made + 1)) errand (worldBefore trouble errand world made)).2 := rfl
  have hafter : worldAfter trouble errand world (made + 1) = tidied errand
      (attempt (trouble (made + 1)) errand (worldBefore trouble errand world made)) := rfl
  unfold attempts
  cases hmade : attempt (trouble (made + 1)) errand (worldBefore trouble errand world made) with
  | mk after ending =>
      rw [hmade] at hending hafter
      rw [hending, hafter]
      cases ending with
      | saved => rfl
      | crashed why => rfl
      | failed reason => exact absurd hending (hends reason)

include hclear

/-- One that fails is the last if no other is left, or no pause can be made; or
else the next one is made after a pause. -/
theorem attempts_of_failed (hfailed : endingOf trouble errand world (made + 1) = .failed reason) :
    attempts trouble errand left (made + 1) (worldBefore trouble errand world made)
      = match left, pauseAfter? errand.delay (made + 1) with
        | 0, _ => (worldAfter trouble errand world (made + 1), .failed reason)
        | _ + 1, none => (worldAfter trouble errand world (made + 1), .crashed .endless)
        | left + 1, some _ =>
            attempts trouble errand left (made + 2) (worldBefore trouble errand world (made + 1)) := by
  have hending : (attempt (trouble (made + 1)) errand (worldBefore trouble errand world made)).2
      = .failed reason := hfailed
  have hafter : worldAfter trouble errand world (made + 1) = tidied errand
      (attempt (trouble (made + 1)) errand (worldBefore trouble errand world made)) := rfl
  rw [worldBefore, hafter]
  conv_lhs => unfold attempts
  cases hmade : attempt (trouble (made + 1)) errand (worldBefore trouble errand world made) with
  | mk after ending =>
      rw [hmade] at hending
      obtain rfl : ending = .failed reason := hending
      obtain ⟨files, hfiles⟩ := hclear after.files
      cases left with
      | zero => simp only [hfiles, tidied, Except.toOption, Option.getD_some]
      | succ left =>
          cases pauseAfter? errand.delay (made + 1) with
          | none => simp only [hfiles, tidied, Except.toOption, Option.getD_some]
          | some pause =>
              simp only [hfiles, tidied, Except.toOption, Option.getD_some, Option.toList_some,
                List.singleton_append]

/-- The attempts from one on go as far as the first that is final, or after
which no pause can be made. -/
theorem attempts_eq (trouble : Nat → Trouble) (world : World)
    (hleft : left + made = errand.retries.toNat) :
    ∃ last, made < last
      ∧ (∀ number, made < number → number < last →
        ¬ Final trouble errand world number ∧ pauseAfter? errand.delay number ≠ none)
      ∧ (Final trouble errand world last
          ∧ attempts trouble errand left (made + 1) (worldBefore trouble errand world made)
            = (worldAfter trouble errand world last, endingOf trouble errand world last)
        ∨ ¬ Final trouble errand world last ∧ pauseAfter? errand.delay last = none
          ∧ attempts trouble errand left (made + 1) (worldBefore trouble errand world made)
            = (worldAfter trouble errand world last, .crashed .endless)) := by
  have hone (made : Nat) : 1 ≤ made + 1 := Nat.succ_pos made
  have hnone (made : Nat) : ∀ number, made < number → number < made + 1 →
      ¬ Final trouble errand world number ∧ pauseAfter? errand.delay number ≠ none :=
    fun number hlow hhigh => by omega
  -- the attempts that are left and those that were made are all that there may be
  induction left generalizing made with
  | zero =>
      refine ⟨made + 1, Nat.lt_succ_self made, hnone made,
        Or.inl ⟨⟨hone made, Or.inl (by omega)⟩, ?_⟩⟩
      by_cases hends : ∀ reason, endingOf trouble errand world (made + 1) ≠ .failed reason
      · exact attempts_of_not_failed hends
      · obtain ⟨reason, hfailed⟩ := not_forall_not.mp hends
        rw [attempts_of_failed hclear hfailed, hfailed]
  | succ left ih =>
      by_cases hends : ∀ reason, endingOf trouble errand world (made + 1) ≠ .failed reason
      · exact ⟨made + 1, Nat.lt_succ_self made, hnone made,
          Or.inl ⟨⟨hone made, Or.inr hends⟩, attempts_of_not_failed hends⟩⟩
      · have hgoes : ¬ Final trouble errand world (made + 1) := by
          rintro ⟨-, hlast | hnot⟩
          · omega
          · exact hends hnot
        obtain ⟨reason, hfailed⟩ := not_forall_not.mp hends
        rw [attempts_of_failed hclear hfailed]
        cases hpause : pauseAfter? errand.delay (made + 1) with
        | none => exact ⟨made + 1, Nat.lt_succ_self made, hnone made, Or.inr ⟨hgoes, hpause, rfl⟩⟩
        | some pause =>
            obtain ⟨last, hlt, hbetween, hlast⟩ := ih (by omega : left + (made + 1) = errand.retries.toNat)
            refine ⟨last, by omega, fun number hlow hhigh => ?_, hlast⟩
            rcases Nat.lt_or_eq_of_le hlow with hlow | rfl
            · exact hbetween number hlow hhigh
            · exact ⟨hgoes, by simp [hpause]⟩

end Steps

-- ============================================================= fetches

/-- What a fetch leaves that has made so many attempts: the world as it is after
the last of them, with a request for each attempt and between any two of them
a pause, of one delay after the first, of two after the second, and so on. -/
structure Leaves (trouble : Nat → Trouble) (errand : Errand) (world : World) (made : Nat)
    (after : World) : Prop where
  after_last : after = worldAfter trouble errand world made
  asked : after.web = Flight.webAfter errand world.web made
  paused : ∃ pauses : List Double, after.pauses = pauses.reverse ++ world.pauses
    ∧ pauses.length = made - 1 ∧ BacksOff errand.delay.toNat pauses
    ∧ Lasts (pauses.map Double.value).sum (made * (made - 1) / 2 * errand.delay.toNat)

/-- That is what is left where every pause up to the last attempt can be made. -/
theorem leaves_worldAfter (trouble : Nat → Trouble) (world : World) (hdelay : 0 ≤ errand.delay)
    (hmade : 1 ≤ made)
    (hpauses : ∀ number, 1 ≤ number → number < made → pauseAfter? errand.delay number ≠ none) :
    Leaves trouble errand world made (worldAfter trouble errand world made) := by
  obtain ⟨earlier, rfl⟩ : ∃ earlier, made = earlier + 1 := ⟨made - 1, by omega⟩
  obtain ⟨pauses, hsame, rfl, hbacks⟩ := pauses_worldBefore trouble world earlier
    (Int.toNat_of_nonneg hdelay).symm fun number hone hle => hpauses number hone (by omega)
  refine ⟨rfl, ?_, pauses, ?_, rfl, hbacks, hbacks.total⟩
  · rw [Flight.webAfter, ← web_worldBefore trouble, ← Flight.web_attempt
      (trouble (pauses.length + 1))]
    exact (tidied_eq errand _).1
  · rw [worldAfter, (tidied_eq errand _).2, pauses_attempt, Nat.add_sub_cancel, hsame]

/-- There is a first attempt that is final. -/
theorem exists_final (trouble : Nat → Trouble) (errand : Errand) (world : World) :
    ∃ m, IsLeast {number | Final trouble errand world number} m := by
  have hsome : {number | Final trouble errand world number}.Nonempty :=
    ⟨errand.retries.toNat + 1, Nat.succ_pos _, Or.inl rfl⟩
  exact ⟨_, Nat.sInf_mem hsome, fun number hfinal => Nat.sInf_le hfinal⟩

/-- Where no attempt up to one is final, and that one is not, the first that is
comes behind it. -/
theorem lt_of_not_final {last m : Nat} (hm : IsLeast {number | Final trouble errand world number} m)
    (hbetween : ∀ number, 0 < number → number < last → ¬ Final trouble errand world number)
    (hgoes : ¬ Final trouble errand world last) : last < m := by
  by_contra hle
  rcases Nat.lt_or_eq_of_le (Nat.not_lt.mp hle) with hlt | rfl
  · exact hbetween m hm.1.1 hlt hm.1
  · exact hgoes hm.1

/-- A fetch makes its attempts up to the first that is final, with a pause
between any two, and ends as that one does: saved if it is, or with its reason.
That is so if all these pauses can be made; or else it breaks off after the
first attempt whose pause is too long. -/
theorem fetchThrough_retries (trouble : Nat → Trouble) {errand : Errand}
    (hretries : 0 ≤ errand.retries) (hdelay : 0 ≤ errand.delay) {part : Path}
    (hpart : partPath? errand.path = some part) (hnul : '\x00' ∉ part.text) (world : World) :
    ∃ m, IsLeast {number | Final trouble errand world number} m
      ∧ ((m - 1) * errand.delay.toNat < endlessPause →
        (fetchThrough trouble errand world).2 = endingOf trouble errand world m
          ∧ Leaves trouble errand world m (fetchThrough trouble errand world).1)
      ∧ (endlessPause ≤ (m - 1) * errand.delay.toNat →
        ∃ k, k < m ∧ IsLeast {number | endlessPause ≤ number * errand.delay.toNat} k
          ∧ (fetchThrough trouble errand world).2 = .crashed .endless
          ∧ Leaves trouble errand world k (fetchThrough trouble errand world).1) := by
  obtain ⟨delay, hsame⟩ := Int.eq_ofNat_of_zero_le hdelay
  have hpause (number : Nat) : pauseAfter? errand.delay number = none
      ↔ endlessPause ≤ number * errand.delay.toNat := by
    rw [hsame]
    exact pauseAfter?_eq_none_iff delay number
  have hshort (number : Nat) (hmade : 0 < number → pauseAfter? errand.delay number ≠ none) :
      number * errand.delay.toNat < endlessPause := by
    rcases Nat.eq_zero_or_pos number with rfl | hpos
    · rw [Nat.zero_mul]
      exact endlessPause_pos
    · exact Nat.not_le.mp fun hlong => hmade hpos ((hpause number).mpr hlong)
  have hfetch : fetchThrough trouble errand world
      = attempts trouble errand errand.retries.toNat 1 world := by
    unfold fetchThrough
    rw [if_neg (by omega)]
  obtain ⟨last, hlast, hbetween, hend⟩ := attempts_eq (clearPart_ne_error hpart hnul)
    trouble world (Nat.add_zero errand.retries.toNat)
  have hleaves := leaves_worldAfter trouble world hdelay hlast
    fun number hone hlt => (hbetween number hone hlt).2
  obtain ⟨m, hm⟩ := exists_final trouble errand world
  refine ⟨m, hm, ?_⟩
  rw [worldBefore, Nat.zero_add, ← hfetch] at hend
  rcases hend with ⟨hfinal, hattempts⟩ | ⟨hgoes, hnone, hattempts⟩
  · obtain rfl : last = m := by
      refine Nat.le_antisymm (Nat.not_lt.mp fun hlt => ?_) (hm.2 hfinal)
      exact (hbetween m hm.1.1 hlt).1 hm.1
    rw [hattempts]
    refine ⟨fun _ => ⟨rfl, hleaves⟩, fun hlong => absurd hlong (Nat.not_le.mpr ?_)⟩
    exact hshort (last - 1) fun hpos => (hbetween (last - 1) hpos (by omega)).2
  · have hlt := lt_of_not_final hm (fun number hpos hlt => (hbetween number hpos hlt).1) hgoes
    have hlong := (hpause last).mp hnone
    have hfar : last * errand.delay.toNat ≤ (m - 1) * errand.delay.toNat :=
      Nat.mul_le_mul_right _ (by omega)
    rw [hattempts]
    refine ⟨fun hnear => absurd (hlong.trans hfar) (Nat.not_le.mpr hnear), fun _ => ?_⟩
    refine ⟨last, hlt, ⟨hlong, fun number hnumber => Nat.not_lt.mp fun hless => ?_⟩, rfl, hleaves⟩
    exact absurd hnumber (Nat.not_le.mpr
      (hshort number fun hpos => (hbetween number hpos hless).2))

/-- An errand that may be repeated twice, after 300 milliseconds at first. -/
def patient : Errand := ⟨"http://x/1", ⟨.here, ["One.mp3"]⟩, "FeedSieve", 2, 300⟩

/-- A world whose web fails twice and then gives an answer. -/
def unsteady : World where
  files := ⟨[(["here"], .directory)]⟩
  web := ⟨[("http://x/1", [.error (.timeout "slow"), .error (.transport "gone"),
    .ok ⟨200, none, [[1, 2, 3]], none⟩])], []⟩
  pauses := []
  bindings := []
  homes := []
  now := .first
  mark := []

/-- Where the first two attempts fail and there may be one more, that is the
final one. -/
private theorem isLeast_three {errand : Errand} {first second : Text}
    (hretries : errand.retries.toNat = 2)
    (hfirst : endingOf trouble errand world 1 = .failed first)
    (hsecond : endingOf trouble errand world 2 = .failed second) :
    IsLeast {number | Final trouble errand world number} 3 := by
  refine ⟨⟨by decide, Or.inl (by rw [hretries])⟩, fun number hfinal => Nat.not_lt.mp fun hlt => ?_⟩
  obtain ⟨hone, hlast | hends⟩ := hfinal
  · omega
  · obtain rfl | rfl : number = 1 ∨ number = 2 := by omega
    · exact hends _ hfirst
    · exact hends _ hsecond

/-- The third attempt is the first that does not fail; with it there are three
requests, and two pauses. -/
theorem fetchThrough_retries_twice :
    IsLeast {number | Final (fun _ => .none) patient unsteady number} 3
      ∧ (fetchThrough (fun _ => .none) patient unsteady).2 = .saved
      ∧ Leaves (fun _ => .none) patient unsteady 3
        (fetchThrough (fun _ => .none) patient unsteady).1
      ∧ (fetchThrough (fun _ => .none) patient unsteady).1.web.requests.length = 3
      ∧ (fetchThrough (fun _ => .none) patient unsteady).1.pauses.length = 2 := by
  have hfirst : endingOf (fun _ => .none) patient unsteady 1
      = .failed "Request timed out" := by decide +kernel
  have hsecond : endingOf (fun _ => .none) patient unsteady 2
      = .failed "Transport error: gone" := by decide +kernel
  have hthird : endingOf (fun _ => .none) patient unsteady 3 = .saved := by decide +kernel
  have hleast := isLeast_three rfl hfirst hsecond
  have hpart : partPath? patient.path = some ⟨.here, ["One.mp3.part"]⟩ := by decide +kernel
  obtain ⟨m, hm, hmade, -⟩ := fetchThrough_retries (fun _ => .none)
    (show 0 ≤ patient.retries by decide) (by decide) hpart (by decide +kernel) unsteady
  obtain rfl := hm.unique hleast
  obtain ⟨hending, hleaves⟩ := hmade (by decide +kernel)
  refine ⟨hleast, hending.trans hthird, hleaves, ?_, ?_⟩
  · decide +kernel
  · decide +kernel

/-- The same errand with a delay that no double is near to. -/
def endless : Errand := { patient with delay := ((10 ^ 312 : Nat) : Int) }

/-- It breaks off after the first attempt, though it may make two more and the
third would be saved. -/
theorem fetchThrough_endless :
    0 ≤ endless.retries ∧ 0 ≤ endless.delay
      ∧ IsLeast {number | Final (fun _ => .none) endless unsteady number} 3
      ∧ endingOf (fun _ => .none) endless unsteady 3 = .saved
      ∧ (fetchThrough (fun _ => .none) endless unsteady).2 = .crashed .endless
      ∧ (fetchThrough (fun _ => .none) endless unsteady).1.web.requests.length = 1 := by
  have hfirst : endingOf (fun _ => .none) endless unsteady 1
      = .failed "Request timed out" := by decide +kernel
  have hsecond : endingOf (fun _ => .none) endless unsteady 2
      = .failed "Transport error: gone" := by decide +kernel
  exact ⟨by decide, by decide +kernel, isLeast_three rfl hfirst hsecond, by decide +kernel,
    by decide +kernel, by decide +kernel⟩

end FeedSieve.Download
