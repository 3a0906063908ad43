/-
Every run of the slots comes to its end.

A task makes at most three moves: it begins, takes off if it had to wait,
and lands. `remaining` counts the moves that are left if every task makes
all of them; each move lowers it, so no run goes on for ever
(`Run.length_add_remaining_le`). Nor does one get stuck if there is a slot
at all: as long as a task is not over some move is allowed
(`Run.exists_move`). Where tasks wait and none is woken all slots are taken,
so there is a flight to land; this is the point where the invariant is
needed.

Hence every run that has been begun can be completed, whatever its fetches
come to (`Run.exists_over`).
-/
import FeedSieve.Proofs.Download.Slots

namespace FeedSieve.Download.Slots

variable {jobs : List Job} {limit task : Nat} {s s' : Slots} {moves : List Move}
  {move : Move} {done new : List Call}

/-- How many moves are left at most. -/
def remaining (s : Slots) : Nat :=
  3 * s.fresh.length + 2 * (s.queue.length + s.woken.length) + s.flying.length

/-- Waking is no move. -/
theorem wake_remaining (s : Slots) : s.wake.remaining = s.remaining := by
  rcases s.wake_cases with ⟨first, rest, hqueue, -, h⟩ | ⟨-, h⟩
  · rw [h]
    unfold remaining
    simp only [hqueue, List.length_cons, List.length_append, List.length_nil]
    omega
  · rw [h]

/-- Nothing is left when all are over, and only then. -/
theorem remaining_eq_zero_iff : s.remaining = 0 ↔ s.Over := by
  unfold remaining
  constructor
  · intro h
    exact ⟨List.eq_nil_of_length_eq_zero (by omega), List.eq_nil_of_length_eq_zero (by omega),
      List.eq_nil_of_length_eq_zero (by omega), List.eq_nil_of_length_eq_zero (by omega)⟩
  · rintro ⟨hfresh, hqueue, hwoken, hflying⟩
    rw [hfresh, hqueue, hwoken, hflying]
    rfl

/-- Every move brings the end nearer. -/
theorem Step.remaining_lt (h : Step jobs s move new s') : s'.remaining < s.remaining := by
  cases h with
  | skip hfresh _ _ =>
      have := List.length_pos_of_mem hfresh
      unfold remaining
      simp only [List.length_erase_of_mem hfresh]
      omega
  | take hfresh _ _ _ =>
      have := List.length_pos_of_mem hfresh
      unfold remaining
      simp only [List.length_erase_of_mem hfresh, List.length_cons]
      omega
  | wait hfresh _ _ _ =>
      have := List.length_pos_of_mem hfresh
      unfold remaining
      simp only [List.length_erase_of_mem hfresh, List.length_append, List.length_cons,
        List.length_nil]
      omega
  | takeOff hwoken _ _ =>
      have := List.length_pos_of_mem hwoken
      rw [wake_remaining]
      unfold remaining
      simp only [List.length_erase_of_mem hwoken, List.length_cons]
      omega
  | land hflying _ =>
      have := List.length_pos_of_mem hflying
      rw [wake_remaining]
      unfold remaining
      simp only [List.length_erase_of_mem hflying]
      omega

/-- No run is longer than three moves a task. -/
theorem Run.length_add_remaining_le (run : Run jobs limit moves done s) :
    moves.length + s.remaining ≤ 3 * jobs.length := by
  induction run with
  | start => simp [remaining, initial]
  | next run h ih =>
      have := (run.step h).remaining_lt
      rw [List.length_append, List.length_singleton]
      omega

/-- When all tasks have begun each has two moves left at most. -/
theorem Kept.remaining_le (h : Kept jobs limit s) (hfresh : s.fresh = []) :
    s.remaining ≤ 2 * jobs.length := by
  have hcount : ∀ task, (s.queue ++ s.woken ++ s.flying).count task ≤ s.places task := by
    intro task
    unfold places
    rw [List.count_append, List.count_append]
    omega
  have hnodup : (s.queue ++ s.woken ++ s.flying).Nodup := by
    rw [List.nodup_iff_count]
    intro task
    have hplaces := h.places_eq task
    have := hcount task
    split at hplaces <;> omega
  have hsubset : s.queue ++ s.woken ++ s.flying ⊆ List.range jobs.length := by
    intro task htask
    have hpos := List.count_pos_iff.mpr htask
    have hplaces := h.places_eq task
    have := hcount task
    rw [List.mem_range]
    split at hplaces
    case isTrue hlt => exact hlt
    case isFalse => omega
  have hlength := (List.subperm_of_subset hnodup hsubset).length_le
  rw [List.length_append, List.length_append, List.length_range] at hlength
  unfold remaining
  rw [hfresh, List.length_nil]
  omega

/-- A task that is somewhere is one of the jobs. -/
theorem Kept.exists_job (h : Kept jobs limit s) (hplaces : 0 < s.places task) :
    ∃ job, jobs[task]? = some job := by
  rw [h.places_eq task] at hplaces
  have hlt : task < jobs.length := by
    by_contra hge
    rw [if_neg hge] at hplaces
    exact Nat.lt_irrefl 0 hplaces
  exact ⟨_, List.getElem?_eq_getElem hlt⟩

/-- A task that has not begun may begin. -/
theorem Kept.exists_begins (h : Kept jobs limit s) (hmem : task ∈ s.fresh) :
    ∃ s', s.move? jobs (.begins task) = some s' := by
  have hplaces : 0 < s.places task := by
    have := List.count_pos_iff.mpr hmem
    unfold places
    omega
  obtain ⟨job, hjob⟩ := h.exists_job hplaces
  simp [move?, hmem, hjob]

/-- A woken task may take off. -/
theorem exists_takesOff (jobs : List Job) (hmem : task ∈ s.woken) :
    ∃ s', s.move? jobs (.takesOff task) = some s' := by
  simp [move?, hmem]

/-- What is in flight may land, whatever the fetch comes to. -/
theorem Kept.exists_lands (h : Kept jobs limit s) (hmem : task ∈ s.flying)
    (result : Result) : ∃ s', s.move? jobs (.lands task result) = some s' := by
  obtain ⟨job, url, hjob, hurl⟩ := h.addressed task (Or.inr (Or.inr hmem))
  simp [move?, hmem, hjob]

/-- Where nothing is woken or in flight nobody waits, if there is a slot at
all. -/
theorem Kept.queue_eq_nil (h : Kept jobs limit s) (hlimit : 1 ≤ limit)
    (hwoken : s.woken = []) (hflying : s.flying = []) : s.queue = [] := by
  by_contra hqueue
  rcases h.conserving hqueue with hne | hfull
  · exact hne hwoken
  · unfold held at hfull
    rw [hflying, hwoken] at hfull
    simp only [List.length_nil] at hfull
    omega

/-- As long as a task is not over, some move is allowed; if it is a landing,
whatever the fetch comes to. -/
theorem Run.exists_move (run : Run jobs limit moves done s) (hlimit : 1 ≤ limit)
    (hleft : ¬ s.Over) (results : Nat → Result) :
    ∃ move s', s.move? jobs move = some s'
      ∧ ∀ task result, move = .lands task result → result = results task := by
  have hkept := run.kept
  cases hfresh : s.fresh with
  | cons task _ =>
      have hmem : task ∈ s.fresh := by rw [hfresh]; exact List.mem_cons_self
      obtain ⟨s', hmove⟩ := hkept.exists_begins hmem
      exact ⟨_, s', hmove, by simp⟩
  | nil =>
    cases hwoken : s.woken with
    | cons task _ =>
        have hmem : task ∈ s.woken := by rw [hwoken]; exact List.mem_cons_self
        obtain ⟨s', hmove⟩ := exists_takesOff jobs hmem
        exact ⟨_, s', hmove, by simp⟩
    | nil =>
      cases hflying : s.flying with
      | cons task _ =>
          have hmem : task ∈ s.flying := by rw [hflying]; exact List.mem_cons_self
          obtain ⟨s', hmove⟩ := hkept.exists_lands hmem (results task)
          refine ⟨_, s', hmove, fun other result heq => ?_⟩
          obtain ⟨rfl, rfl⟩ := Move.lands.inj heq
          rfl
      | nil =>
          exact absurd ⟨hfresh, hkept.queue_eq_nil hlimit hwoken hflying, hwoken, hflying⟩
            hleft

/-- Every run can be completed, whatever its fetches come to. -/
theorem Run.exists_over (run : Run jobs limit moves done s) (hlimit : 1 ≤ limit)
    (results : Nat → Result) :
    ∃ more new s', Run jobs limit (moves ++ more) (done ++ new) s' ∧ s'.Over
      ∧ ∀ task result, .lands task result ∈ more → result = results task := by
  induction hleft : s.remaining using Nat.strongRecOn generalizing s moves done with
  | _ left ih =>
      by_cases hover : s.Over
      · refine ⟨[], [], s, ?_, hover, fun _ _ h => absurd h List.not_mem_nil⟩
        rw [List.append_nil, List.append_nil]
        exact run
      · obtain ⟨move, next, hmove, hresult⟩ := run.exists_move hlimit hover results
        have hless : next.remaining < left := hleft ▸ (run.step hmove).remaining_lt
        obtain ⟨more, new, s', run', hover', hresults⟩ := ih _ hless (run.next hmove) rfl
        rw [List.append_assoc, List.append_assoc] at run'
        refine ⟨_, _, s', run', hover', fun task result hmem => ?_⟩
        rw [List.singleton_append] at hmem
        rcases List.mem_cons.mp hmem with heq | hmem
        · exact hresult task result heq.symm
        · exact hresults task result hmem

end FeedSieve.Download.Slots
