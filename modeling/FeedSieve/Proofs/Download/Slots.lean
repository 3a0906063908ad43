/-
Every run of the slots.

A run is any sequence of moves that the slots allow, from the state in
which no task has begun. Nothing is assumed about the order of the moves or
about the results with which fetches land. What a run does outside is
recorded as its calls: an address and a path are passed to the fetch when a
task takes off, and an outcome is reported when a task is over.

# The invariant

`Kept` is what every reachable state has:

- each task is in one place: not begun, in the queue, woken, in flight, or
  over;
- the slots taken or kept are no more than the limit;
- if a task is in the queue, all slots are taken or kept, or a task is
  woken that will look after the queue when it takes off;
- only tasks with an address are in the queue, woken or in flight.

The third point is the one that needs the woken tasks. A task that begins
while another is woken queues up even if a slot is free, so the queue may
be longer than the slots account for; but the woken task passes the free
slot on.

`Logged` ties the calls to the state: a task has been passed to the fetch
once it is in flight or over, and its outcome has been reported once it is
over. Both are kept by every move (`Kept.step`, `Logged.step`) and so hold
after every run.
-/
import Mathlib.Data.List.Count
import Mathlib.Data.List.Perm.Basic
import FeedSieve.Download.Schedule

namespace FeedSieve.Download

-- ============================================================== runs

/-- What a run does outside: it passes an address and a path to the fetch,
or reports an outcome. -/
inductive Call where
  | fetch (task : Nat) (url : Text) (path : Files.Path)
  | report (task : Nat) (outcome : Outcome)
deriving Repr, DecidableEq

/-- Whether a task is fetched. -/
def Call.fetches (task : Nat) : Call → Bool
  | fetch other _ _ => other == task
  | report _ _ => false

/-- Whether the outcome of a task is reported. -/
def Call.reports (task : Nat) : Call → Bool
  | fetch _ _ _ => false
  | report other _ => other == task

/-- The call by which a task is passed to the fetch. -/
def fetchCall? (jobs : List Job) (task : Nat) : Option Call :=
  (jobs[task]?).bind fun job => job.url?.map fun url => .fetch task url job.path

namespace Slots

/-- What is done outside between two states: the tasks that are in flight
and were not are fetched, and the outcomes that are new are reported. -/
def calls (jobs : List Job) (before after : Slots) : List Call :=
  ((after.flying.filter fun task => !before.flying.contains task).filterMap
      (fetchCall? jobs))
    ++ (after.settled.take (after.settled.length - before.settled.length)).map
      fun (task, outcome) => .report task outcome

/-- A run: moves that are allowed one after the other, what is done outside
on the way, and the state that is reached. -/
inductive Run (jobs : List Job) (limit : Nat) :
    List Move → List Call → Slots → Prop where
  | start : Run jobs limit [] [] (initial limit jobs.length)
  | next {moves : List Move} {done : List Call} {s s' : Slots} {move : Move}
      (run : Run jobs limit moves done s) (h : s.move? jobs move = some s') :
      Run jobs limit (moves ++ [move]) (done ++ s.calls jobs s') s'

/-- All tasks are over. -/
structure Over (s : Slots) : Prop where
  fresh : s.fresh = []
  queue : s.queue = []
  woken : s.woken = []
  flying : s.flying = []

/-- In how many places a task is. -/
def places (s : Slots) (task : Nat) : Nat :=
  s.fresh.count task + s.queue.count task + s.woken.count task
    + s.flying.count task + (s.settled.map (·.1)).count task

/-- What every state has that a run reaches. The limit stays; each task is
in one place; no more slots are taken or kept than there are; nobody queues
up for nothing; and what queues up, is woken or in flight has an address. -/
structure Kept (jobs : List Job) (limit : Nat) (s : Slots) : Prop where
  limit_eq : s.limit = limit
  places_eq : ∀ task, s.places task = if task < jobs.length then 1 else 0
  bounded : s.held ≤ limit
  conserving : s.queue ≠ [] → s.woken ≠ [] ∨ s.held = limit
  addressed : ∀ task, task ∈ s.queue ∨ task ∈ s.woken ∨ task ∈ s.flying →
    ∃ job url, jobs[task]? = some job ∧ job.url? = some url

/-- Whether a task has come as far as the fetch. -/
def isPast (s : Slots) (task : Nat) : Bool :=
  s.flying.contains task || (s.settled.map (·.1)).contains task

/-- How an outcome comes about: a job without an address ends with saying
so, any other with what its landing says. -/
def CameAbout (jobs : List Job) (moves : List Move) (task : Nat) (outcome : Outcome) :
    Prop :=
  ∃ job, jobs[task]? = some job
    ∧ (job.url? = none ∧ outcome = job.outcome (some noEnclosure)
      ∨ ∃ url result, job.url? = some url ∧ .lands task result ∈ moves
        ∧ outcome = job.outcome result.reason?)

/-- The calls are those of the state. A task that has come as far has been
fetched, once, and no other at all; the outcomes have been reported, each
once; and they are what came of the tasks. -/
structure Logged (jobs : List Job) (moves : List Move) (done : List Call) (s : Slots) :
    Prop where
  fetches : ∀ task, done.filter (Call.fetches task) =
    if s.isPast task then (fetchCall? jobs task).toList else []
  reports : ∀ task, done.filter (Call.reports task) =
    ((s.settled.filter (·.1 == task)).map fun entry => .report entry.1 entry.2).reverse
  outcomes : ∀ task outcome, (task, outcome) ∈ s.settled → CameAbout jobs moves task outcome

variable {jobs : List Job} {limit task : Nat} {s s' : Slots} {moves : List Move}
  {move : Move} {done new : List Call}

-- ============================================================= waking

/-- Waking moves the first in the queue to the woken if there is a slot for
it, and does nothing otherwise. -/
theorem wake_cases (s : Slots) :
    (∃ first rest, s.queue = first :: rest ∧ s.held < s.limit
      ∧ s.wake = { s with queue := rest, woken := s.woken ++ [first] })
    ∨ ((s.queue = [] ∨ s.limit ≤ s.held) ∧ s.wake = s) := by
  unfold wake
  cases hqueue : s.queue with
  | nil => exact Or.inr ⟨Or.inl rfl, rfl⟩
  | cons first rest =>
      by_cases hheld : s.held < s.limit
      · refine Or.inl ⟨first, rest, rfl, hheld, ?_⟩
        simp only
        rw [if_pos hheld]
      · refine Or.inr ⟨Or.inr (by omega), ?_⟩
        simp only
        rw [if_neg hheld]

@[simp] theorem wake_fresh (s : Slots) : s.wake.fresh = s.fresh := by
  rcases s.wake_cases with ⟨_, _, -, -, h⟩ | ⟨-, h⟩ <;> rw [h]

@[simp] theorem wake_flying (s : Slots) : s.wake.flying = s.flying := by
  rcases s.wake_cases with ⟨_, _, -, -, h⟩ | ⟨-, h⟩ <;> rw [h]

@[simp] theorem wake_settled (s : Slots) : s.wake.settled = s.settled := by
  rcases s.wake_cases with ⟨_, _, -, -, h⟩ | ⟨-, h⟩ <;> rw [h]

@[simp] theorem wake_isPast (s : Slots) (task : Nat) :
    s.wake.isPast task = s.isPast task := by
  unfold isPast
  rw [wake_flying, wake_settled]

@[simp] theorem wake_limit (s : Slots) : s.wake.limit = s.limit := by
  rcases s.wake_cases with ⟨_, _, -, -, h⟩ | ⟨-, h⟩ <;> rw [h]

/-- Waking takes no task from its place for good. -/
theorem wake_places (s : Slots) (task : Nat) : s.wake.places task = s.places task := by
  rcases s.wake_cases with ⟨first, rest, hqueue, -, h⟩ | ⟨-, h⟩
  · rw [h]
    unfold places
    simp only [hqueue, List.count_cons, List.count_append, List.count_nil]
    omega
  · rw [h]

/-- Whom waking concerns was there before. -/
theorem mem_wake (h : task ∈ s.wake.queue ∨ task ∈ s.wake.woken) :
    task ∈ s.queue ∨ task ∈ s.woken := by
  rcases s.wake_cases with ⟨first, rest, hqueue, -, hwake⟩ | ⟨-, hwake⟩
  · rw [hwake] at h
    rw [hqueue]
    simp only [List.mem_append, List.mem_cons, List.not_mem_nil, or_false] at *
    tauto
  · rw [hwake] at h
    exact h

/-- Waking restores what the other points of the invariant leave open: that
nobody queues up for nothing. -/
theorem kept_wake (hlimit : s.limit = limit)
    (hplaces : ∀ task, s.places task = if task < jobs.length then 1 else 0)
    (hbounded : s.held ≤ limit)
    (haddressed : ∀ task, task ∈ s.queue ∨ task ∈ s.woken ∨ task ∈ s.flying →
      ∃ job url, jobs[task]? = some job ∧ job.url? = some url) :
    Kept jobs limit s.wake := by
  refine ⟨by rw [wake_limit, hlimit], fun task => by rw [wake_places, hplaces], ?_, ?_, ?_⟩
  · rcases s.wake_cases with ⟨first, rest, -, hheld, hwake⟩ | ⟨-, hwake⟩
    · rw [hwake]
      unfold held at *
      simp only [List.length_append, List.length_singleton]
      omega
    · rw [hwake]
      exact hbounded
  · rcases s.wake_cases with ⟨first, rest, -, -, hwake⟩ | ⟨hnone, hwake⟩
    · rw [hwake]
      exact fun _ => Or.inl (by simp)
    · rw [hwake]
      intro hne
      rcases hnone with hnil | hfull
      · exact absurd hnil hne
      · exact Or.inr (by omega)
  · intro task htask
    rw [wake_flying] at htask
    rcases htask with htask | htask | htask
    · rcases mem_wake (Or.inl htask) with hmem | hmem
      · exact haddressed task (Or.inl hmem)
      · exact haddressed task (Or.inr (Or.inl hmem))
    · rcases mem_wake (Or.inr htask) with hmem | hmem
      · exact haddressed task (Or.inl hmem)
      · exact haddressed task (Or.inr (Or.inl hmem))
    · exact haddressed task (Or.inr (Or.inr htask))

-- ========================================================== one move

/-- What a move does, by what the task finds: the state after it and what
is done outside. A task that begins is over at once, takes off or queues up;
a woken task takes off; and a flight lands. -/
inductive Step (jobs : List Job) (s : Slots) : Move → List Call → Slots → Prop where
  | skip {task : Nat} {job : Job} (hfresh : task ∈ s.fresh)
      (hjob : jobs[task]? = some job) (hurl : job.url? = none) :
      Step jobs s (.begins task) [.report task (job.outcome (some noEnclosure))]
        { s with
          fresh := s.fresh.erase task
          settled := (task, job.outcome (some noEnclosure)) :: s.settled }
  | take {task : Nat} {job : Job} {url : Text} (hfresh : task ∈ s.fresh)
      (hjob : jobs[task]? = some job) (hurl : job.url? = some url)
      (hopen : s.isOpen = true) :
      Step jobs s (.begins task) [.fetch task url job.path]
        { s with fresh := s.fresh.erase task, flying := task :: s.flying }
  | wait {task : Nat} {job : Job} {url : Text} (hfresh : task ∈ s.fresh)
      (hjob : jobs[task]? = some job) (hurl : job.url? = some url)
      (hopen : s.isOpen = false) :
      Step jobs s (.begins task) []
        { s with fresh := s.fresh.erase task, queue := s.queue ++ [task] }
  | takeOff {task : Nat} {job : Job} {url : Text} (hwoken : task ∈ s.woken)
      (hjob : jobs[task]? = some job) (hurl : job.url? = some url) :
      Step jobs s (.takesOff task) [.fetch task url job.path]
        (wake { s with woken := s.woken.erase task, flying := task :: s.flying })
  | land {task : Nat} {job : Job} {result : Result} (hflying : task ∈ s.flying)
      (hjob : jobs[task]? = some job) :
      Step jobs s (.lands task result) [.report task (job.outcome result.reason?)]
        (wake { s with
          flying := s.flying.erase task
          settled := (task, job.outcome result.reason?) :: s.settled })

/-- A task is in one place only. -/
theorem Kept.isPast_eq_false (h : Kept jobs limit s)
    (hmem : task ∈ s.fresh ∨ task ∈ s.queue ∨ task ∈ s.woken) :
    s.isPast task = false := by
  have hcount : 0 < s.fresh.count task + s.queue.count task + s.woken.count task := by
    rcases hmem with hmem | hmem | hmem
    · have := List.count_pos_iff.mpr hmem
      omega
    · have := List.count_pos_iff.mpr hmem
      omega
    · have := List.count_pos_iff.mpr hmem
      omega
  have hplaces : s.places task ≤ 1 := by
    rw [h.places_eq task]
    split <;> omega
  unfold places at hplaces
  have hflying : task ∉ s.flying := List.count_eq_zero.mp (by omega)
  have hsettled : task ∉ s.settled.map (·.1) := List.count_eq_zero.mp (by omega)
  unfold isPast
  simp only [Bool.or_eq_false_iff, List.contains_eq_mem, decide_eq_false_iff_not]
  exact ⟨hflying, hsettled⟩

/-- A task that has not come as far as the fetch is not in flight. -/
theorem notMem_flying (h : s.isPast task = false) : task ∉ s.flying := by
  unfold isPast at h
  simp only [Bool.or_eq_false_iff, List.contains_eq_mem, decide_eq_false_iff_not] at h
  exact h.1

/-- A task is in flight once. -/
theorem Kept.nodup_flying (h : Kept jobs limit s) : s.flying.Nodup := by
  rw [List.nodup_iff_count]
  intro task
  have hplaces := h.places_eq task
  unfold places at hplaces
  split at hplaces <;> omega

/-- A task with an address is to be fetched from it. -/
theorem fetchCall?_eq_some {job : Job} {url : Text} (hjob : jobs[task]? = some job)
    (hurl : job.url? = some url) :
    fetchCall? jobs task = some (.fetch task url job.path) := by
  unfold fetchCall?
  rw [hjob, Option.bind_some, hurl, Option.map_some]

/-- A task without is not to be fetched. -/
theorem fetchCall?_eq_none {job : Job} (hjob : jobs[task]? = some job)
    (hurl : job.url? = none) : fetchCall? jobs task = none := by
  unfold fetchCall?
  rw [hjob, Option.bind_some, hurl, Option.map_none]

/-- The tasks of a list that are not in it: none. -/
private theorem filter_notMem_self {xs ys : List Nat} (h : xs ⊆ ys) :
    xs.filter (fun task => !ys.contains task) = [] := by
  rw [List.filter_eq_nil_iff]
  intro task htask
  simpa using h htask

/-- The calls of a move after which a task is in flight. -/
theorem calls_of_flying {job : Job} {url : Text} (hnot : task ∉ s.flying)
    (hjob : jobs[task]? = some job) (hurl : job.url? = some url)
    (hflying : s'.flying = task :: s.flying) (hsettled : s'.settled = s.settled) :
    s.calls jobs s' = [.fetch task url job.path] := by
  unfold calls
  rw [hflying, hsettled, List.filter_cons_of_pos (by simpa using hnot),
    filter_notMem_self (List.Subset.refl _),
    List.filterMap_cons_some (fetchCall?_eq_some hjob hurl), Nat.sub_self]
  rfl

/-- The calls of a move after which a task is over. -/
theorem calls_of_settled {outcome : Outcome} (hflying : s'.flying ⊆ s.flying)
    (hsettled : s'.settled = (task, outcome) :: s.settled) :
    s.calls jobs s' = [.report task outcome] := by
  unfold calls
  rw [filter_notMem_self hflying, hsettled, List.length_cons, Nat.add_sub_cancel_left]
  rfl

/-- The calls of a move after which a task waits: none. -/
theorem calls_of_waiting (hflying : s'.flying = s.flying)
    (hsettled : s'.settled = s.settled) : s.calls jobs s' = [] := by
  unfold calls
  rw [hflying, hsettled, filter_notMem_self (List.Subset.refl _), Nat.sub_self]
  rfl

/-- A step whose calls are those between its two states. -/
private theorem Step.of_calls (h : Step jobs s move done s')
    (hcalls : s.calls jobs s' = done) : Step jobs s move (s.calls jobs s') s' := by
  rw [hcalls]
  exact h

/-- Every move that is allowed is one of the five. -/
theorem step_of_move? (hkept : Kept jobs limit s) (h : s.move? jobs move = some s') :
    Step jobs s move (s.calls jobs s') s' := by
  cases move with
  | begins task =>
      simp only [move?] at h
      split at h
      case isTrue => cases h
      case isFalse hfresh =>
        have hfresh : task ∈ s.fresh := by simpa using hfresh
        obtain ⟨job, hjob, h⟩ := Option.bind_eq_some_iff.mp h
        have h := Option.some.inj h
        split at h
        case h_1 hurl =>
          subst h
          exact (Step.skip hfresh hjob hurl).of_calls
            (calls_of_settled (List.Subset.refl _) rfl)
        case h_2 url hurl =>
          have hnot := notMem_flying (hkept.isPast_eq_false (Or.inl hfresh))
          split at h
          case isTrue hopen =>
            subst h
            exact (Step.take hfresh hjob hurl hopen).of_calls
              (calls_of_flying hnot hjob hurl rfl rfl)
          case isFalse hopen =>
            subst h
            have hclosed : s.isOpen = false := by
              rw [← Bool.not_eq_true]
              exact hopen
            exact (Step.wait hfresh hjob hurl hclosed).of_calls (calls_of_waiting rfl rfl)
  | takesOff task =>
      simp only [move?] at h
      split at h
      case isTrue => cases h
      case isFalse hwoken =>
        have hwoken : task ∈ s.woken := by simpa using hwoken
        have h := Option.some.inj h
        obtain ⟨job, url, hjob, hurl⟩ := hkept.addressed task (Or.inr (Or.inl hwoken))
        have hnot := notMem_flying (hkept.isPast_eq_false (Or.inr (Or.inr hwoken)))
        subst h
        exact (Step.takeOff hwoken hjob hurl).of_calls
          (calls_of_flying hnot hjob hurl (by simp) (by simp))
  | lands task result =>
      simp only [move?] at h
      split at h
      case isTrue => cases h
      case isFalse hflying =>
        have hflying : task ∈ s.flying := by simpa using hflying
        obtain ⟨job, hjob, h⟩ := Option.bind_eq_some_iff.mp h
        have h := Option.some.inj h
        subst h
        exact (Step.land hflying hjob).of_calls
          (calls_of_settled (by simpa using List.erase_subset) (by simp))

/-- Moving a task from one place to another leaves it in one place. -/
private theorem count_erase_add {xs : List Nat} {task : Nat} (h : task ∈ xs)
    (other : Nat) :
    (xs.erase task).count other + (if task = other then 1 else 0)
      = xs.count other := by
  rw [List.count_erase]
  by_cases hsame : task = other
  · subst hsame
    have := List.count_pos_iff.mpr h
    simp only [beq_self_eq_true, if_true]
    omega
  · rw [if_neg hsame, if_neg (by simpa using hsame)]
    omega

/-- A closed door: somebody is before, or all slots are taken or kept. -/
private theorem of_isOpen_eq_false (h : s.isOpen = false) :
    s.queue ≠ [] ∨ s.woken ≠ [] ∨ s.limit ≤ s.held := by
  unfold isOpen at h
  simp only [Bool.and_eq_false_iff, List.isEmpty_eq_false_iff,
    decide_eq_false_iff_not, Nat.not_lt] at h
  rcases h with (hqueue | hwoken) | hfull
  · exact Or.inl hqueue
  · exact Or.inr (Or.inl hwoken)
  · exact Or.inr (Or.inr hfull)

/-- An open door: nobody is before, and there is a slot. -/
private theorem of_isOpen (h : s.isOpen = true) :
    s.queue = [] ∧ s.woken = [] ∧ s.held < s.limit := by
  unfold isOpen at h
  simp only [Bool.and_eq_true, List.isEmpty_iff, decide_eq_true_eq] at h
  exact ⟨h.1.1, h.1.2, h.2⟩

/-- At the start nothing is anywhere but among those not begun. -/
theorem kept_initial (jobs : List Job) (limit : Nat) :
    Kept jobs limit (initial limit jobs.length) := by
  refine ⟨rfl, fun task => ?_, Nat.zero_le _, fun h => absurd rfl h, ?_⟩
  · simp only [places, initial, List.count_nil, List.map_nil, List.count_range]
    rfl
  · rintro task (h | h | h) <;> cases h

/-- Every move keeps the invariant. -/
theorem Kept.step (h : Kept jobs limit s)
    (hstep : Step jobs s move done s') : Kept jobs limit s' := by
  obtain ⟨hlimit, hplaces, hbounded, hconserving, haddressed⟩ := h
  cases hstep with
  | @skip task job hfresh hjob hurl =>
      refine ⟨hlimit, fun other => ?_, hbounded, hconserving, haddressed⟩
      have herase := count_erase_add hfresh other
      rw [← hplaces other]
      unfold places
      simp only [List.map_cons, List.count_cons, beq_iff_eq]
      omega
  | @take task job url hfresh hjob hurl hopen =>
      obtain ⟨hqueue, hwoken, hheld⟩ := of_isOpen hopen
      refine ⟨hlimit, fun other => ?_, ?_, fun hne => absurd hqueue hne, ?_⟩
      · have herase := count_erase_add hfresh other
        rw [← hplaces other]
        unfold places
        simp only [List.count_cons, beq_iff_eq]
        omega
      · unfold held at *
        simp only [List.length_cons]
        omega
      · intro other hother
        simp only [List.mem_cons] at hother
        rcases hother with hother | hother | rfl | hother
        · exact haddressed other (Or.inl hother)
        · exact haddressed other (Or.inr (Or.inl hother))
        · exact ⟨job, url, hjob, hurl⟩
        · exact haddressed other (Or.inr (Or.inr hother))
  | @wait task job url hfresh hjob hurl hopen =>
      refine ⟨hlimit, fun other => ?_, hbounded, fun _ => ?_, ?_⟩
      · have herase := count_erase_add hfresh other
        rw [← hplaces other]
        unfold places
        simp only [List.count_append, List.count_cons, List.count_nil, beq_iff_eq]
        omega
      · -- somebody was before this task, or the slots are all taken or kept
        rcases of_isOpen_eq_false hopen with hqueue | hwoken | hfull
        · exact hconserving hqueue
        · exact Or.inl hwoken
        · refine Or.inr ?_
          change s.held = limit
          omega
      · intro other hother
        simp only [List.mem_append, List.mem_cons, List.not_mem_nil, or_false] at hother
        rcases hother with (hother | rfl) | hother | hother
        · exact haddressed other (Or.inl hother)
        · exact ⟨job, url, hjob, hurl⟩
        · exact haddressed other (Or.inr (Or.inl hother))
        · exact haddressed other (Or.inr (Or.inr hother))
  | @takeOff task job url hwoken hjob hurl =>
      refine kept_wake hlimit (fun other => ?_) ?_ ?_
      · have herase := count_erase_add hwoken other
        rw [← hplaces other]
        unfold places
        simp only [List.count_cons, beq_iff_eq]
        omega
      · -- the slot that was kept is taken
        have := List.length_pos_of_mem hwoken
        unfold held at *
        simp only [List.length_cons, List.length_erase_of_mem hwoken]
        omega
      · intro other hother
        rcases hother with hother | hother | hother
        · exact haddressed other (Or.inl hother)
        · exact haddressed other (Or.inr (Or.inl (List.mem_of_mem_erase hother)))
        · rcases List.mem_cons.mp hother with rfl | hother
          · exact ⟨job, url, hjob, hurl⟩
          · exact haddressed other (Or.inr (Or.inr hother))
  | @land task job result hflying hjob =>
      refine kept_wake hlimit (fun other => ?_) ?_ ?_
      · have herase := count_erase_add hflying other
        rw [← hplaces other]
        unfold places
        simp only [List.map_cons, List.count_cons, beq_iff_eq]
        omega
      · -- a slot is given back
        unfold held at *
        simp only [List.length_erase_of_mem hflying]
        omega
      · intro other hother
        rcases hother with hother | hother | hother
        · exact haddressed other (Or.inl hother)
        · exact haddressed other (Or.inr (Or.inl hother))
        · exact haddressed other (Or.inr (Or.inr (List.mem_of_mem_erase hother)))

-- ============================================================ calls

/-- At the start nothing has been done. -/
theorem logged_initial (jobs : List Job) (limit : Nat) :
    Logged jobs [] [] (initial limit jobs.length) := by
  refine ⟨fun task => rfl, fun task => rfl, ?_⟩
  rintro task outcome ⟨⟩

/-- More moves take nothing away from how an outcome came about. -/
private theorem CameAbout.append {outcome : Outcome} (h : CameAbout jobs moves task outcome)
    (move : Move) : CameAbout jobs (moves ++ [move]) task outcome := by
  obtain ⟨job, hjob, hnone | ⟨url, result, hurl, hlands, houtcome⟩⟩ := h
  · exact ⟨job, hjob, Or.inl hnone⟩
  · exact ⟨job, hjob, Or.inr ⟨url, result, hurl, List.mem_append_left _ hlands, houtcome⟩⟩

/-- A task is in flight: from a state that it had not come as far in. -/
private theorem fetches_of_flying {url : Text} {job : Job}
    (h : ∀ task, done.filter (Call.fetches task) =
      if s.isPast task then (fetchCall? jobs task).toList else [])
    (hnot : s.isPast task = false) (hjob : jobs[task]? = some job)
    (hurl : job.url? = some url)
    (hpast : ∀ other, s'.isPast other = (task == other || s.isPast other)) (other : Nat) :
    (done ++ [Call.fetch task url job.path]).filter (Call.fetches other) =
      if s'.isPast other then (fetchCall? jobs other).toList else [] := by
  have hcall := fetchCall?_eq_some hjob hurl
  rw [List.filter_append, h, hpast]
  by_cases hsame : task = other
  · subst hsame
    rw [hnot, hcall]
    simp [Call.fetches]
  · have hbeq : (task == other) = false := by simpa using hsame
    rw [hbeq, Bool.false_or]
    simp [Call.fetches, hbeq]

/-- A task is over: its report joins those of the tasks that were. -/
private theorem reports_of_settled {outcome : Outcome}
    (h : ∀ task, done.filter (Call.reports task) =
      ((s.settled.filter (·.1 == task)).map fun entry => .report entry.1 entry.2).reverse)
    (other : Nat) :
    (done ++ [Call.report task outcome]).filter (Call.reports other) =
      ((((task, outcome) :: s.settled).filter (·.1 == other)).map
        fun entry => .report entry.1 entry.2).reverse := by
  rw [List.filter_append, h, List.filter_cons]
  by_cases hsame : task = other
  · subst hsame
    simp [Call.reports]
  · have hbeq : (task == other) = false := by simpa using hsame
    simp [Call.reports, hbeq]

/-- Every move keeps the calls to those of the state. -/
theorem Logged.step (h : Logged jobs moves done s) (hkept : Kept jobs limit s)
    (hstep : Step jobs s move new s') :
    Logged jobs (moves ++ [move]) (done ++ new) s' := by
  obtain ⟨hfetches, hreports, houtcomes⟩ := h
  cases hstep with
  | @skip task job hfresh hjob hurl =>
      have hnot := hkept.isPast_eq_false (Or.inl hfresh)
      refine ⟨fun other => ?_, reports_of_settled hreports, ?_⟩
      · have hcall := fetchCall?_eq_none hjob hurl
        rw [List.filter_append, hfetches other]
        by_cases hsame : task = other
        · subst hsame
          rw [hnot, hcall]
          simp [Call.fetches]
        · have hbeq : (other == task) = false := by simpa using Ne.symm hsame
          unfold isPast
          rw [List.map_cons, List.contains_cons, hbeq, Bool.false_or]
          simp [Call.fetches]
      · intro other outcome hother
        rcases List.mem_cons.mp hother with heq | hother
        · obtain ⟨rfl, rfl⟩ := Prod.mk.inj heq
          exact ⟨job, hjob, Or.inl ⟨hurl, rfl⟩⟩
        · exact (houtcomes other outcome hother).append _
  | @take task job url hfresh hjob hurl hopen =>
      have hnot := hkept.isPast_eq_false (Or.inl hfresh)
      refine ⟨fetches_of_flying hfetches hnot hjob hurl fun other => ?_, fun other => ?_,
        fun other outcome hother => (houtcomes other outcome hother).append _⟩
      · unfold isPast
        rw [List.contains_cons, Bool.or_assoc, Bool.beq_comm]
      · rw [List.filter_append, hreports other]
        simp [Call.reports]
  | @wait task job url hfresh hjob hurl hopen =>
      rw [List.append_nil]
      exact ⟨hfetches, hreports,
        fun other outcome hother => (houtcomes other outcome hother).append _⟩
  | @takeOff task job url hwoken hjob hurl =>
      have hnot := hkept.isPast_eq_false (Or.inr (Or.inr hwoken))
      refine ⟨fetches_of_flying hfetches hnot hjob hurl fun other => ?_, fun other => ?_,
        fun other outcome hother => ?_⟩
      · rw [wake_isPast]
        unfold isPast
        rw [List.contains_cons, Bool.or_assoc, Bool.beq_comm]
      · rw [List.filter_append, hreports other, wake_settled]
        simp [Call.reports]
      · rw [wake_settled] at hother
        exact (houtcomes other outcome hother).append _
  | @land task job result hflying hjob =>
      refine ⟨fun other => ?_, fun other => ?_, fun other outcome hother => ?_⟩
      · rw [wake_isPast, List.filter_append, hfetches other]
        -- the task was in flight and is over: it is past the fetch before and after
        have hpast : isPast { s with
            flying := s.flying.erase task
            settled := (task, job.outcome result.reason?) :: s.settled } other
              = s.isPast other := by
          unfold isPast
          simp only [List.map_cons, List.contains_cons]
          by_cases hsame : other = task
          · subst hsame
            simp [hflying]
          · have hbeq : (other == task) = false := by simpa using hsame
            rw [hbeq, Bool.false_or]
            simp [List.mem_erase_of_ne hsame]
        rw [hpast]
        simp [Call.fetches]
      · rw [wake_settled]
        exact reports_of_settled hreports other
      · rw [wake_settled] at hother
        rcases List.mem_cons.mp hother with heq | hother
        · obtain ⟨rfl, rfl⟩ := Prod.mk.inj heq
          obtain ⟨job', url, hjob', hurl⟩ :=
            hkept.addressed other (Or.inr (Or.inr hflying))
          obtain rfl : job' = job := Option.some.inj (hjob'.symm.trans hjob)
          exact ⟨job', hjob, Or.inr ⟨url, result, hurl, by simp, rfl⟩⟩
        · exact (houtcomes other outcome hother).append _

-- ============================================================= runs

/-- A run goes on with moves that are allowed one after the other. -/
theorem Run.exists_append (run : Run jobs limit moves done s) (more : List Move)
    (h : more.foldlM (fun s move => s.move? jobs move) s = some s') :
    ∃ new, Run jobs limit (moves ++ more) (done ++ new) s' := by
  induction more generalizing moves done s with
  | nil =>
      obtain rfl := Option.some.inj h
      refine ⟨[], ?_⟩
      rw [List.append_nil, List.append_nil]
      exact run
  | cons move more ih =>
      rw [List.foldlM_cons] at h
      obtain ⟨next, hmove, h⟩ := Option.bind_eq_some_iff.mp h
      obtain ⟨new, run⟩ := ih (run.next hmove) h
      rw [List.append_assoc, List.append_assoc] at run
      exact ⟨_, run⟩

/-- Every state that a run reaches is kept. -/
theorem Run.kept (run : Run jobs limit moves done s) : Kept jobs limit s := by
  induction run with
  | start => exact kept_initial jobs limit
  | next run h ih => exact ih.step (step_of_move? ih h)

/-- The last move of a run is one of the five. -/
theorem Run.step (run : Run jobs limit moves done s) (h : s.move? jobs move = some s') :
    Step jobs s move (s.calls jobs s') s' :=
  step_of_move? run.kept h

/-- A run goes on with a move that is allowed. -/
theorem Run.exists_step (run : Run jobs limit moves done s)
    (h : s.move? jobs move = some s') :
    ∃ new, Step jobs s move new s' ∧ Run jobs limit (moves ++ [move]) (done ++ new) s' :=
  ⟨_, run.step h, run.next h⟩

/-- The calls of every run are those of its last state. -/
theorem Run.logged (run : Run jobs limit moves done s) : Logged jobs moves done s := by
  induction run with
  | start => exact logged_initial jobs limit
  | next run h ih => exact ih.step run.kept (run.step h)

end Slots

end FeedSieve.Download
