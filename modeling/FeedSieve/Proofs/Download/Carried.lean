/-
The downloads that are carried out are a course.

The schedule lets a fetch land as soon as it takes off, and makes it as a
whole. That is one of the ways in which flights may take turns: the steps of
a fetch one after the other, then its landing (`Carried`). So what holds at
the end of every course holds when a run returns (`run_course`).
-/
import FeedSieve.Proofs.Download.Execution
import FeedSieve.Proofs.Download.Traffic

namespace FeedSieve.Download

open Files (Place Tree)

/-- How a program of such habits fetches. -/
def Habits.fetching (habits : Habits) : Fetching World :=
  Download.fetching habits.agent habits.retries habits.delay

variable {jobs : List Job} {limit task : Nat} {habits : Habits} {files : Tree}
  {moves : List Move} {done : List Call} {traffic : Traffic} {job : Job} {errand : Errand}

/-- A course goes on with the steps of a flight that has a slot. -/
theorem Course.flown (course : Course jobs limit habits files moves done traffic)
    (hflying : task ∈ traffic.slots.flying) (hjob : jobs[task]? = some job)
    (herrand : job.errand? habits = some errand) {flight : Flight} {desk : Desk}
    (hflies : Flight.Flies errand task (traffic.flights task) traffic.desk flight desk) :
    Course jobs limit habits files moves done
      ⟨traffic.slots, Function.update traffic.flights task flight, desk⟩ := by
  induction hflies with
  | here =>
      rw [Function.update_eq_self]
      exact course
  | further _ fortune ih =>
      have hnext := Course.flies ih hflying hjob herrand fortune
      unfold Traffic.flown at hnext
      simp only [Function.update_self, Function.update_idem] at hnext
      exact hnext

/-- It goes on with a fetch as a whole. -/
theorem Course.fetched {s : Slots} {flights : Nat → Flight} {world : World}
    {opened : Nat → Option Place}
    (course : Course jobs limit habits files moves done ⟨s, flights, ⟨world.files, opened⟩⟩)
    (hflying : task ∈ s.flying) (hjob : jobs[task]? = some job)
    (herrand : job.errand? habits = some errand) (hready : flights task = .ready) :
    ∃ flights' opened', (flights' task).stage = .over (fetch errand world).2
      ∧ (∀ other, other ≠ task → flights' other = flights other)
      ∧ Course jobs limit habits files moves done
        ⟨s, flights', ⟨(fetch errand world).1.files, opened'⟩⟩ := by
  have hretries : 0 ≤ errand.retries := by
    obtain ⟨url, -, rfl⟩ := Option.map_eq_some_iff.mp herrand
    exact Int.natCast_nonneg _
  obtain ⟨made, opened', -, -, hflies⟩ :=
    Flight.flies_fetch task (fun _ => .none) hretries world opened
  rw [← hready] at hflies
  refine ⟨_, opened', ?_, fun other hother => ?_, course.flown hflying hjob herrand hflies⟩
  · rw [Function.update_self]
    rfl
  · exact Function.update_of_ne hother ..

namespace Running

variable {r : Running World} {url : Text} {move : Move}

/-- A run in progress goes with a course. Unless it is stopped, no flight has
begun that is not over. -/
def Carried (jobs : List Job) (limit : Nat) (habits : Habits) (files : Tree)
    (r : Running World) : Prop :=
  ∃ moves done flights opened,
    Course jobs limit habits files moves done ⟨r.slots, flights, ⟨r.world.files, opened⟩⟩
      ∧ (r.interrupted = none → ∀ task, task ∉ r.slots.settled.map (·.1) →
        flights task = .ready)

/-- At the start nothing has been carried out. -/
theorem carried_start (jobs : List Job) (limit : Nat) (habits : Habits) (world : World) :
    Carried jobs limit habits world.files ⟨world, .initial limit jobs.length, 0, [], [], none⟩ :=
  ⟨[], [], _, _, .start, fun _ _ _ => rfl⟩

/-- The state is one that a run can reach. -/
theorem Carried.run (h : Carried jobs limit habits files r) :
    ∃ moves done, Slots.Run jobs limit moves done r.slots := by
  obtain ⟨moves, done, flights, opened, course, -⟩ := h
  exact ⟨moves, done, course.run⟩

/-- What is in flight is not over. -/
theorem Carried.notMem_settled (h : Carried jobs limit habits files r)
    (hmem : task ∈ r.slots.flying) : task ∉ r.slots.settled.map (·.1) := by
  obtain ⟨moves, done, run⟩ := h.run
  have hplaces := run.kept.places_eq task
  have hcount := List.count_pos_iff.mpr hmem
  rw [← List.count_eq_zero]
  unfold Slots.places at hplaces
  split at hplaces <;> omega

/-- A move that is no landing goes with the course. -/
theorem Carried.moved (h : Carried jobs limit habits files r)
    (hlands : ∀ task result, move ≠ .lands task result) :
    Carried jobs limit habits files (moved jobs r move) := by
  cases hmove : r.slots.move? jobs move with
  | none =>
      unfold Running.moved
      rw [hmove]
      exact h
  | some s =>
      obtain ⟨moves, done, flights, opened, course, hready⟩ := h
      rw [moved_eq hmove]
      refine ⟨_, _, flights, opened, course.moves hmove ?_, fun hgoing task hnot => ?_⟩
      · exact fun task result heq => absurd heq (hlands task result)
      · refine hready hgoing task fun hmem => hnot ?_
        have hstep := course.run.step hmove
        generalize Slots.calls jobs _ s = new at hstep
        cases hstep with
        | skip => exact List.mem_cons_of_mem _ hmem
        | take | wait => exact hmem
        | takeOff =>
            rw [Slots.wake_settled]
            exact hmem
        | land => exact absurd rfl (hlands _ _)

/-- A landing does, with the steps of the fetch before it. -/
theorem Carried.landed (h : Carried jobs limit habits files r) (hgoing : r.interrupted = none)
    (hmem : task ∈ r.slots.flying) :
    Carried jobs limit habits files (landed habits.fetching jobs task r) := by
  obtain ⟨moves, done, run⟩ := h.run
  obtain ⟨job, url, hjob, hurl⟩ := run.kept.addressed task (Or.inr (Or.inr hmem))
  have hnot := h.notMem_settled hmem
  obtain ⟨moves, done, flights, opened, course, hready⟩ := h
  have herrand : job.errand? habits
      = some ⟨url, job.path, habits.agent, habits.retries, habits.delay⟩ := by
    unfold Job.errand?
    rw [hurl]
    rfl
  -- first the steps of the fetch, then the landing with what they came to
  obtain ⟨flights', opened', hstage, hothers, course⟩ :=
    course.fetched hmem hjob herrand (hready hgoing task hnot)
  generalize hfetch : fetch ⟨url, job.path, habits.agent, habits.retries, habits.delay⟩ r.world
    = fetched at hstage course
  obtain ⟨world, ending⟩ := fetched
  have hland : habits.fetching.land url job.path r.world = (world, ending.result) := by
    simp only [Habits.fetching, fetching, hfetch]
  cases hresult : ending.result with
  | error text =>
      rw [landed_eq_of_error hjob hurl (hland.trans (by rw [hresult]))]
      exact ⟨moves, done, flights', opened', course, (nomatch ·)⟩
  | ok result =>
      rw [landed_eq_of_ok hjob hurl (hland.trans (by rw [hresult]))]
      obtain ⟨s, hmove⟩ := run.kept.exists_lands hmem result
      have hmoved := moved_eq (r := { r with
        world := world
        landings := r.landings.filter (·.1 != task)
        happened := .ended url r.clock :: r.happened }) hmove
      rw [hmoved]
      refine ⟨_, _, flights', opened', course.moves hmove ?_, fun _ other hother => ?_⟩
      · rintro other result' hlanding
        obtain ⟨rfl, rfl⟩ := Move.lands.inj hlanding
        exact ⟨ending, hstage, hresult⟩
      · have hstep := run.step hmove
        generalize Slots.calls jobs _ s = new at hstep
        cases hstep with
        | land =>
            rw [Slots.wake_settled, List.map_cons, List.mem_cons, not_or] at hother
            rw [hothers other hother.1]
            exact hready hgoing other hother.2

/-- What lands is not to land any more. -/
private theorem landings_landed {fetching : Fetching World} (hjob : jobs[task]? = some job)
    (hurl : job.url? = some url) :
    (Running.landed fetching jobs task r).landings = r.landings.filter (·.1 != task) := by
  cases hland : fetching.land url job.path r.world with
  | mk world ending =>
      cases ending with
      | error text => rw [landed_eq_of_error hjob hurl hland]
      | ok result =>
          rw [landed_eq_of_ok hjob hurl hland]
          unfold Running.moved
          split <;> rfl

/-- A task that takes off lands at once. -/
theorem Carried.launched (h : Carried jobs limit habits files r) (hgoing : r.interrupted = none)
    (hmem : task ∈ r.slots.flying) (hlandings : r.landings = []) :
    Carried jobs limit habits files (launched habits.fetching jobs task r)
      ∧ (Running.launched habits.fetching jobs task r).landings = [] := by
  obtain ⟨moves, done, run⟩ := h.run
  obtain ⟨job, url, hjob, hurl⟩ := run.kept.addressed task (Or.inr (Or.inr hmem))
  unfold Running.launched
  simp only [hjob, Option.bind_some, hurl, Option.map_some, Habits.fetching, fetching, if_true]
  refine ⟨Carried.landed h hgoing hmem, ?_⟩
  rw [landings_landed hjob hurl, hlandings]
  simp

/-- A task begins, and its fetch is carried out if it finds a slot. -/
theorem Carried.began (h : Carried jobs limit habits files r) (hlandings : r.landings = [])
    (task : Nat) :
    Carried jobs limit habits files (began habits.fetching jobs r task)
      ∧ (Running.began habits.fetching jobs r task).landings = [] := by
  have hmoved : Carried jobs limit habits files (Running.moved jobs r (.begins task)) :=
    h.moved fun _ _ heq => nomatch heq
  have hsame : (Running.moved jobs r (.begins task)).landings = []
      ∧ (Running.moved jobs r (.begins task)).interrupted = r.interrupted := by
    unfold Running.moved
    split <;> exact ⟨hlandings, rfl⟩
  unfold Running.began
  split
  case isTrue => exact ⟨h, hlandings⟩
  case isFalse hgoing =>
    have hgoing : r.interrupted = none := by simpa using hgoing
    simp only
    split
    case isTrue hmem =>
      exact hmoved.launched (hsame.2.trans hgoing) (by simpa using hmem) hsame.1
    case isFalse => exact ⟨hmoved, hsame.1⟩

/-- All tasks begin. -/
theorem Carried.begun (h : Carried jobs limit habits files r) (hlandings : r.landings = [])
    (tasks : List Nat) :
    Carried jobs limit habits files (tasks.foldl (Running.began habits.fetching jobs) r)
      ∧ (tasks.foldl (Running.began habits.fetching jobs) r).landings = [] := by
  induction tasks generalizing r with
  | nil => exact ⟨h, hlandings⟩
  | cons task rest ih =>
      obtain ⟨hbegan, hnone⟩ := h.began hlandings task
      exact ih hbegan hnone

/-- The next that is woken takes off. -/
theorem Carried.advances (h : Carried jobs limit habits files r) (hlandings : r.landings = [])
    {r' : Running World} (hadvanced : advanced? habits.fetching jobs r = some r') :
    Carried jobs limit habits files r' ∧ r'.landings = [] := by
  obtain ⟨hgoing, ⟨task, hmem, rfl⟩ | ⟨flight, hnext, -⟩⟩ := advanced?_cases hadvanced
  · obtain ⟨s, hmove⟩ := Slots.exists_takesOff jobs hmem
    obtain ⟨moves, done, run⟩ := h.run
    have hflying : task ∈ s.flying := by
      have hstep := run.step hmove
      generalize Slots.calls jobs _ s = new at hstep
      cases hstep with
      | takeOff =>
          rw [Slots.wake_flying]
          exact List.mem_cons_self
    have hmoved : Carried jobs limit habits files (Running.moved jobs r (.takesOff task)) :=
      h.moved fun _ _ heq => nomatch heq
    rw [moved_eq hmove] at hmoved ⊢
    exact hmoved.launched hgoing hflying hlandings
  · -- none is on its way, so none can land
    rw [hlandings] at hnext
    cases hnext

/-- And so on to the end. -/
theorem Carried.finishes (steps : Nat) (h : Carried jobs limit habits files r)
    (hlandings : r.landings = []) :
    Carried jobs limit habits files (finished habits.fetching jobs steps r) := by
  induction steps generalizing r with
  | zero => exact h
  | succ steps ih =>
      rw [finished]
      cases hadvanced : advanced? habits.fetching jobs r with
      | none => exact h
      | some next =>
          obtain ⟨hnext, hnone⟩ := h.advances hlandings hadvanced
          exact ih hnext hnone

end Running

/-- When a run returns a course has come to its end: its files are those of
the world, and its outcomes those that are returned. -/
theorem run_course {items : List Feed.Item} {destination : Files.Path} (hlimit : 1 ≤ limit)
    (hnamed : ∀ item ∈ items, ∃ path, filePath item destination = .ok path) (habits : Habits)
    (world : World) {outcomes : List Outcome}
    (hreturned : (run habits.fetching limit destination items world).outcome = .ok outcomes) :
    ∃ moves done traffic,
      Course (jobsFor destination items).1 limit habits world.files moves done traffic
      ∧ traffic.slots.Over ∧ outcomes = traffic.slots.returned items
      ∧ (run habits.fetching limit destination items world).world.files = traffic.desk.files := by
  have hbroken := jobsFor_snd_eq_none hnamed
  unfold run at hreturned ⊢
  generalize jobsFor destination items = pair at hbroken hreturned ⊢
  obtain ⟨jobs, broken⟩ := pair
  obtain rfl : broken = none := hbroken
  simp only at hreturned ⊢
  obtain ⟨hbegun, hfresh⟩ := Running.sound_begun habits.fetching jobs limit world
  obtain ⟨hcarried, hlandings⟩ :=
    (Running.carried_start jobs limit habits world).begun rfl (List.range jobs.length)
  change Running.Carried jobs limit habits world.files (Running.begun habits.fetching jobs
    ⟨world, Slots.initial limit jobs.length, 0, [], [], none⟩) at hcarried
  change (Running.begun habits.fetching jobs
    ⟨world, Slots.initial limit jobs.length, 0, [], [], none⟩).landings = [] at hlandings
  generalize Running.begun habits.fetching jobs
    ⟨world, Slots.initial limit jobs.length, 0, [], [], none⟩ = r
    at hbegun hfresh hcarried hlandings hreturned ⊢
  cases hstop : r.interrupted with
  | some text =>
      rw [hstop] at hreturned
      cases hreturned
  | none =>
      rw [hstop] at hreturned
      obtain ⟨-, hover⟩ := hbegun.finishes (2 * jobs.length) hlimit
        fun hgoing => ⟨hfresh hgoing, hbegun.kept.remaining_le (hfresh hgoing)⟩
      have hfinished := hcarried.finishes (2 * jobs.length) hlandings
      simp only at hreturned ⊢
      generalize Running.finished habits.fetching jobs (2 * jobs.length) r = last
        at hover hfinished hreturned ⊢
      cases hgoing : last.interrupted with
      | some text =>
          rw [hgoing] at hreturned
          cases hreturned
      | none =>
          rw [hgoing] at hreturned
          obtain ⟨moves, done, flights, opened, course, -⟩ := hfinished
          exact ⟨moves, done, _, course, hover hgoing, (Except.ok.inj hreturned).symm, rfl⟩

end FeedSieve.Download
