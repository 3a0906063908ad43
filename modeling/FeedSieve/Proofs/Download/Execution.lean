/-
The schedule that is carried out is one of the runs.

A run in progress makes its moves through the slots, so its state is always
one that a run reaches. `Sound` says so, and how the rest of it goes with
that state: what has happened is what the run has done outside, every flight
has a landing, and going by what happened no more are in flight than are.

Between the move by which a task takes off and what happens then the two are
out of step; the tasks for which this is so are `aloft`. There is one at
most, and `launched` brings it back.

# The end

What the schedule does last is bounded by `Slots.remaining`: after all tasks
have begun every step lowers it, so the steps that are allowed for suffice,
and where no step is left all tasks are over. So a run returns what the
slots return, unless it is stopped (`run_spec`), and it is stopped only by a
fetch.
-/
import FeedSieve.Proofs.Download.Scheduling

namespace FeedSieve.Download

-- ==================================================== what can be seen

/-- What is seen of a happening: the address that is fetched, or the number
of the item whose outcome is reported. -/
def Happening.seen? : Happening → Option (Text ⊕ Nat)
  | started url _ => some (.inl url)
  | ended _ _ => none
  | reported index => some (.inr index)

/-- What is seen of a call. -/
def Call.seen : Call → Text ⊕ Nat
  | fetch _ url _ => .inl url
  | report _ outcome => .inr outcome.index

/-- How many are in flight after a happening, and how many have been at a
time. -/
def counted (flights : Nat × Nat) : Happening → Nat × Nat
  | .started _ _ => (flights.1 + 1, max flights.2 (flights.1 + 1))
  | .ended _ _ => (flights.1 - 1, flights.2)
  | .reported _ => flights

/-- The most in flight, counted from the last happening back. -/
theorem mostInFlight_reverse (happened : List Happening) :
    mostInFlight happened.reverse = (happened.foldr (fun h n => counted n h) (0, 0)).2 := by
  unfold mostInFlight
  rw [List.foldl_reverse]
  rfl

/-- The fetch for a task may end so. -/
def Fetching.MayEnd {World : Type} (fetching : Fetching World) (jobs : List Job) (task : Nat)
    (ending : Except Text Result) : Prop :=
  ∃ job url world, jobs[task]? = some job ∧ job.url? = some url
    ∧ (fetching.land url job.path world).2 = ending

namespace Running

variable {World : Type} {fetching : Fetching World} {jobs : List Job} {limit task : Nat}
  {aloft : List Nat} {r : Running World}

/-- How many are in flight, going by what happened, and how many have been
at a time. -/
def flights (r : Running World) : Nat × Nat :=
  r.happened.foldr (fun h n => counted n h) (0, 0)

/-- A run in progress goes with a run of the slots. What that did outside
has happened, but for the tasks aloft, and its fetches have ended as they
may. Unless the run is stopped, what is in flight is aloft or will land;
only a fetch stops it. Going by what happened no more are in flight than
are, and never were more than the limit allows. -/
structure Sound (fetching : Fetching World) (jobs : List Job) (limit : Nat)
    (aloft : List Nat) (r : Running World) : Prop where
  run : ∃ moves done, Slots.Run jobs limit moves done r.slots
    ∧ r.happened.reverse.filterMap Happening.seen?
        ++ aloft.filterMap (fun task => (fetchCall? jobs task).map Call.seen)
        = done.map Call.seen
    ∧ ∀ task result, .lands task result ∈ moves → fetching.MayEnd jobs task (.ok result)
  landings : r.interrupted = none →
    (r.landings.map (·.1) ++ aloft).Perm r.slots.flying
  flying : r.flights.1 + aloft.length ≤ r.slots.flying.length
  most : r.flights.2 ≤ limit
  stopped : ∀ text, r.interrupted = some text →
    ∃ task, fetching.MayEnd jobs task (.error text)

/-- At the start nothing has happened. -/
theorem sound_start (world : World) :
    Sound fetching jobs limit [] ⟨world, .initial limit jobs.length, 0, [], [], none⟩ :=
  ⟨⟨[], [], .start, rfl, fun _ _ h => absurd h List.not_mem_nil⟩, fun _ => List.Perm.refl _,
    Nat.le_refl _, Nat.zero_le _, fun _ h => nomatch h⟩

/-- The state is one that a run can reach. -/
theorem Sound.kept (h : Sound fetching jobs limit aloft r) :
    Slots.Kept jobs limit r.slots := by
  obtain ⟨moves, done, run, -⟩ := h.run
  exact run.kept

-- ========================================================== moves

/-- A move that is allowed is made, and a new outcome is reported. -/
theorem moved_eq {move : Move} {s' : Slots} (h : r.slots.move? jobs move = some s') :
    moved jobs r move = { r with
      slots := s'
      happened := (s'.settled.take (s'.settled.length - r.slots.settled.length)).map
        (.reported ·.2.index) ++ r.happened } := by
  unfold moved
  rw [h]

/-- A move that ends no task only changes the slots. -/
private theorem moved_eq_of_settled {move : Move} {s' : Slots}
    (h : r.slots.move? jobs move = some s') (hsettled : s'.settled = r.slots.settled) :
    moved jobs r move = { r with slots := s' } := by
  rw [moved_eq h, hsettled, Nat.sub_self]
  rfl

/-- A move that ends a task reports its outcome. -/
private theorem moved_eq_of_over {move : Move} {s' : Slots} {outcome : Outcome}
    (h : r.slots.move? jobs move = some s')
    (hsettled : s'.settled = (task, outcome) :: r.slots.settled) :
    moved jobs r move = { r with
      slots := s'
      happened := .reported outcome.index :: r.happened } := by
  rw [moved_eq h, hsettled, List.length_cons, Nat.add_sub_cancel_left]
  rfl

/-- A task takes off by a move, and is aloft. -/
private theorem Sound.flies {move : Move} {s' : Slots} {job : Job} {url : Text}
    (h : Sound fetching jobs limit [] r) (hmove : r.slots.move? jobs move = some s')
    (hlands : ∀ other result, move ≠ .lands other result)
    (hnot : task ∉ r.slots.flying) (hjob : jobs[task]? = some job)
    (hurl : job.url? = some url) (hflying : s'.flying = task :: r.slots.flying)
    (hsettled : s'.settled = r.slots.settled) :
    Sound fetching jobs limit [task] (moved jobs r move) := by
  rw [moved_eq_of_settled hmove hsettled]
  obtain ⟨⟨moves, done, run, hseen, hends⟩, hlandings, hcount, hmost, hstopped⟩ := h
  have hcalls := Slots.calls_of_flying hnot hjob hurl hflying hsettled
  refine ⟨⟨_, _, run.next hmove, ?_, ?_⟩, fun hgoing => ?_, ?_, hmost, hstopped⟩
  · rw [hcalls, List.map_append, ← hseen]
    simp [Slots.fetchCall?_eq_some hjob hurl]
  · intro other result hmem
    rcases List.mem_append.mp hmem with hmem | hmem
    · exact hends other result hmem
    · exact absurd (List.mem_singleton.mp hmem).symm (hlands other result)
  · rw [hflying]
    have hperm := hlandings hgoing
    rw [List.append_nil] at hperm
    exact List.perm_append_comm.trans (hperm.cons task)
  · rw [hflying]
    exact Nat.succ_le_succ hcount

/-- What a beginning comes to: the task is aloft, or nothing is. -/
theorem Sound.begins (h : Sound fetching jobs limit [] r) (hfresh : task ∈ r.slots.fresh) :
    ∃ aloft, Sound fetching jobs limit aloft (moved jobs r (.begins task))
      ∧ (moved jobs r (.begins task)).slots.fresh = r.slots.fresh.erase task
      ∧ (moved jobs r (.begins task)).interrupted = r.interrupted
      ∧ (aloft = [] ∧ task ∉ (moved jobs r (.begins task)).slots.flying
        ∨ aloft = [task] ∧ task ∈ (moved jobs r (.begins task)).slots.flying) := by
  obtain ⟨s', hmove⟩ := h.kept.exists_begins hfresh
  have hnot := Slots.notMem_flying (h.kept.isPast_eq_false (Or.inl hfresh))
  obtain ⟨⟨moves, done, run, hseen, hends⟩, hlandings, hcount, hmost, hstopped⟩ := id h
  have hkeeps : ∀ other result, .lands other result ∈ moves ++ [.begins task] →
      fetching.MayEnd jobs other (.ok result) := by
    intro other result hmem
    rcases List.mem_append.mp hmem with hmem | hmem
    · exact hends other result hmem
    · cases List.mem_singleton.mp hmem
  obtain ⟨new, hstep, run⟩ := run.exists_step hmove
  cases hstep with
  | @skip _ job _ hjob hurl =>
      rw [moved_eq_of_over hmove rfl]
      refine ⟨[], ⟨⟨_, _, run, ?_, hkeeps⟩, hlandings, hcount, hmost, hstopped⟩, rfl, rfl,
        Or.inl ⟨rfl, hnot⟩⟩
      rw [List.map_append, ← hseen]
      simp [Happening.seen?, Call.seen]
  | @take _ job url _ hjob hurl _ =>
      refine ⟨[task], h.flies hmove (fun _ _ h => nomatch h) hnot hjob hurl rfl rfl, ?_⟩
      rw [moved_eq_of_settled hmove rfl]
      exact ⟨rfl, rfl, Or.inr ⟨rfl, List.mem_cons_self⟩⟩
  | @wait _ job url _ hjob hurl _ =>
      rw [moved_eq_of_settled hmove rfl]
      refine ⟨[], ⟨⟨_, _, run, ?_, hkeeps⟩, hlandings, hcount, hmost, hstopped⟩, rfl, rfl,
        Or.inl ⟨rfl, hnot⟩⟩
      rw [List.append_nil]
      exact hseen

/-- A landing with a result is a move. -/
theorem landed_eq_of_ok {job : Job} {url : Text} {world : World} {result : Result}
    (hjob : jobs[task]? = some job) (hurl : job.url? = some url)
    (hland : fetching.land url job.path r.world = (world, .ok result)) :
    landed fetching jobs task r = moved jobs { r with
      world := world
      landings := r.landings.filter (·.1 != task)
      happened := .ended url r.clock :: r.happened } (.lands task result) := by
  unfold landed
  simp only [hjob, Option.bind_some, hurl, Option.map_some, hland]

/-- A landing without stops the run. -/
theorem landed_eq_of_error {job : Job} {url : Text} {world : World} {text : Text}
    (hjob : jobs[task]? = some job) (hurl : job.url? = some url)
    (hland : fetching.land url job.path r.world = (world, .error text)) :
    landed fetching jobs task r = { r with
      world := world
      landings := r.landings.filter (·.1 != task)
      happened := .ended url r.clock :: r.happened
      interrupted := some text } := by
  unfold landed
  simp only [hjob, Option.bind_some, hurl, Option.map_some, hland]

/-- A landing goes with one of the slots, unless it stops the run. -/
theorem Sound.lands (h : Sound fetching jobs limit [] r) (hgoing : r.interrupted = none)
    (hmem : task ∈ r.slots.flying) :
    Sound fetching jobs limit [] (landed fetching jobs task r)
      ∧ (landed fetching jobs task r).slots.fresh = r.slots.fresh
      ∧ ((landed fetching jobs task r).interrupted = none →
        (landed fetching jobs task r).slots.remaining < r.slots.remaining) := by
  obtain ⟨job, url, hjob, hurl⟩ := h.kept.addressed task (Or.inr (Or.inr hmem))
  have hnodup := h.kept.nodup_flying
  obtain ⟨⟨moves, done, run, hseen, hends⟩, hlandings, hcount, hmost, hstopped⟩ := id h
  cases hland : fetching.land url job.path r.world with
  | mk world ending =>
      cases ending with
      | error text =>
          rw [landed_eq_of_error hjob hurl hland]
          refine ⟨⟨⟨_, _, run, ?_, hends⟩, (nomatch ·), ?_, hmost, ?_⟩, rfl, (nomatch ·)⟩
          · rw [List.reverse_cons, List.filterMap_append]
            simpa [List.filterMap_cons, Happening.seen?] using hseen
          · exact Nat.le_trans (Nat.sub_le _ 1) hcount
          · intro other hother
            obtain rfl := Option.some.inj hother
            exact ⟨task, job, url, r.world, hjob, hurl, by rw [hland]⟩
      | ok result =>
          rw [landed_eq_of_ok hjob hurl hland]
          obtain ⟨s', hmove⟩ := h.kept.exists_lands hmem result
          obtain ⟨new, hstep, run⟩ := run.exists_step hmove
          have hless := hstep.remaining_lt
          cases hstep with
          | @land _ job' _ _ hjob' =>
              obtain rfl : job' = job := Option.some.inj (hjob'.symm.trans hjob)
              have hmoved := moved_eq_of_over (r := { r with
                world := world
                landings := r.landings.filter (·.1 != task)
                happened := .ended url r.clock :: r.happened }) hmove (Slots.wake_settled _)
              rw [hmoved]
              refine ⟨⟨⟨_, _, run, ?_, ?_⟩, fun _ => ?_, ?_, hmost, hstopped⟩,
                Slots.wake_fresh _, fun _ => hless⟩
              · rw [List.map_append, ← hseen]
                simp [List.filterMap_cons, Happening.seen?, Call.seen]
              · intro other result' hmem'
                rcases List.mem_append.mp hmem' with hmem' | hmem'
                · exact hends other result' hmem'
                · obtain ⟨rfl, rfl⟩ := Move.lands.inj (List.mem_singleton.mp hmem')
                  exact ⟨job', url, r.world, hjob, hurl, by rw [hland]⟩
              · -- a task is in flight once, so its landing is the only one to go
                rw [Slots.wake_flying, List.append_nil]
                have hperm := hlandings hgoing
                rw [List.append_nil] at hperm
                rw [hnodup.erase_eq_filter]
                have hfilter := hperm.filter (· != task)
                rw [List.filter_map] at hfilter
                exact hfilter
              · rw [Slots.wake_flying]
                change r.flights.1 - 1 + 0 ≤ (r.slots.flying.erase task).length
                rw [List.length_erase_of_mem hmem]
                simp only [List.length_nil] at hcount
                omega

/-- A task that is aloft is in flight. -/
theorem Sound.mem_flying (h : Sound fetching jobs limit [task] r)
    (hgoing : r.interrupted = none) : task ∈ r.slots.flying :=
  (h.landings hgoing).subset (List.mem_append_right _ (List.mem_singleton_self task))

/-- After it is launched nothing is aloft. -/
theorem Sound.launches (h : Sound fetching jobs limit [task] r)
    (hgoing : r.interrupted = none) :
    Sound fetching jobs limit [] (launched fetching jobs task r)
      ∧ (launched fetching jobs task r).slots.fresh = r.slots.fresh
      ∧ ((launched fetching jobs task r).interrupted = none →
        (launched fetching jobs task r).slots.remaining ≤ r.slots.remaining) := by
  have hmem := h.mem_flying hgoing
  obtain ⟨job, url, hjob, hurl⟩ := h.kept.addressed task (Or.inr (Or.inr hmem))
  have hbounded := h.kept.bounded
  obtain ⟨⟨moves, done, run, hseen, hends⟩, hlandings, hcount, hmost, hstopped⟩ := h
  unfold launched
  simp only [hjob, Option.bind_some, hurl, Option.map_some]
  have hsound : Sound fetching jobs limit [] { r with
      world := (fetching.launch url job.path r.world).1
      landings := r.landings
        ++ [(task, r.clock + (fetching.launch url job.path r.world).2)]
      happened := .started url r.clock :: r.happened } := by
    refine ⟨⟨moves, done, run, ?_, hends⟩, fun _ => ?_, ?_, ?_, hstopped⟩
    · rw [← hseen]
      simp [Happening.seen?, Call.seen, Slots.fetchCall?_eq_some hjob hurl]
    · simpa using hlandings hgoing
    · exact hcount
    · -- the task has had its slot since the move, so it is within the limit
      refine Nat.max_le.mpr ⟨hmost, Nat.le_trans hcount ?_⟩
      unfold Slots.held at hbounded
      omega
  split
  case isTrue =>
    obtain ⟨hlanded, hfresh, hless⟩ := hsound.lands hgoing hmem
    exact ⟨hlanded, hfresh, fun hgoing => Nat.le_of_lt (hless hgoing)⟩
  case isFalse => exact ⟨hsound, rfl, fun _ => Nat.le_refl _⟩

-- ====================================================== the schedule

/-- A task begins, and is launched if it finds a slot. -/
theorem Sound.began (h : Sound fetching jobs limit [] r) (hgoing : r.interrupted = none)
    (hfresh : task ∈ r.slots.fresh) :
    Sound fetching jobs limit [] (began fetching jobs r task)
      ∧ (Running.began fetching jobs r task).slots.fresh = r.slots.fresh.erase task := by
  unfold Running.began
  rw [hgoing]
  obtain ⟨aloft, hmoved, herased, hsame, hcase⟩ := h.begins hfresh
  simp only [Option.isSome_none, Bool.false_eq_true, if_false]
  rcases hcase with ⟨rfl, hnot⟩ | ⟨rfl, hmem⟩
  · rw [if_neg (by simpa using hnot)]
    exact ⟨hmoved, herased⟩
  · rw [if_pos (by simpa using hmem)]
    obtain ⟨hlaunched, hkept, -⟩ := hmoved.launches (hsame.trans hgoing)
    exact ⟨hlaunched, hkept.trans herased⟩

/-- A run that is stopped stays as it is. -/
theorem began_of_interrupted (hstop : r.interrupted.isSome = true) :
    began fetching jobs r task = r := by
  unfold began
  rw [if_pos hstop]

/-- After all tasks that have not begun begin in their order, none is
left, unless the run is stopped. -/
private theorem Sound.foldl_began {tasks : List Nat}
    (h : Sound fetching jobs limit [] r)
    (hfresh : r.interrupted = none → r.slots.fresh = tasks) :
    Sound fetching jobs limit [] (tasks.foldl (Running.began fetching jobs) r)
      ∧ ((tasks.foldl (Running.began fetching jobs) r).interrupted = none →
        (tasks.foldl (Running.began fetching jobs) r).slots.fresh = []) := by
  induction tasks generalizing r with
  | nil => exact ⟨h, hfresh⟩
  | cons task rest ih =>
      rw [List.foldl_cons]
      cases hgoing : r.interrupted with
      | some text =>
          have hstop : r.interrupted.isSome = true := by rw [hgoing]; rfl
          rw [began_of_interrupted hstop]
          -- nothing is said of the tasks that do not begin any more
          exact ih h fun hnone => by rw [hgoing] at hnone; cases hnone
      | none =>
          have hcons := hfresh hgoing
          have hmem : task ∈ r.slots.fresh := by rw [hcons]; exact List.mem_cons_self
          obtain ⟨hbegan, herased⟩ := h.began hgoing hmem
          refine ih hbegan fun _ => ?_
          rw [herased, hcons, List.erase_cons_head]

/-- When all tasks have begun none is left that has not, unless the run is
stopped. -/
theorem sound_begun (fetching : Fetching World) (jobs : List Job) (limit : Nat)
    (world : World) :
    let r : Running World := begun fetching jobs
      ⟨world, .initial limit jobs.length, 0, [], [], none⟩
    Sound fetching jobs limit [] r ∧ (r.interrupted = none → r.slots.fresh = []) :=
  (sound_start world).foldl_began fun _ => rfl

/-- The sooner of two flights, the first if they land at one time. -/
def sooner (least : Option (Nat × Nat)) (flight : Nat × Nat) : Option (Nat × Nat) :=
  match least with
  | none => some flight
  | some least => if flight.2 < least.2 then some flight else some least

/-- One of two flights is the sooner. -/
private theorem sooner_cases (least : Option (Nat × Nat)) (flight : Nat × Nat) :
    sooner least flight = some flight ∨ least.isSome ∧ sooner least flight = least := by
  unfold sooner
  cases least with
  | none => exact Or.inl rfl
  | some least =>
      simp only
      split
      case isTrue => exact Or.inl rfl
      case isFalse => exact Or.inr ⟨rfl, rfl⟩

/-- Going through flights finds one of them or the one that was the soonest
before, and finds one if there is one. -/
private theorem foldl_sooner (landings : List (Nat × Nat)) (least : Option (Nat × Nat)) :
    match landings.foldl sooner least with
    | some flight => flight ∈ landings ∨ least = some flight
    | none => landings = [] ∧ least = none := by
  induction landings generalizing least with
  | nil =>
      rw [List.foldl_nil]
      cases least with
      | none => exact ⟨rfl, rfl⟩
      | some flight => exact Or.inr rfl
  | cons first rest ih =>
      rw [List.foldl_cons]
      have ih := ih (sooner least first)
      split at ih
      case h_1 flight heq =>
        rcases ih with hmem | hsooner
        · exact Or.inl (List.mem_cons_of_mem _ hmem)
        · rcases sooner_cases least first with hfirst | ⟨-, hleast⟩
          · obtain rfl := Option.some.inj (hfirst.symm.trans hsooner)
            exact Or.inl List.mem_cons_self
          · exact Or.inr (hleast.symm.trans hsooner)
      case h_2 =>
        rcases sooner_cases least first with hfirst | ⟨hsome, hleast⟩
        · rw [ih.2] at hfirst
          cases hfirst
        · rw [← hleast, ih.2] at hsome
          cases hsome

/-- The next flight is one of those that land. -/
theorem mem_of_next? {landings : List (Nat × Nat)} {flight : Nat × Nat}
    (h : next? landings = some flight) : flight ∈ landings := by
  have hfold := foldl_sooner landings none
  change landings.foldl sooner none = some flight at h
  rw [h] at hfold
  rcases hfold with hmem | hnone
  · exact hmem
  · cases hnone

/-- If none is next none lands. -/
theorem eq_nil_of_next? {landings : List (Nat × Nat)} (h : next? landings = none) :
    landings = [] := by
  have hfold := foldl_sooner landings none
  change landings.foldl sooner none = none at h
  rw [h] at hfold
  exact hfold.1

/-- A step of the schedule is a take-off, of the task that was woken first; or,
if none is woken, a landing, of the flight that ends first. A run that is
stopped takes no step. -/
theorem advanced?_cases {r' : Running World} (h : advanced? fetching jobs r = some r') :
    r.interrupted = none
      ∧ ((∃ task ∈ r.slots.woken,
            r' = launched fetching jobs task (moved jobs r (.takesOff task)))
        ∨ ∃ flight, next? r.landings = some flight
            ∧ r' = landed fetching jobs flight.1 { r with clock := flight.2 }) := by
  unfold advanced? at h
  split at h
  case isTrue => cases h
  case isFalse hgoing =>
    refine ⟨by simpa using hgoing, ?_⟩
    split at h
    case h_1 task rest hwoken =>
      exact Or.inl ⟨task, by rw [hwoken]; exact List.mem_cons_self, (Option.some.inj h).symm⟩
    case h_2 =>
      obtain ⟨flight, hnext, rfl⟩ := Option.map_eq_some_iff.mp h
      exact Or.inr ⟨flight, hnext, rfl⟩

/-- A step of the schedule goes with the slots, and brings the end nearer. -/
theorem Sound.advances (h : Sound fetching jobs limit [] r) {r' : Running World}
    (hadvanced : advanced? fetching jobs r = some r') :
    Sound fetching jobs limit [] r' ∧ r'.slots.fresh = r.slots.fresh
      ∧ (r'.interrupted = none → r'.slots.remaining < r.slots.remaining) := by
  obtain ⟨hgoing, ⟨task, hmem, rfl⟩ | ⟨flight, hnext, rfl⟩⟩ := advanced?_cases hadvanced
  · have hnot := Slots.notMem_flying (h.kept.isPast_eq_false (Or.inr (Or.inr hmem)))
    obtain ⟨job, url, hjob, hurl⟩ := h.kept.addressed task (Or.inr (Or.inl hmem))
    obtain ⟨s', hmove⟩ := Slots.exists_takesOff jobs hmem
    obtain ⟨moves, done, run, -⟩ := h.run
    obtain ⟨new, hstep, -⟩ := run.exists_step hmove
    have hless := hstep.remaining_lt
    cases hstep with
    | takeOff _ _ _ =>
        have hflies := h.flies hmove (fun _ _ h => nomatch h) hnot hjob hurl
          (Slots.wake_flying _) (Slots.wake_settled _)
        have hmoved := moved_eq_of_settled hmove (Slots.wake_settled _)
        rw [hmoved] at hflies ⊢
        obtain ⟨hlaunched, hfresh, hle⟩ := hflies.launches hgoing
        refine ⟨hlaunched, hfresh.trans (Slots.wake_fresh _), fun hgoing => ?_⟩
        exact Nat.lt_of_le_of_lt (hle hgoing) hless
  · have hmem : flight.1 ∈ r.slots.flying :=
      (h.landings hgoing).subset
        (List.mem_append_left _ (List.mem_map_of_mem (mem_of_next? hnext)))
    exact Sound.lands (r := { r with clock := flight.2 })
      ⟨h.run, h.landings, h.flying, h.most, h.stopped⟩ hgoing hmem

/-- Where the schedule has no step left all tasks are over. -/
theorem Sound.over (h : Sound fetching jobs limit [] r) (hlimit : 1 ≤ limit)
    (hgoing : r.interrupted = none) (hfresh : r.slots.fresh = [])
    (hadvanced : advanced? fetching jobs r = none) : r.slots.Over := by
  unfold advanced? at hadvanced
  rw [hgoing] at hadvanced
  simp only [Option.isSome_none, Bool.false_eq_true, if_false] at hadvanced
  split at hadvanced
  case h_1 => cases hadvanced
  case h_2 hwoken =>
    have hnil := eq_nil_of_next? (Option.map_eq_none_iff.mp hadvanced)
    have hflying : r.slots.flying = [] := by
      have hperm := h.landings hgoing
      rw [hnil] at hperm
      exact hperm.symm.eq_nil
    exact ⟨hfresh, h.kept.queue_eq_nil hlimit hwoken hflying, hwoken, hflying⟩

/-- As many steps as moves are left bring the schedule to its end, unless it
is stopped. -/
theorem Sound.finishes (steps : Nat) (h : Sound fetching jobs limit [] r)
    (hlimit : 1 ≤ limit)
    (hleft : r.interrupted = none → r.slots.fresh = [] ∧ r.slots.remaining ≤ steps) :
    Sound fetching jobs limit [] (finished fetching jobs steps r)
      ∧ ((finished fetching jobs steps r).interrupted = none →
        (finished fetching jobs steps r).slots.Over) := by
  induction steps generalizing r with
  | zero =>
      refine ⟨h, fun hgoing => Slots.remaining_eq_zero_iff.mp ?_⟩
      exact Nat.le_zero.mp (hleft hgoing).2
  | succ steps ih =>
      rw [finished]
      cases hadvanced : advanced? fetching jobs r with
      | none => exact ⟨h, fun hgoing => h.over hlimit hgoing (hleft hgoing).1 hadvanced⟩
      | some next =>
          obtain ⟨hnext, hfresh, hless⟩ := h.advances hadvanced
          -- a step that does not stop the run makes a move at least
          refine ih hnext fun hgoing => ?_
          obtain ⟨hnone, hle⟩ := hleft (advanced?_cases hadvanced).1
          exact ⟨hfresh.trans hnone, Nat.lt_succ_iff.mp (Nat.lt_of_lt_of_le (hless hgoing) hle)⟩

/-- What a run in progress has come to when it ends. -/
theorem Sound.ended (h : Sound fetching jobs limit [] r)
    (hover : r.interrupted = none → r.slots.Over) :
    mostInFlight r.happened.reverse ≤ limit
      ∧ ((∃ text, r.interrupted = some text
          ∧ ∃ task, fetching.MayEnd jobs task (.error text))
        ∨ r.interrupted = none ∧ ∃ moves done, Slots.Run jobs limit moves done r.slots
          ∧ r.slots.Over
          ∧ r.happened.reverse.filterMap Happening.seen? = done.map Call.seen
          ∧ ∀ task result, .lands task result ∈ moves →
            fetching.MayEnd jobs task (.ok result)) := by
  refine ⟨?_, ?_⟩
  · rw [mostInFlight_reverse]
    exact h.most
  · cases hstop : r.interrupted with
    | some text =>
        exact Or.inl ⟨text, rfl, h.stopped text hstop⟩
    | none =>
        obtain ⟨moves, done, run, hseen, hends⟩ := h.run
        rw [List.filterMap_nil, List.append_nil] at hseen
        exact Or.inr ⟨rfl, moves, done, run, hover hstop, hseen, hends⟩

end Running

variable {World : Type} {fetching : Fetching World} {limit : Nat}
  {destination : Files.Path} {items : List Feed.Item}

/-- A run that is carried out keeps to the limit. Unless a fetch stops it, it
is a run of the slots to the end and returns what that returns. -/
theorem run_spec (fetching : Fetching World) (hlimit : 1 ≤ limit)
    (hnamed : ∀ item ∈ items, ∃ path, filePath item destination = .ok path) (world : World) :
    let ended := run fetching limit destination items world
    mostInFlight ended.happened ≤ limit
      ∧ ((∃ text, ended.outcome = .error (.interrupted text)
          ∧ ∃ task, fetching.MayEnd (jobsFor destination items).1 task (.error text))
        ∨ ∃ moves done s, Slots.Run (jobsFor destination items).1 limit moves done s
          ∧ s.Over ∧ ended.outcome = .ok (s.returned items)
          ∧ ended.happened.filterMap Happening.seen? = done.map Call.seen
          ∧ ∀ task result, .lands task result ∈ moves →
            fetching.MayEnd (jobsFor destination items).1 task (.ok result)) := by
  have hbroken := jobsFor_snd_eq_none hnamed
  unfold run
  generalize jobsFor destination items = pair at hbroken ⊢
  obtain ⟨jobs, broken⟩ := pair
  obtain rfl : broken = none := hbroken
  simp only
  obtain ⟨hbegun, hfresh⟩ := Running.sound_begun fetching jobs limit world
  generalize Running.begun fetching jobs
    ⟨world, Slots.initial limit jobs.length, 0, [], [], none⟩ = r at hbegun hfresh ⊢
  cases hstop : r.interrupted with
  | some text =>
      obtain ⟨hmost, hend⟩ := hbegun.ended fun hgoing => by rw [hgoing] at hstop; cases hstop
      refine ⟨hmost, Or.inl ?_⟩
      rcases hend with ⟨text', hsame, hland⟩ | ⟨hgoing, -⟩
      · obtain rfl := Option.some.inj (hstop.symm.trans hsame)
        exact ⟨text, rfl, hland⟩
      · rw [hgoing] at hstop
        cases hstop
  | none =>
      obtain ⟨hsound, hover⟩ := hbegun.finishes (2 * jobs.length) hlimit
        fun hgoing => ⟨hfresh hgoing, hbegun.kept.remaining_le (hfresh hgoing)⟩
      obtain ⟨hmost, hend⟩ := hsound.ended hover
      simp only
      rcases hend with ⟨text, hstop, hland⟩
        | ⟨hgoing, moves, done, run, hover, hseen, hends⟩
      · rw [hstop]
        exact ⟨hmost, Or.inl ⟨text, rfl, hland⟩⟩
      · rw [hgoing]
        exact ⟨hmost, Or.inr ⟨moves, done, _, run, hover, rfl, hseen, hends⟩⟩

end FeedSieve.Download
