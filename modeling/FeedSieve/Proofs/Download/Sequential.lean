/-
What a run returns does not depend on how it goes.

`sequential` is the plain meaning of a run, one job after the other. If what
each fetch comes to is given, every run of the slots that gets to its end
gathers just that, whatever its limit and the order of its moves; and so
does the schedule that is carried out, however long its fetches take
(`outcomes_sequential`).
-/
import FeedSieve.Proofs.Download.Execution

namespace FeedSieve.Download

/-- What comes of jobs one after the other, given how their fetches end. -/
def sequential (results : Nat → Result) (jobs : List Job) : List Outcome :=
  jobs.mapIdx fun task job =>
    match job.url? with
    | none => job.outcome (some noEnclosure)
    | some _ => job.outcome (results task).reason?

variable {World : Type} {fetching : Fetching World} {items : List Feed.Item}
  {destination : Files.Path} {jobs : List Job} {limit task : Nat} {s : Slots}
  {moves : List Move} {done : List Call} {outcome : Outcome} {results : Nat → Result}

namespace Slots

/-- What came of a job is what `sequential` makes of it. -/
theorem CameAbout.eq_sequential (h : CameAbout jobs moves task outcome)
    (hresults : ∀ task result, .lands task result ∈ moves → result = results task) :
    (sequential results jobs)[task]? = some outcome := by
  obtain ⟨job, hjob, hcame⟩ := h
  unfold sequential
  rw [List.getElem?_mapIdx, hjob, Option.map_some, Option.some.injEq]
  rcases hcame with ⟨hurl, rfl⟩ | ⟨url, result, hurl, hlands, rfl⟩
  · rw [hurl]
  · rw [hurl, hresults task result hlands]

/-- What is gathered in the end is what `sequential` makes of the jobs. -/
theorem Run.gathered_eq_sequential (run : Run jobs limit moves done s) (hover : s.Over)
    (hresults : ∀ task result, .lands task result ∈ moves → result = results task) :
    s.gathered = sequential results jobs := by
  have hlength := hover.length_gathered run.kept
  refine List.ext_getElem? fun task => ?_
  cases houtcome : s.gathered[task]? with
  | some outcome => exact ((run.cameAbout hover houtcome).eq_sequential hresults).symm
  | none =>
      have hle := List.getElem?_eq_none_iff.mp houtcome
      rw [eq_comm, List.getElem?_eq_none_iff]
      unfold sequential
      rw [List.length_mapIdx]
      omega

end Slots

/-- Where the fetch for each item can only end with one result, a run that is
carried out returns what `sequential` makes of the items. Neither the limit
nor the time that fetches take makes a difference. -/
theorem run_eq_sequential {results : Nat → Result} (hlimit : 1 ≤ limit)
    (hdistinct : (items.map (·.index)).Nodup)
    (hnamed : ∀ item ∈ items, ∃ path, filePath item destination = .ok path)
    (hends : ∀ task ending, fetching.MayEnd (jobsFor destination items).1 task ending →
      ending = .ok (results task)) (world : World) :
    (run fetching limit destination items world).outcome
      = .ok (sequential results (jobsFor destination items).1) := by
  obtain ⟨-, hend⟩ := run_spec fetching hlimit hnamed world
  rcases hend with ⟨text, -, task, herror⟩
    | ⟨moves, done, s, run, hover, houtcome, -, hlands⟩
  · cases hends task _ herror
  · have hresults : ∀ task result, .lands task result ∈ moves → result = results task := by
      intro task result hmem
      exact Except.ok.inj (hends task _ (hlands task result hmem))
    rw [houtcome, run.returned_eq_gathered hnamed hover hdistinct,
      run.gathered_eq_sequential hover hresults]

/-- What `sequential` makes of an item: its own number, title and path, and
the reason that its fetch gives, if there is something to fetch. -/
theorem sequential_getElem? (results : Nat → Result)
    (hnamed : ∀ item ∈ items, ∃ path, filePath item destination = .ok path)
    {item : Feed.Item} (hitem : items[task]? = some item) :
    ∃ path, filePath item destination = .ok path
      ∧ (sequential results (jobsFor destination items).1)[task]? =
        some ⟨item.index, item.title, path,
          if item.enclosureUrl.getD [] = [] then some noEnclosure
          else (results task).reason?⟩ := by
  obtain ⟨path, hpath⟩ := hnamed item (List.mem_of_getElem? hitem)
  have hjob := (jobsFor_getElem?_iff hnamed task ⟨item, path⟩).mpr ⟨hitem, hpath⟩
  refine ⟨path, hpath, ?_⟩
  unfold sequential
  rw [List.getElem?_mapIdx, hjob, Option.map_some, Option.some.injEq]
  cases hurl : (⟨item, path⟩ : Job).url? with
  | none =>
      rw [if_pos ((url?_eq_none_iff _).mp hurl)]
      rfl
  | some url =>
      have hne : item.enclosureUrl.getD [] ≠ [] := by
        intro hnil
        rw [(url?_eq_none_iff ⟨item, path⟩).mpr hnil] at hurl
        cases hurl
      rw [if_neg hne]
      rfl

/-- If what each fetch comes to is given and no two items have one number,
every run that gets to its end returns the same, whatever its limit and the
order of its moves, and so does the run that is carried out: what comes of
the items one after the other, each as its fetch ends. -/
theorem outcomes_sequential (results : Nat → Result)
    (hdistinct : (items.map (·.index)).Nodup)
    (hnamed : ∀ item ∈ items, ∃ path, filePath item destination = .ok path) :
    (∀ limit moves done s, Slots.Run (jobsFor destination items).1 limit moves done s →
        s.Over → (∀ task result, .lands task result ∈ moves → result = results task) →
        s.returned items = sequential results (jobsFor destination items).1)
      ∧ (∀ (World : Type) (fetching : Fetching World) (limit : Nat) (world : World),
        1 ≤ limit →
        (∀ task ending, fetching.MayEnd (jobsFor destination items).1 task ending →
          ending = .ok (results task)) →
        (run fetching limit destination items world).outcome
          = .ok (sequential results (jobsFor destination items).1))
      ∧ (sequential results (jobsFor destination items).1).length = items.length
      ∧ ∀ (task : Nat) (item : Feed.Item), items[task]? = some item →
        ∃ outcome, (sequential results (jobsFor destination items).1)[task]? = some outcome
          ∧ outcome.index = item.index ∧ outcome.title = item.title
          ∧ filePath item destination = .ok outcome.path
          ∧ (item.enclosureUrl.getD [] = [] → outcome.succeeded = false
            ∧ outcome.reason = some "no enclosure".toList)
          ∧ (item.enclosureUrl.getD [] ≠ [] → match results task with
            | .saved => outcome.succeeded = true ∧ outcome.reason = none
            | .failed text => outcome.succeeded = false ∧ outcome.reason = some text
            | .crashed text => outcome.succeeded = false
                ∧ outcome.reason = some ("Unexpected error: ".toList ++ text)) := by
  refine ⟨fun limit moves done s run hover hresults => ?_,
    fun World fetching limit world hlimit hends =>
      run_eq_sequential hlimit hdistinct hnamed hends world, ?_, ?_⟩
  · rw [run.returned_eq_gathered hnamed hover hdistinct]
    exact run.gathered_eq_sequential hover hresults
  · unfold sequential
    rw [List.length_mapIdx, length_jobsFor hnamed]
  · intro task item hitem
    obtain ⟨path, hpath, houtcome⟩ := sequential_getElem? results hnamed hitem
    refine ⟨_, houtcome, rfl, rfl, hpath, fun hnil => ?_, fun hne => ?_⟩
    · rw [if_pos hnil]
      exact ⟨rfl, rfl⟩
    · rw [if_neg hne]
      cases results task with
      | saved => exact ⟨rfl, rfl⟩
      | failed text => exact ⟨rfl, rfl⟩
      | crashed text => exact ⟨rfl, rfl⟩

/-- How the fetches for the three items end: the first file is gone. -/
def fates (task : Nat) : Result := if task = 0 then .failed "Gone" else .saved

/-- Fetches that end so, each one tick after it takes off. -/
def fatedFetching : Fetching Unit where
  launch _ _ world := (world, 1)
  land url _ world := (world, .ok (if url = "http://x/1" then .failed "Gone" else .saved))

/-- They end in no other way. -/
theorem fatedFetching_ends (task : Nat) (ending : Except Text Result)
    (h : fatedFetching.MayEnd (jobsFor ⟨.top, []⟩ episodes).1 task ending) :
    ending = .ok (fates task) := by
  obtain ⟨job, url, world, hjob, hurl, rfl⟩ := h
  obtain ⟨hitem, -⟩ := (jobsFor_getElem?_iff episodes_named task job).mp hjob
  obtain ⟨haddress, -⟩ := (url?_eq_some_iff job url).mp hurl
  match task with
  | 0 =>
      rw [← Option.some.inj hitem] at haddress
      rw [← Option.some.inj haddress]
      rfl
  | 1 =>
      rw [← Option.some.inj hitem] at haddress
      cases haddress
  | 2 =>
      rw [← Option.some.inj hitem] at haddress
      rw [← Option.some.inj haddress]
      rfl
  | task + 3 => cases hitem

/-- One slot or two, landings in one order or the other, or as they are
carried out: what is returned is the same. -/
theorem outcomes_sequential_two_slots :
    (episodes.map (·.index)).Nodup
      ∧ (∀ item ∈ episodes, ∃ path, filePath item ⟨.top, []⟩ = .ok path)
      ∧ ∃ done s done' s',
        Slots.Run (jobsFor ⟨.top, []⟩ episodes).1 1
            [.begins 0, .begins 1, .begins 2, .lands 0 (.failed "Gone"), .takesOff 2,
              .lands 2 .saved] done s
          ∧ Slots.Run (jobsFor ⟨.top, []⟩ episodes).1 2
            [.begins 2, .begins 0, .lands 2 .saved, .begins 1, .lands 0 (.failed "Gone")]
            done' s'
          ∧ s.Over ∧ s'.Over ∧ s.returned episodes = s'.returned episodes
          ∧ (run fatedFetching 1 ⟨.top, []⟩ episodes ()).outcome
            = .ok (s.returned episodes) := by
  have nothing : ∀ limit, Slots.Run (jobsFor ⟨.top, []⟩ episodes).1 limit [] [] _ :=
    fun _ => .start
  obtain ⟨done, one⟩ := (nothing 1).exists_append [.begins 0, .begins 1, .begins 2,
    .lands 0 (.failed "Gone"), .takesOff 2, .lands 2 .saved] rfl
  obtain ⟨done', two⟩ := (nothing 2).exists_append [.begins 2, .begins 0, .lands 2 .saved,
    .begins 1, .lands 0 (.failed "Gone")] rfl
  obtain ⟨hruns, hcarried, -, -⟩ :=
    outcomes_sequential fates (by decide) episodes_named
  have hone := hruns _ _ _ _ one ⟨rfl, rfl, rfl, rfl⟩ (by
    intro task result hmem
    simp only [List.nil_append, List.mem_cons, List.not_mem_nil, Move.lands.injEq,
      reduceCtorEq, or_false, false_or] at hmem
    rcases hmem with ⟨rfl, rfl⟩ | ⟨rfl, rfl⟩ <;> rfl)
  have htwo := hruns _ _ _ _ two ⟨rfl, rfl, rfl, rfl⟩ (by
    intro task result hmem
    simp only [List.nil_append, List.mem_cons, List.not_mem_nil, Move.lands.injEq,
      reduceCtorEq, or_false, false_or] at hmem
    rcases hmem with ⟨rfl, rfl⟩ | ⟨rfl, rfl⟩ <;> rfl)
  have hrun := hcarried Unit fatedFetching 1 () (Nat.le_refl 1) fatedFetching_ends
  exact ⟨by decide, episodes_named, _, _, _, _, one, two, ⟨rfl, rfl, rfl, rfl⟩,
    ⟨rfl, rfl, rfl, rfl⟩, hone.trans htwo.symm, hrun.trans (congrArg _ hone.symm)⟩

end FeedSieve.Download
