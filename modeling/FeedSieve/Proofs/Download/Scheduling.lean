/-
What every run for some items does.

Whatever the order of the moves and whatever the fetches come to, no more
fetches are in flight than the limit allows, no slot is free while a task
queues up for it unless it is kept for one that is woken, and by the end
every item with an address has been fetched once and every outcome has been
reported once (`Run.bounded_conserving_once`).
-/
import FeedSieve.Proofs.Download.Outcomes
import FeedSieve.Proofs.Download.Progress

namespace FeedSieve.Download

/-- Three items, the second without a file. -/
def episodes : List Feed.Item :=
  [⟨1, "One", [], none, none, none, none, some "http://x/1", some "audio/mpeg", none⟩,
   ⟨2, "Two", [], none, none, none, none, none, none, none⟩,
   ⟨3, "Three", [], none, none, none, none, some "http://x/3", some "audio/ogg", none⟩]

/-- Their files have names. -/
theorem episodes_named : ∀ item ∈ episodes, ∃ path, filePath item ⟨.top, []⟩ = .ok path := by
  intro item hitem
  simp only [episodes, List.mem_cons, List.not_mem_nil, or_false] at hitem
  rcases hitem with rfl | rfl | rfl
  · exact ⟨⟨.top, ["One.mp3"]⟩, rfl⟩
  · exact ⟨⟨.top, ["Two"]⟩, rfl⟩
  · exact ⟨⟨.top, ["Three.ogg"]⟩, rfl⟩

namespace Slots

variable {items : List Feed.Item} {destination : Files.Path} {jobs : List Job}
  {limit task : Nat} {s : Slots} {moves : List Move} {done : List Call}
  {outcome : Outcome}

/-- In flight are no more than the limit allows. -/
theorem Run.length_flying_le (run : Run jobs limit moves done s) :
    s.flying.length ≤ limit := by
  have := run.kept.bounded
  unfold held at this
  omega

/-- Unless a task is woken, all slots are taken or nobody waits. -/
theorem Run.conserving (run : Run jobs limit moves done s) (hwoken : s.woken = []) :
    s.flying.length = limit ∨ s.queue = [] := by
  by_cases hqueue : s.queue = []
  · exact Or.inr hqueue
  · rcases run.kept.conserving hqueue with hne | hfull
    · exact absurd hwoken hne
    · unfold held at hfull
      rw [hwoken, List.length_nil, Nat.add_zero] at hfull
      exact Or.inl hfull

/-- A job without an address waits for no slot, gets none and is not
fetched. -/
theorem Run.notMem_of_url?_eq_none (run : Run jobs limit moves done s) {job : Job}
    (hjob : jobs[task]? = some job) (hurl : job.url? = none) :
    task ∉ s.queue ∧ task ∉ s.woken ∧ task ∉ s.flying
      ∧ done.filter (Call.fetches task) = [] := by
  have hnot : ¬ (task ∈ s.queue ∨ task ∈ s.woken ∨ task ∈ s.flying) := by
    intro hmem
    obtain ⟨job', url, hjob', hsome⟩ := run.kept.addressed task hmem
    obtain rfl : job' = job := Option.some.inj (hjob'.symm.trans hjob)
    rw [hurl] at hsome
    cases hsome
  refine ⟨fun h => hnot (Or.inl h), fun h => hnot (Or.inr (Or.inl h)),
    fun h => hnot (Or.inr (Or.inr h)), ?_⟩
  rw [run.logged.fetches task, fetchCall?_eq_none hjob hurl]
  simp

/-- When all are over, each task that is to be fetched has been, once. -/
theorem Run.filter_fetches (run : Run jobs limit moves done s) (hover : s.Over)
    (task : Nat) : done.filter (Call.fetches task) = (fetchCall? jobs task).toList := by
  rw [run.logged.fetches task]
  by_cases hlt : task < jobs.length
  · -- a task that is over has come as far as the fetch
    have hmem : task ∈ s.settled.map (·.1) := by
      rw [(hover.settled_perm run.kept).mem_iff]
      exact List.mem_range.mpr hlt
    have hpast : s.isPast task = true := by
      unfold isPast
      rw [List.contains_iff_mem.mpr hmem, Bool.or_true]
    rw [if_pos hpast]
  · have hnone : fetchCall? jobs task = none := by
      unfold fetchCall?
      rw [List.getElem?_eq_none (Nat.le_of_not_lt hlt)]
      rfl
    rw [hnone]
    simp

/-- When all are over, the outcome of each task has been reported, once, and
it is the one that is gathered. -/
theorem Run.filter_reports (run : Run jobs limit moves done s) (hover : s.Over)
    (task : Nat) :
    done.filter (Call.reports task) = (s.gathered[task]?).toList.map (.report task) := by
  rw [run.logged.reports task]
  cases houtcome : s.gathered[task]? with
  | some outcome =>
      have hmem := (hover.gathered_getElem?_iff run.kept).mp houtcome
      rw [hover.filter_settled run.kept hmem]
      rfl
  | none =>
      have hnone : s.settled.filter (·.1 == task) = [] := by
        rw [List.filter_eq_nil_iff]
        intro entry hentry hsame
        obtain rfl : entry.1 = task := by simpa using hsame
        rw [(hover.gathered_getElem?_iff run.kept).mpr hentry] at houtcome
        cases houtcome
      rw [hnone]
      rfl

/-- When all are over, what is gathered for a job is what came of it. -/
theorem Run.cameAbout (run : Run jobs limit moves done s) (hover : s.Over)
    (houtcome : s.gathered[task]? = some outcome) : CameAbout jobs moves task outcome :=
  run.logged.outcomes task outcome ((hover.gathered_getElem?_iff run.kept).mp houtcome)

/-- What is gathered for an item is about it. -/
theorem Run.outcome_about
    (hnamed : ∀ item ∈ items, ∃ path, filePath item destination = .ok path)
    (run : Run (jobsFor destination items).1 limit moves done s) (hover : s.Over)
    {item : Feed.Item} (hitem : items[task]? = some item)
    (houtcome : s.gathered[task]? = some outcome) :
    outcome.index = item.index ∧ outcome.title = item.title
      ∧ filePath item destination = .ok outcome.path := by
  obtain ⟨job, hjob, hcame⟩ := run.cameAbout hover houtcome
  obtain ⟨hjobItem, hpath⟩ := (jobsFor_getElem?_iff hnamed task job).mp hjob
  obtain rfl : item = job.item := Option.some.inj (hitem.symm.trans hjobItem)
  rcases hcame with ⟨-, rfl⟩ | ⟨url, result, -, -, rfl⟩
  · exact ⟨rfl, rfl, hpath⟩
  · exact ⟨rfl, rfl, hpath⟩

/-- Where no two items have one number, the outcomes are returned as they
are gathered. -/
theorem Run.returned_eq_gathered
    (hnamed : ∀ item ∈ items, ∃ path, filePath item destination = .ok path)
    (run : Run (jobsFor destination items).1 limit moves done s) (hover : s.Over)
    (hdistinct : (items.map (·.index)).Nodup) : s.returned items = s.gathered := by
  refine inItemOrder_eq_self hdistinct (List.ext_getElem? fun task => ?_)
  have hlength : s.gathered.length = items.length := by
    rw [hover.length_gathered run.kept, length_jobsFor hnamed]
  by_cases hlt : task < items.length
  · have hitem := List.getElem?_eq_getElem hlt
    have houtcome := List.getElem?_eq_getElem (l := s.gathered) (hlength ▸ hlt)
    rw [List.getElem?_map, List.getElem?_map, hitem, houtcome, Option.map_some,
      Option.map_some, (run.outcome_about hnamed hover hitem houtcome).1]
  · rw [List.getElem?_map, List.getElem?_map, List.getElem?_eq_none (by omega),
      List.getElem?_eq_none (by omega)]
    rfl

/-- Every run stays within its limit and lets no slot go idle, and one that
gets to its end has fetched every item with an address once and reported
every outcome once. -/
theorem Run.bounded_conserving_once
    (hnamed : ∀ item ∈ items, ∃ path, filePath item destination = .ok path)
    (run : Run (jobsFor destination items).1 limit moves done s) :
    s.flying.length ≤ limit
      ∧ (s.woken = [] → s.flying.length = limit ∨ s.queue = [])
      ∧ (∀ task item, items[task]? = some item → item.enclosureUrl.getD [] = [] →
          task ∉ s.queue ∧ task ∉ s.woken ∧ task ∉ s.flying
            ∧ done.filter (Call.fetches task) = [])
      ∧ (s.Over →
          (∀ task item url path, items[task]? = some item →
            item.enclosureUrl = some url → url ≠ [] → filePath item destination = .ok path →
            done.filter (Call.fetches task) = [.fetch task url path])
          ∧ (∀ task, done.filter (Call.reports task)
              = (s.gathered[task]?).toList.map (.report task))
          ∧ s.gathered.length = items.length
          ∧ (∀ (task : Nat) (item : Feed.Item) (outcome : Outcome),
              items[task]? = some item → s.gathered[task]? = some outcome →
              outcome.index = item.index ∧ outcome.title = item.title
                ∧ filePath item destination = .ok outcome.path)
          ∧ (s.returned items).Perm s.gathered
          ∧ ((items.map (·.index)).Nodup → s.returned items = s.gathered)) := by
  refine ⟨run.length_flying_le, run.conserving, ?_, fun hover => ⟨?_, ?_, ?_, ?_, ?_, ?_⟩⟩
  · intro task item hitem hurl
    obtain ⟨path, hpath⟩ := hnamed item (List.mem_of_getElem? hitem)
    have hjob := (jobsFor_getElem?_iff hnamed task ⟨item, path⟩).mpr ⟨hitem, hpath⟩
    exact run.notMem_of_url?_eq_none hjob ((url?_eq_none_iff _).mpr hurl)
  · intro task item url path hitem hurl hne hpath
    have hjob := (jobsFor_getElem?_iff hnamed task ⟨item, path⟩).mpr ⟨hitem, hpath⟩
    have hurl := (url?_eq_some_iff ⟨item, path⟩ url).mpr ⟨hurl, hne⟩
    rw [run.filter_fetches hover, fetchCall?_eq_some hjob hurl]
    rfl
  · exact run.filter_reports hover
  · rw [hover.length_gathered run.kept, length_jobsFor hnamed]
  · intro task item outcome hitem houtcome
    exact run.outcome_about hnamed hover hitem houtcome
  · exact inItemOrder_perm items s.gathered
  · exact run.returned_eq_gathered hnamed hover

/-- One slot for three items: the third waits for the first to fail, and the
second has nothing to fetch. -/
theorem bounded_conserving_once_one_slot :
    (∀ item ∈ episodes, ∃ path, filePath item ⟨.top, []⟩ = .ok path)
      ∧ ∃ done s, Run (jobsFor ⟨.top, []⟩ episodes).1 1
          [.begins 0, .begins 1, .begins 2, .lands 0 (.failed "Gone"), .takesOff 2,
            .lands 2 .saved] done s
        ∧ s.Over ∧ s.flying.length ≤ 1
        ∧ done.filter (Call.fetches 1) = []
        ∧ done.filter (Call.fetches 2) = [.fetch 2 "http://x/3" ⟨.top, ["Three.ogg"]⟩]
        ∧ s.returned episodes = s.gathered := by
  have nothing : Run (jobsFor ⟨.top, []⟩ episodes).1 1 [] [] _ := .start
  obtain ⟨done, run⟩ := nothing.exists_append [.begins 0, .begins 1, .begins 2,
    .lands 0 (.failed "Gone"), .takesOff 2, .lands 2 .saved] rfl
  obtain ⟨hbound, -, hnone, hover⟩ := run.bounded_conserving_once episodes_named
  obtain ⟨hfetches, -, -, -, -, hreturned⟩ := hover ⟨rfl, rfl, rfl, rfl⟩
  exact ⟨episodes_named, _, _, run, ⟨rfl, rfl, rfl, rfl⟩, hbound, (hnone 1 _ rfl rfl).2.2.2,
    hfetches 2 _ _ _ rfl rfl (by decide) rfl, hreturned (by decide)⟩

end Slots

end FeedSieve.Download
