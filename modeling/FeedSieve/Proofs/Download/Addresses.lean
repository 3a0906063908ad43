/-
What a bad address does to the other items.

Fetches may end as they like: a run returns an outcome for every item and
has fetched all of them (`run_answers`). But before anything is
fetched the file of every item gets its name, and so it does when what does
not exist is selected. Where the extension follows from the address, the
address must be one that can be taken apart. A single one that cannot leaves
the run without outcomes, and nothing can be selected
(`answers_iff_readable`).
-/
import FeedSieve.Proofs.Download.Execution
import FeedSieve.Proofs.Query.Missing

namespace FeedSieve.Download

variable {World : Type} {items : List Feed.Item} {destination : Files.Path} {limit : Nat}
  {fetching : Fetching World} {why : Url.Broken}

/-- Every address that an extension is to follow from can be taken apart. -/
def Readable (items : List Feed.Item) : Prop :=
  ∀ item ∈ items, ¬ HasKnownType item → ∀ url, item.enclosureUrl = some url → url ≠ [] →
    ∃ parts, Url.split url = .ok parts

/-- These are the items that have names. -/
theorem readable_iff_named (items : List Feed.Item) : Readable items ↔ Named items := by
  refine forall_congr' fun item => forall_congr' fun _ => ?_
  constructor
  · intro hreads
    cases hname : fileName item with
    | ok name => exact ⟨name, rfl⟩
    | error why =>
        obtain ⟨hunknown, url, haddress, hne, hsplit⟩ := fileName_eq_error_iff.mp hname
        obtain ⟨parts, hparts⟩ := hreads hunknown url haddress hne
        rw [hsplit] at hparts
        cases hparts
  · rintro ⟨name, hname⟩ hunknown url haddress hne
    cases hsplit : Url.split url with
    | ok parts => exact ⟨parts, rfl⟩
    | error why =>
        rw [fileName_eq_error_iff.mpr ⟨hunknown, url, haddress, hne, hsplit⟩] at hname
        cases hname

/-- The user does not stop the fetches. -/
def Fetching.Uninterrupted (fetching : Fetching World) : Prop :=
  ∀ url path world text, (fetching.land url path world).2 ≠ .error text

/-- The first item that has no name is the reason why there are no outcomes. -/
theorem jobsFor_snd_eq_some {item : Feed.Item} {before after : List Feed.Item}
    (hbefore : Named before) (hbroken : fileName item = .error why) (destination : Files.Path) :
    (jobsFor destination (before ++ item :: after)).2 = some why := by
  induction before with
  | nil =>
      have hpath : filePath item destination = .error why := by
        unfold filePath
        rw [hbroken]
        rfl
      rw [List.nil_append, jobsFor]
      simp only [hpath]
  | cons first rest ih =>
      obtain ⟨⟨name, hname⟩, hrest⟩ := List.forall_mem_cons.mp hbefore
      rw [List.cons_append, jobsFor_cons (filePath_eq_ok_iff.mpr ⟨name, hname, rfl⟩)]
      exact ih hrest

/-- A run that is not stopped has no outcomes if an item has no name. -/
theorem run_eq_error (hgoing : fetching.Uninterrupted) (world : World)
    (hbroken : (jobsFor destination items).2 = some why) :
    (run fetching limit destination items world).outcome = .error (.url why) := by
  unfold run
  generalize jobsFor destination items = pair at hbroken ⊢
  obtain ⟨jobs, broken⟩ := pair
  obtain rfl : broken = some why := hbroken
  simp only
  obtain ⟨hbegun, -⟩ := Running.sound_begun fetching jobs limit world
  generalize Running.begun fetching jobs
    ⟨world, Slots.initial limit jobs.length, 0, [], [], none⟩ = r at hbegun ⊢
  cases hstop : r.interrupted with
  | none => rfl
  | some text =>
      obtain ⟨task, job, url, world, -, -, hland⟩ := hbegun.stopped text hstop
      exact absurd hland (hgoing url job.path world text)

/-- If all items have names and nobody stops it, a run has an outcome for each
and has fetched each that has an address. -/
theorem run_answers (hlimit : 1 ≤ limit) (hgoing : fetching.Uninterrupted)
    (hnamed : Named items) (destination : Files.Path) (world : World) :
    let ended := run fetching limit destination items world
    ∃ outcomes, ended.outcome = .ok outcomes
      ∧ (outcomes.map fun outcome => (outcome.index, outcome.title)).Perm
        (items.map fun item => (item.index, item.title))
      ∧ ∀ item ∈ items, ∀ url, item.enclosureUrl = some url → url ≠ [] →
        ∃ time, .started url time ∈ ended.happened := by
  have hpaths := (named_iff items destination).mp hnamed
  obtain ⟨-, ⟨text, -, task, job, url, world', -, -, hland⟩
    | ⟨moves, done, s, run, hover, houtcome, hseen, -⟩⟩ := run_spec fetching hlimit hpaths world
  · exact absurd hland (hgoing url job.path world' text)
  · refine ⟨_, houtcome, ?_, fun item hitem url hurl hne => ?_⟩
    · refine ((inItemOrder_perm items s.gathered).map _).trans (List.Perm.of_eq ?_)
      have hlength : s.gathered.length = items.length := by
        rw [hover.length_gathered run.kept, length_jobsFor hpaths]
      refine List.ext_getElem (by simpa using hlength) fun task hleft hright => ?_
      rw [List.length_map] at hleft hright
      obtain ⟨hindex, htitle, -⟩ := run.outcome_about hpaths hover
        (List.getElem?_eq_getElem hright) (List.getElem?_eq_getElem hleft)
      rw [List.getElem_map, List.getElem_map, hindex, htitle]
    · obtain ⟨task, hitem⟩ := List.mem_iff_getElem?.mp hitem
      obtain ⟨path, hpath⟩ := hpaths item (List.mem_of_getElem? hitem)
      have hjob := (jobsFor_getElem?_iff hpaths task ⟨item, path⟩).mpr ⟨hitem, hpath⟩
      have hcall := Slots.fetchCall?_eq_some hjob ((url?_eq_some_iff _ url).mpr ⟨hurl, hne⟩)
      have hfetched := run.filter_fetches hover task
      rw [hcall, Option.toList_some] at hfetched
      have hdone : Call.fetch task url path ∈ done := by
        refine List.mem_of_mem_filter (p := Call.fetches task) ?_
        rw [hfetched]
        exact List.mem_singleton_self _
      have hhappened := List.mem_map_of_mem (f := Call.seen) hdone
      rw [← hseen, List.mem_filterMap] at hhappened
      obtain ⟨happening, hmem, hfetch⟩ := hhappened
      cases happening with
      | started url' time =>
          obtain rfl : url' = url := by simpa [Happening.seen?, Call.seen] using hfetch
          exact ⟨time, hmem⟩
      | ended => cases hfetch
      | reported => cases hfetch

/-- One address is enough to take the outcomes of all. If every address that
an extension is to follow from can be taken apart, a run has an outcome for
each item and has fetched each that has an address, and what does not exist
can be selected. If one of them cannot, there are no outcomes, and nothing
can be selected. -/
theorem answers_iff_readable (hlimit : 1 ≤ limit) (hgoing : fetching.Uninterrupted)
    (items : List Feed.Item) (destination : Files.Path) (world : World) (names : List Text) :
    let ended := run fetching limit destination items world
    (Readable items →
        (∃ outcomes, ended.outcome = .ok outcomes
          ∧ (outcomes.map fun outcome => (outcome.index, outcome.title)).Perm
            (items.map fun item => (item.index, item.title))
          ∧ ∀ item ∈ items, ∀ url, item.enclosureUrl = some url → url ≠ [] →
            ∃ time, .started url time ∈ ended.happened)
        ∧ ∃ kept, Query.select (some names) .notexists items = .ok kept)
      ∧ (¬ Readable items → ∃ item before after why, items = before ++ item :: after
        ∧ Readable before ∧ fileName item = .error why
        ∧ ended.outcome = .error (.url why)
        ∧ Query.select (some names) .notexists items = .error (.url why)) := by
  intro ended
  refine ⟨fun hreads => ?_, fun hreads => ?_⟩
  · have hnamed := (readable_iff_named items).mp hreads
    exact ⟨run_answers hlimit hgoing hnamed destination world,
      (Query.exists_missing_iff names items).mpr hnamed⟩
  · obtain ⟨item, before, after, why, rfl, hbefore, hbroken, herror⟩ :=
      Query.missing_error_of_not_named fun hnamed => hreads ((readable_iff_named items).mpr hnamed)
    exact ⟨item, before, after, why, rfl, (readable_iff_named before).mpr hbefore, hbroken,
      run_eq_error hgoing world (jobsFor_snd_eq_some hbefore hbroken destination), herror names⟩

/-- A web that has everything. -/
def generous : Fetching Unit where
  launch _ _ world := (world, 0)
  land _ _ world := (world, .ok .saved)

/-- Two items, the second of no known type and with an address that begins a
host and does not end it. -/
def misaddressed : List Feed.Item :=
  [⟨1, "One", [], none, none, none, none, some "http://x/1", some "audio/mpeg", none⟩,
   ⟨2, "Two", [], none, none, none, none, some "http://[x/2", none, none⟩]

/-- The second takes the outcome of the first. -/
theorem answers_iff_readable_misaddressed :
    1 ≤ 1 ∧ generous.Uninterrupted ∧ ¬ Readable misaddressed
      ∧ ∃ why, (run generous 1 ⟨.here, ["dl"]⟩ misaddressed ()).outcome = .error (.url why)
        ∧ Query.select (some []) .notexists misaddressed = .error (.url why) := by
  have hgoing : generous.Uninterrupted := fun _ _ _ _ => nofun
  have hunreadable : ¬ Readable misaddressed := by
    intro hreads
    obtain ⟨parts, hparts⟩ := hreads _ (List.mem_cons_of_mem _ (List.mem_singleton_self _))
      (by unfold HasKnownType; decide) "http://[x/2" rfl (by decide)
    have hbroken : (Url.split "http://[x/2").isOk = false := by decide +kernel
    rw [hparts] at hbroken
    cases hbroken
  obtain ⟨item, before, after, why, -, -, -, houtcome, hselected⟩ :=
    (answers_iff_readable (Nat.le_refl 1) hgoing misaddressed ⟨.here, ["dl"]⟩ () []).2 hunreadable
  exact ⟨Nat.le_refl 1, hgoing, hunreadable, why, houtcome, hselected⟩

end FeedSieve.Download
