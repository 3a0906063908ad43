/-
A downloaded item is recognised the next time.

What has been downloaded is told by the names in the directory, and these
are the names that files are downloaded to. So once all downloads of a run
have succeeded, selecting what does not exist selects none of its items
(`Course.recognised`), whatever the order of the steps; also items of one
name, who share a file, are recognised.

One thing can get in the way: an item that is to have a file of the name of
the one beside another's. That file is moved away when the other download is
complete. So no item of the run may be named like that.

# Why the files are there

A download that succeeded has put its file into place (`Course.saved`), and
what is anywhere stays, unless a flight writes there (`Course.at?_ne_none`).
-/
import FeedSieve.Proofs.Download.Carried
import FeedSieve.Proofs.Download.Undisturbed
import FeedSieve.Proofs.Query.Missing

namespace FeedSieve.Download

open Files (Path Place Tree)

variable {jobs : List Job} {items feed : List Feed.Item} {destination : Path} {limit task : Nat}
  {access : Tree → Path → Bool}
  {habits : Habits} {files before ready : Tree} {moves : List Move} {done : List Call}
  {traffic : Traffic} {job : Job} {spot : Place}

namespace Course

/-- What is anywhere stays, unless it is where a flight writes. -/
theorem at?_ne_none (course : Course jobs limit habits files moves done traffic)
    (hbeside : ∀ (task : Nat) (job : Job) (part : Path), jobs[task]? = some job →
      partPath? job.path = some part → files.find part ≠ .ok spot)
    (hthere : files.at? spot ≠ none) : traffic.desk.files.at? spot ≠ none := by
  induction course with
  | start => exact hthere
  | moves _ _ _ ih => exact ih
  | @flies _ _ traffic task job errand course _ hjob herrand fortune ih =>
      have hgoes := Flight.goes_step errand task fortune (traffic.flights task) traffic.desk
      have hgrounded := course.grounded.2 task job hjob
      rw [← (Job.errand?_path herrand).1] at hgrounded
      refine hgoes.at?_ne_none hgrounded (fun part hpart hfind => ?_) ih
      rw [(Job.errand?_path herrand).1] at hpart
      exact hbeside task job part hjob hpart (course.sameDirectories.find_eq_ok.mp hfind)

/-- A file that is saved is there, unless a flight writes where it is. -/
theorem saved (course : Course jobs limit habits files moves done traffic)
    (hcross : ∀ (task other : Nat) (job job' : Job) (part : Path) (spot : Place),
      jobs[task]? = some job → jobs[other]? = some job' → partPath? job'.path = some part →
      files.find part = .ok spot → files.find job.path ≠ .ok spot)
    (hjob : jobs[task]? = some job) (hsaved : (traffic.flights task).stage = .over .saved) :
    ∃ spot, files.find job.path = .ok spot ∧ traffic.desk.files.at? spot ≠ none := by
  induction course with
  | start => cases hsaved
  | moves _ _ _ ih => exact ih hsaved
  | @flies _ _ traffic other job' errand course _ hjob' herrand fortune ih =>
      have hgoes := Flight.goes_step errand other fortune (traffic.flights other) traffic.desk
      have hpath := (Job.errand?_path herrand).1
      have hgrounded := course.grounded.2 other job' hjob'
      rw [← hpath] at hgrounded
      -- a file that was there is not where this flight writes
      have hstays : (∃ spot, files.find job.path = .ok spot
          ∧ traffic.desk.files.at? spot ≠ none) →
          ∃ spot, files.find job.path = .ok spot
            ∧ (traffic.flown errand other fortune).desk.files.at? spot ≠ none := by
        rintro ⟨spot, hfind, hthere⟩
        refine ⟨spot, hfind, hgoes.at?_ne_none hgrounded (fun part hpart hwrites => ?_) hthere⟩
        rw [hpath] at hpart
        exact hcross task other job job' part spot hjob hjob' hpart
          (course.sameDirectories.find_eq_ok.mp hwrites) hfind
      by_cases hother : task = other
      · subst hother
        obtain rfl := Option.some.inj (hjob'.symm.trans hjob)
        rw [Traffic.flown_flights_self] at hsaved
        rcases hgoes.saved hgrounded hsaved with ⟨hbefore, -⟩ | ⟨spot, hfind, hthere⟩
        · exact hstays (ih hbefore)
        · rw [hpath] at hfind
          exact ⟨spot, course.sameDirectories.find_eq_ok.mp hfind, hthere⟩
      · rw [Traffic.flown_flights_of_ne hother] at hsaved
        exact hstays (ih hsaved)

end Course

-- =============================================================== names

/-- No item has the name of the file beside one of the run. -/
def Clear (items feed : List Feed.Item) : Prop :=
  ∀ item ∈ feed, ∀ other ∈ items, ∀ name name', fileName item = .ok name →
    fileName other = .ok name' → name ≠ name' ++ partEnding

/-- What is in the directory stays, if it has not the name of the file beside
one of the run. -/
theorem Course.entry_stays {directory : Place} {name : Text} (hnamed : Named items)
    (hfind : ready.find destination = .ok directory)
    (course : Course (jobsFor destination items).1 limit habits ready moves done traffic)
    (hclear : ∀ other ∈ items, ∀ name', fileName other = .ok name' → name ≠ name' ++ partEnding)
    (hthere : ready.at? (directory ++ [name]) ≠ none) :
    traffic.desk.files.at? (directory ++ [name]) ≠ none := by
  refine course.at?_ne_none (fun task job part hjob hpart hwrites => ?_) hthere
  obtain ⟨name', hitem, hname', hpath, -, -⟩ := entries_of_job hnamed directory hjob
  rw [hpath, partPath?_child destination (fileName_ne_nil hname')] at hpart
  obtain rfl := Option.some.inj hpart
  have hentry := Tree.find_child hfind (append_partEnding_ne name') hwrites
  exact hclear job.item (List.mem_of_getElem? hitem) name' hname'
    (List.singleton_inj.mp (List.append_cancel_left hentry))

/-- If a task has succeeded its file is in the directory. -/
theorem Course.entry_of_succeeded {directory : Place} {item : Feed.Item} {name : Text}
    {outcome : Outcome} (hnamed : Named items) (hclear : Clear items items)
    (hfind : ready.find destination = .ok directory)
    (course : Course (jobsFor destination items).1 limit habits ready moves done traffic)
    (hover : traffic.slots.Over) (hitem : items[task]? = some item)
    (hname : fileName item = .ok name) (houtcome : traffic.slots.gathered[task]? = some outcome)
    (hsucceeded : outcome.succeeded = true) :
    traffic.desk.files.at? (directory ++ [name]) ≠ none := by
  obtain ⟨job, hjob, hcame⟩ := course.run.cameAbout hover houtcome
  obtain ⟨name', hitem', hname', hpath, -, -⟩ := entries_of_job hnamed directory hjob
  obtain rfl := Option.some.inj (hitem.symm.trans hitem')
  obtain rfl := Except.ok.inj (hname.symm.trans hname')
  -- an item without an address has not succeeded, and a flight that has is saved
  have hsaved : (traffic.flights task).stage = .over .saved := by
    rcases hcame with ⟨-, rfl⟩ | ⟨url, -, hurl, -⟩
    · cases hsucceeded
    · obtain ⟨ending, result, hstage, hresult, rfl⟩ :=
        course.settled hjob hurl ((hover.gathered_getElem?_iff course.run.kept).mp houtcome)
      rw [hstage, Ending.eq_saved hresult (Option.isNone_iff_eq_none.mp hsucceeded)]
  have hcross : ∀ (task other : Nat) (job job' : Job) (part : Path) (spot : Place),
      (jobsFor destination items).1[task]? = some job →
      (jobsFor destination items).1[other]? = some job' → partPath? job'.path = some part →
      ready.find part = .ok spot → ready.find job.path ≠ .ok spot := by
    intro task other job job' part spot hjob hjob' hpart hwrites hreads
    obtain ⟨name, hitem, hname, hpath, -, -⟩ := entries_of_job hnamed directory hjob
    obtain ⟨name', hitem', hname', hpath', -, -⟩ := entries_of_job hnamed directory hjob'
    rw [hpath', partPath?_child destination (fileName_ne_nil hname')] at hpart
    obtain rfl := Option.some.inj hpart
    rw [hpath] at hreads
    have hentry := Tree.find_child hfind (fileName_ne_back hname) hreads
    have hentry' := Tree.find_child hfind (append_partEnding_ne name') hwrites
    exact hclear _ (List.mem_of_getElem? hitem) _ (List.mem_of_getElem? hitem') name name' hname
      hname' (List.singleton_inj.mp (List.append_cancel_left (hentry.symm.trans hentry')))
  obtain ⟨spot, hspot, hthere⟩ := course.saved hcross hjob hsaved
  rw [hpath] at hspot
  rw [← Tree.find_child hfind (fileName_ne_back hname) hspot]
  exact hthere

/-- After downloads that have all succeeded no item of theirs is selected as
one that does not exist. Nor is any other, if the items were those selected
as such before, and no file of the feed was in the way. -/
theorem Course.recognised (hnamed : Named items) (hclear : Clear items items)
    (hready : prepare access before destination = (ready, none))
    (course : Course (jobsFor destination items).1 limit habits ready moves done traffic)
    (hover : traffic.slots.Over)
    (hall : ∀ outcome ∈ traffic.slots.returned items, outcome.succeeded = true)
    (feed : List Feed.Item) :
    ∃ names, traffic.desk.files.namesAt destination = .ok names
      ∧ (∀ item ∈ items, ∀ name, fileName item = .ok name → name ∈ names)
      ∧ (∀ kept, Query.select (some names) .notexists feed = .ok kept →
        ∀ item ∈ items, item ∉ kept)
      ∧ (Named feed → ∃ kept, Query.select (some names) .notexists feed = .ok kept)
      ∧ (∀ earlier, before.namesAt destination = .ok earlier →
        Query.select (some earlier) .notexists feed = .ok items → Clear items feed →
        Query.select (some names) .notexists feed = .ok []) := by
  obtain ⟨hgrown, -, directory, hfind, hat⟩ := prepare_spec hready
  have hdirs := course.sameDirectories
  have hfind' := hdirs.find_eq_ok.mpr hfind
  have hat' := (hdirs directory).mpr hat
  have hthere : ∀ item ∈ items, ∀ name, fileName item = .ok name →
      name ∈ traffic.desk.files.names directory := by
    intro item hitem name hname
    obtain ⟨task, hitem⟩ := List.mem_iff_getElem?.mp hitem
    have hlength : traffic.slots.gathered.length = items.length := by
      rw [hover.length_gathered course.run.kept,
        length_jobsFor ((named_iff items destination).mp hnamed)]
    have houtcome := List.getElem?_eq_getElem (l := traffic.slots.gathered)
      (hlength ▸ (List.getElem?_eq_some_iff.mp hitem).1)
    have hsucceeded := hall _ ((inItemOrder_perm items _).mem_iff.mpr
      (List.mem_of_getElem? houtcome))
    exact (Tree.mem_names_iff _ _ _).mpr
      (course.entry_of_succeeded hnamed hclear hfind hover hitem hname houtcome hsucceeded)
  refine ⟨_, Tree.namesAt_eq hfind' hat', hthere, fun kept hkept item hitem hmem => ?_,
    (Query.exists_missing_iff _ feed).mpr, fun earlier hearlier hselected hclear' => ?_⟩
  · obtain ⟨-, name, hname, hnot⟩ := (Query.mem_missing_iff hkept item).mp hmem
    exact hnot (hthere item hitem name hname)
  · have hfeed := (Query.exists_missing_iff earlier feed).mp ⟨items, hselected⟩
    obtain ⟨kept, hkept⟩ :=
      (Query.exists_missing_iff (traffic.desk.files.names directory) feed).mpr hfeed
    suffices kept = [] by rw [hkept, this]
    refine List.eq_nil_iff_forall_not_mem.mpr fun item hmem => ?_
    obtain ⟨hitem, name, hname, hnot⟩ := (Query.mem_missing_iff hkept item).mp hmem
    by_cases hknown : name ∈ earlier
    · -- the file was there before, and has stayed
      rw [prepare_of_isDirectory? (Tree.isDirectory?_of_mem_namesAt hearlier hknown)] at hready
      obtain rfl := (Prod.mk.inj hready).1
      obtain rfl := Except.ok.inj (hearlier.symm.trans (Tree.namesAt_eq hfind hat))
      refine hnot ((Tree.mem_names_iff _ _ _).mpr (course.entry_stays hnamed hfind ?_
        ((Tree.mem_names_iff _ _ _).mp hknown)))
      exact fun other hother name' hname' => hclear' item hitem other hother name name' hname hname'
    · exact hnot (hthere item ((Query.mem_missing_iff hselected item).mpr
        ⟨hitem, name, hname, hknown⟩) name hname)

/-- The first of the episodes, and the third. -/
def firstEpisode : Feed.Item :=
  ⟨1, "One", [], none, none, none, none, some "http://x/1", some "audio/mpeg", none⟩

def thirdEpisode : Feed.Item :=
  ⟨3, "Three", [], none, none, none, none, some "http://x/3", some "audio/ogg", none⟩

/-- The third is there already; when the first has been downloaded nothing is
left. -/
theorem recognised_shelf :
    Named [firstEpisode] ∧ Clear [firstEpisode] [firstEpisode]
      ∧ prepare shelved.access shelved.files shelf = (shelved.files, none)
      ∧ ∃ moves done traffic names,
        Course (jobsFor shelf [firstEpisode]).1 1 hasty shelved.files moves done traffic
        ∧ traffic.slots.Over
        ∧ (∀ outcome ∈ traffic.slots.returned [firstEpisode], outcome.succeeded = true)
        ∧ traffic.desk.files.namesAt shelf = .ok names
        ∧ Query.select (some names) .notexists [firstEpisode, thirdEpisode] = .ok [] := by
  have hfirst : fileName firstEpisode = .ok "One.mp3" := by decide +kernel
  have hthird : fileName thirdEpisode = .ok "Three.ogg" := by decide +kernel
  have hnamed : Named [firstEpisode] := List.forall_mem_singleton.mpr ⟨_, hfirst⟩
  have hclear : Clear [firstEpisode] [firstEpisode, thirdEpisode] := by
    intro item hitem other hother name name' hname hname'
    obtain rfl := List.mem_singleton.mp hother
    obtain rfl := Except.ok.inj (hname'.symm.trans hfirst)
    rcases List.mem_cons.mp hitem with rfl | hitem
    · obtain rfl := Except.ok.inj (hname.symm.trans hfirst)
      decide
    · obtain rfl := List.mem_singleton.mp hitem
      obtain rfl := Except.ok.inj (hname.symm.trans hthird)
      decide
  have hown : Clear [firstEpisode] [firstEpisode] :=
    fun item hitem => hclear item (List.mem_cons.mpr (Or.inl (List.mem_singleton.mp hitem)))
  have hready : prepare shelved.access shelved.files shelf = (shelved.files, none) := by decide +kernel
  have houtcome : (run hasty.fetching 1 shelf [firstEpisode] shelved).outcome
      = .ok [⟨1, "One", shelf.child "One.mp3", none⟩] := by
    decide +kernel
  obtain ⟨moves, done, traffic, course, hover, hreturned, -⟩ :=
    run_course (by decide) ((named_iff [firstEpisode] shelf).mp hnamed) hasty shelved houtcome
  have hall : ∀ outcome ∈ traffic.slots.returned [firstEpisode], outcome.succeeded = true := by
    rw [← hreturned]
    exact List.forall_mem_singleton.mpr rfl
  obtain ⟨names, hnames, -, -, -, hrepeated⟩ := Course.recognised hnamed hown hready course hover
    hall [firstEpisode, thirdEpisode]
  exact ⟨hnamed, hown, hready, moves, done, traffic, names, course, hover, hall, hnames,
    hrepeated ["Three.ogg"] (by decide +kernel) (by decide +kernel) hclear⟩

/-- Two items that are not clear of each other: the first is to have the name
of the file beside the second's. -/
def crossed : List Feed.Item :=
  [⟨1, "A.mp3", [], none, none, none, none, some "http://x/b.part", none, none⟩,
   ⟨2, "A", [], none, none, none, none, some "http://x/a.mp3", some "audio/mpeg", none⟩]

/-- Both are downloaded, and the file of the first is not there. -/
example :
    let web : Http.Web := ⟨[("http://x/a.mp3", [.ok ⟨200, none, [[1]], none⟩]),
      ("http://x/b.part", [.ok ⟨200, none, [[2]], none⟩])], []⟩
    let ended := run hasty.fetching 1 shelf crossed { shelved with web := web }
    crossed.map fileName = [.ok "A.mp3.part", .ok "A.mp3"] ∧ ended.outcome.isOk
      ∧ ended.world.files.namesAt shelf = .ok ["Three.ogg", "A.mp3"] := by
  decide +kernel

end FeedSieve.Download
