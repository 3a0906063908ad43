/-
Downloads that share a directory do not disturb each other.

If no item is to have a file of the name of another's, or of the name of
the one beside another's, then whatever the web answers, whatever the file
system refuses and whatever the order of the steps: at the end the file of
every item that succeeded holds the complete body of an answer that was
given to that item, the path of every item that did not holds what it held,
and nothing else in the directory has changed (`Course.undisturbed`).

No file is left beside that of an item whose fetch was saved or failed, nor
any that a fetch has begun. But one that lay there before stays there if
nothing clears it away, because there is nothing to fetch, or the fetch breaks
off before it has begun its own (`undisturbed_litter`).
-/
import FeedSieve.Proofs.Download.Carried
import FeedSieve.Proofs.Download.Destination
import FeedSieve.Proofs.Download.Leftovers
import FeedSieve.Proofs.Download.Naming

namespace FeedSieve.Download

open Files (Path Place Tree)

variable {items : List Feed.Item} {destination : Path} {directory : Place} {limit task : Nat}
  {access : Tree → Path → Bool}
  {habits : Habits} {before ready : Tree} {moves : List Move} {done : List Call}
  {traffic : Traffic} {job : Job} {item : Feed.Item} {outcome : Outcome}

-- ============================================================== entries

/-- No item has the name of another, or of the file beside another's. -/
def Separate (items : List Feed.Item) : Prop :=
  ∀ (task other : Nat) (item item' : Feed.Item) (name name' : Text), task ≠ other →
    items[task]? = some item → items[other]? = some item' → fileName item = .ok name →
    fileName item' = .ok name' → name ≠ name' ∧ name ≠ name' ++ partEnding

/-- Items whose names can be told from each other, and from those of the files
beside, are separate. -/
theorem separate_of_names {names : List Text} (hnames : items.map fileName = names.map .ok)
    (hapart : ∀ task < names.length, ∀ other < names.length, task ≠ other →
      names[task]? ≠ names[other]?
        ∧ names[task]? ≠ (names[other]?).map fun name => name ++ partEnding) :
    Separate items := by
  intro task other item item' name name' hne hitem hitem' hname hname'
  have hentry : ∀ (task : Nat) (item : Feed.Item) (name : Text), items[task]? = some item →
      fileName item = .ok name → names[task]? = some name := by
    intro task item name hitem hname
    have hmap := congrArg (·[task]?) hnames
    simp only [List.getElem?_map, hitem, Option.map_some, hname] at hmap
    obtain ⟨name', hname', hsame⟩ := Option.map_eq_some_iff.mp hmap.symm
    rw [hname', Except.ok.inj hsame]
  have hfirst := hentry task item name hitem hname
  have hsecond := hentry other item' name' hitem' hname'
  have happart := hapart task (List.getElem?_eq_some_iff.mp hfirst).1 other
    (List.getElem?_eq_some_iff.mp hsecond).1 hne
  rw [hfirst, hsecond] at happart
  exact ⟨fun h => happart.1 (congrArg some h), fun h => happart.2 (congrArg some h)⟩

/-- One item is separate. -/
theorem separate_singleton (item : Feed.Item) : Separate [item] := by
  intro task other _ _ _ _ hne hitem hitem'
  have htask := (List.getElem?_eq_some_iff.mp hitem).1
  have hother := (List.getElem?_eq_some_iff.mp hitem').1
  rw [List.length_singleton] at htask hother
  omega

/-- The entry of a directory that is the file of a task. -/
def entryOf (directory : Place) (jobs : List Job) (task : Nat) : Place :=
  directory ++ [((jobs[task]?).map (·.path.name)).getD []]

/-- The entry beside it. -/
def entryBeside (directory : Place) (jobs : List Job) (task : Nat) : Place :=
  directory ++ [((jobs[task]?).map (·.path.name)).getD [] ++ partEnding]

/-- The entry of an item is that of its name. -/
theorem entries_of_job (hnamed : Named items) (directory : Place)
    (hjob : (jobsFor destination items).1[task]? = some job) :
    ∃ name, items[task]? = some job.item ∧ fileName job.item = .ok name
      ∧ job.path = destination.child name
      ∧ entryOf directory (jobsFor destination items).1 task = directory ++ [name]
      ∧ entryBeside directory (jobsFor destination items).1 task
        = directory ++ [name ++ partEnding] := by
  have hpaths := (named_iff items destination).mp hnamed
  obtain ⟨hitem, hpath⟩ := (jobsFor_getElem?_iff hpaths task job).mp hjob
  obtain ⟨name, hname, hchild⟩ := filePath_eq_ok_iff.mp hpath
  refine ⟨name, hitem, hname, hchild, ?_, ?_⟩
  · unfold entryOf
    rw [hjob, Option.map_some, hchild, Path.name_child, Option.getD_some]
  · unfold entryBeside
    rw [hjob, Option.map_some, hchild, Path.name_child, Option.getD_some]

/-- The flights for items that are separate are apart. -/
theorem apart_of_separate (hnamed : Named items) (hseparate : Separate items)
    (hfind : ready.find destination = .ok directory) :
    Apart ready (jobsFor destination items).1
      (entryOf directory (jobsFor destination items).1)
      (entryBeside directory (jobsFor destination items).1) := by
  refine ⟨fun task job hjob => ?_, fun task other job job' hne hjob hjob' => ?_⟩
  · obtain ⟨name, -, hname, hpath, hentry, hbeside⟩ := entries_of_job hnamed directory hjob
    rw [hentry, hbeside, hpath]
    exact spots_child hfind (fileName_ne_nil hname) (fileName_ne_back hname)
  · obtain ⟨name, hitem, hname, -, hentry, hbeside⟩ := entries_of_job hnamed directory hjob
    obtain ⟨name', hitem', hname', -, hentry', hbeside'⟩ := entries_of_job hnamed directory hjob'
    obtain ⟨hdiffer, hcross⟩ := hseparate task other _ _ name name' hne hitem hitem' hname hname'
    rw [hentry, hbeside, hentry', hbeside']
    simp only [ne_eq, List.append_cancel_left_eq, List.cons.injEq, and_true,
      List.append_cancel_right_eq]
    exact ⟨hdiffer, hcross, hdiffer⟩

-- ============================================================= outcomes

/-- What a sound flight has left behind that has come to an outcome. -/
theorem Sound.left_behind {path : Path} {place beside : Place} {flight : Flight} {desk : Desk}
    {ending : Ending} {result : Result}
    (h : Sound before path place beside task flight desk)
    (hstage : flight.stage = .over ending) (hresult : ending.result = .ok result) :
    (result.reason? = none → ∃ fortune earlier body, flight.met = fortune :: earlier
        ∧ fortune.body? = some body ∧ (∀ fortune ∈ earlier, fortune.body? = none)
        ∧ desk.files.read path = .ok body)
      ∧ (result.reason? ≠ none → desk.files.at? place = before.at? place)
      ∧ ((∀ crash, ending ≠ .crashed crash) →
        ∀ part content, partPath? path = some part → desk.files.read part ≠ .ok content) := by
  cases h with
  | saved hbody hearlier hwanted hat hpart hfind hnone =>
      obtain rfl := Stage.over.inj hstage
      obtain rfl := Except.ok.inj hresult
      refine ⟨fun _ =>
          ⟨_, _, _, rfl, hbody, hearlier, Tree.read_eq_ok_iff.mpr ⟨_, _, hwanted, hat⟩⟩,
        fun h => absurd rfl h, fun _ part content hpart' hread => ?_⟩
      obtain ⟨source, mode, hfind', hfile⟩ := Tree.read_eq_ok_iff.mp hread
      obtain rfl := Option.some.inj (hpart'.symm.trans hpart)
      obtain rfl := Except.ok.inj (hfind'.symm.trans hfind)
      rw [hnone] at hfile
      cases hfile
  | failed hwanted hbare =>
      obtain rfl := Stage.over.inj hstage
      obtain rfl := Except.ok.inj hresult
      refine ⟨(nomatch ·), fun _ => hwanted, fun _ part content hpart hread => ?_⟩
      obtain ⟨source, mode, hfind, hfile⟩ := Tree.read_eq_ok_iff.mp hread
      exact hbare part source content mode hpart hfind hfile
  | @crashed _ _ crash hwanted =>
      obtain rfl := Stage.over.inj hstage
      refine ⟨fun hreason => ?_, fun _ => hwanted, fun h => absurd rfl (h crash)⟩
      cases Ending.eq_saved hresult hreason
  | _ => cases hstage

/-- What a task has left behind whose flight is sound. -/
private theorem Course.left_behind {jobs : List Job} {place beside : Place}
    (course : Course jobs limit habits ready moves done traffic) (hover : traffic.slots.Over)
    (hjob : jobs[task]? = some job) (houtcome : traffic.slots.gathered[task]? = some outcome)
    (hflight : Sound ready job.path place beside task (traffic.flights task) traffic.desk) :
    outcome.path = job.path
      ∧ (outcome.succeeded = true → ∃ fortune earlier body,
        (traffic.flights task).met = fortune :: earlier ∧ fortune.body? = some body
          ∧ (∀ fortune ∈ earlier, fortune.body? = none)
          ∧ traffic.desk.files.read job.path = .ok body)
      ∧ (outcome.succeeded = false → traffic.desk.files.at? place = ready.at? place)
      ∧ (job.item.enclosureUrl.getD [] ≠ [] →
        (∀ crash, (traffic.flights task).stage ≠ .over (.crashed crash)) →
        ∀ part content, partPath? job.path = some part →
          traffic.desk.files.read part ≠ .ok content) := by
  have hsettled := (hover.gathered_getElem?_iff course.run.kept).mp houtcome
  cases hurl : job.url? with
  | none =>
      -- nothing has been fetched, so nothing has changed
      obtain ⟨job', hjob', hcame⟩ := course.run.cameAbout hover houtcome
      obtain rfl := Option.some.inj (hjob'.symm.trans hjob)
      rcases hcame with ⟨-, rfl⟩ | ⟨url, -, hurl', -⟩
      · rw [course.ready_of_url?_eq_none hjob hurl] at hflight
        cases hflight with
        | asking hwanted _ =>
            exact ⟨rfl, (nomatch ·), fun _ => hwanted,
              fun hne => absurd ((url?_eq_none_iff job').mp hurl) hne⟩
      · rw [hurl] at hurl'
        cases hurl'
  | some url =>
      obtain ⟨ending, result, hstage, hresult, rfl⟩ := course.settled hjob hurl hsettled
      obtain ⟨hsaved, hfailed, hbare⟩ := hflight.left_behind hstage hresult
      have hsucceeded : (job.outcome result.reason?).succeeded = result.reason?.isNone := rfl
      rw [hsucceeded, Option.isNone_iff_eq_none, Option.isNone_eq_false_iff]
      refine ⟨rfl, hsaved, fun hreason => hfailed (Option.isSome_iff_ne_none.mp hreason),
        fun _ hwhole => hbare ?_⟩
      rintro crash rfl
      exact hwhole crash hstage

/-- The flight of a task that has come to an outcome is at rest. -/
private theorem Course.isAtWork_eq_false {jobs : List Job}
    (course : Course jobs limit habits ready moves done traffic) (hover : traffic.slots.Over)
    (hjob : jobs[task]? = some job) (houtcome : traffic.slots.gathered[task]? = some outcome) :
    (traffic.flights task).isAtWork = false := by
  have hsettled := (hover.gathered_getElem?_iff course.run.kept).mp houtcome
  cases hurl : job.url? with
  | none =>
      rw [course.ready_of_url?_eq_none hjob hurl]
      rfl
  | some url =>
      obtain ⟨ending, result, hstage, -⟩ := course.settled hjob hurl hsettled
      unfold Flight.isAtWork
      rw [hstage]

/-- Downloads into one directory that are separate do not disturb each other:
the file of each that succeeded holds the body of an answer of its own, the
path of each that failed what it held, and every other place is as it was,
also those of items with nothing to fetch. No file is beside one that was
fetched and did not break off, and none beside any other that was not there
before. Making the directory has added directories only, and none if it was
there. -/
theorem Course.undisturbed (hnamed : Named items) (hseparate : Separate items)
    (hready : prepare access before destination = (ready, none))
    (course : Course (jobsFor destination items).1 limit habits ready moves done traffic)
    (hover : traffic.slots.Over) :
    let after := traffic.desk.files
    (∀ task item outcome, items[task]? = some item →
        traffic.slots.gathered[task]? = some outcome →
        (outcome.succeeded = true → ∃ fortune earlier body,
          (traffic.flights task).met = fortune :: earlier ∧ fortune.body? = some body
            ∧ (∀ fortune ∈ earlier, fortune.body? = none) ∧ after.read outcome.path = .ok body)
        ∧ (outcome.succeeded = false → after.stat outcome.path = ready.stat outcome.path)
        ∧ (item.enclosureUrl.getD [] ≠ [] →
          (∀ crash, (traffic.flights task).stage ≠ .over (.crashed crash)) →
          ∀ part content, partPath? outcome.path = some part → after.read part ≠ .ok content)
        ∧ ((∀ fortune ∈ (traffic.flights task).met, fortune.Usual) →
          ∀ part content, partPath? outcome.path = some part → after.read part = .ok content →
            ready.read part = .ok content))
      ∧ (∃ directory, ready.find destination = .ok directory
        ∧ ∀ spot, (∀ item ∈ items, item.enclosureUrl.getD [] ≠ [] →
            ∀ name, fileName item = .ok name →
              spot ≠ directory ++ [name] ∧ spot ≠ directory ++ [name ++ partEnding]) →
          after.at? spot = ready.at? spot)
      ∧ before.Grown ready ∧ (before.isDirectory? destination = .ok true → ready = before) := by
  intro after
  obtain ⟨hgrown, -, directory, hfind, hat⟩ := prepare_spec hready
  have hdirs := course.sameDirectories
  have hapart := apart_of_separate hnamed hseparate hfind
  obtain ⟨hsound, hframe⟩ := course.sound hapart
  refine ⟨fun task item outcome hitem houtcome => ?_, ⟨directory, hfind, fun spot hspot => ?_⟩,
    hgrown, fun hthere => ?_⟩
  · obtain ⟨job, hjob, -⟩ := course.run.cameAbout hover houtcome
    obtain ⟨name, hitem', hname, hchild, hentry, -⟩ := entries_of_job hnamed directory hjob
    obtain rfl := Option.some.inj (hitem.symm.trans hitem')
    obtain ⟨hpath, hsaved, hfailed, hbare⟩ :=
      course.left_behind hover hjob houtcome (hsound task job hjob)
    rw [hpath]
    refine ⟨hsaved, fun hreason => ?_, hbare, fun husual part content hpart hread => ?_⟩
    case refine_2 =>
      exact (course.swept hapart hjob husual).read_eq_ok
        (course.isAtWork_eq_false hover hjob houtcome) (hapart.spots task job hjob) hdirs hpart
        hread
    rw [hchild]
    exact Tree.stat_child_eq hfind hat (hdirs.find_eq_ok.mpr hfind) ((hdirs _).mpr hat)
      (fileName_ne_back hname) (hentry ▸ hfailed hreason)
  · refine hframe spot fun task job hjob hurl => ?_
    obtain ⟨name, hitem, hname, -, hentry, hbeside⟩ := entries_of_job hnamed directory hjob
    rw [hentry, hbeside]
    exact hspot job.item (List.mem_of_getElem? hitem) (mt (url?_eq_none_iff job).mpr hurl) name
      hname
  · rw [prepare_of_isDirectory? hthere] at hready
    exact (Prod.mk.inj hready).1.symm

/-- A directory to download to. -/
def shelf : Path := ⟨.here, ["dl"]⟩

/-- Habits of no patience. -/
def hasty : Habits := ⟨"FeedSieve", 0, 0⟩

/-- A world with an older file in the directory. The web has the first file
and not the other. -/
def shelved : World where
  files := ⟨[(["here"], .directory), (["here", "dl"], .directory),
    (["here", "dl", "Three.ogg"], .file [9] Files.plainMode)]⟩
  web := ⟨[("http://x/1", [.ok ⟨200, none, [[1, 2], [3]], none⟩]),
    ("http://x/3", [.ok ⟨404, none, [], none⟩])], []⟩
  pauses := []
  bindings := []
  homes := []
  now := .first
  mark := []

/-- Two fetches at a time, one of which fails: the older file is as it was, and
so is what nobody is about. -/
theorem undisturbed_shelf :
    Named episodes ∧ Separate episodes
      ∧ prepare shelved.access shelved.files shelf = (shelved.files, none)
      ∧ ∃ moves done traffic,
        Course (jobsFor shelf episodes).1 2 hasty shelved.files moves done traffic
        ∧ traffic.slots.Over
        ∧ (∀ outcome, traffic.slots.gathered[2]? = some outcome → outcome.succeeded = false →
          traffic.desk.files.stat outcome.path = shelved.files.stat outcome.path)
        ∧ traffic.desk.files.at? ["here", "dl", "Four"] = none := by
  have hnamed : Named episodes := (named_iff episodes _).mpr episodes_named
  have hnames : episodes.map fileName = (["One.mp3", "Two", "Three.ogg"] : List Text).map .ok := by
    decide +kernel
  have hseparate : Separate episodes := separate_of_names hnames (by decide +kernel)
  have hready : prepare shelved.access shelved.files shelf = (shelved.files, none) := by
    decide +kernel
  have hreturns : (run hasty.fetching 2 shelf episodes shelved).outcome.isOk = true := by
    decide +kernel
  cases houtcome : (run hasty.fetching 2 shelf episodes shelved).outcome with
  | error stop =>
      rw [houtcome] at hreturns
      cases hreturns
  | ok outcomes =>
      obtain ⟨moves, done, traffic, course, hover, -, -⟩ :=
        run_course (by decide) ((named_iff episodes shelf).mp hnamed) hasty shelved houtcome
      obtain ⟨houtcomes, ⟨directory, hdirectory, hothers⟩, -⟩ :=
        Course.undisturbed hnamed hseparate hready course hover
      have hplace : shelved.files.find shelf = .ok ["here", "dl"] := by decide +kernel
      obtain rfl := Except.ok.inj (hdirectory.symm.trans hplace)
      refine ⟨hnamed, hseparate, hready, moves, done, traffic, course, hover,
        fun outcome hgathered => (houtcomes 2 _ outcome rfl hgathered).2.1, ?_⟩
      refine (hothers _ fun item hitem _ name hname => ?_).trans (by decide +kernel)
      have hmem : (.ok name : Except Url.Broken Text)
          ∈ (["One.mp3", "Two", "Three.ogg"] : List Text).map .ok := by
        rw [← hnames, ← hname]
        exact List.mem_map_of_mem hitem
      simp only [List.map_cons, List.map_nil, List.mem_cons, Except.ok.injEq, List.not_mem_nil,
        or_false] at hmem
      rcases hmem with rfl | rfl | rfl <;> decide

/-- An episode with nothing to fetch. -/
def silent : Feed.Item := ⟨1, "One", [], none, none, none, none, none, none, none⟩

/-- An episode whose address is none. -/
def astray : Feed.Item := ⟨2, "Two", [], none, none, none, none, "http://x:y/", none, none⟩

/-- A world with files beside those of the episodes, as downloads that were
stopped may have left them when there was something to fetch. -/
def littered : World :=
  { shelved with
    files := ⟨[(["here"], .directory), (["here", "dl"], .directory),
      (["here", "dl", "One.part"], .file [7] Files.plainMode),
      (["here", "dl", "Two.part"], .file [7] Files.plainMode)]⟩ }

/-- They are still there when the downloads have come to their end. -/
theorem undisturbed_litter :
    prepare littered.access littered.files shelf = (littered.files, none)
      ∧ (Named [silent] ∧ Separate [silent]
        ∧ ∃ outcome part, (run hasty.fetching 1 shelf [silent] littered).outcome = .ok [outcome]
          ∧ outcome.succeeded = false ∧ partPath? outcome.path = some part
          ∧ (run hasty.fetching 1 shelf [silent] littered).world.files.read part = .ok [7])
      ∧ Named [astray] ∧ Separate [astray]
        ∧ ∃ outcome part, (run hasty.fetching 1 shelf [astray] littered).outcome = .ok [outcome]
          ∧ outcome.succeeded = false ∧ partPath? outcome.path = some part
          ∧ (run hasty.fetching 1 shelf [astray] littered).world.files.read part = .ok [7] := by
  have hnamed (item : Feed.Item) (name : Text) (hname : fileName item = .ok name) :
      Named [item] := by
    refine (named_iff [item] shelf).mpr fun other hother => ?_
    obtain rfl := List.mem_singleton.mp hother
    exact ⟨_, filePath_eq_ok_iff.mpr ⟨name, hname, rfl⟩⟩
  refine ⟨by decide +kernel, ⟨hnamed silent "One" (by decide +kernel), separate_singleton _, ?_⟩,
    hnamed astray "Two" (by decide +kernel), separate_singleton _, ?_⟩
  · exact ⟨⟨1, "One", ⟨.here, ["dl", "One"]⟩, some noEnclosure⟩,
      ⟨.here, ["dl", "One.part"]⟩, by decide +kernel, rfl, rfl, by decide +kernel⟩
  · exact ⟨⟨2, "Two", ⟨.here, ["dl", "Two"]⟩, some "Unexpected error: Invalid port: 'y'"⟩,
      ⟨.here, ["dl", "Two.part"]⟩, by decide +kernel, rfl, rfl, by decide +kernel⟩

end FeedSieve.Download
