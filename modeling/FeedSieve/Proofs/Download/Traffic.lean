/-
Flights that share the files.

While several fetches are in flight their steps take turns, and all of them
are made in one tree of files. A `Course` is any such taking turns: moves
that the slots allow, and between them steps of the flights that have a
slot, in any order, with anything that their attempts may meet with. A
flight lands when it is over. Between two steps of one flight there may be
any number of steps of others.

# What flights leave to each other

`Apart` says that no two flights are about one place, wanted or beside.
Then every flight is `Sound` all along, as if it were alone
(`Course.sound`): its own steps keep it so, and the steps of others change
neither of its places, and leave the file open that it writes to.

# What is common to all courses

Without that, less is true, but some is: the directories stay
(`Course.sameDirectories`), every flight writes to a file, and the outcome
of a task is what its flight came to (`Course.settled`).
-/
import FeedSieve.Proofs.Download.AllOrNothing
import FeedSieve.Proofs.Download.Scheduling

namespace FeedSieve.Download

open Files (Path Place Tree)
open Http (Response)

-- ============================================================== courses

/-- How the files of a run are fetched. -/
structure Habits where
  /-- The name that the program goes by. -/
  agent : Text
  /-- How often a failed attempt is repeated. -/
  retries : Nat
  /-- The pause after the first attempt, in milliseconds. -/
  delay : Int

/-- What is to be fetched for a job, if anything is. -/
def Job.errand? (habits : Habits) (job : Job) : Option Errand :=
  job.url?.map fun url => ⟨url, job.path, habits.agent, habits.retries, habits.delay⟩

/-- A run with its flights, and the files that they share. -/
structure Traffic where
  slots : Slots
  flights : Nat → Flight
  desk : Desk

/-- Before anything has happened. -/
def Traffic.initial (limit count : Nat) (files : Tree) : Traffic :=
  ⟨.initial limit count, fun _ => .ready, ⟨files, fun _ => none⟩⟩

/-- A task makes a step of its flight. -/
def Traffic.flown (traffic : Traffic) (errand : Errand) (task : Nat) (fortune : Fortune) :
    Traffic :=
  let next := (traffic.flights task).step errand task fortune traffic.desk
  ⟨traffic.slots, Function.update traffic.flights task next.1, next.2⟩

/-- What a landing says is what the flight came to; other moves say nothing. -/
def Move.Reports (flights : Nat → Flight) (move : Move) : Prop :=
  ∀ task result, move = .lands task result →
    ∃ ending, (flights task).stage = .over ending ∧ ending.result = .ok result

/-- Moves and steps of flights, in any order that the slots allow. -/
inductive Course (jobs : List Job) (limit : Nat) (habits : Habits) (files : Tree) :
    List Move → List Call → Traffic → Prop where
  | start : Course jobs limit habits files [] [] (.initial limit jobs.length files)
  | moves {moves : List Move} {done : List Call} {traffic : Traffic} {move : Move} {s : Slots}
      (course : Course jobs limit habits files moves done traffic)
      (hmove : traffic.slots.move? jobs move = some s) (hreports : move.Reports traffic.flights) :
      Course jobs limit habits files (moves ++ [move]) (done ++ traffic.slots.calls jobs s)
        { traffic with slots := s }
  | flies {moves : List Move} {done : List Call} {traffic : Traffic} {task : Nat} {job : Job}
      {errand : Errand} (course : Course jobs limit habits files moves done traffic)
      (hflying : task ∈ traffic.slots.flying) (hjob : jobs[task]? = some job)
      (herrand : job.errand? habits = some errand) (fortune : Fortune) :
      Course jobs limit habits files moves done (traffic.flown errand task fortune)

variable {jobs : List Job} {limit task other : Nat} {habits : Habits} {files : Tree}
  {moves : List Move} {done : List Call} {traffic : Traffic} {job : Job} {errand : Errand}
  {outcome : Outcome}

/-- The errand of a job is to fetch its file. -/
theorem Job.errand?_path (h : job.errand? habits = some errand) :
    errand.path = job.path ∧ job.url? = some errand.url := by
  obtain ⟨url, hurl, rfl⟩ := Option.map_eq_some_iff.mp h
  exact ⟨rfl, hurl⟩

/-- Only a fetch that has put its file into place gives no reason why there is
none. -/
theorem Ending.eq_saved {ending : Ending} {result : Result} (hresult : ending.result = .ok result)
    (hreason : result.reason? = none) : ending = .saved := by
  unfold Ending.result at hresult
  split at hresult
  case h_1 => rfl
  case h_2 =>
    obtain rfl := Except.ok.inj hresult
    cases hreason
  case h_3 => cases hresult
  case h_4 =>
    obtain rfl := Except.ok.inj hresult
    cases hreason

namespace Traffic

variable {fortune : Fortune}

/-- A step changes the flight of its task. -/
@[simp] theorem flown_flights_self : (traffic.flown errand task fortune).flights task
    = ((traffic.flights task).step errand task fortune traffic.desk).1 :=
  Function.update_self ..

/-- It changes no other. -/
theorem flown_flights_of_ne (hne : other ≠ task) :
    (traffic.flown errand task fortune).flights other = traffic.flights other :=
  Function.update_of_ne hne ..

end Traffic

namespace Course

/-- A course is a run of the slots. -/
theorem run (course : Course jobs limit habits files moves done traffic) :
    Slots.Run jobs limit moves done traffic.slots := by
  induction course with
  | start => exact .start
  | moves _ hmove _ ih => exact ih.next hmove
  | flies _ _ _ _ _ ih => exact ih

-- ============================================================ all courses

/-- The directories stay, and what a flight writes to is a file. -/
theorem grounded (course : Course jobs limit habits files moves done traffic) :
    files.SameDirectories traffic.desk.files
      ∧ ∀ task job, jobs[task]? = some job →
        Flight.Grounded job.path (traffic.flights task) traffic.desk.files := by
  induction course with
  | start =>
      refine ⟨.refl _, fun task job _ trouble response number offset rest hstage => ?_⟩
      cases hstage
  | moves _ _ _ ih => exact ih
  | @flies _ _ traffic task job errand _ _ hjob herrand fortune ih =>
      obtain ⟨hdirs, hgrounded⟩ := ih
      have hgoes := Flight.goes_step errand task fortune (traffic.flights task) traffic.desk
      have hpath := (Job.errand?_path herrand).1
      have hown := hgrounded task job hjob
      rw [← hpath] at hown
      have hsame := hgoes.sameDirectories hown
      refine ⟨hdirs.trans hsame, fun other job' hjob' => ?_⟩
      by_cases hother : other = task
      · subst hother
        obtain rfl := Option.some.inj (hjob'.symm.trans hjob)
        rw [Traffic.flown_flights_self, ← hpath]
        exact hgoes.grounded hown
      · rw [Traffic.flown_flights_of_ne hother]
        exact (hgrounded other job' hjob').congr hsame

/-- The directories stay. -/
theorem sameDirectories (course : Course jobs limit habits files moves done traffic) :
    files.SameDirectories traffic.desk.files := course.grounded.1

/-- The flight of a task that has nothing to fetch does not begin. -/
theorem ready_of_url?_eq_none (course : Course jobs limit habits files moves done traffic)
    (hjob : jobs[task]? = some job) (hurl : job.url? = none) :
    traffic.flights task = .ready := by
  induction course with
  | start => rfl
  | moves _ _ _ ih => exact ih
  | @flies _ _ traffic other job' errand _ _ hjob' herrand fortune ih =>
      have hne : task ≠ other := by
        rintro rfl
        obtain rfl := Option.some.inj (hjob'.symm.trans hjob)
        rw [(Job.errand?_path herrand).2] at hurl
        cases hurl
      rw [Traffic.flown_flights_of_ne hne]
      exact ih

/-- The outcome of a task is what its flight came to. -/
theorem settled (course : Course jobs limit habits files moves done traffic)
    (hjob : jobs[task]? = some job) {url : Text} (hurl : job.url? = some url)
    (hsettled : (task, outcome) ∈ traffic.slots.settled) :
    ∃ ending result, (traffic.flights task).stage = .over ending ∧ ending.result = .ok result
      ∧ outcome = job.outcome result.reason? := by
  induction course with
  | start => cases hsettled
  | @moves _ _ traffic move s course hmove hreports ih =>
      have hstep := course.run.step hmove
      generalize traffic.slots.calls jobs s = new at hstep
      cases hstep with
      | skip _ hjob' hnone =>
          rcases List.mem_cons.mp hsettled with heq | hsettled
          · obtain ⟨rfl, -⟩ := Prod.mk.inj heq
            obtain rfl := Option.some.inj (hjob'.symm.trans hjob)
            rw [hnone] at hurl
            cases hurl
          · exact ih hsettled
      | take | wait => exact ih hsettled
      | takeOff =>
          rw [Slots.wake_settled] at hsettled
          exact ih hsettled
      | land _ hjob' =>
          rw [Slots.wake_settled] at hsettled
          rcases List.mem_cons.mp hsettled with heq | hsettled
          · obtain ⟨rfl, rfl⟩ := Prod.mk.inj heq
            obtain rfl := Option.some.inj (hjob'.symm.trans hjob)
            obtain ⟨ending, hstage, hresult⟩ := hreports _ _ rfl
            exact ⟨ending, _, hstage, hresult, rfl⟩
          · exact ih hsettled
  | @flies _ _ traffic other job' errand _ _ _ _ fortune ih =>
      obtain ⟨ending, result, hstage, hresult, houtcome⟩ := ih hsettled
      refine ⟨ending, result, ?_, hresult, houtcome⟩
      by_cases hother : task = other
      · -- a flight that is over makes no more steps
        subst hother
        rw [Traffic.flown_flights_self]
        generalize traffic.flights task = flight at hstage ⊢
        obtain ⟨met, stage⟩ := flight
        obtain rfl := hstage
        rfl
      · rw [Traffic.flown_flights_of_ne hother]
        exact hstage

end Course

-- ====================================================== flights apart

/-- No two flights are about one place. -/
structure Apart (files : Tree) (jobs : List Job) (place beside : Nat → Place) : Prop where
  spots : ∀ task job, jobs[task]? = some job →
    Spots files job.path (place task) (beside task)
  apart : ∀ task other job job', task ≠ other → jobs[task]? = some job →
    jobs[other]? = some job' → place task ≠ place other ∧ place task ≠ beside other
      ∧ beside task ≠ beside other

namespace Sound

variable {before : Tree} {path : Path} {place beside source : Place} {flight flight' : Flight}
  {desk desk' : Desk}

/-- What is accepted depends on the two places that a flight is about. -/
private theorem accepts_congr (hspots : Spots desk.files path place beside)
    (hdirs : desk.files.SameDirectories desk'.files)
    (hplace : desk'.files.at? place = desk.files.at? place)
    (hbeside : desk'.files.at? beside = desk.files.at? beside)
    (h : Accepts desk'.files path) : Accepts desk.files path := by
  have hopens : Opens desk.files path := h.1.congr hdirs.symm fun part other hpart hfind => by
    rw [hspots.beside_eq part other hpart (hdirs.find_eq_ok.mp hfind), hbeside]
  exact accepts_of_opens hspots hdirs hplace hopens h

/-- A flight stays sound while others leave its two places alone, and leave
the file open that it writes to. -/
theorem frame (h : Sound before path place beside task flight desk)
    (hspots : Spots desk.files path place beside)
    (hdirs : desk.files.SameDirectories desk'.files)
    (hplace : desk'.files.at? place = desk.files.at? place)
    (hbeside : desk'.files.at? beside = desk.files.at? beside)
    (hopened : desk.opened task = some beside → desk.files.at? beside ≠ none →
      desk'.opened task = some beside) :
    Sound before path place beside task flight desk' := by
  have haccepts := accepts_congr hspots hdirs hplace hbeside
  cases h with
  | asking hwanted hspent => exact .asking (hplace.trans hwanted) (hspent.mono haccepts)
  | starting hwanted hspent hsuccess =>
      exact .starting (hplace.trans hwanted) (hspent.mono haccepts) hsuccess
  | writing hwanted hspent hsuccess hstart hwritten hpart hfind hopen hfile hoffset hrest =>
      exact .writing (hplace.trans hwanted) (hspent.mono haccepts) hsuccess hstart hwritten hpart
        (hdirs.find_eq_ok.mpr hfind) (hopened hopen (by simp [hfile])) (hbeside.trans hfile)
        hoffset hrest
  | clearing hwanted hspent => exact .clearing (hplace.trans hwanted) (hspent.mono haccepts)
  | saved hbody hearlier hwanted hat hpart hfind hnone =>
      exact .saved hbody hearlier (hdirs.find_eq_ok.mpr hwanted) (hplace.trans hat) hpart
        (hdirs.find_eq_ok.mpr hfind) (hbeside.trans hnone)
  | failed hwanted hbare =>
      refine .failed (hplace.trans hwanted) fun part other content mode hpart hfind hat => ?_
      have hfind' := hdirs.find_eq_ok.mp hfind
      obtain rfl := hspots.beside_eq part other hpart hfind'
      exact hbare part other content mode hpart hfind' (hbeside.symm.trans hat)
  | crashed hwanted => exact .crashed (hplace.trans hwanted)

end Sound

namespace Course

variable {place beside : Nat → Place}

/-- Flights that are apart are sound all along, and no place changes that
none of those is about for which there is something to fetch. -/
theorem sound (course : Course jobs limit habits files moves done traffic)
    (hapart : Apart files jobs place beside) :
    (∀ task job, jobs[task]? = some job →
        Sound files job.path (place task) (beside task) task (traffic.flights task) traffic.desk)
      ∧ ∀ spot, (∀ task job, jobs[task]? = some job → job.url? ≠ none →
          spot ≠ place task ∧ spot ≠ beside task) →
        traffic.desk.files.at? spot = files.at? spot := by
  induction course with
  | start => exact ⟨fun task job _ => .ready .., fun _ _ => rfl⟩
  | moves _ _ _ ih => exact ih
  | @flies _ _ traffic task job errand course _ hjob herrand fortune ih =>
      obtain ⟨hsound, hframe⟩ := ih
      have hspots : ∀ task job, jobs[task]? = some job →
          Spots traffic.desk.files job.path (place task) (beside task) :=
        fun task job hjob => (hapart.spots task job hjob).congr course.sameDirectories
      have hgoes := Flight.goes_step errand task fortune (traffic.flights task) traffic.desk
      obtain ⟨hpath, hurl⟩ := Job.errand?_path herrand
      have hown := hsound task job hjob
      have hownSpots := hspots task job hjob
      rw [← hpath] at hown hownSpots
      have hdirs := hgoes.sameDirectories hown.grounded
      -- one task makes a step: it keeps itself sound, and the frame keeps the others
      refine ⟨fun other job' hjob' => ?_, fun spot hspot => ?_⟩
      · by_cases hother : other = task
        · subst hother
          obtain rfl := Option.some.inj (hjob'.symm.trans hjob)
          rw [Traffic.flown_flights_self, ← hpath]
          exact hown.goes hownSpots hgoes
        · rw [Traffic.flown_flights_of_ne hother]
          obtain ⟨hplaces, hcross, hbesides⟩ := hapart.apart other task job' job hother hjob' hjob
          obtain ⟨-, hcross', -⟩ := hapart.apart task other job job' (Ne.symm hother) hjob hjob'
          exact (hsound other job' hjob').frame (hspots other job' hjob') hdirs
            (hown.at?_eq hownSpots hgoes hplaces hcross)
            (hown.at?_eq hownSpots hgoes hcross'.symm hbesides)
            (hgoes.opened_eq hownSpots hown.grounded hown.writesTo hother hcross'.symm hbesides)
      · have hfetches : job.url? ≠ none := by
          rw [hurl]
          exact Option.some_ne_none _
        obtain ⟨hplace, hbeside⟩ := hspot task job hjob hfetches
        exact (hown.at?_eq hownSpots hgoes hplace hbeside).trans (hframe spot hspot)

end Course

end FeedSieve.Download
