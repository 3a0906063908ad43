/-
Items of one name.

Items of one name are downloaded to one file, by way of one file beside it.
As long as no two of them write there at a time, the last one wins: at every
moment the file is what it was before the run, or the complete body that the
latest download to be saved has met with (`Orderly.collided`). Between the
steps of one download there may be any number of steps of the others; they
may even take the file beside away.

# What goes wrong otherwise

Nothing keeps two of them from writing at a time. Who begins the file beside
empties it, also if another download has written to it, and who is complete
first moves away whatever is there. So the file may be neither
(`Course.mixed`), although the download to it has succeeded.

# The invariant

A flight that writes has the file beside open, and it holds the pieces so
far; or it was taken away, and then it stays away (`Holds`). A step of
another flight to the same file keeps this, since it neither begins a file
nor moves one. That a flight is saved with the body of its latest answer
(`Flight.Faithful.body?_eq`) is a matter of the flight alone.
-/
import FeedSieve.Proofs.Download.Recognised

namespace FeedSieve.Download

open Files (Path Place Tree)
open Http (Response)

variable {jobs : List Job} {items : List Feed.Item} {destination : Path} {limit task other : Nat}
  {access : Tree → Path → Bool}
  {habits : Habits} {files before ready t : Tree} {moves : List Move} {done : List Call}
  {saved : List Nat} {traffic : Traffic} {job : Job} {errand : Errand} {fortune : Fortune}
  {path : Path} {place beside : Place} {flight flight' : Flight} {desk desk' : Desk}

-- ============================================================== flights

namespace Flight

/-- Whether the file is in place. -/
def isSaved (flight : Flight) : Bool :=
  match flight.stage with
  | .over .saved => true
  | _ => false

/-- What is written is the latest answer, piece by piece. -/
def Faithful (flight : Flight) : Prop :=
  match flight.stage with
  | .starting trouble response =>
      flight.met.head? = some ⟨.ok response, trouble⟩ ∧ response.isSuccess = true
  | .writing trouble response number offset rest =>
      flight.met.head? = some ⟨.ok response, trouble⟩ ∧ response.isSuccess = true
        ∧ trouble.start = none ∧ (∀ n < number, trouble.piece n = none)
        ∧ offset = ((pieces response).take number).flatten.length
        ∧ rest = (pieces response).drop number
  | _ => True

/-- After an attempt nothing is written. -/
private theorem faithful_after (met : List Fortune) (ending : Ending) :
    Faithful ⟨met, .after ending⟩ := by
  cases ending <;> trivial

private theorem faithful_again (met : List Fortune) (number : Nat) (reason : Text) :
    Faithful ⟨met, .again errand number reason⟩ := by
  unfold Stage.again
  split
  · trivial
  · split <;> trivial

/-- Every step keeps a flight faithful. -/
theorem Goes.faithful (h : Goes errand task fortune flight desk flight' desk')
    (hfaithful : flight.Faithful) : flight'.Faithful := by
  cases h with
  | answered hanswer hsuccess =>
      obtain ⟨answer, trouble⟩ := fortune
      obtain rfl := hanswer
      exact ⟨rfl, hsuccess⟩
  | begun hstart =>
      obtain ⟨hmet, hsuccess⟩ := hfaithful
      exact ⟨hmet, hsuccess, hstart, fun n hn => absurd hn (Nat.not_lt_zero n), rfl, rfl⟩
  | wrote htrouble =>
      obtain ⟨hmet, hsuccess, hstart, hwritten, hoffset, hrest⟩ := hfaithful
      obtain ⟨-, htake, hrest⟩ := Sound.take_succ_of_drop hrest
      refine ⟨hmet, hsuccess, hstart, fun n hn => ?_, ?_, hrest⟩
      · rcases Nat.lt_or_eq_of_le (Nat.le_of_lt_succ hn) with hlt | rfl
        · exact hwritten n hlt
        · exact htrouble
      · rw [htake, hoffset, List.flatten_append]
        simp
  | unanswered | unbegun | unwritten | unmoved => exact faithful_after ..
  | cleared | clear => exact faithful_again ..
  | moved | uncleared => trivial
  | rest => exact hfaithful

/-- When no piece is left of a complete answer, its pieces are the body. -/
theorem Faithful.body?_eq {met : List Fortune} {trouble : Trouble} {response : Response}
    {number offset : Nat} (h : Faithful ⟨met, .writing trouble response number offset []⟩)
    (hbroken : response.broken = none) (hfinish : trouble.finish = none) :
    ∃ fortune earlier, met = fortune :: earlier
      ∧ fortune.body? = some ((pieces response).take number).flatten := by
  obtain ⟨hmet, hsuccess, hstart, hwritten, -, hrest⟩ := h
  obtain ⟨earlier, hmet⟩ := List.head?_eq_some_iff.mp hmet
  have hall : (pieces response).length ≤ number := List.drop_eq_nil_iff.mp hrest.symm
  refine ⟨_, earlier, hmet, ?_⟩
  rw [List.take_of_length_le hall, flatten_pieces hbroken]
  exact (Fortune.body?_eq_some_iff rfl).mpr ⟨hsuccess, hbroken, hstart,
    fun n hn => hwritten n (Nat.lt_of_lt_of_le hn hall), hfinish, rfl⟩

/-- A file that is written to is the one beside and holds the pieces so far,
or it was taken away. -/
def Holds (beside : Place) (task : Nat) (flight : Flight) (desk : Desk) : Prop :=
  ∀ trouble response number offset rest,
    flight.stage = .writing trouble response number offset rest →
      (desk.opened task = some beside ∧ ∃ mode, desk.files.at? beside
          = some (.file ((pieces response).take number).flatten mode))
        ∨ desk.opened task = none ∧ desk.files.at? beside = none

/-- A flight that does not write holds nothing. -/
theorem holds_of_not_isWriting (h : flight.isWriting = false) : Holds beside task flight desk := by
  intro trouble response number offset rest hstage
  unfold isWriting at h
  rw [hstage] at h
  cases h

/-- What a flight holds is beside. -/
theorem Holds.writesTo (h : Holds beside task flight desk) : WritesTo beside task flight desk := by
  intro source hwriting hopened
  unfold isWriting at hwriting
  split at hwriting
  case h_1 hstage =>
    rcases h _ _ _ _ _ hstage with ⟨hbeside, -⟩ | ⟨hnone, -⟩
    · exact Option.some.inj (hopened.symm.trans hbeside)
    · rw [hnone] at hopened
      cases hopened
  case h_2 => cases hwriting

/-- After an attempt nothing is written. -/
private theorem isWriting_after (met : List Fortune) (ending : Ending) :
    isWriting ⟨met, .after ending⟩ = false := by
  cases ending <;> rfl

private theorem isWriting_again (met : List Fortune) (number : Nat) (reason : Text) :
    isWriting ⟨met, .again errand number reason⟩ = false := by
  unfold Stage.again
  split
  · rfl
  · split <;> rfl

/-- Every step of a flight keeps what it holds. -/
theorem Goes.holds (h : Goes errand task fortune flight desk flight' desk')
    (hspots : Spots desk.files errand.path place beside) (hfaithful : flight.Faithful)
    (hholds : Holds beside task flight desk) : Holds beside task flight' desk' := by
  cases h with
  | @begun _ _ _ _ part goal mode hstart hpart hfind hadmits =>
      obtain rfl := hspots.beside_eq _ _ hpart hfind
      have hdirs := Tree.sameDirectories_set hadmits.1 [] mode
      intro _ _ _ _ _ hstage
      cases hstage
      refine Or.inl ⟨?_, mode, ?_⟩
      · unfold Desk.started
        simp only [if_true, hdirs.find_eq_ok.mpr hfind]
        rfl
      · exact (Tree.at?_set _ _ (Tree.ne_nil_of_at? hadmits.1) _).trans (if_pos rfl)
  | @wrote _ _ _ response number offset piece rest htrouble =>
      obtain ⟨-, -, -, -, hoffset, hrest⟩ := hfaithful
      obtain ⟨-, htake, -⟩ := Sound.take_succ_of_drop hrest
      intro _ _ _ _ _ hstage
      cases hstage
      unfold Desk.written
      rcases hholds _ _ _ _ _ rfl with ⟨hopened, mode, hfile⟩ | ⟨hopened, hnone⟩
      · refine Or.inl ?_
        simp only [hopened, hfile]
        refine ⟨trivial, mode, ?_⟩
        rw [Tree.at?_set _ _ (Tree.ne_nil_of_at? (Tree.ne_directory_of_file hfile)), if_pos rfl,
          hoffset, overwritten_end, htake, List.flatten_append]
        simp
      · exact Or.inr (by simp [hopened, hnone])
  | unanswered | unbegun | unwritten | unmoved =>
      exact holds_of_not_isWriting (isWriting_after ..)
  | cleared | clear => exact holds_of_not_isWriting (isWriting_again ..)
  | answered | moved | uncleared | rest => exact holds_of_not_isWriting rfl

/-- A step of a flight that does not write, not even after it, may take the
file beside away and leaves all else. -/
theorem Goes.cleared_of_not_isWriting (h : Goes errand task fortune flight desk flight' desk')
    (hspots : Spots desk.files errand.path place beside) (hidle : flight.isWriting = false)
    (hidle' : flight'.isWriting = false) :
    desk' = desk ∨ desk' = desk.cleared desk.files
      ∨ desk.files.at? beside ≠ some .directory ∧ desk.files.at? beside ≠ none
        ∧ desk' = desk.cleared (desk.files.clear beside) := by
  cases h with
  | begun => cases hidle'
  | unwritten | wrote | unmoved | moved => cases hidle
  | cleared hpart hfind hfile =>
      obtain rfl := hspots.beside_eq _ _ hpart hfind
      exact Or.inr (Or.inr ⟨by simp [hfile], by simp [hfile], rfl⟩)
  | clear => exact Or.inr (Or.inl rfl)
  | unanswered | answered | unbegun | uncleared | rest => exact Or.inl rfl

/-- It keeps what another flight to the same file holds. -/
theorem Holds.shared {flight₁ : Flight} (hholds : Holds beside other flight₁ desk)
    (h : Goes errand task fortune flight desk flight' desk')
    (hspots : Spots desk.files errand.path place beside) (hidle : flight.isWriting = false)
    (hidle' : flight'.isWriting = false) : Holds beside other flight₁ desk' := by
  intro trouble response number offset rest hstage
  have hheld := hholds trouble response number offset rest hstage
  rcases h.cleared_of_not_isWriting hspots hidle hidle' with rfl | rfl | ⟨hplain, -, rfl⟩
  · exact hheld
  · refine hheld.imp (fun ⟨hopened, mode, hfile⟩ => ⟨?_, mode, hfile⟩)
      fun ⟨hopened, hnone⟩ => ⟨?_, hnone⟩
    · simp [Desk.cleared, hopened, hfile]
    · simp [Desk.cleared, hopened]
  · have hgone : (desk.files.clear beside).at? beside = none := by
      rw [Tree.at?_clear _ (Tree.ne_nil_of_at? hplain), if_pos rfl]
    refine Or.inr ⟨?_, hgone⟩
    rcases hheld with ⟨hopened, -⟩ | ⟨hopened, -⟩
    · simp [Desk.cleared, hopened, hgone]
    · simp [Desk.cleared, hopened]

/-- A file that is nowhere stays so for who has it open. -/
theorem Goes.opened_eq_none (h : Goes errand task fortune flight desk flight' desk')
    (hother : other ≠ task) (hopened : desk.opened other = none) :
    desk'.opened other = none := by
  cases h with
  | begun => exact (if_neg hother).trans hopened
  | @wrote _ _ _ _ _ offset piece _ _ =>
      rw [(written_files desk task offset piece).1]
      exact hopened
  | moved => simp [Desk.moved, hopened]
  | cleared | clear => simp [Desk.cleared, hopened]
  | _ => exact hopened

/-- Every step keeps what a flight to another file holds. -/
theorem Holds.apart {flight₁ : Flight} {beside₁ : Place} (hholds : Holds beside₁ other flight₁ desk)
    (h : Goes errand task fortune flight desk flight' desk')
    (hspots : Spots desk.files errand.path place beside)
    (hgrounded : Grounded errand.path flight desk.files) (hwrites : WritesTo beside task flight desk)
    (hother : other ≠ task) (hplace : beside₁ ≠ place) (hbeside : beside₁ ≠ beside) :
    Holds beside₁ other flight₁ desk' := by
  intro trouble response number offset rest hstage
  have hsame := h.at?_eq hspots hgrounded hwrites hplace hbeside
  rcases hholds trouble response number offset rest hstage with
    ⟨hopened, mode, hfile⟩ | ⟨hopened, hnone⟩
  · exact Or.inl ⟨h.opened_eq hspots hgrounded hwrites hother hplace hbeside hopened
      (by simp [hfile]), mode, hsame.trans hfile⟩
  · exact Or.inr ⟨h.opened_eq_none hother hopened, hsame.trans hnone⟩

/-- A fetch that has not succeeded is not saved. -/
private theorem isSaved_after {ending : Ending} (met : List Fortune) (h : ending ≠ .saved) :
    isSaved ⟨met, .after ending⟩ = false := by
  cases ending with
  | saved => exact absurd rfl h
  | failed | crashed => rfl

private theorem isSaved_again (met : List Fortune) (number : Nat) (reason : Text) :
    isSaved ⟨met, .again errand number reason⟩ = false := by
  unfold Stage.again
  split
  · rfl
  · split <;> rfl

/-- A file that has been put into place stays so. -/
theorem isSaved_step (errand : Errand) (task : Nat) (fortune : Fortune) (flight : Flight)
    (desk : Desk) (h : flight.isSaved = true) :
    (flight.step errand task fortune desk).1.isSaved = true := by
  obtain ⟨met, stage⟩ := flight
  -- only a flight that is over can have saved anything
  cases stage <;> first | exact h | cases h

/-- A step leaves the wanted place alone, or puts the body of the latest answer
there. -/
theorem Goes.wanted (h : Goes errand task fortune flight desk flight' desk')
    (hspots : Spots desk.files errand.path place beside)
    (hgrounded : Grounded errand.path flight desk.files) (hfaithful : flight.Faithful)
    (hholds : Holds beside task flight desk) :
    (flight'.isSaved = flight.isSaved ∧ desk'.files.at? place = desk.files.at? place)
      ∨ flight.isSaved = false ∧ desk.files.find errand.path = .ok place
        ∧ ∃ fortune earlier body mode,
          flight' = ⟨fortune :: earlier, .over .saved⟩ ∧ fortune.body? = some body
            ∧ desk'.files.at? place = some (.file body mode) := by
  cases h with
  | unanswered hending | unbegun hending | unwritten hending | unmoved hending =>
      exact Or.inl ⟨isSaved_after _ hending, rfl⟩
  | answered | uncleared | rest => exact Or.inl ⟨rfl, rfl⟩
  | begun hstart hpart hfind hadmits =>
      obtain rfl := hspots.beside_eq _ _ hpart hfind
      exact Or.inl ⟨rfl, (Tree.at?_set _ _ (Tree.ne_nil_of_at? hadmits.1) _).trans
        (if_neg hspots.ne)⟩
  | @wrote _ _ _ _ _ offset piece _ _ =>
      refine Or.inl ⟨rfl, ?_⟩
      rcases (written_files desk task offset piece).2 with
        hsame | ⟨source, content, mode, hsource, hat, hset⟩
      · rw [hsame]
      · obtain rfl := hholds.writesTo source rfl hsource
        rw [hset, Tree.at?_set _ _ (Tree.ne_nil_of_at? (Tree.ne_directory_of_file hat)),
          if_neg hspots.ne]
  | @moved _ _ _ _ _ _ part source goal node hbroken hfinish hpart hsource hgoal hnode htakes =>
      obtain ⟨wanted, hwanted, -⟩ := find_of_part hpart (hgrounded.of_place hpart hsource).1
      obtain rfl := hspots.place_eq wanted hwanted
      obtain ⟨rfl, rfl, hplain⟩ := hgrounded.places_of_move hspots hpart hsource hgoal
      obtain ⟨other, hother, -, -, hadmits, -⟩ := htakes
      obtain rfl := Except.ok.inj (hother.symm.trans hgoal)
      obtain ⟨fortune, earlier, rfl, hbody⟩ := hfaithful.body?_eq hbroken hfinish
      -- there is a file to be moved, so it is still the one that was written
      rcases hholds _ _ _ _ _ rfl with ⟨-, mode, hfile⟩ | ⟨-, hnone⟩
      · obtain rfl := Option.some.inj (hnode.symm.trans hfile)
        exact Or.inr ⟨rfl, hwanted, fortune, earlier, _, mode, rfl, hbody,
          (Tree.at?_set _ _ (Tree.ne_nil_of_at? hadmits) _).trans (if_pos rfl)⟩
      · rw [hnone] at hnode
        cases hnode
  | cleared hpart hfind hfile =>
      obtain rfl := hspots.beside_eq _ _ hpart hfind
      have hplain := Tree.ne_directory_of_file hfile
      exact Or.inl ⟨isSaved_again ..,
        (Tree.at?_clear _ (Tree.ne_nil_of_at? hplain) _).trans (if_neg hspots.ne)⟩
  | clear => exact Or.inl ⟨isSaved_again .., rfl⟩

end Flight

-- ====================================================== orderly courses

namespace Traffic

/-- No two tasks of one file write at a time. -/
def Alone (jobs : List Job) (traffic : Traffic) : Prop :=
  ∀ task < jobs.length, ∀ other < jobs.length, task ≠ other →
    (jobs[task]?).map (·.path) = (jobs[other]?).map (·.path) →
    (traffic.flights task).isWriting = true → (traffic.flights other).isWriting = false

instance (jobs : List Job) (traffic : Traffic) : Decidable (traffic.Alone jobs) :=
  inferInstanceAs (Decidable (∀ task < jobs.length, ∀ other < jobs.length, task ≠ other →
    (jobs[task]?).map (·.path) = (jobs[other]?).map (·.path) →
    (traffic.flights task).isWriting = true → (traffic.flights other).isWriting = false))

/-- The tasks whose file has been put into place, the latest first, after one
that has made a step. -/
def savedAfter (saved : List Nat) (traffic traffic' : Traffic) (task : Nat) : List Nat :=
  if (traffic.flights task).isSaved = (traffic'.flights task).isSaved then saved
  else task :: saved

end Traffic

/-- A course in which no two tasks of one file ever write at a time, with the
tasks whose file has been put into place, the latest first. -/
inductive Orderly (jobs : List Job) (limit : Nat) (habits : Habits) (files : Tree) :
    List Move → List Call → List Nat → Traffic → Prop where
  | start : Orderly jobs limit habits files [] [] [] (.initial limit jobs.length files)
  | moves {moves : List Move} {done : List Call} {saved : List Nat} {traffic : Traffic}
      {move : Move} {s : Slots} (course : Orderly jobs limit habits files moves done saved traffic)
      (hmove : traffic.slots.move? jobs move = some s) (hreports : move.Reports traffic.flights) :
      Orderly jobs limit habits files (moves ++ [move]) (done ++ traffic.slots.calls jobs s) saved
        { traffic with slots := s }
  | flies {moves : List Move} {done : List Call} {saved : List Nat} {traffic : Traffic}
      {task : Nat} {job : Job} {errand : Errand}
      (course : Orderly jobs limit habits files moves done saved traffic)
      (hflying : task ∈ traffic.slots.flying) (hjob : jobs[task]? = some job)
      (herrand : job.errand? habits = some errand) (fortune : Fortune)
      (halone : (traffic.flown errand task fortune).Alone jobs) :
      Orderly jobs limit habits files moves done
        (Traffic.savedAfter saved traffic (traffic.flown errand task fortune) task)
        (traffic.flown errand task fortune)

/-- The latest of the tasks whose file is at a path. -/
def latest? (jobs : List Job) (saved : List Nat) (path : Path) : Option Nat :=
  saved.find? fun task => (jobs[task]?).map (·.path) = some path

theorem latest?_eq_some {writer : Nat} (h : latest? jobs saved path = some writer) :
    ∃ job, jobs[writer]? = some job ∧ job.path = path := by
  unfold latest? at h
  have hpath := List.find?_some h
  exact Option.map_eq_some_iff.mp (of_decide_eq_true hpath)

/-- Files are shared by the tasks of one path, and by no others. -/
structure Shared (files : Tree) (jobs : List Job) (place beside : Nat → Place) : Prop where
  spots : ∀ task job, jobs[task]? = some job →
    Spots files job.path (place task) (beside task)
  same : ∀ task other job job', jobs[task]? = some job → jobs[other]? = some job' →
    job.path = job'.path → place task = place other ∧ beside task = beside other
  apart : ∀ task other job job', jobs[task]? = some job → jobs[other]? = some job' →
    job.path ≠ job'.path → place task ≠ place other ∧ beside task ≠ beside other
  cross : ∀ task other job job', jobs[task]? = some job → jobs[other]? = some job' →
    place task ≠ beside other

/-- What is at a place after the latest task has saved its file there, if one
has. -/
def Traffic.Shows (before : Tree) (path : Path) (place : Place) (traffic : Traffic) :
    Option Nat → Prop
  | none => traffic.desk.files.at? place = before.at? place
  | some writer => before.find path = .ok place ∧ ∃ fortune earlier body mode,
      traffic.flights writer = ⟨fortune :: earlier, .over .saved⟩ ∧ fortune.body? = some body
        ∧ traffic.desk.files.at? place = some (.file body mode)

/-- A step that leaves the place alone leaves what is shown there. -/
theorem Traffic.Shows.flown {latest : Option Nat} (h : traffic.Shows before path place latest)
    (hat : (traffic.flown errand task fortune).desk.files.at? place
      = traffic.desk.files.at? place) :
    (traffic.flown errand task fortune).Shows before path place latest := by
  cases latest with
  | none => exact hat.trans h
  | some writer =>
      obtain ⟨hfind, latest, earlier, body, mode, hover, hbody, hfile⟩ := h
      refine ⟨hfind, latest, earlier, body, mode, ?_, hbody, hat.trans hfile⟩
      by_cases hwriter : writer = task
      · -- a flight that is over makes no more steps
        subst hwriter
        rw [Traffic.flown_flights_self, hover]
        rfl
      · rw [Traffic.flown_flights_of_ne hwriter]
        exact hover

namespace Orderly

variable {places besides : Nat → Place}

/-- An orderly course is a course. -/
theorem course (orderly : Orderly jobs limit habits files moves done saved traffic) :
    Course jobs limit habits files moves done traffic := by
  induction orderly with
  | start => exact .start
  | moves _ hmove hreports ih => exact ih.moves hmove hreports
  | flies _ hflying hjob herrand fortune _ ih => exact ih.flies hflying hjob herrand fortune

/-- No two tasks of one file write at a time. -/
theorem alone (orderly : Orderly jobs limit habits files moves done saved traffic) :
    traffic.Alone jobs := by
  induction orderly with
  | start => exact fun _ _ _ _ _ _ h => by cases h
  | moves _ _ _ ih => exact ih
  | flies _ _ _ _ _ halone => exact halone

/-- The tasks that are listed are those whose file has been put into place. -/
theorem mem_saved_iff (orderly : Orderly jobs limit habits files moves done saved traffic) :
    task ∈ saved ↔ (traffic.flights task).isSaved = true := by
  induction orderly with
  | start => simp [Traffic.initial, Flight.ready, Flight.isSaved]
  | moves _ _ _ ih => exact ih
  | @flies _ _ saved traffic other job errand _ _ _ _ fortune _ ih =>
      unfold Traffic.savedAfter
      by_cases hother : task = other
      · subst hother
        have hkept := Flight.isSaved_step errand task fortune (traffic.flights task) traffic.desk
        rw [Traffic.flown_flights_self]
        split
        case isTrue hsame => rw [ih, hsame]
        case isFalse hdiffers =>
          have hnot : (traffic.flights task).isSaved = false := by
            by_contra hsaved
            rw [Bool.not_eq_false] at hsaved
            exact hdiffers (hsaved.trans (hkept hsaved).symm)
          rw [hnot] at hdiffers
          simpa using hdiffers
      · rw [Traffic.flown_flights_of_ne hother, ← ih]
        split <;> simp [hother]

/-- All along, what a flight writes to is its file beside or is gone, and a
shared file shows the body of the latest that was saved there. -/
theorem kept (orderly : Orderly jobs limit habits files moves done saved traffic)
    (hshared : Shared files jobs places besides) :
    (∀ task job, jobs[task]? = some job → (traffic.flights task).Faithful
        ∧ Flight.Holds (besides task) task (traffic.flights task) traffic.desk)
      ∧ ∀ task job, jobs[task]? = some job →
        traffic.Shows files job.path (places task) (latest? jobs saved job.path) := by
  induction orderly with
  | start =>
      exact ⟨fun task job _ => ⟨trivial, Flight.holds_of_not_isWriting rfl⟩, fun _ _ _ => rfl⟩
  | moves _ _ _ ih => exact ih
  | @flies _ _ saved traffic task job errand orderly _ hjob herrand fortune halone ih =>
      obtain ⟨hflights, hshows⟩ := ih
      have hgoes := Flight.goes_step errand task fortune (traffic.flights task) traffic.desk
      have hpath := (Job.errand?_path herrand).1
      have hspots := (hshared.spots task job hjob).congr orderly.course.sameDirectories
      have hgrounded := orderly.course.grounded.2 task job hjob
      rw [← hpath] at hspots hgrounded
      obtain ⟨hfaithful, hholds⟩ := hflights task job hjob
      have hlong := (List.getElem?_eq_some_iff.mp hjob).1
      have hself : (traffic.flown errand task fortune).flights task
          = ((traffic.flights task).step errand task fortune traffic.desk).1 :=
        Traffic.flown_flights_self
      refine ⟨fun other job' hjob' => ?_, fun other job' hjob' => ?_⟩
      · by_cases hother : other = task
        · subst hother
          rw [hself]
          exact ⟨hgoes.faithful hfaithful, hgoes.holds hspots hfaithful hholds⟩
        · rw [Traffic.flown_flights_of_ne hother]
          obtain ⟨hfaithful', hholds'⟩ := hflights other job' hjob'
          refine ⟨hfaithful', ?_⟩
          by_cases hone : job'.path = job.path
          · -- who shares the file of one that writes does not write, and does not begin to
            by_cases hwriting : (traffic.flights other).isWriting = true
            · obtain ⟨-, hbeside⟩ := hshared.same other task job' job hjob' hjob hone
              have hlong' := (List.getElem?_eq_some_iff.mp hjob').1
              have hmap : (jobs[other]?).map (·.path) = (jobs[task]?).map (·.path) := by
                rw [hjob', hjob, Option.map_some, Option.map_some, hone]
              have hidle := orderly.alone other hlong' task hlong hother hmap hwriting
              have hidle' := halone other hlong' task hlong hother hmap
                (by rw [Traffic.flown_flights_of_ne hother]; exact hwriting)
              rw [hself] at hidle'
              rw [hbeside] at hholds' ⊢
              exact hholds'.shared hgoes hspots hidle hidle'
            · exact Flight.holds_of_not_isWriting (by simpa using hwriting)
          · obtain ⟨-, hbeside⟩ := hshared.apart other task job' job hjob' hjob hone
            exact hholds'.apart hgoes hspots hgrounded hholds.writesTo hother
              (hshared.cross task other job job' hjob hjob').symm hbeside
      · by_cases hone : job'.path = job.path
        · obtain ⟨hplace, -⟩ := hshared.same other task job' job hjob' hjob hone
          have hbefore := hshows other job' hjob'
          rw [hplace] at hbefore ⊢
          unfold Traffic.savedAfter
          rw [hself]
          rcases hgoes.wanted hspots hgrounded hfaithful hholds with
            ⟨hsame, hat⟩ | ⟨hnot, hfind, latest, earlier, body, mode, hnow, hbody, hfile⟩
          · rw [if_pos hsame.symm]
            exact hbefore.flown hat
          · have hlatest : latest? jobs (task :: saved) job'.path = some task := by
              unfold latest?
              rw [List.find?_cons_of_pos]
              rw [hjob, Option.map_some, hone]
              exact decide_eq_true rfl
            rw [if_neg (by rw [hnot, hnow]; exact Bool.false_ne_true), hlatest]
            rw [hpath, ← hone] at hfind
            exact ⟨orderly.course.sameDirectories.find_eq_ok.mp hfind, latest, earlier, body, mode,
              hself.trans hnow, hbody, hfile⟩
        · obtain ⟨hplace, -⟩ := hshared.apart other task job' job hjob' hjob hone
          have hlatest : latest? jobs (Traffic.savedAfter saved traffic
              (traffic.flown errand task fortune) task) job'.path
              = latest? jobs saved job'.path := by
            unfold Traffic.savedAfter
            split
            case isTrue => rfl
            case isFalse =>
              unfold latest?
              rw [List.find?_cons_of_neg]
              rw [hjob, Option.map_some]
              simpa using Ne.symm hone
          rw [hlatest]
          exact (hshows other job' hjob').flown (hgoes.at?_eq hspots hgrounded hholds.writesTo hplace
            (hshared.cross other task job' job hjob' hjob))

end Orderly

-- ====================================================== given courses

/-- One thing that happens in a course. -/
inductive Event where
  | begins (task : Nat)
  | takesOff (task : Nat)
  | lands (task : Nat)
  | flies (task : Nat) (fortune : Fortune)

/-- A course as far as it has come. -/
structure Followed where
  traffic : Traffic
  /-- The tasks whose file has been put into place, the latest first. -/
  saved : List Nat
  /-- Whether no two tasks of one file have ever written at a time. -/
  alone : Bool

namespace Followed

/-- The course after a move. -/
def moved? (jobs : List Job) (followed : Followed) (move : Move) : Option Followed :=
  (followed.traffic.slots.move? jobs move).map fun s =>
    { followed with traffic := { followed.traffic with slots := s } }

/-- The course after one more event, if it can happen. -/
def next? (jobs : List Job) (habits : Habits) (followed : Followed) : Event → Option Followed
  | .begins task => followed.moved? jobs (.begins task)
  | .takesOff task => followed.moved? jobs (.takesOff task)
  | .lands task =>
      match (followed.traffic.flights task).stage with
      | .over ending =>
          match ending.result with
          | .ok result => followed.moved? jobs (.lands task result)
          | .error _ => none
      | _ => none
  | .flies task fortune =>
      if followed.traffic.slots.flying.contains task then do
        let job ← jobs[task]?
        let errand ← job.errand? habits
        let traffic := followed.traffic.flown errand task fortune
        return ⟨traffic, Traffic.savedAfter followed.saved followed.traffic traffic task,
          followed.alone && decide (traffic.Alone jobs)⟩
      else none

/-- The course that events make up, if they can happen in this order. -/
def follow? (jobs : List Job) (habits : Habits) : Followed → List Event → Option Followed
  | followed, [] => some followed
  | followed, event :: rest =>
      match followed.next? jobs habits event with
      | some next => follow? jobs habits next rest
      | none => none

/-- What is followed is a course, and an orderly one if it looks so. -/
def Sound (jobs : List Job) (limit : Nat) (habits : Habits) (files : Tree) (followed : Followed) :
    Prop :=
  ∃ moves done, Course jobs limit habits files moves done followed.traffic
    ∧ (followed.alone = true →
      Orderly jobs limit habits files moves done followed.saved followed.traffic)

variable {followed followed' : Followed}

private theorem Sound.moved {move : Move} (h : Sound jobs limit habits files followed)
    (hreports : move.Reports followed.traffic.flights)
    (hmoved : followed.moved? jobs move = some followed') :
    Sound jobs limit habits files followed' := by
  obtain ⟨moves, done, course, horderly⟩ := h
  obtain ⟨s, hmove, rfl⟩ := Option.map_eq_some_iff.mp hmoved
  exact ⟨_, _, course.moves hmove hreports, fun halone => (horderly halone).moves hmove hreports⟩

/-- One more event keeps it so. -/
theorem Sound.next {event : Event} (h : Sound jobs limit habits files followed)
    (hnext : followed.next? jobs habits event = some followed') :
    Sound jobs limit habits files followed' := by
  cases event with
  | begins task => exact h.moved (fun _ _ hmove => by cases hmove) hnext
  | takesOff task => exact h.moved (fun _ _ hmove => by cases hmove) hnext
  | lands task =>
      simp only [next?] at hnext
      split at hnext
      case h_1 ending hstage =>
        split at hnext
        case h_1 result hresult =>
          refine h.moved (fun other result' hmove => ?_) hnext
          cases hmove
          exact ⟨ending, hstage, hresult⟩
        case h_2 => cases hnext
      case h_2 => cases hnext
  | flies task fortune =>
      obtain ⟨moves, done, course, horderly⟩ := h
      simp only [next?] at hnext
      split at hnext
      case isTrue hflying =>
        have hflying := List.contains_iff_mem.mp hflying
        obtain ⟨job, hjob, hnext⟩ := Option.bind_eq_some_iff.mp hnext
        obtain ⟨errand, herrand, hnext⟩ := Option.bind_eq_some_iff.mp hnext
        cases hnext
        refine ⟨moves, done, course.flies hflying hjob herrand fortune, fun halone => ?_⟩
        obtain ⟨halone, hlast⟩ := Bool.and_eq_true_iff.mp halone
        exact (horderly halone).flies hflying hjob herrand fortune (of_decide_eq_true hlast)
      case isFalse => cases hnext

/-- What is followed from the beginning is a course. -/
theorem sound_of_follow? {events : List Event}
    (h : follow? jobs habits ⟨.initial limit jobs.length files, [], true⟩ events
      = some followed) : Sound jobs limit habits files followed := by
  have hstart : Sound jobs limit habits files ⟨.initial limit jobs.length files, [], true⟩ :=
    ⟨[], [], .start, fun _ => .start⟩
  generalize (⟨.initial limit jobs.length files, [], true⟩ : Followed) = start at h hstart
  induction events generalizing start with
  | nil => exact Option.some.inj h ▸ hstart
  | cons event rest ih =>
      rw [follow?] at h
      split at h
      case h_1 next hnext => exact ih next h (hstart.next hnext)
      case h_2 => cases h

end Followed

instance (s : Slots) : Decidable s.Over :=
  decidable_of_iff (s.fresh = [] ∧ s.queue = [] ∧ s.woken = [] ∧ s.flying = [])
    ⟨fun ⟨hfresh, hqueue, hwoken, hflying⟩ => ⟨hfresh, hqueue, hwoken, hflying⟩,
      fun h => ⟨h.fresh, h.queue, h.woken, h.flying⟩⟩

/-- Two items of one name. -/
def namesakes : List Feed.Item :=
  [⟨1, "A", [], none, none, none, none, some "http://x/1", some "audio/mpeg", none⟩,
   ⟨2, "A", [], none, none, none, none, some "http://x/2", some "audio/mpeg", none⟩]

/-- Their answers. -/
def firstAnswer : Fortune := ⟨.ok ⟨200, none, [[1, 2, 3]], none⟩, .none⟩

def secondAnswer : Fortune := ⟨.ok ⟨200, none, [[4, 5]], none⟩, .none⟩

/-- Both answers have come before either file is begun. -/
def bothAnswered : List Event :=
  [.begins 0, .begins 1, .flies 0 firstAnswer, .flies 1 secondAnswer]

/-- Without order the file may be a mixture of two complete bodies, although
the download of the first has succeeded. -/
theorem Course.mixed :
    namesakes.map fileName = [.ok "A.mp3", .ok "A.mp3"]
      ∧ shelved.files.read (shelf.child "A.mp3") ≠ .ok [4, 5, 3]
      ∧ ∃ moves done traffic outcome,
        Course (jobsFor shelf namesakes).1 2 hasty shelved.files moves done traffic
          ∧ traffic.slots.Over ∧ traffic.slots.gathered[0]? = some outcome
          ∧ outcome.succeeded = true ∧ outcome.path = shelf.child "A.mp3"
          ∧ (traffic.flights 0).met.map (·.body?) = [some [1, 2, 3]]
          ∧ (traffic.flights 1).met.map (·.body?) = [some [4, 5]]
          ∧ traffic.desk.files.read (shelf.child "A.mp3") = .ok [4, 5, 3] := by
  -- the second begins the file beside, the first empties it and writes, the second writes over
  -- it, and the first moves what is there
  have hfollow : (Followed.follow? (jobsFor shelf namesakes).1 hasty
      ⟨.initial 2 2 shelved.files, [], true⟩ (bothAnswered ++ [.flies 1 secondAnswer,
        .flies 0 firstAnswer, .flies 0 firstAnswer, .flies 1 secondAnswer, .flies 0 firstAnswer,
        .lands 0, .flies 1 secondAnswer, .flies 1 secondAnswer, .lands 1])).any
      (fun followed => decide (followed.traffic.slots.Over
        ∧ (0, ⟨1, "A", shelf.child "A.mp3", none⟩) ∈ followed.traffic.slots.settled
        ∧ (followed.traffic.flights 0).met.map (·.body?) = [some [1, 2, 3]]
        ∧ (followed.traffic.flights 1).met.map (·.body?) = [some [4, 5]]
        ∧ followed.traffic.desk.files.read (shelf.child "A.mp3") = .ok [4, 5, 3])) = true := by
    decide +kernel
  obtain ⟨followed, hfollowed, hshown⟩ := (Option.any_eq_true ..).mp hfollow
  obtain ⟨hover, hsettled, hfirst, hsecond, hread⟩ := of_decide_eq_true hshown
  obtain ⟨moves, done, course, -⟩ :
      Followed.Sound (jobsFor shelf namesakes).1 2 hasty shelved.files followed :=
    Followed.sound_of_follow? hfollowed
  exact ⟨by decide +kernel, by decide +kernel, moves, done, followed.traffic, _, course, hover,
    (hover.gathered_getElem?_iff course.run.kept).mpr hsettled, rfl, rfl, hfirst, hsecond, hread⟩

-- ================================================================ items

/-- The files of items are shared by those of one name. -/
theorem shared_of_clear {directory : Place} (hnamed : Named items) (hclear : Clear items items)
    (hfind : ready.find destination = .ok directory) :
    Shared ready (jobsFor destination items).1
      (entryOf directory (jobsFor destination items).1)
      (entryBeside directory (jobsFor destination items).1) := by
  refine ⟨fun task job hjob => ?_, fun task other job job' hjob hjob' hone => ?_,
    fun task other job job' hjob hjob' hdiffer => ?_, fun task other job job' hjob hjob' => ?_⟩
  all_goals
    obtain ⟨name, hitem, hname, hpath, hentry, hbeside⟩ := entries_of_job hnamed directory hjob
  · rw [hentry, hbeside, hpath]
    exact spots_child hfind (fileName_ne_nil hname) (fileName_ne_back hname)
  all_goals
    obtain ⟨name', hitem', hname', hpath', hentry', hbeside'⟩ :=
      entries_of_job hnamed directory hjob'
  · have hsame : name = name' := by
      have := congrArg Path.name (hpath.symm.trans (hone.trans hpath'))
      rwa [Path.name_child, Path.name_child] at this
    rw [hentry, hentry', hbeside, hbeside', hsame]
    exact ⟨rfl, rfl⟩
  · have hne : name ≠ name' := by
      rintro rfl
      exact hdiffer (hpath.trans hpath'.symm)
    rw [hentry, hentry', hbeside, hbeside']
    simpa using hne
  · rw [hentry, hbeside']
    simpa using hclear _ (List.mem_of_getElem? hitem) _ (List.mem_of_getElem? hitem') name name'
      hname hname'

/-- The file of items of one name is at every moment of an orderly course what
it was before, or the complete body with which the latest of them was saved.
It is such a body if any of them has succeeded. -/
theorem Orderly.collided {item : Feed.Item} {name : Text} (hnamed : Named items)
    (hclear : Clear items items) (hready : prepare access before destination = (ready, none))
    (orderly : Orderly (jobsFor destination items).1 limit habits ready moves done saved traffic)
    (hitem : items[task]? = some item) (hname : fileName item = .ok name) :
    let path := destination.child name
    (match latest? (jobsFor destination items).1 saved path with
      | none => traffic.desk.files.stat path = ready.stat path
      | some writer => ∃ other fortune earlier body, items[writer]? = some other
          ∧ fileName other = .ok name
          ∧ traffic.flights writer = ⟨fortune :: earlier, .over .saved⟩
          ∧ fortune.body? = some body ∧ traffic.desk.files.read path = .ok body)
      ∧ (traffic.slots.Over → ∀ outcome, traffic.slots.gathered[task]? = some outcome →
        outcome.succeeded = true → latest? (jobsFor destination items).1 saved path ≠ none) := by
  intro path
  obtain ⟨-, -, directory, hfind, hat⟩ := prepare_spec hready
  have hpaths := (named_iff items destination).mp hnamed
  have hjob : (jobsFor destination items).1[task]? = some ⟨item, path⟩ :=
    (jobsFor_getElem?_iff hpaths task ⟨item, path⟩).mpr
      ⟨hitem, filePath_eq_ok_iff.mpr ⟨name, hname, rfl⟩⟩
  have hdirs := orderly.course.sameDirectories
  have hfind' := hdirs.find_eq_ok.mpr hfind
  have hat' := (hdirs directory).mpr hat
  have hentry : entryOf directory (jobsFor destination items).1 task = directory ++ [name] := by
    unfold entryOf
    rw [hjob, Option.map_some, Path.name_child, Option.getD_some]
  have hshows := (orderly.kept (shared_of_clear hnamed hclear hfind)).2 task _ hjob
  rw [hentry] at hshows
  refine ⟨?_, fun hover outcome houtcome hsucceeded => ?_⟩
  · cases hlatest : latest? (jobsFor destination items).1 saved path with
    | none =>
        rw [hlatest] at hshows
        exact Tree.stat_child_eq hfind hat hfind' hat' (fileName_ne_back hname) hshows
    | some writer =>
        rw [hlatest] at hshows
        obtain ⟨hwanted, fortune, earlier, body, mode, hstage, hbody, hfile⟩ := hshows
        obtain ⟨job, hwriter, hpath⟩ := latest?_eq_some hlatest
        obtain ⟨name', hother, hname', hpath', -⟩ := entries_of_job hnamed directory hwriter
        have hsame : name' = name := by
          have := congrArg Path.name (hpath'.symm.trans hpath)
          rwa [Path.name_child, Path.name_child] at this
        exact ⟨job.item, fortune, earlier, body, hother, hsame ▸ hname', hstage, hbody,
          Tree.read_eq_ok_iff.mpr ⟨_, mode, hdirs.find_eq_ok.mpr hwanted, hfile⟩⟩
  · -- a task that has succeeded has put its file into place, and is listed
    obtain ⟨job, hjob', hcame⟩ := orderly.course.run.cameAbout hover houtcome
    rcases hcame with ⟨-, rfl⟩ | ⟨url, -, hurl, -⟩
    · cases hsucceeded
    · obtain ⟨ending, result, hstage, hresult, rfl⟩ := orderly.course.settled hjob' hurl
        ((hover.gathered_getElem?_iff orderly.course.run.kept).mp houtcome)
      rw [Ending.eq_saved hresult (Option.isNone_iff_eq_none.mp hsucceeded)] at hstage
      have hlisted : task ∈ saved := by
        rw [orderly.mem_saved_iff, Flight.isSaved, hstage]
      unfold latest?
      rw [Ne, List.find?_eq_none]
      intro hnone
      refine hnone task hlisted ?_
      rw [hjob, Option.map_some]
      exact decide_eq_true rfl

/-- The one that begins the file later wins. -/
theorem collided_namesakes :
    Named namesakes ∧ Clear namesakes namesakes
      ∧ prepare shelved.access shelved.files shelf = (shelved.files, none)
      ∧ namesakes[0]?.map fileName = some (.ok "A.mp3")
      ∧ ∃ moves done saved traffic,
        Orderly (jobsFor shelf namesakes).1 2 hasty shelved.files moves done saved traffic
          ∧ traffic.slots.Over
          ∧ ∃ other fortune earlier body, namesakes[1]? = some other
            ∧ traffic.flights 1 = ⟨fortune :: earlier, .over .saved⟩
            ∧ fortune.body? = some body
            ∧ traffic.desk.files.read (shelf.child "A.mp3") = .ok body := by
  have hname : ∀ item ∈ namesakes, fileName item = .ok "A.mp3" := by decide +kernel
  have hnamed : Named namesakes := fun item hitem => ⟨_, hname item hitem⟩
  have hclear : Clear namesakes namesakes := by
    intro item hitem other hother name name' h h'
    obtain rfl := Except.ok.inj ((hname item hitem).symm.trans h)
    obtain rfl := Except.ok.inj ((hname other hother).symm.trans h')
    decide
  have hready : prepare shelved.access shelved.files shelf = (shelved.files, none) := by decide +kernel
  have hfollow : (Followed.follow? (jobsFor shelf namesakes).1 hasty
      ⟨.initial 2 2 shelved.files, [], true⟩ (bothAnswered ++ [.flies 0 firstAnswer,
        .flies 0 firstAnswer, .flies 0 firstAnswer, .flies 1 secondAnswer, .lands 0,
        .flies 1 secondAnswer, .flies 1 secondAnswer, .lands 1])).any
      (fun followed => decide (followed.traffic.slots.Over ∧ followed.saved = [1, 0]
        ∧ followed.alone = true)) = true := by
    decide +kernel
  obtain ⟨followed, hfollowed, hshown⟩ := (Option.any_eq_true ..).mp hfollow
  obtain ⟨hover, hsaved, halone⟩ := of_decide_eq_true hshown
  obtain ⟨moves, done, -, horderly⟩ :
      Followed.Sound (jobsFor shelf namesakes).1 2 hasty shelved.files followed :=
    Followed.sound_of_follow? hfollowed
  obtain ⟨item, hitem⟩ : ∃ item, namesakes[0]? = some item := ⟨_, rfl⟩
  have hshows := (Orderly.collided hnamed hclear hready (horderly halone) hitem
    (hname item (List.mem_of_getElem? hitem))).1
  have hlatest : latest? (jobsFor shelf namesakes).1 followed.saved (shelf.child "A.mp3")
      = some 1 := by
    rw [hsaved]
    decide +kernel
  rw [hlatest] at hshows
  obtain ⟨other, fortune, earlier, body, hother, -, hflight, hbody, hread⟩ := hshows
  exact ⟨hnamed, hclear, hready, by decide +kernel, moves, done, followed.saved, followed.traffic,
    horderly halone, hover, other, fortune, earlier, body, hother,
    hflight, hbody, hread⟩

end FeedSieve.Download
