/-
What fetches leave beside their files.

A flight that is at work has a file beside the wanted one: it writes it, or
is about to clear it away. When it is at rest there is none, or what lay
there before it began, for a flight that breaks off before it has begun a
file clears nothing away either. So flights that are apart leave nothing
behind of their own (`Course.swept`).

They would if something odd broke an attempt off while it is writing, since
then nothing is cleared away. Neither the web nor the file system does that
to an attempt that has a file (`Fortune.Usual`).
-/
import FeedSieve.Proofs.Download.Traffic
import FeedSieve.Proofs.Files.Refused

namespace FeedSieve.Download

open Files (Path Place Tree)
open Http (Response)

variable {before t t' : Tree} {path : Path} {place beside : Place} {errand : Errand}
  {task : Nat} {fortune : Fortune} {flight : Flight} {desk : Desk}

-- ============================================================== odd ends

/-- Whatever breaks an attempt off that has its answer is the fault of the web
or of the file system, so that the attempt fails. -/
structure Fortune.Usual (fortune : Fortune) : Prop where
  body : ∀ response failure, fortune.answer = .ok response → response.broken = some failure →
    ∃ reason, Ending.ofFailure failure = .failed reason
  piece : ∀ number, fortune.trouble.piece number ≠ some .nul
  finish : fortune.trouble.finish ≠ some .nul

/-- What the file system refuses makes an attempt fail. -/
private theorem exists_ofFault {fault : Files.Fault} (h : fault ≠ .nul) :
    ∃ reason, Ending.ofFault fault = .failed reason := by
  cases fault with
  | nul => exact absurd rfl h
  | _ => exact ⟨_, rfl⟩

/-- What has a file is moved, or that is refused. -/
private theorem movePart_ne_nul {trouble : Trouble} {part : Path}
    (h : trouble.finish ≠ some .nul) : movePart trouble part path t ≠ .error .nul := by
  unfold movePart
  cases hfinish : trouble.finish with
  | none => exact Tree.move_ne_nul path
  | some fault =>
      rintro ⟨⟩
      exact h hfinish

/-- Only a path that is none cannot be cleared, and nothing is beside it. -/
private theorem bare_of_clearPart_error {crash : Crash} (h : clearPart path t = .error crash) :
    Bare t path := by
  intro part beside content mode hpart hfind hfile
  unfold clearPart at h
  simp only [hpart, Tree.remove_eq_ok_iff.mpr ⟨beside, content, mode, hfind, hfile, rfl⟩] at h
  cases h

/-- A path that has been cleared is bare. -/
private theorem bare_of_clearPart (h : clearPart path t = .ok t') : Bare t' path := by
  rcases Flight.clearPart_cases h with
    ⟨part, beside, content, mode, hpart, hfind, hfile, rfl⟩ | ⟨hnone, rfl⟩
  · exact bare_clear hpart hfind (Tree.ne_directory_of_file hfile)
  · exact hnone

-- ============================================================== flights

/-- Whether a flight has begun a file that is not in place, or may have. -/
def Flight.isAtWork (flight : Flight) : Bool :=
  match flight.stage with
  | .writing .. | .clearing _ => true
  | _ => false

/-- While a flight is at rest there is no file beside the wanted one, or what
was there before. -/
def Swept (before t : Tree) (path : Path) (beside : Place) (flight : Flight) : Prop :=
  flight.isAtWork = false → Bare t path ∨ t.at? beside = before.at? beside

/-- No file is beside a flight, so none is left. -/
private theorem Swept.of_bare (h : Bare t path) : Swept before t path beside flight :=
  fun _ => Or.inl h

/-- Nothing is said of a flight at work. -/
private theorem swept_of_isAtWork (h : flight.isAtWork = true) :
    Swept before t path beside flight :=
  fun hrest => Bool.noConfusion (h.symm.trans hrest)

/-- A flight is at work after an attempt that failed. -/
private theorem swept_of_failed {met : List Fortune} {ending : Ending} {reason : Text}
    (h : ending = .failed reason) : Swept before t path beside ⟨met, .after ending⟩ := by
  subst h
  exact swept_of_isAtWork rfl

/-- A step meets with something new or it does not. -/
theorem Flight.Goes.met_cases {flight' : Flight} {desk' : Desk}
    (h : Goes errand task fortune flight desk flight' desk') :
    flight'.met = flight.met ∨ flight'.met = fortune :: flight.met := by
  cases h with
  | unanswered | answered => exact Or.inr rfl
  | _ => exact Or.inl rfl

/-- No file is beside when the one there has been moved into place. -/
private theorem bare_of_saved {met : List Fortune}
    (h : Sound before path place beside task ⟨met, .over .saved⟩ desk) :
    Bare desk.files path := by
  cases h with
  | saved _ _ _ _ hpart hfind hnone =>
      intro part other content mode hpart' hfind' hfile
      obtain rfl := Option.some.inj (hpart.symm.trans hpart')
      obtain rfl := Except.ok.inj (hfind.symm.trans hfind')
      rw [hnone] at hfile
      cases hfile

/-- A flight that is writing leaves nothing behind, since it puts its file into
place, or fails and is to clear it away. -/
private theorem swept_of_writing {met : List Fortune} {trouble : Trouble} {response : Response}
    {number offset : Nat} {rest : List Bytes} (hspots : Spots desk.files errand.path place beside)
    (hsound : Sound before errand.path place beside task
      ⟨met, .writing trouble response number offset rest⟩ desk)
    (husual : (⟨.ok response, trouble⟩ : Fortune).Usual) (new : Fortune) :
    let next := Flight.step errand task new ⟨met, .writing trouble response number offset rest⟩ desk
    Swept before next.2.files errand.path beside next.1 := by
  have hnext := hsound.goes hspots (Flight.goes_step errand task new _ desk)
  cases rest with
  | cons piece rest =>
      simp only [Flight.step]
      split
      case h_1 fault hfault =>
        have hnul : fault ≠ .nul := fun h => husual.piece number (hfault.trans (congrArg some h))
        obtain ⟨reason, hreason⟩ := exists_ofFault hnul
        exact swept_of_failed hreason
      case h_2 => exact swept_of_isAtWork rfl
  | nil =>
      simp only [Flight.step] at hnext ⊢
      split
      case h_1 failure hbroken =>
        obtain ⟨reason, hreason⟩ := husual.body response failure rfl hbroken
        exact swept_of_failed hreason
      case h_2 hnone =>
        -- a path that has none beside it is bare
        refine .of_bare fun part _ _ _ hpart => ?_
        rw [hnone] at hpart
        cases hpart
      case h_3 part hbroken hpart =>
        simp only [hbroken, hpart] at hnext
        split
        case h_1 fault hmove =>
          have hnul : fault ≠ .nul := by
            rintro rfl
            exact movePart_ne_nul husual.finish hmove
          obtain ⟨reason, hreason⟩ := exists_ofFault hnul
          exact swept_of_failed hreason
        case h_2 files hmove =>
          simp only [hmove] at hnext
          exact .of_bare (bare_of_saved hnext)

/-- A step of a flight that has met with nothing odd leaves nothing behind. -/
theorem Swept.step (h : Swept before desk.files errand.path beside flight)
    (hspots : Spots desk.files errand.path place beside)
    (hsound : Sound before errand.path place beside task flight desk) (new : Fortune)
    (husual : ∀ fortune ∈ flight.met, fortune.Usual) :
    Swept before (flight.step errand task new desk).2.files errand.path beside
      (flight.step errand task new desk).1 := by
  obtain ⟨met, stage⟩ := flight
  cases stage with
  | asking =>
      have hkept := h rfl
      simp only [Flight.step]
      split
      case h_1 => exact fun _ => hkept
      case h_2 => split <;> exact fun _ => hkept
  | starting trouble response =>
      have hkept := h rfl
      simp only [Flight.step]
      split
      case h_1 => exact fun _ => hkept
      case h_2 =>
        split
        case h_1 => exact fun _ => hkept
        case h_2 => exact swept_of_isAtWork rfl
  | writing trouble response number offset rest =>
      have hlatest : (⟨.ok response, trouble⟩ : Fortune).Usual := by
        cases hsound with
        | writing => exact husual _ List.mem_cons_self
      exact swept_of_writing hspots hsound hlatest new
  | clearing reason =>
      simp only [Flight.step]
      split
      case h_1 crash hcleared => exact .of_bare (bare_of_clearPart_error hcleared)
      case h_2 files hcleared => exact .of_bare (bare_of_clearPart hcleared)
  | _ => exact h

/-- Nothing is left behind either while others leave the place beside alone. -/
theorem Swept.frame (h : Swept before t path beside flight) (hspots : Spots t path place beside)
    (hdirs : t.SameDirectories t') (hbeside : t'.at? beside = t.at? beside) :
    Swept before t' path beside flight := by
  intro hrest
  rcases h hrest with hbare | hkept
  · refine Or.inl fun part other content mode hpart hfind hfile => ?_
    have hfound := hdirs.find_eq_ok.mp hfind
    obtain rfl := hspots.beside_eq part other hpart hfound
    exact hbare part other content mode hpart hfound (hbeside.symm.trans hfile)
  · exact Or.inr (hbeside.trans hkept)

/-- A file that is beside a flight at rest was there before. -/
theorem Swept.read_eq_ok {part : Path} {content : Bytes}
    (h : Swept before t path beside flight) (hrest : flight.isAtWork = false)
    (hspots : Spots before path place beside) (hdirs : before.SameDirectories t)
    (hpart : partPath? path = some part) (hread : t.read part = .ok content) :
    before.read part = .ok content := by
  obtain ⟨other, mode, hfind, hfile⟩ := Tree.read_eq_ok_iff.mp hread
  have hfound := hdirs.find_eq_ok.mp hfind
  obtain rfl := hspots.beside_eq part other hpart hfound
  rcases h hrest with hbare | hkept
  · exact absurd hfile (hbare part other content mode hpart hfind)
  · exact Tree.read_eq_ok_iff.mpr ⟨other, mode, hfound, hkept.symm.trans hfile⟩

-- ============================================================== courses

/-- Flights that are apart, and that meet with nothing odd, leave nothing
behind all along. -/
theorem Course.swept {jobs : List Job} {limit : Nat} {habits : Habits} {files : Tree}
    {moves : List Move} {done : List Call} {traffic : Traffic} {place beside : Nat → Place}
    (course : Course jobs limit habits files moves done traffic)
    (hapart : Apart files jobs place beside) {task : Nat} {job : Job}
    (hjob : jobs[task]? = some job)
    (husual : ∀ fortune ∈ (traffic.flights task).met, fortune.Usual) :
    Swept files traffic.desk.files job.path (beside task) (traffic.flights task) := by
  induction course with
  | start => exact fun _ => Or.inr rfl
  | moves _ _ _ ih => exact ih husual
  | @flies _ _ traffic other job' errand course _ hjob' herrand fortune ih =>
      have hsound := (course.sound hapart).1
      have hspots : ∀ task job, jobs[task]? = some job →
          Spots traffic.desk.files job.path (place task) (beside task) :=
        fun task job hjob => (hapart.spots task job hjob).congr course.sameDirectories
      have hgoes := Flight.goes_step errand other fortune (traffic.flights other) traffic.desk
      have hpath := (Job.errand?_path herrand).1
      have hown := hsound other job' hjob'
      have hownSpots := hspots other job' hjob'
      rw [← hpath] at hown hownSpots
      by_cases hsame : task = other
      · subst hsame
        obtain rfl := Option.some.inj (hjob'.symm.trans hjob)
        rw [Traffic.flown_flights_self] at husual ⊢
        have hearlier : ∀ fortune ∈ (traffic.flights task).met, fortune.Usual := by
          rcases hgoes.met_cases with hmet | hmet
          · rwa [hmet] at husual
          · rw [hmet] at husual
            exact fun earlier hmem => husual earlier (List.mem_cons_of_mem _ hmem)
        have hswept := ih hearlier
        rw [← hpath] at hswept ⊢
        exact hswept.step hownSpots hown fortune hearlier
      · rw [Traffic.flown_flights_of_ne hsame] at husual ⊢
        obtain ⟨-, -, hbesides⟩ := hapart.apart task other job job' hsame hjob hjob'
        obtain ⟨-, hcross, -⟩ := hapart.apart other task job' job (Ne.symm hsame) hjob' hjob
        exact (ih husual).frame (hspots task job hjob) (hgoes.sameDirectories hown.grounded)
          (hown.at?_eq hownSpots hgoes hcross.symm hbesides)

end FeedSieve.Download
