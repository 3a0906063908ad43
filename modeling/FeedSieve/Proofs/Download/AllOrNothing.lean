/-
A fetch is all or nothing.

Whatever the web answers and whatever the file system refuses, a fetch that
says it is saved has put the complete body of the first attempt that came to
one at the wanted path, and nothing is beside it. A fetch that says it
failed has left the wanted path as it was, and no file is beside it. Nothing
else has changed in either case (`fetchThrough_all_or_nothing`).

# The invariant

`Sound` says of every stage of a flight what is at the two places that it is
about. Until the fetch is saved the wanted place holds what it held at the
beginning. While pieces are written the file beside is open and holds the
pieces so far, so that it holds the body when none is left. Every step keeps
this (`Sound.goes`), and changes no other place (`Sound.at?_eq`).

That the attempt that is saved is the *first* one with a body is the reason
for `Spent`. An earlier attempt with a body would have been refused by the
files, and what they refuse once they refuse for the rest of the fetch: its
own steps make no place more welcoming than it was.
-/
import FeedSieve.Proofs.Download.Flight

namespace FeedSieve.Download

open Files (Path Place Tree)
open Http (Response)

variable {before t t' : Tree} {path part : Path} {place beside other : Place}
  {errand : Errand} {task : Nat} {fortune : Fortune} {met earlier : List Fortune}
  {flight flight' : Flight} {desk desk' : Desk} {response : Response} {trouble : Trouble}
  {body : Bytes}

-- ============================================================= bodies

/-- An attempt comes to a body if its answer is complete and good and nothing
is refused. -/
theorem Fortune.body?_eq_some_iff (hanswer : fortune.answer = .ok response) :
    fortune.body? = some body ↔ response.isSuccess = true ∧ response.broken = none
      ∧ fortune.trouble.start = none
      ∧ (∀ number < (pieces response).length, fortune.trouble.piece number = none)
      ∧ fortune.trouble.finish = none ∧ body = response.chunks.flatten := by
  unfold Fortune.body?
  rw [hanswer]
  simp only [Bool.and_eq_true, Option.isNone_iff_eq_none, List.all_eq_true, List.mem_range,
    Option.ite_none_right_eq_some, Option.some.injEq]
  constructor
  · rintro ⟨⟨⟨⟨⟨hsuccess, hbroken⟩, hstart⟩, hwritten⟩, hfinish⟩, rfl⟩
    exact ⟨hsuccess, hbroken, hstart, hwritten, hfinish, rfl⟩
  · rintro ⟨hsuccess, hbroken, hstart, hwritten, hfinish, rfl⟩
    exact ⟨⟨⟨⟨⟨hsuccess, hbroken⟩, hstart⟩, hwritten⟩, hfinish⟩, rfl⟩

-- ============================================================= places

/-- The places of a file and of the one beside it, as far as they have any. -/
structure Spots (t : Tree) (path : Path) (place beside : Place) : Prop where
  place_eq : ∀ other, t.find path = .ok other → other = place
  beside_eq : ∀ part other, partPath? path = some part → t.find part = .ok other →
    other = beside
  ne : place ≠ beside

/-- Every path has such places, and they can be told from any place that the
paths do not lead to. -/
theorem exists_spots (t : Tree) (path : Path) (other : Place) :
    ∃ place beside, Spots t path place beside
      ∧ (t.find path ≠ .ok other → place ≠ other)
      ∧ ((∀ part, partPath? path = some part → t.find part ≠ .ok other) → beside ≠ other) := by
  by_cases hpart : ∃ part beside, partPath? path = some part ∧ t.find part = .ok beside
  · obtain ⟨part, beside, hpart, hfind⟩ := hpart
    obtain ⟨place, hwanted, hne⟩ := find_of_part hpart hfind
    refine ⟨place, beside, ⟨fun q hq => ?_, fun part' q hpart' hq => ?_, hne⟩, ?_, ?_⟩
    · exact Except.ok.inj (hq.symm.trans hwanted)
    · obtain rfl := Option.some.inj (hpart'.symm.trans hpart)
      exact Except.ok.inj (hq.symm.trans hfind)
    · rintro hnot rfl
      exact hnot hwanted
    · rintro hnot rfl
      exact hnot part hpart hfind
  -- what is nowhere may be anywhere, if only it is long enough
  · have hnowhere : ∀ part q, partPath? path = some part → t.find part ≠ .ok q :=
      fun part q h h' => hpart ⟨part, q, h, h'⟩
    have hlonger : ∀ (place : Place) (names : List Text), place ++ names ++ [[]] ≠ place := by
      intro place names h
      have := congrArg List.length h
      simp at this
    have hlonger' : ∀ (place : Place) (names : List Text), names ++ place ++ [[]] ≠ place := by
      intro place names h
      have := congrArg List.length h
      simp at this
      omega
    cases hwanted : t.find path with
    | ok place =>
        refine ⟨place, other ++ place ++ [[]], ⟨fun q hq => ?_,
          fun part q h h' => absurd h' (hnowhere part q h), (hlonger' _ _).symm⟩, ?_,
          fun _ => hlonger _ _⟩
        · exact (Except.ok.inj (hwanted.symm.trans hq)).symm
        · rintro hnot rfl
          exact hnot rfl
    | error fault =>
        refine ⟨other ++ [] ++ [[]], other ++ [[]] ++ [[]], ⟨fun q hq => ?_,
          fun part q h h' => absurd h' (hnowhere part q h), ?_⟩, fun _ => hlonger _ _,
          fun _ => hlonger _ _⟩
        · rw [hwanted] at hq
          cases hq
        · rw [List.append_nil]
          exact fun h => hlonger _ [] (by rw [List.append_nil]; exact h.symm)

/-- The places stay while the directories do. -/
theorem Spots.congr (h : Spots t path place beside) (hdirs : t.SameDirectories t') :
    Spots t' path place beside :=
  ⟨fun other hother => h.place_eq other (hdirs.find_eq_ok.mp hother),
    fun part other hpart hother => h.beside_eq part other hpart (hdirs.find_eq_ok.mp hother), h.ne⟩

-- ========================================================= two places

namespace Flight

/-- Whether pieces are being written. -/
def isWriting (flight : Flight) : Bool :=
  match flight.stage with
  | .writing .. => true
  | _ => false

/-- The file that a flight writes to, if it is anywhere, is the one beside. -/
def WritesTo (beside : Place) (task : Nat) (flight : Flight) (desk : Desk) : Prop :=
  ∀ source, flight.isWriting = true → desk.opened task = some source → source = beside

/-- The file that a flight moves is the one beside, and goes to the wanted
place. -/
theorem Grounded.places_of_move {source goal : Place} {number offset : Nat} {rest : List Bytes}
    (hspots : Spots t path place beside)
    (h : Grounded path ⟨met, .writing trouble response number offset rest⟩ t)
    (hpart : partPath? path = some part) (hsource : t.place part = .ok source)
    (hgoal : t.place path = .ok goal) :
    source = beside ∧ goal = place ∧ t.at? beside ≠ some .directory := by
  obtain ⟨hfind, hplain⟩ := h.of_place hpart hsource
  obtain ⟨other, hother, -⟩ := find_of_part hpart hfind
  obtain rfl := Except.ok.inj (hgoal.symm.trans (Tree.find_eq_ok_iff.mp hother).2)
  obtain rfl := hspots.beside_eq part source hpart hfind
  exact ⟨rfl, hspots.place_eq goal hother, hplain⟩

/-- A step changes no other place. -/
theorem Goes.at?_eq (h : Goes errand task fortune flight desk flight' desk')
    (hspots : Spots desk.files errand.path place beside)
    (hgrounded : Grounded errand.path flight desk.files) (hwrites : WritesTo beside task flight desk)
    (hplace : other ≠ place) (hbeside : other ≠ beside) :
    desk'.files.at? other = desk.files.at? other := by
  cases h with
  | begun hstart hpart hfind hadmits =>
      obtain rfl := hspots.beside_eq _ _ hpart hfind
      exact (Tree.at?_set _ _ (Tree.ne_nil_of_at? hadmits.1) other).trans (if_neg hbeside)
  | @wrote _ _ _ _ _ offset piece _ _ =>
      rcases (written_files desk task offset piece).2 with
        hsame | ⟨source, content, mode, hsource, hat, hset⟩
      · rw [hsame]
      · obtain rfl := hwrites source rfl hsource
        rw [hset, Tree.at?_set _ _ (Tree.ne_nil_of_at? (Tree.ne_directory_of_file hat)),
          if_neg hbeside]
  | moved hbroken hfinish hpart hsource hgoal hnode htakes =>
      obtain ⟨rfl, rfl, hplain⟩ := hgrounded.places_of_move hspots hpart hsource hgoal
      obtain ⟨goal, hgoal', -, -, hadmits, -⟩ := htakes
      obtain rfl := Except.ok.inj (hgoal'.symm.trans hgoal)
      show ((desk.files.clear _).set goal _).at? other = _
      rw [Tree.at?_set _ _ (Tree.ne_nil_of_at? hadmits), if_neg hplace,
        Tree.at?_clear _ (Tree.ne_nil_of_at? hplain), if_neg hbeside]
  | cleared hpart hfind hfile =>
      obtain rfl := hspots.beside_eq _ _ hpart hfind
      have hplain := Tree.ne_directory_of_file hfile
      exact (Tree.at?_clear _ (Tree.ne_nil_of_at? hplain) other).trans (if_neg hbeside)
  | _ => rfl

/-- A file that another task has open stays open, if the flight is not about
it. -/
theorem Goes.opened_eq {task' : Nat} {source : Place}
    (h : Goes errand task fortune flight desk flight' desk')
    (hspots : Spots desk.files errand.path place beside)
    (hgrounded : Grounded errand.path flight desk.files) (hwrites : WritesTo beside task flight desk)
    (hother : task' ≠ task) (hplace : source ≠ place) (hbeside : source ≠ beside)
    (hopened : desk.opened task' = some source) (hthere : desk.files.at? source ≠ none) :
    desk'.opened task' = some source := by
  have hstays : ∀ files : Tree, files.at? source = desk.files.at? source →
      (desk.cleared files).opened task' = some source := by
    intro files hsame
    obtain ⟨node, hnode⟩ := Option.ne_none_iff_exists'.mp hthere
    unfold Desk.cleared
    simp only [hopened, Option.filter_some, hsame, hnode, Option.isSome_some, if_true]
  have hsame := h.at?_eq hspots hgrounded hwrites hplace hbeside
  cases h with
  | begun => exact (if_neg hother).trans hopened
  | @wrote _ _ _ _ _ offset piece _ _ =>
      rw [(written_files desk task offset piece).1]
      exact hopened
  | @moved _ _ _ _ _ _ part moving goal _ _ _ hpart hsource hgoal _ _ =>
      -- the file that is moved is not the other's, nor is the one that gives way
      obtain ⟨rfl, rfl, -⟩ := hgrounded.places_of_move hspots hpart hsource hgoal
      unfold Desk.moved
      simp only [hopened, hsource, hgoal, Except.toOption, Option.bind_some, Option.some.injEq]
      rw [if_neg hbeside.symm, if_neg hplace.symm]
  | cleared => exact hstays _ hsame
  | clear => exact hstays _ rfl
  | _ => exact hopened

end Flight

-- =========================================================== refusing

/-- The files refuse neither the beginning nor the end of an attempt. -/
def Accepts (t : Tree) (path : Path) : Prop := Opens t path ∧ Takes t path

/-- Whether the end is refused depends on the wanted place alone. -/
theorem Takes.congr (h : Takes t path) (hdirs : t.SameDirectories t')
    (hplace : ∀ place, t.place path = .ok place → t'.at? place = t.at? place) :
    Takes t' path := by
  obtain ⟨place, hwanted, hparts, hname, hplain, hparent⟩ := h
  refine ⟨place, hdirs.place_eq_ok.mpr hwanted, hparts, hname, ?_, fun hnone => ?_⟩
  · rw [hplace place hwanted]
    exact hplain
  · rw [hplace place hwanted] at hnone
    exact (hdirs _).mpr (hparent hnone)

/-- Whether the beginning is refused depends on the place beside. -/
theorem Opens.congr (h : Opens t path) (hdirs : t.SameDirectories t')
    (hbeside : ∀ part beside, partPath? path = some part → t.find part = .ok beside →
      t'.at? beside = t.at? beside) :
    Opens t' path := by
  obtain ⟨part, beside, hpart, hfind, hplain, hparent⟩ := h
  refine ⟨part, beside, hpart, hdirs.find_eq_ok.mpr hfind, ?_, fun hnone => ?_⟩
  · rw [hbeside part beside hpart hfind]
    exact hplain
  · rw [hbeside part beside hpart hfind] at hnone
    exact (hdirs _).mpr (hparent hnone)

/-- A file beside can be begun anew. -/
theorem Opens.of_file {content : Bytes} {mode : Nat} (hpart : partPath? path = some part)
    (hfind : t.find part = .ok beside) (hfile : t.at? beside = some (.file content mode)) :
    Opens t path := by
  refine ⟨part, beside, hpart, hfind, ?_, fun hnone => ?_⟩
  · simp [hfile]
  · rw [hfile] at hnone
    cases hnone

/-- Where the file beside can be begun, the path leads to the wanted place. -/
theorem Opens.find_eq (h : Opens t path) (hplace : t.place path = .ok place) :
    t.find path = .ok place := by
  obtain ⟨part, beside, hpart, hfind, -⟩ := h
  obtain ⟨other, hother, -⟩ := find_of_part hpart hfind
  have hsame := (Tree.find_eq_ok_iff.mp hother).2
  rw [Except.ok.inj (hplace.symm.trans hsame)]
  exact hother

/-- Attempts that came to a body have been in vain: the files refuse them. -/
def Spent (met : List Fortune) (t : Tree) (path : Path) : Prop :=
  ∀ fortune ∈ met, fortune.body? ≠ none → ¬ Accepts t path

/-- What is in vain stays in vain where no more is accepted. -/
theorem Spent.mono (h : Spent met t path) (haccepts : Accepts t' path → Accepts t path) :
    Spent met t' path :=
  fun fortune hmem hbody hnow => h fortune hmem hbody (haccepts hnow)

/-- One more attempt has been in vain. -/
theorem Spent.cons (h : Spent earlier t path) (hfortune : fortune.body? ≠ none → ¬ Accepts t path) :
    Spent (fortune :: earlier) t path := by
  intro other hother
  rcases List.mem_cons.mp hother with rfl | hother
  · exact hfortune
  · exact h other hother

/-- Where all is accepted no attempt so far has come to a body. -/
theorem Spent.body?_eq_none (h : Spent met t path) (haccepts : Accepts t path) :
    ∀ fortune ∈ met, fortune.body? = none := by
  intro fortune hmem
  by_contra hbody
  exact h fortune hmem hbody haccepts

/-- A step that leaves the wanted place alone, and begins with a file that can
be begun beside it, makes nothing more acceptable. -/
theorem accepts_of_opens (hspots : Spots t path place beside) (hdirs : t.SameDirectories t')
    (hplace : t'.at? place = t.at? place) (hopens : Opens t path) (h : Accepts t' path) :
    Accepts t path := by
  refine ⟨hopens, h.2.congr hdirs.symm fun other hother => ?_⟩
  have hfind := hopens.find_eq (hdirs.place_eq_ok.mp hother)
  rw [hspots.place_eq other hfind, hplace]

-- ============================================================ the invariant

/-- No file is beside. -/
def Bare (t : Tree) (path : Path) : Prop :=
  ∀ part beside content mode, partPath? path = some part → t.find part = .ok beside →
    t.at? beside ≠ some (.file content mode)

/-- No file is beside when it has been taken away. -/
theorem bare_clear (hpart : partPath? path = some part) (hfind : t.find part = .ok beside)
    (hplain : t.at? beside ≠ some .directory) : Bare (t.clear beside) path := by
  intro part' other content mode hpart' hfind' hat
  obtain rfl := Option.some.inj (hpart.symm.trans hpart')
  have hfound := (Tree.sameDirectories_clear hplain).find_eq_ok.mp hfind'
  obtain rfl := Except.ok.inj (hfind.symm.trans hfound)
  rw [Tree.at?_clear _ (Tree.ne_nil_of_at? hplain), if_pos rfl] at hat
  cases hat

/-- What is at the wanted place and at the one beside it, at every stage of a
flight that began with the files as they were before. -/
inductive Sound (before : Tree) (path : Path) (place beside : Place) (task : Nat) :
    Flight → Desk → Prop where
  | asking {met : List Fortune} {desk : Desk}
      (hplace : desk.files.at? place = before.at? place) (hspent : Spent met desk.files path) :
      Sound before path place beside task ⟨met, .asking⟩ desk
  | starting {earlier : List Fortune} {desk : Desk} {trouble : Trouble} {response : Response}
      (hplace : desk.files.at? place = before.at? place)
      (hspent : Spent earlier desk.files path) (hsuccess : response.isSuccess = true) :
      Sound before path place beside task
        ⟨⟨.ok response, trouble⟩ :: earlier, .starting trouble response⟩ desk
  | writing {earlier : List Fortune} {desk : Desk} {trouble : Trouble} {response : Response}
      {part : Path} {number offset mode : Nat} {rest : List Bytes}
      (hplace : desk.files.at? place = before.at? place)
      (hspent : Spent earlier desk.files path) (hsuccess : response.isSuccess = true)
      (hstart : trouble.start = none) (htrouble : ∀ n < number, trouble.piece n = none)
      (hpart : partPath? path = some part) (hfind : desk.files.find part = .ok beside)
      (hopened : desk.opened task = some beside)
      (hfile : desk.files.at? beside
        = some (.file ((pieces response).take number).flatten mode))
      (hoffset : offset = ((pieces response).take number).flatten.length)
      (hrest : rest = (pieces response).drop number) :
      Sound before path place beside task
        ⟨⟨.ok response, trouble⟩ :: earlier, .writing trouble response number offset rest⟩ desk
  | clearing {met : List Fortune} {desk : Desk} {reason : Text}
      (hplace : desk.files.at? place = before.at? place) (hspent : Spent met desk.files path) :
      Sound before path place beside task ⟨met, .clearing reason⟩ desk
  | saved {fortune : Fortune} {earlier : List Fortune} {desk : Desk} {body : Bytes} {part : Path}
      {mode : Nat} (hbody : fortune.body? = some body)
      (hearlier : ∀ fortune ∈ earlier, fortune.body? = none)
      (hwanted : desk.files.find path = .ok place)
      (hplace : desk.files.at? place = some (.file body mode))
      (hpart : partPath? path = some part) (hfind : desk.files.find part = .ok beside)
      (hbeside : desk.files.at? beside = none) :
      Sound before path place beside task ⟨fortune :: earlier, .over .saved⟩ desk
  | failed {met : List Fortune} {desk : Desk} {reason : Text}
      (hplace : desk.files.at? place = before.at? place) (hbare : Bare desk.files path) :
      Sound before path place beside task ⟨met, .over (.failed reason)⟩ desk
  | crashed {met : List Fortune} {desk : Desk} {crash : Crash}
      (hplace : desk.files.at? place = before.at? place) :
      Sound before path place beside task ⟨met, .over (.crashed crash)⟩ desk

namespace Sound

/-- A flight that has not begun is sound. -/
theorem ready (before : Tree) (path : Path) (place beside : Place) (task : Nat)
    (opened : Nat → Option Place) :
    Sound before path place beside task .ready ⟨before, opened⟩ :=
  .asking rfl fun _ hmem => absurd hmem List.not_mem_nil

/-- An attempt that ended badly, and left the wanted place alone, is sound. -/
private theorem after {ending : Ending} (hending : ending ≠ .saved)
    (hplace : desk.files.at? place = before.at? place) (hspent : Spent met desk.files path) :
    Sound before path place beside task ⟨met, .after ending⟩ desk := by
  cases ending with
  | saved => exact absurd rfl hending
  | failed reason => exact .clearing hplace hspent
  | crashed crash => exact .crashed hplace

/-- So is what follows when the file beside is cleared away. -/
private theorem again (number : Nat) (reason : Text)
    (hplace : desk.files.at? place = before.at? place) (hspent : Spent met desk.files path)
    (hbare : Bare desk.files path) :
    Sound before path place beside task ⟨met, .again errand number reason⟩ desk := by
  unfold Stage.again
  split
  · exact .failed hplace hbare
  · split
    · exact .crashed hplace
    · exact .asking hplace hspent

/-- What a sound flight writes to is a file. -/
theorem grounded (h : Sound before path place beside task flight desk) :
    Flight.Grounded path flight desk.files := by
  intro trouble response number offset rest hstage
  cases h with
  | writing _ _ _ _ _ hpart hfind _ hfile _ _ =>
      exact ⟨_, _, hpart, hfind, Tree.ne_directory_of_file hfile⟩
  | _ => cases hstage

/-- A file is begun beside the wanted one. -/
private theorem begun {mode : Nat} (hspots : Spots desk.files path place beside)
    (h : Sound before path place beside task
      ⟨fortune :: earlier, .starting trouble response⟩ desk)
    (hstart : trouble.start = none) (hpart : partPath? path = some part)
    (hfind : desk.files.find part = .ok beside) (hadmits : desk.files.Admits beside) :
    Sound before path place beside task
      ⟨fortune :: earlier, .writing trouble response 0 0 (pieces response)⟩
      (desk.started task part (desk.files.set beside (.file [] mode))) := by
  have hdirs := Tree.sameDirectories_set hadmits.1 [] mode
  have hset := Tree.at?_set desk.files (.file [] mode) (Tree.ne_nil_of_at? hadmits.1)
  have hsame := hset place
  rw [if_neg hspots.ne] at hsame
  have hfile := hset beside
  rw [if_pos rfl] at hfile
  have hfind' := hdirs.find_eq_ok.mpr hfind
  have hopened : (desk.started task part (desk.files.set beside (.file [] mode))).opened task
      = some beside := by
    unfold Desk.started
    simp only [if_true, hfind']
    rfl
  cases h with
  | starting hplace hspent hsuccess =>
      exact .writing (hsame.trans hplace)
        (hspent.mono (accepts_of_opens hspots hdirs hsame ⟨part, beside, hpart, hfind, hadmits⟩))
        hsuccess hstart (fun n hn => absurd hn (Nat.not_lt_zero n)) hpart hfind' hopened hfile
        rfl rfl

/-- The pieces so far and the next one are the pieces so far. -/
theorem take_succ_of_drop {pieces rest : List Bytes} {piece : Bytes} {number : Nat}
    (h : piece :: rest = pieces.drop number) :
    number < pieces.length ∧ pieces.take (number + 1) = pieces.take number ++ [piece]
      ∧ rest = pieces.drop (number + 1) := by
  have hpiece : pieces[number]? = some piece := by
    rw [← List.head?_drop, ← h]
    rfl
  refine ⟨(List.getElem?_eq_some_iff.mp hpiece).1, ?_, ?_⟩
  · rw [List.take_add_one, hpiece]
    rfl
  · rw [← List.tail_drop, ← h]
    rfl

/-- A piece is written behind those that are. -/
private theorem wrote {number offset : Nat} {piece : Bytes} {rest : List Bytes}
    (hspots : Spots desk.files path place beside)
    (h : Sound before path place beside task
      ⟨met, .writing trouble response number offset (piece :: rest)⟩ desk)
    (htrouble : trouble.piece number = none) :
    Sound before path place beside task
      ⟨met, .writing trouble response (number + 1) (offset + piece.length) rest⟩
      (desk.written task offset piece) := by
  cases h with
  | @writing earlier _ _ _ part _ _ mode _ hplace hspent hsuccess hstart hwritten hpart hfind
      hopened hfile hoffset hrest =>
      obtain ⟨-, htake, hrest⟩ := take_succ_of_drop hrest
      have hplain := Tree.ne_directory_of_file hfile
      have hcontent : Tree.overwritten ((pieces response).take number).flatten offset piece
          = ((pieces response).take (number + 1)).flatten := by
        rw [hoffset, overwritten_end, htake, List.flatten_append]
        simp
      have hdirs := Tree.sameDirectories_set hplain
        ((pieces response).take (number + 1)).flatten mode
      have hset := Tree.at?_set desk.files
        (.file ((pieces response).take (number + 1)).flatten mode) (Tree.ne_nil_of_at? hplain)
      have hdesk : desk.written task offset piece
          = ⟨desk.files.set beside (.file ((pieces response).take (number + 1)).flatten mode),
            desk.opened⟩ := by
        unfold Desk.written
        simp only [hopened, hfile, hcontent]
      have hsame := hset place
      rw [if_neg hspots.ne] at hsame
      have hfile' := hset beside
      rw [if_pos rfl] at hfile'
      rw [hdesk]
      refine .writing (hsame.trans hplace)
        (hspent.mono (accepts_of_opens hspots hdirs hsame (.of_file hpart hfind hfile)))
        hsuccess hstart (fun n hn => ?_) hpart (hdirs.find_eq_ok.mpr hfind) hopened hfile' ?_ hrest
      · rcases Nat.lt_or_eq_of_le (Nat.le_of_lt_succ hn) with hlt | rfl
        · exact hwritten n hlt
        · exact htrouble
      · rw [htake, hoffset, List.flatten_append]
        simp

/-- The file beside is moved into place. -/
private theorem moved {number offset : Nat} {source goal : Place} {node : Files.Node}
    (hspots : Spots desk.files path place beside)
    (h : Sound before path place beside task
      ⟨met, .writing trouble response number offset []⟩ desk)
    (hbroken : response.broken = none) (hfinish : trouble.finish = none)
    (hpart : partPath? path = some part) (hsource : desk.files.place part = .ok source)
    (hgoal : desk.files.place path = .ok goal) (hnode : desk.files.at? source = some node)
    (htakes : Takes desk.files path) :
    Sound before path place beside task ⟨met, .over .saved⟩
      (desk.moved part path ((desk.files.clear source).set goal node)) := by
  cases h with
  | @writing earlier _ _ _ _ _ _ mode _ hplace hspent hsuccess hstart hwritten hpart' hfind
      hopened hfile hoffset hrest =>
      obtain rfl := Option.some.inj (hpart'.symm.trans hpart)
      obtain rfl := Except.ok.inj ((Tree.find_eq_ok_iff.mp hfind).2.symm.trans hsource)
      have hopens : Opens desk.files path := .of_file hpart hfind hfile
      have hwanted := hopens.find_eq hgoal
      obtain rfl := hspots.place_eq goal hwanted
      -- no piece is left, so the file beside holds the whole body
      have hall : (pieces response).length ≤ number := List.drop_eq_nil_iff.mp hrest.symm
      obtain rfl := Option.some.inj (hnode.symm.trans hfile)
      rw [List.take_of_length_le hall, flatten_pieces hbroken] at hfile ⊢
      have hplain := Tree.ne_directory_of_file hfile
      obtain ⟨other, hother, -, -, hadmits, -⟩ := id htakes
      obtain rfl := Except.ok.inj (hother.symm.trans hgoal)
      have hclear := Tree.sameDirectories_clear hplain
      have hdirs := hclear.trans (Tree.sameDirectories_set (fun hat => hadmits ((hclear _).mp hat))
        response.chunks.flatten mode)
      have hset := Tree.at?_set (desk.files.clear beside) (.file response.chunks.flatten mode)
        (Tree.ne_nil_of_at? hadmits)
      have hplace' := hset other
      rw [if_pos rfl] at hplace'
      have hbeside' := hset beside
      rw [if_neg hspots.ne.symm, Tree.at?_clear desk.files (Tree.ne_nil_of_at? hplain),
        if_pos rfl] at hbeside'
      have hbody : (⟨.ok response, trouble⟩ : Fortune).body? = some response.chunks.flatten :=
        (Fortune.body?_eq_some_iff rfl).mpr ⟨hsuccess, hbroken, hstart,
          fun n hn => hwritten n (Nat.lt_of_lt_of_le hn hall), hfinish, rfl⟩
      exact .saved hbody (hspent.body?_eq_none ⟨hopens, htakes⟩) (hdirs.find_eq_ok.mpr hwanted)
        hplace' hpart (hdirs.find_eq_ok.mpr hfind) hbeside'

/-- The file beside is taken away. -/
private theorem cleared {reason : Text} {content : Bytes} {mode : Nat}
    (hspots : Spots desk.files path place beside)
    (h : Sound before path place beside task ⟨met, .clearing reason⟩ desk)
    (hpart : partPath? path = some part) (hfind : desk.files.find part = .ok beside)
    (hfile : desk.files.at? beside = some (.file content mode)) (number : Nat) :
    Sound before path place beside task ⟨met, .again errand number reason⟩
      (desk.cleared (desk.files.clear beside)) := by
  have hplain := Tree.ne_directory_of_file hfile
  have hdirs := Tree.sameDirectories_clear hplain
  have hclear := Tree.at?_clear desk.files (Tree.ne_nil_of_at? hplain)
  have hsame := hclear place
  rw [if_neg hspots.ne] at hsame
  cases h with
  | clearing hplace hspent =>
      exact again _ _ (hsame.trans hplace)
        (hspent.mono (accepts_of_opens hspots hdirs hsame (.of_file hpart hfind hfile)))
        (bare_clear hpart hfind hplain)

/-- Every step keeps a flight sound. -/
theorem goes (hspots : Spots desk.files errand.path place beside)
    (h : Sound before errand.path place beside task flight desk)
    (hgoes : Flight.Goes errand task fortune flight desk flight' desk') :
    Sound before errand.path place beside task flight' desk' := by
  cases hgoes with
  | unanswered hending hbody =>
      cases h with
      | asking hplace hspent => exact after hending hplace (hspent.cons fun h => absurd hbody h)
  | answered hanswer hsuccess =>
      cases h with
      | asking hplace hspent =>
          obtain ⟨answer, trouble⟩ := fortune
          obtain rfl := hanswer
          exact .starting hplace hspent hsuccess
  | unbegun hending hwhy =>
      cases h with
      | starting hplace hspent hsuccess =>
          -- an attempt with a body can only have been refused by the files
          refine after hending hplace (hspent.cons fun hbody haccepts => ?_)
          obtain ⟨body, hbody⟩ := Option.ne_none_iff_exists'.mp hbody
          obtain ⟨-, -, hstart, -⟩ := (Fortune.body?_eq_some_iff rfl).mp hbody
          rcases hwhy with hrefused | hcloses
          · exact hrefused hstart
          · exact hcloses haccepts.1
  | begun hstart hpart hfind hadmits =>
      obtain rfl := hspots.beside_eq _ _ hpart hfind
      cases h with
      | starting hplace hspent hsuccess =>
          exact begun hspots (.starting hplace hspent hsuccess) hstart hpart hfind hadmits
  | unwritten hending htrouble =>
      cases h with
      | writing hplace hspent hsuccess hstart hwritten hpart hfind hopened hfile hoffset hrest =>
          refine after hending hplace (hspent.cons fun hbody _ => ?_)
          obtain ⟨body, hbody⟩ := Option.ne_none_iff_exists'.mp hbody
          obtain ⟨-, -, -, hall, -⟩ := (Fortune.body?_eq_some_iff rfl).mp hbody
          exact htrouble (hall _ (take_succ_of_drop hrest).1)
  | wrote htrouble => exact wrote hspots h htrouble
  | unmoved hending hwhy =>
      cases h with
      | writing hplace hspent hsuccess hstart hwritten hpart hfind hopened hfile hoffset hrest =>
          refine after hending hplace (hspent.cons fun hbody haccepts => ?_)
          obtain ⟨body, hbody⟩ := Option.ne_none_iff_exists'.mp hbody
          obtain ⟨-, hbroken, -, -, hfinish, -⟩ := (Fortune.body?_eq_some_iff rfl).mp hbody
          rcases hwhy with hbreaks | hrefused | hrefused
          · exact hbreaks hbroken
          · exact hrefused hfinish
          · exact hrefused _ _ hpart (Tree.find_eq_ok_iff.mp hfind).2 (by simp [hfile]) haccepts.2
  | moved hbroken hfinish hpart hsource hgoal hnode htakes =>
      exact moved hspots h hbroken hfinish hpart hsource hgoal hnode htakes
  | cleared hpart hfind hfile =>
      obtain rfl := hspots.beside_eq _ _ hpart hfind
      exact cleared hspots h hpart hfind hfile _
  | clear hnone =>
      cases h with
      | clearing hplace hspent =>
          exact again _ _ (by exact hplace) (by exact hspent) (by exact hnone)
  | uncleared crash =>
      cases h with
      | clearing hplace hspent => exact .crashed hplace
  | rest ending => exact h

/-- A sound flight writes to the file beside. -/
theorem writesTo (h : Sound before path place beside task flight desk) :
    Flight.WritesTo beside task flight desk := by
  intro source hwriting hopened
  cases h with
  | writing _ _ _ _ _ _ _ hopened' _ _ _ => exact Option.some.inj (hopened.symm.trans hopened')
  | _ => cases hwriting

/-- No step changes any other place. -/
theorem at?_eq (hspots : Spots desk.files errand.path place beside)
    (h : Sound before errand.path place beside task flight desk)
    (hgoes : Flight.Goes errand task fortune flight desk flight' desk')
    (hplace : other ≠ place) (hbeside : other ≠ beside) :
    desk'.files.at? other = desk.files.at? other :=
  hgoes.at?_eq hspots h.grounded h.writesTo hplace hbeside

end Sound

-- ============================================================== fetches

/-- Steps one after the other keep a flight sound, and change nothing but the
two places that it is about. -/
theorem Sound.flies (hflies : Flight.Flies errand task flight desk flight' desk')
    (hspots : Spots desk.files errand.path place beside)
    (h : Sound before errand.path place beside task flight desk) :
    desk.files.SameDirectories desk'.files
      ∧ Sound before errand.path place beside task flight' desk'
      ∧ ∀ other, other ≠ place → other ≠ beside →
        desk'.files.at? other = desk.files.at? other := by
  induction hflies with
  | here => exact ⟨.refl _, h, fun _ _ _ => rfl⟩
  | @further flight₁ desk₁ _ fortune ih =>
      obtain ⟨hdirs, hsound, hframe⟩ := ih
      have hspots := hspots.congr hdirs
      have hgoes := Flight.goes_step errand task fortune flight₁ desk₁
      refine ⟨hdirs.trans (hgoes.sameDirectories hsound.grounded), hsound.goes hspots hgoes, ?_⟩
      intro other hplace hbeside
      rw [hsound.at?_eq hspots hgoes hplace hbeside, hframe other hplace hbeside]

/-- A flight that has failed has left the wanted path as it was. -/
theorem stat_eq_of_failed (hdirs : before.SameDirectories t)
    (hframe : ∀ other, before.find path ≠ .ok other →
      (∀ part, partPath? path = some part → before.find part ≠ .ok other) →
      t.at? other = before.at? other)
    (hplace : ∀ other, before.find path = .ok other → t.at? other = before.at? other) :
    t.stat path = before.stat path := by
  cases hwanted : before.find path with
  | ok place =>
      exact Tree.stat_eq_of_find hwanted (hdirs.find_eq_ok.mpr hwanted) (hplace place hwanted)
  | error fault =>
      refine Tree.stat_congr (fun other => hframe other (by simp [hwanted]) ?_) path
      intro part hpart hfind
      obtain ⟨place, hother, -⟩ := find_of_part hpart hfind
      rw [hwanted] at hother
      cases hother

/-- A fetch is all or nothing: saved, the wanted path holds the body of the
first attempt that came to one, and nothing is beside it; failed, the wanted
path is as it was, and no file is beside it. Nothing else has changed. -/
theorem fetchThrough_all_or_nothing (trouble : Nat → Trouble) (errand : Errand)
    (hretries : 0 ≤ errand.retries) (world : World) :
    let files := (fetchThrough trouble errand world).1.files
    let ending := (fetchThrough trouble errand world).2
    let fortune := Flight.fortuneOf trouble errand world.web
    (ending = .saved → ∃ part number body, partPath? errand.path = some part
        ∧ 1 ≤ number ∧ number ≤ errand.retries.toNat + 1
        ∧ (fortune number).body? = some body
        ∧ (∀ earlier, 1 ≤ earlier → earlier < number → (fortune earlier).body? = none)
        ∧ files.read errand.path = .ok body
        ∧ files.stat part = .error (.refused .missing part.text none))
      ∧ (∀ reason, ending = .failed reason →
        files.stat errand.path = world.files.stat errand.path
        ∧ ∀ part content, partPath? errand.path = some part → files.read part ≠ .ok content)
      ∧ (∀ other, world.files.find errand.path ≠ .ok other →
        (∀ part, partPath? errand.path = some part → world.files.find part ≠ .ok other) →
        files.at? other = world.files.at? other) := by
  intro files ending fortune
  obtain ⟨made, opened, hpos, hle, hflies⟩ :=
    Flight.flies_fetch 0 trouble hretries world fun _ => none
  have hsound : ∀ place beside, Spots world.files errand.path place beside →
      world.files.SameDirectories files
        ∧ Sound world.files errand.path place beside 0
          ⟨Flight.fortunesOf trouble errand world.web made, .over ending⟩ ⟨files, opened⟩
        ∧ ∀ other, other ≠ place → other ≠ beside → files.at? other = world.files.at? other :=
    fun place beside hspots =>
      Sound.flies hflies hspots (.ready world.files errand.path place beside 0 _)
  have hframe : ∀ other, world.files.find errand.path ≠ .ok other →
      (∀ part, partPath? errand.path = some part → world.files.find part ≠ .ok other) →
      files.at? other = world.files.at? other := by
    intro other hplace hbeside
    -- a path that leads nowhere may be given any place, so one that is not this
    obtain ⟨place, beside, hspots, hne, hne'⟩ := exists_spots world.files errand.path other
    exact (hsound place beside hspots).2.2 other (hne hplace).symm (hne' hbeside).symm
  obtain ⟨place, beside, hspots, -⟩ := exists_spots world.files errand.path []
  obtain ⟨hdirs, hsound, -⟩ := hsound place beside hspots
  refine ⟨fun hsaved => ?_, fun reason hfailed => ?_, hframe⟩
  · obtain ⟨number, rfl⟩ : ∃ number, made = number + 1 := ⟨made - 1, by omega⟩
    rw [hsaved] at hsound
    generalize hmet : Flight.fortunesOf trouble errand world.web (number + 1) = met at hsound
    cases hsound with
    | @saved _ _ _ body part _ hbody hearlier hwanted hplace hpart hfind hbeside =>
        obtain ⟨rfl, rfl⟩ := List.cons.inj hmet
        refine ⟨part, number + 1, body, hpart, by omega, hle, hbody, fun earlier hone hlt => ?_,
          Tree.read_eq_ok_iff.mpr ⟨_, _, hwanted, hplace⟩, Tree.stat_eq_missing hfind hbeside⟩
        exact hearlier _ (Flight.mem_fortunesOf.mpr ⟨earlier, hone, by omega, rfl⟩)
  · rw [hfailed] at hsound
    generalize Flight.fortunesOf trouble errand world.web made = met at hsound
    cases hsound with
    | failed hplace hbare =>
        refine ⟨stat_eq_of_failed hdirs hframe fun other hother => ?_, ?_⟩
        · rw [hspots.place_eq other hother]
          exact hplace
        · intro part content hpart hread
          obtain ⟨other, mode, hfind, hat⟩ := Tree.read_eq_ok_iff.mp hread
          exact hbare part other content mode hpart hfind hat

/-- An errand that may be repeated once. -/
def repeatable : Errand := ⟨"http://x/1", ⟨.here, ["One.mp3"]⟩, "FeedSieve", 1, 0⟩

/-- A world with an older file at its path. The first answer breaks off. -/
def brokenOnce : World where
  files := ⟨[(["here"], .directory), (["here", "One.mp3"], .file [9] Files.plainMode)]⟩
  web := ⟨[("http://x/1", [.ok ⟨200, none, [[1, 2]], some (.transport "gone")⟩,
    .ok ⟨200, none, [[1, 2], [3]], none⟩])], []⟩
  pauses := []
  bindings := []
  homes := []
  now := .first
  mark := []

/-- The second attempt puts its body in the place of the older file. -/
theorem fetchThrough_all_or_nothing_repeated :
    0 ≤ repeatable.retries
      ∧ (fetchThrough (fun _ => .none) repeatable brokenOnce).2 = .saved
      ∧ (Flight.fortuneOf (fun _ => .none) repeatable brokenOnce.web 1).body? = none
      ∧ ∃ number, (Flight.fortuneOf (fun _ => .none) repeatable brokenOnce.web number).body?
          = some [1, 2, 3]
        ∧ (fetchThrough (fun _ => .none) repeatable brokenOnce).1.files.read repeatable.path
          = .ok [1, 2, 3] := by
  have hretries : 0 ≤ repeatable.retries := by decide
  have hsaved : (fetchThrough (fun _ => .none) repeatable brokenOnce).2 = .saved := by
    decide +kernel
  have hread : (fetchThrough (fun _ => .none) repeatable brokenOnce).1.files.read repeatable.path
      = .ok [1, 2, 3] := by
    decide +kernel
  obtain ⟨part, number, body, -, -, -, hbody, -, hwhole, -⟩ :=
    (fetchThrough_all_or_nothing (fun _ => .none) repeatable hretries brokenOnce).1 hsaved
  obtain rfl := Except.ok.inj (hwhole.symm.trans hread)
  exact ⟨hretries, hsaved, by decide +kernel, number, hbody, hread⟩

end FeedSieve.Download
