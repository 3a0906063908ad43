/-
What a step of a flight does, and that a fetch is a flight.

`Goes` says once what a step can do, and why: an attempt fails for a reason
that its fortune or the files give, the file beside is begun, a piece goes
into it, it is moved into place, or it is taken away. Every step is one of
these (`goes_step`), and nothing below looks into the step again.

A fetch that is made as a whole is a flight whose steps are made one after
the other (`flies_fetch`): its attempts meet with the answers that the web
has for them, in order. So what holds at the end of every flight holds after
every fetch.
-/
import FeedSieve.Proofs.Download.Part

namespace FeedSieve.Download

open Files (Path Place Tree)
open Http (Failure Response Web)

-- ============================================================ refusal

/-- The file beside can be begun. -/
def Opens (t : Tree) (path : Path) : Prop :=
  ∃ part beside, partPath? path = some part ∧ t.find part = .ok beside ∧ t.Admits beside

/-- What is beside can be moved into place. -/
def Takes (t : Tree) (path : Path) : Prop :=
  ∃ place, t.place path = .ok place ∧ path.parts ≠ [] ∧ path.name ≠ "..".toList
    ∧ t.Admits place

namespace Flight

variable {errand : Errand} {task : Nat} {fortune : Fortune} {flight flight' : Flight}
  {desk desk' : Desk}

-- =============================================================== steps

/-- What a step does. An ending that is not the good one leads on to the
clearing or out of the flight. -/
inductive Goes (errand : Errand) (task : Nat) (fortune : Fortune) :
    Flight → Desk → Flight → Desk → Prop where
  | unanswered {met : List Fortune} {desk : Desk} {ending : Ending}
      (hending : ending ≠ .saved) (hbody : fortune.body? = none) :
      Goes errand task fortune ⟨met, .asking⟩ desk ⟨fortune :: met, .after ending⟩ desk
  | answered {met : List Fortune} {desk : Desk} {response : Response}
      (hanswer : fortune.answer = .ok response) (hsuccess : response.isSuccess = true) :
      Goes errand task fortune ⟨met, .asking⟩ desk
        ⟨fortune :: met, .starting fortune.trouble response⟩ desk
  | unbegun {met : List Fortune} {desk : Desk} {trouble : Trouble} {response : Response}
      {ending : Ending} (hending : ending ≠ .saved)
      (hwhy : trouble.start ≠ none ∨ ¬ Opens desk.files errand.path) :
      Goes errand task fortune ⟨met, .starting trouble response⟩ desk ⟨met, .after ending⟩ desk
  | begun {met : List Fortune} {desk : Desk} {trouble : Trouble} {response : Response}
      {part : Path} {beside : Place} {mode : Nat} (hstart : trouble.start = none)
      (hpart : partPath? errand.path = some part) (hfind : desk.files.find part = .ok beside)
      (hadmits : desk.files.Admits beside) :
      Goes errand task fortune ⟨met, .starting trouble response⟩ desk
        ⟨met, .writing trouble response 0 0 (pieces response)⟩
        (desk.started task part (desk.files.set beside (.file [] mode)))
  | unwritten {met : List Fortune} {desk : Desk} {trouble : Trouble} {response : Response}
      {number offset : Nat} {piece : Bytes} {rest : List Bytes} {ending : Ending}
      (hending : ending ≠ .saved) (htrouble : trouble.piece number ≠ none) :
      Goes errand task fortune ⟨met, .writing trouble response number offset (piece :: rest)⟩
        desk ⟨met, .after ending⟩ desk
  | wrote {met : List Fortune} {desk : Desk} {trouble : Trouble} {response : Response}
      {number offset : Nat} {piece : Bytes} {rest : List Bytes}
      (htrouble : trouble.piece number = none) :
      Goes errand task fortune ⟨met, .writing trouble response number offset (piece :: rest)⟩
        desk ⟨met, .writing trouble response (number + 1) (offset + piece.length) rest⟩
        (desk.written task offset piece)
  | unmoved {met : List Fortune} {desk : Desk} {trouble : Trouble} {response : Response}
      {number offset : Nat} {ending : Ending} (hending : ending ≠ .saved)
      (hwhy : response.broken ≠ none ∨ trouble.finish ≠ none
        ∨ ∀ part source, partPath? errand.path = some part →
          desk.files.place part = .ok source → desk.files.at? source ≠ none →
          ¬ Takes desk.files errand.path) :
      Goes errand task fortune ⟨met, .writing trouble response number offset []⟩ desk
        ⟨met, .after ending⟩ desk
  | moved {met : List Fortune} {desk : Desk} {trouble : Trouble} {response : Response}
      {number offset : Nat} {part : Path} {source place : Place} {node : Files.Node}
      (hbroken : response.broken = none) (hfinish : trouble.finish = none)
      (hpart : partPath? errand.path = some part) (hsource : desk.files.place part = .ok source)
      (hplace : desk.files.place errand.path = .ok place)
      (hnode : desk.files.at? source = some node) (htakes : Takes desk.files errand.path) :
      Goes errand task fortune ⟨met, .writing trouble response number offset []⟩ desk
        ⟨met, .over .saved⟩
        (desk.moved part errand.path ((desk.files.clear source).set place node))
  | cleared {met : List Fortune} {desk : Desk} {reason : Text} {part : Path} {beside : Place}
      {content : Bytes} {mode : Nat} (hpart : partPath? errand.path = some part)
      (hfind : desk.files.find part = .ok beside)
      (hfile : desk.files.at? beside = some (.file content mode)) :
      Goes errand task fortune ⟨met, .clearing reason⟩ desk
        ⟨met, .again errand met.length reason⟩ (desk.cleared (desk.files.clear beside))
  | clear {met : List Fortune} {desk : Desk} {reason : Text}
      (hnone : ∀ part beside content mode, partPath? errand.path = some part →
        desk.files.find part = .ok beside →
        desk.files.at? beside ≠ some (.file content mode)) :
      Goes errand task fortune ⟨met, .clearing reason⟩ desk
        ⟨met, .again errand met.length reason⟩ (desk.cleared desk.files)
  | uncleared {met : List Fortune} {desk : Desk} {reason : Text} (crash : Crash) :
      Goes errand task fortune ⟨met, .clearing reason⟩ desk ⟨met, .over (.crashed crash)⟩ desk
  | rest {met : List Fortune} {desk : Desk} (ending : Ending) :
      Goes errand task fortune ⟨met, .over ending⟩ desk ⟨met, .over ending⟩ desk

/-- What the file system refuses is no good ending. -/
theorem ofFault_ne_saved (fault : Files.Fault) : Ending.ofFault fault ≠ .saved := by
  cases fault <;> simp [Ending.ofFault]

/-- Nor is a failure of the web. -/
theorem ofFailure_ne_saved (failure : Failure) : Ending.ofFailure failure ≠ .saved := by
  cases failure <;> simp [Ending.ofFailure]

/-- A file is begun where it can be. -/
private theorem beginPart_eq_ok_iff {trouble : Trouble} {part : Path} {t t' : Tree} :
    beginPart trouble part t = .ok t' ↔ trouble.start = none
      ∧ t.write part [] Files.plainMode = .ok t' := by
  unfold beginPart
  cases trouble.start <;> simp

/-- A file that is begun is empty. -/
private theorem beginPart_eq_set {trouble : Trouble} {part : Path} {t t' : Tree}
    (h : beginPart trouble part t = .ok t') :
    ∃ beside mode, t.find part = .ok beside ∧ t.Admits beside
      ∧ t' = t.set beside (.file [] mode) := by
  obtain ⟨-, hwrite⟩ := beginPart_eq_ok_iff.mp h
  obtain ⟨beside, hfind, hadmits, hset⟩ := Tree.write_eq_ok_iff.mp hwrite
  exact ⟨beside, _, hfind, hadmits, hset⟩

/-- A file is moved where it can be. -/
private theorem movePart_eq_ok_iff {trouble : Trouble} {part path : Path} {t t' : Tree} :
    movePart trouble part path t = .ok t' ↔ trouble.finish = none
      ∧ t.move part path = .ok t' := by
  unfold movePart
  cases trouble.finish <;> simp

/-- Where something is beside, and can be moved into place, it is. -/
private theorem move_part_iff {path part : Path} {t t' : Tree}
    (hpart : partPath? path = some part) :
    t.move part path = .ok t' ↔ ∃ source place node, t.place part = .ok source
      ∧ t.place path = .ok place ∧ t.at? source = some node ∧ Takes t path
      ∧ t' = (t.clear source).set place node := by
  rw [Tree.move_eq_ok_iff fun _ _ => place_ne_of_part hpart]
  constructor
  · rintro ⟨source, place, node, hsource, hplace, hparts, hname, hnode, hadmits, rfl⟩
    exact ⟨source, place, node, hsource, hplace, hnode, ⟨place, hplace, hparts, hname, hadmits⟩,
      rfl⟩
  · rintro ⟨source, place, node, hsource, hplace, hnode, ⟨other, hother, hparts, hname, hadmits⟩,
      rfl⟩
    obtain rfl := Except.ok.inj (hother.symm.trans hplace)
    exact ⟨source, other, node, hsource, hplace, hparts, hname, hnode, hadmits, rfl⟩

/-- A file is not begun for one of two reasons. -/
private theorem not_opens_of_beginPart {trouble : Trouble} {path part : Path} {t : Tree}
    {fault : Files.Fault} (hpart : partPath? path = some part)
    (hbegin : beginPart trouble part t = .error fault) :
    trouble.start ≠ none ∨ ¬ Opens t path := by
  by_contra hnot
  obtain ⟨hstart, hopens⟩ := not_or.mp hnot
  obtain ⟨part', beside, hpart', hfind, hadmits⟩ := not_not.mp hopens
  obtain rfl := Option.some.inj (hpart'.symm.trans hpart)
  obtain ⟨files, hwrite⟩ : ∃ files, t.write part' [] Files.plainMode = .ok files :=
    ⟨_, Tree.write_eq_ok_iff.mpr ⟨beside, hfind, hadmits, rfl⟩⟩
  rw [beginPart_eq_ok_iff.mpr ⟨not_not.mp hstart, hwrite⟩] at hbegin
  cases hbegin

/-- A file that is there is not moved for one of two reasons. -/
private theorem not_takes_of_movePart {trouble : Trouble} {path part : Path} {t : Tree}
    {fault : Files.Fault} (hpart : partPath? path = some part)
    (hmove : movePart trouble part path t = .error fault) :
    trouble.finish ≠ none ∨ ∀ part source, partPath? path = some part →
      t.place part = .ok source → t.at? source ≠ none → ¬ Takes t path := by
  by_contra hnot
  obtain ⟨hfinish, htakes⟩ := not_or.mp hnot
  simp only [not_forall, not_not] at htakes
  obtain ⟨part', source, hpart', hsource, hthere, htakes⟩ := htakes
  obtain rfl := Option.some.inj (hpart'.symm.trans hpart)
  obtain ⟨node, hnode⟩ := Option.ne_none_iff_exists'.mp hthere
  obtain ⟨place, hplace, -⟩ := id htakes
  have hmoves := (move_part_iff hpart).mpr
    ⟨source, place, node, hsource, hplace, hnode, htakes, rfl⟩
  rw [movePart_eq_ok_iff.mpr ⟨not_not.mp hfinish, hmoves⟩] at hmove
  cases hmove

/-- A file beside is taken away, or there is none and nothing changes. -/
theorem clearPart_cases {path : Path} {t t' : Tree} (h : clearPart path t = .ok t') :
    (∃ part beside content mode, partPath? path = some part ∧ t.find part = .ok beside
        ∧ t.at? beside = some (.file content mode) ∧ t' = t.clear beside)
      ∨ (∀ part beside content mode, partPath? path = some part → t.find part = .ok beside →
        t.at? beside ≠ some (.file content mode)) ∧ t' = t := by
  unfold clearPart at h
  split at h
  case h_1 => cases h
  case h_2 part hpart =>
    split at h
    case h_1 removed hremove =>
      obtain rfl := Except.ok.inj h
      obtain ⟨beside, content, mode, hfind, hfile, rfl⟩ := Tree.remove_eq_ok_iff.mp hremove
      exact Or.inl ⟨part, beside, content, mode, hpart, hfind, hfile, rfl⟩
    case h_2 => cases h
    case h_3 fault hremove =>
      -- a file that is there can be taken away, so there is none
      refine Or.inr ⟨fun part' beside content mode hpart' hfind hfile => ?_,
        (Except.ok.inj h).symm⟩
      obtain rfl := Option.some.inj (hpart'.symm.trans hpart)
      rw [Tree.remove_eq_ok_iff.mpr ⟨beside, content, mode, hfind, hfile, rfl⟩] at hremove
      cases hremove

/-- An attempt without a good answer comes to no body. -/
private theorem body?_of_not_isSuccess {response : Response}
    (hanswer : fortune.answer = .ok response) (h : response.isSuccess = false) :
    fortune.body? = none := by
  unfold Fortune.body?
  simp [hanswer, h]

/-- Every step is one of these. -/
theorem goes_step (errand : Errand) (task : Nat) (fortune : Fortune) (flight : Flight)
    (desk : Desk) :
    Goes errand task fortune flight desk (flight.step errand task fortune desk).1
      (flight.step errand task fortune desk).2 := by
  obtain ⟨met, stage⟩ := flight
  cases stage with
  | asking =>
      simp only [step]
      split
      case h_1 failure hanswer =>
        exact .unanswered (ofFailure_ne_saved failure) (by simp [Fortune.body?, hanswer])
      case h_2 response hanswer =>
        split
        case isTrue hfails =>
          have hsuccess : response.isSuccess = false := by simpa using hfails
          show Goes errand task fortune _ desk
            ⟨_, .after (.failed (describeStatus response.status))⟩ desk
          exact .unanswered (by simp) (body?_of_not_isSuccess hanswer hsuccess)
        case isFalse hfails => exact .answered hanswer (by simpa using hfails)
  | starting trouble response =>
      simp only [step]
      split
      case h_1 hnone =>
        show Goes errand task fortune _ desk ⟨_, .after (.crashed (.nameless errand.path))⟩ desk
        refine .unbegun (by simp) (Or.inr ?_)
        rintro ⟨part, beside, hpart, -⟩
        rw [hnone] at hpart
        cases hpart
      case h_2 part hpart =>
        split
        case h_1 fault hbegin =>
          exact .unbegun (ofFault_ne_saved fault) (not_opens_of_beginPart hpart hbegin)
        case h_2 files hbegin =>
          obtain ⟨beside, mode, hfind, hadmits, rfl⟩ := beginPart_eq_set hbegin
          exact .begun (beginPart_eq_ok_iff.mp hbegin).1 hpart hfind hadmits
  | writing trouble response number offset rest =>
      cases rest with
      | cons piece rest =>
          simp only [step]
          split
          case h_1 fault htrouble =>
            exact .unwritten (ofFault_ne_saved fault) (by simp [htrouble])
          case h_2 htrouble => exact .wrote htrouble
      | nil =>
          simp only [step]
          split
          case h_1 failure hbroken =>
            exact .unmoved (ofFailure_ne_saved failure) (Or.inl (by simp [hbroken]))
          case h_2 hbroken hnone =>
            show Goes errand task fortune _ desk
              ⟨_, .after (.crashed (.nameless errand.path))⟩ desk
            refine .unmoved (by simp) (Or.inr (Or.inr fun part _ hpart => ?_))
            rw [hnone] at hpart
            cases hpart
          case h_3 part hbroken hpart =>
            split
            case h_1 fault hmove =>
              exact .unmoved (ofFault_ne_saved fault) (Or.inr (not_takes_of_movePart hpart hmove))
            case h_2 files hmove =>
              obtain ⟨hfinish, hmoves⟩ := movePart_eq_ok_iff.mp hmove
              obtain ⟨source, place, node, hsource, hplace, hnode, htakes, rfl⟩ :=
                (move_part_iff hpart).mp hmoves
              exact .moved hbroken hfinish hpart hsource hplace hnode htakes
  | clearing reason =>
      simp only [step]
      split
      case h_1 crash hclear => exact .uncleared crash
      case h_2 files hclear =>
        rcases clearPart_cases hclear with
          ⟨part, beside, content, mode, hpart, hfind, hfile, rfl⟩ | ⟨hnone, rfl⟩
        · exact .cleared hpart hfind hfile
        · exact .clear hnone
  | _ => exact .rest _

-- ========================================================== directories

/-- What a flight writes to has a place, and is no directory. -/
def Grounded (path : Path) (flight : Flight) (t : Tree) : Prop :=
  ∀ trouble response number offset rest,
    flight.stage = .writing trouble response number offset rest →
    ∃ part beside, partPath? path = some part ∧ t.find part = .ok beside
      ∧ t.at? beside ≠ some .directory

/-- It is none as long as the directories stay. -/
theorem Grounded.congr {path : Path} {t t' : Tree} (h : Grounded path flight t)
    (hdirs : t.SameDirectories t') : Grounded path flight t' := by
  intro trouble response number offset rest hstage
  obtain ⟨part, beside, hpart, hfind, hplain⟩ := h trouble response number offset rest hstage
  exact ⟨part, beside, hpart, hdirs.find_eq_ok.mpr hfind, fun hat => hplain ((hdirs beside).mp hat)⟩

/-- The file that a flight moves is where it writes. -/
theorem Grounded.of_place {path part : Path} {source : Place} {t : Tree} {met : List Fortune}
    {trouble : Trouble} {response : Response} {number offset : Nat} {rest : List Bytes}
    (h : Grounded path ⟨met, .writing trouble response number offset rest⟩ t)
    (hpart : partPath? path = some part) (hsource : t.place part = .ok source) :
    t.find part = .ok source ∧ t.at? source ≠ some .directory := by
  obtain ⟨part', beside, hpart', hfind, hplain⟩ := h trouble response number offset rest rfl
  obtain rfl := Option.some.inj (hpart'.symm.trans hpart)
  obtain rfl := Except.ok.inj ((Tree.find_eq_ok_iff.mp hfind).2.symm.trans hsource)
  exact ⟨hfind, hplain⟩

/-- A piece goes into a file, or nowhere. -/
theorem written_files (desk : Desk) (task offset : Nat) (piece : Bytes) :
    (desk.written task offset piece).opened = desk.opened
      ∧ ((desk.written task offset piece).files = desk.files
        ∨ ∃ place content mode, desk.opened task = some place
          ∧ desk.files.at? place = some (.file content mode)
          ∧ (desk.written task offset piece).files
            = desk.files.set place (.file (Tree.overwritten content offset piece) mode)) := by
  unfold Desk.written
  cases hopened : desk.opened task with
  | none => exact ⟨rfl, Or.inl rfl⟩
  | some place =>
      simp only
      cases hat : desk.files.at? place with
      | none => exact ⟨rfl, Or.inl rfl⟩
      | some node =>
          cases node with
          | directory => exact ⟨rfl, Or.inl rfl⟩
          | file content mode => exact ⟨rfl, Or.inr ⟨place, content, mode, rfl, hat, rfl⟩⟩

/-- No step makes a directory or takes one away. -/
theorem Goes.sameDirectories (h : Goes errand task fortune flight desk flight' desk')
    (hgrounded : Grounded errand.path flight desk.files) :
    desk.files.SameDirectories desk'.files := by
  cases h with
  | begun hstart hpart hfind hadmits => exact Tree.sameDirectories_set hadmits.1 _ _
  | @wrote _ _ _ _ _ offset piece _ _ =>
      rcases (written_files desk task offset piece).2 with
        hsame | ⟨place, content, mode, -, hat, hset⟩
      · rw [hsame]
        exact .refl _
      · rw [hset]
        exact Tree.sameDirectories_set (Tree.ne_directory_of_file hat) _ _
  | @moved _ _ _ _ _ _ part source place node _ _ hpart hsource hplace hnode htakes =>
      have hplain := (hgrounded.of_place hpart hsource).2
      obtain ⟨other, hother, -, -, hadmits, -⟩ := htakes
      obtain rfl := Except.ok.inj (hother.symm.trans hplace)
      cases node with
      | directory => exact absurd hnode hplain
      | file content mode =>
          have hclear := Tree.sameDirectories_clear hplain
          refine hclear.trans (Tree.sameDirectories_set ?_ content mode)
          exact fun hat => hadmits ((hclear _).mp hat)
  | cleared hpart hfind hfile => exact Tree.sameDirectories_clear (Tree.ne_directory_of_file hfile)
  | _ => exact .refl _

/-- After an attempt nothing is written, and the fetch has succeeded only if
the attempt has. -/
theorem after_spec {ending : Ending} {stage : Stage} (hstage : Stage.after ending = stage) :
    (∀ trouble response number offset rest,
        stage ≠ .writing trouble response number offset rest)
      ∧ (ending ≠ .saved → stage ≠ .over .saved) := by
  subst hstage
  cases ending <;> simp [Stage.after]

/-- Nor is it before the next one, and then the fetch has not succeeded. -/
theorem again_spec {number : Nat} {reason : Text} {stage : Stage}
    (hstage : Stage.again errand number reason = stage) :
    (∀ trouble response number offset rest,
        stage ≠ .writing trouble response number offset rest)
      ∧ stage ≠ .over .saved := by
  subst hstage
  unfold Stage.again
  split
  · simp
  · split <;> simp

/-- What is begun is a file, and stays one. -/
theorem Goes.grounded (h : Goes errand task fortune flight desk flight' desk')
    (hgrounded : Grounded errand.path flight desk.files) :
    Grounded errand.path flight' desk'.files := by
  refine Grounded.congr ?_ (h.sameDirectories hgrounded)
  intro trouble response number offset rest hstage
  cases h with
  | begun hstart hpart hfind hadmits => exact ⟨_, _, hpart, hfind, hadmits.1⟩
  | wrote => exact hgrounded _ _ _ _ _ rfl
  | unanswered | unbegun | unwritten | unmoved => exact absurd rfl ((after_spec hstage).1 _ _ _ _ _)
  | cleared | clear => exact absurd rfl ((again_spec hstage).1 _ _ _ _ _)
  | answered | moved | uncleared | rest => cases hstage

/-- What is anywhere stays, unless it is where the flight writes: another file
may take its place, but something is there. -/
theorem Goes.at?_ne_none {other : Place}
    (h : Goes errand task fortune flight desk flight' desk')
    (hgrounded : Grounded errand.path flight desk.files)
    (hbeside : ∀ part, partPath? errand.path = some part → desk.files.find part ≠ .ok other)
    (hthere : desk.files.at? other ≠ none) : desk'.files.at? other ≠ none := by
  cases h with
  | @begun _ _ _ _ part beside mode hstart hpart hfind hadmits =>
      show (desk.files.set beside (.file [] mode)).at? other ≠ none
      rw [Tree.at?_set _ _ (Tree.ne_nil_of_at? hadmits.1)]
      split <;> simp [hthere]
  | @wrote _ _ _ _ _ offset piece _ _ =>
      rcases (written_files desk task offset piece).2 with
        hsame | ⟨place, content, mode, -, hat, hset⟩
      · rw [hsame]
        exact hthere
      · rw [hset, Tree.at?_set _ _ (Tree.ne_nil_of_at? (Tree.ne_directory_of_file hat))]
        split <;> simp [hthere]
  | @moved _ _ _ _ _ _ part source place node _ _ hpart hsource hplace hnode htakes =>
      obtain ⟨hfind, hplain⟩ := hgrounded.of_place hpart hsource
      obtain ⟨goal, hgoal, -, -, hadmits, -⟩ := htakes
      obtain rfl := Except.ok.inj (hgoal.symm.trans hplace)
      have hne : other ≠ source := by
        rintro rfl
        exact hbeside part hpart hfind
      show ((desk.files.clear source).set goal node).at? other ≠ none
      rw [Tree.at?_set _ _ (Tree.ne_nil_of_at? hadmits),
        Tree.at?_clear _ (Tree.ne_nil_of_at? hplain), if_neg hne]
      split <;> simp [hthere]
  | @cleared _ _ _ part beside content mode hpart hfind hfile =>
      have hne : other ≠ beside := by
        rintro rfl
        exact hbeside part hpart hfind
      show (desk.files.clear beside).at? other ≠ none
      rw [Tree.at?_clear _ (Tree.ne_nil_of_at? (Tree.ne_directory_of_file hfile)), if_neg hne]
      exact hthere
  | _ => exact hthere

/-- A flight is saved by the step that puts its file into place. -/
theorem Goes.saved (h : Goes errand task fortune flight desk flight' desk')
    (hgrounded : Grounded errand.path flight desk.files)
    (hsaved : flight'.stage = .over .saved) :
    flight.stage = .over .saved ∧ desk' = desk
      ∨ ∃ place, desk.files.find errand.path = .ok place ∧ desk'.files.at? place ≠ none := by
  cases h with
  | @moved _ _ _ _ _ _ part source place node _ _ hpart hsource hplace hnode htakes =>
      obtain ⟨goal, hgoal, -, -, hadmits, -⟩ := htakes
      obtain rfl := Except.ok.inj (hgoal.symm.trans hplace)
      obtain ⟨place, hfind, -⟩ := find_of_part hpart (hgrounded.of_place hpart hsource).1
      obtain rfl := Except.ok.inj (hgoal.symm.trans (Tree.find_eq_ok_iff.mp hfind).2)
      refine Or.inr ⟨goal, hfind, ?_⟩
      show ((desk.files.clear source).set goal node).at? goal ≠ none
      rw [Tree.at?_set _ _ (Tree.ne_nil_of_at? hadmits), if_pos rfl]
      exact Option.some_ne_none node
  | rest ending => exact Or.inl ⟨hsaved, rfl⟩
  | unanswered hending | unbegun hending | unwritten hending | unmoved hending =>
      exact absurd rfl ((after_spec hsaved).2 hending)
  | cleared | clear => exact absurd rfl (again_spec hsaved).2
  | answered | begun | wrote | uncleared => cases hsaved

-- ============================================================== fetches

/-- Steps of a flight one after the other, without others between. -/
inductive Flies (errand : Errand) (task : Nat) (flight : Flight) (desk : Desk) :
    Flight → Desk → Prop where
  | here : Flies errand task flight desk flight desk
  | further {flight' : Flight} {desk' : Desk} (flies : Flies errand task flight desk flight' desk')
      (fortune : Fortune) :
      Flies errand task flight desk (flight'.step errand task fortune desk').1
        (flight'.step errand task fortune desk').2

/-- Steps go on from where steps have led. -/
theorem Flies.trans {flight'' : Flight} {desk'' : Desk}
    (h : Flies errand task flight desk flight' desk')
    (h' : Flies errand task flight' desk' flight'' desk'') :
    Flies errand task flight desk flight'' desk'' := by
  induction h' with
  | here => exact h
  | further _ fortune ih => exact ih.further fortune

/-- One step, if it leads there. -/
theorem Flies.of_step (fortune : Fortune)
    (h : flight.step errand task fortune desk = (flight', desk')) :
    Flies errand task flight desk flight' desk' := by
  have hone : Flies errand task flight desk (flight.step errand task fortune desk).1
      (flight.step errand task fortune desk).2 := Flies.here.further fortune
  rw [h] at hone
  exact hone

/-- Pieces that are written by the path of a file, all together, are written
to the open file one by one. -/
private theorem flies_writePieces (errand : Errand) (trouble : Trouble) (response : Response)
    {part : Path} {beside : Place} {opened : Nat → Option Place} (met : List Fortune)
    (hopened : opened task = some beside) (rest : List Bytes) (number offset : Nat)
    (files : Tree) (hfind : files.find part = .ok beside)
    (hfile : ∃ content mode, files.at? beside = some (.file content mode)) :
    match writePieces trouble part number offset rest files with
    | (files', some fault) =>
        Flies errand task ⟨met, .writing trouble response number offset rest⟩ ⟨files, opened⟩
          ⟨met, .after (.ofFault fault)⟩ ⟨files', opened⟩
    | (files', none) => ∃ number' offset',
        Flies errand task ⟨met, .writing trouble response number offset rest⟩ ⟨files, opened⟩
          ⟨met, .writing trouble response number' offset' []⟩ ⟨files', opened⟩ := by
  induction rest generalizing number offset files with
  | nil => exact ⟨number, offset, .here⟩
  | cons piece rest ih =>
      rw [writePieces]
      cases htrouble : trouble.piece number with
      | some fault =>
          have hpiece : writePiece trouble part number offset piece files = .error fault := by
            simp [writePiece, htrouble]
          rw [hpiece]
          exact .of_step ⟨.ok response, trouble⟩ (by simp [step, htrouble])
      | none =>
          obtain ⟨content, mode, hfile⟩ := hfile
          generalize hfiles' : files.set beside
            (.file (Tree.overwritten content offset piece) mode) = files'
          have hpiece : writePiece trouble part number offset piece files = .ok files' := by
            simp [writePiece, htrouble, Tree.writeAt, hfind, hfile, bind, Except.bind, pure,
              Except.pure, hfiles']
          have hplain := Tree.ne_directory_of_file hfile
          have hset := Tree.at?_set files (.file (Tree.overwritten content offset piece) mode)
            (Tree.ne_nil_of_at? hplain) beside
          have hsame := Tree.sameDirectories_set hplain (Tree.overwritten content offset piece)
            mode
          rw [hfiles'] at hset hsame
          rw [if_pos rfl] at hset
          have hstep : Flies errand task
              ⟨met, .writing trouble response number offset (piece :: rest)⟩ ⟨files, opened⟩
              ⟨met, .writing trouble response (number + 1) (offset + piece.length) rest⟩
              ⟨files', opened⟩ :=
            .of_step ⟨.ok response, trouble⟩
              (by simp [step, htrouble, Desk.written, hopened, hfile, hfiles'])
          -- the file that is open is still the one that the path leads to
          have ih := ih (number + 1) (offset + piece.length) files'
            (hsame.find_eq_ok.mpr hfind) ⟨_, _, hset⟩
          rw [hpiece]
          simp only
          cases hwritten : writePieces trouble part (number + 1) (offset + piece.length) rest files'
            with
          | mk files'' fault =>
              rw [hwritten] at ih
              cases fault with
              | some fault => exact hstep.trans ih
              | none =>
                  obtain ⟨number', offset', ih⟩ := ih
                  exact ⟨number', offset', hstep.trans ih⟩

/-- When all pieces are written the file is moved into place, unless the body
has broken off. -/
private theorem flies_finish (task : Nat) (trouble : Trouble) (response : Response) {part : Path}
    (hpart : partPath? errand.path = some part) (met : List Fortune) (number offset : Nat)
    (files : Tree) (opened : Nat → Option Place) :
    let finish : Tree × Ending := match response.broken with
      | some failure => (files, .ofFailure failure)
      | none =>
          match movePart trouble part errand.path files with
          | .error fault => (files, .ofFault fault)
          | .ok files => (files, .saved)
    ∃ opened', Flies errand task ⟨met, .writing trouble response number offset []⟩
      ⟨files, opened⟩ ⟨met, .after finish.2⟩ ⟨finish.1, opened'⟩ := by
  intro finish
  cases hbroken : response.broken with
  | some failure =>
      refine ⟨opened, .of_step ⟨.ok response, trouble⟩ ?_⟩
      simp [finish, step, hbroken]
  | none =>
      cases hmove : movePart trouble part errand.path files with
      | error fault =>
          refine ⟨opened, .of_step ⟨.ok response, trouble⟩ ?_⟩
          simp [finish, step, hbroken, hpart, hmove]
      | ok files' =>
          refine ⟨(Desk.moved ⟨files, opened⟩ part errand.path files').opened,
            .of_step ⟨.ok response, trouble⟩ ?_⟩
          simp [finish, step, hbroken, hpart, hmove, Stage.after, Desk.moved]

/-- What is done with a good answer is a flight. -/
private theorem flies_store (errand : Errand) (task : Nat) (trouble : Trouble)
    {response : Response} (hsuccess : response.isSuccess = true) (met : List Fortune) (files : Tree)
    (opened : Nat → Option Place) :
    ∃ opened', Flies errand task ⟨met, .starting trouble response⟩ ⟨files, opened⟩
      ⟨met, .after (store trouble errand.path response files).2⟩
      ⟨(store trouble errand.path response files).1, opened'⟩ := by
  unfold store
  rw [if_neg (by simp [hsuccess])]
  cases hpart : partPath? errand.path with
  | none =>
      exact ⟨opened, .of_step ⟨.ok response, trouble⟩ (by simp [step, hpart, Stage.after])⟩
  | some part =>
      simp only
      cases hbegin : beginPart trouble part files with
      | error fault =>
          exact ⟨opened, .of_step ⟨.ok response, trouble⟩ (by simp [step, hpart, hbegin])⟩
      | ok begun =>
          obtain ⟨beside, mode, hfind, hadmits, hset⟩ := beginPart_eq_set hbegin
          have hfind' : begun.find part = .ok beside := by
            rw [hset]
            exact (Tree.sameDirectories_set hadmits.1 [] mode).find_eq_ok.mpr hfind
          have hfile : begun.at? beside = some (.file [] mode) := by
            rw [hset, Tree.at?_set files _ (Tree.ne_nil_of_at? hadmits.1), if_pos rfl]
          obtain ⟨opened', hopened, hstart⟩ : ∃ opened' : Nat → Option Place,
              opened' task = some beside
                ∧ Flies errand task ⟨met, .starting trouble response⟩ ⟨files, opened⟩
                  ⟨met, .writing trouble response 0 0 (pieces response)⟩ ⟨begun, opened'⟩ := by
            refine ⟨(Desk.started ⟨files, opened⟩ task part begun).opened, ?_,
              .of_step ⟨.ok response, trouble⟩ ?_⟩
            · simp [Desk.started, hfind', Except.toOption]
            · simp [step, hpart, hbegin, Desk.started]
          have hpieces := flies_writePieces errand trouble response met hopened (pieces response)
            0 0 begun hfind' ⟨_, _, hfile⟩
          simp only
          cases hwritten : writePieces trouble part 0 0 (pieces response) begun with
          | mk written fault =>
              rw [hwritten] at hpieces
              cases fault with
              | some fault => exact ⟨opened', hstart.trans hpieces⟩
              | none =>
                  obtain ⟨number, offset, hpieces⟩ := hpieces
                  obtain ⟨opened'', hfinish⟩ :=
                    flies_finish task trouble response hpart met number offset written opened'
                  refine ⟨opened'', (hstart.trans hpieces).trans ?_⟩
                  cases hbroken : response.broken with
                  | some failure =>
                      rw [hbroken] at hfinish
                      exact hfinish
                  | none =>
                      rw [hbroken] at hfinish
                      exact hfinish

/-- An attempt is a flight that meets with the answer of the web. -/
private theorem flies_attempt (task : Nat) (trouble : Trouble) (errand : Errand) (world : World)
    (met : List Fortune) (opened : Nat → Option Place) :
    ∃ opened', Flies errand task ⟨met, .asking⟩ ⟨world.files, opened⟩
      ⟨⟨(world.web.get errand.agent errand.url).2, trouble⟩ :: met,
        .after (attempt trouble errand world).2⟩
      ⟨(attempt trouble errand world).1.files, opened'⟩ := by
  unfold attempt
  cases hget : world.web.get errand.agent errand.url with
  | mk web answer =>
      cases answer with
      | error failure =>
          exact ⟨opened, .of_step ⟨.error failure, trouble⟩ (by simp [step])⟩
      | ok response =>
          simp only
          by_cases hsuccess : response.isSuccess = true
          · obtain ⟨opened', hstore⟩ := flies_store errand task trouble hsuccess
              (⟨.ok response, trouble⟩ :: met) world.files opened
            refine ⟨opened', Flies.trans (.of_step ⟨.ok response, trouble⟩ ?_) hstore⟩
            simp [step, hsuccess]
          · have hfails : response.isSuccess = false := by simpa using hsuccess
            refine ⟨opened, .of_step ⟨.ok response, trouble⟩ ?_⟩
            simp [step, store, hfails, Stage.after]

/-- The web as an errand leaves it after so many requests. -/
def webAfter (errand : Errand) (web : Web) : Nat → Web
  | 0 => web
  | number + 1 => ((webAfter errand web number).get errand.agent errand.url).1

/-- What the attempts of a fetch meet with: the first the first answer of the
web, and so on. -/
def fortuneOf (trouble : Nat → Trouble) (errand : Errand) (web : Web) (number : Nat) : Fortune :=
  ⟨((webAfter errand web (number - 1)).get errand.agent errand.url).2, trouble number⟩

/-- What the first attempts meet with, the latest first. -/
def fortunesOf (trouble : Nat → Trouble) (errand : Errand) (web : Web) : Nat → List Fortune
  | 0 => []
  | number + 1 => fortuneOf trouble errand web (number + 1) :: fortunesOf trouble errand web number

/-- They are as many as were made. -/
@[simp] theorem length_fortunesOf (trouble : Nat → Trouble) (errand : Errand) (web : Web)
    (number : Nat) : (fortunesOf trouble errand web number).length = number := by
  induction number with
  | zero => rfl
  | succ number ih => simp [fortunesOf, ih]

/-- They are those of the numbers up to the latest one. -/
theorem mem_fortunesOf {trouble : Nat → Trouble} {web : Web} {number : Nat} :
    fortune ∈ fortunesOf trouble errand web number
      ↔ ∃ earlier, 1 ≤ earlier ∧ earlier ≤ number
        ∧ fortune = fortuneOf trouble errand web earlier := by
  induction number with
  | zero =>
      simp only [fortunesOf, List.not_mem_nil, false_iff]
      rintro ⟨earlier, hone, hzero, -⟩
      omega
  | succ number ih =>
      rw [fortunesOf, List.mem_cons, ih]
      constructor
      · rintro (rfl | ⟨earlier, hone, hle, rfl⟩)
        · exact ⟨number + 1, by omega, Nat.le_refl _, rfl⟩
        · exact ⟨earlier, hone, by omega, rfl⟩
      · rintro ⟨earlier, hone, hle, rfl⟩
        rcases Nat.lt_or_eq_of_le hle with hlt | rfl
        · exact Or.inr ⟨earlier, hone, by omega, rfl⟩
        · exact Or.inl rfl

/-- An attempt makes one request. -/
theorem web_attempt (trouble : Trouble) (errand : Errand) (world : World) :
    (attempt trouble errand world).1.web = (world.web.get errand.agent errand.url).1 := by
  unfold attempt
  split
  case h_1 web failure hget => rw [hget]
  case h_2 web response hget => rw [hget]

/-- The file beside is taken away, and the fetch goes on or is over. -/
private theorem flies_clear (errand : Errand) (task : Nat) (met : List Fortune) (reason : Text)
    (files : Tree) (opened : Nat → Option Place) :
    match clearPart errand.path files with
    | .error crash => Flies errand task ⟨met, .clearing reason⟩ ⟨files, opened⟩
        ⟨met, .over (.crashed crash)⟩ ⟨files, opened⟩
    | .ok files' => ∃ opened', Flies errand task ⟨met, .clearing reason⟩ ⟨files, opened⟩
        ⟨met, .again errand met.length reason⟩ ⟨files', opened'⟩ := by
  cases hclear : clearPart errand.path files with
  | error crash => exact .of_step ⟨.error (.timeout []), .none⟩ (by simp [step, hclear])
  | ok files' =>
      refine ⟨(Desk.cleared ⟨files, opened⟩ files').opened,
        .of_step ⟨.error (.timeout []), .none⟩ ?_⟩
      simp [step, hclear, Desk.cleared]

/-- The attempt of a number meets with the fortune of that number. -/
private theorem flies_numbered (task : Nat) {trouble : Nat → Trouble} {web : Web}
    {earlier : Nat} {world world' : World} {ending : Ending}
    (hweb : world.web = webAfter errand web earlier)
    (hmade : attempt (trouble (earlier + 1)) errand world = (world', ending))
    (opened : Nat → Option Place) :
    ∃ opened',
      Flies errand task ⟨fortunesOf trouble errand web earlier, .asking⟩ ⟨world.files, opened⟩
        ⟨fortunesOf trouble errand web (earlier + 1), .after ending⟩ ⟨world'.files, opened'⟩ := by
  obtain ⟨opened', hattempt⟩ := flies_attempt task (trouble (earlier + 1)) errand world
    (fortunesOf trouble errand web earlier) opened
  rw [hmade, hweb] at hattempt
  exact ⟨opened', hattempt⟩

/-- The attempt of a number fails, the file beside is taken away, and the fetch
goes on or is over. -/
private theorem flies_failed (task : Nat) {trouble : Nat → Trouble} {web : Web} {earlier : Nat}
    {world world' : World} {reason : Text} (hweb : world.web = webAfter errand web earlier)
    (hmade : attempt (trouble (earlier + 1)) errand world = (world', .failed reason))
    (opened : Nat → Option Place) :
    match clearPart errand.path world'.files with
    | .error crash => ∃ opened',
        Flies errand task ⟨fortunesOf trouble errand web earlier, .asking⟩ ⟨world.files, opened⟩
          ⟨fortunesOf trouble errand web (earlier + 1), .over (.crashed crash)⟩
          ⟨world'.files, opened'⟩
    | .ok files => ∃ opened',
        Flies errand task ⟨fortunesOf trouble errand web earlier, .asking⟩ ⟨world.files, opened⟩
          ⟨fortunesOf trouble errand web (earlier + 1), .again errand (earlier + 1) reason⟩
          ⟨files, opened'⟩ := by
  obtain ⟨opened', hflies⟩ := flies_numbered task hweb hmade opened
  have hcleared := flies_clear errand task (fortunesOf trouble errand web (earlier + 1)) reason
    world'.files opened'
  cases hclear : clearPart errand.path world'.files with
  | error crash =>
      rw [hclear] at hcleared
      exact ⟨opened', hflies.trans hcleared⟩
  | ok files =>
      rw [hclear, length_fortunesOf] at hcleared
      obtain ⟨opened'', hcleared⟩ := hcleared
      exact ⟨opened'', hflies.trans hcleared⟩

/-- All attempts of a fetch are a flight. -/
private theorem flies_attempts (task : Nat) (trouble : Nat → Trouble) (errand : Errand)
    (web : Web) (left number : Nat) (world : World) (earlier : Nat)
    (hnumber : number = earlier + 1) (hleft : left + earlier = errand.retries.toNat)
    (hweb : world.web = webAfter errand web earlier) (opened : Nat → Option Place) :
    ∃ made opened', earlier < made ∧ made ≤ errand.retries.toNat + 1
      ∧ Flies errand task ⟨fortunesOf trouble errand web earlier, .asking⟩
        ⟨world.files, opened⟩
        ⟨fortunesOf trouble errand web made,
          .over (attempts trouble errand left number world).2⟩
        ⟨(attempts trouble errand left number world).1.files, opened'⟩ := by
  -- the attempts that are left and those that were made are all that there may be,
  -- so the flight goes on exactly when the fetch does
  induction left, number, world using attempts.induct trouble errand
    generalizing earlier opened with
  | case1 left number world world' reason hmade crash hclear =>
      subst hnumber
      have hfailed := flies_failed task hweb hmade opened
      rw [hclear] at hfailed
      obtain ⟨opened', hfailed⟩ := hfailed
      refine ⟨earlier + 1, opened', by omega, by omega, ?_⟩
      unfold attempts
      rw [hmade]
      simp only [hclear]
      exact hfailed
  | case2 number world world' reason hmade files hclear =>
      subst hnumber
      have hfailed := flies_failed task hweb hmade opened
      rw [hclear, Stage.again, if_pos (by omega)] at hfailed
      obtain ⟨opened', hfailed⟩ := hfailed
      refine ⟨earlier + 1, opened', by omega, by omega, ?_⟩
      unfold attempts
      rw [hmade]
      simp only [hclear]
      exact hfailed
  | case3 number world world' reason hmade files hclear left hpause =>
      subst hnumber
      have hfailed := flies_failed task hweb hmade opened
      rw [hclear, Stage.again, if_neg (by omega), hpause] at hfailed
      obtain ⟨opened', hfailed⟩ := hfailed
      refine ⟨earlier + 1, opened', by omega, by omega, ?_⟩
      unfold attempts
      rw [hmade]
      simp only [hclear, hpause]
      exact hfailed
  | case4 number world world' reason hmade files hclear _ left pause hpause ih =>
      subst hnumber
      have hfailed := flies_failed task hweb hmade opened
      rw [hclear, Stage.again, if_neg (by omega), hpause] at hfailed
      obtain ⟨opened', hfailed⟩ := hfailed
      have hasked := web_attempt (trouble (earlier + 1)) errand world
      rw [hmade, hweb] at hasked
      obtain ⟨made, opened'', hlt, hle, hrest⟩ := ih (earlier + 1) rfl (by omega) hasked opened'
      refine ⟨made, opened'', by omega, hle, ?_⟩
      unfold attempts
      rw [hmade]
      simp only [hclear, hpause]
      exact hfailed.trans hrest
  | case5 left number world world' ending hfails hmade =>
      subst hnumber
      obtain ⟨opened', hflies⟩ := flies_numbered task hweb hmade opened
      refine ⟨earlier + 1, opened', by omega, by omega, ?_⟩
      unfold attempts
      rw [hmade]
      cases ending with
      | failed reason => exact absurd rfl (hfails reason)
      | saved => exact hflies
      | crashed crash => exact hflies

/-- A fetch that may make an attempt is a flight; its attempts meet with the
answers of the web in their order. -/
theorem flies_fetch (task : Nat) (trouble : Nat → Trouble) {errand : Errand}
    (hretries : 0 ≤ errand.retries) (world : World) (opened : Nat → Option Place) :
    ∃ made opened', 0 < made ∧ made ≤ errand.retries.toNat + 1
      ∧ Flies errand task ready ⟨world.files, opened⟩
        ⟨fortunesOf trouble errand world.web made, .over (fetchThrough trouble errand world).2⟩
        ⟨(fetchThrough trouble errand world).1.files, opened'⟩ := by
  unfold fetchThrough
  rw [if_neg (by omega)]
  exact flies_attempts task trouble errand world.web errand.retries.toNat 1 world 0 rfl rfl rfl
    opened

end Flight

end FeedSieve.Download
