/-
What the file system does to its places.

A tree is a list, but all that can be seen of it is what is at each place
(`at?`). This file says of every change what is at each place afterwards,
and on what the answer to a path depends.

# Places

- `at?_set`, `at?_clear`: a change to a place changes that place alone.
- `walk_concat`: the last name of a path is looked up in the directory that
  the names before it lead to.
- `SameDirectories`: two trees with the same directories lead every path to
  the same place. Nothing that files do to each other changes where a path
  leads.

# Files

`Admits` says that a file may be put at a place: there is a file already,
or nothing in a directory. Writing and moving both succeed where the place
admits a file and nowhere else (`write_eq_ok_iff`, `move_eq_ok_iff`).
-/
import Mathlib.Data.List.Basic
import Mathlib.Data.List.Induction
import FeedSieve.Files.Tree

namespace FeedSieve.Files.Tree

variable {t t' : Tree} {p target : Path} {place other goal : Place} {node : Node}
  {names : List Text} {name : Text} {content : Bytes} {mode : Nat}

-- ============================================================= places

/-- The root is a directory, whatever a tree says. -/
@[simp] theorem at?_nil (t : Tree) : t.at? [] = some .directory := rfl

/-- What is anywhere else stands in the list. -/
theorem at?_of_ne_nil (t : Tree) (h : place ≠ []) : t.at? place = t.nodes.lookup place := by
  cases place with
  | nil => exact absurd rfl h
  | cons name rest => rfl

/-- What stands first is found at its own key alone. -/
private theorem lookup_cons_eq (key other : Place) (node : Node) (rest : List (Place × Node)) :
    ((key, node) :: rest).lookup other
      = if other = key then some node else rest.lookup other := by
  rw [List.lookup_cons]
  by_cases hother : other = key
  · simp [hother]
  · have : (other == key) = false := by simpa using hother
    rw [this, if_neg hother]

/-- Changing what stands at a key of a list changes it there alone. -/
private theorem lookup_map_set (nodes : List (Place × Node)) (place other : Place)
    (node : Node) :
    (nodes.map fun n => if n.1 == place then (place, node) else n).lookup other
      = if other = place then (nodes.lookup place).map fun _ => node
        else nodes.lookup other := by
  induction nodes with
  | nil => simp
  | cons first rest ih =>
      obtain ⟨key, old⟩ := first
      rw [List.map_cons]
      by_cases hkey : key = place
      · subst hkey
        simp only [beq_self_eq_true, if_true]
        rw [lookup_cons_eq, ih]
        by_cases hother : other = key
        · simp [hother]
        · simp only [lookup_cons_eq, if_neg hother]
      · have hbeq : (key == place) = false := by simpa using hkey
        simp only [hbeq, Bool.false_eq_true, if_false, lookup_cons_eq, ih]
        by_cases hother : other = place
        · subst hother
          simp [Ne.symm hkey]
        · simp [hother]

/-- The tree with something else at a place has it there and is otherwise as
before. -/
theorem at?_set (t : Tree) (node : Node) (hne : place ≠ []) (other : Place) :
    (t.set place node).at? other = if other = place then some node else t.at? other := by
  by_cases hnil : other = []
  · subst hnil
    rw [at?_nil, at?_nil, if_neg fun h => hne h.symm]
  rw [at?_of_ne_nil _ hnil, at?_of_ne_nil _ hnil]
  unfold set
  split
  case isTrue hany =>
    rw [lookup_map_set]
    by_cases hother : other = place
    · have hsome : t.nodes.lookup place ≠ none := by
        rw [Ne, List.lookup_eq_none_iff]
        intro hall
        obtain ⟨entry, hentry, hkey⟩ := List.any_eq_true.mp hany
        have := hall entry hentry
        simp only [beq_iff_eq] at hkey
        simp [hkey] at this
      obtain ⟨old, hold⟩ := Option.ne_none_iff_exists'.mp hsome
      rw [if_pos hother, if_pos hother, hold, Option.map_some]
    · rw [if_neg hother, if_neg hother]
  case isFalse hany =>
    rw [List.lookup_append]
    by_cases hother : other = place
    · subst hother
      have hnone : t.nodes.lookup other = none := by
        rw [List.lookup_eq_none_iff]
        intro entry hentry
        have hkey : ¬ entry.1 = other := by
          intro hkey
          exact hany (List.any_eq_true.mpr ⟨entry, hentry, by simpa using hkey⟩)
        simpa using fun h => hkey h.symm
      simp [hnone]
    · rw [lookup_cons_eq, if_neg hother, if_neg hother, List.lookup_nil, Option.or_none]

/-- The tree with nothing at a place is otherwise as before. -/
theorem at?_clear (t : Tree) (hne : place ≠ []) (other : Place) :
    (t.clear place).at? other = if other = place then none else t.at? other := by
  by_cases hnil : other = []
  · subst hnil
    rw [at?_nil, at?_nil, if_neg fun h => hne h.symm]
  rw [at?_of_ne_nil _ hnil, at?_of_ne_nil _ hnil]
  unfold clear
  obtain ⟨nodes⟩ := t
  induction nodes with
  | nil => simp
  | cons first rest ih =>
      obtain ⟨key, old⟩ := first
      simp only [] at ih
      by_cases hkey : key = place
      · subst hkey
        rw [List.filter_cons_of_neg (by simp), ih, lookup_cons_eq]
        by_cases hother : other = key
        · rw [if_pos hother, if_pos hother]
        · rw [if_neg hother, if_neg hother, if_neg hother]
      · rw [List.filter_cons_of_pos (by simpa using hkey), lookup_cons_eq, lookup_cons_eq, ih]
        by_cases hother : other = key
        · rw [if_pos hother, if_pos hother, if_neg fun h => hkey (hother.symm.trans h)]
        · rw [if_neg hother, if_neg hother]

/-- A place that holds no directory is not the root. -/
theorem ne_nil_of_at? (h : t.at? place ≠ some .directory) : place ≠ [] := by
  rintro rfl
  exact h (at?_nil t)

/-- A file is no directory. -/
theorem ne_directory_of_file (h : t.at? place = some (.file content mode)) :
    t.at? place ≠ some .directory := by
  rw [h]
  simp

/-- The names in a directory are those of the places in it that hold
something. -/
theorem mem_names_iff (t : Tree) (directory : Place) (name : Text) :
    name ∈ t.names directory ↔ t.at? (directory ++ [name]) ≠ none := by
  have hne : directory ++ [name] ≠ [] := List.append_ne_nil_of_right_ne_nil _ (by simp)
  rw [at?_of_ne_nil t hne, Ne, List.lookup_eq_none_iff]
  unfold names
  rw [List.mem_filterMap]
  constructor
  · rintro ⟨⟨place, node⟩, hmem, hlast⟩ hall
    simp only at hlast
    split at hlast
    case isFalse => cases hlast
    case isTrue hdirectory =>
      have hplace : place = directory ++ [name] := by
        rw [← beq_iff_eq.mp hdirectory]
        exact (List.dropLast_append_getLast? name hlast).symm
      have := hall _ hmem
      simp [hplace] at this
  · intro hnot
    simp only [not_forall] at hnot
    obtain ⟨⟨place, node⟩, hmem, hkey⟩ := hnot
    have hplace : directory ++ [name] = place := by simpa using hkey
    refine ⟨(place, node), hmem, ?_⟩
    rw [← hplace]
    simp

-- ============================================================ walking

/-- The step to the last name of a path is one like the others, from a
directory. -/
theorem walk_concat (t : Tree) (place goal : Place) (names : List Text) (name : Text) :
    t.walk place (names ++ [name]) = .ok goal
      ↔ ∃ directory, t.walk place names = .ok directory
        ∧ (names = [] ∨ t.at? directory = some .directory)
        ∧ t.walk directory [name] = .ok goal := by
  induction names generalizing place with
  | nil =>
      constructor
      · intro h
        exact ⟨place, rfl, Or.inl rfl, h⟩
      · rintro ⟨directory, hwalk, -, h⟩
        obtain rfl := Except.ok.inj hwalk
        exact h
  | cons first rest ih =>
      have hrest : (rest ++ [name]).isEmpty = false := by
        cases rest <;> rfl
      rw [List.cons_append, walk, walk]
      generalize (if first = "..".toList then Except.ok place.dropLast
        else if nameLimit < Utf8.size first then .error Reason.nameTooLong
        else .ok (place ++ [first]) : Except Reason Place) = next
      cases next with
      | error reason => simp
      | ok next =>
          simp only [hrest, Bool.false_eq_true, if_false, reduceCtorEq, false_or]
          cases rest with
          | nil =>
              simp only [List.nil_append, List.isEmpty_nil, if_true, Except.ok.injEq,
                exists_eq_left']
              cases hat : t.at? next with
              | none => simp
              | some node => cases node <;> simp
          | cons second more =>
              simp only [List.isEmpty_cons, Bool.false_eq_true, if_false]
              cases hat : t.at? next with
              | none => simp
              | some node =>
                  cases node with
                  | file content mode => simp
                  | directory =>
                      have := ih next
                      simp only [reduceCtorEq, false_or] at this
                      exact this

/-- Where a single name leads. -/
theorem walk_singleton_eq_ok_iff (t : Tree) (place goal : Place) (name : Text) :
    t.walk place [name] = .ok goal
      ↔ name = "..".toList ∧ goal = place.dropLast
        ∨ name ≠ "..".toList ∧ Utf8.size name ≤ nameLimit ∧ goal = place ++ [name] := by
  rw [walk]
  by_cases hback : name = "..".toList
  · rw [if_pos hback]
    simp [hback, eq_comm]
  · rw [if_neg hback]
    by_cases hlong : nameLimit < Utf8.size name
    · rw [if_pos hlong]
      have hnot : ¬ Utf8.size name ≤ nameLimit := by omega
      simp only [reduceCtorEq, hback, false_and, hnot, and_false, or_self]
    · rw [if_neg hlong]
      have hshort : Utf8.size name ≤ nameLimit := by omega
      simp only [List.isEmpty_nil, if_true, Except.ok.injEq, hback, false_and, ne_eq,
        not_false_iff, hshort, true_and, false_or, eq_comm]

/-- Behind a directory it is that step, whether it succeeds or not. -/
theorem walk_concat_eq (hwalk : t.walk place names = .ok goal)
    (hdirectory : t.at? goal = some .directory) (name : Text) :
    t.walk place (names ++ [name]) = t.walk goal [name] := by
  induction names generalizing place with
  | nil =>
      obtain rfl := Except.ok.inj hwalk
      rfl
  | cons first rest ih =>
      have hrest : (rest ++ [name]).isEmpty = false := by
        cases rest <;> rfl
      rw [walk] at hwalk
      rw [List.cons_append, walk]
      generalize (if first = "..".toList then Except.ok place.dropLast
        else if nameLimit < Utf8.size first then .error Reason.nameTooLong
        else .ok (place ++ [first]) : Except Reason Place) = next at hwalk ⊢
      cases next with
      | error reason => cases hwalk
      | ok next =>
          simp only [hrest, Bool.false_eq_true, if_false] at hwalk ⊢
          cases rest with
          | nil =>
              simp only [List.isEmpty_nil, if_true, Except.ok.injEq] at hwalk
              subst hwalk
              simp only [hdirectory, List.nil_append]
          | cons second more =>
              simp only [List.isEmpty_cons, Bool.false_eq_true, if_false] at hwalk
              cases hat : t.at? next with
              | none => simp [hat] at hwalk
              | some node =>
                  cases node with
                  | file content mode => simp [hat] at hwalk
                  | directory =>
                      simp only [hat] at hwalk ⊢
                      exact ih hwalk

/-- A path is found where it leads, if it is a path at all. -/
theorem find_eq_ok_iff :
    t.find p = .ok place ↔ '\x00' ∉ p.text ∧ t.place p = .ok place := by
  unfold find
  by_cases hnul : '\x00' ∈ p.text
  · simp [hnul]
  · simp only [List.contains_eq_mem, hnul, decide_false, Bool.false_eq_true, if_false]
    cases t.place p <;> simp

/-- What finds a place first has a result if there is one, and the rest has. -/
private theorem find_bind_eq_ok_iff {α : Type} {rest : Place → Except Fault α} {a : α} :
    (t.find p >>= rest) = .ok a ↔ ∃ place, t.find p = .ok place ∧ rest place = .ok a := by
  cases t.find p <;> simp [bind, Except.bind]

/-- What is at a path is what is at its place. -/
theorem stat_eq_ok_iff :
    t.stat p = .ok node ↔ ∃ place, t.find p = .ok place ∧ t.at? place = some node := by
  unfold stat
  rw [find_bind_eq_ok_iff]
  refine exists_congr fun place => and_congr_right fun _ => ?_
  cases t.at? place <;> simp [pure, Except.pure, throw, throwThe, MonadExceptOf.throw]

/-- Nothing is at a path whose place holds nothing. -/
theorem stat_eq_missing (hfind : t.find p = .ok place) (hat : t.at? place = none) :
    t.stat p = .error (.refused .missing p.text none) := by
  unfold stat
  simp only [hfind, bind, Except.bind, hat]
  rfl

/-- What can be read at a path is the file at its place. -/
theorem read_eq_ok_iff :
    t.read p = .ok content
      ↔ ∃ place mode, t.find p = .ok place ∧ t.at? place = some (.file content mode) := by
  unfold read
  cases hstat : t.stat p with
  | error fault =>
      simp only [bind, Except.bind, reduceCtorEq, false_iff]
      rintro ⟨place, mode, hfind, hat⟩
      rw [stat_eq_ok_iff.mpr ⟨place, hfind, hat⟩] at hstat
      cases hstat
  | ok node =>
      obtain ⟨place, hfind, hat⟩ := stat_eq_ok_iff.mp hstat
      simp only [bind, Except.bind, hfind, Except.ok.injEq, exists_and_left, exists_eq_left', hat,
        Option.some.injEq]
      cases node with
      | directory => simp [throw, throwThe, MonadExceptOf.throw]
      | file bytes mode => simp [pure, Except.pure]

/-- Trees that hold the same everywhere lead a walk to the same end. -/
private theorem walk_congr (h : ∀ place, t'.at? place = t.at? place) (place : Place)
    (names : List Text) : t'.walk place names = t.walk place names := by
  induction names generalizing place with
  | nil => rfl
  | cons name rest ih =>
      rw [walk, walk]
      simp only [h, ih]

/-- They hold the same at every path. -/
theorem stat_congr (h : ∀ place, t'.at? place = t.at? place) (p : Path) :
    t'.stat p = t.stat p := by
  have hplace : t'.place p = t.place p := by
    unfold Tree.place
    rw [walk_congr h]
  have hfind : t'.find p = t.find p := by
    unfold find
    rw [hplace]
  unfold stat
  simp only [hfind, h]

/-- What is at a path depends on its place alone. -/
theorem stat_eq_of_find (hfind : t.find p = .ok place) (hfind' : t'.find p = .ok place)
    (hat : t'.at? place = t.at? place) : t'.stat p = t.stat p := by
  unfold stat
  simp only [hfind, hfind', bind, Except.bind, hat]

/-- There is a directory at a path whose place holds one. -/
theorem isDirectory?_eq_ok_true_iff :
    t.isDirectory? p = .ok true
      ↔ ∃ place, t.find p = .ok place ∧ t.at? place = some .directory := by
  rw [← stat_eq_ok_iff]
  unfold isDirectory? check
  split
  case h_1 node hstat => simp [hstat]
  case h_2 hstat => simp [hstat]
  case h_3 fault _ hstat => simp [hstat]

/-- The names at a path are those in the directory there. -/
theorem namesAt_eq (hfind : t.find p = .ok place) (hat : t.at? place = some .directory) :
    t.namesAt p = .ok (t.names place) := by
  unfold namesAt
  rw [isDirectory?_eq_ok_true_iff.mpr ⟨place, hfind, hat⟩, hfind]
  rfl

/-- Only a directory has names. -/
theorem isDirectory?_of_mem_namesAt (h : t.namesAt p = .ok names) (hmem : name ∈ names) :
    t.isDirectory? p = .ok true := by
  unfold namesAt at h
  split at h
  case h_1 => cases h
  case h_2 =>
    obtain rfl := Except.ok.inj h
    cases hmem
  case h_3 hdirectory => exact hdirectory

-- ======================================================== directories

/-- Two trees have the same directories. -/
def SameDirectories (t t' : Tree) : Prop :=
  ∀ place, t'.at? place = some .directory ↔ t.at? place = some .directory

/-- Every tree has the directories it has. -/
theorem SameDirectories.refl (t : Tree) : SameDirectories t t := fun _ => Iff.rfl

theorem SameDirectories.symm (h : SameDirectories t t') : SameDirectories t' t :=
  fun place => (h place).symm

theorem SameDirectories.trans {t'' : Tree} (h : SameDirectories t t')
    (h' : SameDirectories t' t'') : SameDirectories t t'' :=
  fun place => (h' place).trans (h place)

/-- A walk goes through directories only. -/
theorem SameDirectories.walk_eq_ok (h : SameDirectories t t') (place goal : Place)
    (names : List Text) : t'.walk place names = .ok goal ↔ t.walk place names = .ok goal := by
  induction names using List.reverseRecOn generalizing goal with
  | nil => rfl
  | append_singleton names name ih =>
      simp only [walk_concat, ih, h _, walk_singleton_eq_ok_iff]

/-- A path leads to the same place. -/
theorem SameDirectories.place_eq_ok (h : SameDirectories t t') :
    t'.place p = .ok place ↔ t.place p = .ok place := by
  unfold Tree.place
  split
  · rfl
  · exact h.walk_eq_ok _ _ _

/-- A path is found at the same place. -/
theorem SameDirectories.find_eq_ok (h : SameDirectories t t') :
    t'.find p = .ok place ↔ t.find p = .ok place := by
  rw [find_eq_ok_iff, find_eq_ok_iff, h.place_eq_ok]

/-- Trees that differ at one place only, where neither has a directory, have
the same directories. -/
theorem SameDirectories.of_elsewhere (h : t.at? place ≠ some .directory)
    (h' : t'.at? place ≠ some .directory)
    (helsewhere : ∀ spot, spot ≠ place → t'.at? spot = t.at? spot) : SameDirectories t t' := by
  intro spot
  by_cases hspot : spot = place
  · subst hspot
    exact iff_of_false h' h
  · rw [helsewhere spot hspot]

/-- Putting a file where no directory is changes no directory. -/
theorem sameDirectories_set (h : t.at? place ≠ some .directory) (content : Bytes)
    (mode : Nat) : SameDirectories t (t.set place (.file content mode)) := by
  have hset := at?_set t (.file content mode) (ne_nil_of_at? h)
  refine .of_elsewhere h (by rw [hset, if_pos rfl]; simp) fun spot hspot => ?_
  rw [hset, if_neg hspot]

/-- Nor does taking one away. -/
theorem sameDirectories_clear (h : t.at? place ≠ some .directory) :
    SameDirectories t (t.clear place) := by
  have hclear := at?_clear t (ne_nil_of_at? h)
  refine .of_elsewhere h (by rw [hclear, if_pos rfl]; simp) fun spot hspot => ?_
  rw [hclear, if_neg hspot]

-- ============================================================ children

/-- A name in a directory leads to its place there. -/
theorem find_child (hfind : t.find p = .ok place) (hname : name ≠ "..".toList)
    (hchild : t.find (p.child name) = .ok goal) : goal = place ++ [name] := by
  have hplace := (find_eq_ok_iff.mp hfind).2
  have hchild := (find_eq_ok_iff.mp hchild).2
  unfold Tree.place at hplace hchild
  split at hplace
  case isTrue => cases hplace
  case isFalse =>
    split at hchild
    case isTrue => cases hchild
    case isFalse =>
      obtain ⟨directory, hwalk, -, hlast⟩ := (walk_concat t _ _ _ _).mp hchild
      obtain rfl := Except.ok.inj (hwalk.symm.trans hplace)
      rcases (walk_singleton_eq_ok_iff t _ _ _).mp hlast with ⟨hback, -⟩ | ⟨-, -, h⟩
      · exact absurd hback hname
      · exact h

/-- The step to it is one from the directory, whether it succeeds or not. -/
theorem place_child_eq (hfind : t.find p = .ok place)
    (hat : t.at? place = some .directory) (name : Text) :
    t.place (p.child name) = if pathLimit ≤ Utf8.size (p.child name).text then
      .error .nameTooLong else t.walk place [name] := by
  have hplace := (find_eq_ok_iff.mp hfind).2
  unfold Tree.place at hplace ⊢
  split at hplace
  case isTrue => cases hplace
  case isFalse =>
    rw [← walk_concat_eq hplace hat name]
    rfl

/-- What is at a name in a directory depends on its place alone. -/
theorem stat_child_eq (hfind : t.find p = .ok place) (hat : t.at? place = some .directory)
    (hfind' : t'.find p = .ok place) (hat' : t'.at? place = some .directory)
    (hname : name ≠ "..".toList) (hsame : t'.at? (place ++ [name]) = t.at? (place ++ [name])) :
    t'.stat (p.child name) = t.stat (p.child name) := by
  have hplace : t'.place (p.child name) = t.place (p.child name) := by
    rw [place_child_eq hfind hat, place_child_eq hfind' hat']
    rfl
  have hchild : t'.find (p.child name) = t.find (p.child name) := by
    unfold find
    rw [hplace]
  cases hgoal : t.find (p.child name) with
  | ok goal =>
      obtain rfl := find_child hfind hname hgoal
      exact stat_eq_of_find hgoal (hchild.trans hgoal) hsame
  | error fault =>
      unfold stat
      rw [hchild, hgoal]
      rfl

-- ======================================================== making directories

/-- A directory is made where the path leads, if nothing is there. -/
theorem makeOne_eq_ok_iff :
    t.makeOne p = .ok t' ↔ ∃ place, t.find p = .ok place ∧ t.at? place = none
      ∧ t' = t.set place .directory := by
  unfold makeOne
  rw [find_bind_eq_ok_iff]
  refine exists_congr fun place => and_congr_right fun _ => ?_
  cases t.at? place with
  | none => simp [pure, Except.pure, eq_comm]
  | some node => simp [throw, throwThe, MonadExceptOf.throw]

-- ============================================================== files

/-- A file may be put at a place: there is one, or nothing in a directory. -/
def Admits (t : Tree) (place : Place) : Prop :=
  t.at? place ≠ some .directory
    ∧ (t.at? place = none → t.at? place.dropLast = some .directory)

/-- A file is written where the path leads, if a file may be there. -/
theorem write_eq_ok_iff :
    t.write p content mode = .ok t' ↔ ∃ place, t.find p = .ok place ∧ t.Admits place
      ∧ t' = t.set place (.file content (match t.at? place with
        | some (.file _ old) => old
        | _ => mode)) := by
  unfold write Admits
  rw [find_bind_eq_ok_iff]
  refine exists_congr fun place => and_congr_right fun _ => ?_
  cases t.at? place with
  | some node =>
      cases node with
      | directory => simp [throw, throwThe, MonadExceptOf.throw]
      | file old mode => simp [pure, Except.pure, eq_comm]
  | none =>
      cases t.at? place.dropLast with
      | none => simp [throw, throwThe, MonadExceptOf.throw]
      | some node =>
          cases node with
          | directory => simp [pure, Except.pure, eq_comm]
          | file old mode => simp [throw, throwThe, MonadExceptOf.throw]

/-- What has been written is there. -/
theorem stat_write (h : t.write p content mode = .ok t') :
    ∃ mode', t'.stat p = .ok (.file content mode') := by
  obtain ⟨place, hfind, hadmits, hset⟩ := write_eq_ok_iff.mp h
  obtain ⟨mode', rfl⟩ : ∃ mode', t' = t.set place (.file content mode') := ⟨_, hset⟩
  have hfind' := (sameDirectories_set hadmits.1 content mode').find_eq_ok.mpr hfind
  refine ⟨mode', stat_eq_ok_iff.mpr ⟨place, hfind', ?_⟩⟩
  rw [at?_set t _ (ne_nil_of_at? hadmits.1), if_pos rfl]

/-- A piece is written into the file that the path leads to, if there is one. -/
theorem writeAt_eq_ok_iff {offset : Nat} {piece : Bytes} :
    t.writeAt p offset piece = .ok t' ↔ ∃ place content mode, t.find p = .ok place
      ∧ t.at? place = some (.file content mode)
      ∧ t' = t.set place (.file (overwritten content offset piece) mode) := by
  unfold writeAt
  rw [find_bind_eq_ok_iff]
  refine exists_congr fun place => ?_
  cases t.at? place with
  | none => simp [throw, throwThe, MonadExceptOf.throw]
  | some node =>
      cases node with
      | directory => simp [throw, throwThe, MonadExceptOf.throw]
      | file content mode => simp [pure, Except.pure, eq_comm]

/-- The file that a path leads to gets another mode. -/
theorem setMode_of_file (hfind : t.find p = .ok place)
    (hat : t.at? place = some (.file content mode)) (mode' : Nat) :
    t.setMode p mode' = .ok (t.set place (.file content mode')) := by
  unfold setMode
  simp only [hfind, bind, Except.bind, hat]
  rfl

/-- A file is taken away from where the path leads, if it is there. -/
theorem remove_eq_ok_iff :
    t.remove p = .ok t' ↔ ∃ place content mode, t.find p = .ok place
      ∧ t.at? place = some (.file content mode) ∧ t' = t.clear place := by
  unfold remove
  rw [find_bind_eq_ok_iff]
  refine exists_congr fun place => ?_
  cases t.at? place with
  | none => simp [throw, throwThe, MonadExceptOf.throw]
  | some node =>
      cases node with
      | directory => simp [throw, throwThe, MonadExceptOf.throw]
      | file content mode => simp [pure, Except.pure, eq_comm]

/-- What is at the one path is moved to where the other leads, if a file may
be there. -/
theorem move_eq_ok_iff (hne : target.parts ≠ [] → target.name ≠ "..".toList →
      ∀ place, t.place p = .ok place → t.place target ≠ .ok place) :
    t.move p target = .ok t' ↔ ∃ source goal node, t.place p = .ok source
      ∧ t.place target = .ok goal ∧ target.parts ≠ [] ∧ target.name ≠ "..".toList
      ∧ t.at? source = some node ∧ t.Admits goal ∧ t' = (t.clear source).set goal node := by
  unfold move
  cases hsource : t.place p with
  | error fault => simp [bind, Except.bind, Except.mapError]
  | ok source =>
  cases hgoal : t.place target with
  | error fault => simp [bind, Except.bind, Except.mapError]
  | ok goal =>
  simp only [bind, Except.bind, Except.mapError, Bool.or_eq_true, List.isEmpty_iff,
    decide_eq_true_eq, throw, throwThe, MonadExceptOf.throw, pure, Except.pure]
  by_cases hpoints : target.parts = [] ∨ target.name = "..".toList
  · rw [if_pos hpoints]
    constructor
    · intro h
      cases h
    · rintro ⟨_, _, _, -, -, hparts, hname, -⟩
      rcases hpoints with h | h
      · exact absurd h hparts
      · exact absurd h hname
  · rw [if_neg hpoints]
    obtain ⟨hparts, hname⟩ := not_or.mp hpoints
    have hdiffer : source ≠ goal := by
      rintro rfl
      exact hne hparts hname source hsource hgoal
    constructor
    · intro h
      cases hat : t.at? source with
      | none => simp [hat] at h
      | some node =>
          simp only [hat] at h
          suffices t.Admits goal ∧ (t.clear source).set goal node = t' from
            ⟨source, goal, node, rfl, rfl, hparts, hname, hat, this.1, this.2.symm⟩
          cases hthere : t.at? goal with
          | some there =>
              cases there with
              | directory => simp [hthere] at h
              | file content mode =>
                  simp only [hthere, if_neg hdiffer, Except.ok.injEq] at h
                  exact ⟨⟨by simp [hthere], by simp [hthere]⟩, h⟩
          | none =>
              simp only [hthere] at h
              split at h
              case h_1 hparent =>
                exact ⟨⟨by simp [hthere], fun _ => hparent⟩, Except.ok.inj h⟩
              case h_2 => cases h
              case h_3 => cases h
    · rintro ⟨source', goal', node, hsource', hgoal', -, -, hat, ⟨hplain, hparent⟩, rfl⟩
      obtain rfl := Except.ok.inj hsource'
      obtain rfl := Except.ok.inj hgoal'
      simp only [hat]
      cases hthere : t.at? goal with
      | some there =>
          cases there with
          | directory => exact absurd hthere hplain
          | file content mode => simp only [if_neg hdiffer]
      | none => simp only [hparent hthere]

end FeedSieve.Files.Tree
