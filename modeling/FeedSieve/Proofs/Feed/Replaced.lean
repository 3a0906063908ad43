/-
Writing a feed is all or nothing.

A feed is written to a new file beside the one that is wanted, and only
then moved into place. So whatever the file system refuses on the way, what
was at the wanted path is either replaced by the complete document or
untouched, and the new file is gone in both cases. Nothing else has changed,
except that directories along the path may have been made
(`writeThrough_all_or_nothing`).

# What is assumed, and what goes wrong

The new file has a name that nothing has (`Fresh`). What stands in the way
is the file system (`Obstacle.OfSystem`). A path that is none, since it
holds a null character, is not refused but breaks the writing off: that is
the one way to end badly that is not reported as a feed that cannot be
written.
-/
import FeedSieve.Feed.Write
import FeedSieve.Proofs.Files.Grown
import FeedSieve.Proofs.Files.Refused

namespace FeedSieve.Feed

open Files (Fault Path Place Tree)

variable {obstacle : Obstacle} {mark : Text} {path : Path} {bytes : Bytes}
  {files made begun written after : Tree} {fault : Fault} {place goal : Place}

-- ======================================================== the new file

/-- Nothing has the name of the new file, in whatever directory. -/
structure Fresh (mark : Text) (path : Path) (files : Tree) : Prop where
  nothing : ∀ directory, files.at? (directory ++ [(temporary mark path).name]) = none
  plain : '\x00' ∉ mark

/-- What stands in the way is the file system: it refuses, and does not take
the path for none. -/
def Obstacle.OfSystem (obstacle : Obstacle) : Prop :=
  ∀ fault, obstacle.directory.map (·.2) = some fault ∨ obstacle.start = some fault
    ∨ obstacle.body.map (·.2) = some fault ∨ obstacle.mode = some fault
    ∨ obstacle.finish = some fault → fault ≠ .nul

/-- The name of the new file is longer than that of the wanted one. -/
private theorem temporary_name (mark : Text) (path : Path) :
    (temporary mark path).name = Text.concat [".", path.name, ".", mark, ".tmp"] :=
  Path.name_child _ _

private theorem length_temporary_name (mark : Text) (path : Path) :
    path.name.length + 6 ≤ (temporary mark path).name.length := by
  rw [temporary_name]
  simp [Text.concat]

private theorem temporary_name_ne_back (mark : Text) (path : Path) :
    (temporary mark path).name ≠ "..".toList := by
  intro h
  have hlength := length_temporary_name mark path
  rw [h] at hlength
  simp at hlength

/-- The path of the new file leads to its name in some directory. -/
theorem place_of_temporary (h : files.place (temporary mark path) = .ok place) :
    ∃ directory, place = directory ++ [(temporary mark path).name] := by
  unfold Tree.place at h
  split at h
  case isTrue => cases h
  case isFalse =>
    obtain ⟨directory, -, -, hlast⟩ := (Tree.walk_concat files _ _ _ _).mp h
    rw [Tree.walk_singleton_eq_ok_iff] at hlast
    rcases hlast with ⟨hback, -⟩ | ⟨-, -, hplace⟩
    · exact absurd ((temporary_name mark path).trans hback) (temporary_name_ne_back mark path)
    · exact ⟨directory, by rw [temporary_name]; exact hplace⟩

/-- The wanted path leads to its last name, if that does not lead back. -/
private theorem place_eq_concat (hparts : path.parts ≠ []) (hname : path.name ≠ "..".toList)
    (h : files.place path = .ok place) : ∃ directory, place = directory ++ [path.name] := by
  have hsplit : path.parts = path.parts.dropLast ++ [path.name] := by
    unfold Path.name
    rw [List.getLast?_eq_some_getLast hparts, Option.getD_some, List.dropLast_append_getLast]
  unfold Tree.place at h
  split at h
  case isTrue => cases h
  case isFalse =>
    rw [hsplit] at h
    obtain ⟨directory, -, -, hlast⟩ := (Tree.walk_concat files _ _ _ _).mp h
    rw [Tree.walk_singleton_eq_ok_iff] at hlast
    rcases hlast with ⟨hback, -⟩ | ⟨-, -, hplace⟩
    · exact absurd hback hname
    · exact ⟨directory, hplace⟩

/-- It does not lead to a new file: the names differ in length. -/
private theorem concat_name_ne (mark : Text) (path : Path) (directory other : Place) :
    directory ++ [path.name] ≠ other ++ [(temporary mark path).name] := by
  intro h
  have hsame := List.singleton_inj.mp (List.append_inj' h rfl).2
  have hlength := length_temporary_name mark path
  rw [← hsame] at hlength
  omega

private theorem place_ne_of_temporary (hparts : path.parts ≠ []) (hname : path.name ≠ "..".toList)
    (source : Place) (hsource : files.place (temporary mark path) = .ok source) :
    files.place path ≠ .ok source := by
  intro hgoal
  obtain ⟨other, rfl⟩ := place_of_temporary hsource
  obtain ⟨directory, hsame⟩ := place_eq_concat hparts hname hgoal
  exact concat_name_ne mark path directory other hsame.symm

/-- Its path is one if the wanted path is. -/
private theorem nul_notMem_temporary (hmark : '\x00' ∉ mark) (hnul : '\x00' ∉ path.text) :
    '\x00' ∉ (temporary mark path).text := by
  have hnames : ∀ name ∈ path.parts, '\x00' ∉ name := fun name hname hmem =>
    hnul (Path.nul_mem_text_iff.mpr ⟨name, hname, hmem⟩)
  have hlast : '\x00' ∉ path.name := by
    unfold Path.name
    cases hlast : path.parts.getLast? with
    | none => simp
    | some name => exact hnames name (List.mem_of_getLast? hlast)
  -- the names that two points do not lead back from are names of the path
  have hkept : ∀ step : List Text → Text → List Text,
      (∀ before name, step before name ⊆ name :: before) →
      ∀ names before : List Text, (∀ name ∈ names, '\x00' ∉ name) →
      (∀ name ∈ before, '\x00' ∉ name) → ∀ name ∈ names.foldl step before, '\x00' ∉ name := by
    intro step hstep names
    induction names with
    | nil => exact fun before _ hbefore => hbefore
    | cons first rest ih =>
        intro before hnames hbefore
        refine ih _ (fun name hname => hnames name (List.mem_cons_of_mem _ hname)) ?_
        intro name hname
        rcases List.mem_cons.mp (hstep before first hname) with rfl | hname
        · exact hnames name List.mem_cons_self
        · exact hbefore name hname
  intro hmem
  obtain ⟨name, hname, hmem⟩ := Path.nul_mem_text_iff.mp hmem
  rcases List.mem_append.mp hname with hname | hname
  · have hdropped : ∀ name ∈ path.parent.parts, '\x00' ∉ name :=
      fun name hname => hnames name (List.dropLast_subset _ hname)
    refine hkept _ ?_ _ [] hdropped (by simp) name (List.mem_reverse.mp hname) hmem
    intro before name
    split
    · split
      · exact fun _ h => List.mem_cons_of_mem _ (List.mem_cons_of_mem _ h)
      · exact List.Subset.refl _
    · exact List.Subset.refl _
  · obtain rfl := List.mem_singleton.mp hname
    simp [Text.concat, hlast, hmark] at hmem

/-- The wanted path is one if it leads to a directory and a new file there. -/
private theorem nul_notMem_path (hparent : '\x00' ∉ path.parent.text)
    (htemporary : '\x00' ∉ (temporary mark path).text) : '\x00' ∉ path.text := by
  intro hmem
  obtain ⟨name, hname, hnul⟩ := Path.nul_mem_text_iff.mp hmem
  have hparts : path.parts ≠ [] := List.ne_nil_of_mem hname
  rw [← List.dropLast_append_getLast hparts, List.mem_append, List.mem_singleton] at hname
  rcases hname with hname | rfl
  · exact hparent (Path.nul_mem_text_iff.mpr ⟨name, hname, hnul⟩)
  · refine htemporary (Path.nul_mem_text_iff.mpr
      ⟨_, List.mem_append_right _ (List.mem_singleton_self _), ?_⟩)
    have hlast : path.name = path.parts.getLast hparts := by
      unfold Path.name
      rw [List.getLast?_eq_some_getLast hparts, Option.getD_some]
    simp [Text.concat, hlast, hnul]

-- ============================================================ the steps

/-- Making the directory makes some of those along the path. -/
private theorem makeParent_spec (obstacle : Obstacle) (path : Path) (files : Tree) :
    Tree.GrownAlong path.parent files (makeParent obstacle path files).1 := by
  unfold makeParent
  cases obstacle.directory with
  | none => exact Tree.makeAll_along files path.parent
  | some refused =>
      exact (Tree.makeAll_along files ⟨path.root, path.parent.parts.take refused.1⟩).mono
        (List.take_prefix _ _)

/-- It has been made only if its path is one. -/
private theorem nul_notMem_parent (h : (makeParent obstacle path files).2 = none) :
    '\x00' ∉ path.parent.text := by
  intro hnul
  unfold makeParent at h
  cases hdirectory : obstacle.directory with
  | none => simp [hdirectory, Tree.makeAll_eq_nul hnul] at h
  | some refused => simp [hdirectory] at h

private theorem makeParent_ne_nul (files : Tree) (hsystem : obstacle.OfSystem)
    (hnul : '\x00' ∉ path.text) :
    (makeParent obstacle path files).2 ≠ some .nul := by
  unfold makeParent
  cases hdirectory : obstacle.directory with
  | none =>
      refine Tree.makeAll_ne_nul fun hmem => ?_
      obtain ⟨name, hname, hmem⟩ := Path.nul_mem_text_iff.mp hmem
      exact hnul (Path.nul_mem_text_iff.mpr ⟨name, List.dropLast_subset _ hname, hmem⟩)
  | some refused =>
      have := hsystem refused.2 (Or.inl (by rw [hdirectory]; rfl))
      simpa using this

/-- A new file has been begun where nothing was. -/
private theorem begun_spec (hfresh : Fresh mark path files) (hgrown : files.Grown made)
    (hbegin : granted obstacle.start (made.write (temporary mark path) [] Files.privateMode)
      = .ok begun) :
    ∃ place, made.find (temporary mark path) = .ok place ∧ made.at? place = none
      ∧ begun = made.set place (.file [] Files.privateMode) := by
  have hwrite : made.write (temporary mark path) [] Files.privateMode = .ok begun := by
    unfold granted at hbegin
    split at hbegin
    · cases hbegin
    · exact hbegin
  obtain ⟨place, hfind, hadmits, rfl⟩ := Tree.write_eq_ok_iff.mp hwrite
  obtain ⟨directory, hplace⟩ := place_of_temporary (Tree.find_eq_ok_iff.mp hfind).2
  -- only a directory could have been made there, and there a file may not be begun
  have hnone : made.at? place = none := by
    have hnothing := hfresh.nothing directory
    rw [← hplace] at hnothing
    rcases hgrown place with hsame | ⟨-, hmade⟩
    · exact hsame.trans hnothing
    · exact absurd hmade hadmits.1
  refine ⟨place, hfind, hnone, ?_⟩
  rw [hnone]

/-- What holds of the files while the new one is being written: it is there,
and nothing else has changed. -/
structure Underway (made : Tree) (place : Place) (content : Bytes) (mode : Nat) (t : Tree) :
    Prop where
  nothing : made.at? place = none
  here : t.at? place = some (.file content mode)
  elsewhere : ∀ spot, spot ≠ place → t.at? spot = made.at? spot

namespace Underway

variable {content content' : Bytes} {mode mode' : Nat} {t : Tree}

/-- The new file is not the root. -/
private theorem ne_nil (h : Underway made place content mode t) : place ≠ [] := by
  rintro rfl
  cases h.nothing

theorem start (hnone : made.at? place = none) :
    Underway made place content mode (made.set place (.file content mode)) := by
  have hset := Tree.at?_set made (.file content mode)
    (Tree.ne_nil_of_at? (t := made) (by simp [hnone]) : place ≠ [])
  refine ⟨hnone, by rw [hset, if_pos rfl], fun spot hspot => ?_⟩
  rw [hset, if_neg hspot]

/-- It stays there with another content or mode. -/
theorem set (h : Underway made place content mode t) :
    Underway made place content' mode' (t.set place (.file content' mode')) := by
  have hset := Tree.at?_set t (.file content' mode') h.ne_nil
  refine ⟨h.nothing, by rw [hset, if_pos rfl], fun spot hspot => ?_⟩
  rw [hset, if_neg hspot]
  exact h.elsewhere spot hspot

/-- The directories are those that were made. -/
theorem sameDirectories (h : Underway made place content mode t) : made.SameDirectories t :=
  .of_elsewhere (by simp [h.nothing]) (by simp [h.here]) h.elsewhere

/-- When it is taken away all is as it was. -/
theorem clear (h : Underway made place content mode t) (spot : Place) :
    (t.clear place).at? spot = made.at? spot := by
  rw [Tree.at?_clear t h.ne_nil]
  by_cases hspot : spot = place
  · rw [if_pos hspot, hspot, h.nothing]
  · rw [if_neg hspot]
    exact h.elsewhere spot hspot

/-- When it is moved it is at the other place, and nowhere else. -/
theorem move (h : Underway made place content mode t) (hgoal : made.at? goal ≠ some .directory)
    (spot : Place) :
    ((t.clear place).set goal (.file content mode)).at? spot
      = if spot = goal then some (.file content mode) else made.at? spot := by
  rw [Tree.at?_set _ _ (Tree.ne_nil_of_at? hgoal)]
  by_cases hspot : spot = goal
  · rw [if_pos hspot, if_pos hspot]
  · rw [if_neg hspot, if_neg hspot]
    exact h.clear spot

end Underway

/-- The new file is written, in full or in part. -/
private theorem writeBody_spec {mode : Nat} (obstacle : Obstacle) (bytes : Bytes)
    (hfind : begun.find (temporary mark path) = .ok place)
    (h : Underway made place [] mode begun) :
    match writeBody obstacle (temporary mark path) bytes begun with
    | (written, some fault) => obstacle.body.map (·.2) = some fault
        ∧ ∃ content, Underway made place content mode written
    | (written, none) => Underway made place bytes mode written := by
  have hwrites : ∀ piece : Bytes, begun.writeAt (temporary mark path) 0 piece
      = .ok (begun.set place (.file piece mode)) := by
    intro piece
    refine Tree.writeAt_eq_ok_iff.mpr ⟨place, [], mode, hfind, h.here, ?_⟩
    simp [Tree.overwritten]
  unfold writeBody
  cases obstacle.body with
  | some refused =>
      simp only [hwrites, Except.toOption, Option.getD_some]
      exact ⟨rfl, _, h.set⟩
  | none =>
      simp only [hwrites]
      exact h.set

/-- The new file gets its mode and is moved to where the path leads, or that
is refused. -/
private theorem settle_spec {mode : Nat} (hsystem : obstacle.OfSystem)
    (hfind : written.find (temporary mark path) = .ok place)
    (h : Underway made place bytes mode written) :
    match settle obstacle (temporary mark path) path written with
    | .ok after => ∃ directory, made.place path = .ok (directory ++ [path.name])
        ∧ made.at? (directory ++ [path.name]) ≠ some .directory
        ∧ ∀ spot, after.at? spot = if spot = directory ++ [path.name] then
            some (.file bytes Files.plainMode) else made.at? spot
    | .error fault => fault ≠ .nul := by
  have hmode := Tree.setMode_of_file hfind h.here Files.plainMode
  unfold settle
  cases hrefused : obstacle.mode with
  | some fault => exact hsystem fault (Or.inr (Or.inr (Or.inr (Or.inl hrefused))))
  | none =>
      have hset : Underway made place bytes Files.plainMode
          (written.set place (.file bytes Files.plainMode)) := h.set
      have hdirs := hset.sameDirectories
      simp only [granted, hmode, bind, Except.bind]
      cases hfinish : obstacle.finish with
      | some fault => exact hsystem fault (Or.inr (Or.inr (Or.inr (Or.inr hfinish))))
      | none =>
          simp only
          cases hmove : (written.set place (.file bytes Files.plainMode)).move
              (temporary mark path) path with
          | error fault =>
              rintro rfl
              exact Tree.move_ne_nul path hmove
          | ok after =>
              obtain ⟨source, goal, node, hsource, hgoal, hparts, hname, hnode, hadmits, rfl⟩ :=
                (Tree.move_eq_ok_iff place_ne_of_temporary).mp hmove
              obtain ⟨directory, rfl⟩ := place_eq_concat hparts hname hgoal
              have hplace := (Tree.find_eq_ok_iff.mp hfind).2
              have hsame := hdirs.place_eq_ok.mpr
                ((h.sameDirectories.place_eq_ok).mp hplace)
              obtain rfl := Except.ok.inj (hsource.symm.trans hsame)
              obtain rfl := Option.some.inj (hnode.symm.trans hset.here)
              have hplain : made.at? (directory ++ [path.name]) ≠ some .directory :=
                fun hat => hadmits.1 ((hdirs _).mpr hat)
              exact ⟨directory, hdirs.place_eq_ok.mp hgoal, hplain, hset.move hplain⟩

-- =============================================================== writing

/-- Some directories along the path are made. Then the file is replaced, or
all is left as it is. -/
theorem replaceThrough_spec (bytes : Bytes) (hfresh : Fresh mark path files)
    (hsystem : obstacle.OfSystem) :
    ∃ made, Tree.GrownAlong path.parent files made
      ∧ match replaceThrough obstacle mark path bytes files with
        | (after, .ok ()) => '\x00' ∉ path.text
            ∧ ∃ directory, made.place path = .ok (directory ++ [path.name])
              ∧ made.at? (directory ++ [path.name]) ≠ some .directory
              ∧ ∀ spot, after.at? spot = if spot = directory ++ [path.name] then
                  some (.file bytes Files.plainMode) else made.at? spot
        | (after, .error why) => (∀ spot, after.at? spot = made.at? spot)
            ∧ ((∃ fault, why = .refused path fault) ∨ why = .nul ∧ '\x00' ∈ path.text) := by
  have hwhy : ∀ fault : Fault, ('\x00' ∉ path.text → fault ≠ .nul) →
      (∃ fault', Unwritten.ofFault path fault = .refused path fault')
        ∨ Unwritten.ofFault path fault = .nul ∧ '\x00' ∈ path.text := by
    intro fault hfault
    cases fault with
    | nul => exact Or.inr ⟨rfl, by_contra fun hnul => hfault hnul rfl⟩
    | refused => exact Or.inl ⟨_, rfl⟩
  refine ⟨_, makeParent_spec obstacle path files, ?_⟩
  have hparent := makeParent_spec obstacle path files
  have hrefused := @makeParent_ne_nul obstacle path files hsystem
  have hmade := @nul_notMem_parent obstacle path files
  unfold replaceThrough
  generalize makeParent obstacle path files = parent at hparent hrefused hmade ⊢
  obtain ⟨made, refused⟩ := parent
  cases refused with
  | some fault =>
      exact ⟨fun _ => rfl, hwhy fault fun hnul h => hrefused hnul (congrArg some h)⟩
  | none =>
  simp only
  cases hbegin : granted obstacle.start
      (made.write (temporary mark path) [] Files.privateMode) with
  | error fault =>
      refine ⟨fun _ => rfl, hwhy fault fun hnul => ?_⟩
      rintro rfl
      unfold granted at hbegin
      split at hbegin
      case h_1 fault hstart =>
        exact hsystem fault (Or.inr (Or.inl hstart)) (Except.error.inj hbegin)
      case h_2 => exact Tree.write_ne_nul (nul_notMem_temporary hfresh.plain hnul) hbegin
  | ok begun =>
      obtain ⟨place, hfind, hnone, rfl⟩ := begun_spec hfresh hparent.grown hbegin
      have hbegun : Underway made place [] Files.privateMode _ := .start hnone
      have hremoved : ∀ {content : Bytes} {mode : Nat} {t : Tree},
          Underway made place content mode t → ∀ spot,
            (((t.remove (temporary mark path)).toOption).getD t).at? spot = made.at? spot := by
        intro content mode t h spot
        rw [Tree.remove_eq_ok_iff.mpr
          ⟨place, _, _, h.sameDirectories.find_eq_ok.mpr hfind, h.here, rfl⟩]
        exact h.clear spot
      have hbody := writeBody_spec obstacle bytes
        (hbegun.sameDirectories.find_eq_ok.mpr hfind) hbegun
      simp only
      generalize writeBody obstacle (temporary mark path) bytes
        (made.set place (.file [] Files.privateMode)) = body at hbody ⊢
      obtain ⟨written, refused⟩ := body
      cases refused with
      | some fault =>
          obtain ⟨hfault, content, hunderway⟩ := hbody
          exact ⟨hremoved hunderway,
            hwhy fault fun _ => hsystem fault (Or.inr (Or.inr (Or.inl hfault)))⟩
      | none =>
          have hsettle := settle_spec hsystem (hbody.sameDirectories.find_eq_ok.mpr hfind) hbody
          simp only
          generalize settle obstacle (temporary mark path) path written = settled at hsettle ⊢
          cases settled with
          | error fault => exact ⟨hremoved hbody, hwhy fault fun _ => hsettle⟩
          | ok after =>
              exact ⟨nul_notMem_path (hmade rfl) (Tree.find_eq_ok_iff.mp hfind).1, hsettle⟩

/-- When a file has come to the place of a path, where no directory was, the
directories are as they were, the path leads to the same place, and the file is
at the path. -/
theorem stat_of_placed {mode : Nat} (hnul : '\x00' ∉ path.text)
    (hgoal : made.place path = .ok place) (hplain : made.at? place ≠ some .directory)
    (hat : ∀ spot, after.at? spot
      = if spot = place then some (.file bytes mode) else made.at? spot) :
    made.SameDirectories after ∧ after.place path = .ok place
      ∧ after.stat path = .ok (.file bytes mode) := by
  have hhere : after.at? place = some (.file bytes mode) := by rw [hat, if_pos rfl]
  have hdirs : made.SameDirectories after := by
    refine .of_elsewhere hplain (by simp [hhere]) fun spot hspot => ?_
    rw [hat, if_neg hspot]
  have hplace := hdirs.place_eq_ok.mpr hgoal
  exact ⟨hdirs, hplace,
    Tree.stat_eq_ok_iff.mpr ⟨_, Tree.find_eq_ok_iff.mpr ⟨hnul, hplace⟩, hhere⟩⟩

/-- Writing a feed puts the complete document into place, or leaves what was
there and says that the feed cannot be written; it says nothing only if the
path is none. The new file is gone, nothing else has changed outside the
files, and no other place has, except that directories along the path may
have been made where nothing was. -/
theorem writeThrough_all_or_nothing (obstacle : Obstacle) (source : Channel) (items : List Item)
    (title : Text) (path : Path) (world : World) (hfresh : Fresh world.mark path world.files)
    (hsystem : obstacle.OfSystem) :
    let written := writeThrough obstacle source items title path world
    let before := world.files
    let after := written.1.files
    (written.2 = .ok () → after.stat path = .ok (.file
        (Utf8.encode (Xml.writeDocument (document source items title world.now)))
        Files.plainMode))
      ∧ (∀ why, written.2 = .error why →
        ((∃ fault, why = .refused path fault) ∨ why = .nul ∧ '\x00' ∈ path.text)
          ∧ ∀ node, before.stat path = .ok node → after.stat path = .ok node)
      ∧ (∀ directory content mode,
        after.at? (directory ++ [(temporary world.mark path).name]) ≠ some (.file content mode))
      ∧ (∀ spot, (written.2 = .ok () → after.place path ≠ .ok spot) →
        after.at? spot = before.at? spot
          ∨ before.at? spot = none ∧ after.at? spot = some .directory
            ∧ ∃ names, names <+: path.parent.parts ∧ after.find ⟨path.root, names⟩ = .ok spot)
      ∧ written.1 = { world with files := after } := by
  intro written before after
  obtain ⟨made, halong, hspec⟩ := replaceThrough_spec
    (Utf8.encode (Xml.writeDocument (document source items title world.now))) hfresh hsystem
  -- what was at a path before is there when the directories are made
  have hgrown := halong.grown
  -- the name of the new file is nowhere but perhaps that of a directory that was made
  have hnew : ∀ directory content mode, made.at? (directory ++ [(temporary world.mark path).name])
      ≠ some (.file content mode) := by
    intro directory content mode hfile
    rcases hgrown (directory ++ [(temporary world.mark path).name]) with hsame | ⟨-, hmade⟩
    · rw [hsame, hfresh.nothing directory] at hfile
      cases hfile
    · rw [hmade] at hfile
      cases hfile
  have hwritten : written = ({ world with files := (replaceThrough obstacle world.mark path
      (Utf8.encode (Xml.writeDocument (document source items title world.now))) world.files).1 },
      (replaceThrough obstacle world.mark path
        (Utf8.encode (Xml.writeDocument (document source items title world.now)))
        world.files).2) := rfl
  have hafter : after = written.1.files := rfl
  generalize replaceThrough obstacle world.mark path
    (Utf8.encode (Xml.writeDocument (document source items title world.now))) world.files
    = replaced at hspec hwritten
  obtain ⟨left, ending⟩ := replaced
  obtain rfl : left = after := by rw [hafter, hwritten]
  rw [hwritten]
  have hspots : ∀ spot, after.at? spot = made.at? spot → after.SameDirectories made →
      after.at? spot = before.at? spot
        ∨ before.at? spot = none ∧ after.at? spot = some .directory
          ∧ ∃ names, names <+: path.parent.parts ∧ after.find ⟨path.root, names⟩ = .ok spot := by
    intro spot hspot hdirs
    rw [hspot]
    exact (halong spot).imp_right fun ⟨hnone, hmade, names, hnames, hfind⟩ =>
      ⟨hnone, hmade, names, hnames, hdirs.find_eq_ok.mp hfind⟩
  cases ending with
  | ok done =>
      obtain ⟨hnul, directory, hgoal, hplain, hat⟩ := hspec
      obtain ⟨hdirs, hplace, hstat⟩ := stat_of_placed hnul hgoal hplain hat
      refine ⟨fun _ => hstat, fun why h => (by cases h), fun other content mode hfile => ?_,
        fun spot hspot => hspots spot ?_ hdirs.symm, rfl⟩
      · rw [hat, if_neg (concat_name_ne world.mark path directory other).symm] at hfile
        exact hnew other content mode hfile
      · rw [hat, if_neg]
        rintro rfl
        exact hspot rfl hplace
  | error why =>
      obtain ⟨hat, hwhy⟩ := hspec
      have hdirs : after.SameDirectories made := fun spot => by rw [hat]
      refine ⟨fun h => (by cases h), fun why' h => ⟨?_, fun node hstat => ?_⟩,
        fun other content mode hfile => ?_, fun spot _ => hspots spot (hat spot) hdirs, rfl⟩
      · obtain rfl := Except.error.inj h
        exact hwhy
      · rw [Tree.stat_congr hat]
        exact hgrown.stat_eq_ok hstat
      · rw [hat] at hfile
        exact hnew other content mode hfile

/-- A name is new if no place ends in it. -/
theorem fresh_of_getLast? (hmark : '\x00' ∉ mark)
    (hnames : ∀ node ∈ files.nodes, node.1.getLast? ≠ some (temporary mark path).name) :
    Fresh mark path files := by
  refine ⟨fun directory => ?_, hmark⟩
  unfold Tree.at?
  rw [if_neg (by simp), List.lookup_eq_none_iff]
  intro node hnode
  rw [bne_iff_ne]
  intro hsame
  exact hnames node hnode (by rw [← hsame, List.getLast?_concat])

/-- A world with an older feed at `feed.xml`. -/
def outOfDate : World where
  files := ⟨[(["here"], .directory), (["here", "feed.xml"], .file [9] Files.plainMode)]⟩
  web := ⟨[], []⟩
  pauses := []
  bindings := []
  homes := []
  now := .first
  mark := "x1"

/-- The file system gives up after three bytes. -/
def givesUp : Obstacle :=
  { Obstacle.none with body := some (3, .refused .busy ".feed.xml.x1.tmp" none) }

/-- The older feed is still there when the file system gives up. -/
theorem writeThrough_all_or_nothing_given_up :
    Fresh outOfDate.mark ⟨.here, ["feed.xml"]⟩ outOfDate.files ∧ givesUp.OfSystem
      ∧ (writeThrough givesUp ⟨"A", [], [], none, none, none, none, [], []⟩ [] "T"
          ⟨.here, ["feed.xml"]⟩ outOfDate).2
        = .error (.refused ⟨.here, ["feed.xml"]⟩ (.refused .busy ".feed.xml.x1.tmp" none))
      ∧ (writeThrough givesUp ⟨"A", [], [], none, none, none, none, [], []⟩ [] "T"
          ⟨.here, ["feed.xml"]⟩ outOfDate).1.files.stat ⟨.here, ["feed.xml"]⟩
        = .ok (.file [9] Files.plainMode) := by
  have hfresh : Fresh outOfDate.mark ⟨.here, ["feed.xml"]⟩ outOfDate.files :=
    fresh_of_getLast? (by decide) (by decide)
  have hsystem : givesUp.OfSystem := by
    intro fault h hnul
    subst hnul
    simp [givesUp, Obstacle.none] at h
  have hending : (writeThrough givesUp ⟨"A", [], [], none, none, none, none, [], []⟩ [] "T"
      ⟨.here, ["feed.xml"]⟩ outOfDate).2
      = .error (.refused ⟨.here, ["feed.xml"]⟩ (.refused .busy ".feed.xml.x1.tmp" none)) := by
    decide +kernel
  exact ⟨hfresh, hsystem, hending,
    ((writeThrough_all_or_nothing givesUp _ [] "T" _ outOfDate hfresh hsystem).2.1 _ hending).2 _
      (by decide +kernel)⟩

end FeedSieve.Feed
