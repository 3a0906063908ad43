/-
Room for names.

The file system has room for names of 255 bytes, and while a file is fetched
its name stands there with an ending. Sanitizing counts characters and not
bytes, so what it keeps need not fit: there is room for a name exactly if its
stem and its extension take no more than 250 bytes (`fits_iff`). Extensions
are short and of ASCII characters, so the stem decides, up to twelve bytes.

Where there is no room a download fails whatever its address gives
(`attempt_of_not_fits`), since the file beside the wanted one cannot be
begun. Where there is, nothing is refused for the length of a name
(`refusedForLength_iff`).
-/
import FeedSieve.Proofs.Download.Destination
import FeedSieve.Proofs.Download.SafeNames
import FeedSieve.Proofs.Files.Refused

namespace FeedSieve

open Files (Fault Path Place Tree)

-- ====================================================== refused lengths

namespace Files

/-- A fault that is about the length of a name or of a path. -/
def Fault.IsLength (fault : Fault) : Prop :=
  ∃ path target, fault = .refused .nameTooLong path target

namespace Tree

variable {t : Tree} {p target : Path} {place goal : Place} {name : Text} {content : Bytes}
  {mode : Nat} {fault : Fault}

/-- Where a name in a directory leads: to an entry of it, if there is room
for it. -/
theorem find_child_eq (hfind : t.find p = .ok place) (hat : t.at? place = some .directory)
    (hnul : '\x00' ∉ name) (hback : name ≠ "..".toList)
    (hshort : Utf8.size (p.child name).text < pathLimit) :
    t.find (p.child name) = if Utf8.size name ≤ nameLimit then .ok (place ++ [name])
      else .error (.refused .nameTooLong (p.child name).text none) := by
  have htext : '\x00' ∉ (p.child name).text := by
    intro hmem
    obtain ⟨part, hpart, hin⟩ := Path.nul_mem_text_iff.mp hmem
    rcases List.mem_append.mp hpart with hpart | hpart
    · exact (find_eq_ok_iff.mp hfind).1 (Path.nul_mem_text_iff.mpr ⟨part, hpart, hin⟩)
    · exact hnul (List.mem_singleton.mp hpart ▸ hin)
  unfold find
  rw [if_neg (by simpa using htext), place_child_eq hfind hat, if_neg (by omega), walk,
    if_neg hback]
  by_cases hroom : Utf8.size name ≤ nameLimit
  · rw [if_pos hroom, if_neg (by omega)]
    rfl
  · rw [if_neg hroom, if_pos (by omega)]

/-- What is not found is not written. -/
theorem write_eq_error (h : t.find p = .error fault) :
    t.write p content mode = .error fault := by
  unfold write
  rw [h]
  rfl

/-- Writing where a path leads is not refused for a length. -/
theorem not_isLength_of_write (hfind : t.find p = .ok place)
    (h : t.write p content mode = .error fault) : ¬ fault.IsLength := by
  rintro ⟨path, target, rfl⟩
  unfold write at h
  simp only [hfind, bind, Except.bind] at h
  split at h
  · cases h
  · cases h
  · split at h <;> cases h

/-- Nor is moving to where a path leads. -/
theorem not_isLength_of_move (hplace : t.place p = .ok place) (hgoal : t.place target = .ok goal)
    (h : t.move p target = .error fault) : ¬ fault.IsLength := by
  rintro ⟨path, other, rfl⟩
  unfold move at h
  simp only [hplace, hgoal, bind, Except.bind, Except.mapError] at h
  split at h
  · cases h
  · split at h
    · cases h
    · split at h
      · cases h
      · cases h
      · split at h <;> cases h

end Tree

end Files

namespace Download

variable {item : Feed.Item} {name extension t : Text} {files : Tree} {destination path part : Path}
  {c : Char}

-- ================================================================ stems

/-- What sanitizing leaves are characters of the text, hyphens and spaces. -/
theorem mem_sanitize (h : c ∈ sanitize t) : c = ' ' ∨ c = '-' ∨ c ∈ t := by
  have hpart := (sanitize_beginning t).trans (List.take_prefix _ _)
  have hcleaned : c ∈ cleaned t :=
    (Text.padded_strip isMargin (cleaned t)).part.subset (hpart.subset h)
  rcases Text.mem_squeeze hcleaned with hspace | ⟨hmem, -⟩
  · exact Or.inl hspace
  · obtain ⟨d, hd, rfl⟩ := List.mem_map.mp hmem
    split
    · exact Or.inr (Or.inl rfl)
    · exact Or.inr (Or.inr hd)

/-- A stem is a sanitized title or identifier, or made of the number. -/
theorem stem_cases (item : Feed.Item) : stem item = sanitize item.title
    ∨ stem item = sanitize (item.guid.getD [])
    ∨ stem item = "item-".toList ++ Text.ofNat item.index := by
  unfold stem
  dsimp only
  split
  · exact Or.inl rfl
  · split
    · exact Or.inr (Or.inl rfl)
    · exact Or.inr (Or.inr rfl)

/-- A stem of ASCII characters takes no more than two hundred bytes. -/
theorem size_stem_le (hascii : ∀ c ∈ item.title ++ item.guid.getD [], c.toNat < 0x80)
    (hindex : item.index < 10 ^ 100) : Utf8.size (stem item) ≤ 200 := by
  have hsanitized {t : Text} (ht : ∀ c ∈ t, c.toNat < 0x80) : Utf8.size (sanitize t) ≤ 200 := by
    rw [Utf8.size_eq_length fun c hc => ?_]
    · exact length_sanitize_le t
    · rcases mem_sanitize hc with rfl | rfl | hmem
      · decide
      · decide
      · exact ht c hmem
  rcases stem_cases item with hstem | hstem | hstem
  · rw [hstem]
    exact hsanitized fun c hc => hascii c (List.mem_append_left _ hc)
  · rw [hstem]
    exact hsanitized fun c hc => hascii c (List.mem_append_right _ hc)
  · have hdigits : (Text.ofNat item.index).length ≤ 100 :=
      Nat.toDigits_length 10 item.index 100 (by decide) hindex
    have hplain : ∀ c ∈ Text.ofNat item.index, c.toNat < 0x80 := by
      intro c hc
      refine lt_of_inExtension ?_
      unfold inExtension
      rw [Text.isPlainDigit_of_mem_ofNat hc, Bool.or_true]
    have hword : Utf8.size "item-".toList = 5 := by decide
    rw [hstem, Utf8.size_append, Utf8.size_eq_length hplain, hword]
    omega

-- ========================================================== extensions

/-- An extension as it stands in a name. -/
def suffixText : Option Text → Text
  | none => []
  | some extension => '.' :: extension

/-- A name is a stem with an extension. -/
theorem fileName_eq (h : fileName item = .ok name) :
    ∃ extension, extension? item = .ok extension ∧ name = stem item ++ suffixText extension := by
  obtain ⟨extension, hextension, rfl⟩ := fileName_eq_ok_iff.mp h
  refine ⟨extension, hextension, ?_⟩
  cases extension with
  | none => exact (List.append_nil _).symm
  | some extension =>
      show stem item ++ ('.' :: (extension ++ [])) = _
      rw [List.append_nil]
      rfl

/-- The extensions in the table are short. -/
private theorem length_of_mediaType {mime : Text}
    (h : MediaType.extension? mime = some extension) : extension.length ≤ 11 := by
  have hall : ∀ entry ∈ MediaType.familiar ++ MediaType.registered,
      entry.2.toList.length ≤ 11 := by decide +kernel
  obtain ⟨entry, hfound, rfl⟩ := Option.map_eq_some_iff.mp h
  exact hall entry (List.mem_of_find?_eq_some hfound)

/-- So is what is taken off the end of a name. -/
private theorem length_of_suffix (h : suffix? t = some extension) : extension.length ≤ 5 := by
  obtain ⟨letters, rfl, -, hlength, -⟩ := exists_of_suffix? h
  rw [Text.lowerPlain, List.length_map]
  exact hlength

/-- With its point an extension takes no more than twelve bytes. -/
theorem size_suffixText {extension : Option Text} (h : extension? item = .ok extension) :
    Utf8.size (suffixText extension) = (suffixText extension).length
      ∧ (suffixText extension).length ≤ 12 := by
  cases extension with
  | none => exact ⟨rfl, Nat.zero_le _⟩
  | some extension =>
      have hchars : ∀ c ∈ '.' :: extension, c.toNat < 0x80 := by
        intro c hc
        rcases List.mem_cons.mp hc with rfl | hc
        · decide
        · exact lt_of_inExtension ((isExtension_of_ok h).chars c hc)
      have hlength : extension.length ≤ 11 := by
        rcases extension?_cases h with ⟨mime, hmime⟩ | ⟨name, hname⟩
        · exact length_of_mediaType hmime
        · exact (length_of_suffix hname).trans (by decide)
      exact ⟨Utf8.size_eq_length hchars, Nat.succ_le_succ hlength⟩

-- ================================================================ names

/-- There is room for a name in a directory, and for the name of the file
beside. -/
def Fits (name : Text) : Prop := Utf8.size (name ++ partEnding) ≤ Tree.nameLimit

instance : Decidable (Fits name) := inferInstanceAs (Decidable (_ ≤ _))

/-- There is exactly if the stem and the extension take 250 bytes at most. -/
theorem fits_iff {extension : Option Text} (hextension : extension? item = .ok extension)
    (hname : name = stem item ++ suffixText extension) :
    Fits name ↔ Utf8.size (stem item) + (suffixText extension).length ≤ 250 := by
  have hending : Utf8.size partEnding = 5 := by decide
  unfold Fits Tree.nameLimit
  rw [hname, Utf8.size_append, Utf8.size_append, (size_suffixText hextension).1, hending]
  omega

/-- A short stem leaves room for every extension. -/
theorem fits_of_size_le (h : fileName item = .ok name) (hstem : Utf8.size (stem item) ≤ 238) :
    Fits name := by
  obtain ⟨extension, hextension, hname⟩ := fileName_eq h
  have hsuffix := (size_suffixText hextension).2
  rw [fits_iff hextension hname]
  omega

-- ============================================================ downloads

/-- The file system refuses a download for the length of a name: the file
beside cannot be begun, or not moved into place. -/
def RefusedForLength (files : Tree) (path : Path) : Prop :=
  ∃ part fault, partPath? path = some part ∧ fault.IsLength
    ∧ ((∃ content mode, files.write part content mode = .error fault)
      ∨ files.move part path = .error fault)

/-- Where the file beside one in a directory leads. -/
theorem find_part_eq (h : fileName item = .ok name)
    (hdirectory : files.isDirectory? destination = .ok true)
    (hpart : partPath? (destination.child name) = some part)
    (hshort : Utf8.size part.text < Tree.pathLimit) :
    ∃ place, files.find destination = .ok place ∧ files.at? place = some .directory
      ∧ files.find part = if Fits name then .ok (place ++ [name ++ partEnding])
        else .error (.refused .nameTooLong part.text none) := by
  rw [partPath?_child destination (fileName_ne_nil h)] at hpart
  obtain rfl := Option.some.inj hpart
  obtain ⟨place, hfind, hat⟩ := Tree.isDirectory?_eq_ok_true_iff.mp hdirectory
  have hnul : '\x00' ∉ name ++ partEnding := by
    intro hmem
    rcases List.mem_append.mp hmem with hmem | hmem
    · exact absurd ((safeName_of_fileName h).harmless _ hmem).2.1 (by decide)
    · exact absurd hmem (by decide)
  exact ⟨place, hfind, hat,
    Tree.find_child_eq hfind hat hnul (append_partEnding_ne name) hshort⟩

/-- In a directory a download is refused for the length of a name exactly if
there is no room for it. -/
theorem refusedForLength_iff (h : fileName item = .ok name)
    (hdirectory : files.isDirectory? destination = .ok true)
    (hpart : partPath? (destination.child name) = some part)
    (hshort : Utf8.size part.text < Tree.pathLimit) :
    RefusedForLength files (destination.child name) ↔ ¬ Fits name := by
  obtain ⟨place, hfind, hat, hbeside⟩ := find_part_eq h hdirectory hpart hshort
  constructor
  · rintro ⟨part', fault, hpart', hlength, hrefused⟩ hfits
    obtain rfl : part = part' := Option.some.inj (hpart.symm.trans hpart')
    rw [if_pos hfits] at hbeside
    rcases hrefused with ⟨content, mode, hwrite⟩ | hmove
    · exact Tree.not_isLength_of_write hbeside hwrite hlength
    · -- the wanted file leads somewhere as well
      obtain ⟨goal, hgoal, -⟩ := place_of_part hpart (Tree.find_eq_ok_iff.mp hbeside).2
      exact Tree.not_isLength_of_move (Tree.find_eq_ok_iff.mp hbeside).2 hgoal hmove hlength
  · intro hlong
    rw [if_neg hlong] at hbeside
    exact ⟨part, _, hpart, ⟨_, _, rfl⟩, Or.inl ⟨[], 0, Tree.write_eq_error hbeside⟩⟩

/-- Where there is no room an attempt fails that gets a good answer, and leaves
the files as they are. -/
theorem attempt_of_not_fits {trouble : Trouble} {errand : Errand} {world : World} {web : Http.Web}
    {response : Http.Response} (h : fileName item = .ok name)
    (hpath : errand.path = destination.child name)
    (hdirectory : world.files.isDirectory? destination = .ok true)
    (hpart : partPath? (destination.child name) = some part)
    (hshort : Utf8.size part.text < Tree.pathLimit) (hlong : ¬ Fits name)
    (hanswer : world.web.get errand.agent errand.url = (web, .ok response))
    (hsuccess : response.isSuccess = true) (hstart : trouble.start = none) :
    attempt trouble errand world = ({ world with web := web },
      .failed ("Write error: ".toList
        ++ Fault.message (.refused .nameTooLong part.text none))) := by
  obtain ⟨place, -, -, hbeside⟩ := find_part_eq h hdirectory hpart hshort
  rw [if_neg hlong] at hbeside
  unfold attempt store beginPart
  simp only [hanswer, hsuccess, Bool.not_true, Bool.false_eq_true, if_false, hpath, hpart, hstart,
    Tree.write_eq_error hbeside]
  rfl

/-- An item whose title is 124 letters of two bytes each. -/
def accented : Feed.Item := ⟨1, List.replicate 124 'é', [], none, none, none, none,
  some "http://x/1".toList, some "audio/mpeg".toList, none⟩

/-- A world with a directory for downloads, and an answer for that item. -/
def answering : World where
  files := ⟨[(["here"], .directory), (["here", "dl"], .directory)]⟩
  web := ⟨[("http://x/1", [.ok ⟨200, none, [[1, 2, 3]], none⟩])], []⟩
  pauses := []
  bindings := []
  homes := []
  now := .first
  mark := []

end Download

end FeedSieve
