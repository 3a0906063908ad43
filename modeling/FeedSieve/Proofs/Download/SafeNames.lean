/-
Names are safe.

Sanitizing a text leaves a part of what it is cleaned to, so nothing that
cleaning removes is in it, and no space or point at its ends. Texts like
that, if they are short enough, are those that sanitizing does not change
(`sanitize_eq_self_iff`), wherever the cut for length has fallen.

A name is a stem that has been sanitized, or one made of a number, and
perhaps an extension. Extensions are letters and digits, whether they come
from the table of media types or from an address (`isExtension_of_ok`). So
every name is a single safe component of a path (`fileName_safe`).
-/
import FeedSieve.Proofs.Download.Naming
import FeedSieve.Proofs.Text.Numerals
import FeedSieve.Proofs.Text.Spacing

namespace FeedSieve.Download

open Files (Path)
open Text (Firm Spaced)

variable {item : Feed.Item} {name s t : Text} {c : Char}

-- ========================================================== safe names

/-- A name that no file system finds fault with, and that names an entry of a
directory everywhere. -/
structure SafeName (name : Text) : Prop where
  inhabited : name ≠ []
  harmless : ∀ c ∈ name, c ∉ "/\\<>:\"|?*".toList ∧ 0x20 ≤ c.toNat ∧ c.toNat ≠ 0x7f
  blanks : ∀ c ∈ name, Text.isBlank c = true → c = ' '
  single : ¬ [' ', ' '] <:+: name
  first : ∀ c, name.head? = some c → c ≠ ' ' ∧ c ≠ '.'
  last : ∀ c, name.getLast? = some c → c ≠ ' ' ∧ c ≠ '.'

/-- A text with nothing in it that is cleaned away. -/
structure Clean (t : Text) : Prop where
  harmless : ∀ c ∈ t, isUnsafe c = false
  spaced : Spaced t

/-- So is every part of it. -/
theorem Clean.part (h : Clean t) (hpart : s <:+: t) : Clean s where
  harmless := fun c hc => h.harmless c (hpart.subset hc)
  spaced := h.spaced.part hpart

/-- Letters, digits and other visible characters are clean, if they are not
unsafe. -/
theorem clean_of_forall (h : ∀ c ∈ t, isUnsafe c = false ∧ Text.isBlank c = false) : Clean t where
  harmless := fun c hc => (h c hc).1
  spaced := Text.spaced_of_forall fun c hc => (h c hc).2

/-- What is kept at the ends is neither a space nor a point. -/
theorem isMargin_eq_false_iff : isMargin c = false ↔ c ≠ ' ' ∧ c ≠ '.' := by
  unfold isMargin
  rw [Bool.or_eq_false_iff, decide_eq_false_iff_not, decide_eq_false_iff_not]

/-- Clean texts without spaces and points at their ends are safe names. -/
theorem Clean.safeName (h : Clean t) (hfirm : Firm isMargin t) : SafeName t where
  inhabited := hfirm.inhabited
  harmless := by
    intro c hc
    have hsafe := h.harmless c hc
    unfold isUnsafe at hsafe
    simp only [Bool.or_eq_false_iff, decide_eq_false_iff_not] at hsafe
    obtain ⟨⟨hlisted, hlow⟩, hdelete⟩ := hsafe
    refine ⟨fun hmem => ?_, Nat.not_lt.mp hlow, hdelete⟩
    rw [List.contains_iff_mem.mpr hmem] at hlisted
    cases hlisted
  blanks := h.spaced.blanks
  single := Text.single_iff.mp h.spaced.single
  first := fun c hc => isMargin_eq_false_iff.mp (hfirm.first c hc)
  last := fun c hc => isMargin_eq_false_iff.mp (hfirm.last c hc)

-- ========================================================== sanitizing

/-- A text with a hyphen for every unsafe character, and single spaces. -/
def cleaned (t : Text) : Text := Text.squeeze (t.map fun c => if isUnsafe c then '-' else c)

/-- Such a text is clean. -/
theorem clean_cleaned (t : Text) : Clean (cleaned t) where
  harmless := by
    intro c hc
    rcases Text.mem_squeeze hc with rfl | ⟨hmem, -⟩
    · decide
    · obtain ⟨d, -, rfl⟩ := List.mem_map.mp hmem
      split
      · decide
      · rename_i hd
        exact Bool.not_eq_true _ ▸ hd
  spaced := Text.spaced_squeeze _

/-- Clean texts are cleaned to themselves. -/
theorem Clean.cleaned_eq (h : Clean t) : cleaned t = t := by
  have hmap : t.map (fun c => if isUnsafe c then '-' else c) = t := by
    conv_rhs => rw [← List.map_id t]
    refine List.map_congr_left fun c hc => ?_
    rw [h.harmless c hc]
    rfl
  unfold cleaned
  rw [hmap]
  exact Text.squeeze_eq_self_iff.mpr h.spaced

/-- Of the cleaned text the beginning is kept, without its ends. -/
theorem sanitize_eq (t : Text) :
    sanitize t = Text.stripEnd isMargin ((Text.strip isMargin (cleaned t)).take stemLength) := rfl

theorem sanitize_beginning (t : Text) :
    sanitize t <+: (Text.strip isMargin (cleaned t)).take stemLength :=
  Text.stripEnd_prefix isMargin _

/-- Sanitized texts are clean. -/
theorem clean_sanitize (t : Text) : Clean (sanitize t) := by
  have hstrip := (Text.padded_strip isMargin (cleaned t)).part
  have hpart := (sanitize_beginning t).trans (List.take_prefix _ _)
  exact (clean_cleaned t).part (hpart.isInfix.trans hstrip)

/-- They are not too long. -/
theorem length_sanitize_le (t : Text) : (sanitize t).length ≤ stemLength :=
  (sanitize_beginning t).length_le.trans (List.length_take_le _ _)

/-- They have no spaces or points at their ends. -/
theorem firm_sanitize (hne : sanitize t ≠ []) : Firm isMargin (sanitize t) where
  inhabited := hne
  first := fun _ hc => sanitize_first hc
  last := by
    intro c hc
    rw [sanitize_eq, Text.stripEnd, List.getLast?_reverse] at hc
    exact Text.head?_dropWhile _ c hc

/-- Sanitizing does not change clean texts without spaces and points at their
ends, unless they are too long; and it changes all others. -/
theorem sanitize_eq_self_iff :
    sanitize t = t ↔ Clean t ∧ (t ≠ [] → Firm isMargin t) ∧ t.length ≤ stemLength := by
  constructor
  · intro h
    have hclean := clean_sanitize t
    have hfirm := firm_sanitize (t := t)
    have hlength := length_sanitize_le t
    rw [h] at hclean hfirm hlength
    exact ⟨hclean, hfirm, hlength⟩
  · rintro ⟨hclean, hfirm, hlength⟩
    rw [sanitize_eq, hclean.cleaned_eq]
    by_cases hempty : t = []
    · rw [hempty]
      rfl
    · have hends := hfirm hempty
      have hlast : t.reverse.dropWhile isMargin = t.reverse := by
        refine Text.dropWhile_of_head fun c hc => hends.last c ?_
        rwa [List.head?_reverse] at hc
      rw [hends.strip, List.take_of_length_le hlength, Text.stripEnd, hlast, List.reverse_reverse]

-- ========================================================== extensions

/-- An extension is made of letters and digits. -/
structure IsExtension (t : Text) : Prop where
  inhabited : t ≠ []
  chars : ∀ c ∈ t, inExtension c = true

/-- Letters and digits are ASCII characters. -/
theorem lt_of_inExtension (h : inExtension c = true) : c.toNat < 0x80 := by
  unfold inExtension Text.isLetter Text.isPlainDigit at h
  simp only [Bool.or_eq_true, Bool.and_eq_true, decide_eq_true_eq] at h
  have hnum {a b : Char} (hab : a ≤ b) : a.toNat ≤ b.toNat := hab
  rcases h with (⟨-, hz⟩ | ⟨-, hz⟩) | ⟨-, hz⟩
  · exact Nat.lt_of_le_of_lt (hnum hz) (by decide)
  · exact Nat.lt_of_le_of_lt (hnum hz) (by decide)
  · exact Nat.lt_of_le_of_lt (hnum hz) (by decide)

/-- They stay so in small letters, and are visible and safe. -/
private theorem inExtension_facts (h : inExtension c = true) :
    inExtension c.toLower = true ∧ isUnsafe c = false ∧ Text.isBlank c = false
      ∧ isMargin c = false := by
  have hall : ∀ n < 128, inExtension (Char.ofNat n) = true →
      inExtension (Char.ofNat n).toLower = true ∧ isUnsafe (Char.ofNat n) = false
        ∧ Text.isBlank (Char.ofNat n) = false ∧ isMargin (Char.ofNat n) = false := by decide
  have hfacts := hall c.toNat (lt_of_inExtension h)
  rw [Char.ofNat_toNat] at hfacts
  exact hfacts h

/-- The table of media types has nothing else. -/
private theorem isExtension_of_mediaType {mime extension : Text}
    (h : MediaType.extension? mime = some extension) : IsExtension extension := by
  have hall : ∀ entry ∈ MediaType.familiar ++ MediaType.registered,
      entry.2.toList ≠ [] ∧ entry.2.toList.all inExtension = true := by decide +kernel
  obtain ⟨entry, hfound, rfl⟩ := Option.map_eq_some_iff.mp h
  obtain ⟨hne, hchars⟩ := hall entry (List.mem_of_find?_eq_some hfound)
  exact ⟨hne, List.all_eq_true.mp hchars⟩

/-- What is taken off the end of a name is one to five letters or digits. -/
theorem exists_of_suffix? {extension : Text} (h : suffix? t = some extension) :
    ∃ letters, extension = Text.lowerPlain letters ∧ letters ≠ [] ∧ letters.length ≤ 5
      ∧ ∀ c ∈ letters, inExtension c = true := by
  unfold suffix? at h
  extract_lets backward letters at h
  split at h
  case isFalse => cases h
  case isTrue hshape =>
    simp only [Bool.and_eq_true, decide_eq_true_eq] at hshape
    refine ⟨letters.reverse, (Option.some.inj h).symm, fun hnone => ?_, ?_, fun c hc => ?_⟩
    · rw [List.reverse_eq_nil_iff.mp hnone] at hshape
      exact absurd hshape.1.1 (by decide)
    · rw [List.length_reverse]
      exact hshape.1.2
    · exact List.all_eq_true.mp List.all_takeWhile c (List.mem_reverse.mp hc)

/-- It has nothing else either. -/
private theorem isExtension_of_suffix {extension : Text} (h : suffix? t = some extension) :
    IsExtension extension := by
  obtain ⟨letters, rfl, hne, -, hchars⟩ := exists_of_suffix? h
  refine ⟨fun hnone => hne (List.map_eq_nil_iff.mp hnone), fun c hc => ?_⟩
  obtain ⟨d, hd, rfl⟩ := List.mem_map.mp hc
  exact (inExtension_facts (hchars d hd)).1

/-- An extension comes from the table, or from the end of a name. -/
theorem extension?_cases {extension : Text} (h : extension? item = .ok (some extension)) :
    (∃ mime, MediaType.extension? mime = some extension)
      ∨ ∃ name, suffix? name = some extension := by
  unfold extension? at h
  split at h
  case h_1 known hmime =>
    obtain rfl := Option.some.inj (Except.ok.inj h)
    obtain ⟨type, -, hknown⟩ := Option.bind_eq_some_iff.mp hmime
    exact Or.inl ⟨type, hknown⟩
  case h_2 =>
    split at h
    case h_1 url hurl =>
      split at h
      · cases h
      · unfold urlExtension? at h
        cases hsplit : Url.split url with
        | error why =>
            rw [hsplit] at h
            cases h
        | ok parts =>
            rw [hsplit] at h
            exact Or.inr ⟨_, Except.ok.inj h⟩
    case h_2 => cases h

/-- The extension for an enclosure is one, if there is any. -/
theorem isExtension_of_ok {extension : Text} (h : extension? item = .ok (some extension)) :
    IsExtension extension := by
  rcases extension?_cases h with ⟨mime, hmime⟩ | ⟨name, hname⟩
  · exact isExtension_of_mediaType hmime
  · exact isExtension_of_suffix hname

-- =============================================================== names

/-- The stem that is made of a number is clean, and so are its ends. -/
private theorem clean_numbered (n : Nat) :
    Clean ("item-".toList ++ Text.ofNat n)
      ∧ Firm isMargin ("item-".toList ++ Text.ofNat n) := by
  have hletters : "item-".toList.all (fun c => !isUnsafe c && !Text.isBlank c && !isMargin c)
      = true := by decide
  have hall : ∀ c ∈ "item-".toList ++ Text.ofNat n,
      isUnsafe c = false ∧ Text.isBlank c = false ∧ isMargin c = false := by
    intro c hc
    rcases List.mem_append.mp hc with hword | hdigit
    · simpa only [Bool.and_eq_true, Bool.not_eq_true', and_assoc]
        using List.all_eq_true.mp hletters c hword
    · have hplain : inExtension c = true := by
        unfold inExtension
        rw [Text.isPlainDigit_of_mem_ofNat hdigit, Bool.or_true]
      exact (inExtension_facts hplain).2
  refine ⟨clean_of_forall fun c hc => ⟨(hall c hc).1, (hall c hc).2.1⟩, ?_, ?_, ?_⟩
  · exact List.cons_ne_nil _ _
  · exact fun c hc => (hall c (List.mem_of_head? hc)).2.2
  · exact fun c hc => (hall c (List.mem_of_getLast? hc)).2.2

/-- Every stem is clean, and so are its ends. -/
private theorem clean_stem (item : Feed.Item) :
    Clean (stem item) ∧ Firm isMargin (stem item) := by
  unfold stem
  simp only
  split
  case isTrue htitle =>
    exact ⟨clean_sanitize _, firm_sanitize (by simpa using htitle)⟩
  case isFalse =>
    split
    case isTrue hguid => exact ⟨clean_sanitize _, firm_sanitize (by simpa using hguid)⟩
    case isFalse => exact clean_numbered item.index

/-- An extension behind a point changes nothing about that. -/
private theorem clean_extended {extension : Text} (hclean : Clean s) (hfirm : Firm isMargin s)
    (h : IsExtension extension) :
    Clean (s ++ '.' :: extension) ∧ Firm isMargin (s ++ '.' :: extension) := by
  have hvisible : ∀ c ∈ '.' :: extension, isUnsafe c = false ∧ Text.isBlank c = false := by
    intro c hc
    rcases List.mem_cons.mp hc with rfl | hc
    · decide
    · have hfacts := inExtension_facts (h.chars c hc)
      exact ⟨hfacts.2.1, hfacts.2.2.1⟩
  have htail := clean_of_forall hvisible
  refine ⟨⟨?_, ?_⟩, ?_, ?_, ?_⟩
  · intro c hc
    exact (List.mem_append.mp hc).elim (hclean.harmless c) (htail.harmless c)
  · refine hclean.spaced.append htail.spaced fun a ha b hb hspace => ?_
    rw [← Option.some.inj hb]
    decide
  · exact List.append_ne_nil_of_left_ne_nil hfirm.inhabited _
  · intro c hc
    rw [List.head?_append_of_ne_nil _ hfirm.inhabited] at hc
    exact hfirm.first c hc
  · intro c hc
    rw [List.getLast?_append_of_ne_nil _ (List.cons_ne_nil _ _),
      List.getLast?_cons_of_ne_nil h.inhabited] at hc
    exact (inExtension_facts (h.chars c (List.mem_of_getLast? hc))).2.2.2

/-- Every name is safe. -/
theorem safeName_of_fileName (h : fileName item = .ok name) : SafeName name := by
  obtain ⟨extension, hextension, rfl⟩ := fileName_eq_ok_iff.mp h
  obtain ⟨hclean, hfirm⟩ := clean_stem item
  cases extension with
  | none => exact hclean.safeName hfirm
  | some extension =>
      have htext : Text.concat [stem item, ".", extension] = stem item ++ '.' :: extension := by
        show stem item ++ ('.' :: (extension ++ [])) = _
        rw [List.append_nil]
      obtain ⟨hclean', hfirm'⟩ := clean_extended hclean hfirm (isExtension_of_ok hextension)
      show SafeName (Text.concat [stem item, ".", extension])
      rw [htext]
      exact hclean'.safeName hfirm'

/-- A safe name, read as a path, is that name alone. -/
theorem SafeName.ofText (h : SafeName name) : Path.ofText name = ⟨.here, [name]⟩ := by
  have hslash : '/' ∉ name := fun hmem => (h.harmless _ hmem).1 (by decide)
  have hpoint : name ≠ ['.'] := by
    rintro rfl
    exact (h.first '.' rfl).2 rfl
  have hroot : Path.rootOf name = .here := by
    obtain ⟨c, rest, rfl⟩ := List.exists_cons_of_ne_nil h.inhabited
    have hc : c ≠ '/' := fun heq => hslash (heq ▸ List.mem_cons_self)
    unfold Path.rootOf
    split
    · rename_i htext
      exact absurd (List.cons.inj htext).1 hc
    · rename_i htext
      exact absurd (List.cons.inj htext).1 hc
    · rename_i htext
      exact absurd (List.cons.inj htext).1 hc
    · rfl
  have hnames : Path.namesOf name = [name] := by
    unfold Path.namesOf
    rw [Text.splitOn_of_notMem hslash, List.filter_singleton]
    have hkept : (!name.isEmpty && name != ['.']) = true := by
      simp [h.inhabited, hpoint]
    rw [hkept]
    rfl
  unfold Path.ofText
  rw [hroot, hnames]

/-- The name of a file is safe; its path, however the name is read, is that
of an entry of the directory with that name. Sanitizing leaves at most 200
characters, and nothing to be sanitized. -/
theorem fileName_safe :
    (∀ item name, fileName item = .ok name → SafeName name
      ∧ ∀ destination : Path, ∃ path, filePath item destination = .ok path
        ∧ path = destination.append (.ofText name) ∧ path.parent = destination
        ∧ path.name = name)
    ∧ ∀ t, (sanitize t).length ≤ 200 ∧ sanitize (sanitize t) = sanitize t := by
  constructor
  · intro item name h
    have hsafe := safeName_of_fileName h
    refine ⟨hsafe, fun destination => ⟨destination.child name, ?_, ?_, ?_, ?_⟩⟩
    · exact filePath_eq_ok_iff.mpr ⟨name, h, rfl⟩
    · rw [hsafe.ofText]
      rfl
    · unfold Path.parent Path.child
      rw [List.dropLast_concat]
    · unfold Path.name Path.child
      rw [List.getLast?_concat]
      rfl
  · intro t
    refine ⟨length_sanitize_le t, sanitize_eq_self_iff.mpr ?_⟩
    exact ⟨clean_sanitize t, firm_sanitize, length_sanitize_le t⟩

/-- An item whose title would lead out of the directory, and whose address
says what its file is. -/
theorem fileName_safe_hostile :
    let item : Feed.Item := ⟨1, " ../a:  b\n. ".toList, [], none, none, none, none,
      some "http://x/%2e%2e/c.MP3?d".toList, some "x/y".toList, none⟩
    fileName item = .ok "-a- b-.mp3".toList ∧ SafeName "-a- b-.mp3".toList
      ∧ (filePath item ⟨.here, ["dl".toList]⟩).toOption.map Path.parent
        = some ⟨.here, ["dl".toList]⟩ := by
  intro item
  have hname : fileName item = .ok "-a- b-.mp3".toList := by decide +kernel
  obtain ⟨hsafe, hpaths⟩ := fileName_safe.1 item _ hname
  obtain ⟨path, hpath, -, hparent, -⟩ := hpaths ⟨.here, ["dl".toList]⟩
  refine ⟨hname, hsafe, ?_⟩
  rw [hpath]
  exact congrArg some hparent

end FeedSieve.Download
