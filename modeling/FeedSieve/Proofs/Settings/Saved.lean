/-
Settings that are saved are loaded again.

The document that is written has a section for downloads and one for
requests, and every line of it is read as the value it was written for
(`sound_sections`). These values are the fields of the settings, which pass
the checks if they are valid. So the file that was saved holds the settings
(`load_save`), whatever the user agent is.
-/
import FeedSieve.Proofs.Files.Tree
import FeedSieve.Proofs.Settings.Valid
import FeedSieve.Proofs.Text.Utf8
import FeedSieve.Proofs.Yaml.Numbers
import FeedSieve.Proofs.Yaml.Texts
import FeedSieve.Settings.File

namespace FeedSieve.Settings

open Number (Double)
open Yaml (Entry Section IsName)

variable {s : Profile} {name t : Text} {n : Nat} {d : Double} {path : Files.Path}
  {files files' : Files.Tree}

-- ============================================================= entries

/-- A line with an integer. -/
def integerEntry (name : Text) (n : Nat) : Entry :=
  ⟨name, Text.ofNat n, Text.ofNat n, true, .int n⟩

/-- A line with a double. -/
def doubleEntry (name : Text) (d : Double) : Entry :=
  ⟨name, Yaml.writeDoubleNumber d, Yaml.writeDoubleNumber d, true, .double d⟩

/-- A line with a text. -/
def textEntry (name t : Text) : Entry :=
  ⟨name, Yaml.writeText (name.length + 4) t, t, Yaml.styleOf t == .plain, .text t⟩

theorem sound_integerEntry (hname : IsName name) (h : (Text.ofNat n).length ≤ Text.maxDigits) :
    (integerEntry name n).Sound where
  name := hname
  reads := Yaml.readsAs_ofNat n
  value := Yaml.value_ofNat h
  ordinary := Yaml.isOrdinary_numeral fun _ hc =>
    Yaml.mem_numeralChars (Text.isPlainDigit_of_mem_ofNat hc)

theorem sound_doubleEntry (hname : IsName name) (hpositive : d.isPositive = true)
    (h : d.isFinite = true → Lax.double? d.shortest = some d) : (doubleEntry name d).Sound where
  name := hname
  reads := Yaml.readsAs_writeDoubleNumber hpositive
  value := Yaml.value_writeDoubleNumber hpositive h
  ordinary := Yaml.isOrdinary_writeDoubleNumber hpositive

theorem sound_textEntry (hname : IsName name) (t : Text) : (textEntry name t).Sound where
  name := hname
  reads := Yaml.readsAs_writeText _ t
  value := Yaml.value_writeText t
  ordinary := Yaml.isOrdinary_writeText _ t

-- ============================================================ document

/-- The sections of the document. -/
def sections (s : Profile) : List Section :=
  [⟨"download", [integerEntry "ndownloads" s.download.ndownloads,
      doubleEntry "timeout" s.download.timeout, integerEntry "retries" s.download.retries,
      integerEntry "retry_delay_ms" s.download.retryDelay]⟩,
    ⟨"http", [doubleEntry "timeout" s.http.timeout, textEntry "user_agent" s.http.userAgent]⟩]

/-- The names in the document. -/
def names : List Text :=
  ["download", "ndownloads", "timeout", "retries", "retry_delay_ms", "http", "user_agent"]

theorem isName_of_mem (h : name ∈ names) : IsName name := by
  have hall : ∀ name ∈ names, name ≠ [] ∧ (∀ c ∈ name, (Text.isLetter c || c = '_') = true)
      ∧ name.length ≤ Yaml.Scan.keyLimit ∧ Yaml.Tag.ofForm name = .text := by decide
  obtain ⟨hne, hletters, hshort, htext⟩ := hall name h
  exact ⟨hne, hletters, hshort, htext⟩

/-- The document is made of them. -/
theorem toText_eq (s : Profile) : toText s = Yaml.documentText (sections s) := by
  simp [toText, sections, Yaml.documentText, Section.lines, Entry.line, line, field, Text.concat,
    integerEntry, doubleEntry, textEntry, Yaml.entryIndent]

/-- Their records are the fields of the settings. -/
theorem values_sections (s : Profile) :
    (sections s).map (fun b => (b.name, b.value)) = fieldsOf s := rfl

/-- Every line can be read. -/
theorem sound_sections (hvalid : Valid s)
    (hintegers : ∀ n ∈ [s.download.ndownloads, s.download.retryDelay],
      (Text.ofNat n).length ≤ Text.maxDigits)
    (hdoubles : ∀ d ∈ [s.download.timeout, s.http.timeout],
      d.isFinite = true → Lax.double? d.shortest = some d) :
    ∀ b ∈ sections s, b.Sound := by
  obtain ⟨hndownloads, hretryDelay, -⟩ : _ ∧ _ ∧ _ := by
    simpa only [List.forall_mem_cons] using hintegers
  obtain ⟨htimeout, hrequest, -⟩ : _ ∧ _ ∧ _ := by
    simpa only [List.forall_mem_cons] using hdoubles
  have hretries : (Text.ofNat s.download.retries).length ≤ Text.maxDigits := by
    have hbound := hvalid.retries
    have hshort : (Text.ofNat s.download.retries).length ≤ 2 :=
      (Nat.length_toDigits_le_iff (by decide) (by decide)).mpr
        (by unfold mostRetries at hbound; omega)
    exact hshort.trans (by decide)
  have hdownload : IsName "download" := isName_of_mem (by decide)
  have hhttp : IsName "http" := isName_of_mem (by decide)
  simp only [sections, List.forall_mem_cons]
  refine ⟨⟨hdownload, by simp, ?_⟩, ⟨hhttp, by simp, ?_⟩, nofun⟩
  · simp only [List.forall_mem_cons]
    exact ⟨sound_integerEntry (isName_of_mem (by decide)) hndownloads,
      sound_doubleEntry (isName_of_mem (by decide)) hvalid.timeout htimeout,
      sound_integerEntry (isName_of_mem (by decide)) hretries,
      sound_integerEntry (isName_of_mem (by decide)) hretryDelay, nofun⟩
  · simp only [List.forall_mem_cons]
    exact ⟨sound_doubleEntry (isName_of_mem (by decide)) hvalid.requestTimeout hrequest,
      sound_textEntry (isName_of_mem (by decide)) _, nofun⟩

/-- A text without returns is not changed by making returns into line ends. -/
theorem plainLines_of_notMem (h : '\r' ∉ t) : plainLines t = t := by
  induction t using plainLines.induct with
  | case1 => rfl
  | case2 rest ih => exact absurd List.mem_cons_self h
  | case3 c rest hpair ih =>
      rw [List.mem_cons, not_or] at h
      rw [plainLines, if_neg (Ne.symm h.1), ih h.2]
      exact hpair

/-- The document is read as the settings. -/
theorem ofText_toText (hvalid : Valid s) (hsound : ∀ b ∈ sections s, b.Sound) (path : Files.Path) :
    ofText path (toText s) = .ok s := by
  have hordinary := Yaml.isOrdinary_documentText hsound
  have hreturn : '\r' ∉ Yaml.documentText (sections s) := fun hmem =>
    absurd (hordinary _ hmem) (by decide)
  have hsections : sections s ≠ [] := List.cons_ne_nil _ _
  have hfields := Yaml.readFields_documentText hsections hsound
  rw [values_sections] at hfields
  unfold ofText
  rw [toText_eq, plainLines_of_notMem hreturn, hfields]
  simp only [check_fieldsOf hvalid]

-- =============================================================== files

/-- A file that is there and holds a text is loaded as that. -/
theorem load_of_stat {mode : Nat} (h : files.stat path = .ok (.file (Utf8.encode t) mode)) :
    load files path = ofText path t := by
  have hthere : files.exists? path = .ok true := by
    unfold Files.Tree.exists? Files.Tree.check
    rw [h]
  have hread : files.read path = .ok (Utf8.encode t) := by
    unfold Files.Tree.read
    rw [h]
    rfl
  unfold load
  simp only [hthere, hread, Utf8.decode_encode]

/-- Settings that are saved are loaded again. -/
theorem load_save (hvalid : Valid s)
    (hintegers : ∀ n ∈ [s.download.ndownloads, s.download.retryDelay],
      (Text.ofNat n).length ≤ Text.maxDigits)
    (hdoubles : ∀ d ∈ [s.download.timeout, s.http.timeout],
      d.isFinite = true → Lax.double? d.shortest = some d)
    (hsaved : save s path files = (files', .ok ())) : load files' path = .ok s := by
  obtain ⟨mode, hstat⟩ : ∃ mode, files'.stat path = .ok (.file (Utf8.encode (toText s)) mode) := by
    unfold save at hsaved
    split at hsaved
    · cases hsaved
    · split at hsaved
      · cases hsaved
      · rename_i hwrite
        obtain ⟨rfl, -⟩ := Prod.mk.inj hsaved
        exact Files.Tree.stat_write hwrite
  rw [load_of_stat hstat]
  exact ofText_toText hvalid (sound_sections hvalid hintegers hdoubles) path

/-- Settings with a user agent of two lines that looks like a comment in the second. -/
theorem load_save_multiline : load (save ⟨⟨2, .ofInt 60, 3, 300⟩, ⟨.infinite false, "1:\n # 2"⟩⟩
      ⟨.here, ["settings".toList]⟩ .empty).1 ⟨.here, ["settings".toList]⟩
    = .ok ⟨⟨2, .ofInt 60, 3, 300⟩, ⟨.infinite false, "1:\n # 2"⟩⟩ :=
  load_save ⟨by decide, by decide, by decide, by decide⟩ (by decide) (by decide) (Prod.ext rfl rfl)

end FeedSieve.Settings
