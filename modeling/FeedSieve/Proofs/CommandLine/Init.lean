/-
Making settings.

The numbers that are chosen for new settings are bounded in three places: by the
options of the command, when the settings are made, and when they are loaded. An
option takes every number from its least one on, as far as a number can be read
at all (`exists_read_init_iff`). The settings, made or loaded, have a bound for
the retries on top of that, of which the options know nothing.

Up to that bound the command keeps what it promises. What was chosen is written,
if a file can be written at the path, and is loaded from there with everything
else at its default. Beyond it the program breaks down before it has written
anything (`init_settles`).
-/
import FeedSieve.Proofs.Files.Writable
import FeedSieve.Proofs.Run.Hint
import FeedSieve.Proofs.Settings.Saved

namespace FeedSieve.Settings

open Lax (Checked)

variable {n r : Nat} {path : Files.Path} {files : Files.Tree}

-- ============================================================= settings

/-- The defaults, but for how many downloads run at a time and how often a failed
one is tried again. -/
def Profile.choosing (n r : Nat) : Profile :=
  { Profile.default with download := { Download.default with ndownloads := n, retries := r } }

theorem valid_choosing (hn : 1 ≤ n) (hr : r ≤ mostRetries) : Valid (Profile.choosing n r) where
  ndownloads := hn
  timeout := valid_default.timeout
  retries := hr
  requestTimeout := valid_default.requestTimeout

/-- Too many retries are refused. -/
theorem checkRetries_of_lt (h : mostRetries < r) :
    checkRetries (.int r) = .flawed (.atMost mostRetries) := by
  have hread := natFrom_int (Nat.zero_le r)
  unfold checkRetries
  rw [hread]
  exact if_pos h

/-- Settings are made of two numbers unless there are too many retries. -/
theorem starting_eq (hn : 1 ≤ n) : Profile.starting n r
    = if r ≤ mostRetries then .good (.choosing n r)
      else .bad [⟨["retries"], .atMost mostRetries⟩] := by
  show ((fun download => ⟨download, Http.default⟩) <$> (Download.mk
    <$> (Lax.natFrom 1 (.int n)).within "ndownloads"
    <*> (Checked.good Download.default.timeout).within "timeout"
    <*> (checkRetries (.int r)).within "retries"
    <*> (Checked.good Download.default.retryDelay).within "retry_delay_ms") : Checked Profile) = _
  rw [natFrom_int hn]
  split
  · rename_i hr
    rw [checkRetries_int hr]
    rfl
  · rename_i hr
    rw [checkRetries_of_lt (Nat.not_le.mp hr)]
    rfl

/-- Where a file can be written settings can be saved, and what was chosen is
loaded from there. -/
theorem exists_save_choosing (hn : 1 ≤ n) (hshort : n < 10 ^ Text.maxDigits)
    (hr : r ≤ mostRetries) (hwritable : files.Writable path) :
    ∃ files', save (.choosing n r) path files = (files', .ok ())
      ∧ load files' path = .ok (.choosing n r) := by
  obtain ⟨files', hwrite⟩ :=
    hwritable.exists_write (Utf8.encode (toText (.choosing n r))) Files.plainMode
  have hsave : save (.choosing n r) path files = (files', .ok ()) := by
    have hparents := hwritable.parents
    unfold save
    generalize files.makeAll path.parent = made at hparents hwrite
    obtain ⟨made, fault⟩ := made
    obtain rfl : fault = none := hparents
    simp only at hwrite ⊢
    rw [hwrite]
  refine ⟨files', hsave, load_save (valid_choosing hn hr) ?_ ?_ hsave⟩
  · rw [List.forall_mem_cons, List.forall_mem_singleton]
    have hdelay : (Text.ofNat Download.default.retryDelay).length ≤ Text.maxDigits := by decide
    exact ⟨of_decide_eq_true (Text.isWritable_iff.mpr hshort), hdelay⟩
  · show ∀ d ∈ [Download.default.timeout, Http.default.timeout], _
    decide

end FeedSieve.Settings

namespace FeedSieve.CommandLine

open Files (Path)
open Settings (Profile mostRetries)

variable {flags : List Flag} {forms : List (Text × Form)} {mixed : Bool} {words left : List Text}
  {given : List Given} {long value : Text} {path : Option Path} {n r : Nat} {force : Bool}
  {world : World}

-- ============================================================== options

/-- The value of an option is that of an option that is given. -/
theorem exists_of_valueOf? (h : valueOf? given long = some value) : ∃ g ∈ given, g.long = long := by
  obtain ⟨g, hg, -⟩ := Option.bind_eq_some_iff.mp h
  obtain ⟨hmem, hlong⟩ := List.mem_filter.mp (List.mem_of_getLast? hg)
  exact ⟨g, hmem, beq_iff_eq.mp hlong⟩

/-- A part of the command line is read if its words are, nothing is asked for at
once and all values have their forms. -/
theorem readPart_eq_ok_iff : readPart flags forms mixed words = .ok (given, left) ↔
    readWords flags mixed words = .ok (given, left) ∧ question? given = none
      ∧ ∀ g ∈ given, ∀ form, forms.lookup g.long = some form → ∀ value,
        valueOf? given g.long = some value → form.fault? value = none := by
  have hforms (given : List Given) : (given.findSome? fun g => do
        let form ← forms.lookup g.long
        let value ← valueOf? given g.long
        form.fault? value) = none
      ↔ ∀ g ∈ given, ∀ form, forms.lookup g.long = some form → ∀ value,
        valueOf? given g.long = some value → form.fault? value = none := by
    simp only [List.findSome?_eq_none_iff, Option.bind_eq_bind, Option.bind_eq_none_iff]
  unfold readPart
  constructor
  · intro h
    split at h
    · cases h
    · rename_i given' left' hread
      simp only at h
      split at h
      · cases h
      · cases h
      · rename_i hquestion hwrong
        obtain ⟨rfl, rfl⟩ := Prod.mk.inj (Except.ok.inj h)
        exact ⟨hread, hquestion, (hforms _).mp hwrong⟩
  · rintro ⟨hread, hquestion, hvalues⟩
    rw [hread]
    simp only
    rw [hquestion, (hforms given).mpr hvalues]

/-- Then the value of an option has the form that is asked for. -/
theorem fault?_of_readPart {form : Form} (h : readPart flags forms mixed words = .ok (given, left))
    (hform : forms.lookup long = some form) (hvalue : valueOf? given long = some value) :
    form.fault? value = none := by
  obtain ⟨-, -, hvalues⟩ := readPart_eq_ok_iff.mp h
  obtain ⟨g, hg, rfl⟩ := exists_of_valueOf? hvalue
  exact hvalues g hg form hform value hvalue

/-- A number without bound is any that is read. -/
theorem whole?_none : whole? none value = Text.integer? value := by
  unfold whole?
  cases Text.integer? value <;> simp

/-- A number that is taken for an option is not below the least one, and it can
be written. -/
theorem whole?_bounds {least : Int} (h : (Form.whole (some least)).fault? value = none) :
    ∃ i, whole? none value = some i ∧ least ≤ i ∧ i.natAbs < 10 ^ Text.maxDigits := by
  have hsome : (whole? (some least) value).isNone = false := by
    by_contra hnone
    rw [Bool.not_eq_false] at hnone
    change (if (whole? (some least) value).isNone then some Refusal.misuse else none) = none at h
    rw [hnone] at h
    cases h
  obtain ⟨i, hi⟩ := Option.isSome_iff_exists.mp (Option.isNone_eq_false_iff.mp hsome)
  obtain ⟨hread, hleast⟩ := Option.filter_eq_some_iff.mp hi
  exact ⟨i, whole?_none.trans hread, of_decide_eq_true hleast, Text.natAbs_lt_of_integer? hread⟩

/-- So is the number that is meant, if the one that is meant without the option
is. -/
theorem number_bounds (long : Text) {least absent : Nat}
    (h : readPart flags forms mixed words = .ok (given, left))
    (hform : forms.lookup long = some (.whole (some least)))
    (habsent : least ≤ absent ∧ absent < 10 ^ Text.maxDigits) :
    least ≤ (((valueOf? given long).bind (whole? none)).map Int.toNat).getD absent
      ∧ (((valueOf? given long).bind (whole? none)).map Int.toNat).getD absent
        < 10 ^ Text.maxDigits := by
  cases hvalue : valueOf? given long with
  | none => exact habsent
  | some value =>
      obtain ⟨i, hi, hleast, hshort⟩ := whole?_bounds (fault?_of_readPart h hform hvalue)
      rw [Option.bind_some, hi, Option.map_some, Option.getD_some]
      omega

/-- The numbers that the command is given are not below the least ones, and can be
written. -/
theorem bounds_of_read_init (h : Name.init.read words = .ok (.init path n r force)) :
    1 ≤ n ∧ n < 10 ^ Text.maxDigits ∧ r < 10 ^ Text.maxDigits := by
  unfold Name.read at h
  split at h
  · cases h
  · rename_i given hread
    obtain ⟨-, rfl, rfl, -⟩ := Command.init.inj (Except.ok.inj h)
    have hmany := number_bounds "--ndownloads" hread rfl
      ⟨Nat.le_refl 1, Text.isWritable_iff.mp (by decide)⟩
    have hoften := number_bounds "--retries" hread rfl
      ⟨Nat.zero_le 3, Text.isWritable_iff.mp (by decide)⟩
    exact ⟨hmany.1, hmany.2, hoften.2⟩
  · cases h

/-- A number that can be written is taken, if it is not below the least one. -/
theorem fault?_ofNat {least : Int} (hleast : least ≤ n) (hshort : n < 10 ^ Text.maxDigits) :
    (Form.whole (some least)).fault? (Text.ofNat n) = none := by
  have hread : Text.integer? (Text.ofNat n) = some (n : Int) := whole?_none ▸ whole?_ofNat hshort
  have hsome : whole? (some least) (Text.ofNat n) = some (n : Int) := by
    rw [whole?, hread]
    exact Option.filter_eq_some_iff.mpr ⟨rfl, decide_eq_true hleast⟩
  show (if (whole? (some least) (Text.ofNat n)).isNone then some Refusal.misuse else none) = none
  rw [hsome]
  rfl

/-- The words that give both numbers. -/
def numberWords (n r : Nat) : List Text :=
  ["--ndownloads".toList, Text.ofNat n, "--retries".toList, Text.ofNat r]

/-- They are read as these numbers. -/
theorem read_numberWords (hn : 1 ≤ n) (hshort : n < 10 ^ Text.maxDigits)
    (hr : r < 10 ^ Text.maxDigits) :
    Name.init.read (numberWords n r) = .ok (.init none n r false) := by
  have hmany : Asks Name.init.flags "--ndownloads" := by decide
  have hoften : Asks Name.init.flags "--retries" := by decide
  have hpart : readPart Name.init.flags Name.init.forms true (numberWords n r)
      = .ok ([⟨"--ndownloads", some (Text.ofNat n)⟩, ⟨"--retries", some (Text.ofNat r)⟩], []) := by
    refine readPart_eq_ok_iff.mpr ⟨?_, rfl, ?_⟩
    · unfold numberWords
      rw [readWords_valued hmany, readWords_valued hoften]
      rfl
    · rw [List.forall_mem_cons, List.forall_mem_singleton]
      constructor
      · rintro _ ⟨⟩ _ ⟨⟩
        exact fault?_ofNat (Int.ofNat_le.mpr hn) hshort
      · rintro _ ⟨⟩ _ ⟨⟩
        exact fault?_ofNat (Int.natCast_nonneg r) hr
  unfold Name.read
  rw [hpart]
  show Except.ok (Command.init none (((whole? none (Text.ofNat n)).map Int.toNat).getD 1)
    (((whole? none (Text.ofNat r)).map Int.toNat).getD 3) false) = _
  rw [whole?_ofNat hshort, whole?_ofNat hr]
  rfl

/-- The options take every number that can be written, but not less than one
download at a time. -/
theorem exists_read_init_iff :
    (∃ words path force, Name.init.read words = .ok (.init path n r force))
      ↔ 1 ≤ n ∧ n < 10 ^ Text.maxDigits ∧ r < 10 ^ Text.maxDigits :=
  ⟨fun ⟨_, _, _, h⟩ => bounds_of_read_init h,
    fun ⟨hn, hshort, hr⟩ => ⟨_, _, _, read_numberWords hn hshort hr⟩⟩

-- ============================================================= commands

/-- Where a file can be written and none is in the way, the settings are made and
saved unless there are too many retries. -/
theorem init_eq {p : Path} (hn : 1 ≤ n)
    (hpath : (path.orElse fun _ => Settings.defaultPath? world) = some p)
    (hwritable : world.files.Writable p)
    (hfree : force = true ∨ world.files.exists? p = .ok false) :
    init path n r force world = if r ≤ mostRetries then saveAt p (.choosing n r) world
      else (world, .broken (.settings [⟨["retries"], .atMost mostRetries⟩])) := by
  obtain ⟨there, hthere⟩ := hwritable.exists_exists?
  have hgo : ¬ (there && !force) = true := by
    rcases hfree with rfl | hfree
    · rw [Bool.not_true, Bool.and_false]
      exact Bool.false_ne_true
    · obtain rfl := Except.ok.inj (hthere.symm.trans hfree)
      exact Bool.false_ne_true
  unfold init
  rw [hpath]
  simp only
  rw [hthere]
  simp only
  rw [if_neg hgo, Settings.starting_eq hn]
  by_cases hr : r ≤ mostRetries
  · rw [if_pos hr, if_pos hr]
  · rw [if_neg hr, if_neg hr]

/-- The options take every number that can be written, but not less than one
download at a time. Whichever two they take, the settings are made and are loaded
as they were chosen, with the defaults for the rest, if there are not too many
retries; otherwise the program breaks down and has not written anything. What was
made is shown, unless the console refuses the path in it: then the program breaks
down after all. -/
theorem init_settles (n r : Nat) :
    ((∃ words path force, Name.init.read words = .ok (.init path n r force))
      ↔ 1 ≤ n ∧ n < 10 ^ Text.maxDigits ∧ r < 10 ^ Text.maxDigits)
    ∧ ∀ {line words : List Text} {shared : Shared} {path : Option Path} {force : Bool}
        {world : World} {p : Path},
      readShared line = .ok (shared, .init, words)
      → Name.init.read words = .ok (.init path n r force)
      → (path.orElse fun _ => Settings.defaultPath? world) = some p
      → world.files.Writable p
      → force = true ∨ world.files.exists? p = .ok false
      → let loudness := if shared.verbose then Loudness.everything else .news
        (r ≤ mostRetries → ∃ files exit,
          program line world = ({ world with files := files }, loudness, exit)
          ∧ Settings.load files p = .ok (.choosing n r)
          ∧ (world.refusal? (settingsPanel p n r).markup = none
            → exit = .showing 0 [settingsPanel p n r])
          ∧ ∀ what, world.refusal? (settingsPanel p n r).markup = some what
            → exit = .broken (.markup what))
        ∧ (mostRetries < r → program line world
            = (world, loudness, .broken (.settings [⟨["retries"], .atMost mostRetries⟩]))) := by
  refine ⟨exists_read_init_iff, fun {line words shared path force world p}
    hline hread hpath hwritable hfree => ?_⟩
  obtain ⟨hn, hshort, -⟩ := bounds_of_read_init hread
  have hinit := init_eq (r := r) hn hpath hwritable hfree
  have hprogram : program line world
      = ((init path n r force world).1, if shared.verbose then Loudness.everything else .news,
          (init path n r force world).2) := by
    unfold program
    rw [hline]
    simp only
    rw [hread]
    rfl
  rw [hprogram, hinit]
  constructor
  · intro hr
    obtain ⟨files, hsave, hload⟩ := Settings.exists_save_choosing hn hshort hr hwritable
    refine ⟨files, .saying world 0 (settingsPanel p n r), ?_, hload, fun hshown => ?_,
      fun what hrefused => ?_⟩
    · rw [if_pos hr, saveAt, hsave]
      rfl
    · rw [Exit.saying, hshown]
    · rw [Exit.saying, hrefused]
  · intro hr
    rw [if_neg (Nat.not_le.mpr hr)]

/-- Words that make settings with so many retries. -/
def retryWords (retries : Text) : List Text := ["init", "--path", "c.yaml", "--retries", retries]

/-- A world without files. -/
def bareWorld : World where
  files := .empty
  web := ⟨[], []⟩
  pauses := []
  bindings := []
  homes := []
  now := .first
  mark := "mark"

/-- The most retries are loaded again; one more, and there is no file. -/
theorem init_settles_most :
    (∃ files, program (retryWords "20") bareWorld
        = ({ bareWorld with files := files }, .news,
            .showing 0 [settingsPanel (.ofText "c.yaml") 1 20])
      ∧ Settings.load files (.ofText "c.yaml") = .ok (.choosing 1 20))
    ∧ program (retryWords "21") bareWorld
      = (bareWorld, .news, .broken (.settings [⟨["retries"], .atMost mostRetries⟩])) := by
  have hline (retries : Text) : readShared (retryWords retries)
      = .ok (.ofGiven [], .init, (retryWords retries).drop 1) := rfl
  have hmost : Name.init.read ((retryWords "20").drop 1)
      = .ok (.init (some (.ofText "c.yaml")) 1 20 false) := rfl
  have hmore : Name.init.read ((retryWords "21").drop 1)
      = .ok (.init (some (.ofText "c.yaml")) 1 21 false) := rfl
  have hwritable : bareWorld.files.Writable (.ofText "c.yaml") :=
    ⟨rfl, ["here".toList, "c.yaml".toList], rfl, (by decide), fun _ => (by decide)⟩
  obtain ⟨files, exit, hprogram, hload, hshown, -⟩ :=
    ((init_settles 1 20).2 (hline _) hmost rfl hwritable (.inr rfl)).1 (by decide)
  obtain rfl := hshown rfl
  exact ⟨⟨files, hprogram, hload⟩,
    ((init_settles 1 21).2 (hline _) hmore rfl hwritable (.inr rfl)).2 (by decide)⟩

/-- The option takes one retry more than the settings. -/
theorem one_retry_too_many :
    Name.init.read ((retryWords "21").drop 1) = .ok (.init (some (.ofText "c.yaml")) 1 21 false)
      ∧ (program (retryWords "21") bareWorld).2.2.breakdown
        = some (.settings [⟨["retries"], .atMost mostRetries⟩]) :=
  ⟨rfl, rfl⟩

end FeedSieve.CommandLine
