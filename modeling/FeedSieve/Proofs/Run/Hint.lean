/-
The command that a listing shows.

A listing ends with the command that downloads what it lists. For the command
to mean the same run three things must come back: its words, when a shell
splits it (`ShellWord.split?_join`); the options, when the program reads the
words (`readWords_valued`), whatever their values look like; and the paths
and the number among the values, from how they are written
(`Path.Tidy.ofText_text`, `whole?_ofNat`). The number must have few enough digits
to be written. One from the settings may have more, and then there is no
command (`listed_command`).
-/
import FeedSieve.CommandLine.Program
import FeedSieve.Proofs.Files.Tidy
import FeedSieve.Proofs.Run.Preview
import FeedSieve.Proofs.Text.Numerals
import FeedSieve.Proofs.Text.ShellWords

namespace FeedSieve.CommandLine

variable {flags : List Flag} {mixed : Bool} {word : Text} {left : List Text}

-- ============================================================= options

/-- A word that asks for the value of an option. -/
def Asks (flags : List Flag) (long : Text) : Prop :=
  long ≠ "--".toList ∧ givesOptions long = true ∧ wordSays flags long = .ok ⟨[], some long⟩

instance (flags : List Flag) (long : Text) : Decidable (Asks flags long) :=
  inferInstanceAs (Decidable (_ ∧ _ ∧ _))

/-- The word behind it is the value, whatever it looks like. -/
theorem readWords_valued {long : Text} (h : Asks flags long) (value : Text) (rest : List Text) :
    readWords flags mixed (long :: value :: rest)
      = (readWords flags mixed rest).map fun (given, left) =>
          (⟨long, some value⟩ :: given, left) := by
  rw [readWords, if_neg h.1, if_pos h.2.1, h.2.2]
  rfl

/-- The words for options with values. -/
def optionWords (options : List (Text × Text)) : List Text := options.flatMap fun o => [o.1, o.2]

/-- The options that they give. -/
def optionsGiven (options : List (Text × Text)) : List Given :=
  options.map fun o => ⟨o.1, some o.2⟩

/-- Options with values are read up to the first word that is none. -/
theorem readWords_optionWords {options : List (Text × Text)} (h : ∀ o ∈ options, Asks flags o.1)
    (hword : givesOptions word = false) (hend : word ≠ "--".toList) :
    readWords flags false (optionWords options ++ word :: left)
      = .ok (optionsGiven options, word :: left) := by
  induction options with
  | nil =>
      rw [optionWords, List.flatMap_nil, List.nil_append, readWords, if_neg hend, hword]
      rfl
  | cons o rest ih =>
      rw [List.forall_mem_cons] at h
      have hwords : optionWords (o :: rest) ++ word :: left
          = o.1 :: o.2 :: (optionWords rest ++ word :: left) := rfl
      rw [hwords, readWords_valued h.1, ih h.2]
      rfl

/-- A number that is written is read as the value of an option. -/
theorem whole?_ofNat {n : Nat} (h : n < 10 ^ Text.maxDigits) :
    whole? none (Text.ofNat n) = some (n : Int) := by
  have hread : Text.integer? (Text.ofNat n) = some (n : Int) :=
    (Text.integer?_ofInt_eq_some_iff n).mpr (of_decide_eq_true (Text.isWritable_iff.mpr h))
  rw [whole?, hread, Option.filter_some, if_pos (by simp)]

end FeedSieve.CommandLine

namespace FeedSieve.Run

open CommandLine (Asks Shared optionWords optionsGiven readWords sharedFlags)
open Console (Shown)
open Feed (Channel Item)
open Files (Path)
open Settings (Profile)

variable {options : Options} {s : Profile} {c : Config} {mode : Mode}

-- ============================================================= configs

/-- The rules for options, all of them kept. -/
theorem ofOptions_eq_ok_iff : Config.ofOptions mode options s = .ok c ↔
    hasUrl options.url = options.file.isNone
      ∧ 1 ≤ options.ndownloads.getD s.download.ndownloads
      ∧ (options.title.isSome = true → mode = .create)
      ∧ ∃ output, options.output = some output
        ∧ c = ⟨mode, options.url, options.file, output, options.query,
            (options.ndownloads.getD s.download.ndownloads).toNat, options.title⟩ := by
  have hsource : hasUrl options.url = options.file.isNone
      ↔ ¬ (hasUrl options.url && options.file.isSome) = true
        ∧ ¬ (!hasUrl options.url && options.file.isNone) = true := by
    cases hasUrl options.url <;> cases options.file <;> simp
  have htitle : (options.title.isSome = true → mode = .create)
      ↔ ¬ (options.title.isSome && mode != .create) = true := by
    rw [Bool.and_eq_true, bne_iff_ne, not_and, not_not]
  unfold Config.ofOptions
  rw [hsource, htitle]
  dsimp only
  constructor
  · intro h
    split at h
    · cases h
    · rename_i hone
      split at h
      · cases h
      · rename_i hsome
        split at h
        · cases h
        · rename_i output houtput
          split at h
          · cases h
          · rename_i hmany
            split at h
            · cases h
            · rename_i hnew
              exact ⟨⟨hone, hsome⟩, Int.not_lt.mp hmany, hnew, output, houtput,
                (Except.ok.inj h).symm⟩
  · rintro ⟨⟨hone, hsome⟩, hmany, hnew, output, houtput, rfl⟩
    rw [if_neg hone, if_neg hsome, houtput]
    dsimp only
    rw [if_neg (Int.not_lt.mpr hmany), if_neg hnew]

-- ============================================================ commands

/-- The options of the command for a download. -/
def Config.downloadOptions (config : Config) : List (Text × Text) :=
  (if config.sourceIsUrl then "--url".toList else "--file".toList, config.source)
    :: ("--output".toList, config.output.text)
    :: ("--ndownloads".toList, Text.ofNat config.ndownloads)
    :: if config.query.isEmpty then [] else [("--query".toList, config.query)]

theorem downloadWords_eq (c : Config) : c.downloadWords = Product.name
    :: (optionWords c.downloadOptions ++ [Mode.download.name]) := by
  unfold Config.downloadWords Config.downloadOptions
  dsimp only
  split <;> split <;> rfl

/-- These options are understood. -/
theorem asks_downloadOptions : ∀ o ∈ c.downloadOptions, Asks sharedFlags o.1 := by
  unfold Config.downloadOptions
  simp only [List.forall_mem_cons]
  refine ⟨?_, by decide, by decide, ?_⟩
  · split <;> decide
  · split
    · exact fun o ho => by cases ho
    · have hquery : Asks sharedFlags "--query".toList := by decide
      exact List.forall_mem_singleton.mpr hquery

/-- What the program makes of them. -/
theorem ofGiven_downloadOptions (hfew : c.ndownloads < 10 ^ Text.maxDigits) :
    Shared.ofGiven (optionsGiven c.downloadOptions)
      = ⟨if c.sourceIsUrl then some c.source else none,
          if c.sourceIsUrl then none else some (Path.ofText c.source),
          some (Path.ofText c.output.text), c.query, some c.ndownloads, none, false⟩ := by
  have hmany := CommandLine.whole?_ofNat hfew
  rw [← hmany]
  unfold Config.downloadOptions
  -- which options are given depends on the source and on the query
  cases hurl : c.sourceIsUrl <;> cases hquery : c.query <;> rfl

/-- A source that is an address is given as one. -/
theorem hasUrl_source (h : c.sourceIsUrl = true) : hasUrl (some c.source) = true := by
  rw [Config.source, if_pos h]
  exact h

/-- They make a run that downloads, with what it reads, where to, and how many
at a time as in the listing. -/
theorem ofOptions_downloadOptions (hfew : c.ndownloads < 10 ^ Text.maxDigits)
    (hsome : 1 ≤ c.ndownloads) (hoption : c.sourceIsUrl = c.file.isNone)
    (hfile : ∀ p, c.file = some p → p.Tidy) (houtput : c.output.Tidy) (s' : Profile) :
    ∃ c', Config.ofOptions .download
          ((Shared.ofGiven (optionsGiven c.downloadOptions)).options none) s' = .ok c'
      ∧ c'.mode = .download ∧ c'.source = c.source ∧ c'.sourceIsUrl = c.sourceIsUrl
      ∧ c'.output = c.output ∧ c'.query = c.query ∧ c'.ndownloads = c.ndownloads := by
  have hmany : (1 : Int) ≤ c.ndownloads := Int.ofNat_le.mpr hsome
  rw [ofGiven_downloadOptions hfew, houtput.ofText_text]
  cases hurl : c.sourceIsUrl with
  | true =>
      have hgiven := hasUrl_source hurl
      refine ⟨_, ofOptions_eq_ok_iff.mpr ⟨hgiven, hmany, fun h => (by cases h),
        _, rfl, rfl⟩, rfl, ?_, hgiven, rfl, rfl, rfl⟩
      exact if_pos hgiven
  | false =>
      refine ⟨_, ofOptions_eq_ok_iff.mpr ⟨rfl, hmany, fun h => (by cases h),
        _, rfl, rfl⟩, rfl, ?_, rfl, rfl, rfl, rfl⟩
      obtain ⟨p, hp⟩ := Option.isSome_iff_exists.mp (Option.isNone_eq_false_iff.mp
        (hoption.symm.trans hurl))
      have hsource : c.source = p.text := by
        rw [Config.source, hurl, hp]
        rfl
      show (Path.ofText c.source).text = c.source
      rw [hsource, (hfile p hp).ofText_text]

-- ============================================================ listings

/-- The command that is shown below a table, if there is one. -/
def hint? : List Shown → Option Text
  | [.table _ _ _, .line [_, .text command]] => some command
  | _ => none

variable {items : List Item}

/-- A listing shows the command if the number in it can be written. -/
theorem listed_command (channel : Channel) (hitems : items ≠ []) :
    hint? (check c channel items).shown
      = if c.ndownloads < 10 ^ Text.maxDigits then some c.downloadCommand else none := by
  have hsome : items.isEmpty = false := List.isEmpty_eq_false_iff.mpr hitems
  rw [check, hsome, Bool.false_or]
  by_cases hfew : c.ndownloads < 10 ^ Text.maxDigits
  · rw [if_pos (Text.isWritable_iff.mpr hfew), if_pos hfew, listing, hsome]
    rfl
  · rw [if_neg (mt Text.isWritable_iff.mp hfew), if_neg hfew]
    rfl

/-- The command below a listing, split by a shell and read by the program,
gives options that are accepted whatever the settings are. They make a run
that downloads from the same source to the same place, with the same query
and as many downloads at a time. There is no such command, and the listing
fails, if this number has too many digits to be written. -/
theorem hint_reproduces (hconfig : Config.ofOptions .check options s = .ok c)
    (hpaths : ∀ p ∈ options.file.toList ++ options.output.toList, p.Tidy)
    (channel : Channel) (hitems : items ≠ []) :
    (c.ndownloads < 10 ^ Text.maxDigits →
      ∃ command words given, hint? (check c channel items).shown = some command
        ∧ (check c channel items).ending = .ok 0
        ∧ ShellWord.split? command = some (Product.name :: words)
        ∧ readWords sharedFlags false words = .ok (given, [Mode.download.name])
        ∧ ∀ s', ∃ c', Config.ofOptions .download ((Shared.ofGiven given).options none) s' = .ok c'
          ∧ c'.mode = .download ∧ c'.source = c.source ∧ c'.sourceIsUrl = c.sourceIsUrl
          ∧ c'.output = c.output ∧ c'.query = c.query ∧ c'.ndownloads = c.ndownloads)
    ∧ (10 ^ Text.maxDigits ≤ c.ndownloads →
      hint? (check c channel items).shown = none
        ∧ (check c channel items).ending = .error .numeral) := by
  obtain ⟨hoption, hsome, -, output, houtput, hc⟩ := ofOptions_eq_ok_iff.mp hconfig
  have hlisted := listed_command (c := c) channel hitems
  constructor
  · intro hfew
    rw [if_pos hfew] at hlisted
    refine ⟨_, _, _, hlisted, check_ending channel items (Text.isWritable_iff.mpr hfew), ?_,
      CommandLine.readWords_optionWords (asks_downloadOptions (c := c)) rfl (by decide), ?_⟩
    · rw [Config.downloadCommand, ShellWord.split?_join, downloadWords_eq]
    · refine ofOptions_downloadOptions hfew ?_ (hc ▸ hoption) ?_ ?_
      · rw [hc]
        exact Int.toNat_le_toNat hsome
      · intro p hp
        exact hpaths p (List.mem_append_left _ (by simpa [hc] using hp))
      · rw [hc]
        exact hpaths output (List.mem_append_right _ (by simp [houtput]))
  · intro hlong
    have hshort : ¬ c.ndownloads < 10 ^ Text.maxDigits := Nat.not_lt.mpr hlong
    rw [if_neg hshort] at hlisted
    refine ⟨hlisted, ?_⟩
    rw [check, if_neg]
    rw [Bool.or_eq_true, Text.isWritable_iff, List.isEmpty_iff]
    exact fun h => h.elim hitems hshort

/-- An item to list. -/
def lonely : Item := ⟨1, "One", [], none, none, none, none, none, none, none⟩

/-- Options with names that a shell and a program could take for something
else. -/
def oddOptions (ndownloads : Option Int) : Options :=
  ⟨none, some (.ofText "./-f"), some (.ofText "my dl/"), "title:it's $5", ndownloads, none⟩

/-- A run with them. -/
def oddConfig (ndownloads : Nat) : Config :=
  ⟨.check, none, some (.ofText "-f"), .ofText "my dl", "title:it's $5", ndownloads, none⟩

/-- Settings with very many downloads at a time. -/
def manySettings : Profile :=
  { Profile.default with
    download := { Settings.Download.default with ndownloads := 10 ^ Text.maxDigits } }

/-- What the shell could take for something else comes through. A number from the
settings can be too long. -/
theorem hint_reproduces_odd :
    (Config.ofOptions .check (oddOptions (some 2)) .default = .ok (oddConfig 2)
      ∧ ∀ channel, ∃ command words given,
        hint? (check (oddConfig 2) channel [lonely]).shown = some command
          ∧ ShellWord.split? command = some (Product.name :: words)
          ∧ readWords sharedFlags false words = .ok (given, [Mode.download.name])
          ∧ ∃ c', Config.ofOptions .download ((Shared.ofGiven given).options none) manySettings
              = .ok c'
            ∧ c'.source = "-f".toList ∧ c'.query = "title:it's $5".toList ∧ c'.ndownloads = 2)
      ∧ Config.ofOptions .check (oddOptions none) manySettings
          = .ok (oddConfig (10 ^ Text.maxDigits))
      ∧ ∀ channel, (check (oddConfig (10 ^ Text.maxDigits)) channel [lonely]).ending
          = .error .numeral := by
  have hpaths (n : Option Int) : ∀ p ∈ (oddOptions n).file.toList ++ (oddOptions n).output.toList,
      p.Tidy := by
    show ∀ p ∈ [Path.ofText "./-f", .ofText "my dl/"], p.Tidy
    exact List.forall_mem_cons.mpr ⟨Path.tidy_ofText _,
      List.forall_mem_singleton.mpr (Path.tidy_ofText _)⟩
  have hfew : Config.ofOptions .check (oddOptions (some 2)) .default = .ok (oddConfig 2) := by
    decide
  have hmany : Config.ofOptions .check (oddOptions none) manySettings
      = .ok (oddConfig (10 ^ Text.maxDigits)) :=
    ofOptions_eq_ok_iff.mpr ⟨rfl, Int.ofNat_le.mpr (Nat.one_le_pow _ _ (by decide)),
      fun h => (by cases h), _, rfl, rfl⟩
  refine ⟨⟨hfew, fun channel => ?_⟩, hmany, fun channel => ?_⟩
  · have hsmall : (oddConfig 2).ndownloads < 10 ^ Text.maxDigits :=
      Text.isWritable_iff.mp (by decide)
    obtain ⟨command, words, given, hshown, -, hsplit, hread, hagain⟩ :=
      (hint_reproduces hfew (hpaths _) channel (List.cons_ne_nil lonely [])).1 hsmall
    obtain ⟨c', hc', -, hsource, -, -, hquery, hndownloads⟩ := hagain manySettings
    exact ⟨command, words, given, hshown, hsplit, hread, c', hc', hsource, hquery, hndownloads⟩
  · exact ((hint_reproduces hmany (hpaths _) channel (List.cons_ne_nil lonely [])).2 (Nat.le_refl _)).2

end FeedSieve.Run
