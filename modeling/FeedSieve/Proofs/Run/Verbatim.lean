/-
Texts that are shown as they are.

What a run hands to the console comes from nine sites (`Invocation.exists_sites`): the
listing, the downloads, a new feed and failures have their own. At each there is markup
of the program's own, and texts from somewhere else that are meant to be shown as they
are: titles, addresses, queries, paths, reasons, messages.

At all sites but one every text is escaped, and lines are framed. So there is no tag
that the program did not put there, and the texts are read as they are if they fit
where they stand. A command fits wherever it stands, since it ends in the name of its
mode. The line about a new feed is the exception. The path in it is not escaped, and is
read as it is only if there is nothing in it that could be markup (`verbatim_created_iff`).
-/
import FeedSieve.Proofs.Console.Lines
import FeedSieve.Proofs.Run.Stages
import FeedSieve.Proofs.Text.Numerals
import Mathlib.Data.List.Forall2

namespace FeedSieve.Run

open Console (Framed Line Own Shown raw)
open Download (Outcome)
open Feed (Channel Item)
open Files (Path)
open Markup (Plain Whole closes escapeTags leavesOpen marks shownText tagsIn trailing)

-- ================================================================ sites

/-- What a run may show. -/
inductive Site where
  | noMatches (query : Text)
  | items (channel : Channel) (selected : List Item)
  | command (config : Config)
  | announcement (channel : Channel)
  | progress (done total : Nat)
  | results (outcomes : List Outcome)
  | verdict (outcomes : List Outcome)
  | created (title : Text) (count : Nat) (path : Path)
  | failure (why : Failure)

namespace Site

/-- What is shown. -/
def shown : Site → Shown
  | noMatches query => Run.noMatches query
  | items channel selected => itemTable channel selected
  | command config =>
      .line [raw "\nTo download these files run:\n\t", .text config.downloadCommand]
  | announcement channel => Run.announcement channel
  | progress done total => .bar done total
  | results outcomes =>
      .table [raw "Download Summary"] ["#", "Title", "Status", "Details"]
        (outcomes.map outcomeRow)
  | verdict outcomes => Run.verdict outcomes
  | created title count path => createdLine title count path
  | failure why => CommandLine.failureLine why

/-- What is meant to be shown. The path of a new feed is a text like others. -/
def template : Site → Shown
  | created title count path => Console.inColour "green"
      [raw "✅ Created feed '", .text title,
        raw (Text.concat ["' with ", Text.ofNat count, " items: "]), .text path.text]
  | site => site.shown

/-- Every line is read as it is meant to be: with the tags of the program's own, and
with the texts in it as they are. -/
def Verbatim (site : Site) : Prop :=
  List.Forall₂ (fun line meant => marks line.markup = meant.meant)
    site.shown.lines site.template.lines

/-- No line has other tags than those of the program's own. -/
def Tame (site : Site) : Prop :=
  List.Forall₂ (fun line meant => (tagsIn (marks line.markup)).Sublist (tagsIn meant.meant))
    site.shown.lines site.template.lines

/-- The details of an outcome. -/
def details (o : Outcome) : Text :=
  match o.reason with
  | none => o.path.text
  | some reason => if reason.isEmpty then "Failed" else reason

/-- The path that is shown of a new feed has no tags in it, and does not close one that
the title leaves open. -/
def Guarded : Site → Prop
  | created title _ path => (leavesOpen title = true → closes path.text = false)
      ∧ escapeTags 0 path.text = path.text
  | _ => True

/-- The texts do not end in backslashes that are read otherwise where they stand, and
a path that is shown has nothing in it that is markup. -/
def Settled : Site → Prop
  | noMatches query => trailing query ≤ 1
  | items channel selected => trailing channel.title ≠ 1
      ∧ ∀ item ∈ selected, trailing item.title ≠ 1
        ∧ ∀ url, item.enclosureUrl = some url → trailing url ≠ 1
  | announcement channel => trailing channel.title ≤ 1
  | results outcomes => ∀ o ∈ outcomes, trailing o.title ≠ 1 ∧ trailing (details o) ≠ 1
  | created title _ path => trailing title ≠ 1
      ∧ (leavesOpen title = true → closes path.text = false)
      ∧ escapeTags 0 path.text = path.text ∧ trailing path.text = 0
  | failure why => why.isInterruption = false → trailing why.message ≤ 1
  | command _ | progress .. | verdict _ => True

/-- Where all texts are escaped, what is read is what is meant if they fit, and there
are no other tags in any case. -/
theorem verbatim_of_framed {site : Site} (hsame : site.template = site.shown)
    (hframed : ∀ line ∈ site.shown.lines, Framed line)
    (hfits : (∀ line ∈ site.shown.lines, line.Fits) ↔ site.Settled) :
    (site.Verbatim ↔ site.Settled) ∧ (site.Guarded → site.Tame) := by
  unfold Verbatim Tame
  rw [hsame, List.forall₂_same, List.forall₂_same, ← hfits]
  exact ⟨forall₂_congr fun line hline => (hframed line hline).verbatim_iff,
    fun _ line hline => (hframed line hline).tagsIn_sublist⟩

-- ========================================= words of the program's own

theorem plain_of_digits {t : Text} (h : Text.PlainDigits t) : Plain t := by
  refine fun d hd => ⟨?_, ?_, ?_⟩ <;> rintro rfl <;> cases h _ hd

theorem plain_ofNat (n : Nat) : Plain (Text.ofNat n) :=
  plain_of_digits fun _ hc => Text.isPlainDigit_of_mem_ofNat hc

theorem plain_padded (width n : Nat) : Plain (Text.padded width n) :=
  plain_of_digits (Text.plainDigits_padded width n)

theorem plain_offsetText (seconds : Int) : Plain (Calendar.Moment.offsetText "" seconds) := by
  unfold Calendar.Moment.offsetText
  refine Markup.plain_concat ?_
  simp only [List.forall_mem_cons]
  refine ⟨?_, plain_padded _ _, by decide, plain_padded _ _, ?_, by decide⟩
  · split <;> decide
  · split
    · decide
    · exact plain_padded _ _

theorem plain_short (m : Calendar.Moment) : Plain m.short := by
  unfold Calendar.Moment.short
  refine Markup.plain_concat ?_
  simp only [List.forall_mem_cons]
  refine ⟨plain_ofNat _, by decide, plain_padded _ _, by decide, plain_padded _ _, by decide,
    plain_padded _ _, by decide, plain_padded _ _, by decide, ?_, by decide⟩
  split
  · decide
  · exact plain_offsetText _

-- ============================================================== framing

theorem framed_heads {columns : List Text} (h : ∀ head ∈ columns, Plain head) :
    ∀ head ∈ columns, Framed [.raw head] := fun head hhead => .words (h head hhead) .nil

theorem framed_noMatches (query : Text) : ∀ line ∈ (noMatches query).shown.lines, Framed line := by
  refine Console.framed_inColour rfl (.words (by decide) ?_)
  split
  · exact .words (by decide) .nil
  · exact .text .nil

theorem framed_items (channel : Channel) (selected : List Item) :
    ∀ line ∈ (items channel selected).shown.lines, Framed line := by
  have hcount : Own [raw (Text.concat [": ", Text.ofNat selected.length, " of ",
      Text.ofNat channel.items.length, " items match"])] := by
    refine .words (Markup.plain_concat ?_) .nil
    simp only [List.forall_mem_cons]
    exact ⟨by decide, plain_ofNat _, by decide, plain_ofNat _, by decide, by decide⟩
  refine Console.forall_lines_table.mpr ⟨?_, framed_heads (by decide), ?_⟩
  · split
    · exact .words (by decide) hcount.framed
    · exact .text hcount
  · rw [List.forall_mem_map]
    intro item _
    unfold itemRow
    simp only [List.forall_mem_cons]
    refine ⟨.words (plain_ofNat _) .nil, .text .nil, .words ?_ .nil, ?_, fun _ h => (by cases h)⟩
    · split
      · exact plain_short _
      · decide
    · have hnone : Framed [raw "[red]none[/red]"] := by
        refine .raw ?_ .nil
        exact @Whole.enclosed "none" "red" rfl (Plain.whole (by decide))
      split
      · split
        · exact hnone
        · exact .text .nil
      · exact hnone

theorem framed_command (config : Config) : ∀ line ∈ (command config).shown.lines, Framed line :=
  List.forall_mem_singleton.mpr (.words (by decide) (.text .nil))

theorem framed_announcement (channel : Channel) :
    ∀ line ∈ (announcement channel).shown.lines, Framed line := by
  have hopen : Whole "You are about to download the contents of the feed: [bold]" := by
    have hwords : Plain "You are about to download the contents of the feed: " := by decide
    exact hwords.whole.append (@Whole.tag "bold" [] rfl .nil)
  have hclose : Whole "[/bold]" := @Whole.tag "/bold" [] rfl .nil
  exact List.forall_mem_singleton.mpr (.raw hopen (.text (.raw hclose .nil)))

theorem framed_results (outcomes : List Outcome) :
    ∀ line ∈ (results outcomes).shown.lines, Framed line := by
  refine Console.forall_lines_table.mpr ⟨.words (by decide) .nil, framed_heads (by decide), ?_⟩
  rw [List.forall_mem_map]
  intro o _
  unfold outcomeRow
  simp only [List.forall_mem_cons]
  refine ⟨.words (plain_ofNat _) .nil, .text .nil, .raw ?_ .nil, .text .nil,
    fun _ h => (by cases h)⟩
  split
  · exact @Whole.enclosed "✓" "green" rfl (Plain.whole (by decide))
  · exact @Whole.enclosed "✗" "red" rfl (Plain.whole (by decide))

theorem framed_verdict (outcomes : List Outcome) :
    ∀ line ∈ (verdict outcomes).shown.lines, Framed line := by
  show ∀ line ∈ (Run.verdict outcomes).lines, Framed line
  unfold Run.verdict
  simp only
  split
  · refine Console.framed_inColour rfl (.words (Markup.plain_concat ?_) .nil)
    simp only [List.forall_mem_cons]
    exact ⟨by decide, plain_ofNat _, by decide, plain_ofNat _, by decide, by decide⟩
  · split
    · exact Console.framed_inColour rfl (.words (by decide) .nil)
    · exact Console.framed_inColour rfl (.words (by decide) .nil)

theorem framed_failure (why : Failure) : ∀ line ∈ (failure why).shown.lines, Framed line := by
  show ∀ line ∈ (CommandLine.failureLine why).lines, Framed line
  unfold CommandLine.failureLine
  split
  · have hbreak : Plain "\n" := by decide
    have hinterrupted : Whole "\n[yellow]Interrupted by user[/yellow]" := hbreak.whole.append
      (@Whole.enclosed "Interrupted by user" "yellow" rfl (Plain.whole (by decide)))
    exact List.forall_mem_singleton.mpr (.raw hinterrupted .nil)
  · have hname (kind : Kind) : Plain kind.name := by
      cases kind <;> decide
    refine Console.framed_inColour rfl (.words ?_ (.words (by decide) (.text .nil)))
    split
    · exact hname _
    · decide

-- ============================================================== fitting

theorem fits_noMatches (query : Text) :
    (∀ line ∈ (noMatches query).shown.lines, line.Fits) ↔ (noMatches query).Settled := by
  refine List.forall_mem_singleton.trans ?_
  show Line.Fits [_, _, if query.isEmpty then raw "(all)" else .text query, _] ↔ trailing query ≤ 1
  split
  · rename_i hempty
    obtain rfl := List.isEmpty_iff.mp hempty
    exact iff_of_true trivial (by decide)
  · exact (and_iff_left trivial).trans (Markup.fits_of_tag rfl)

/-- A text alone in its cell fits unless it ends in a single backslash. -/
theorem fits_cell (t : Text) : Line.Fits [.text t] ↔ trailing t ≠ 1 :=
  (and_iff_left trivial).trans (Markup.fits_of_no_tag (by decide))

theorem fits_items (channel : Channel) (selected : List Item) :
    (∀ line ∈ (items channel selected).shown.lines, line.Fits)
      ↔ (items channel selected).Settled := by
  have htitle (count : Text) (hcount : count.head? = some ':') :
      Line.Fits [if channel.title.isEmpty then raw "Feed" else .text channel.title, raw count]
        ↔ trailing channel.title ≠ 1 := by
    split
    · rename_i hempty
      rw [List.isEmpty_iff.mp hempty]
      exact iff_of_true trivial (by decide)
    · refine (and_iff_left trivial).trans (Markup.fits_of_no_tag ?_)
      show (count ++ []).head? ≠ _
      rw [List.append_nil, hcount]
      decide
  have hrow (item : Item) : (∀ cell ∈ itemRow item, Line.Fits cell)
      ↔ trailing item.title ≠ 1 ∧ ∀ url, item.enclosureUrl = some url → trailing url ≠ 1 := by
    unfold itemRow
    rw [List.forall_mem_cons, List.forall_mem_cons, List.forall_mem_cons,
      List.forall_mem_singleton, fits_cell]
    refine (and_iff_right trivial).trans (and_congr_right fun _ => (and_iff_right trivial).trans ?_)
    cases item.enclosureUrl with
    | none => exact iff_of_true trivial fun _ h => (by cases h)
    | some url =>
        simp only [Option.some.injEq, forall_eq']
        split
        · rename_i hempty
          rw [List.isEmpty_iff.mp hempty]
          exact iff_of_true trivial (by decide)
        · exact fits_cell url
  refine Console.forall_lines_table.trans ?_
  rw [htitle _ rfl, List.forall_mem_map]
  refine and_congr_right fun _ => (and_iff_right fun head _ => trivial).trans ?_
  exact forall₂_congr fun item _ => hrow item

/-- The command ends in the name of the mode. -/
theorem exists_downloadCommand (config : Config) :
    ∃ before, config.downloadCommand = before ++ "download".toList := by
  obtain ⟨words, hwords⟩ : ∃ words, config.downloadWords = words ++ ["download".toList] := by
    refine ⟨Product.name :: (if config.sourceIsUrl then "--url".toList else "--file".toList)
      :: config.source :: "--output".toList :: config.output.text :: "--ndownloads".toList
      :: Text.ofNat config.ndownloads
      :: (if config.query.isEmpty then [] else ["--query".toList, config.query]), rfl⟩
  rw [Config.downloadCommand, hwords, ShellWord.join, List.map_append]
  exact ⟨_, Text.joinWith_concat_append " " "download" (words.map ShellWord.quote) []⟩

theorem fits_command (config : Config) :
    (∀ line ∈ (command config).shown.lines, line.Fits) ↔ (command config).Settled := by
  obtain ⟨before, hbefore⟩ := exists_downloadCommand config
  refine iff_of_true (List.forall_mem_singleton.mpr ((fits_cell _).mpr ?_)) trivial
  rw [hbefore, Markup.trailing, Markup.slashesAtEnd_append]
  exact Nat.zero_ne_one

theorem fits_announcement (channel : Channel) :
    (∀ line ∈ (announcement channel).shown.lines, line.Fits) ↔ (announcement channel).Settled := by
  refine List.forall_mem_singleton.trans ?_
  exact (and_iff_left trivial).trans (Markup.fits_of_tag rfl)

theorem fits_results (outcomes : List Outcome) :
    (∀ line ∈ (results outcomes).shown.lines, line.Fits) ↔ (results outcomes).Settled := by
  have hrow (o : Outcome) : (∀ cell ∈ outcomeRow o, Line.Fits cell)
      ↔ trailing o.title ≠ 1 ∧ trailing (details o) ≠ 1 := by
    have hcells : outcomeRow o = [[raw (Text.ofNat o.index)], [.text o.title],
      [raw (if o.succeeded then "[green]✓[/green]" else "[red]✗[/red]")],
      [.text (details o)]] := rfl
    rw [hcells, List.forall_mem_cons, List.forall_mem_cons, List.forall_mem_cons,
      List.forall_mem_singleton, fits_cell, fits_cell]
    exact (and_iff_right trivial).trans (and_congr_right fun _ => and_iff_right trivial)
  refine Console.forall_lines_table.trans ((and_iff_right trivial).trans ?_)
  rw [List.forall_mem_map]
  refine (and_iff_right fun head _ => trivial).trans ?_
  exact forall₂_congr fun o _ => hrow o

theorem fits_verdict (outcomes : List Outcome) :
    (∀ line ∈ (verdict outcomes).shown.lines, line.Fits) ↔ (verdict outcomes).Settled := by
  refine iff_of_true ?_ trivial
  show ∀ line ∈ (Run.verdict outcomes).lines, line.Fits
  unfold Run.verdict
  simp only
  split
  · exact List.forall_mem_singleton.mpr trivial
  · split <;> exact List.forall_mem_singleton.mpr trivial

theorem fits_failure (why : Failure) :
    (∀ line ∈ (failure why).shown.lines, line.Fits) ↔ (failure why).Settled := by
  show (∀ line ∈ (CommandLine.failureLine why).lines, line.Fits)
    ↔ (why.isInterruption = false → trailing why.message ≤ 1)
  unfold CommandLine.failureLine
  split
  · rename_i hinterrupted
    rw [hinterrupted]
    exact iff_of_true (List.forall_mem_singleton.mpr trivial) fun h => (by cases h)
  · rename_i hfailed
    refine List.forall_mem_singleton.trans ?_
    refine ((and_iff_left trivial).trans (Markup.fits_of_tag rfl)).trans ?_
    exact ⟨fun h _ => h, fun h => h (Bool.eq_false_iff.mpr hfailed)⟩

-- ============================================================ new feeds

/-- The words between the title of a new feed and its path. -/
def between (count : Nat) : Text := Text.concat ["' with ", Text.ofNat count, " items: "]

theorem wording_between (count : Nat) : Markup.Wording (between count) where
  plain := by
    refine Markup.plain_concat ?_
    simp only [List.forall_mem_cons]
    exact ⟨by decide, plain_ofNat _, by decide, by decide⟩
  first := ⟨'\'', _, rfl, rfl⟩

theorem whole_before : Whole "[green]✅ Created feed '" := by
  have hwords : Plain "✅ Created feed '" := by decide
  exact @Whole.tag "green" _ rfl hwords.whole

theorem whole_after : Whole "[/green]" := @Whole.tag "/green" [] rfl .nil

/-- How the line about a new feed is written, and how it is meant to be read. -/
theorem exists_created_lines (title : Text) (count : Nat) (path : Path) :
    ∃ line meant, (created title count path).shown.lines = [line]
      ∧ (created title count path).template.lines = [meant]
      ∧ Line.markup line = "[green]✅ Created feed '".toList ++ (Markup.escape title
        ++ (between count ++ (path.text ++ "[/green]".toList)))
      ∧ Line.meant meant = marks "[green]✅ Created feed '" ++ (shownText title
        ++ (shownText (between count) ++ (shownText path.text ++ marks "[/green]"))) := by
  have hpath : Text.concat ["' with ", Text.ofNat count, " items: ", path.text]
      = between count ++ path.text := by
    simp [between, Text.concat]
  refine ⟨_, _, rfl, rfl, ?_, ?_⟩
  · show Line.markup [.raw _, .raw _, .text title,
      .raw (Text.concat ["' with ", Text.ofNat count, " items: ", path.text]), .raw _] = _
    rw [hpath, Line.markup_raw, Line.markup_raw, Line.markup_text, Line.markup_raw,
      List.append_assoc (between count)]
    rfl
  · show Line.meant [.raw _, .raw _, .text title, .raw (between count), .text path.text,
      .raw _] = _
    rw [Line.meant_raw, Line.meant_raw, Line.meant_text, Line.meant_raw, Line.meant_text,
      (wording_between count).plain.marks_eq]
    rfl

theorem verbatim_created_iff (title : Text) (count : Nat) (path : Path) :
    (created title count path).Verbatim ↔ (created title count path).Settled := by
  obtain ⟨line, meant, hline, hmeant, hmarkup, hmarks⟩ := exists_created_lines title count path
  rw [Verbatim, hline, hmeant, List.forall₂_cons, and_iff_left List.Forall₂.nil, hmarkup, hmarks,
    whole_before.marks_append, List.append_right_inj,
    (wording_between count).marks_escape_bare_iff whole_after rfl]
  exact Iff.rfl

/-- A path without tags brings none in, unless it closes one that the title leaves
open. -/
theorem tame_created {title : Text} {count : Nat} {path : Path}
    (h : (created title count path).Guarded) : (created title count path).Tame := by
  obtain ⟨line, meant, hline, hmeant, hmarkup, hmarks⟩ := exists_created_lines title count path
  rw [Tame, hline, hmeant, List.forall₂_cons, and_iff_left List.Forall₂.nil, hmarkup, hmarks,
    whole_before.marks_append, Markup.tagsIn_append, Markup.tagsIn_append,
    Markup.tagsIn_shownText_append, Markup.tagsIn_shownText_append,
    Markup.tagsIn_shownText_append]
  exact ((wording_between count).tagsIn_escape_bare whole_after h.1 h.2).append_left _

/-- What is read of a site. -/
theorem reading (site : Site) :
    (site.Verbatim ↔ site.Settled) ∧ (site.Guarded → site.Tame) := by
  cases site with
  | noMatches query => exact verbatim_of_framed rfl (framed_noMatches query) (fits_noMatches query)
  | items channel selected =>
      exact verbatim_of_framed rfl (framed_items channel selected) (fits_items channel selected)
  | command config => exact verbatim_of_framed rfl (framed_command config) (fits_command config)
  | announcement channel =>
      exact verbatim_of_framed rfl (framed_announcement channel) (fits_announcement channel)
  | progress done total => exact ⟨iff_of_true .nil trivial, fun _ => .nil⟩
  | results outcomes =>
      exact verbatim_of_framed rfl (framed_results outcomes) (fits_results outcomes)
  | verdict outcomes =>
      exact verbatim_of_framed rfl (framed_verdict outcomes) (fits_verdict outcomes)
  | created title count path => exact ⟨verbatim_created_iff title count path, tame_created⟩
  | failure why => exact verbatim_of_framed rfl (framed_failure why) (fits_failure why)

-- ================================================================= runs

variable {i : Invocation} {s : Settings.Profile} {c : Config} {p : Query.Predicate} {w : World}
  {channel : Channel} {selected : List Item}

/-- Whether what is shown is about an invocation: about its options, the feed that it
loads, the items that it selects, the downloads that it makes, or what it fails of. -/
def Of (i : Invocation) : Site → Prop
  | noMatches query => query = i.shared.query
  | items channel selected => ∃ s c p w, i.Selected s c p w channel selected
  | command config => ∃ s, i.Ready s config
  | announcement channel => ∃ s c p w selected, i.Selected s c p w channel selected
  | progress .. => True
  | results outcomes | verdict outcomes => ∃ s c p w channel selected,
      i.Selected s c p w channel selected
        ∧ (Invocation.downloads s c selected w).outcome = .ok outcomes
  | created title count path => ∃ s c p w channel selected, i.Selected s c p w channel selected
      ∧ title = c.newTitle channel ∧ count = selected.length ∧ path = c.output
  | failure why => ∃ step, i.Fails step why

theorem exists_check (h : i.Selected s c p w channel selected) :
    ∃ sites : List Site, (check c channel selected).shown = sites.map Site.shown
      ∧ ∀ site ∈ sites, site.Of i := by
  have hitems : (items channel selected).Of i := ⟨s, c, p, w, h⟩
  have hquery : (noMatches c.query).Of i := h.toReady.mode_eq.2
  have hcommand : (command c).Of i := ⟨s, h.toReady⟩
  unfold check
  split
  · unfold listing
    split
    · exact ⟨[.noMatches c.query], rfl, List.forall_mem_singleton.mpr hquery⟩
    · exact ⟨[.items channel selected, .command c], rfl,
        List.forall_mem_cons.mpr ⟨hitems, List.forall_mem_singleton.mpr hcommand⟩⟩
  · exact ⟨[.items channel selected], rfl, List.forall_mem_singleton.mpr hitems⟩

theorem exists_download (h : i.Selected s c p w channel selected) :
    ∃ sites : List Site, (download s c channel selected w).2.shown = sites.map Site.shown
      ∧ ∀ site ∈ sites, site.Of i := by
  have hannounced : (announcement channel).Of i := ⟨s, c, p, w, selected, h⟩
  have hbefore (done total : Nat) :
      ∀ site ∈ [announcement channel, progress done total], site.Of i :=
    List.forall_mem_cons.mpr ⟨hannounced, List.forall_mem_singleton.mpr trivial⟩
  unfold download
  split
  · exact ⟨[.announcement channel, .progress 0 selected.length], rfl, hbefore _ _⟩
  · rename_i files hprepare
    simp only
    unfold downloadReport
    simp only
    split
    · exact ⟨[.announcement channel, .progress _ selected.length], rfl, hbefore _ _⟩
    · rename_i outcomes houtcome
      have hdownloads : (Invocation.downloads s c selected w).outcome = .ok outcomes := by
        rw [Invocation.downloads, hprepare]
        exact houtcome
      have hresults : (results outcomes).Of i := ⟨s, c, p, w, channel, selected, h, hdownloads⟩
      have hverdict : (verdict outcomes).Of i := ⟨s, c, p, w, channel, selected, h, hdownloads⟩
      unfold summary
      split
      · refine ⟨[.announcement channel, .progress _ selected.length]
          ++ [.verdict outcomes], rfl, ?_⟩
        exact List.forall_mem_append.mpr ⟨hbefore _ _, List.forall_mem_singleton.mpr hverdict⟩
      · refine ⟨[.announcement channel, .progress _ selected.length]
          ++ [.results outcomes, .verdict outcomes], rfl, ?_⟩
        exact List.forall_mem_append.mpr ⟨hbefore _ _,
          List.forall_mem_cons.mpr ⟨hresults, List.forall_mem_singleton.mpr hverdict⟩⟩

theorem exists_create (h : i.Selected s c p w channel selected) :
    ∃ sites : List Site, (create c channel selected w).2.shown = sites.map Site.shown
      ∧ ∀ site ∈ sites, site.Of i := by
  have hcreated : (created (c.newTitle channel) selected.length c.output).Of i :=
    ⟨s, c, p, w, channel, selected, h, rfl, rfl, rfl⟩
  unfold create
  simp only
  split
  · exact ⟨[], rfl, fun _ h => (by cases h)⟩
  · split
    · exact ⟨[], rfl, fun _ h => (by cases h)⟩
    · exact ⟨[.created _ _ _], rfl, List.forall_mem_singleton.mpr hcreated⟩

/-- What a mode shows. -/
theorem exists_runMode (h : i.Selected s c p w channel selected) :
    ∃ sites : List Site, (runMode s c channel selected w).2.shown = sites.map Site.shown
      ∧ ∀ site ∈ sites, site.Of i := by
  unfold runMode
  split
  · exact exists_check h
  · exact exists_download h
  · exact exists_create h

end Site

namespace Invocation

variable {i : Invocation} {s : Settings.Profile} {c : Config}

/-- A run that is made shows what is in its report, and what it fails of. -/
theorem Ready.shown_eq (h : i.Ready s c) : i.exit.2.shown = (run s c i.world).2.shown
    ++ match (run s c i.world).2.ending with
      | .error why => [CommandLine.failureLine why]
      | .ok _ => [] := by
  have hsettings := h.settings_eq
  have hconfig := h.config_eq
  unfold exit CommandLine.run
  unfold Invocation.settings at hsettings
  unfold config at hconfig
  rw [hsettings]
  simp only
  rw [hconfig]
  simp only
  cases (run s c i.world).2.ending with
  | error why => rfl
  | ok code => exact (List.append_nil _).symm

/-- So it shows what the sites of its report show, and its failure. -/
theorem Ready.exists_sites (h : i.Ready s c) (sites : List Site)
    (hshown : (run s c i.world).2.shown = sites.map Site.shown) (hsites : ∀ site ∈ sites, site.Of i)
    (hfails : ∀ why, (run s c i.world).2.ending = .error why → ∃ step, i.Fails step why) :
    ∃ sites : List Site, i.exit.2.shown = sites.map Site.shown ∧ ∀ site ∈ sites, site.Of i := by
  have heq := h.shown_eq
  rw [hshown] at heq
  cases hending : (run s c i.world).2.ending with
  | ok code =>
      rw [hending] at heq
      exact ⟨sites, heq.trans (List.append_nil _), hsites⟩
  | error why =>
      rw [hending] at heq
      refine ⟨sites ++ [.failure why], by rw [List.map_append]; exact heq, ?_⟩
      exact List.forall_mem_append.mpr
        ⟨hsites, List.forall_mem_singleton.mpr (hfails why hending)⟩

/-- A run that fails before its mode shows what it fails of, and nothing else. -/
theorem Ready.exists_failure {step : Step} {why : Failure} (h : i.Ready s c)
    (hshown : (run s c i.world).2.shown = []) (hending : (run s c i.world).2.ending = .error why)
    (hfails : i.Fails step why) :
    ∃ sites : List Site, i.exit.2.shown = sites.map Site.shown ∧ ∀ site ∈ sites, site.Of i := by
  refine h.exists_sites [] hshown (fun _ hsite => (by cases hsite)) fun why' hwhy => ?_
  obtain rfl := Except.error.inj (hending.symm.trans hwhy)
  exact ⟨step, hfails⟩

/-- All that is shown comes from the sites. -/
theorem exists_sites (i : Invocation) :
    ∃ sites : List Site, i.exit.2.shown = sites.map Site.shown ∧ ∀ site ∈ sites, site.Of i := by
  cases hsettings : i.settings with
  | error why =>
      refine ⟨[.failure (.settings why)], ?_,
        List.forall_mem_singleton.mpr ⟨_, .settings hsettings⟩⟩
      rw [(exit_of_unsettled hsettings).1]
      rfl
  | ok s =>
  cases hconfig : i.config s with
  | error why =>
      refine ⟨[.failure (.options why)], ?_,
        List.forall_mem_singleton.mpr ⟨_, .options hsettings hconfig⟩⟩
      rw [(exit_of_unruly hsettings hconfig).1]
      rfl
  | ok c =>
  have hready : i.Ready s c := ⟨hsettings, hconfig⟩
  cases hquery : Query.read c.query with
  | error why =>
      have hrun : run s c i.world = _ := run_of_unread hquery
      exact hready.exists_failure (by rw [hrun]; rfl) (by rw [hrun]; rfl) (.query hready hquery)
  | ok p =>
  cases hload : i.load s c with
  | mk w result =>
  cases result with
  | error why =>
      have hrun := run_of_unloaded hquery hload
      exact hready.exists_failure (by rw [hrun]; rfl) (by rw [hrun]; rfl)
        (.feed hready hquery hload)
  | ok channel =>
  have hloaded : i.Loaded s c p w channel := ⟨hready, hquery, hload⟩
  cases hitems : selected c p channel w with
  | error why =>
      have hrun := run_of_unselected hquery hload hitems
      exact hready.exists_failure (by rw [hrun]; rfl) (by rw [hrun]; rfl)
        (.selection hloaded hitems)
  | ok items =>
  have hselected : i.Selected s c p w channel items := ⟨hloaded, hitems⟩
  have hrun := run_of_selected hquery hload hitems
  obtain ⟨sites, hshown, hsites⟩ := Site.exists_runMode hselected
  refine hready.exists_sites sites (by rw [hrun]; exact hshown) hsites fun why hwhy => ?_
  rw [hrun] at hwhy
  exact ⟨_, .mode hselected hwhy⟩

/-- Everything that a run hands to the console comes from one of the sites. It is read
as it is meant to be, with the tags of the program's own and all texts as they are, if
the site is settled. -/
theorem shown_verbatim_iff (i : Invocation) :
    (∃ sites : List Site, i.exit.2.shown = sites.map Site.shown ∧ ∀ site ∈ sites, site.Of i)
    ∧ (∀ site : Site, (site.Verbatim ↔ site.Settled) ∧ (site.Guarded → site.Tame))
    ∧ ∀ t, Markup.plain t = (marks t).filterMap Markup.Mark.char? :=
  ⟨exists_sites i, Site.reading, Markup.plain_eq⟩

/-- A run that fails shows one line. Of a new feed brackets in the title are shown as
they are, and a bracket in the path is as long as it is no tag. -/
theorem shown_verbatim_iff_brackets :
    (∃ sites : List Site, (listingOf "http://x/" "[" (webOnly "http://x/" [])).exit.2.shown
        = sites.map Site.shown
      ∧ ∀ site ∈ sites, site.Of (listingOf "http://x/" "[" (webOnly "http://x/" [])))
    ∧ (Site.created "[b]-" 1 (.ofText "out[.xml")).Verbatim
    ∧ (Site.created "[b]-" 1 (.ofText "out[.xml")).Tame := by
  have h := shown_verbatim_iff (listingOf "http://x/" "[" (webOnly "http://x/" []))
  have hguarded : (Site.created "[b]-" 1 (.ofText "out[.xml")).Guarded := ⟨by decide, by decide⟩
  exact ⟨h.1, (h.2.1 _).1.mpr ⟨by decide, hguarded.1, hguarded.2, by decide⟩, (h.2.1 _).2 hguarded⟩

/-- A tag in the path of a new feed is not shown. Of two backslashes at the end of a
query one is shown before the end of the colour, and one at the end of a cell is shown
twice. -/
theorem texts_read_otherwise :
    (createdLine "T-" 1 (.ofText "out[red].xml")).plain
        = "✅ Created feed 'T-' with 1 items: out.xml\n".toList
      ∧ ¬ (Site.created "T-" 1 (.ofText "out[red].xml")).Verbatim
      ∧ (noMatches "title:x\\\\").plain
        = "Didn't find any matches with query: title:x\\\n".toList
      ∧ Line.plain [.text "One\\"] = "One\\\\".toList := by
  refine ⟨by decide, fun h => ?_, by decide, by decide⟩
  exact absurd ((Site.verbatim_created_iff _ _ _).mp h).2.2.1 (by decide)

end Invocation

end FeedSieve.Run
