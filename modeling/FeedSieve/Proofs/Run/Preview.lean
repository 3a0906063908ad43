/-
Listing is a preview of downloading.

A run that lists and a run that downloads go the same way as far as the
selection, and that is all they share: `Alike` says what the selection
depends on, the directory asked about included, and runs that are alike
reach the same items (`Alike.reaches`). The listing changes nothing
(`run_check`). The download makes its directory only after the selection, so
what it makes cannot have a say in it.

From there on it is a matter of numbers. The items of a feed are numbered as
they come, what is selected stands in it in its order, and so the outcomes
are about the items one by one (`outcomes_indices`).
-/
import FeedSieve.Proofs.Download.Addresses
import FeedSieve.Proofs.Feed.Accepted
import FeedSieve.Proofs.Query.Stable
import FeedSieve.Proofs.Run.Stages

namespace FeedSieve.Run

open Console (Line Shown raw)
open Feed (Channel Item)
open Query (Predicate)
open Settings (Profile)
open Invocation (downloads)

variable {s s' : Profile} {c c' : Config} {w w' loaded : World} {p : Predicate}
  {channel : Channel} {items : List Item}

-- ========================================================= selections

/-- The run gets as far as the selection, which comes to these items. -/
structure Reaches (s : Profile) (c : Config) (w : World) (p : Predicate) (loaded : World)
    (channel : Channel) (items : List Item) : Prop where
  query : Query.read c.query = .ok p
  feed : Feed.load s.http.userAgent c.source (some c.sourceIsUrl) w = (loaded, .ok channel)
  items : selected c p channel loaded = .ok items

/-- Such a run ends as its mode does. -/
theorem Reaches.run_eq (h : Reaches s c w p loaded channel items) :
    (run s c w).1 = (runMode s c channel items loaded).1
      ∧ (run s c w).2.shown = (runMode s c channel items loaded).2.shown
      ∧ (run s c w).2.ending = (runMode s c channel items loaded).2.ending := by
  rw [run_of_selected h.query h.feed h.items]
  exact ⟨rfl, rfl, rfl⟩

/-- Any other fails, has shown nothing, and has changed no file. -/
theorem reaches_or_failed (s : Profile) (c : Config) (w : World) :
    (∃ p loaded channel items, Reaches s c w p loaded channel items)
      ∨ (run s c w).1.files = w.files ∧ (run s c w).2.shown = []
        ∧ ∃ why, (run s c w).2.ending = .error why := by
  cases hquery : Query.read c.query with
  | error why =>
      rw [run_of_unread hquery]
      exact Or.inr ⟨rfl, rfl, _, rfl⟩
  | ok p =>
  have hfiles := congrArg World.files (load_spec s.http.userAgent c.source (some c.sourceIsUrl) w)
  cases hload : Feed.load s.http.userAgent c.source (some c.sourceIsUrl) w with
  | mk loaded result =>
  rw [hload] at hfiles
  cases result with
  | error why =>
      rw [run_of_unloaded hquery hload]
      exact Or.inr ⟨hfiles, rfl, _, rfl⟩
  | ok channel =>
  cases hitems : selected c p channel loaded with
  | error why =>
      rw [run_of_unselected hquery hload hitems]
      exact Or.inr ⟨hfiles, rfl, _, rfl⟩
  | ok items => exact Or.inl ⟨p, loaded, channel, items, hquery, hload, hitems⟩

/-- The feed is loaded beside the same files. -/
theorem Reaches.files_eq (h : Reaches s c w p loaded channel items) : loaded.files = w.files := by
  have hfiles := congrArg World.files (load_spec s.http.userAgent c.source (some c.sourceIsUrl) w)
  rw [h.feed] at hfiles
  exact hfiles

/-- And under the same permissions. -/
theorem Reaches.access_eq (h : Reaches s c w p loaded channel items) :
    loaded.access = w.access := by
  have haccess := congrArg World.access (load_spec s.http.userAgent c.source (some c.sourceIsUrl) w)
  rw [h.feed] at haccess
  exact haccess

/-- A selected item has a number that no other has. -/
theorem Reaches.nodup (h : Reaches s c w p loaded channel items) :
    (items.map (·.index)).Nodup := by
  have hread : ∃ library bytes, Feed.read library bytes c.source = .ok channel := by
    have hfeed := congrArg Prod.snd h.feed
    unfold Feed.load at hfeed
    split at hfeed
    · cases hfeed
    · rename_i world bytes hcontent
      simp only at hfeed
      cases hread : Feed.read world.library (Feed.meant world.files bytes) c.source with
      | error why =>
          rw [hread] at hfeed
          cases hfeed
      | ok channel' =>
          rw [hread] at hfeed
          exact ⟨_, _, hread.trans (congrArg _ (Except.ok.inj hfeed))⟩
  obtain ⟨library, bytes, hread⟩ := hread
  obtain ⟨digest, -, hrecords⟩ := Feed.read_eq_ok hread
  have hnumbered : Query.Numbered channel.items := by
    have hpairwise : (channel.items.map (·.index)).Pairwise (· < ·) := by
      rw [Feed.index_itemsOfRecords hrecords]
      exact List.pairwise_lt_range'
    exact List.pairwise_map.mp hpairwise
  have hselected := h.items
  unfold selected at hselected
  simp only at hselected
  split at hselected
  · cases hselected
  · rename_i names hnames
    cases hselect : Query.select names p channel.items with
    | error why =>
        rw [hselect] at hselected
        cases hselected
    | ok kept =>
        rw [hselect] at hselected
        obtain rfl := Except.ok.inj hselected
        exact hnumbered.nodup.sublist ((Query.select_sublist hnumbered hselect).map _)

/-- Two runs agree in all that a selection depends on: where they look for
files, the query, the files, and the feed. -/
structure Alike (s : Profile) (c : Config) (w : World) (s' : Profile) (c' : Config)
    (w' : World) : Prop where
  directory : c'.directory = c.directory
  query : c'.query = c.query
  files : w'.files = w.files
  feed : (Feed.load s'.http.userAgent c'.source (some c'.sourceIsUrl) w').2
    = (Feed.load s.http.userAgent c.source (some c.sourceIsUrl) w).2

theorem Alike.symm (h : Alike s c w s' c' w') : Alike s' c' w' s c w :=
  ⟨h.directory.symm, h.query.symm, h.files.symm, h.feed.symm⟩

/-- They reach the same items. -/
theorem Alike.reaches (h : Alike s c w s' c' w') (hreaches : Reaches s c w p loaded channel items) :
    Reaches s' c' w' p (Feed.load s'.http.userAgent c'.source (some c'.sourceIsUrl) w').1 channel
      items := by
  have hfeed : (Feed.load s'.http.userAgent c'.source (some c'.sourceIsUrl) w').2 = .ok channel :=
    h.feed.trans (congrArg Prod.snd hreaches.feed)
  have hfiles : (Feed.load s'.http.userAgent c'.source (some c'.sourceIsUrl) w').1.files
      = loaded.files := by
    rw [congrArg World.files (load_spec s'.http.userAgent c'.source (some c'.sourceIsUrl) w'),
      hreaches.files_eq]
    exact h.files
  refine ⟨h.query.symm ▸ hreaches.query, Prod.ext rfl hfeed, ?_⟩
  rw [← hreaches.items]
  unfold selected
  rw [h.directory, hfiles]

-- ============================================================ listings

/-- How the number of an item is shown. -/
def numberCell (n : Nat) : Line := [raw (Text.ofNat n)]

/-- The first cells of the rows that are shown. -/
def firstColumn (shown : List Shown) : List Line :=
  shown.flatMap fun
    | .table _ _ rows => rows.filterMap List.head?
    | _ => []

/-- Rows that begin with numbers show these in the first column. -/
theorem firstColumn_table {α : Type} (title : Line) (columns : List Text) (row : α → List Line)
    (number : α → Nat) (h : ∀ a, (row a).head? = some (numberCell (number a))) (xs : List α)
    (rest : List Shown) :
    firstColumn (.table title columns (xs.map row) :: rest)
      = (xs.map fun a => numberCell (number a)) ++ firstColumn rest := by
  have hrows : (xs.map row).filterMap List.head? = xs.map fun a => numberCell (number a) := by
    rw [List.filterMap_map, ← List.filterMap_eq_map]
    exact List.filterMap_congr fun a _ => h a
  rw [← hrows]
  rfl

/-- The table has a row for each item. -/
theorem firstColumn_itemTable (channel : Channel) (items : List Item) (rest : List Shown) :
    firstColumn (itemTable channel items :: rest)
      = (items.map fun item => numberCell item.index) ++ firstColumn rest := by
  unfold itemTable
  exact firstColumn_table _ _ itemRow (·.index) (fun _ => rfl) items rest

/-- So what is shown of the items has one, even if the command cannot be
written. -/
theorem firstColumn_check (c : Config) (channel : Channel) (items : List Item) :
    firstColumn (check c channel items).shown = items.map fun item => numberCell item.index := by
  unfold check
  split
  · unfold listing
    split
    · rename_i hempty
      rw [List.isEmpty_iff.mp hempty]
      rfl
    · rw [firstColumn_itemTable]
      exact List.append_nil _
  · rw [firstColumn_itemTable]
    exact List.append_nil _

/-- A listing whose command can be written ends well. -/
theorem check_ending (channel : Channel) (items : List Item)
    (h : Text.isWritable c.ndownloads = true) : (check c channel items).ending = .ok 0 := by
  unfold check
  rw [h, Bool.or_true, if_pos rfl]

/-- If no matches are reported, there are none. -/
theorem eq_nil_of_check (h : (check c channel items).shown = [noMatches c.query]) :
    items = [] := by
  unfold check at h
  split at h
  · unfold listing at h
    split at h
    · rename_i hempty
      exact List.isEmpty_iff.mp hempty
    · have := congrArg List.length h
      cases this
  · cases h

/-- A run that lists leaves the files as they are. -/
theorem run_check (h : c.mode = .check) : (run s c w).1.files = w.files := by
  rcases reaches_or_failed s c w with ⟨p, loaded, channel, items, hreaches⟩ | ⟨hfiles, -⟩
  · rw [hreaches.run_eq.1, ← hreaches.files_eq]
    unfold runMode
    rw [h]
  · exact hfiles

-- ============================================================ downloads

/-- A summary has a row for each outcome. -/
theorem firstColumn_summary (outcomes : List Download.Outcome) :
    firstColumn (summary outcomes ++ [verdict outcomes])
      = outcomes.map fun outcome => numberCell outcome.index := by
  have hverdict : firstColumn [verdict outcomes] = [] := by
    unfold verdict
    simp only
    split
    · rfl
    · split
      · rfl
      · rfl
  unfold summary
  split
  · rename_i hempty
    rw [List.nil_append, hverdict, List.isEmpty_iff.mp hempty]
    rfl
  · rw [List.singleton_append, firstColumn_table _ _ outcomeRow (·.index) (fun _ => rfl), hverdict,
      List.append_nil]

/-- A download that returns has outcomes, and a row for each. -/
theorem download_returned {code : Nat} (h : (download s c channel items w).2.ending = .ok code) :
    ∃ outcomes, (downloads s c items w).outcome = .ok outcomes
      ∧ (download s c channel items w).1 = (downloads s c items w).world
      ∧ firstColumn (download s c channel items w).2.shown
        = outcomes.map fun outcome => numberCell outcome.index := by
  obtain ⟨outcomes, houtcome, -⟩ := Invocation.download_code h
  refine ⟨outcomes, houtcome, ?_⟩
  unfold downloads at houtcome ⊢
  unfold download at h ⊢
  cases hprepare : Download.prepare w.access w.files c.output with
  | mk files refused =>
  rw [hprepare] at h houtcome
  cases refused with
  | some why => cases h
  | none =>
      unfold downloadReport
      simp only at houtcome ⊢
      rw [houtcome]
      refine ⟨trivial, ?_⟩
      simp only
      rw [← firstColumn_summary, List.append_assoc]
      rfl

/-- The outcomes of items that are told apart by their numbers are about them
one by one. -/
theorem outcomes_indices {World : Type} {fetching : Download.Fetching World} {limit : Nat}
    {destination : Files.Path} {world : World} {outcomes : List Download.Outcome}
    (hlimit : 1 ≤ limit) (hdistinct : (items.map (·.index)).Nodup)
    (h : (Download.run fetching limit destination items world).outcome = .ok outcomes) :
    outcomes.map (·.index) = items.map (·.index) := by
  have hnone : (Download.jobsFor destination items).2 = none := by
    unfold Download.run at h
    generalize Download.jobsFor destination items = pair at h ⊢
    obtain ⟨jobs, broken⟩ := pair
    cases broken with
    | none => rfl
    | some why =>
        simp only at h
        split at h
        · cases h
        · cases h
        · rename_i hnone
          cases hnone
  have hnamed : Download.Named items := by
    by_contra hnot
    obtain ⟨item, before, after, why, rfl, hbefore, hbroken, -⟩ :=
      Query.missing_error_of_not_named hnot
    rw [Download.jobsFor_snd_eq_some hbefore hbroken destination] at hnone
    cases hnone
  have hpaths := (Download.named_iff items destination).mp hnamed
  obtain ⟨-, ⟨text, hstopped, -⟩ | ⟨moves, done, slots, hrun, hover, houtcome, -⟩⟩ :=
    Download.run_spec fetching hlimit hpaths world
  · rw [hstopped] at h
    cases h
  · rw [houtcome] at h
    obtain rfl := Except.ok.inj h
    rw [hrun.returned_eq_gathered hpaths hover hdistinct]
    have hlength : slots.gathered.length = items.length := by
      rw [hover.length_gathered hrun.kept, Download.length_jobsFor hpaths]
    refine List.ext_getElem (by simpa using hlength) fun task hleft hright => ?_
    rw [List.length_map] at hleft hright
    rw [List.getElem_map, List.getElem_map]
    exact (hrun.outcome_about hpaths hover (List.getElem?_eq_getElem hright)
      (List.getElem?_eq_getElem hleft)).1

/-- With nothing to fetch nothing happens. -/
theorem downloads_nil (s : Profile) (c : Config) (w : World) :
    downloads s c [] w
      = ⟨{ w with files := (Download.prepare w.access w.files c.output).1 }, [], .ok []⟩ := by
  have hempty : Download.inItemOrder []
      ((([] : List (Nat × Download.Outcome)).mergeSort fun a b => a.1 ≤ b.1).map (·.2)) = [] := by
    rw [List.mergeSort_nil]
    exact List.mergeSort_nil
  exact congrArg (fun outcomes => (⟨_, [], .ok outcomes⟩ : Download.Ended World)) hempty

/-- Downloading nothing asks for nothing; it ends well if there is a directory
to download to. -/
theorem download_nil (s : Profile) (c : Config) (channel : Channel) (w : World) :
    (download s c channel [] w).1.web = w.web
      ∧ ((∃ why, (Download.prepare w.access w.files c.output).2 = some why
          ∧ (download s c channel [] w).2.ending = .error (.destination why))
        ∨ (download s c channel [] w).2.ending = .ok 0) := by
  have hnil := downloads_nil s c w
  unfold downloads at hnil
  unfold download
  cases hprepare : Download.prepare w.access w.files c.output with
  | mk files refused =>
  cases refused with
  | some why => exact ⟨rfl, Or.inl ⟨why, rfl, rfl⟩⟩
  | none =>
      rw [hprepare] at hnil
      simp only
      rw [hnil]
      exact ⟨rfl, Or.inr rfl⟩

-- ============================================================= previews

/-- The second run downloads what the first lists: its source, output and
query are the same, and it starts beside the same files. -/
structure Previews (s : Profile) (c : Config) (w : World) (s' : Profile) (c' : Config)
    (w' : World) : Prop where
  check : c.mode = .check
  download : c'.mode = .download
  limit : 1 ≤ c'.ndownloads
  output : c'.output = c.output
  query : c'.query = c.query
  files : w'.files = w.files
  feed : (Feed.load s'.http.userAgent c'.source (some c'.sourceIsUrl) w').2
    = (Feed.load s.http.userAgent c.source (some c.sourceIsUrl) w).2

theorem Previews.alike (h : Previews s c w s' c' w') : Alike s c w s' c' w' := by
  refine ⟨?_, h.query, h.files, h.feed⟩
  unfold Config.directory
  rw [if_neg (by rw [h.download]; decide), if_neg (by rw [h.check]; decide)]
  exact h.output

/-- Listing leaves the files as they are. If a download of what is listed
returns, its outcomes are about the items that are listed, in their order. The
listing ends well if its command can be written. If no matches are listed, the
download asks for nothing beyond the feed and ends with exit code 0, unless
there is no directory to download to. -/
theorem check_previews_download (h : Previews s c w s' c' w') :
    (run s c w).1.files = w.files
    ∧ (∀ code, (run s' c' w').2.ending = .ok code →
        ∃ p loaded channel items outcomes, Reaches s' c' w' p loaded channel items
          ∧ (downloads s' c' items loaded).outcome = .ok outcomes
          ∧ (run s' c' w').1 = (downloads s' c' items loaded).world
          ∧ firstColumn (run s' c' w').2.shown
            = outcomes.map (fun outcome => numberCell outcome.index)
          ∧ (Text.isWritable c.ndownloads = true → (run s c w).2.ending = .ok 0)
          ∧ outcomes.map (·.index) = items.map (·.index)
          ∧ firstColumn (run s c w).2.shown = items.map (fun item => numberCell item.index))
    ∧ ((run s c w).2.shown = [noMatches c.query] →
        (run s' c' w').1.web
            = (Feed.load s'.http.userAgent c'.source (some c'.sourceIsUrl) w').1.web
          ∧ ((∃ why, (Download.prepare w'.access w'.files c'.output).2 = some why
              ∧ (run s' c' w').2.ending = .error (.destination why))
            ∨ (run s' c' w').2.ending = .ok 0)) := by
  have hcheck (channel : Channel) (items : List Item) (loaded : World) :
      runMode s c channel items loaded = (loaded, check c channel items) := by
    unfold runMode
    rw [h.check]
  have hdownload (channel : Channel) (items : List Item) (loaded : World) :
      runMode s' c' channel items loaded = download s' c' channel items loaded := by
    unfold runMode
    rw [h.download]
  refine ⟨run_check h.check, fun code hcode => ?_, fun hnone => ?_⟩
  · rcases reaches_or_failed s' c' w' with ⟨p, loaded, channel, items, hreaches⟩
      | ⟨-, -, why, hfailed⟩
    · obtain ⟨hworld, hshown, hending⟩ := hreaches.run_eq
      obtain ⟨-, hlisted, hended⟩ := (h.alike.symm.reaches hreaches).run_eq
      rw [hdownload] at hworld hshown hending
      rw [hcheck] at hlisted hended
      obtain ⟨outcomes, houtcome, hleft, hcolumn⟩ := download_returned (hending.symm.trans hcode)
      refine ⟨p, loaded, channel, items, outcomes, hreaches, houtcome, hworld.trans hleft,
        hshown ▸ hcolumn, fun hwritable => hended.trans (check_ending channel items hwritable),
        outcomes_indices h.limit hreaches.nodup houtcome, ?_⟩
      rw [hlisted]
      exact firstColumn_check c channel items
    · rw [hfailed] at hcode
      cases hcode
  · rcases reaches_or_failed s c w with ⟨p, loaded, channel, items, hreaches⟩ | ⟨-, hshown, -⟩
    · have hlisted := hreaches.run_eq.2.1
      rw [hcheck, hnone] at hlisted
      obtain rfl := eq_nil_of_check hlisted.symm
      have hreaches' := h.alike.reaches hreaches
      obtain ⟨hworld, -, hending⟩ := hreaches'.run_eq
      rw [hdownload] at hworld hending
      rw [hworld, hending, ← hreaches'.files_eq, ← hreaches'.access_eq]
      exact download_nil s' c' channel _
    · rw [hshown] at hnone
      cases hnone

/-- A query that nothing in a feed matches. -/
def nothingOf (mode : Mode) : Config :=
  ⟨mode, some "http://x/", none, .ofText "out", "title:b", 1, none⟩

/-- A feed of one item, and a file where it is to be downloaded to. -/
def blockedWeb : World :=
  { Invocation.webOnly "http://x/" [.ok ⟨200, none,
      [Utf8.encode "<rss><channel><item><title>a</title></item></channel></rss>"], none⟩] with
    files := ⟨[(Files.Tree.here, .directory), (["here", "out"], .file [] Files.plainMode)]⟩ }

/-- Nothing is listed, and still the download fails: there can be no directory
where the file is. -/
theorem check_previews_download_blocked :
    Previews .default (nothingOf .check) blockedWeb .default (nothingOf .download) blockedWeb
      ∧ (run .default (nothingOf .check) blockedWeb).2.shown = [noMatches "title:b"]
      ∧ ∃ why, (run .default (nothingOf .download) blockedWeb).2.ending = .error why
        ∧ why.exitCode = 6 := by
  refine ⟨⟨rfl, rfl, by decide, rfl, rfl, rfl, rfl⟩, by decide +kernel,
    .destination (.refused (.ofText "out") (.refused .present "out" none)), ?_, rfl⟩
  decide +kernel

/-- What is missing of the feed behind an address. -/
def missingOf (mode : Mode) : Config :=
  ⟨mode, some "http://x/", none, .ofText "out", "notexists", 1, none⟩

/-- A feed of one item, which has no file. -/
def bareWeb : World :=
  Invocation.webOnly "http://x/" [.ok ⟨200, none,
    [Utf8.encode "<rss><channel><item><title>a</title></item></channel></rss>"], none⟩]

/-- The item is missing, is listed, and cannot be downloaded. -/
theorem check_previews_download_bare :
    Previews .default (missingOf .check) bareWeb .default (missingOf .download) bareWeb
      ∧ (run .default (missingOf .check) bareWeb).1.files = bareWeb.files
      ∧ (run .default (missingOf .download) bareWeb).2.ending = .ok partialCode
      ∧ ∃ outcomes : List Download.Outcome,
          firstColumn (run .default (missingOf .check) bareWeb).2.shown
            = outcomes.map (fun outcome => numberCell outcome.index)
          ∧ firstColumn (run .default (missingOf .download) bareWeb).2.shown
            = outcomes.map (fun outcome => numberCell outcome.index) := by
  have h : Previews .default (missingOf .check) bareWeb .default (missingOf .download) bareWeb :=
    ⟨rfl, rfl, by decide, rfl, rfl, rfl, rfl⟩
  have hending : (run .default (missingOf .download) bareWeb).2.ending = .ok partialCode := by
    decide +kernel
  obtain ⟨hfiles, hreturned, -⟩ := check_previews_download h
  obtain ⟨_, _, _, items, outcomes, -, -, -, hdownloaded, -, hindices, hlisted⟩ :=
    hreturned _ hending
  refine ⟨h, hfiles, hending, outcomes, ?_, hdownloaded⟩
  have hcells := congrArg (List.map numberCell) hindices
  rw [List.map_map, List.map_map] at hcells
  exact hlisted.trans hcells.symm

end FeedSieve.Run
