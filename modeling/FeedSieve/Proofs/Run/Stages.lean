/-
The first step that fails decides.

An invocation goes through six steps: settings are loaded, options are put
together, the query is read, the feed is loaded, items are selected, and the
mode does its work. The last four are the stages that a report tells of.
`Invocation.Fails` says which step is the first to fail and of what, in terms
of what that step and those before it are given, and of nothing else.

Everything else follows from that. The exit code is that of the failure, the
stages before it have succeeded and those behind it have never begun, and the
world is left as the steps before it leave it: only loading the feed and the
mode change anything. Since `Fails` does not look at what later steps are
given, neither does the outcome (`Invocation.Fails.congr`), however broken
that may be.
-/
import FeedSieve.CommandLine.Program

namespace FeedSieve.Run

open Feed (Channel Item)
open Query (Predicate)
open Settings (Profile)

-- ============================================================= reports

section Reports

variable {r : Report} {figures : Figures} {why : Failure} {n : Nat}

/-- The stage failed of this; those before it succeeded, and those behind it
have not begun. -/
structure Report.FailsAt (r : Report) (stage : Nat) (why : Failure) : Prop where
  before : ∀ n < stage, (r.progress n).success = true
  here : r.progress stage = .failed why
  behind : ∀ n, stage < n → r.progress n = .pending

/-- With a stage more at its beginning, the others are one later. -/
theorem Report.progress_after_succ : (r.after figures).progress (n + 1) = r.progress n := by
  unfold Report.progress Report.after
  simp only [List.getElem?_cons_succ, List.length_cons, Nat.add_right_cancel_iff]

/-- A failure is one stage later, too. -/
theorem Report.FailsAt.after (h : r.FailsAt n why) : (r.after figures).FailsAt (n + 1) why where
  before m hm := by
    cases m with
    | zero => rfl
    | succ m =>
        rw [Report.progress_after_succ]
        exact h.before m (by omega)
  here := by
    rw [Report.progress_after_succ]
    exact h.here
  behind m hm := by
    cases m with
    | zero => omega
    | succ m =>
        rw [Report.progress_after_succ]
        exact h.behind m (by omega)

/-- A report of one stage: it failed and nothing was counted, or it
succeeded. -/
inductive Report.Single : Report → Prop where
  | failed {shown : List Console.Shown} {why : Failure} : Single ⟨[], shown, .error why⟩
  | succeeded {figures : Figures} {shown : List Console.Shown} {code : Nat} :
      Single ⟨[figures], shown, .ok code⟩

theorem Report.Single.failsAt (h : r.Single) (hending : r.ending = .error why) :
    r.FailsAt 0 why := by
  cases h with
  | failed =>
      cases hending
      refine ⟨fun n hn => absurd hn (Nat.not_lt_zero n), rfl, fun n hn => ?_⟩
      cases n with
      | zero => omega
      | succ n => rfl
  | succeeded => cases hending

/-- A run that does not get past its first stage. -/
theorem Report.failsAt_failed (why : Failure) : (Report.failed why).FailsAt 0 why :=
  Report.Single.failed.failsAt rfl

theorem Report.Single.progress_succeeded {code : Nat} (h : r.Single)
    (hending : r.ending = .ok code) : (r.progress 0).success = true := by
  cases h with
  | failed => cases hending
  | succeeded => rfl

end Reports

section Runs

variable {settings : Profile} {config : Config} {predicate : Predicate} {channel : Channel}
  {items : List Item} {world loaded : World} {why : Failure}

/-- The report of the mode is one of a single stage. -/
theorem single_runMode (settings : Profile) (config : Config) (channel : Channel)
    (items : List Item) (world : World) :
    (runMode settings config channel items world).2.Single := by
  unfold runMode
  cases config.mode with
  | check =>
      simp only
      unfold check
      split
      · exact .succeeded
      · exact .failed
  | download =>
      simp only
      unfold download
      split
      · exact .failed
      · unfold downloadReport
        simp only
        split
        · exact .failed
        · exact .succeeded
  | create =>
      simp only
      unfold create
      simp only
      split
      · exact .failed
      · split
        · exact .failed
        · exact .succeeded

-- ========================================================== whole runs

/-- A query that cannot be read ends a run before it does anything. -/
theorem run_of_unread {why : Query.Refusal} (hquery : Query.read config.query = .error why) :
    run settings config world = (world, .failed (.query why)) := by
  unfold run
  rw [hquery]

/-- A feed that cannot be loaded ends a run. -/
theorem run_of_unloaded {why : Feed.Unloaded} (hquery : Query.read config.query = .ok predicate)
    (hfeed : Feed.load settings.http.userAgent config.source (some config.sourceIsUrl) world
      = (loaded, .error why)) :
    run settings config world
      = (loaded, (Report.failed (.feed why)).after [("kind", .word predicate.name)]) := by
  unfold run runFeed
  rw [hquery]
  simp only
  rw [hfeed]

/-- Items that cannot be selected end a run. -/
theorem run_of_unselected (hquery : Query.read config.query = .ok predicate)
    (hfeed : Feed.load settings.http.userAgent config.source (some config.sourceIsUrl) world
      = (loaded, .ok channel))
    (hselected : selected config predicate channel loaded = .error why) :
    run settings config world
      = (loaded, ((Report.failed why).after [("items", .count channel.items.length)]).after
          [("kind", .word predicate.name)]) := by
  unfold run runFeed runSelection
  rw [hquery]
  simp only
  rw [hfeed]
  simp only
  rw [hselected]

/-- The mode has the last word on the items that are selected. -/
theorem run_of_selected (hquery : Query.read config.query = .ok predicate)
    (hfeed : Feed.load settings.http.userAgent config.source (some config.sourceIsUrl) world
      = (loaded, .ok channel))
    (hselected : selected config predicate channel loaded = .ok items) :
    run settings config world
      = ((runMode settings config channel items loaded).1,
          (((runMode settings config channel items loaded).2.after
            [("matches", .count items.length)]).after
            [("items", .count channel.items.length)]).after [("kind", .word predicate.name)]) := by
  unfold run runFeed runSelection
  rw [hquery]
  simp only
  rw [hfeed]
  simp only
  rw [hselected]

/-- Loading a feed may ask the web, and changes nothing else. -/
theorem load_spec (agent source : Text) (known : Option Bool) (world : World) :
    (Feed.load agent source known world).1
      = { world with web := (Feed.load agent source known world).1.web } := by
  have hcontent : (Feed.content agent source known world).1
      = { world with web := (Feed.content agent source known world).1.web } := by
    unfold Feed.content
    split <;> rfl
  unfold Feed.load
  split
  · rename_i hload
    rw [hload] at hcontent
    exact hcontent
  · rename_i hload
    rw [hload] at hcontent
    exact hcontent

end Runs

-- ======================================================== invocations

/-- A run as it is asked for on a command line, and the world around it. -/
structure Invocation where
  shared : CommandLine.Shared
  mode : Mode
  title : Option Text
  world : World

/-- The steps of an invocation. -/
inductive Step where
  | settings | options | query | feed | selection | mode
deriving Repr, DecidableEq

/-- The place of a step in their order. The stages of a report are the steps
from the query on, so the stage of a number is the step two places on. -/
def Step.place : Step → Nat
  | .settings => 0
  | .options => 1
  | .query => 2
  | .feed => 3
  | .selection => 4
  | .mode => 5

namespace Invocation

/-- The world that is left behind, and how the program ends. -/
def exit (i : Invocation) : World × CommandLine.Exit :=
  CommandLine.run i.shared i.mode i.title i.world

/-- The settings. -/
def settings (i : Invocation) : Except Settings.Unloaded Profile :=
  Settings.loadFrom i.shared.config i.world

/-- The options, put together. -/
def config (i : Invocation) (settings : Profile) : Except OptionFault Config :=
  Config.ofOptions i.mode (i.shared.options i.title) settings

/-- The feed. -/
def load (i : Invocation) (settings : Profile) (config : Config) :
    World × Except Feed.Unloaded Channel :=
  Feed.load settings.http.userAgent config.source (some config.sourceIsUrl) i.world

/-- The report; there is none without settings and options. -/
def report? (i : Invocation) : Option Report :=
  match i.settings with
  | .error _ => none
  | .ok settings =>
      match i.config settings with
      | .error _ => none
      | .ok config => some (run settings config i.world).2

/-- How a stage went. Without a report no stage has begun. -/
def progress (i : Invocation) (stage : Nat) : Progress :=
  (i.report?).elim .pending (·.progress stage)

/-- Settings and options are fine. -/
structure Ready (i : Invocation) (settings : Profile) (config : Config) : Prop where
  settings_eq : i.settings = .ok settings
  config_eq : i.config settings = .ok config

/-- So are the query and the feed. -/
structure Loaded (i : Invocation) (settings : Profile) (config : Config)
    (predicate : Predicate) (loaded : World) (channel : Channel) : Prop
    extends Ready i settings config where
  query : Query.read config.query = .ok predicate
  feed : i.load settings config = (loaded, .ok channel)

/-- Items have been selected, too. -/
structure Selected (i : Invocation) (settings : Profile) (config : Config)
    (predicate : Predicate) (loaded : World) (channel : Channel) (items : List Item) : Prop
    extends Loaded i settings config predicate loaded channel where
  items : selected config predicate channel loaded = .ok items

/-- The step is the first to fail, and of this. -/
inductive Fails (i : Invocation) : Step → Failure → Prop where
  | settings {why : Settings.Unloaded} (h : i.settings = .error why) :
      Fails i .settings (.settings why)
  | options {settings : Profile} {why : OptionFault} (hsettings : i.settings = .ok settings)
      (h : i.config settings = .error why) : Fails i .options (.options why)
  | query {settings : Profile} {config : Config} {why : Query.Refusal}
      (hready : i.Ready settings config) (h : Query.read config.query = .error why) :
      Fails i .query (.query why)
  | feed {settings : Profile} {config : Config} {predicate : Predicate} {loaded : World}
      {why : Feed.Unloaded} (hready : i.Ready settings config)
      (hquery : Query.read config.query = .ok predicate)
      (h : i.load settings config = (loaded, .error why)) : Fails i .feed (.feed why)
  | selection {settings : Profile} {config : Config} {predicate : Predicate} {loaded : World}
      {channel : Channel} {why : Failure}
      (hloaded : i.Loaded settings config predicate loaded channel)
      (h : selected config predicate channel loaded = .error why) : Fails i .selection why
  | mode {settings : Profile} {config : Config} {predicate : Predicate} {loaded : World}
      {channel : Channel} {items : List Item} {why : Failure}
      (hselected : i.Selected settings config predicate loaded channel items)
      (h : (runMode settings config channel items loaded).2.ending = .error why) :
      Fails i .mode why

variable {i j : Invocation} {step : Step} {s : Profile} {c : Config} {p : Predicate}
  {w : World} {channel : Channel} {items : List Item} {why : Failure}

/-- An invocation without settings ends at once. -/
theorem exit_of_unsettled {why : Settings.Unloaded} (h : i.settings = .error why) :
    i.exit = (i.world, CommandLine.failedRun [] (.settings why)) ∧ i.report? = none := by
  unfold exit CommandLine.run report?
  unfold settings at h ⊢
  rw [h]
  exact ⟨rfl, rfl⟩

/-- So does one whose options break a rule. -/
theorem exit_of_unruly {why : OptionFault} (hsettings : i.settings = .ok s)
    (h : i.config s = .error why) :
    i.exit = (i.world, CommandLine.failedRun [] (.options why)) ∧ i.report? = none := by
  unfold exit CommandLine.run report?
  unfold Invocation.settings at hsettings ⊢
  unfold Invocation.config at h ⊢
  rw [hsettings]
  simp only
  rw [h]
  exact ⟨rfl, rfl⟩

/-- Any other ends as the run does. -/
theorem Ready.exit_eq (h : i.Ready s c) :
    i.exit.1 = (run s c i.world).1
      ∧ i.report? = some (run s c i.world).2
      ∧ (∀ why, (run s c i.world).2.ending = .error why →
          i.exit.2.code = why.exitCode)
      ∧ ∀ code, (run s c i.world).2.ending = .ok code → i.exit.2.code = code := by
  have hsettings := h.settings_eq
  have hconfig := h.config_eq
  unfold exit CommandLine.run report?
  unfold Invocation.settings at hsettings ⊢
  unfold Invocation.config at hconfig ⊢
  rw [hsettings]
  simp only
  rw [hconfig]
  simp only
  cases hending : (run s c i.world).2.ending with
  | error why =>
      refine ⟨rfl, trivial, fun why' hwhy => ?_, fun code hcode => ?_⟩
      · cases hwhy
        rfl
      · cases hcode
  | ok code =>
      refine ⟨rfl, trivial, fun why hwhy => ?_, fun code' hcode => ?_⟩
      · cases hwhy
      · cases hcode
        rfl

/-- Options are those of a mode: it is part of what they are put together
to. -/
theorem Ready.mode_eq (h : i.Ready s c) : c.mode = i.mode ∧ c.query = i.shared.query := by
  have hconfig := h.config_eq
  unfold config Config.ofOptions at hconfig
  simp only at hconfig
  split at hconfig
  · cases hconfig
  · split at hconfig
    · cases hconfig
    · split at hconfig
      · cases hconfig
      · split at hconfig
        · cases hconfig
        · split at hconfig
          · cases hconfig
          · cases hconfig
            exact ⟨rfl, rfl⟩

/-- What is left behind if the query cannot be read: the world as it was. -/
theorem exit_of_unread {why : Query.Refusal} (hready : i.Ready s c)
    (h : Query.read c.query = .error why) :
    i.exit.1 = i.world ∧ i.exit.2.code = (Failure.query why).exitCode
      ∧ i.report? = some (.failed (.query why)) := by
  obtain ⟨hworld, hreport, hcode, -⟩ := hready.exit_eq
  have hrun : run s c i.world = (i.world, .failed (.query why)) := run_of_unread h
  rw [hrun] at hworld hreport
  exact ⟨hworld, hcode _ (by rw [hrun]; rfl), hreport⟩

/-- If the feed cannot be loaded: what looking for it leaves. -/
theorem exit_of_unloaded {why : Feed.Unloaded} (hready : i.Ready s c)
    (hquery : Query.read c.query = .ok p) (h : i.load s c = (w, .error why)) :
    i.exit.1 = w ∧ i.exit.2.code = (Failure.feed why).exitCode
      ∧ i.report? = some ((Report.failed (.feed why)).after [("kind", .word p.name)]) := by
  obtain ⟨hworld, hreport, hcode, -⟩ := hready.exit_eq
  have hrun := run_of_unloaded hquery h
  rw [hrun] at hworld hreport
  exact ⟨hworld, hcode _ (by rw [hrun]; rfl), hreport⟩

/-- If items cannot be selected: the same. -/
theorem exit_of_unselected (hloaded : i.Loaded s c p w channel)
    (h : selected c p channel w = .error why) :
    i.exit.1 = w ∧ i.exit.2.code = why.exitCode
      ∧ i.report? = some (((Report.failed why).after
          [("items", .count channel.items.length)]).after [("kind", .word p.name)]) := by
  obtain ⟨hworld, hreport, hcode, -⟩ := hloaded.toReady.exit_eq
  have hrun := run_of_unselected hloaded.query hloaded.feed h
  rw [hrun] at hworld hreport
  exact ⟨hworld, hcode _ (by rw [hrun]; rfl), hreport⟩

/-- Otherwise: what the mode leaves. -/
theorem exit_of_selected (h : i.Selected s c p w channel items) :
    i.exit.1 = (runMode s c channel items w).1
      ∧ (∀ why, (runMode s c channel items w).2.ending = .error why →
          i.exit.2.code = why.exitCode)
      ∧ (∀ code, (runMode s c channel items w).2.ending = .ok code → i.exit.2.code = code)
      ∧ i.report? = some ((((runMode s c channel items w).2.after
            [("matches", .count items.length)]).after
          [("items", .count channel.items.length)]).after [("kind", .word p.name)]) := by
  obtain ⟨hworld, hreport, hfailed, hended⟩ := h.toReady.exit_eq
  have hrun := run_of_selected h.query h.feed h.items
  rw [hrun] at hworld hreport hfailed hended
  exact ⟨hworld, hfailed, hended, hreport⟩

/-- The exit code is that of the first failure. -/
theorem Fails.code_eq (h : i.Fails step why) : i.exit.2.code = why.exitCode := by
  cases h with
  | settings h =>
      rw [(exit_of_unsettled h).1]
      rfl
  | options hsettings h =>
      rw [(exit_of_unruly hsettings h).1]
      rfl
  | query hready h => exact (exit_of_unread hready h).2.1
  | feed hready hquery h => exact (exit_of_unloaded hready hquery h).2.1
  | selection hloaded h => exact (exit_of_unselected hloaded h).2.1
  | mode hselected h => exact (exit_of_selected hselected).2.1 _ h

/-- In a report the step fails that is the first to fail. -/
theorem Fails.report?_eq (h : i.Fails step why) :
    (step.place < 2 ∧ i.report? = none)
      ∨ ∃ r stage, step.place = stage + 2 ∧ i.report? = some r ∧ r.FailsAt stage why := by
  cases h with
  | settings h => exact Or.inl ⟨by decide, (exit_of_unsettled h).2⟩
  | options hsettings h => exact Or.inl ⟨by decide, (exit_of_unruly hsettings h).2⟩
  | query hready h =>
      exact Or.inr ⟨_, 0, rfl, (exit_of_unread hready h).2.2, Report.failsAt_failed _⟩
  | feed hready hquery h =>
      exact Or.inr ⟨_, 1, rfl, (exit_of_unloaded hready hquery h).2.2,
        (Report.failsAt_failed _).after⟩
  | selection hloaded h =>
      exact Or.inr ⟨_, 2, rfl, (exit_of_unselected hloaded h).2.2,
        (Report.failsAt_failed _).after.after⟩
  | mode hselected h =>
      exact Or.inr ⟨_, 3, rfl, (exit_of_selected hselected).2.2.2,
        ((single_runMode _ _ _ _ _).failsAt h).after.after.after⟩

/-- Stages before the first failure have succeeded, and those behind it have
not begun. -/
theorem Fails.progress_eq (h : i.Fails step why) (n : Nat) :
    (n + 2 < step.place → (i.progress n).success = true)
      ∧ (n + 2 = step.place → i.progress n = .failed why)
      ∧ (step.place < n + 2 → i.progress n = .pending) := by
  unfold progress
  rcases h.report?_eq with ⟨hplace, hreport⟩ | ⟨r, stage, hplace, hreport, hfails⟩
  · rw [hreport]
    exact ⟨fun _ => by omega, fun _ => by omega, fun _ => rfl⟩
  · rw [hreport, Option.elim_some]
    refine ⟨fun hn => hfails.before n (by omega), fun hn => ?_, fun hn => hfails.behind n (by omega)⟩
    obtain rfl : n = stage := by omega
    exact hfails.here

/-- The files that a feed is loaded beside stay as they are. -/
theorem Loaded.files_eq (h : i.Loaded s c p w channel) : w.files = i.world.files := by
  have hspec := load_spec s.http.userAgent c.source (some c.sourceIsUrl) i.world
  have hfeed := h.feed
  unfold load at hfeed
  rw [hfeed] at hspec
  have hworld : w = { i.world with web := w.web } := hspec
  rw [hworld]

/-- Only loading the feed and the mode change the world, and loading changes
nothing but the web. -/
theorem Fails.world_eq (h : i.Fails step why) :
    (step.place < Step.feed.place → i.exit.1 = i.world)
      ∧ (step = .feed ∨ step = .selection → ∃ s c, i.Ready s c
          ∧ i.exit.1 = { i.world with web := (i.load s c).1.web }) := by
  have hload (s : Profile) (c : Config) :
      (i.load s c).1 = { i.world with web := (i.load s c).1.web } := load_spec _ _ _ _
  cases h with
  | settings h =>
      rw [(exit_of_unsettled h).1]
      exact ⟨fun _ => rfl, fun hstep => by simp at hstep⟩
  | options hsettings h =>
      rw [(exit_of_unruly hsettings h).1]
      exact ⟨fun _ => rfl, fun hstep => by simp at hstep⟩
  | query hready h =>
      exact ⟨fun _ => (exit_of_unread hready h).1, fun hstep => by simp at hstep⟩
  | feed hready hquery h =>
      refine ⟨fun hplace => absurd hplace (by decide), fun _ => ⟨_, _, hready, ?_⟩⟩
      rw [(exit_of_unloaded hready hquery h).1, ← hload, h]
  | selection hloaded h =>
      refine ⟨fun hplace => absurd hplace (by decide), fun _ => ⟨_, _, hloaded.toReady, ?_⟩⟩
      rw [(exit_of_unselected hloaded h).1, ← hload, hloaded.feed]
  | mode hselected h =>
      exact ⟨fun hplace => absurd hplace (by decide), fun hstep => by simp at hstep⟩

-- ==================================================== what steps look at

/-- Two invocations are given the same as far as a step: settings, options,
the query, what the feed is loaded to, the names in every directory, and at
last the world. -/
structure SameInputs (step : Step) (i j : Invocation) : Prop where
  settings : j.settings = i.settings
  options : 1 ≤ step.place → j.mode = i.mode
    ∧ ∀ q, { j.shared.options j.title with query := q }
      = { i.shared.options i.title with query := q }
  query : 2 ≤ step.place → j.shared.query = i.shared.query
  feed : 3 ≤ step.place → ∀ agent source known,
    (Feed.load agent source known j.world).2 = (Feed.load agent source known i.world).2
  names : 4 ≤ step.place → ∀ path, j.world.files.namesAt path = i.world.files.namesAt path
  world : 5 ≤ step.place → j.world = i.world

/-- The rules for options do not look at the query. -/
theorem ofOptions_error_of_query {mode : Mode} {options : Options} {why : OptionFault}
    (h : Config.ofOptions mode options s = .error why) (q : Text) :
    Config.ofOptions mode { options with query := q } s = .error why := by
  unfold Config.ofOptions at h ⊢
  simp only at h ⊢
  split at h
  · rename_i htwo
    rw [if_pos htwo]
    exact h
  · rename_i htwo
    rw [if_neg htwo]
    split at h
    · rename_i hnone
      rw [if_pos hnone]
      exact h
    · rename_i hnone
      rw [if_neg hnone]
      cases houtput : options.output with
      | none =>
          rw [houtput] at h
          exact h
      | some output =>
          rw [houtput] at h
          simp only at h ⊢
          split at h
          · rename_i hfew
            rw [if_pos hfew]
            exact h
          · rename_i hfew
            rw [if_neg hfew]
            split at h
            · rename_i htitle
              rw [if_pos htitle]
              exact h
            · cases h

/-- With the same query the same options are put together. -/
theorem SameInputs.ready (h : SameInputs step i j) (hplace : 2 ≤ step.place)
    (hready : i.Ready s c) : j.Ready s c := by
  refine ⟨h.settings.trans hready.settings_eq, ?_⟩
  obtain ⟨hmode, hoptions⟩ := h.options (by omega)
  have hsame : j.shared.options j.title = i.shared.options i.title := by
    have hquery := hoptions i.shared.query
    have hj : { j.shared.options j.title with query := i.shared.query }
        = j.shared.options j.title := by
      rw [← h.query hplace]
      rfl
    rw [← hj, hquery]
    rfl
  have hconfig := hready.config_eq
  unfold config at hconfig ⊢
  rw [hmode, hsame]
  exact hconfig

/-- And the same feed is loaded, though the world may be another. -/
theorem SameInputs.loaded (h : SameInputs step i j) (hplace : 3 ≤ step.place)
    (hloaded : i.Loaded s c p w channel) : j.Loaded s c p (j.load s c).1 channel := by
  refine ⟨h.ready (by omega) hloaded.toReady, hloaded.query, ?_⟩
  have hfeed := h.feed hplace s.http.userAgent c.source (some c.sourceIsUrl)
  have hchannel := congrArg Prod.snd hloaded.feed
  exact Prod.ext rfl (hfeed.trans hchannel)

/-- The same items are selected if the same names are there. -/
theorem selected_congr {w' : World} (h : ∀ path, w'.files.namesAt path = w.files.namesAt path) :
    selected c p channel w' = selected c p channel w := by
  unfold selected
  rw [h]

/-- What is given to later steps makes no difference to the failure or the
report. -/
theorem Fails.congr (h : i.Fails step why) (hsame : SameInputs step i j) :
    j.Fails step why ∧ j.report? = i.report? := by
  cases h with
  | settings h =>
      have h' := hsame.settings.trans h
      rw [(exit_of_unsettled h).2, (exit_of_unsettled h').2]
      exact ⟨.settings h', rfl⟩
  | @options s why hsettings h =>
      have hsettings' := hsame.settings.trans hsettings
      obtain ⟨hmode, hoptions⟩ := hsame.options (by decide)
      have h' : j.config s = .error why := by
        have hquery := ofOptions_error_of_query h j.shared.query
        rw [← hoptions, ← hmode] at hquery
        exact hquery
      rw [(exit_of_unruly hsettings h).2, (exit_of_unruly hsettings' h').2]
      exact ⟨.options hsettings' h', rfl⟩
  | query hready h =>
      have hready' := hsame.ready (by decide) hready
      rw [(exit_of_unread hready h).2.2, (exit_of_unread hready' h).2.2]
      exact ⟨.query hready' h, rfl⟩
  | @feed s c p w why hready hquery h =>
      have hready' := hsame.ready (by decide) hready
      have hresult : (i.load s c).2 = .error why := congrArg Prod.snd h
      have h' : j.load s c = ((j.load s c).1, .error why) :=
        Prod.ext rfl ((hsame.feed (by decide) _ _ _).trans hresult)
      rw [(exit_of_unloaded hready hquery h).2.2, (exit_of_unloaded hready' hquery h').2.2]
      exact ⟨.feed hready' hquery h', rfl⟩
  | @selection s c p w channel why hloaded h =>
      have hloaded' := hsame.loaded (by decide) hloaded
      have h' : selected c p channel (j.load s c).1 = .error why := by
        refine (selected_congr fun path => ?_).trans h
        rw [hloaded'.files_eq, hloaded.files_eq]
        exact hsame.names (by decide) path
      rw [(exit_of_unselected hloaded h).2.2, (exit_of_unselected hloaded' h').2.2]
      exact ⟨.selection hloaded' h', rfl⟩
  | @mode s c p w channel items why hselected h =>
      have hready' := hsame.ready (by decide) hselected.toReady
      have hfeed' : j.load s c = (w, .ok channel) := by
        unfold load
        rw [hsame.world (by decide)]
        exact hselected.feed
      have hselected' : j.Selected s c p w channel items :=
        ⟨⟨hready', hselected.query, hfeed'⟩, hselected.items⟩
      rw [(exit_of_selected hselected).2.2.2, (exit_of_selected hselected').2.2.2]
      exact ⟨.mode hselected' h, rfl⟩

-- ======================================================== without failure

/-- If no step fails, each has been gone through. -/
theorem exists_selected (h : ¬ ∃ step why, i.Fails step why) :
    ∃ s c p w channel items code, i.Selected s c p w channel items
      ∧ (runMode s c channel items w).2.ending = .ok code := by
  cases hsettings : i.settings with
  | error why => exact absurd ⟨_, _, .settings hsettings⟩ h
  | ok s =>
  cases hconfig : i.config s with
  | error why => exact absurd ⟨_, _, .options hsettings hconfig⟩ h
  | ok c =>
  have hready : i.Ready s c := ⟨hsettings, hconfig⟩
  cases hquery : Query.read c.query with
  | error why => exact absurd ⟨_, _, .query hready hquery⟩ h
  | ok p =>
  cases hload : i.load s c with
  | mk w result =>
  cases result with
  | error why => exact absurd ⟨_, _, .feed hready hquery hload⟩ h
  | ok channel =>
  have hloaded : i.Loaded s c p w channel := ⟨hready, hquery, hload⟩
  cases hitems : selected c p channel w with
  | error why => exact absurd ⟨_, _, .selection hloaded hitems⟩ h
  | ok items =>
  have hselected : i.Selected s c p w channel items := ⟨hloaded, hitems⟩
  cases hending : (runMode s c channel items w).2.ending with
  | error why => exact absurd ⟨_, _, .mode hselected hending⟩ h
  | ok code => exact ⟨s, c, p, w, channel, items, code, hselected, hending⟩

/-- The downloads that a run makes if that is its mode. -/
def downloads (s : Profile) (c : Config) (items : List Item) (w : World) :
    Download.Ended World :=
  Download.run
    (Download.fetching s.http.userAgent s.download.retries s.download.retryDelay) c.ndownloads
    c.output items { w with files := (Download.prepare w.access w.files c.output).1 }

/-- A download that ends has outcomes, and its exit code tells whether all
of them are good. -/
theorem download_code {code : Nat} (h : (download s c channel items w).2.ending = .ok code) :
    ∃ outcomes, (downloads s c items w).outcome = .ok outcomes
      ∧ code = if outcomes.all (·.succeeded) then 0 else 5 := by
  have hall (outcomes : List Download.Outcome) :
      successes outcomes = outcomes.length ↔ outcomes.all (·.succeeded) = true := by
    unfold successes
    rw [List.length_filter_eq_length_iff, List.all_eq_true]
  unfold download at h
  unfold downloads
  split at h
  · cases h
  · rename_i files hprepare
    rw [hprepare]
    unfold downloadReport at h
    simp only at h
    split at h
    · cases h
    · rename_i outcomes houtcome
      refine ⟨outcomes, houtcome, ?_⟩
      rw [← Except.ok.inj h]
      simp only [hall]
      rfl

/-- The exit code of a mode that ends. -/
theorem runMode_code {code : Nat} (h : (runMode s c channel items w).2.ending = .ok code) :
    (c.mode ≠ .download → code = 0)
      ∧ (c.mode = .download → ∃ outcomes, (downloads s c items w).outcome = .ok outcomes
        ∧ code = if outcomes.all (·.succeeded) then 0 else 5) := by
  unfold runMode at h
  cases hmode : c.mode with
  | check =>
      rw [hmode] at h
      refine ⟨fun _ => ?_, fun hother => by cases hother⟩
      simp only at h
      unfold check at h
      split at h
      · exact (Except.ok.inj h).symm
      · cases h
  | download =>
      rw [hmode] at h
      exact ⟨fun hother => absurd rfl hother, fun _ => download_code h⟩
  | create =>
      rw [hmode] at h
      refine ⟨fun _ => ?_, fun hother => by cases hother⟩
      simp only at h
      unfold create at h
      simp only at h
      split at h
      · cases h
      · split at h
        · cases h
        · exact (Except.ok.inj h).symm

/-- The first step that fails decides the run. The exit code is that of its
failure; the stages before it succeeded, it failed, which is recorded unless
the user broke it off, and those behind it never began; nothing that belongs
to a later step has happened to the world; and all this is the same whatever
later steps are given. If none fails, all stages succeed, and the exit code
is 5 if some download failed and 0 otherwise. -/
theorem first_failure_decides (i : Invocation) :
    (∀ step why, i.Fails step why →
      i.exit.2.code = why.exitCode
      ∧ (∀ n,
        (n + 2 < step.place → (i.progress n).success = true)
        ∧ (n + 2 = step.place → (i.progress n).success = false
          ∧ (i.progress n).error? = if why.isInterruption then none else some why.message)
        ∧ (step.place < n + 2 → (i.progress n).started = false ∧ (i.progress n).figures = []))
      ∧ (step.place < Step.feed.place → i.exit.1 = i.world)
      ∧ (step = .feed ∨ step = .selection → ∃ s c, i.Ready s c
          ∧ i.exit.1 = { i.world with web := (i.load s c).1.web })
      ∧ ∀ j, SameInputs step i j → j.Fails step why ∧ j.exit.2.code = i.exit.2.code
          ∧ ∀ n, j.progress n = i.progress n)
    ∧ ((¬ ∃ step why, i.Fails step why) →
      (∀ n < 4, (i.progress n).success = true)
      ∧ (i.mode ≠ .download → i.exit.2.code = 0)
      ∧ (i.mode = .download → ∃ s c p w channel items outcomes,
          i.Selected s c p w channel items ∧ (downloads s c items w).outcome = .ok outcomes
            ∧ i.exit.2.code = if outcomes.all (·.succeeded) then 0 else 5)) := by
  constructor
  · intro step why h
    obtain ⟨hearly, hlate⟩ := h.world_eq
    refine ⟨h.code_eq, fun n => ?_, hearly, hlate, fun j hsame => ?_⟩
    · obtain ⟨hbefore, hhere, hbehind⟩ := h.progress_eq n
      refine ⟨hbefore, fun hn => ?_, fun hn => ?_⟩
      · rw [hhere hn]
        exact ⟨rfl, rfl⟩
      · rw [hbehind hn]
        exact ⟨rfl, rfl⟩
    · obtain ⟨hfails, hreport⟩ := h.congr hsame
      refine ⟨hfails, hfails.code_eq.trans h.code_eq.symm, fun n => ?_⟩
      unfold progress
      rw [hreport]
  · intro h
    obtain ⟨s, c, p, w, channel, items, code, hselected, hending⟩ := exists_selected h
    obtain ⟨-, -, hcode, hreport⟩ := exit_of_selected hselected
    obtain ⟨hother, hdownload⟩ := runMode_code hending
    have hmode := hselected.toReady.mode_eq.1
    rw [hcode code hending, ← hmode]
    refine ⟨fun n hn => ?_, hother, fun hthis => ?_⟩
    · unfold progress
      rw [hreport, Option.elim_some]
      have hlast := (single_runMode s c channel items w).progress_succeeded hending
      match n, hn with
      | 0, _ => rfl
      | 1, _ => rfl
      | 2, _ => rfl
      | 3, _ =>
          rw [Report.progress_after_succ, Report.progress_after_succ, Report.progress_after_succ]
          exact hlast
    · obtain ⟨outcomes, houtcome, hall⟩ := hdownload hthis
      exact ⟨s, c, p, w, channel, items, outcomes, hselected, houtcome, hall⟩

/-- A world of nothing but what is on the web behind one address. -/
def webOnly (url : Text) (answers : List (Except Http.Failure Http.Response)) : World :=
  { files := .empty
    web := ⟨[(url, answers)], []⟩
    pauses := []
    bindings := []
    homes := []
    now := .first
    mark := "mark" }

/-- A run that is to list what is behind an address. -/
def listingOf (url query : Text) (world : World) : Invocation :=
  ⟨⟨some url, none, some (.ofText "out"), query, none, some (.ofText "none.yaml"), false⟩, .check,
    none, world⟩

/-- A query that cannot be read, an address that cannot be reached and a
range of numbers that is not in order: the query decides, whatever there is
on the web. -/
theorem first_failure_decides_query :
    ∃ why, (listingOf "http://x/" "number:[3-1]" (webOnly "http://x/" [])).Fails .query why
      ∧ (listingOf "http://x/" "number:[3-1]" (webOnly "http://x/" [])).exit.2.code = 3
      ∧ ∀ answers, SameInputs .query
          (listingOf "http://x/" "number:[3-1]" (webOnly "http://x/" []))
          (listingOf "http://x/" "number:[3-1]" (webOnly "http://x/" answers))
        ∧ (listingOf "http://x/" "number:[3-1]" (webOnly "http://x/" answers)).exit.2.code = 3 := by
  let i := listingOf "http://x/" "number:[3-1]" (webOnly "http://x/" [])
  have hready : i.Ready .default
      ⟨.check, some "http://x/", none, .ofText "out", "number:[3-1]", 1, none⟩ := ⟨rfl, rfl⟩
  have hfails : i.Fails .query (.query (.malformed ⟨"[3-1]", .orderedNumbers 3 1⟩)) :=
    .query hready rfl
  have hspec := (first_failure_decides i).1 _ _ hfails
  refine ⟨_, hfails, hspec.1, fun answers => ?_⟩
  have hsame : SameInputs .query i (listingOf "http://x/" "number:[3-1]"
      (webOnly "http://x/" answers)) :=
    ⟨rfl, fun _ => ⟨rfl, fun _ => rfl⟩, fun _ => rfl, fun h => absurd h (by decide),
      fun h => absurd h (by decide), fun h => absurd h (by decide)⟩
  exact ⟨hsame, (hspec.2.2.2.2 _ hsame).2.1.trans hspec.1⟩

/-- A user who breaks off loading the feed has the text of that recorded
nowhere. -/
theorem interruption_unrecorded :
    ∃ i : Invocation, ∃ why, i.Fails .feed why ∧ why.message = "stop" ∧ i.exit.2.code = 1
      ∧ (i.progress 1).success = false ∧ (i.progress 1).error? = none := by
  let i := listingOf "http://x/" "" (webOnly "http://x/" [.error (.interrupted "stop")])
  have hready : i.Ready .default
      ⟨.check, some "http://x/", none, .ofText "out", "", 1, none⟩ := ⟨rfl, rfl⟩
  have hload : (i.load .default
      ⟨.check, some "http://x/", none, .ofText "out", "", 1, none⟩).2
        = .error (.web (.interrupted "stop")) := by
    rfl
  have hfails : i.Fails .feed (.feed (.web (.interrupted "stop"))) :=
    .feed hready rfl (Prod.ext rfl hload)
  have hhere := (hfails.progress_eq 1).2.1 rfl
  refine ⟨i, _, hfails, rfl, hfails.code_eq, ?_, ?_⟩
  · rw [hhere]
    rfl
  · rw [hhere]
    rfl

end Invocation

end FeedSieve.Run
