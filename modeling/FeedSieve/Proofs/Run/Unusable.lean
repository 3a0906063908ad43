/-
Feeds that cannot be used.

A document is a feed, or it is refused for not being one, unless there is
none: no bytes at all are no document, and that is not foreseen. Nor is what
the library that takes documents apart lets escape (`read_cases`). What is in
the way of getting at a document is foreseen as well, if the server or the
file system is to blame; the rest is listed in `Unforeseen`. So loading ends
with a channel or with the exit code for feeds exactly where nothing on that
list happens (`load_foreseen`).

This holds as long as reading does not break off at a date.
-/
import FeedSieve.Proofs.Feed.Accepted
import FeedSieve.Proofs.Run.Stages

/-- Whether server or connection are to blame for a failure on the web. -/
def FeedSieve.Http.Failure.isForeseen : FeedSieve.Http.Failure → Bool
  | .timeout _ | .transport _ => true
  | _ => false

namespace FeedSieve.Feed

variable {library : Library} {bytes : Bytes} {agent source place : Text} {known : Option Bool}
  {world : World}

-- ========================================================= documents

/-- The entries of the draft that is made of a document. -/
def entriesOf (library : Library) (bytes : Bytes) : List Fields :=
  match Draft.ofBytes library bytes with
  | .ok draft => draft.entries
  | .error _ => []

/-- No date of an entry breaks reading off. -/
def DatesReadable (library : Library) (bytes : Bytes) : Prop :=
  ∀ entry ∈ entriesOf library bytes, ∀ t, writtenDate entry = .text t → ∃ m, timestamp t = .ok m

/-- The channel has an item for each entry of the document, and they are
numbered as they come. -/
structure Channel.Follows (library : Library) (channel : Channel) (bytes : Bytes) : Prop where
  items : itemsOf 1 (entriesOf library bytes) = .ok channel.items
  numbered : channel.items.map (·.index) = List.range' 1 (entriesOf library bytes).length

/-- Records whose dates can be read come to items. -/
theorem exists_itemsOfRecords {records : List Record}
    (h : ∀ r ∈ records, ∃ m, r.moment = .ok m) (index : Nat) :
    ∃ items, itemsOfRecords index records = .ok items := by
  induction records generalizing index with
  | nil => exact ⟨[], rfl⟩
  | cons r rest ih =>
      obtain ⟨⟨moment, hmoment⟩, hrest⟩ := List.forall_mem_cons.mp h
      obtain ⟨items, hitems⟩ := ih hrest (index + 1)
      have hitem : ∃ item, r.item index = .ok item := by
        unfold Record.item
        rw [hmoment]
        exact ⟨_, rfl⟩
      obtain ⟨item, hitem⟩ := hitem
      exact ⟨item :: items, itemsOfRecords_cons.mpr ⟨hitem, hitems⟩⟩

/-- The date of a record that can be read is a moment. -/
private theorem moment_of_readable {r : Record}
    (h : ∀ t, writtenDate r.entryFields = .text t → ∃ m, timestamp t = .ok m) :
    ∃ m, r.moment = .ok m := by
  rw [writtenDate_entryFields] at h
  unfold Record.moment
  cases hwritten : r.written with
  | none => exact ⟨_, rfl⟩
  | some t =>
      rw [hwritten] at h
      obtain ⟨m, hm⟩ := h t rfl
      simp only
      rw [hm]
      exact ⟨_, rfl⟩

/-- What is made of a document that is there: nothing, if something escapes,
or the draft of a digest. -/
theorem draft_cases (library : Library) (hne : bytes ≠ []) :
    (∃ what, Draft.ofBytes library bytes = .error (.library what))
      ∨ ∃ d : Digest, Draft.ofBytes library bytes = .ok d.draft := by
  unfold Draft.ofBytes
  rw [if_neg (by simpa using hne)]
  cases digest library bytes with
  | error what => exact Or.inl ⟨what, rfl⟩
  | ok d => exact Or.inr ⟨d, rfl⟩

/-- Unless there is none, and unless something escapes, a document is refused,
or it comes to a channel that follows it. -/
theorem read_cases (h : DatesReadable library bytes) (place : Text) :
    bytes = [] ∧ read library bytes place = .error (.broken .nothing)
      ∨ (∃ what, Draft.ofBytes library bytes = .error what
        ∧ read library bytes place = .error (.broken what))
      ∨ bytes ≠ [] ∧ ((∃ what, read library bytes place = .error (.unreadable what))
        ∨ ∃ channel, read library bytes place = .ok channel
          ∧ channel.Follows library bytes) := by
  by_cases hempty : bytes = []
  · subst hempty
    exact Or.inl ⟨rfl, rfl⟩
  rcases draft_cases library hempty with
    ⟨what, hdraft⟩ | ⟨⟨malformed, isFeed, feed, entries⟩, hdraft⟩
  · refine Or.inr (Or.inl ⟨_, hdraft, ?_⟩)
    unfold read
    rw [hdraft]
    rfl
  refine Or.inr (Or.inr ⟨hempty, ?_⟩)
  have hentries : entriesOf library bytes = entries.map Record.entryFields := by
    unfold entriesOf
    rw [hdraft]
    rfl
  have hread : read library bytes place
      = (Digest.draft ⟨malformed, isFeed, feed, entries⟩).channel? place := by
    unfold read
    rw [hdraft]
    rfl
  rw [hread]
  cases malformed with
  | some why => exact Or.inl ⟨_, rfl⟩
  | none =>
      cases isFeed with
      | false => exact Or.inl ⟨_, rfl⟩
      | true =>
          have hmoments : ∀ record ∈ entries, ∃ m, record.moment = .ok m :=
            fun record hrecord => moment_of_readable
              (h _ (hentries ▸ List.mem_map_of_mem hrecord))
          obtain ⟨items, hitems⟩ := exists_itemsOfRecords hmoments 1
          refine Or.inr ⟨feed.channel items, ?_, ?_, ?_⟩
          · rw [channel?_digest, hitems]
            rfl
          · rw [hentries, itemsOf_entryFields]
            exact hitems
          · rw [hentries, List.length_map, ← (itemsOfRecords_eq_ok_iff.mp hitems).1]
            exact index_itemsOfRecords hitems

-- ========================================================== sources

/-- The document that a source leads to. -/
def found (agent source : Text) (known : Option Bool) (world : World) : Except Unloaded Bytes :=
  (content agent source known world).2.map (meant world.files)

/-- What the server says to a request. -/
def answer (agent url : Text) (world : World) : Except Http.Failure Bytes :=
  (world.web.get agent url).2.bind Http.Response.body

/-- What is not foreseen: an address that cannot be taken apart, a failure on
the web that is not the fault of server or connection, a home directory that
is not there, a path that is none, no document at all, and what the library
that takes documents apart lets escape. -/
inductive Unforeseen (agent source : Text) (known : Option Bool) (world : World) : Prop where
  | address {why : Url.Broken} (hknown : known = none) (h : Url.split source = .error why)
  | request {failure : Http.Failure} (hweb : onWeb source known = .ok true)
      (h : answer agent source world = .error failure) (hodd : failure.isForeseen = false)
  | homeless (hweb : onWeb source known = .ok false) (h : world.expand? (.ofText source) = none)
  | nul {path : Files.Path} (hweb : onWeb source known = .ok false)
      (hpath : world.expand? (.ofText source) = some path)
      (h : world.files.read path = .error .nul)
  | nothing (h : found agent source known world = .ok [])
  | escaped {bytes : Bytes} {what : Break} (hfound : found agent source known world = .ok bytes)
      (h : Draft.ofBytes world.library bytes = .error what)

/-- A feed is loaded by reading the document that its source leads to. -/
theorem load_eq_read (agent source : Text) (known : Option Bool) (world : World) :
    (load agent source known world).2
      = (found agent source known world).bind fun bytes =>
          (read world.library bytes source).mapError .content := by
  have hspec := Run.load_spec agent source known world
  have hfiles := congrArg World.files hspec
  have hlibrary := congrArg World.library hspec
  unfold load at hfiles hlibrary ⊢
  unfold found
  cases hcontent : content agent source known world with
  | mk loaded result =>
  cases result with
  | error why => rfl
  | ok bytes =>
      rw [hcontent] at hfiles hlibrary
      have hfiles : loaded.files = world.files := hfiles
      have hlibrary : loaded.library = world.library := hlibrary
      simp only [hfiles, hlibrary]
      rfl

/-- A request that fails. -/
theorem fromWeb_of_failed {failure : Http.Failure}
    (h : answer agent source world = .error failure) :
    (fromWeb agent source world).2 = .error (if failure.isForeseen then
      .unreachable source failure.message else .web failure) := by
  unfold answer at h
  unfold fromWeb
  generalize world.web.get agent source = got at h ⊢
  obtain ⟨web, result⟩ := got
  have hcontent : (do
      let response ← result
      let body ← response.body
      return (response, body) : Except Http.Failure (Http.Response × Bytes)) = .error failure := by
    cases result with
    | error other => exact congrArg _ (Except.error.inj h)
    | ok response =>
        have hbody : response.body = .error failure := h
        simp only [bind, Except.bind, hbody]
  simp only
  rw [hcontent]
  cases failure with
  | timeout text => rfl
  | transport text => rfl
  | system text => rfl
  | odd text => rfl
  | interrupted text => rfl
  | address why => rfl
  | agent name => rfl

/-- A request that is answered. -/
theorem fromWeb_of_answered {body : Bytes} (h : answer agent source world = .ok body) :
    (fromWeb agent source world).2 = .ok body
      ∨ ∃ status, (fromWeb agent source world).2 = .error (.status source status) := by
  unfold answer at h
  unfold fromWeb
  generalize world.web.get agent source = got at h ⊢
  obtain ⟨web, result⟩ := got
  cases result with
  | error other => cases h
  | ok response =>
      have hbody : response.body = .ok body := h
      simp only [bind, Except.bind, pure, Except.pure, hbody]
      split
      · exact Or.inl rfl
      · exact Or.inr ⟨_, rfl⟩

/-- Where a source leads cannot be told if it is no address. -/
private theorem unforeseen_of_onWeb {other : Unloaded} (h : onWeb source known = .error other) :
    Unforeseen agent source known world := by
  unfold onWeb isUrl at h
  cases known with
  | some known => cases h
  | none =>
      cases hsplit : Url.split source with
      | error why => exact .address rfl hsplit
      | ok parts =>
          rw [hsplit] at h
          cases h

/-- If the web gives no document, that is foreseen or not. -/
private theorem fromWeb_error_cases {why : Unloaded} (hweb : onWeb source known = .ok true)
    (h : (fromWeb agent source world).2 = .error why) :
    (Run.Failure.feed why).kind? = some .load ∨ Unforeseen agent source known world := by
  cases hanswer : answer agent source world with
  | error failure =>
      cases hforeseen : failure.isForeseen with
      | true =>
          rw [fromWeb_of_failed hanswer, if_pos hforeseen] at h
          rw [← Except.error.inj h]
          exact Or.inl rfl
      | false => exact Or.inr (.request hweb hanswer hforeseen)
  | ok body =>
      rcases fromWeb_of_answered hanswer with hbody | ⟨status, hstatus⟩
      · rw [hbody] at h
        cases h
      · rw [hstatus] at h
        rw [← Except.error.inj h]
        exact Or.inl rfl

/-- If there is no file, that is foreseen or not. -/
private theorem fromFile_error_cases {why : Unloaded} (hweb : onWeb source known = .ok false)
    (h : fromFile source world = .error why) :
    (Run.Failure.feed why).kind? = some .load ∨ Unforeseen agent source known world := by
  unfold fromFile at h
  split at h
  case h_1 hpath => exact Or.inr (.homeless hweb hpath)
  case h_2 path hpath =>
    split at h
    case h_1 => cases h
    case h_2 hread => exact Or.inr (.nul hweb hpath hread)
    case h_3 fault hnul hread =>
      rw [← Except.error.inj h]
      exact Or.inl rfl

/-- If no document is found, that is foreseen or not. -/
theorem found_error_cases {why : Unloaded} (h : found agent source known world = .error why) :
    (Run.Failure.feed why).kind? = some .load ∨ Unforeseen agent source known world := by
  have hcontent : (content agent source known world).2 = .error why := by
    unfold found at h
    cases hresult : (content agent source known world).2 with
    | error other =>
        rw [hresult] at h
        exact congrArg _ (Except.error.inj h)
    | ok bytes =>
        rw [hresult] at h
        cases h
  unfold content at hcontent
  cases hweb : onWeb source known with
  | error other => exact Or.inr (unforeseen_of_onWeb hweb)
  | ok web =>
      rw [hweb] at hcontent
      cases web with
      | true => exact fromWeb_error_cases hweb hcontent
      | false => exact fromFile_error_cases hweb hcontent

/-- What is not foreseen ends loading, and is of no kind. -/
theorem Unforeseen.load_eq (h : Unforeseen agent source known world) :
    ∃ why, (load agent source known world).2 = .error why
      ∧ (Run.Failure.feed why).kind? = none := by
  have hfound {why : Unloaded} (hcontent : (content agent source known world).2 = .error why) :
      (load agent source known world).2 = .error why := by
    rw [load_eq_read]
    unfold found
    rw [hcontent]
    rfl
  unfold content at hfound
  cases h with
  | @address why hknown h =>
      have hweb : onWeb source known = .error (.url why) := by
        unfold onWeb isUrl
        rw [hknown, h]
        rfl
      rw [hweb] at hfound
      exact ⟨_, hfound rfl, rfl⟩
  | @request failure hweb h hodd =>
      rw [hweb] at hfound
      refine ⟨.web failure, hfound ((fromWeb_of_failed h).trans ?_), rfl⟩
      rw [hodd]
      rfl
  | homeless hweb h =>
      rw [hweb] at hfound
      refine ⟨.homeless, hfound ?_, rfl⟩
      unfold fromFile
      rw [h]
  | nul hweb hpath h =>
      rw [hweb] at hfound
      refine ⟨.nul, hfound ?_, rfl⟩
      unfold fromFile
      rw [hpath]
      simp only
      rw [h]
  | nothing h =>
      rw [load_eq_read, h]
      exact ⟨_, rfl, rfl⟩
  | @escaped bytes what hbytes h =>
      refine ⟨.content (.broken what), ?_, rfl⟩
      rw [load_eq_read, hbytes, Except.bind, read, h]
      rfl

-- ============================================================ loading

/-- As long as dates can be read, and nothing unforeseen happens, loading a
feed comes to a channel that follows the document, or fails of what is
foreseen. -/
theorem load_of_not_unforeseen
    (hdates : ∀ bytes, found agent source known world = .ok bytes →
      DatesReadable world.library bytes)
    (hnone : ¬ Unforeseen agent source known world) :
    (∃ bytes channel, found agent source known world = .ok bytes
        ∧ (load agent source known world).2 = .ok channel ∧ channel.Follows world.library bytes)
      ∨ ∃ why, (load agent source known world).2 = .error why
        ∧ (Run.Failure.feed why).kind? = some .load := by
  rw [load_eq_read]
  cases hfound : found agent source known world with
  | error why =>
      rcases found_error_cases hfound with hkind | hunforeseen
      · exact Or.inr ⟨why, rfl, hkind⟩
      · exact absurd hunforeseen hnone
  | ok bytes =>
      rcases read_cases (hdates bytes hfound) source with ⟨rfl, -⟩ | ⟨what, hescaped, -⟩
        | ⟨-, ⟨what, hread⟩ | ⟨channel, hread, hfollows⟩⟩
      · exact absurd (.nothing hfound) hnone
      · exact absurd (.escaped hfound hescaped) hnone
      · refine Or.inr ⟨.content (.unreadable what), ?_, rfl⟩
        rw [Except.bind, hread]
        rfl
      · refine Or.inl ⟨bytes, channel, rfl, ?_, hfollows⟩
        rw [Except.bind, hread]
        rfl

/-- A document that is no feed, behind an address. -/
def noFeedWeb : World :=
  Run.Invocation.webOnly "http://x/" [.ok ⟨200, none, [Utf8.encode "<a/>"], none⟩]

end FeedSieve.Feed
