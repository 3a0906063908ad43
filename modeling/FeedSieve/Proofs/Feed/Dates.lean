/-
Dates that are read, and dates that cost the feed.

A moment is written in mail form, or in the interchange form, and either is
read as that moment (`timestamp_of_written`). The mail form comes first, and
it does not get in the way of the other: what has a standard form is none of
it.

A text that is no date means nothing, and an item may have that: it was then
published when its date in numbers says, if it has one. But there are texts on
which reading breaks off, and `Breaks` says what they look like
(`timestamp_breaks_iff`). One of them is enough to cost the whole feed; as
long as there is none, no date does any harm (`read_unless_date_breaks`).
-/
import FeedSieve.Proofs.Calendar.Looser
import FeedSieve.Proofs.Calendar.Standard
import FeedSieve.Proofs.Run.Unusable

namespace FeedSieve.Feed

open Calendar
open Calendar.Iso8601 (LooseDay NoMinute loose standard?)

variable {library : Library} {t : Text} {bytes : Bytes}

-- ============================================================= written

/-- A moment with an offset of whole minutes is read from both forms. The
mail form has no fractions of seconds, and the standard form of the other is
no mail date. -/
theorem timestamp_of_written {m : Moment} {minutes : Int} (hyear : 100 ≤ m.date.year)
    (hoffset : m.offset = some (60 * minutes)) (hnear : minutes.natAbs < 1440) :
    timestamp m.mail = .ok (some m.wholeSeconds)
      ∧ m.wholeSeconds.date = m.date ∧ m.wholeSeconds.offset = m.offset
      ∧ m.wholeSeconds.instant = m.instant - m.micro
      ∧ MailDate.read m.iso = .ok none
      ∧ timestamp m.iso = .ok (some m) := by
  have hwhole : (60 : Int) ∣ 60 * minutes := Int.dvd_mul_right 60 minutes
  have hday : (60 * minutes).natAbs < 86400 := by omega
  have hmail := MailDate.read_mail hyear hoffset hwhole hday
  have hstandard := Iso8601.standard?_iso hoffset hwhole hday
  have hnone := MailDate.read_of_standard? hstandard
  refine ⟨?_, rfl, rfl, m.instant_wholeSeconds, hnone, ?_⟩
  · unfold timestamp
    rw [hmail]
  · have hfits : (m.offset.getD 0).natAbs < 86400 := by
      rw [hoffset]
      exact hday
    unfold timestamp isoTimestamp
    rw [hnone]
    simp only [hstandard, if_pos hfits]

/-- A moment of the last year, late in the day, well to the west of UTC. -/
theorem timestamp_of_written_west :
    ∃ m : Moment, m.date.year = 9999 ∧ m.offset = some (60 * -719) ∧ m.micro = 999999
      ∧ timestamp m.mail = .ok (some m.wholeSeconds) ∧ timestamp m.iso = .ok (some m) := by
  let m : Moment := ⟨⟨9999, 12, 31, by decide⟩, 86399999999, some (60 * -719), by decide⟩
  obtain ⟨hmail, -, -, -, -, hiso⟩ :=
    @timestamp_of_written m (-719) (by decide) rfl (by decide)
  exact ⟨m, rfl, rfl, by decide, hmail, hiso⟩

-- ============================================================== broken

/-- A number of a mail date is out of bounds: the offset is no duration, or it
is an offset (or missing) and another number is not one of 32 bits. -/
def Outsized (n : MailDate.Numbers) : Prop :=
  (∃ s, n.offset = some s ∧ 999999999 < (s / 86400).natAbs)
    ∨ (∀ s, n.offset = some s → s.natAbs < 86400)
      ∧ ∃ k ∈ [n.year, n.month, n.day, n.hour, n.minute, n.second], k < -2147483648 ∨ 2147483648 ≤ k

/-- An interval one of whose ends is left empty. Behind a duration the other
end may be. -/
inductive EmptyEnd : Text → Prop
  | start {last : Text} (h : '/' ∉ last) : EmptyEnd ('/' :: last)
  | finish {first : Text} (h : '/' ∉ first) (hdate : first.head? ≠ some 'P') :
      EmptyEnd (first ++ ['/'])

/-- The texts on which reading a date breaks off: mail dates with a number out
of bounds, standard forms with an offset of a day or more, and, where they are
neither of the two, intervals with an end left empty and times without
minutes. -/
inductive Breaks (t : Text) : Prop
  | number {n : MailDate.Numbers} (h : MailDate.numbers? t = some n)
      (hout : Outsized n)
  | offset {m : Moment} (h : standard? t = some m) (hfar : 86400 ≤ (m.offset.getD 0).natAbs)
  | emptyEnd (hmail : MailDate.read t = .ok none) (h : EmptyEnd t)
  | noMinute {day time : Text} (hmail : MailDate.read t = .ok none)
      (hstandard : standard? t = none) (htext : t = day ++ time) (hday : LooseDay day)
      (htime : NoMinute time)

/-- An offset is no duration if it has too many days. -/
theorem fitsOffset_error_iff {s : Int} :
    (∃ what, MailDate.fitsOffset s = .error what) ↔ 999999999 < (s / 86400).natAbs := by
  unfold MailDate.fitsOffset Number.shortEnd
  simp only
  split
  · rename_i hint
    simp only [Bool.or_eq_true, decide_eq_true_eq] at hint
    exact ⟨fun _ => by omega, fun _ => ⟨_, rfl⟩⟩
  · rename_i hint
    split
    · rename_i hdays
      simp only [Bool.or_eq_true, decide_eq_true_eq] at hdays
      exact ⟨fun _ => by omega, fun _ => ⟨_, rfl⟩⟩
    · rename_i hdays
      simp only [Bool.or_eq_true, decide_eq_true_eq] at hdays
      exact ⟨fun ⟨_, h⟩ => (by cases h), fun h => by omega⟩

/-- It is one of a day if it has less than a day. -/
theorem fitsOffset_eq_true_iff {s : Int} : MailDate.fitsOffset s = .ok true ↔ s.natAbs < 86400 := by
  cases hfits : MailDate.fitsOffset s with
  | error what =>
      have hfar := fitsOffset_error_iff.mp ⟨what, hfits⟩
      exact ⟨fun h => (by cases h), fun h => by omega⟩
  | ok fits =>
      have hdecided : fits = decide (s.natAbs < 86400) := by
        unfold MailDate.fitsOffset at hfits
        simp only at hfits
        split at hfits
        · cases hfits
        · split at hfits
          · cases hfits
          · exact (Except.ok.inj hfits).symm
      rw [hdecided, Except.ok.injEq, decide_eq_true_iff]

/-- Numbers do not fit the machine if one of them is not one of 32 bits. -/
theorem fitMachine_error_iff {numbers : List Int} :
    (∃ what, MailDate.fitMachine numbers = .error what)
      ↔ ∃ k ∈ numbers, k < -2147483648 ∨ 2147483648 ≤ k := by
  have hok : MailDate.fitMachine numbers = .ok () ↔ _ := MailDate.fitMachine_eq_ok_iff
  unfold Number.shortEnd at hok
  constructor
  · rintro ⟨what, h⟩
    by_contra hnone
    have hfits := hok.mpr fun k hk => by
      have hin : ¬ (k < -2147483648 ∨ 2147483648 ≤ k) := fun hout => hnone ⟨k, hk, hout⟩
      omega
    rw [h] at hfits
    cases hfits
  · rintro ⟨k, hk, hout⟩
    cases h : MailDate.fitMachine numbers with
    | error what => exact ⟨what, rfl⟩
    | ok u =>
        have := hok.mp h k hk
        omega

/-- The offset of a mail date is looked at first, and the other numbers only if
it is one. -/
theorem mailDate_error_of_numbers {n : MailDate.Numbers} (h : MailDate.numbers? t = some n) :
    (∃ what, MailDate.read t = .error what)
      ↔ (∃ s, n.offset = some s ∧ ∃ what, MailDate.fitsOffset s = .error what)
        ∨ (∀ s, n.offset = some s → MailDate.fitsOffset s = .ok true)
          ∧ ∃ what, MailDate.fitMachine [n.year, n.month, n.day, n.hour, n.minute, n.second]
            = .error what := by
  unfold MailDate.read
  rw [h]
  dsimp only
  cases hmachine : MailDate.fitMachine [n.year, n.month, n.day, n.hour, n.minute, n.second] <;>
    cases hoffset : n.offset with
    | none => simp [bind, Except.bind, pure, Except.pure]
    | some s =>
        cases hfits : MailDate.fitsOffset s with
        | error what => simp [hfits, bind, Except.bind]
        | ok fits => cases fits <;> simp [hfits, bind, Except.bind, pure, Except.pure]

/-- Reading a mail date breaks off at numbers out of bounds. -/
theorem mailDate_error_iff : (∃ what, MailDate.read t = .error what)
    ↔ ∃ n, MailDate.numbers? t = some n ∧ Outsized n := by
  cases hnumbers : MailDate.numbers? t with
  | none =>
      unfold MailDate.read
      rw [hnumbers]
      exact ⟨fun ⟨_, h⟩ => (by cases h), fun ⟨_, h, _⟩ => (by cases h)⟩
  | some n =>
      rw [mailDate_error_of_numbers hnumbers]
      simp only [fitsOffset_error_iff, fitsOffset_eq_true_iff, fitMachine_error_iff,
        Option.some.injEq, exists_eq_left', Outsized]

/-- An interval with an end left empty, by its ends. -/
theorem hasEmptyEnd_iff : hasEmptyEnd t = true ↔ EmptyEnd t := by
  unfold hasEmptyEnd
  constructor
  · intro h
    split at h
    · rename_i first last hsplit
      have hparts := Text.joinWith_splitOn '/' t
      have hpiece : ∀ piece ∈ [first, last], '/' ∉ piece := fun piece hpiece =>
        (Text.of_mem_splitOn (hsplit ▸ hpiece)).2
      have hfirst := hpiece first (by simp)
      have hlast := hpiece last (by simp)
      rw [hsplit] at hparts
      rw [← hparts]
      simp only [Bool.or_eq_true, Bool.and_eq_true, List.isEmpty_iff, bne_iff_ne] at h
      rcases h with rfl | ⟨rfl, hdate⟩
      · exact .start hlast
      · have hfinish := EmptyEnd.finish hfirst hdate
        simpa [Text.joinWith] using hfinish
    · cases h
  · rintro (⟨h⟩ | ⟨h, hdate⟩)
    · rw [← List.nil_append ('/' :: _), Text.splitOn_append List.not_mem_nil,
        Text.splitOn_of_notMem h]
      rfl
    · have hend : Text.splitOn '/' [] = [[]] := rfl
      rw [Text.splitOn_append h, hend]
      simp [hdate]

/-- A text with an empty end has a slash, which no standard form has. -/
theorem standard?_of_emptyEnd (h : EmptyEnd t) : standard? t = none := by
  have hslash : '/' ∈ t := by
    rcases h with ⟨-⟩ | ⟨-, -⟩ <;> simp
  cases hstandard : standard? t with
  | none => rfl
  | some m => exact absurd hslash (Iso8601.slash_notMem_of_standard? hstandard)

/-- Reading one of the other forms breaks off at an offset of a day or more, at
an empty end, or at a time without minutes. -/
theorem isoTimestamp_error_iff : (∃ why, isoTimestamp t = .error why)
    ↔ (∃ m, standard? t = some m ∧ 86400 ≤ (m.offset.getD 0).natAbs)
      ∨ EmptyEnd t ∨ (standard? t = none ∧ loose t = .noMinute) := by
  unfold isoTimestamp
  cases hstandard : standard? t with
  | some m =>
      have hend : ¬ EmptyEnd t := fun h => by
        rw [standard?_of_emptyEnd h] at hstandard
        cases hstandard
      dsimp only
      by_cases hnear : (m.offset.getD 0).natAbs < 86400
      · rw [if_pos hnear]
        exact ⟨fun ⟨_, h⟩ => (by cases h), fun h => by simp [hend] at h; omega⟩
      · rw [if_neg hnear]
        exact ⟨fun _ => Or.inl ⟨m, rfl, Nat.not_lt.mp hnear⟩, fun _ => ⟨_, rfl⟩⟩
  | none =>
      dsimp only
      rw [← hasEmptyEnd_iff]
      by_cases hend : hasEmptyEnd t = true
      · simp [hend]
      · cases hloose : loose t <;> simp [hend]

/-- These are all the texts on which reading a date breaks off. -/
theorem timestamp_breaks_iff : (∃ why, timestamp t = .error why) ↔ Breaks t := by
  unfold timestamp
  cases hmail : MailDate.read t with
  | error what =>
      obtain ⟨n, hn, hout⟩ := mailDate_error_iff.mp ⟨what, hmail⟩
      exact ⟨fun _ => .number hn hout, fun _ => ⟨_, rfl⟩⟩
  | ok mail =>
      have hnumbers {n : MailDate.Numbers} (hn : MailDate.numbers? t = some n) : ¬ Outsized n :=
        fun hout => by
          obtain ⟨what, hwhat⟩ := mailDate_error_iff.mpr ⟨n, hn, hout⟩
          rw [hmail] at hwhat
          cases hwhat
      cases mail with
      | some m =>
          refine ⟨fun ⟨_, h⟩ => (by cases h), ?_⟩
          -- what is a mail date is none of the other forms
          rintro (⟨hn, hout⟩ | ⟨h, -⟩ | ⟨hnone, -⟩ | ⟨hnone, -⟩)
          · exact absurd hout (hnumbers hn)
          · rw [MailDate.read_of_standard? h] at hmail
            cases hmail
          · rw [hmail] at hnone
            cases hnone
          · rw [hmail] at hnone
            cases hnone
      | none =>
          dsimp only
          rw [isoTimestamp_error_iff, Iso8601.loose_eq_noMinute_iff]
          constructor
          · rintro (⟨m, h, hfar⟩ | h | ⟨hstandard, day, time, htext, hday, htime⟩)
            · exact .offset h hfar
            · exact .emptyEnd hmail h
            · exact .noMinute hmail hstandard htext hday htime
          · rintro (⟨hn, hout⟩ | ⟨h, hfar⟩ | ⟨-, h⟩ | ⟨-, hstandard, htext, hday, htime⟩)
            · exact absurd hout (hnumbers hn)
            · exact .inl ⟨_, h, hfar⟩
            · exact .inr (.inl h)
            · exact .inr (.inr ⟨hstandard, _, _, htext, hday, htime⟩)

-- =============================================================== feeds

/-- A well-formed document that is a feed. -/
def IsFeed (library : Library) (bytes : Bytes) : Prop :=
  ∃ draft, Draft.ofBytes library bytes = .ok draft ∧ draft.malformed = none
    ∧ draft.version.any isGiven = true

instance (library : Library) (bytes : Bytes) : Decidable (IsFeed library bytes) :=
  decidable_of_iff ((Draft.ofBytes library bytes).toOption.any fun draft =>
      draft.malformed.isNone && draft.version.any isGiven) <| by
    unfold IsFeed
    cases Draft.ofBytes library bytes with
    | error what => exact ⟨fun h => (by cases h), fun ⟨_, h, _⟩ => by cases h⟩
    | ok draft =>
        show (draft.malformed.isNone && draft.version.any isGiven) = true ↔ _
        rw [Bool.and_eq_true, Option.isNone_iff_eq_none]
        exact ⟨fun h => ⟨draft, rfl, h⟩, fun ⟨_, hsame, h⟩ => Except.ok.inj hsame ▸ h⟩

/-- Such a document has a digest. -/
theorem IsFeed.exists_digest (h : IsFeed library bytes) : ∃ feed entries,
    Draft.ofBytes library bytes = .ok (Digest.draft ⟨none, true, feed, entries⟩) := by
  obtain ⟨draft, hdraft, hformed, hversion⟩ := h
  have hne : bytes ≠ [] := by
    rintro rfl
    rw [← Except.ok.inj hdraft] at hversion
    cases hversion
  rcases draft_cases library hne with ⟨what, hescaped⟩ | ⟨⟨malformed, isFeed, feed, entries⟩, hmade⟩
  · rw [hdraft] at hescaped
    cases hescaped
  · obtain rfl := Except.ok.inj (hdraft.symm.trans hmade)
    have hnone : malformed = none := hformed
    have hfeed : isFeed = true := hversion
    rw [hnone, hfeed] at hmade
    exact ⟨feed, entries, hmade⟩

/-- What it is read as, and what its entries are, is told by the records of
that. -/
theorem IsFeed.exists_records (h : IsFeed library bytes) : ∃ feed records,
    entriesOf library bytes = records.map Record.entryFields
      ∧ ∀ place, read library bytes place
        = ((itemsOfRecords 1 records).map (Record.channel feed)).mapError .broken := by
  obtain ⟨feed, records, hdraft⟩ := h.exists_digest
  refine ⟨feed, records, ?_, fun place => ?_⟩
  · unfold entriesOf
    rw [hdraft]
    rfl
  · unfold read
    rw [hdraft, ← channel?_digest feed records place]
    rfl

/-- When an item was published is told by the date of its record. -/
theorem publishedAt_of_item {r : Record} {index : Nat} {item : Item}
    (h : r.item index = .ok item) :
    (∀ t m, r.written = some t → timestamp t = .ok (some m) →
        item.publishedAt = some m.inUtcIfNaive)
      ∧ ((∀ t, r.written = some t → timestamp t = .ok none) →
        item.publishedAt = r.time.map Moment.inUtcIfNaive) := by
  obtain ⟨moment, hmoment, rfl⟩ := Except.map_eq_ok_iff.mp h
  unfold Record.moment at hmoment
  constructor
  · intro t m hwritten hread
    rw [hwritten] at hmoment
    simp only [hread] at hmoment
    rw [← Except.ok.inj hmoment]
    rfl
  · intro hnone
    cases hwritten : r.written with
    | none =>
        rw [hwritten] at hmoment
        rw [← Except.ok.inj hmoment]
    | some t =>
        rw [hwritten] at hmoment
        simp only [hnone t hwritten] at hmoment
        rw [← Except.ok.inj hmoment]
        rfl

/-- A record whose date breaks reading off comes to no item. -/
theorem item_of_breaks {r : Record} (h : r.written = some t) (hbreaks : Breaks t) (index : Nat) :
    ∃ what, r.item index = .error (.date what) := by
  obtain ⟨what, hwhat⟩ := timestamp_breaks_iff.mpr hbreaks
  unfold Record.item Record.moment
  rw [h]
  simp only [hwhat]
  exact ⟨what, rfl⟩

/-- Nothing else keeps it from being one. -/
theorem item_error {r : Record} {index : Nat} {why : Break} (h : r.item index = .error why) :
    ∃ what, why = .date what := by
  unfold Record.item Record.moment at h
  cases hwritten : r.written with
  | none =>
      rw [hwritten] at h
      cases h
  | some t =>
      rw [hwritten] at h
      simp only at h
      cases hread : timestamp t with
      | error what =>
          rw [hread] at h
          exact ⟨what, (Except.error.inj h).symm⟩
      | ok m =>
          rw [hread] at h
          cases h

/-- Records come to items unless one of them does not; the first such date is
to blame. -/
theorem itemsOfRecords_of_breaks {records : List Record}
    (h : ∃ r ∈ records, ∃ t, r.written = some t ∧ Breaks t) (index : Nat) :
    ∃ what, itemsOfRecords index records = .error (.date what) := by
  induction records generalizing index with
  | nil =>
      obtain ⟨r, hr, -⟩ := h
      cases hr
  | cons first rest ih =>
      rw [itemsOfRecords]
      cases hfirst : first.item index with
      | error why =>
          obtain ⟨what, rfl⟩ := item_error hfirst
          exact ⟨what, rfl⟩
      | ok item =>
          obtain ⟨r, hr, t, hwritten, hbreaks⟩ := h
          rcases List.mem_cons.mp hr with rfl | hr
          · obtain ⟨what, hwhat⟩ := item_of_breaks hwritten hbreaks index
            rw [hwhat] at hfirst
            cases hfirst
          · obtain ⟨what, hwhat⟩ := ih ⟨r, hr, t, hwritten, hbreaks⟩ (index + 1)
            refine ⟨what, ?_⟩
            simp only [bind, Except.bind]
            rw [hwhat]

/-- The date of an entry is the one that its record keeps. -/
theorem writtenDate_eq_text_iff {r : Record} :
    writtenDate r.entryFields = .text t ↔ r.written = some t := by
  rw [writtenDate_entryFields]
  cases r.written with
  | none => exact ⟨fun h => (by cases h), fun h => (by cases h)⟩
  | some written =>
      exact ⟨fun h => congrArg some (Lax.Value.text.inj h), fun h => congrArg Lax.Value.text
        (Option.some.inj h)⟩

/-- The dates of the entries can be read if none of them breaks reading off. -/
theorem datesReadable_iff : DatesReadable library bytes ↔
    ∀ entry ∈ entriesOf library bytes, ∀ t, writtenDate entry = .text t → ¬ Breaks t := by
  refine forall₄_congr fun entry _ t _ => ?_
  rw [← timestamp_breaks_iff]
  cases timestamp t with
  | ok m => exact ⟨fun _ ⟨_, h⟩ => (by cases h), fun _ => ⟨m, rfl⟩⟩
  | error why => exact ⟨fun ⟨_, h⟩ => (by cases h), fun h => absurd ⟨why, rfl⟩ h⟩

/-- A feed whose dates can be read is read. -/
theorem IsFeed.exists_read (h : IsFeed library bytes) (hdates : DatesReadable library bytes)
    (place : Text) :
    ∃ channel, read library bytes place = .ok channel ∧ channel.Follows library bytes := by
  rcases read_cases hdates place with ⟨rfl, -⟩ | ⟨what, hescaped, -⟩ | ⟨-, ⟨what, hrefused⟩ | hread⟩
  · obtain ⟨feed, entries, hdraft⟩ := h.exists_digest
    cases hdraft
  · obtain ⟨feed, entries, hdraft⟩ := h.exists_digest
    rw [hdraft] at hescaped
    cases hescaped
  · -- it is neither malformed nor something else than a feed
    obtain ⟨feed, records, -, hrecords⟩ := h.exists_records
    rw [hrecords] at hrefused
    cases hitems : itemsOfRecords 1 records with
    | error why =>
        rw [hitems] at hrefused
        cases hrefused
    | ok items =>
        rw [hitems] at hrefused
        cases hrefused
  · exact hread

/-- The item of an entry was published when the date of the entry says: as it
is written if that means anything, in numbers otherwise. -/
theorem publishedAt_of_entry {channel : Channel} (h : IsFeed library bytes)
    (hfollows : channel.Follows library bytes) {i : Nat} {entry : Fields} {item : Item}
    (hentry : (entriesOf library bytes)[i]? = some entry)
    (hitem : channel.items[i]? = some item) :
    (∀ t m, writtenDate entry = .text t → timestamp t = .ok (some m) →
        item.publishedAt = some m.inUtcIfNaive)
      ∧ ((∀ t, writtenDate entry = .text t → timestamp t = .ok none) →
        ∃ m, momentOfValue (parsedDate entry) = .ok m
          ∧ item.publishedAt = m.map Moment.inUtcIfNaive) := by
  obtain ⟨feed, records, hentries, -⟩ := h.exists_records
  have hitems := hfollows.items
  rw [hentries, itemsOf_entryFields] at hitems
  rw [hentries, List.getElem?_map, Option.map_eq_some_iff] at hentry
  obtain ⟨record, hrecord, rfl⟩ := hentry
  obtain ⟨hdated, hundated⟩ :=
    publishedAt_of_item ((itemsOfRecords_eq_ok_iff.mp hitems).2 i record item hrecord hitem)
  exact ⟨fun t m ht => hdated t m (writtenDate_eq_text_iff.mp ht),
    fun hnone => ⟨record.time, momentOfValue_parsedDate record,
      hundated fun t ht => hnone t (writtenDate_eq_text_iff.mpr ht)⟩⟩

/-- A feed with a date that breaks reading off is not read. -/
theorem IsFeed.read_of_breaks (h : IsFeed library bytes)
    (hbreaks : ∃ entry ∈ entriesOf library bytes,
      ∃ t, writtenDate entry = .text t ∧ Breaks t) (place : Text) :
    ∃ why, read library bytes place = .error (.broken (.date why)) := by
  obtain ⟨feed, records, hentries, hread⟩ := h.exists_records
  obtain ⟨entry, hentry, t, ht, hbreaks⟩ := hbreaks
  rw [hentries] at hentry
  obtain ⟨record, hrecord, rfl⟩ := List.mem_map.mp hentry
  obtain ⟨what, hwhat⟩ := itemsOfRecords_of_breaks
    ⟨record, hrecord, t, writtenDate_eq_text_iff.mp ht, hbreaks⟩ 1
  rw [hread, hwhat]
  exact ⟨what, rfl⟩

/-- Whether the date of an entry is read. -/
def readsDate (entry : Fields) : Bool :=
  match writtenDate entry with
  | .text t => (timestamp t).isOk
  | _ => true

/-- It is, unless reading breaks off at it. -/
theorem readsDate_iff {entry : Fields} :
    readsDate entry = true ↔ ∀ t, writtenDate entry = .text t → ¬ Breaks t := by
  unfold readsDate
  split
  · rename_i t hwritten
    have hone : (∀ u, writtenDate entry = .text u → ¬ Breaks u) ↔ ¬ Breaks t :=
      ⟨fun h => h t hwritten, fun h u hu => Lax.Value.text.inj (hwritten.symm.trans hu) ▸ h⟩
    rw [hone, ← timestamp_breaks_iff]
    cases timestamp t with
    | error why => exact ⟨fun h => (by cases h), fun h => absurd ⟨why, rfl⟩ h⟩
    | ok m => exact ⟨fun _ ⟨_, h⟩ => (by cases h), fun _ => rfl⟩
  · rename_i hother
    exact ⟨fun _ t ht => absurd ht (hother t), fun _ => rfl⟩

/-- A feed of one item with a date. -/
def datedFeed (date : String) : Bytes :=
  Utf8.encode ("<rss><channel><item><pubDate>".toList ++ date.toList
    ++ "</pubDate></item></channel></rss>".toList)

end FeedSieve.Feed
