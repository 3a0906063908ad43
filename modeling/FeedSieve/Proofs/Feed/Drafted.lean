/-
What the records of a document come to.

A record keeps for each key what was said last; what a key says after
something was said for another is what it said before (`word?_say`).

A draft hands values over by name, and an item or a channel picks from them.
For drafts made of records everything is known about those values: they are
texts, and dates in numbers that fit the machine (`momentOfNumbers_stamp`). So
an item can be read off the record of its entry (`Record.item`,
`ofEntry_entryFields`), and a channel off the record of its feed
(`Record.channel`, `channel?_digest`); nothing can be wrong with them but a
date on which reading breaks off.
-/
import FeedSieve.Feed.Reader
import FeedSieve.Proofs.Calendar.Forms

/-- A result comes of a result. -/
theorem Except.map_eq_ok_iff {ε α β : Type} {x : Except ε α} {f : α → β} {b : β} :
    x.map f = .ok b ↔ ∃ a, x = .ok a ∧ f a = b := by
  cases x <;> simp [Except.map]

/-- Errors that are put in other words make no difference to a result. -/
theorem Except.mapError_eq_ok_iff {ε ε' α : Type} {x : Except ε α} {f : ε → ε'} {a : α} :
    x.mapError f = .ok a ↔ x = .ok a := by
  cases x <;> simp [Except.mapError]

namespace FeedSieve.Feed

open Calendar (Moment)
open Calendar.MailDate (natural?)
open Lax (Checked Value fieldOf?)

variable {r : Record} {key : Key} {name t : Text} {index : Nat}

-- ============================================================ records

namespace Record

/-- Says what there is to say for a key. -/
def hear (r : Record) (key : Key) (depth : Nat) : Option Text → Record
  | some t => r.say key depth t
  | none => r

/-- Says when something was published, as it is written and in numbers. -/
def hearDate (library : Library) (r : Record) (depth : Nat) : Option Text → Record
  | some t => (r.say .published depth t).publish (library.stampOf? t)
  | none => r

@[simp] theorem word?_empty (key : Key) : empty.word? key = none := rfl

@[simp] theorem author_empty : empty.author = ([], []) := rfl

theorem entry?_say (r : Record) (key other : Key) (depth : Nat) (t : Text) :
    entry? (r.say key depth t) other = if other = key then some (depth, t) else r.entry? other := by
  unfold entry? say
  rw [List.lookup_cons]
  by_cases h : other = key
  · simp [h]
  · rw [beq_eq_false_iff_ne.mpr h, if_neg h]
    induction r.words with
    | nil => rfl
    | cons w words ih =>
        by_cases hw : w.1 = key
        · rw [List.filter_cons_of_neg (by simp [hw]), List.lookup_cons,
            beq_eq_false_iff_ne.mpr (hw ▸ h)]
          exact ih
        · rw [List.filter_cons_of_pos (by simp [hw]), List.lookup_cons, List.lookup_cons]
          cases other == w.1
          · exact ih
          · rfl

@[simp] theorem word?_say (r : Record) (key other : Key) (depth : Nat) (t : Text) :
    (r.say key depth t).word? other = if other = key then some t else r.word? other := by
  unfold word?
  rw [entry?_say]
  split <;> rfl

@[simp] theorem author_say (r : Record) (key : Key) (depth : Nat) (t : Text) :
    (r.say key depth t).author = r.author := rfl

@[simp] theorem tags_say (r : Record) (key : Key) (depth : Nat) (t : Text) :
    (r.say key depth t).tags = r.tags := rfl

@[simp] theorem enclosures_say (r : Record) (key : Key) (depth : Nat) (t : Text) :
    (r.say key depth t).enclosures = r.enclosures := rfl

@[simp] theorem word?_hear (r : Record) (key other : Key) (depth : Nat) (t : Option Text) :
    (r.hear key depth t).word? other = if other = key then t.or (r.word? other)
      else r.word? other := by
  cases t with
  | none => simp [hear]
  | some t =>
      rw [hear, word?_say]
      split <;> rfl

@[simp] theorem author_hear (r : Record) (key : Key) (depth : Nat) (t : Option Text) :
    (r.hear key depth t).author = r.author := by
  cases t <;> rfl

@[simp] theorem tags_hear (r : Record) (key : Key) (depth : Nat) (t : Option Text) :
    (r.hear key depth t).tags = r.tags := by
  cases t <;> rfl

@[simp] theorem enclosures_hear (r : Record) (key : Key) (depth : Nat) (t : Option Text) :
    (r.hear key depth t).enclosures = r.enclosures := by
  cases t <;> rfl

@[simp] theorem publishedStamp_hear (r : Record) (key : Key) (depth : Nat) (t : Option Text) :
    (r.hear key depth t).publishedStamp = r.publishedStamp := by
  cases t <;> rfl

@[simp] theorem updatedStamp_hear (r : Record) (key : Key) (depth : Nat) (t : Option Text) :
    (r.hear key depth t).updatedStamp = r.updatedStamp := by
  cases t <;> rfl

@[simp] theorem word?_update (r : Record) (stamp : Option Stamp) (key : Key) :
    (r.update stamp).word? key = r.word? key := rfl

@[simp] theorem tags_update (r : Record) (stamp : Option Stamp) :
    (r.update stamp).tags = r.tags := rfl

@[simp] theorem word?_hearDate (library : Library) (r : Record) (depth : Nat) (t : Option Text)
    (other : Key) : (r.hearDate library depth t).word? other
      = if other = .published then t.or (r.word? other) else r.word? other := by
  cases t with
  | none => simp [hearDate]
  | some t =>
      have hword : ((r.say .published depth t).publish (library.stampOf? t)).word? other
          = (r.say .published depth t).word? other := rfl
      rw [hearDate, hword, word?_say]
      split <;> rfl

@[simp] theorem tags_hearDate (library : Library) (r : Record) (depth : Nat) (t : Option Text) :
    (r.hearDate library depth t).tags = r.tags := by
  cases t <;> rfl

@[simp] theorem enclosures_hearDate (library : Library) (r : Record) (depth : Nat)
    (t : Option Text) : (r.hearDate library depth t).enclosures = r.enclosures := by
  cases t <;> rfl

@[simp] theorem publishedStamp_hearDate (library : Library) (r : Record) (depth : Nat)
    (t : Option Text) : (r.hearDate library depth t).publishedStamp
      = t.elim r.publishedStamp library.stampOf? := by
  cases t <;> rfl

@[simp] theorem updatedStamp_hearDate (library : Library) (r : Record) (depth : Nat)
    (t : Option Text) : (r.hearDate library depth t).updatedStamp = r.updatedStamp := by
  cases t <;> rfl

/-- What was not said further out is said. -/
theorem sayOver_of_word? {r : Record} {key : Key} (h : r.word? key = none) (depth : Nat)
    (t : Text) : r.sayOver key depth t = r.say key depth t := by
  unfold sayOver
  rw [Option.map_eq_none_iff.mp h]

/-- Nothing is suggested where something has been said. -/
theorem suggest_of_word? {r : Record} {key : Key} (h : (r.word? key).isSome = true) (depth : Nat)
    (t : Text) : r.suggest key depth t = r := by
  unfold suggest
  rw [if_pos h]

end Record

-- ============================================================== fields

/-- A text that is given and not empty. -/
def given (t : Option Text) : Option Text := t.filter (!·.isEmpty)

@[simp] theorem given_none : given none = none := rfl

@[simp] theorem given_nil : given (some []) = none := rfl

@[simp] theorem given_cons (c : Char) (t : Text) : given (some (c :: t)) = some (c :: t) := rfl

theorem given_eq_some_iff {o : Option Text} : given o = some t ↔ o = some t ∧ t ≠ [] := by
  unfold given
  rw [Option.filter_eq_some_iff, Bool.not_eq_true', ← Bool.not_eq_true, List.isEmpty_iff]

/-- Of two fields of one name the latter counts. -/
private theorem fieldOf?_append (a b : Fields) (name : Text) :
    fieldOf? (a ++ b) name = (fieldOf? b name).or (fieldOf? a name) := by
  unfold fieldOf?
  rw [List.reverse_append, List.find?_append]
  cases b.reverse.find? fun f => f.1 == name <;> rfl

private theorem fieldOf?_singleton (key name : Text) (v : Value) :
    fieldOf? [(key, v)] name = if key = name then some v else none := by
  unfold fieldOf?
  by_cases h : key = name <;> simp [h]

/-- The value of a word, as a field of its name and of others. -/
private theorem fieldOf?_field (r : Record) (key : Key) (field name : Text) :
    fieldOf? (r.field field key) name
      = if field = name then (r.word? key).map .text else none := by
  unfold Record.field
  cases r.word? key with
  | none => simp [fieldOf?]
  | some t => simp [fieldOf?_singleton]

/-- The value of a date. -/
private theorem fieldOf?_dateField (r : Record) (key : Key) (field name : Text) :
    fieldOf? (r.dateField field key) name
      = if field = name then (given (r.word? key)).map .text else none := by
  unfold Record.dateField
  cases r.word? key with
  | none => simp [fieldOf?]
  | some t =>
      cases t with
      | nil => simp [fieldOf?]
      | cons c t => simp [fieldOf?_singleton]

/-- The value of a date in numbers. -/
private theorem fieldOf?_stampField (stamp : Option Stamp) (field name : Text) :
    fieldOf? (Record.stampField field stamp) name
      = if field = name then stamp.map fun s => .list (s.numbers.map .int) else none := by
  cases stamp with
  | none => simp [Record.stampField, fieldOf?]
  | some s => simp [Record.stampField, fieldOf?_singleton]

/-- The value of the description. -/
private theorem fieldOf?_descriptionField (r : Record) (name : Text) :
    fieldOf? r.descriptionField name = if "description".toList = name then
      ((r.word? .summary).or (r.word? .subtitle)).map .text else none := by
  unfold Record.descriptionField
  cases r.word? .summary with
  | none => exact fieldOf?_field r .subtitle _ name
  | some t => exact fieldOf?_singleton _ name _

/-- The value of an attribute. -/
private theorem fieldOf?_attributes (attributes : List (Text × Text)) (name : Text) :
    fieldOf? (attributes.map fun a => (a.1, .text a.2)) name
      = (Reader.attribute? attributes name).map .text := by
  unfold fieldOf? Reader.attribute?
  rw [← List.map_reverse]
  induction attributes.reverse with
  | nil => rfl
  | cons a rest ih =>
      rw [List.map_cons, List.find?_cons, List.lookup_cons]
      by_cases h : a.1 = name
      · simp [h]
      · rw [beq_eq_false_iff_ne.mpr h, beq_eq_false_iff_ne.mpr (Ne.symm h)]
        exact ih

-- ============================================================== stamps

/-- The moment that a date in numbers names, if there is one. -/
def Stamp.moment? (s : Stamp) : Option Moment := do
  let year ← natural? s.year.toInt
  let month ← natural? s.month.toInt
  let day ← natural? s.day.toInt
  let hour ← natural? s.hour.toInt
  let minute ← natural? s.minute.toInt
  let second ← natural? s.second.toInt
  let date ← Calendar.Date.ofParts? year month day
  Moment.ofClock? date hour minute second 0 (some 0)

private theorem integers?_map_int (numbers : List Int) :
    integers? (numbers.map .int) = some numbers := by
  induction numbers with
  | nil => rfl
  | cons n numbers ih =>
      rw [List.map_cons, integers?, ih]
      rfl

/-- Reading a date in numbers never breaks off. -/
theorem momentOfNumbers_stamp (s : Stamp) :
    momentOfNumbers (s.numbers.map .int) = .ok s.moment? := by
  have hall : (s.numbers.map Value.int).takeWhile (fun v => (integers? [v]).isSome)
      = s.numbers.map .int := by
    rw [List.takeWhile_eq_self_iff]
    intro v hv
    obtain ⟨n, -, rfl⟩ := List.mem_map.mp hv
    rfl
  have hfit : Calendar.MailDate.fitMachine s.numbers = .ok () := by
    rw [Calendar.MailDate.fitMachine_eq_ok_iff]
    intro n hn
    have hword (x : Int32) : -(Number.shortEnd : Int) ≤ x.toInt ∧ x.toInt < Number.shortEnd :=
      ⟨x.le_toInt, x.toInt_lt⟩
    simp only [Stamp.numbers, List.mem_cons, List.not_mem_nil, or_false] at hn
    rcases hn with rfl | rfl | rfl | rfl | rfl | rfl <;> exact hword _
  have htake : (s.numbers.map Value.int).take 6 = s.numbers.map .int := rfl
  unfold momentOfNumbers Stamp.moment?
  simp only [htake, hall, integers?_map_int, Option.getD_some, hfit]
  simp [Stamp.numbers, bind, Except.bind, pure, Except.pure, Option.bind_assoc]

-- =============================================================== items

/-- The date of an entry as it is written down. -/
def Record.written (r : Record) : Option Text :=
  (given (r.word? .published)).or (given (r.word? .updated))

/-- The moment of an entry that its dates in numbers name. -/
def Record.time (r : Record) : Option Moment :=
  (r.publishedStamp.or r.updatedStamp).bind Stamp.moment?

/-- When an entry was published: what is written down decides, if it means
anything. -/
def Record.moment (r : Record) : Except Break (Option Moment) :=
  match r.written with
  | none => .ok r.time
  | some t => ((timestamp t).mapError .date).map (·.or r.time)

/-- The attributes of the first enclosure. -/
def Record.enclosure (r : Record) : List (Text × Text) := r.enclosures.head?.getD []

/-- The item that the record of an entry comes to. -/
def Record.item (index : Nat) (r : Record) : Except Break Item :=
  r.moment.map fun moment =>
    ⟨index, (r.word? .title).getD [], ((r.word? .summary).or (r.word? .subtitle)).getD [],
      moment.map Moment.inUtcIfNaive, r.written, r.word? .link, r.word? .id,
      (given (Reader.attribute? r.enclosure "href")).or (Reader.attribute? r.enclosure "url"),
      given (Reader.attribute? r.enclosure "type"),
      (Reader.attribute? r.enclosure "length").bind Text.integer?⟩

/-- What an item picks from the record of its entry. -/
private theorem fieldOf?_entryFields (r : Record) :
    fieldOf? r.entryFields "title" = (r.word? .title).map .text
      ∧ fieldOf? r.entryFields "summary" = (r.word? .summary).map .text
      ∧ fieldOf? r.entryFields "description"
        = ((r.word? .summary).or (r.word? .subtitle)).map .text
      ∧ fieldOf? r.entryFields "published" = (given (r.word? .published)).map .text
      ∧ fieldOf? r.entryFields "updated" = (given (r.word? .updated)).map .text
      ∧ fieldOf? r.entryFields "published_parsed"
        = r.publishedStamp.map (fun s => .list (s.numbers.map .int))
      ∧ fieldOf? r.entryFields "updated_parsed"
        = r.updatedStamp.map (fun s => .list (s.numbers.map .int))
      ∧ fieldOf? r.entryFields "link" = (r.word? .link).map .text
      ∧ fieldOf? r.entryFields "id" = (r.word? .id).map .text
      ∧ fieldOf? r.entryFields "enclosures" = some (.list (r.enclosures.map fun attributes =>
          .record (attributes.map fun a => (a.1, .text a.2)))) := by
  unfold Record.entryFields
  simp +decide only [fieldOf?_append, fieldOf?_field, fieldOf?_dateField, fieldOf?_stampField,
    fieldOf?_descriptionField, fieldOf?_singleton, if_true, if_false, Option.none_or,
    Option.or_none, and_self]

/-- Of two texts the first counts if it is not empty. -/
private theorem orElse_text (a b : Option Text) :
    orElse ((a.map Value.text).getD .null) ((b.map Value.text).getD .null)
      = (((given a).or b).map Value.text).getD .null := by
  cases a with
  | none => rfl
  | some t => cases t <;> rfl

private theorem given_given (o : Option Text) : given (given o) = given o := by
  unfold given
  rw [Option.filter_filter]
  simp

/-- A date that is written down is not empty. -/
theorem Record.ne_nil_of_written (h : r.written = some t) : t ≠ [] := by
  rcases Option.or_eq_some_iff.mp h with h | ⟨-, h⟩
  · exact (given_eq_some_iff.mp h).2
  · exact (given_eq_some_iff.mp h).2

/-- The date that is written down is the one that the record keeps. -/
theorem writtenDate_entryFields (r : Record) :
    writtenDate r.entryFields = (r.written.map Value.text).getD .null := by
  obtain ⟨-, -, -, hpublished, hupdated, -⟩ := fieldOf?_entryFields r
  unfold writtenDate valueOf
  rw [hpublished, hupdated, orElse_text, given_given]
  rfl

/-- Of two dates in numbers the first counts that is there. -/
private theorem momentOfValue_stamps (a b : Option Stamp) :
    momentOfValue (orElse ((a.map fun s => Value.list (s.numbers.map .int)).getD .null)
        ((b.map fun s => Value.list (s.numbers.map .int)).getD .null))
      = .ok ((a.or b).bind Stamp.moment?) := by
  cases a with
  | some s => exact momentOfNumbers_stamp s
  | none =>
      cases b with
      | some s => exact momentOfNumbers_stamp s
      | none => rfl

/-- The moment that the date in numbers names is the one that the record
keeps. -/
theorem momentOfValue_parsedDate (r : Record) :
    momentOfValue (parsedDate r.entryFields) = .ok r.time := by
  obtain ⟨-, -, -, -, -, hpublished, hupdated, -⟩ := fieldOf?_entryFields r
  unfold parsedDate valueOf
  rw [hpublished, hupdated, momentOfValue_stamps]
  rfl

private theorem momentOf_entryFields (r : Record) : momentOf r.entryFields = r.moment := by
  unfold momentOf Record.moment
  rw [writtenDate_entryFields, momentOfValue_parsedDate]
  cases h : r.written with
  | none => rfl
  | some t =>
      cases t with
      | nil => exact absurd rfl (Record.ne_nil_of_written h)
      | cons c t =>
          simp only [Option.map_some, Option.getD_some]
          cases timestamp (c :: t) with
          | error what => rfl
          | ok m => cases m <;> rfl

/-- The attributes of the first enclosure, as fields. -/
private theorem enclosure_entryFields (r : Record) :
    ((membersOf (valueOf r.entryFields "enclosures")).head?.map fieldsOf).getD []
      = r.enclosure.map fun a => (a.1, .text a.2) := by
  obtain ⟨-, -, -, -, -, -, -, -, -, henclosures⟩ := fieldOf?_entryFields r
  unfold valueOf Record.enclosure
  rw [henclosures]
  cases r.enclosures <;> rfl

/-- Whatever the record of an entry says can be an item, if its date can be
read. -/
theorem ofEntry_entryFields (r : Record) (index : Nat) :
    Item.ofEntry index r.entryFields = r.item index := by
  obtain ⟨htitle, hsummary, hdescription, -, -, -, -, hlink, hid, -⟩ := fieldOf?_entryFields r
  have hlength : length? (((Reader.attribute? r.enclosure "length").map Value.text).getD .null)
      = some ((Reader.attribute? r.enclosure "length").bind Text.integer?) := by
    cases Reader.attribute? r.enclosure "length" <;> rfl
  have hgiven (t : Text) : orElse (.text t) (.text []) = .text t := by cases t <;> rfl
  have htitles : ((r.word? .title).map Value.text).getD (.text [])
      = .text ((r.word? .title).getD []) := by
    cases r.word? .title <;> rfl
  have hoptional (name : Text) (o : Option Text) :
      (Lax.optional Lax.text ((o.map Value.text).getD .null)).within name = .good o := by
    cases o <;> rfl
  have htype : orElse (((Reader.attribute? r.enclosure "type").map Value.text).getD .null) .null
      = ((given (Reader.attribute? r.enclosure "type")).map Value.text).getD .null :=
    (orElse_text _ none).trans (by rw [Option.or_none])
  unfold Item.ofEntry
  rw [enclosure_entryFields, writtenDate_entryFields, momentOf_entryFields]
  simp only [valueOf, wordOf, htitle, hsummary, hdescription, hlink, hid, fieldOf?_attributes,
    hlength, htitles, htype, orElse_text, hoptional, Record.item]
  cases r.moment with
  | error what => rfl
  | ok m =>
      cases r.word? .summary with
      | some t =>
          simp only [Option.map_some, Option.getD_some, hgiven]
          rfl
      | none =>
          cases r.word? .subtitle with
          | none => rfl
          | some t =>
              simp only [Option.map_none, Option.map_some, Option.getD_none, Option.none_or,
                Option.getD_some, hgiven]
              rfl

-- ============================================================ channels

/-- What a channel picks from the record of its feed. -/
private theorem fieldOf?_channelFields (r : Record) :
    fieldOf? r.channelFields "title" = (r.word? .title).map .text
      ∧ fieldOf? r.channelFields "link" = (r.word? .link).map .text
      ∧ fieldOf? r.channelFields "subtitle" = (r.word? .subtitle).map .text
      ∧ fieldOf? r.channelFields "description"
        = ((r.word? .summary).or (r.word? .subtitle)).map .text
      ∧ fieldOf? r.channelFields "language" = (r.word? .language).map .text
      ∧ fieldOf? r.channelFields "rights" = (r.word? .rights).map .text
      ∧ fieldOf? r.channelFields "author" = (r.word? .author).map .text
      ∧ fieldOf? r.channelFields "published" = (given (r.word? .published)).map .text
      ∧ fieldOf? r.channelFields "tags" = some (.list (r.tags.map fun tag =>
          .record [("term", .text tag.term)])) := by
  unfold Record.channelFields
  simp +decide only [fieldOf?_append, fieldOf?_field, fieldOf?_dateField, fieldOf?_descriptionField,
    fieldOf?_singleton, if_true, if_false, Option.none_or, Option.or_none, and_self]

/-- The categories of a record that have a term. -/
def Record.terms (r : Record) : List Text := (r.tags.map (·.term)).filter (!·.isEmpty)

/-- The channel that the record of a feed comes to, with its items. -/
def Record.channel (r : Record) (items : List Item) : Channel :=
  ⟨(r.word? .title).getD [], (r.word? .link).getD [],
    (given (r.word? .subtitle)).getD (((r.word? .summary).or (r.word? .subtitle)).getD []),
    r.word? .language, r.word? .rights, r.word? .author, given (r.word? .published), r.terms, items⟩

/-- The items that the records of entries come to. -/
def itemsOfRecords (index : Nat) : List Record → Except Break (List Item)
  | [] => .ok []
  | r :: rest => do
      let item ← r.item index
      let items ← itemsOfRecords (index + 1) rest
      return item :: items

/-- The first record and the others are independent of each other. -/
theorem itemsOfRecords_cons {rest : List Record} {item : Item} {items : List Item} :
    itemsOfRecords index (r :: rest) = .ok (item :: items)
      ↔ r.item index = .ok item ∧ itemsOfRecords (index + 1) rest = .ok items := by
  rw [itemsOfRecords]
  cases r.item index with
  | error what => exact ⟨fun h => (by cases h), fun h => (by cases h.1)⟩
  | ok first =>
      cases itemsOfRecords (index + 1) rest with
      | error what => exact ⟨fun h => (by cases h), fun h => (by cases h.2)⟩
      | ok more => simp [bind, Except.bind, pure, Except.pure]

private theorem length_itemsOfRecords {records : List Record} {items : List Item}
    (h : itemsOfRecords index records = .ok items) : items.length = records.length := by
  induction records generalizing index items with
  | nil =>
      obtain rfl := Except.ok.inj h
      rfl
  | cons r rest ih =>
      cases items with
      | nil =>
          rw [itemsOfRecords] at h
          cases hitem : r.item index <;> cases hrest : itemsOfRecords (index + 1) rest <;>
            rw [hitem] at h <;> simp [hrest, bind, Except.bind, pure, Except.pure] at h
      | cons item items =>
          rw [List.length_cons, List.length_cons, ih (itemsOfRecords_cons.mp h).2]

/-- Records come to items one by one. -/
theorem itemsOfRecords_eq_ok_iff {records : List Record} {items : List Item} :
    itemsOfRecords index records = .ok items ↔ items.length = records.length
      ∧ ∀ (i : Nat) (r : Record) (item : Item), records[i]? = some r → items[i]? = some item →
        r.item (index + i) = .ok item := by
  induction records generalizing index items with
  | nil =>
      rw [itemsOfRecords, Except.ok.injEq]
      cases items <;> simp
  | cons r rest ih =>
      cases items with
      | nil =>
          exact ⟨fun h => absurd (length_itemsOfRecords h) (by simp), fun h => absurd h.1 (by simp)⟩
      | cons item items =>
          rw [itemsOfRecords_cons, ih, List.length_cons, List.length_cons, Nat.add_right_cancel_iff]
          constructor
          · rintro ⟨hfirst, hlength, hrest⟩
            refine ⟨hlength, fun i s other hs hother => ?_⟩
            cases i with
            | zero =>
                obtain rfl := Option.some.inj hs
                obtain rfl := Option.some.inj hother
                exact hfirst
            | succ i =>
                rw [← Nat.succ_add_eq_add_succ]
                exact hrest i s other hs hother
          · rintro ⟨hlength, hall⟩
            refine ⟨hall 0 r item rfl rfl, hlength, fun i s other hs hother => ?_⟩
            rw [Nat.succ_add_eq_add_succ]
            exact hall (i + 1) s other hs hother

/-- An item has the number that its record is given. -/
theorem Record.index_item {item : Item} (h : r.item index = .ok item) : item.index = index := by
  unfold Record.item at h
  cases hmoment : r.moment with
  | error what =>
      rw [hmoment] at h
      cases h
  | ok moment =>
      rw [hmoment] at h
      rw [← Except.ok.inj h]

/-- Items are numbered as they come. -/
theorem index_itemsOfRecords {records : List Record} {items : List Item}
    (h : itemsOfRecords index records = .ok items) :
    items.map (·.index) = List.range' index items.length := by
  induction records generalizing index items with
  | nil =>
      obtain rfl := Except.ok.inj h
      rfl
  | cons r rest ih =>
      cases items with
      | nil => rfl
      | cons item items =>
          obtain ⟨hitem, hrest⟩ := itemsOfRecords_cons.mp h
          rw [List.map_cons, List.length_cons, List.range'_succ, Record.index_item hitem, ih hrest]

/-- The items made of the entries of records are those of the records. -/
theorem itemsOf_entryFields (entries : List Record) (index : Nat) :
    itemsOf index (entries.map Record.entryFields) = itemsOfRecords index entries := by
  induction entries generalizing index with
  | nil => rfl
  | cons r rest ih => rw [List.map_cons, itemsOf, itemsOfRecords, ofEntry_entryFields, ih]

/-- The terms that are given are texts. -/
private theorem termsOf_tags (tags : List Tag) :
    termsOf (.list (tags.map fun tag => .record [("term", .text tag.term)]))
      = ((tags.map (·.term)).filter (!·.isEmpty)).map .text := by
  induction tags with
  | nil => rfl
  | cons tag tags ih =>
      unfold termsOf at ih ⊢
      rw [List.map_cons, membersOf, List.map_cons, List.map_cons]
      have hterm : valueOf (fieldsOf (.record [("term", .text tag.term)])) "term"
          = .text tag.term := rfl
      rw [membersOf] at ih
      rw [hterm, List.filter_cons, List.filter_cons, ih]
      cases tag.term <;> rfl

private theorem all_text (texts : List Text) (position : Nat) :
    Checked.all Lax.text position (texts.map .text) = .good texts := by
  induction texts generalizing position with
  | nil => rfl
  | cons t texts ih =>
      rw [List.map_cons, Checked.all, ih]
      rfl

/-- A digest of a feed comes to a channel unless a date breaks it off. -/
theorem channel?_digest (r : Record) (entries : List Record) (source : Text) :
    (Digest.draft ⟨none, true, r, entries⟩).channel? source
      = ((itemsOfRecords 1 entries).map r.channel).mapError .broken := by
  obtain ⟨htitle, hlink, hsubtitle, hdescription, hlanguage, hrights, hauthor, hpublished, htags⟩ :=
    fieldOf?_channelFields r
  have hword (name : Text) (o : Option Text) :
      (Lax.text ((o.map Value.text).getD (.text []))).within name = .good (o.getD []) := by
    cases o <;> rfl
  have hoptional (name : Text) (o : Option Text) :
      (Lax.optional Lax.text ((o.map Value.text).getD .null)).within name = .good o := by
    cases o <;> rfl
  have hgiven (t : Option Text) (u : Text) :
      orElse ((t.map Value.text).getD (.text [])) (.text u) = .text ((given t).getD u) := by
    cases t with
    | none => rfl
    | some t => cases t <;> rfl
  have htexts (t : Option Text) : (t.map Value.text).getD (.text []) = .text (t.getD []) := by
    cases t <;> rfl
  unfold Draft.channel? Digest.draft
  simp only [itemsOf_entryFields]
  cases itemsOfRecords 1 entries with
  | error what => rfl
  | ok items =>
      simp only [valueOf, wordOf, htitle, hlink, hsubtitle, hdescription, hlanguage, hrights,
        hauthor, hpublished, htags, Option.getD_some, termsOf_tags, all_text, hword, hoptional,
        htexts ((r.word? .summary).or (r.word? .subtitle)), hgiven]
      rfl

end FeedSieve.Feed
