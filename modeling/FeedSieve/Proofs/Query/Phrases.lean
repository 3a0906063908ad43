/-
What queries for phrases select.

Phrases are written in a set, between braces and with commas between them, or
one of them alone, and white space is free around all of it. In whatever way
they are written the query that is read asks for the trimmed phrases, in
order and each once (`elementsOf_phrases`).

An item is selected if one of the phrases occurs in its text when both are
folded. Folding goes character by character and may make texts longer, so
what occurs is a piece of the folded text that need not be the folded form of
a piece. Which of the phrases it is, and how often it was written, makes no
difference (`filter_containsAny`), so what is selected can be said of the
phrases as they were written (`phrases_select`).
-/
import FeedSieve.Proofs.Query.Complete
import FeedSieve.Proofs.Query.Stable

namespace FeedSieve.Query

open Feed (Item)
open Ordered (Increasing)
open Text (Firm Padded isBlank)

variable {phrases keywords : List Text} {p t q : Text} {kind : Kind}

-- ============================================================ writing

/-- A phrase that can be written in a set: more than white space, and without
the marks of a set. -/
structure Writable (p : Text) : Prop where
  inhabited : Text.trim p ≠ []
  opening : '{' ∉ p
  closing : '}' ∉ p
  comma : ',' ∉ p

/-- The body of a clause for phrases: a set of them, or the only one alone. -/
inductive Writes : List Text → Text → Prop where
  | set {phrases : List Text} (hne : phrases ≠ []) :
      Writes phrases ('{' :: Text.joinWith "," phrases ++ ['}'])
  | alone {p : Text} : Writes [p] p

/-- A query for phrases: the word for its kind, a colon and a body, each with
white space around it. -/
def AsksFor (kind : Kind) (phrases : List Text) (q : Text) : Prop :=
  ∃ start t body, Spaced kind.name start ∧ Writes phrases t ∧ Spaced t body
    ∧ q = start ++ ':' :: body

-- ============================================================ reading

/-- Without the white space at its ends a phrase is one of a set. -/
theorem Writable.setPhrase (h : Writable p) : SetPhrase (Text.trim p) (Text.trim p) := by
  have hpart := (Text.padded_strip isBlank p).part
  exact .intro (Text.firm_strip h.inhabited) (fun hc => h.opening (hpart.subset hc))
    (fun hc => h.closing (hpart.subset hc)) (fun hc => h.comma (hpart.subset hc))

/-- It can stand alone as well. -/
theorem Writable.lonePhrase (h : Writable p) : LonePhrase (Text.trim p) (Text.trim p) := by
  obtain ⟨hfirm, hopen, hclose⟩ := h.setPhrase.tame.lone
  exact .intro hfirm hopen hclose

/-- Phrases with commas between them are listed. -/
theorem listed_joinWith (hne : phrases ≠ []) (h : ∀ p ∈ phrases, Writable p) :
    Listed SetPhrase (Text.joinWith "," phrases) (phrases.map Text.trim) := by
  induction phrases with
  | nil => exact absurd rfl hne
  | cons first rest ih =>
      have hfirst := (h first List.mem_cons_self).setPhrase
      have hspaced : Spaced (Text.trim first) first := Text.padded_strip isBlank first
      cases rest with
      | nil => exact .last hfirst hspaced
      | cons second rest =>
          have hrest := ih (List.cons_ne_nil _ _) fun p hp => h p (List.mem_cons_of_mem _ hp)
          have htext : Text.joinWith "," (first :: second :: rest)
              = first ++ ',' :: Text.joinWith "," (second :: rest) := by
            rw [Text.joinWith, List.append_assoc]
            rfl
          rw [htext]
          exact .more hfirst hspaced hrest

/-- A body for phrases is one of the grammar, with perhaps white space around
it, and says the trimmed phrases. -/
theorem Writes.body (h : Writes phrases t) (hphrases : ∀ p ∈ phrases, Writable p) :
    ∃ core, Body LonePhrase SetPhrase core (phrases.map Text.trim) ∧ Spaced core t := by
  cases h with
  | set hne => exact ⟨_, .set (listed_joinWith hne hphrases), [], [], by simp⟩
  | alone =>
      exact ⟨_, .one (hphrases t List.mem_cons_self).lonePhrase, Text.padded_strip isBlank t⟩

/-- A query for phrases is read by its kind, and its elements are the trimmed
phrases. -/
theorem elementsOf_phrases (h : AsksFor kind phrases q) (hphrases : ∀ p ∈ phrases, Writable p) :
    ∃ rest, read q = behindColon (Text.trim q) rest kind
      ∧ elementsOf kind rest = .ok (phrases.map Text.trim) := by
  obtain ⟨start, t, body, hstart, hwrites, hbody, rfl⟩ := h
  obtain ⟨core, hcore, hspaced⟩ := hwrites.body hphrases
  obtain ⟨rest, hrest, hread⟩ := read_colon kind hstart body
  exact ⟨rest, hread, phrases_eq_ok hcore (hspaced.trans hbody) hrest⟩

-- ========================================================== selecting

/-- A text contains one of some phrases if one of them, folded, is a piece of
the folded text. -/
theorem containsAny_iff {text : Text} :
    containsAny text keywords = true ↔ ∃ w ∈ keywords, Text.fold w <:+: Text.fold text := by
  unfold containsAny
  rw [List.any_eq_true]
  simp only [Text.occursIn_iff]

/-- Where the keywords are the trimmed phrases, those can be looked for. -/
theorem filter_containsAny (hkeywords : ∀ w, w ∈ keywords ↔ w ∈ phrases.map Text.trim)
    (field : Item → Text) (items : List Item) :
    items.filter (fun item => containsAny (field item) keywords)
      = items.filter fun item =>
          decide (∃ p ∈ phrases, Text.fold (Text.trim p) <:+: Text.fold (field item)) := by
  refine List.filter_congr fun item _ => ?_
  rw [Bool.eq_iff_iff, containsAny_iff, decide_eq_true_eq]
  simp only [hkeywords, List.mem_map, exists_exists_and_eq_and]

/-- Queries of a kind for some phrases are read as asking for the trimmed
phrases, in order and each once, and select of every feed the items in whose
field one of the phrases occurs, whatever its case, in the order of the feed. -/
def Finds (kind : Kind) (ask : List Text → Predicate) (field : Item → Text)
    (phrases : List Text) : Prop :=
  ∀ q, AsksFor kind phrases q → ∃ keywords, read q = .ok (ask keywords)
    ∧ Increasing Text.before keywords
    ∧ (∀ w, w ∈ keywords ↔ w ∈ phrases.map Text.trim)
    ∧ ∀ names items, select names (ask keywords) items
      = .ok (items.filter fun item =>
          decide (∃ p ∈ phrases, Text.fold (Text.trim p) <:+: Text.fold (field item)))

/-- They do if the kind is read as asking for its elements, and what is asked
is whether the field contains one of them. -/
theorem finds_of_filter {ask : List Text → Predicate} {field : Item → Text}
    (hphrases : ∀ p ∈ phrases, Writable p)
    (hread : ∀ text rest elements, elementsOf kind rest = .ok elements →
      behindColon text rest kind = .ok (ask (keywordSet elements)))
    (hselect : ∀ names keywords items, select names (ask keywords) items
      = .ok (items.filter fun item => containsAny (field item) keywords)) :
    Finds kind ask field phrases := by
  intro q hq
  obtain ⟨rest, hbehind, helements⟩ := elementsOf_phrases hq hphrases
  obtain ⟨hincreasing, hmem⟩ := keywordSet_eq_iff.mp (Eq.refl (keywordSet (phrases.map Text.trim)))
  refine ⟨_, hbehind.trans (hread _ _ _ helements), hincreasing, hmem, fun names items => ?_⟩
  rw [hselect, filter_containsAny hmem]

/-- Queries for titles and for descriptions find the items that they ask for:
those in whose title, or description, one of the phrases occurs. -/
theorem phrases_select (phrases : List Text) (hphrases : ∀ p ∈ phrases, Writable p) :
    Finds .title .title (·.title) phrases
      ∧ Finds .description .description (·.description) phrases := by
  constructor
  · refine finds_of_filter hphrases (fun text rest elements h => ?_) fun names keywords items => ?_
    · rw [behindColon, h]
      rfl
    · exact (select_eq_ok_iff (by simp)).mpr ⟨by simp [Tellable], rfl⟩
  · refine finds_of_filter hphrases (fun text rest elements h => ?_) fun names keywords items => ?_
    · rw [behindColon, h]
      rfl
    · exact (select_eq_ok_iff (by simp)).mpr ⟨by simp [Tellable], rfl⟩

/-- A phrase with a letter that is folded to two, written twice in a set, finds
the title in capitals. -/
theorem phrases_select_sharp_s :
    ∃ (phrases : List Text) (q : Text) (items : List Item),
      (∀ p ∈ phrases, Writable p) ∧ AsksFor .title phrases q
      ∧ q = " title : \x7b straße , Käse,straße\x7d"
      ∧ read q = .ok (.title ["Käse", "straße"])
      ∧ items.map (·.title) = ["KASE".toList, "AM STRASSENRAND".toList]
      ∧ select none (.title ["Käse", "straße"]) items = .ok (items.drop 1) := by
  let phrases : List Text := [" straße ", " Käse", "straße"]
  let q : Text := " title : \x7b straße , Käse,straße\x7d"
  let item (index : Nat) (title : Text) : Item :=
    ⟨index, title, [], none, none, none, none, none, none, none⟩
  let items := [item 1 "KASE", item 2 "AM STRASSENRAND"]
  have hphrases : ∀ p ∈ phrases, Writable p := by
    intro p hp
    have hall : ∀ p ∈ phrases, Text.trim p ≠ [] ∧ '{' ∉ p ∧ '}' ∉ p ∧ ',' ∉ p := by decide
    obtain ⟨hinhabited, hopening, hclosing, hcomma⟩ := hall p hp
    exact ⟨hinhabited, hopening, hclosing, hcomma⟩
  have hasks : AsksFor .title phrases q := by
    have hspace : ∀ c ∈ " ".toList, isBlank c = true :=
      List.forall_mem_singleton.mpr (by decide)
    refine ⟨" title ", _, " \x7b straße , Käse,straße\x7d", ⟨" ", " ", hspace, hspace, rfl⟩,
      .set (by simp [phrases]), ⟨" ", [], hspace, List.forall_mem_nil _, rfl⟩, rfl⟩
  obtain ⟨keywords, hread, -, -, hselect⟩ := (phrases_select phrases hphrases).1 q hasks
  have hkeywords : read q = .ok (.title ["Käse", "straße"]) := by decide +kernel
  obtain rfl : keywords = ["Käse".toList, "straße".toList] := by
    rw [hkeywords] at hread
    exact (Predicate.title.inj (Except.ok.inj hread)).symm
  refine ⟨phrases, q, items, hphrases, hasks, rfl, hkeywords, rfl, ?_⟩
  rw [hselect none items]
  decide +kernel

end FeedSieve.Query
