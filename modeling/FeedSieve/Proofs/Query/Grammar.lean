/-
The grammar of queries.

Which texts are queries, and what each of them says, without a word about
how they are read.

    query    nothing | notexists | latest | latest : digits | kind : body
    body     element | { element , … , element }
    element  member | [ member - member ] | [ member : member ] | phrase

White space is free around every token. A member is a run of digits or a
day; only runs of digits take the hyphen between the ends of a range, since
days have hyphens of their own. A phrase is anything, as long as it cannot
be taken for a set and, within a set, does not end the element it is in.

A derivation ends in a `Clause`, which still lists elements in the order in
which they are written. `Means` says which predicate a clause stands for:
it names the order and the members of each set, so it says nothing about
sorting, joining and dropping either.
-/
import FeedSieve.Proofs.Text.Parts
import FeedSieve.Proofs.Query.Sets

namespace FeedSieve.Query

open Calendar (Date)
open Ordered (Increasing)
open Text (Firm Padded isBlank isDigit isPlainDigit)

-- ============================================================ tokens

/-- `t` is `s` with white space around it. -/
def Spaced (s t : Text) : Prop := Padded isBlank s t

/-- A run of digits and the number that it spells. -/
structure DigitRun (t : Text) (n : Nat) : Prop where
  inhabited : t ≠ []
  digits : ∀ c ∈ t, isDigit c = true
  value : Text.digitsValue t = n

/-- The day of the month in the text of a day: one plain digit, a digit
behind a space, or two digits. -/
inductive DayOfMonth : Text → Nat → Prop where
  | plain {c : Char} {n : Nat} (hplain : isPlainDigit c = true)
      (h : Text.digit? c = some n) : DayOfMonth [c] n
  | spaced {c : Char} {n : Nat} (h : Text.digit? c = some n) :
      DayOfMonth [' ', c] n
  | two {c d : Char} {n : Nat} (h : DigitRun [c, d] n) : DayOfMonth [c, d] n

/-- The text of a day: a year of up to four digits, a month of up to two
and a day of the month that exist, with hyphens between them. -/
inductive DayText : Text → Date → Prop where
  | intro {y m d : Text} {year month day : Nat} {date : Date}
      (hyear : DigitRun y year) (hyear_length : y.length ≤ 4)
      (hmonth : DigitRun m month) (hmonth_length : m.length ≤ 2)
      (hday : DayOfMonth d day)
      (hdate : Date.ofParts? year month day = some date) :
      DayText (y ++ '-' :: (m ++ '-' :: d)) date

/-- A phrase that stands alone. -/
inductive LonePhrase : Text → Text → Prop where
  | intro {t : Text} (hfirm : Firm isBlank t) (hopen : t.head? ≠ some '{')
      (hclose : t.getLast? ≠ some '}') : LonePhrase t t

/-- A phrase within a set. -/
inductive SetPhrase : Text → Text → Prop where
  | intro {t : Text} (hfirm : Firm isBlank t) (hopen : '{' ∉ t)
      (hclose : '}' ∉ t) (hcomma : ',' ∉ t) : SetPhrase t t

-- ========================================================== elements

/-- What the two ends of a range describe, in the order whose test is `lt`:
ends that are the same describe a single member. -/
inductive Ends {α : Type} (lt : α → α → Bool) : α → α → Element α → Prop where
  | same {x : α} : Ends lt x x (.single x)
  | below {lo hi : α} (h : lt lo hi = true) : Ends lt lo hi (.range ⟨lo, hi⟩)

/-- An element: a member, or a range between two members. -/
inductive ElementText {α : Type} (member : Text → α → Prop)
    (delimits : Char → Prop) (lt : α → α → Bool) : Text → Element α → Prop where
  | single {t : Text} {x : α} (h : member t x) :
      ElementText member delimits lt t (.single x)
  | range {lower upper l u : Text} {lo hi : α} {delimiter : Char}
      {e : Element α} (hlo : member l lo) (hhi : member u hi)
      (hlower : Spaced l lower) (hupper : Spaced u upper)
      (hdelimiter : delimits delimiter) (hends : Ends lt lo hi e) :
      ElementText member delimits lt
        ('[' :: (lower ++ delimiter :: upper) ++ [']']) e

/-- A number, or a range of numbers. -/
abbrev NumberText : Text → Element Nat → Prop :=
  ElementText DigitRun (fun c => c = '-' ∨ c = ':') (fun a b => decide (a < b))

/-- A day, or a range of days. -/
abbrev DateText : Text → Element Date → Prop :=
  ElementText DayText (· = ':') Date.before

/-- Elements with commas between them, one at least. -/
inductive Listed {α : Type} (element : Text → α → Prop) :
    Text → List α → Prop where
  | last {s t : Text} {x : α} (h : element s x) (hspaced : Spaced s t) :
      Listed element t [x]
  | more {s t rest : Text} {x : α} {xs : List α} (h : element s x)
      (hspaced : Spaced s t) (hrest : Listed element rest xs) :
      Listed element (t ++ ',' :: rest) (x :: xs)

/-- The body of a clause: one element, or a set of elements. -/
inductive Body {α : Type} (lone element : Text → α → Prop) :
    Text → List α → Prop where
  | one {t : Text} {x : α} (h : lone t x) : Body lone element t [x]
  | set {inner : Text} {xs : List α} (h : Listed element inner xs) :
      Body lone element ('{' :: inner ++ ['}']) xs

-- =========================================================== queries

/-- What a query says, elements as they are written. -/
inductive Clause where
  | all
  | notexists
  | latest (n : Nat)
  | number (elements : List (Element Nat))
  | title (phrases : List Text)
  | description (phrases : List Text)
  | date (elements : List (Element Date))

/-- The text is a query that says this. -/
inductive Derives : Text → Clause → Prop where
  | all {q : Text} (h : Spaced [] q) : Derives q .all
  | notexists {q : Text} (h : Spaced "notexists" q) : Derives q .notexists
  | latest {q : Text} (h : Spaced "latest" q) : Derives q (.latest 1)
  | latestOf {kind count digits : Text} {n : Nat} (hkind : Spaced "latest" kind)
      (hcount : Spaced digits count) (hdigits : DigitRun digits n)
      (hpos : 1 ≤ n) : Derives (kind ++ ':' :: count) (.latest n)
  | number {kind body t : Text} {elements : List (Element Nat)}
      (hkind : Spaced "number" kind) (hbody : Spaced t body)
      (h : Body NumberText NumberText t elements) :
      Derives (kind ++ ':' :: body) (.number elements)
  | title {kind body t : Text} {phrases : List Text}
      (hkind : Spaced "title" kind) (hbody : Spaced t body)
      (h : Body LonePhrase SetPhrase t phrases) :
      Derives (kind ++ ':' :: body) (.title phrases)
  | description {kind body t : Text} {phrases : List Text}
      (hkind : Spaced "description" kind) (hbody : Spaced t body)
      (h : Body LonePhrase SetPhrase t phrases) :
      Derives (kind ++ ':' :: body) (.description phrases)
  | date {kind body t : Text} {elements : List (Element Date)}
      (hkind : Spaced "date" kind) (hbody : Spaced t body)
      (h : Body DateText DateText t elements) :
      Derives (kind ++ ':' :: body) (.date elements)

/-- The predicate that a clause stands for. -/
inductive Means : Clause → Predicate → Prop where
  | all : Means .all .all
  | notexists : Means .notexists .notexists
  | latest {n : Nat} : Means (.latest n) (.latest n)
  | number {elements : List (Element Nat)} {set : NumberSet}
      (h : set.Lists elements) : Means (.number elements) (.number set)
  | title {phrases keywords : List Text}
      (horder : Increasing Text.before keywords)
      (hmem : ∀ w, w ∈ keywords ↔ w ∈ phrases) :
      Means (.title phrases) (.title keywords)
  | description {phrases keywords : List Text}
      (horder : Increasing Text.before keywords)
      (hmem : ∀ w, w ∈ keywords ↔ w ∈ phrases) :
      Means (.description phrases) (.description keywords)
  | date {elements : List (Element Date)} {set : DateSet}
      (h : set.Lists elements) : Means (.date elements) (.date set)

/-- Ends that describe a range are in order. -/
theorem Ends.lt_of_range {α : Type} {lt : α → α → Bool} {lo hi : α} {r : Span α}
    (h : Ends lt lo hi (.range r)) : lt r.lo r.hi = true := by
  cases h with
  | below h => exact h

/-- The ranges among elements of a body have their ends in order. -/
theorem Body.proper {α : Type} {member : Text → α → Prop}
    {delimits : Char → Prop} {lt : α → α → Bool} {t : Text}
    {elements : List (Element α)}
    (h : Body (ElementText member delimits lt) (ElementText member delimits lt)
      t elements) : Proper lt elements := by
  have helement {s : Text} {r : Span α}
      (hs : ElementText member delimits lt s (.range r)) : lt r.lo r.hi = true := by
    cases hs with
    | range hlo hhi hlower hupper hdelimiter hends => exact hends.lt_of_range
  cases h with
  | one h =>
      intro r hr
      rw [← List.mem_singleton.mp hr] at h
      exact helement h
  | set h =>
      induction h with
      | last h hspaced =>
          intro r hr
          rw [← List.mem_singleton.mp hr] at h
          exact helement h
      | more h hspaced hrest ih =>
          intro r hr
          rcases List.mem_cons.mp hr with hr | hr
          · rw [← hr] at h
            exact helement h
          · exact ih r hr

/-- No run of digits is longer than can be converted. -/
def ShortRuns (q : Text) : Prop :=
  ∀ run, run <:+: q → (∀ c ∈ run, isDigit c = true) → run.length ≤ 4300

end FeedSieve.Query
