/-
Predicates given as data.

A predicate may also be given as a record, its kind first and then the sets
or phrases that go with it. Nothing is brought into order: the sets are
taken as they stand.
-/
import FeedSieve.Lax.Read
import FeedSieve.Query.Predicate

namespace FeedSieve.Query

open Lax (Checked Value)

/-- Reads a range: its two ends and nothing else. -/
def checkSpan {α : Type} (read : Value → Checked α) : Value → Checked (Span α)
  | .list ends =>
      let part (i : Nat) : Checked α :=
        match ends[i]? with
        | some v => (read v).within (Text.ofNat i)
        | none => (Checked.flawed .missing).within (Text.ofNat i)
      if 2 < ends.length then .flawed (.tooLong 2 ends.length)
      else (fun lo hi => ⟨lo, hi⟩) <$> part 0 <*> part 1
  | _ => .flawed .tupleType

/-- Reads the phrases to look for: at least one, and all of them texts. -/
def checkKeywords (v : Value) : Checked (List Text) :=
  let size := match v with
    | .list vs => vs.countP fun v => match v with
        | .text _ => true
        | _ => false
    | _ => 1
  let short : List Lax.Fault := if size = 0 then [⟨[], .tooShort 1 0⟩] else []
  match Lax.members .tupleType Lax.text v with
  | .good keywords => if short.isEmpty then .good keywords else .bad short
  | .bad faults => .bad (faults ++ short)

/-- Reads the predicate of a kind; `none` if there is no such kind. -/
def check? (kind : Text) (fields : List (Text × Value)) : Option (Checked Predicate) :=
  let part {α : Type} (name : Text) (absent : Checked α) (read : Value → Checked α) :=
    Lax.field fields name absent read
  let spans {α : Type} (read : Value → Checked α) :=
    part "ranges" (.good []) (Lax.members .tupleType (checkSpan read))
  let keywords := part "keywords" (.flawed .missing) checkKeywords
  match String.ofList kind with
  | "all" => some (.good .all)
  | "number" => some <|
      (fun ranges scalars => .number ⟨ranges, scalars⟩) <$> spans Lax.int <*>
        part "scalars" (.good []) (Lax.members .tupleType Lax.int)
  | "title" => some (.title <$> keywords)
  | "description" => some (.description <$> keywords)
  | "date" => some <|
      (fun ranges dates => .date ⟨ranges, dates⟩) <$> spans Lax.date <*>
        part "dates" (.good []) (Lax.members .tupleType Lax.date)
  | "notexists" => some (.good .notexists)
  | "latest" => some (.latest <$> part "n" (.good 1) (Lax.natFrom 1))
  | _ => none

end FeedSieve.Query
