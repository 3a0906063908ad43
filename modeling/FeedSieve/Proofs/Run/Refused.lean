/-
Queries that are refused.

A query that is not read is malformed, and then the run ends with the exit
code for queries before anything is done. There is one exception. A run of
more digits than are converted is not looked at as a part of the query at
all: converting it breaks off, and the run ends as if something unforeseen
had happened (`not_read_of_long`). Such a run must stand in the query, so
queries without one are read or malformed.
-/
import FeedSieve.Proofs.Query.Complete
import FeedSieve.Proofs.Run.Stages

namespace FeedSieve.Run

open Query (read)
open Text (isBlank isDigit)

variable {digits : Text}

/-- A numeral of too many digits is not converted. -/
private theorem numeral_of_long (hlong : 4300 < digits.length) :
    Query.numeral digits = .error (.tooLong digits.length) := by
  have hmax : Text.maxDigits = 4300 := rfl
  unfold Query.numeral
  rw [if_pos (by omega)]

/-- A run of too many digits, asked for as a number or as how many of the
most recent items are wanted, breaks reading off. -/
theorem not_read_of_long (hdigits : ∀ c ∈ digits, isDigit c = true)
    (hlong : 4300 < digits.length) :
    read (Query.Kind.number.name ++ ':' :: digits) = .error (.tooLong digits.length)
      ∧ read (Query.Kind.latest.name ++ ':' :: digits) = .error (.tooLong digits.length) := by
  have hne : digits ≠ [] := List.ne_nil_of_length_pos (by omega)
  have hfirm := Query.firm_of_digits hne hdigits
  have hplain : Query.Plain digits := ⟨hfirm, fun c hc => Or.inl (hdigits c hc)⟩
  have hself (kind : Query.Kind) : Query.Spaced kind.name kind.name :=
    ⟨[], [], by simp, by simp, by simp⟩
  constructor
  · obtain ⟨rest, hrest, hread⟩ := Query.read_colon .number (hself .number) digits
    have hparts : Query.Parts digits [digits] := by
      refine .one hfirm (fun h => ?_) (fun h => ?_)
      · exact hplain.notMem (by decide) (by decide) (by decide) (List.mem_of_mem_head? h)
      · exact hplain.notMem (by decide) (by decide) (by decide) (List.mem_of_getLast? h)
    have helements : Query.elementsOf .number rest = .ok [digits] :=
      Query.elementsOf_eq_ok hparts (hrest.trans hfirm.strip)
    have hbracketed := Query.bracketed_eq_ok (Query.bracketed_bare hplain) .numberRange
    have helement : Query.numberElement digits = .error (.tooLong digits.length) := by
      unfold Query.numberElement
      rw [hbracketed]
      simp only [bind, Except.bind]
      rw [if_neg, numeral_of_long hlong]
      · rfl
      · simp only [Bool.or_eq_true, Bool.not_eq_true', List.isEmpty_iff, not_or,
          Bool.not_eq_false, List.all_eq_true]
        exact ⟨hne, hdigits⟩
    rw [hread, Query.behindColon, helements]
    simp only [bind, Except.bind]
    rw [List.mapM_cons, helement]
    rfl
  · obtain ⟨rest, hrest, hread⟩ := Query.read_colon .latest (hself .latest) digits
    have htrim : Text.trim rest = digits := hrest.trans hfirm.strip
    rw [hread, Query.behindColon, Query.latestClause, htrim, if_neg (by simpa using hne),
      if_neg (by simpa using hdigits), numeral_of_long hlong]
    rfl

/-- A query is read, or it is malformed, or a run of too many digits in it
cannot be converted, which any such run brings about that is asked for. An
invocation whose settings and options are fine ends with exit code 3 if its
query is malformed, before it has done anything. -/
theorem refused_query (q : Text) :
    ((∃ p, read q = .ok p) ∨ (∃ m, read q = .error (.malformed m))
      ∨ ∃ run, run <:+: q ∧ (∀ c ∈ run, isDigit c = true) ∧ 4300 < run.length
          ∧ read q = .error (.tooLong run.length))
    ∧ (∀ run, q = Query.Kind.number.name ++ ':' :: run ∨ q = Query.Kind.latest.name ++ ':' :: run →
        (∀ c ∈ run, isDigit c = true) → 4300 < run.length → read q = .error (.tooLong run.length))
    ∧ ∀ (i : Invocation) s c, i.Ready s c → i.shared.query = q →
        (∀ m, read q = .error (.malformed m) → i.exit.2.code = 3
          ∧ i.exit.1 = i.world ∧ (i.progress 0).error? = some m.message)
        ∧ ∀ n, read q = .error (.tooLong n) → i.exit.2.code = 1 := by
  refine ⟨?_, fun run hasked hdigits hlong => ?_, fun i s c hready hquery => ?_⟩
  · have hjudged := Query.judged_read q
    generalize read q = result at hjudged
    cases hjudged with
    | read h => exact Or.inl ⟨_, rfl⟩
    | fragment h => exact Or.inr (Or.inl ⟨_, rfl⟩)
    | absent kind => exact Or.inr (Or.inl ⟨_, rfl⟩)
    | tooLong h hdigits hlong => exact Or.inr (Or.inr ⟨_, h, hdigits, hlong, rfl⟩)
  · obtain ⟨hnumber, hlatest⟩ := not_read_of_long hdigits hlong
    rcases hasked with rfl | rfl
    · exact hnumber
    · exact hlatest
  · rw [← hquery, ← hready.mode_eq.2]
    constructor
    · intro m hm
      have hfails : i.Fails .query (.query (.malformed m)) := .query hready hm
      refine ⟨hfails.code_eq, hfails.world_eq.1 (by decide), ?_⟩
      rw [(hfails.progress_eq 0).2.1 rfl]
      rfl
    · intro n hn
      exact (Invocation.Fails.query hready hn).code_eq

/-- A range that is not in order ends a run with 3. -/
theorem refused_query_unordered :
    ∃ i : Invocation, i.shared.query = "number:[3-1]".toList ∧ i.exit.2.code = 3 := by
  let i := Invocation.listingOf "http://x/" "number:[3-1]" (Invocation.webOnly "http://x/" [])
  have hready : i.Ready .default
      ⟨.check, some "http://x/", none, .ofText "out", i.shared.query, 1, none⟩ := ⟨rfl, rfl⟩
  obtain ⟨-, -, hexits⟩ := refused_query "number:[3-1]"
  exact ⟨i, rfl, ((hexits i _ _ hready rfl).1 ⟨"[3-1]", .orderedNumbers 3 1⟩ rfl).1⟩

/-- Ones without end are refused without being malformed, and end a run
with 1. -/
theorem ones_not_malformed :
    ∃ i : Invocation, i.shared.query = Query.Kind.number.name ++ ':' :: List.replicate 4301 '1'
      ∧ (¬ ∃ p, read i.shared.query = .ok p)
      ∧ (¬ ∃ m, read i.shared.query = .error (.malformed m))
      ∧ i.exit.2.code = 1 := by
  let ones : Text := List.replicate 4301 '1'
  let i := Invocation.listingOf "http://x/" (Query.Kind.number.name ++ ':' :: ones)
    (Invocation.webOnly "http://x/" [])
  have hready : i.Ready .default
      ⟨.check, some "http://x/", none, .ofText "out", i.shared.query, 1, none⟩ := ⟨rfl, rfl⟩
  have hones : ∀ c ∈ ones, isDigit c = true := by
    intro c hc
    rw [List.eq_of_mem_replicate hc]
    decide
  have hread : read i.shared.query = .error (.tooLong ones.length) :=
    (not_read_of_long hones (by rw [List.length_replicate]; omega)).1
  refine ⟨i, rfl, ?_, ?_, (Invocation.Fails.query hready hread).code_eq⟩
  · rintro ⟨p, hp⟩
    rw [hp] at hread
    cases hread
  · rintro ⟨m, hm⟩
    rw [hm] at hread
    cases hread

end FeedSieve.Run
