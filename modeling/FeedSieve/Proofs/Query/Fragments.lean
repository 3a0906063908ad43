/-
What is reported of a malformed query stands in it.

A fragment is a part of the query, trimmed or cut out of it, wherever there is
a part to blame (`judged_read`). A body that is missing is none, so its clause
is reported instead, as the name of its kind and a colon. That is what stands
in the query if the colon follows the name at once. If there is white space
between the two, it is not, and nothing else in the query looks like it either
(`Detached.not_infix`): the query has only one colon, and a blank stands before
it.
-/
import FeedSieve.Proofs.Query.Complete

namespace FeedSieve.Query

open Text (isBlank)

variable {q : Text} {kind : Kind} {m : Malformed}

-- ====================================================== missing bodies

/-- A clause without a body, with white space between the name of its kind and
the colon. -/
structure Detached (q : Text) (kind : Kind) : Prop where
  takes_body : kind ≠ .notexists ∧ kind ≠ .latest
  clause : ∃ before gap body, q = before ++ kind.name ++ gap ++ ':' :: body ∧ gap ≠ []
    ∧ ∀ c ∈ before ++ gap ++ body, isBlank c = true

/-- A clause without a body has the colon behind the name, or detached from
it. -/
theorem Bodiless.detached_or (h : Bodiless q kind) :
    Detached q kind ∨ kind.name ++ [':'] <:+: q := by
  obtain ⟨start, body, rfl, ⟨before, gap, hbefore, hgap, rfl⟩, hbody⟩ := h.clause
  cases gap with
  | nil => exact .inr ⟨before, body, by simp⟩
  | cons c gap =>
      refine .inl ⟨h.takes_body, before, c :: gap, body, rfl, List.cons_ne_nil c gap, ?_⟩
      intro d hd
      simp only [List.mem_append] at hd
      rcases hd with (hd | hd) | hd
      · exact hbefore d hd
      · exact hgap d hd
      · exact hbody d hd

theorem Detached.bodiless (h : Detached q kind) : Bodiless q kind := by
  obtain ⟨before, gap, body, rfl, -, hblank⟩ := h.clause
  simp only [List.forall_mem_append] at hblank
  obtain ⟨⟨hbefore, hgap⟩, hbody⟩ := hblank
  exact ⟨h.takes_body, _, body, rfl, ⟨before, gap, hbefore, hgap, rfl⟩, hbody⟩

/-- The name of the kind and a colon behind it do not stand there then. -/
theorem Detached.not_infix (h : Detached q kind) : ¬ kind.name ++ [':'] <:+: q := by
  obtain ⟨before, gap, body, rfl, hgap, hblank⟩ := h.clause
  simp only [List.forall_mem_append] at hblank
  obtain ⟨⟨hbefore, hblanks⟩, hbody⟩ := hblank
  obtain ⟨hfirm, hcolon⟩ := kind_name_firm kind
  have hstart : ':' ∉ before ++ kind.name ++ gap :=
    notMem_of_spaced ⟨before, gap, hbefore, hblanks, rfl⟩ hcolon (by decide)
  have hend : ':' ∉ body := fun hmem => absurd (hbody _ hmem) (by decide)
  rintro ⟨a, b, hq⟩
  have hcolons : before ++ kind.name ++ gap ++ ':' :: body = (a ++ kind.name) ++ ':' :: b := by
    rw [← hq]
    simp
  -- there is one colon only, so what stands before it is the same
  obtain ⟨hsame, -, -⟩ := (List.append_cons_inj_of_notMem hstart hend).mp hcolons
  have hlast := congrArg List.getLast? hsame
  rw [List.getLast?_append_of_ne_nil _ hgap, List.getLast?_append_of_ne_nil _ hfirm.inhabited,
    List.getLast?_eq_some_getLast hgap] at hlast
  have hname := hfirm.last _ hlast.symm
  rw [hblanks _ (List.getLast_mem hgap)] at hname
  cases hname

/-- A clause without a body is reported by its kind. -/
theorem Bodiless.read_eq (h : Bodiless q kind) :
    read q = refuse (kind.name ++ [':']) (.value kind) := by
  obtain ⟨start, body, rfl, hstart, hbody⟩ := h.clause
  obtain ⟨rest, hrest, hread⟩ := read_colon kind hstart body
  have hempty : Text.trim rest = [] := hrest.trans (Text.strip_eq_nil_iff.mpr hbody)
  have helements (k : Kind) : elementsOf k rest = refuse (k.name ++ [':']) (.value k) := by
    rw [elementsOf, hempty]
  rw [hread]
  cases kind with
  | notexists => exact absurd rfl h.takes_body.1
  | latest => exact absurd rfl h.takes_body.2
  | number | date | title | description =>
      rw [behindColon, helements]
      rfl

-- =========================================================== fragments

/-- The fragment that is reported of a malformed query stands in it, unless its
clause has no body and white space between the name of the kind and the colon;
then what is reported is the name with a colon behind it, which stands nowhere
in the query. -/
theorem fragment_stands_iff (q : Text) :
    (∀ m, read q = .error (.malformed m) →
      (m.fragment <:+: q ↔ ¬ ∃ kind, Detached q kind))
    ∧ ∀ kind, Detached q kind → read q = refuse (kind.name ++ [':']) (.value kind)
        ∧ ¬ kind.name ++ [':'] <:+: q := by
  have hdetached (kind : Kind) (h : Detached q kind) :
      read q = refuse (kind.name ++ [':']) (.value kind) ∧ ¬ kind.name ++ [':'] <:+: q :=
    ⟨h.bodiless.read_eq, h.not_infix⟩
  refine ⟨fun m hm => ⟨fun hstands hkind => ?_, fun hnone => ?_⟩, hdetached⟩
  · obtain ⟨kind, hkind⟩ := hkind
    obtain ⟨hread, hnot⟩ := hdetached kind hkind
    have hreported : m = ⟨kind.name ++ [':'], .value kind⟩ := by
      rw [hread] at hm
      exact (Refusal.malformed.inj (Except.error.inj hm)).symm
    rw [hreported] at hstands
    exact hnot hstands
  · have hjudged := judged_read q
    rw [hm] at hjudged
    cases hjudged with
    | fragment h => exact h
    | absent kind h => exact h.detached_or.resolve_left fun hgap => hnone ⟨kind, hgap⟩

/-- Of a set that is left open all of it is reported, and stands in the query. Of
a kind with a blank and a colon behind it there is reported what does not. -/
theorem fragment_stands_iff_blank :
    (∃ m, read " title:\x7bham, " = .error (.malformed m)
      ∧ m.fragment = "\x7bham,".toList ∧ m.fragment <:+: " title:\x7bham, ".toList)
    ∧ Detached "number :" .number
    ∧ ∃ m, read "number :" = .error (.malformed m)
      ∧ m.fragment = "number:".toList ∧ ¬ m.fragment <:+: "number :".toList := by
  have hopen : ¬ ∃ kind, Detached " title:\x7bham, " kind := by
    rintro ⟨kind, h⟩
    obtain ⟨m, hm⟩ : ∃ m, read " title:\x7bham, " = .error (.malformed m) := ⟨_, rfl⟩
    have hread := ((fragment_stands_iff _).2 kind h).1
    have hset : read " title:\x7bham, " = refuse "\x7bham," .setClosing := rfl
    rw [hset] at hread
    cases congrArg Malformed.expected (Refusal.malformed.inj (Except.error.inj hread))
  have hblank : Detached "number :" .number :=
    ⟨by decide, [], [' '], [], rfl, by decide, List.forall_mem_singleton.mpr rfl⟩
  refine ⟨⟨_, rfl, rfl, ((fragment_stands_iff _).1 _ rfl).mpr hopen⟩, hblank, _, rfl, rfl, ?_⟩
  exact fun h => ((fragment_stands_iff _).1 _ rfl).mp h ⟨_, hblank⟩

end FeedSieve.Query
