/-
Which queries are read alike.

How a set is written makes no difference to what is read: neither the order
of its elements nor how often they are said, nor white space, and a single
element needs no braces. On refusal that is a statement, too. The first
element that cannot be read decides what is reported, so two ways of writing
a set may be refused for different reasons, but both are refused.

Which numbers a set contains is less than what is read. Joining works on
ranges alone: a number that is written single stays single, even next to its
neighbours, so `{1, 2}` and `[1-2]` have the same members and are told apart.
Sets of numbers without single numbers next to others are told apart by
their members only (`NumberSet.Lone.ext`).
-/
import FeedSieve.Proofs.Query.Complete
import FeedSieve.Proofs.Query.Numbers

namespace FeedSieve.Query

open Calendar (Date)
open Text (Firm isBlank isDigit)

variable {α : Type} {s s' : NumberSet} {es es' : List (Element Nat)} {n : Nat}

-- ============================================ members and single numbers

/-- No single number of the set stands next to another member of it. -/
def NumberSet.Lone (s : NumberSet) : Prop :=
  ∀ n ∈ s.scalars, s.contains (n - 1) = false ∧ s.contains (n + 1) = false

/-- The single numbers of a set are those that no listed range covers. -/
theorem NumberSet.Lists.mem_scalars (h : s.Lists es) :
    (n : Int) ∈ s.scalars ↔ .single n ∈ es ∧ ¬ InRange es n := by
  obtain ⟨ranges, scalars, rfl, -, -, hmem⟩ := h
  rw [← hmem, List.mem_map]
  constructor
  · rintro ⟨m, hm, hmn⟩
    rw [Int.ofNat_eq_natCast, Int.natCast_inj] at hmn
    exact hmn ▸ hm
  · intro hn
    exact ⟨n, hn, rfl⟩

/-- A member of a set is a single number or lies in a range of it. -/
theorem NumberSet.Lists.contains_iff (h : s.Lists es) :
    s.contains n = true ↔ (n : Int) ∈ s.scalars ∨ InRange es n := by
  rw [h.contains_eq, any_covers_iff, h.mem_scalars]
  tauto

/-- Members and single numbers together determine the set: what is left for
the ranges to cover is the rest of the members. -/
theorem NumberSet.Lists.ext (h : s.Lists es) (h' : s'.Lists es')
    (hmembers : ∀ n : Nat, s.contains n = s'.contains n)
    (hscalars : ∀ n : Nat, (n : Int) ∈ s.scalars ↔ (n : Int) ∈ s'.scalars) : s = s' := by
  have hranges (n : Nat) : InRange es n ↔ InRange es' n := by
    have hcover := h.contains_iff (n := n)
    have hcover' := h'.contains_iff (n := n)
    have hout := h.mem_scalars (n := n)
    have hout' := h'.mem_scalars (n := n)
    rw [hmembers n] at hcover
    have hsame := hscalars n
    tauto
  have hsingles := fun n => hscalars n
  simp only [h.mem_scalars, h'.mem_scalars] at hsingles
  obtain ⟨ranges, scalars, rfl, hjoined, hincreasing, hmem⟩ := h
  obtain ⟨ranges', scalars', rfl, hjoined', hincreasing', hmem'⟩ := h'
  have hjoined'' : Joined (InRange es) ranges' :=
    ⟨hjoined'.proper, hjoined'.apart, fun n => by rw [hjoined'.same, hranges]⟩
  rw [hjoined.unique hjoined'', hincreasing.ext Ordered.strict_nat hincreasing' fun n => by
    rw [hmem, hmem', hsingles]]

/-- A number in a range has a neighbour in it. -/
theorem neighbour_of_inRange (hproper : Proper (fun a b => decide (a < b)) es)
    (h : InRange es n) : InRange es (n + 1) ∨ ∃ m, n = m + 1 ∧ InRange es m := by
  obtain ⟨r, hr, hlo, hhi⟩ := h
  have hlt := of_decide_eq_true (hproper r hr)
  by_cases hup : n + 1 ≤ r.hi
  · exact Or.inl ⟨r, hr, by omega, hup⟩
  · exact Or.inr ⟨n - 1, by omega, r, hr, by omega, by omega⟩

/-- A single number that stands alone is single in every set with the same
members. -/
theorem NumberSet.Lone.scalar (h : s.Lists es) (h' : s'.Lists es')
    (hproper' : Proper (fun a b => decide (a < b)) es')
    (hmembers : ∀ n : Nat, s.contains n = s'.contains n) (hlone : s.Lone)
    (hn : (n : Int) ∈ s.scalars) : (n : Int) ∈ s'.scalars := by
  have hmember := h.contains_iff.mpr (Or.inl hn)
  rw [hmembers] at hmember
  rcases h'.contains_iff.mp hmember with hn' | hrange
  · exact hn'
  · -- otherwise a neighbour is a member with it
    obtain ⟨hbelow, habove⟩ := hlone n hn
    rcases neighbour_of_inRange hproper' hrange with hup | ⟨m, rfl, hdown⟩
    · have hin := h'.contains_iff.mpr (Or.inr hup)
      rw [← hmembers, Int.natCast_succ, habove] at hin
      cases hin
    · have hin := h'.contains_iff.mpr (Or.inr hdown)
      rw [Int.natCast_succ, Int.add_sub_cancel] at hbelow
      rw [← hmembers, hbelow] at hin
      cases hin

/-- A query that is read as a set of numbers lists proper ranges of it. -/
theorem exists_proper_lists {q : Text} (h : read q = .ok (.number s)) :
    ∃ es, s.Lists es ∧ Proper (fun a b => decide (a < b)) es := by
  obtain ⟨es, hderives, hlists⟩ := exists_lists h
  cases hderives with
  | number hkind hbody hes => exact ⟨es, hlists, hes.proper⟩

/-- Queries for the same numbers are read as the same predicate if and only
if they have the same numbers single, and always if no single number stands
next to another member. -/
theorem same_numbers_alike {q q' : Text} {s s' : NumberSet} (h : read q = .ok (.number s))
    (h' : read q' = .ok (.number s')) (hmembers : ∀ n : Nat, s.contains n = s'.contains n) :
    (s = s' ↔ ∀ n : Nat, (n : Int) ∈ s.scalars ↔ (n : Int) ∈ s'.scalars)
      ∧ (s.Lone → s'.Lone → s = s') := by
  obtain ⟨es, hlists, hproper⟩ := exists_proper_lists h
  obtain ⟨es', hlists', hproper'⟩ := exists_proper_lists h'
  refine ⟨⟨?_, hlists.ext hlists' hmembers⟩, fun hlone hlone' => ?_⟩
  · rintro rfl n
    exact Iff.rfl
  · apply hlists.ext hlists' hmembers
    intro n
    constructor
    · exact hlone.scalar hlists hlists' hproper' hmembers
    · exact hlone'.scalar hlists' hlists hproper fun n => (hmembers n).symm

/-- Ranges that touch and a number apart, written in two ways. -/
theorem same_numbers_alike_apart :
    ∃ s s', read "number:\x7b[4-6], 9, [1-3]\x7d" = .ok (.number s)
      ∧ read "number:\x7b9,[1-6],9\x7d" = .ok (.number s')
      ∧ (∀ n : Nat, s.contains n = s'.contains n) ∧ s.Lone ∧ s'.Lone ∧ s = s' := by
  have hlone : NumberSet.Lone ⟨[⟨1, 6⟩], [9]⟩ := by
    intro n hn
    rw [List.mem_singleton.mp hn]
    decide
  have hread : read "number:\x7b[4-6], 9, [1-3]\x7d" = .ok (.number ⟨[⟨1, 6⟩], [9]⟩) := rfl
  have hread' : read "number:\x7b9,[1-6],9\x7d" = .ok (.number ⟨[⟨1, 6⟩], [9]⟩) := rfl
  exact ⟨_, _, hread, hread', fun n => rfl, hlone, hlone,
    (same_numbers_alike hread hread' fun n => rfl).2 hlone hlone⟩

/-- Two numbers one by one and as a range. -/
theorem neighbours_unlike :
    ∃ s s', read "number:\x7b1,2\x7d" = .ok (.number s)
      ∧ read "number:[1-2]" = .ok (.number s')
      ∧ (∀ n : Nat, s.contains n = s'.contains n) ∧ s ≠ s' := by
  refine ⟨⟨[], [1, 2]⟩, ⟨[⟨1, 2⟩], []⟩, rfl, rfl, fun n => ?_, by decide⟩
  unfold NumberSet.contains Span.contains
  rw [Bool.eq_iff_iff]
  simp
  omega

-- =========================================================== set notation

/-- Both are read, as the same predicate, or both are refused. -/
def Alike (x y : Except Refusal Predicate) : Prop :=
  (∃ p, x = .ok p ∧ y = .ok p) ∨ ∃ why why', x = .error why ∧ y = .error why'

/-- A text that can be an element of a set, once white space is taken off
it. -/
structure Flat (e : Text) : Prop where
  opening : '{' ∉ e
  closing : '}' ∉ e
  comma : ',' ∉ e

instance (e : Text) : Decidable (Flat e) :=
  decidable_of_iff ('{' ∉ e ∧ '}' ∉ e ∧ ',' ∉ e)
    ⟨fun ⟨h, h', h''⟩ => ⟨h, h', h''⟩, fun ⟨h, h', h''⟩ => ⟨h, h', h''⟩⟩

/-- Elements between braces, with commas between them. -/
def braced (elements : List Text) : Text := '{' :: Text.joinWith [','] elements ++ ['}']

/-- It is enough that each is read as all that the other is read as. -/
theorem alike_of_iff {x y : Except Refusal Predicate} (h : ∀ p, x = .ok p ↔ y = .ok p) :
    Alike x y := by
  cases x with
  | ok p => exact Or.inl ⟨p, rfl, (h p).mp rfl⟩
  | error why =>
      cases y with
      | ok p => cases (h p).mpr rfl
      | error why' => exact Or.inr ⟨why, why', rfl, rfl⟩

/-- The elements of a body are those that stand in it between its blanks. -/
theorem elementsOf_eq_ok_iff {kind : Kind} {body : Text} {parts : List Text} :
    elementsOf kind body = .ok parts ↔ Parts (Text.trim body) parts := by
  constructor
  · intro h
    have hjudged := judged_elementsOf kind body
    rw [h] at hjudged
    cases hjudged with
    | read hparts =>
        obtain ⟨t, hspaced, hparts⟩ := hparts
        rw [hparts.trim_eq hspaced]
        exact hparts
  · intro h
    exact elementsOf_eq_ok h rfl

/-- What is made of the elements of a clause. -/
def ofParts (parts : List Text) : Kind → Except Refusal Predicate
  | .number => (fun es => .number (numberSet es)) <$> parts.mapM numberElement
  | .date => (fun es => .date (dateSet es)) <$> parts.mapM dateElement
  | .title => .ok (.title (keywordSet parts))
  | .description => .ok (.description (keywordSet parts))
  | kind => refuse kind.name (.clause kind)

/-- The kinds whose bodies are sets. -/
def Kind.sets : List Kind := [.number, .title, .description, .date]

/-- A clause is read as what is made of the elements of its body. -/
theorem read_clause_eq_ok_iff {kind : Kind} (hkind : kind ∈ Kind.sets) {body : Text}
    {p : Predicate} : read (kind.name ++ ':' :: body) = .ok p
      ↔ ∃ parts, Parts (Text.trim body) parts ∧ ofParts parts kind = .ok p := by
  have hspaced : Spaced kind.name kind.name := ⟨[], [], by simp, by simp, by simp⟩
  obtain ⟨rest, hrest, hread⟩ := read_colon kind hspaced body
  have hbind : behindColon (Text.trim (kind.name ++ ':' :: body)) rest kind
      = elementsOf kind rest >>= fun parts => ofParts parts kind := by
    cases kind with
    | number | title | description | date => rfl
    | notexists | latest => exact absurd hkind (by decide)
  rw [hread, hbind, ← hrest]
  cases h : elementsOf kind rest with
  | ok parts =>
      have hparts := elementsOf_eq_ok_iff.mp h
      constructor
      · intro hp
        exact ⟨parts, hparts, hp⟩
      · rintro ⟨parts', hparts', hp⟩
        have h' : elementsOf kind rest = .ok parts' := elementsOf_eq_ok_iff.mpr hparts'
        obtain rfl := Except.ok.inj (h.symm.trans h')
        exact hp
  | error why =>
      constructor
      · intro hp
        cases hp
      · rintro ⟨parts, hparts, -⟩
        have h' : elementsOf kind rest = .ok parts := elementsOf_eq_ok_iff.mpr hparts
        cases h.symm.trans h'

/-- A list is read if each of its members is, and then what is read of it
is what is read of them. -/
theorem mapM_eq_ok_mem {β : Type} {f : β → Except Refusal α} {xs : List β} {ys : List α}
    (h : xs.mapM f = .ok ys) :
    (∀ x ∈ xs, ∃ y, f x = .ok y) ∧ ∀ y, y ∈ ys ↔ ∃ x ∈ xs, f x = .ok y := by
  induction xs generalizing ys with
  | nil =>
      cases h
      simp
  | cons x xs ih =>
      rw [List.mapM_cons] at h
      cases hx : f x with
      | error why =>
          rw [hx] at h
          cases h
      | ok z =>
          cases hxs : xs.mapM f with
          | error why =>
              rw [hx, hxs] at h
              cases h
          | ok zs =>
              rw [hx, hxs] at h
              cases h
              obtain ⟨hread, hmem⟩ := ih hxs
              refine ⟨List.forall_mem_cons.mpr ⟨⟨z, hx⟩, hread⟩, fun y => ?_⟩
              rw [List.mem_cons, hmem, List.exists_mem_cons_iff, hx, Except.ok.injEq,
                eq_comm]

/-- If each member of a list is read, the list is. -/
theorem exists_mapM {β : Type} {f : β → Except Refusal α} {xs : List β}
    (h : ∀ x ∈ xs, ∃ y, f x = .ok y) : ∃ ys, xs.mapM f = .ok ys := by
  induction xs with
  | nil => exact ⟨[], rfl⟩
  | cons x xs ih =>
      obtain ⟨y, hy⟩ := h x List.mem_cons_self
      obtain ⟨ys, hys⟩ := ih fun z hz => h z (List.mem_cons_of_mem x hz)
      refine ⟨y :: ys, ?_⟩
      rw [List.mapM_cons, hy, hys]
      rfl

/-- Lists with the same members are read as lists with the same members. -/
theorem mapM_congr {β : Type} {f : β → Except Refusal α} {xs xs' : List β} {ys : List α}
    (hmem : ∀ x, x ∈ xs ↔ x ∈ xs') (h : xs.mapM f = .ok ys) :
    ∃ ys', xs'.mapM f = .ok ys' ∧ ∀ y, y ∈ ys ↔ y ∈ ys' := by
  obtain ⟨hread, hys⟩ := mapM_eq_ok_mem h
  obtain ⟨ys', hys'⟩ := exists_mapM fun x hx => hread x ((hmem x).mpr hx)
  refine ⟨ys', hys', fun y => ?_⟩
  rw [hys, (mapM_eq_ok_mem hys').2]
  simp only [hmem]

/-- A set of numbers depends on which elements are listed. -/
theorem numberSet_congr {es es' : List (Element Nat)} (h : ∀ e, e ∈ es ↔ e ∈ es') :
    numberSet es = numberSet es' := by
  have hspans : Ordered.ofList (Span.before fun a b => decide (a < b)) (separate es).2
      = Ordered.ofList (Span.before fun a b => decide (a < b)) (separate es').2 := by
    apply Ordered.ofList_congr (Ordered.strict_span Ordered.strict_nat)
    intro r
    rw [mem_separate_snd, mem_separate_snd, h]
  unfold numberSet
  simp only
  rw [hspans]
  congr 2
  apply Ordered.ofList_congr Ordered.strict_nat
  intro n
  rw [List.mem_filter, List.mem_filter, mem_separate_fst, mem_separate_fst, h]

/-- A set of days depends on which elements are listed. -/
theorem dateSet_congr {es es' : List (Element Date)} (h : ∀ e, e ∈ es ↔ e ∈ es') :
    dateSet es = dateSet es' := by
  have hspans : Ordered.ofList (Span.before Date.before) (separate es).2
      = Ordered.ofList (Span.before Date.before) (separate es').2 := by
    apply Ordered.ofList_congr (Ordered.strict_span Ordered.strict_date)
    intro r
    rw [mem_separate_snd, mem_separate_snd, h]
  unfold dateSet
  simp only
  rw [hspans]
  congr 1
  apply Ordered.ofList_congr Ordered.strict_date
  intro d
  rw [List.mem_filter, List.mem_filter, mem_separate_fst, mem_separate_fst, h]

/-- What is made of elements depends on which they are. -/
theorem ofParts_congr {kind : Kind} {parts parts' : List Text} {p : Predicate}
    (hmem : ∀ t, t ∈ parts ↔ t ∈ parts') (h : ofParts parts kind = .ok p) :
    ofParts parts' kind = .ok p := by
  cases kind with
  | number =>
      unfold ofParts at h ⊢
      cases hes : parts.mapM numberElement with
      | error why =>
          rw [hes] at h
          cases h
      | ok es =>
          obtain ⟨es', hes', hsame⟩ := mapM_congr hmem hes
          rw [hes] at h
          rw [hes']
          show Except.ok (Predicate.number (numberSet es')) = .ok p
          rw [← numberSet_congr hsame]
          exact h
  | date =>
      unfold ofParts at h ⊢
      cases hes : parts.mapM dateElement with
      | error why =>
          rw [hes] at h
          cases h
      | ok es =>
          obtain ⟨es', hes', hsame⟩ := mapM_congr hmem hes
          rw [hes] at h
          rw [hes']
          show Except.ok (Predicate.date (dateSet es')) = .ok p
          rw [← dateSet_congr hsame]
          exact h
  | title =>
      rw [ofParts, keywordSet, Ordered.ofList_congr Ordered.strict_text hmem] at h
      exact h
  | description =>
      rw [ofParts, keywordSet, Ordered.ofList_congr Ordered.strict_text hmem] at h
      exact h
  | notexists => cases h
  | latest => cases h

/-- The elements between braces are those written there, and none may be
blank. -/
theorem parts_braced_iff {elements parts : List Text} (hne : elements ≠ [])
    (hflat : ∀ e ∈ elements, Flat e) :
    Parts (Text.trim (braced elements)) parts
      ↔ (∀ e ∈ elements, Text.trim e ≠ []) ∧ parts = elements.map Text.trim := by
  have hsplit : Text.splitOn ',' (Text.joinWith [','] elements) = elements :=
    Text.splitOn_joinWith hne fun e he => (hflat e he).comma
  have hfirm : Firm isBlank (braced elements) := by
    refine ⟨List.cons_ne_nil _ _, fun c hc => ?_, fun c hc => ?_⟩
    · cases hc
      decide
    · rw [braced, List.getLast?_concat] at hc
      cases hc
      decide
  have htrim : Text.trim (braced elements) = braced elements := hfirm.strip
  rw [htrim]
  constructor
  · intro h
    unfold braced at h
    generalize hbody : '{' :: Text.joinWith [','] elements ++ ['}'] = t at h
    cases h with
    | one _ hopen _ =>
        rw [← hbody] at hopen
        exact absurd rfl hopen
    | @set inner _ _ hpieces =>
        have hinner : inner = Text.joinWith [','] elements :=
          (List.append_cancel_right (List.cons.inj hbody).2).symm
        subst hinner
        rw [hsplit] at hpieces ⊢
        exact ⟨fun e he => (hpieces e he).inhabited, rfl⟩
  · rintro ⟨hinhabited, rfl⟩
    have hopen : '{' ∉ Text.joinWith [','] elements := by
      rw [Text.mem_joinWith (by decide)]
      rintro ⟨e, he, hmem⟩
      exact (hflat e he).opening hmem
    have hclose : '}' ∉ Text.joinWith [','] elements := by
      rw [Text.mem_joinWith (by decide)]
      rintro ⟨e, he, hmem⟩
      exact (hflat e he).closing hmem
    have h := Parts.set hopen hclose (by
      rw [hsplit]
      exact fun e he => Text.firm_strip (hinhabited e he))
    rw [hsplit] at h
    exact h

/-- An element alone is its own body. -/
theorem parts_flat_iff {e : Text} {parts : List Text} (hflat : Flat e)
    (hne : Text.trim e ≠ []) : Parts (Text.trim e) parts ↔ parts = [Text.trim e] := by
  have hpart : Text.trim e <:+: e := (Text.padded_strip _ e).part
  have hopen : (Text.trim e).head? ≠ some '{' := fun h =>
    hflat.opening (hpart.subset (List.mem_of_mem_head? h))
  have hclose : (Text.trim e).getLast? ≠ some '}' := fun h =>
    hflat.closing (hpart.subset (List.mem_of_getLast? h))
  constructor
  · intro h
    generalize Text.trim e = t at h hopen
    cases h with
    | one => rfl
    | set => exact absurd rfl hopen
  · rintro rfl
    exact .one (Text.firm_strip hne) hopen hclose

/-- What is read of elements between braces depends on which they are. -/
theorem read_braced_congr {kind : Kind} (hkind : kind ∈ Kind.sets) {elements elements' : List Text}
    (hne : elements ≠ []) (hne' : elements' ≠ []) (hflat : ∀ e ∈ elements, Flat e)
    (hflat' : ∀ e ∈ elements', Flat e)
    (hsame : ∀ t, t ∈ elements.map Text.trim ↔ t ∈ elements'.map Text.trim) {p : Predicate}
    (h : read (kind.name ++ ':' :: braced elements) = .ok p) :
    read (kind.name ++ ':' :: braced elements') = .ok p := by
  rw [read_clause_eq_ok_iff hkind] at h ⊢
  obtain ⟨parts, hparts, hread⟩ := h
  obtain ⟨hinhabited, rfl⟩ := (parts_braced_iff hne hflat).mp hparts
  refine ⟨elements'.map Text.trim, (parts_braced_iff hne' hflat').mpr ⟨?_, rfl⟩,
    ofParts_congr hsame hread⟩
  intro e he hblank
  -- a blank element would be one of the others, too
  obtain ⟨e', he', hsame'⟩ := List.mem_map.mp ((hsame _).mpr (List.mem_map_of_mem he))
  exact hinhabited e' he' (hsame'.trans hblank)

/-- Sets are read alike if they have the same elements, whatever their
order, how often they are said and the white space around them; and an
element is read as the set of it. -/
theorem read_sets_alike (kind : Kind) (hkind : kind ∈ Kind.sets) :
    (∀ elements elements' : List Text, elements ≠ [] → elements' ≠ [] →
      (∀ e ∈ elements, Flat e) → (∀ e ∈ elements', Flat e) →
      (∀ t, t ∈ elements.map Text.trim ↔ t ∈ elements'.map Text.trim) →
      Alike (read (kind.name ++ ':' :: braced elements))
        (read (kind.name ++ ':' :: braced elements')))
    ∧ ∀ e : Text, Flat e → Text.trim e ≠ [] →
        Alike (read (kind.name ++ ':' :: e)) (read (kind.name ++ ':' :: braced [e])) := by
  constructor
  · intro elements elements' hne hne' hflat hflat' hsame
    apply alike_of_iff
    intro p
    constructor
    · exact read_braced_congr hkind hne hne' hflat hflat' hsame
    · exact read_braced_congr hkind hne' hne hflat' hflat fun t => (hsame t).symm
  · intro e hflat hne
    apply alike_of_iff
    intro p
    have hflats : ∀ x ∈ [e], Flat x := by
      intro x hx
      rw [List.mem_singleton.mp hx]
      exact hflat
    rw [read_clause_eq_ok_iff hkind, read_clause_eq_ok_iff hkind]
    simp only [parts_flat_iff hflat hne, parts_braced_iff (List.cons_ne_nil e []) hflats,
      List.forall_mem_singleton, List.map_singleton]
    simp only [hne, ne_eq, not_false_eq_true, true_and]

/-- Numbers in another order, one of them said twice; an inverted range,
which is refused in both; and a day without braces. -/
theorem read_sets_alike_numbers :
    Alike (read "number:\x7b9,[1-3],9\x7d") (read "number:\x7b [1-3] , 9\x7d")
      ∧ Alike (read "number:\x7b[3-1],x\x7d") (read "number:\x7bx,[3-1]\x7d")
      ∧ Alike (read "date: 2021-3-1") (read "date:\x7b 2021-3-1\x7d") := by
  have hnumbers := (read_sets_alike .number (by decide)).1
  refine ⟨hnumbers ["9", "[1-3]", "9"] [" [1-3] ", " 9"] (by decide) (by decide) (by decide)
      (by decide) fun t => ?_,
    hnumbers ["[3-1]", "x"] ["x", "[3-1]"] (by decide) (by decide) (by decide) (by decide)
      fun t => ?_,
    (read_sets_alike .date (by decide)).2 " 2021-3-1" (by decide) (by decide)⟩
  · show t ∈ (["9", "[1-3]", "9"] : List Text) ↔ t ∈ (["[1-3]", "9"] : List Text)
    simp only [List.mem_cons, List.not_mem_nil, or_false]
    tauto
  · show t ∈ (["[3-1]", "x"] : List Text) ↔ t ∈ (["x", "[3-1]"] : List Text)
    simp only [List.mem_cons, List.not_mem_nil, or_false]
    exact or_comm

end FeedSieve.Query
