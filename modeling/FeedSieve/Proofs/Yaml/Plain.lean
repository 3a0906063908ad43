/-
Texts that are written plain are read again.

A text without marks is a sentence (`sentence_runsOf`): words between which
there are spaces, and no word has a beginning or an end that would be taken
for something else. A reader takes a sentence word by word. A fold stands
for the one space in whose place it was written, since the line behind it is
indented far enough to go on; the line behind the whole sentence is not, and
so the sentence ends there (`plain_written`).
-/
import Mathlib.Data.List.Induction
import FeedSieve.Proofs.Yaml.Quoted

namespace FeedSieve.Yaml

variable {c : Char} {t x w done held : Text} {runs : List Run} {n k limit : Nat} {indent : Int}

-- =============================================================== words

/-- A word that can stand in a plain text. -/
structure PlainWord (w : Text) : Prop where
  ne_nil : w ≠ []
  inner : ∀ c ∈ w, endsToken c = false
  head : first w ≠ '#'
  last : w.getLast? ≠ some ':'

/-- Visible ASCII does not end a word. -/
theorem endsToken_of_isOrdinary (h : isOrdinary c = true) (hspace : c ≠ ' ') (hbreak : c ≠ '\n') :
    endsToken c = false := by
  obtain ⟨hblank, hline⟩ := isVisible_of_isOrdinary h hspace hbreak
  have hzero : c ≠ '\x00' := by
    rintro rfl
    revert h
    decide
  unfold endsToken endsLine
  rw [hblank, hline, decide_eq_false hzero]
  rfl

/-- What does not end a word is visible. -/
theorem isVisible_of_endsToken (h : endsToken c = false) : IsVisible c := by
  unfold endsToken endsLine at h
  rw [Bool.or_eq_false_iff, Bool.or_eq_false_iff] at h
  exact ⟨h.1, h.2.2⟩

/-- A text with which a word before it ends. -/
def EndsWord (t : Text) : Prop := ∀ c rest, t = c :: rest → endsPlain false c rest = true

theorem endsWord_cons (h : endsToken c = true) (t : Text) : EndsWord (c :: t) := by
  rintro d rest heq
  obtain ⟨rfl, rfl⟩ := List.cons.inj heq
  unfold endsPlain
  rw [h]
  rfl

theorem endsWord_spaces (hn : n ≠ 0) (t : Text) : EndsWord (List.replicate n ' ' ++ t) := by
  obtain ⟨n, rfl⟩ := Nat.exists_eq_succ_of_ne_zero hn
  exact endsWord_cons rfl _

/-- A word is read up to where it ends. -/
theorem plainWord_append (hinner : ∀ c ∈ w, endsToken c = false) (hlast : w.getLast? ≠ some ':')
    (hx : EndsWord x) : plainWord false (w ++ x) = (w, x) := by
  induction w with
  | nil =>
      cases x with
      | nil => rfl
      | cons c x => rw [List.nil_append, plainWord, if_pos (hx c x rfl)]
  | cons c w ih =>
      obtain ⟨hc, hw⟩ := List.forall_mem_cons.mp hinner
      have hgoes : endsPlain false c (w ++ x) = false := by
        unfold endsPlain
        rw [hc]
        cases w with
        | nil =>
            have hcolon : c ≠ ':' := fun h => hlast (congrArg some h)
            simp [hcolon]
        | cons d w =>
            have hd : endsToken (first (d :: (w ++ x))) = false := hw d List.mem_cons_self
            simp [hd]
      have hlast' : w.getLast? ≠ some ':' := by
        cases w with
        | nil => nofun
        | cons d w => exact fun h => hlast (by rw [List.getLast?_cons_cons]; exact h)
      rw [List.cons_append, plainWord, hgoes, ih hw hlast']
      rfl

-- ================================================================ gaps

/-- A text that begins with something visible, or not at all. -/
def Begins (t : Text) : Prop := ∀ c ∈ t.head?, IsVisible c

/-- Spaces up to something visible. -/
theorem plainGap_spaces (n : Nat) (hx : Begins x) :
    plainGap (List.replicate n ' ' ++ x) = (⟨List.replicate n ' ', none⟩, x) := by
  have hspaces : ∀ c ∈ List.replicate n ' ', decide (c = ' ') = true := fun c hc =>
    decide_eq_true (List.eq_of_mem_replicate hc)
  unfold plainGap
  rw [List.takeWhile_append_of_pos hspaces, List.dropWhile_append_of_pos hspaces]
  cases x with
  | nil => simp
  | cons c x =>
      obtain ⟨hblank, hbreak⟩ := hx c rfl
      have hspace : c ≠ ' ' := by
        rintro rfl
        cases hblank
      simp [hspace, hbreak]

/-- The lines up to something visible. -/
theorem plainLines_spaces (lineEnd : Char) (breaks : Text) (column k : Nat) (hx : Begins x)
    (hend : column + k = 0 → endsDocument x = false) :
    plainLines lineEnd breaks column (List.replicate k ' ' ++ x)
      = (⟨plainLines.plainFold lineEnd breaks, some (column + k)⟩, x) := by
  induction k generalizing column with
  | zero =>
      cases x with
      | nil => rfl
      | cons c x =>
          obtain ⟨hblank, hbreak⟩ := hx c rfl
          have hspace : c ≠ ' ' := by
            rintro rfl
            cases hblank
          have hstop : (decide (column = 0) && endsDocument (c :: x)) = false := by
            rw [Bool.and_eq_false_imp, decide_eq_true_eq]
            exact hend
          rw [List.replicate_zero, List.nil_append, plainLines, hstop, if_neg hspace, hbreak]
          rfl
  | succ k ih =>
      rw [List.replicate_succ, List.cons_append, plainLines,
        endsDocument_cons (by decide) (by decide), Bool.and_false]
      simp only [Bool.false_eq_true, if_false, if_true]
      rw [ih (column + 1) (fun h => by omega), Nat.add_right_comm]
      rfl

/-- A line end, and the indentation of the line behind it. -/
theorem plainGap_line (k : Nat) (hx : Begins x) (hend : k = 0 → endsDocument x = false) :
    plainGap ('\n' :: (List.replicate k ' ' ++ x)) = (⟨[' '], some k⟩, x) := by
  have hlines := plainLines_spaces '\n' [] 0 k hx (by rwa [Nat.zero_add])
  unfold plainGap
  simp only [List.takeWhile_cons, List.dropWhile_cons]
  rw [Nat.zero_add] at hlines
  exact hlines

-- =========================================================== sentences

/-- Words with spaces between them. -/
inductive Sentence : List Run → Prop where
  | last {w : Text} (hw : PlainWord w) : Sentence [.word w]
  | more {w : Text} {n : Nat} {rest : List Run} (hw : PlainWord w) (hn : n ≠ 0)
      (hrest : Sentence rest) : Sentence (.word w :: .spaces n :: rest)

/-- A sentence begins with a word. -/
theorem Sentence.exists_word (h : Sentence runs) :
    ∃ w rest, PlainWord w ∧ runs = .word w :: rest := by
  cases h with
  | last hw => exact ⟨_, _, hw, rfl⟩
  | more hw _ _ => exact ⟨_, _, hw, rfl⟩

/-- A word begins with something visible, and is no comment. -/
theorem PlainWord.begins (hw : PlainWord w) (x : Text) :
    Begins (w ++ x) ∧ first (w ++ x) ≠ '#' := by
  obtain ⟨c, w, rfl⟩ := List.exists_cons_of_ne_nil hw.ne_nil
  refine ⟨fun d hd => ?_, hw.head⟩
  obtain rfl := Option.some.inj hd
  exact isVisible_of_endsToken (hw.inner c List.mem_cons_self)

/-- So is a sentence that is written. -/
theorem Sentence.begins (h : Sentence runs) (column : Nat) (opening : Bool) (x : Text) :
    Begins (writeRuns false column opening runs ++ x)
      ∧ first (writeRuns false column opening runs ++ x) ≠ '#' := by
  cases h with
  | last hw =>
      rw [writeRuns, List.append_assoc]
      exact hw.begins _
  | more hw hn hrest =>
      rw [writeRuns, List.append_assoc]
      exact hw.begins _

/-- A sentence ends where the next line is not indented far enough. -/
theorem plainFrom_last {gap y : Text} (hw : PlainWord w) (hx : EndsWord x) (lineEnded : Bool)
    (hgap : plainGap x = (⟨gap, some k⟩, y)) (hless : (k : Int) < indent) :
    plainFrom false indent (limit + 1) done held lineEnded (w ++ x)
      = ⟨done ++ held ++ w, true, y⟩ := by
  obtain ⟨c, w, rfl⟩ := List.exists_cons_of_ne_nil hw.ne_nil
  have hmark : ¬ first (c :: w ++ x) = '#' := hw.head
  rw [plainFrom, if_neg hmark, plainWord_append hw.inner hw.last hx]
  simp only [hgap, decide_eq_true hless, Bool.not_false, Bool.and_self, Bool.or_true, if_true]
  rfl

/-- Otherwise reading goes on behind a gap. -/
theorem plainFrom_more {gap y : Text} {column : Option Nat} (hw : PlainWord w) (hx : EndsWord x)
    (lineEnded : Bool) (hgap : plainGap x = (⟨gap, column⟩, y)) (hne : gap ≠ [])
    (hmark : first y ≠ '#') (hmore : ∀ k ∈ column, indent ≤ (k : Int)) :
    plainFrom false indent (limit + 1) done held lineEnded (w ++ x)
      = plainFrom false indent limit (done ++ held ++ w) gap column.isSome y := by
  obtain ⟨c, w, rfl⟩ := List.exists_cons_of_ne_nil hw.ne_nil
  have hfirst : ¬ first (c :: w ++ x) = '#' := hw.head
  have hempty : gap.isEmpty = false := List.isEmpty_eq_false_iff.mpr hne
  rw [plainFrom, if_neg hfirst, plainWord_append hw.inner hw.last hx]
  simp only [hgap, hempty, decide_eq_false hmark, Bool.false_or]
  cases column with
  | none => rfl
  | some k =>
      have hless : ¬ (k : Int) < indent := Int.not_lt.mpr (hmore k rfl)
      simp only [decide_eq_false hless, Bool.and_false]
      rfl

/-- A sentence is read up to a line that is indented less than is asked for. -/
theorem plainFrom_written (h : Sentence runs) (hindent : indent ≤ foldIndent)
    (hless : (k : Int) < indent) (hx : Begins x) (hend : k = 0 → endsDocument x = false)
    (column : Nat) (opening lineEnded : Bool)
    (hlimit : (writeRuns false column opening runs).length ≤ limit) :
    plainFrom false indent limit done held lineEnded
        (writeRuns false column opening runs ++ '\n' :: (List.replicate k ' ' ++ x))
      = ⟨done ++ held ++ textOf runs, true, x⟩ := by
  induction h generalizing limit column opening done held lineEnded with
  | @last w hw =>
      have hpositive := List.length_pos_of_ne_nil hw.ne_nil
      have hwritten : writeRuns false column opening [.word w] = w := List.append_nil w
      rw [hwritten] at hlimit ⊢
      obtain ⟨limit, rfl⟩ : ∃ l, limit = l + 1 := ⟨limit - 1, by omega⟩
      rw [plainFrom_last hw (endsWord_cons rfl _) lineEnded (plainGap_line k hx hend) hless]
      simp [Run.text]
  | @more w n rest hw hn hrest ih =>
      have hpositive := List.length_pos_of_ne_nil hw.ne_nil
      rw [writeRuns, List.length_append] at hlimit
      obtain ⟨limit, rfl⟩ : ∃ l, limit = l + 1 := ⟨limit - 1, by simp at hlimit; omega⟩
      rw [writeRuns, List.append_assoc]
      simp only [Bool.false_eq_true, if_false] at hlimit ⊢
      rw [writeRuns] at hlimit ⊢
      split
      · -- the fold stands for the one space
        rename_i hfold
        rw [if_pos hfold] at hlimit
        have hone : n = 1 := by
          rw [Bool.and_eq_true, Bool.and_eq_true, decide_eq_true_eq] at hfold
          exact hfold.1.1
        obtain ⟨hbegins, hmark⟩ := hrest.begins foldIndent false
          ('\n' :: (List.replicate k ' ' ++ x))
        have hgap := plainGap_line foldIndent hbegins (fun h => absurd h (by decide))
        rw [List.append_assoc, folded, List.cons_append]
        rw [plainFrom_more hw (endsWord_cons rfl _) lineEnded hgap (by simp) hmark
          (fun k hk => by rw [← Option.some.inj hk]; exact hindent)]
        rw [ih _ _ _ (by rw [List.length_append] at hlimit; omega), hone]
        simp [Run.text]
      · rename_i hfold
        rw [if_neg hfold] at hlimit
        obtain ⟨hbegins, hmark⟩ := hrest.begins (column + w.length + n) false
          ('\n' :: (List.replicate k ' ' ++ x))
        have hgap := plainGap_spaces n hbegins
        rw [List.append_assoc]
        rw [plainFrom_more hw (endsWord_spaces hn _) lineEnded hgap (by simpa using hn) hmark
          (fun k hk => absurd hk (Option.not_mem_none k))]
        rw [ih _ _ _ (by rw [List.length_append] at hlimit; omega)]
        simp [Run.text]

/-- A sentence that is written is read as its text. -/
theorem plain_written (h : Sentence runs) (hindent : indent ≤ foldIndent)
    (hless : (k : Int) < indent) (hx : Begins x) (hend : k = 0 → endsDocument x = false)
    (column : Nat) (opening : Bool) :
    plain false indent (writeRuns false column opening runs ++ '\n' :: (List.replicate k ' ' ++ x))
      = ⟨textOf runs, true, x⟩ := by
  unfold plain
  refine plainFrom_written h hindent hless hx hend column opening false ?_
  rw [List.length_append]
  omega

-- ========================================================= plain texts

/-- A text in which nothing would be taken for something else. -/
structure Unmarked (t : Text) : Prop where
  ordinary : ∀ c ∈ t, isOrdinary c = true ∧ c ≠ '\n'
  last : t.getLast? ≠ some ' '
  colons : (t ++ ['\x00']).IsChain fun a b => decide (a = ':') = true → endsToken b = false
  hashes : t.IsChain fun a b => endsToken a = true → decide (b = '#') = false

/-- So is what stands at its end. -/
theorem Unmarked.suffix {before : Text} (h : Unmarked (before ++ t)) : Unmarked t where
  ordinary c hc := h.ordinary c (List.mem_append_right _ hc)
  last hlast := h.last (by
    rw [List.getLast?_append, hlast]
    rfl)
  colons := by
    have hcolons := h.colons
    rw [List.append_assoc] at hcolons
    exact hcolons.right_of_append
  hashes := h.hashes.right_of_append

/-- A word at the beginning of such a text can stand in it. -/
theorem Unmarked.plainWord (hsound : (Run.word w).Sound) (h : Unmarked (w ++ t))
    (ht : ∀ c ∈ t.head?, c = ' ') (hmark : first (w ++ t) ≠ '#') : PlainWord w := by
  obtain ⟨hne, hw⟩ := hsound
  refine ⟨hne, fun c hc => ?_, ?_, fun hlast => ?_⟩
  · obtain ⟨hordinary, hbreak⟩ := h.ordinary c (List.mem_append_left _ hc)
    exact endsToken_of_isOrdinary hordinary (hw c hc).1 hbreak
  · obtain ⟨c, w, rfl⟩ := List.exists_cons_of_ne_nil hne
    exact hmark
  · -- behind the last character of the word stands a space, or the text ends
    have hcolons := h.colons
    rw [List.append_assoc] at hcolons
    have hnext : ∃ b rest, t ++ ['\x00'] = b :: rest ∧ endsToken b = true := by
      cases t with
      | nil => exact ⟨'\x00', [], rfl, rfl⟩
      | cons b t =>
          obtain rfl := ht b rfl
          exact ⟨' ', t ++ ['\x00'], rfl, rfl⟩
    obtain ⟨b, rest, hrest, hb⟩ := hnext
    rw [hrest] at hcolons
    have hrel := hcolons.rel_getLast_head_of_append hne (List.cons_ne_nil b rest)
    have hgoes := hrel (decide_eq_true (List.getLast_of_getLast?_eq_some hlast))
    rw [List.head_cons, hb] at hgoes
    cases hgoes

/-- Where words and spaces alternate, and a word comes first, there is a sentence. -/
theorem sentence_of_unmarked (h : Alternating runs) (hmarks : Unmarked (textOf runs))
    (hne : runs ≠ []) (hword : ∀ r ∈ runs.head?, r.isWord = true)
    (hmark : first (textOf runs) ≠ '#') : Sentence runs := by
  induction runs using List.twoStepInduction with
  | nil => exact absurd rfl hne
  | singleton r =>
      cases r with
      | spaces n | breaks n => cases hword _ rfl
      | word w =>
          have hsound := h.sound _ List.mem_cons_self
          exact .last (hmarks.plainWord (t := []) hsound (by simp) hmark)
  | cons_cons r gap rest ih _ =>
      cases r with
      | spaces n | breaks n => cases hword _ rfl
      | word w =>
          have hgapWord := (List.isChain_cons_cons.mp h.chain).1
          have hgapSound := h.tail.sound _ List.mem_cons_self
          have hsound := h.sound _ List.mem_cons_self
          cases gap with
          | word v => exact absurd rfl hgapWord
          | breaks n =>
              obtain ⟨n, rfl⟩ := Nat.exists_eq_succ_of_ne_zero hgapSound
              have hmem : '\n' ∈ textOf (.word w :: .breaks (n + 1) :: rest) :=
                List.mem_append_right _ List.mem_cons_self
              exact absurd rfl (hmarks.ordinary _ hmem).2
          | spaces n =>
              obtain ⟨n, rfl⟩ := Nat.exists_eq_succ_of_ne_zero hgapSound
              have hplain : PlainWord w := hmarks.plainWord hsound
                (fun c hc => (Option.some.inj hc).symm) hmark
              have hspaces : textOf (.spaces (n + 1) :: rest)
                  = List.replicate n ' ' ++ ' ' :: textOf rest := by
                rw [textOf_cons, List.append_cons, ← List.replicate_succ']
                rfl
              rw [textOf_cons, hspaces] at hmarks
              have hrest : Unmarked (List.replicate n ' ' ++ ' ' :: textOf rest) := hmarks.suffix
              have hnext : Unmarked ([' '] ++ textOf rest) := hrest.suffix
              refine .more hplain n.succ_ne_zero (ih h.tail.tail hnext.suffix
                (fun hnil => ?_) (fun r hr => ?_) fun hhash => ?_)
              · rw [hnil] at hnext
                exact hnext.last rfl
              · simpa [Run.isWord] using (List.isChain_cons.mp h.tail.chain).1 r hr
              · cases htext : textOf rest with
                | nil => rw [htext] at hhash; cases hhash
                | cons c t =>
                    rw [htext] at hhash hnext
                    have hnohash := (List.isChain_cons_cons.mp hnext.hashes).1 rfl
                    exact of_decide_eq_false hnohash hhash

-- ================================================ texts written plain

/-- Nothing is marked in a text that can be written plain. -/
theorem unmarked_of_isPlainText (h : isPlainText t = true) : Unmarked t := by
  unfold isPlainText hasMarks at h
  simp only [Bool.and_eq_true, Bool.not_eq_true', Bool.or_eq_false_iff, List.all_eq_true,
    bne_iff_ne] at h
  obtain ⟨⟨⟨hordinary, -⟩, hlast⟩, ⟨-, hcolons⟩, hhashes⟩ := h
  exact ⟨hordinary, hlast, hasNeighbours_eq_false_iff.mp hcolons,
    hasNeighbours_eq_false_iff.mp hhashes⟩

/-- The characters that a text must not begin with if it is written plain. -/
def openingMarks : Text := "#,[]\x7b\x7d&*!|>'\"%@`"

/-- It begins with none of the marks that mean something at the beginning. -/
theorem opening_of_isPlainText (h : isPlainText t = true) :
    t.head? ≠ some ' ' ∧ first t ∉ openingMarks
      ∧ Text.beginsWith "---" t = false ∧ Text.beginsWith "..." t = false
      ∧ (first t = '?' ∨ first t = '-' → endsToken (first (t.drop 1)) = false) := by
  unfold isPlainText hasMarks at h
  simp only [Bool.and_eq_true, Bool.not_eq_true', Bool.or_eq_false_iff, bne_iff_ne] at h
  obtain ⟨⟨⟨-, hhead⟩, -⟩, ⟨⟨⟨⟨hdashes, hdots⟩, hopening⟩, hmark⟩, -⟩, -⟩ := h
  have hnone : first t ∉ openingMarks := fun hmem =>
    Bool.false_ne_true (hopening.symm.trans (List.contains_iff_mem.mpr hmem))
  refine ⟨hhead, hnone, hdashes, hdots, fun hfirst => ?_⟩
  simpa [hfirst] using hmark

/-- Its runs are a sentence. -/
theorem sentence_runsOf (h : isPlainText t = true) (hne : t ≠ []) : Sentence (runsOf t) := by
  have hunmarked := unmarked_of_isPlainText h
  obtain ⟨hhead, hopening, -⟩ := opening_of_isPlainText h
  have hnobreak (p : Char → Bool) : hasNeighbours (· = '\n') p t = false
      ∧ hasNeighbours p (· = '\n') t = false := by
    unfold hasNeighbours
    simp only [List.any_eq_false, Prod.forall, Bool.and_eq_true, decide_eq_true_eq, not_and]
    refine ⟨fun a b hab ha => ?_, fun a b hab _ hb => ?_⟩
    · exact absurd ha (hunmarked.ordinary a (List.of_mem_zip hab).1).2
    · exact (hunmarked.ordinary b (List.mem_of_mem_drop (List.of_mem_zip hab).2)).2 hb
  have halternating := alternating_runsOf (hnobreak _).1 (hnobreak _).2
  have htext := textOf_runsOf t
  refine sentence_of_unmarked halternating (by rwa [htext]) (fun hnil => ?_) (fun r hr => ?_) ?_
  · rw [hnil] at htext
    exact hne htext.symm
  · obtain ⟨rest, hruns⟩ := List.head?_eq_some_iff.mp hr
    have hsound := halternating.sound r (hruns ▸ List.mem_cons_self)
    rw [hruns, textOf_cons] at htext
    cases r with
    | word w => rfl
    | spaces n =>
        obtain ⟨n, rfl⟩ := Nat.exists_eq_succ_of_ne_zero hsound
        exact absurd (htext ▸ rfl) hhead
    | breaks n =>
        obtain ⟨n, rfl⟩ := Nat.exists_eq_succ_of_ne_zero hsound
        exact absurd rfl (hunmarked.ordinary '\n' (htext ▸ List.mem_cons_self)).2
  · rw [htext]
    exact fun hmark => hopening (hmark ▸ by decide)

end FeedSieve.Yaml
