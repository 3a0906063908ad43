/-
Numbers that are written are read again.

A number is written as a word of digits and few other characters, and shows
its form: an integer has no point (`value_ofNat`), a double always has one
(`value_writeDoubleNumber`), because it is put before an exponent where the
shortest form has none. There a zero goes with it, and the number stays the
same (`double?_writeDoubleNumber`).
-/
import FeedSieve.Proofs.Number.Nearest
import FeedSieve.Proofs.Text.Numerals
import FeedSieve.Proofs.Yaml.Records

namespace FeedSieve.Yaml

open Number (Double)
open Text (isPlainDigit)

variable {c : Char} {t w whole fraction exponent : Text} {n : Nat}

-- ============================================================ numerals

/-- The digits. -/
def digitChars : Text := "0123456789"

/-- The characters of numbers. -/
def numeralChars : Text := "0123456789.e+-"

theorem mem_digitChars (h : isPlainDigit c = true) : c ∈ digitChars := by
  obtain ⟨hlow, hhigh⟩ := Bool.and_eq_true_iff.mp h
  have hlow : 0x30 ≤ c.toNat := of_decide_eq_true hlow
  have hhigh : c.toNat ≤ 0x39 := of_decide_eq_true hhigh
  have hall : ∀ n < 0x3a, 0x30 ≤ n → Char.ofNat n ∈ digitChars := by decide
  rw [← Char.ofNat_toNat c]
  exact hall _ (Nat.lt_succ_of_le hhigh) hlow

theorem mem_numeralChars (h : isPlainDigit c = true) : c ∈ numeralChars :=
  List.mem_append_left ".e+-".toList (mem_digitChars h)

/-- A word is read as it is. -/
theorem readsAs_word (hw : OpeningWord w) : ReadsAs w w true := by
  have hreads := readsAs_sentence (.last hw.toPlainWord) hw 0 true
  rwa [writeRuns, if_neg Bool.false_ne_true, writeRuns, List.append_nil, textOf_cons, textOf_nil,
    List.append_nil] at hreads

/-- Numbers are words that can begin a scalar. -/
theorem openingWord_of_numeral (hne : w ≠ []) (hchars : ∀ c ∈ w, c ∈ numeralChars)
    (hsign : first w ≠ '-') : OpeningWord w := by
  have hall : ∀ c ∈ numeralChars, endsToken c = false ∧ c ∉ openingMarks ∧ c ≠ ':' ∧ c ≠ '?' := by
    decide
  have hhead : first w ∈ w := by
    obtain ⟨c, w, rfl⟩ := List.exists_cons_of_ne_nil hne
    exact List.mem_cons_self
  obtain ⟨-, hmarks, -, hquestion⟩ := hall _ (hchars _ hhead)
  refine ⟨⟨hne, fun c hc => (hall c (hchars c hc)).1, fun h => hmarks (h ▸ by decide),
    fun hlast => ?_⟩, hmarks, fun h => hsign (h ▸ rfl), fun h => hquestion (h ▸ rfl)⟩
  exact (hall _ (hchars _ (List.mem_of_getLast? hlast))).2.2.1 rfl

/-- What begins with a digit or a point has no sign, and is no word for a truth value. -/
theorem starts_facts (h : first t ∈ '.' :: digitChars) :
    Form.unsigned t = t ∧ Form.boolWords.contains (String.ofList t) = false := by
  constructor
  · unfold Form.unsigned
    split
    · exact absurd (show '-' ∈ '.' :: digitChars from h) (by decide)
    · exact absurd (show '+' ∈ '.' :: digitChars from h) (by decide)
    · rfl
  · have hwords : ∀ word ∈ Form.boolWords, first word.toList ∉ '.' :: digitChars := by decide
    rw [Bool.eq_false_iff, ne_eq, List.contains_iff_mem]
    intro hmem
    have hnot := hwords _ hmem
    rw [String.toList_ofList] at hnot
    exact hnot h

-- ============================================================ integers

/-- The digits of a number. -/
theorem ofNat_cons (n : Nat) : ∃ c rest, Text.ofNat n = c :: rest ∧ c ∈ digitChars
    ∧ (∀ d ∈ Text.ofNat n, d ∈ digitChars) ∧ (n ≠ 0 → c ≠ '0') := by
  obtain ⟨c, rest, hcons⟩ := List.exists_cons_of_ne_nil (Text.ofNat_ne_nil n)
  have hall : ∀ d ∈ Text.ofNat n, d ∈ digitChars := fun d hd =>
    mem_digitChars (Text.isPlainDigit_of_mem_ofNat hd)
  refine ⟨c, rest, hcons, hall c (hcons ▸ List.mem_cons_self), hall, fun hn => ?_⟩
  have hhead : (Nat.toDigits 10 n).head? ≠ some '0' := by
    clear hcons hall
    induction n using Nat.base_induction 10 (by decide) with
    | single m hm =>
        have hdigit : ∀ d < 10, d ≠ 0 → Nat.digitChar d ≠ '0' := by decide
        rw [Nat.toDigits_of_lt_base hm]
        exact fun h => hdigit m hm hn (Option.some.inj h)
    | digit m k hk hm ih =>
        rw [← Nat.toDigits_append_toDigits (by decide) hm hk,
          List.head?_append_of_ne_nil _ Nat.toDigits_ne_nil]
        exact ih hm.ne'
  rintro rfl
  exact hhead (congrArg List.head? hcons)

/-- What they begin with is a digit, and not zero unless the number is. -/
theorem first_ofNat (h : Text.ofNat n = c :: t) :
    c ∈ digitChars ∧ (n ≠ 0 → c ≠ '0') := by
  obtain ⟨d, rest', hcons, hd, -, hzero⟩ := ofNat_cons n
  obtain ⟨rfl, -⟩ := List.cons.inj (hcons.symm.trans h)
  exact ⟨hd, hzero⟩

/-- An integer is read as it is written. -/
theorem readsAs_ofNat (n : Nat) : ReadsAs (Text.ofNat n) (Text.ofNat n) true := by
  refine readsAs_word (openingWord_of_numeral (Text.ofNat_ne_nil n)
    (fun c hc => mem_numeralChars (Text.isPlainDigit_of_mem_ofNat hc)) fun h => ?_)
  obtain ⟨c, rest, hcons, hc, -⟩ := ofNat_cons n
  rw [hcons] at h
  have hminus : c = '-' := h
  exact absurd (hminus ▸ hc) (by decide)

/-- Digits without a point have not the form of a double. -/
theorem isFloat_digits (hne : t ≠ []) (hall : ∀ d ∈ t, d ∈ digitChars) :
    Form.isFloat t = false := by
  obtain ⟨c, rest, rfl⟩ := List.exists_cons_of_ne_nil hne
  have hc : c ∈ digitChars := hall c List.mem_cons_self
  have hspecial (words : List String) (hwords : ∀ word ∈ words, first word.toList = '.') :
      words.contains (String.ofList (c :: rest)) = false := by
    rw [Bool.eq_false_iff, ne_eq, List.contains_iff_mem]
    intro hmem
    have hpoint := hwords _ hmem
    rw [String.toList_ofList] at hpoint
    have hpoint : c = '.' := hpoint
    exact absurd (hpoint ▸ hc) (by decide)
  have hcut : Text.cut '.' (c :: rest) = (c :: rest, none) := by
    refine Text.cut_eq_none_iff.mpr ⟨rfl, fun hmem => ?_⟩
    exact absurd (hall _ hmem) (by decide)
  have hunsigned := (starts_facts (t := c :: rest) (List.mem_cons_of_mem _ hc)).1
  unfold Form.isFloat
  simp only [hunsigned, hspecial [".inf", ".Inf", ".INF"] (by decide),
    hspecial [".nan", ".NaN", ".NAN"] (by decide), Bool.or_self, Bool.false_eq_true, if_false]
  split
  · rename_i heq
    have hpoint := (List.cons.inj heq).1
    exact absurd (hpoint ▸ hc) (by decide)
  · rw [hcut]

/-- It shows the form of one. -/
theorem ofForm_ofNat (n : Nat) : Tag.ofForm (Text.ofNat n) = .int := by
  obtain ⟨c, rest, hcons, hc, hall, -⟩ := ofNat_cons n
  have hfloat := isFloat_digits (Text.ofNat_ne_nil n) hall
  obtain ⟨hunsigned, hbool⟩ := starts_facts (t := Text.ofNat n) (by
    rw [hcons]
    exact List.mem_cons_of_mem _ hc)
  have hint : Form.isInt (Text.ofNat n) = true := by
    by_cases hn : n = 0
    · rw [hn]
      decide
    · have hcolon : ':' ∉ Text.ofNat n := fun hmem => absurd (hall _ hmem) (by decide)
      have hdigits : Form.isDigits (Text.ofNat n) = true := by
        have hplain : ∀ d ∈ Text.ofNat n, isPlainDigit d = true := fun d hd =>
          Text.isPlainDigit_of_mem_ofNat hd
        rw [hcons] at hplain ⊢
        obtain ⟨hc, hrest⟩ := List.forall_mem_cons.mp hplain
        rw [Form.isDigits, hc, Bool.true_and, List.all_eq_true]
        intro d hd
        rw [Form.isSpacedDigit, hrest d hd, Bool.true_or]
      have hsplit := Text.splitOn_of_notMem hcolon
      unfold Form.isInt
      rw [hunsigned]
      split
      · rename_i heq
        exact absurd rfl ((first_ofNat heq).2 hn)
      · rename_i heq
        exact absurd rfl ((first_ofNat heq).2 hn)
      · rfl
      · rename_i heq
        exact absurd rfl ((first_ofNat heq).2 hn)
      · rw [hsplit]
        simp only [hdigits, List.all_nil, Bool.and_self]
  unfold Tag.ofForm
  simp only [hbool, hfloat, hint, Bool.false_eq_true, if_false, if_true]

/-- Its value is the number, unless there are more digits than are read. -/
theorem intValue_ofNat (h : (Text.ofNat n).length ≤ Text.maxDigits) :
    intValue (Text.ofNat n) = .ok n := by
  obtain ⟨-, -, -, -, hall, -⟩ := ofNat_cons n
  have hnone (m : Char) (hm : m ∉ digitChars) : m ∉ Text.ofNat n := fun hmem => hm (hall m hmem)
  have hfilter : (Text.ofNat n).filter (· != '_') = Text.ofNat n := by
    rw [List.filter_eq_self]
    intro d hd
    rw [bne_iff_ne]
    rintro rfl
    exact hnone '_' (by decide) hd
  have hinteger : Text.integer (Text.ofNat n) = .ok n := by
    have hread : (Text.integer (Text.ofNat n)).toOption = some (n : Int) :=
      (Text.integer?_ofInt_eq_some_iff n).mpr h
    cases hresult : Text.integer (Text.ofNat n) with
    | error fault => rw [hresult] at hread; cases hread
    | ok i => rw [hresult] at hread; exact congrArg _ (Option.some.inj hread)
  have hmagnitude : magnitude (Text.ofNat n) = .ok n := by
    by_cases hn : n = 0
    · rw [hn]
      rfl
    · have hcolon : (Text.ofNat n).contains ':' = false := by
        rw [Bool.eq_false_iff, ne_eq, List.contains_iff_mem]
        exact hnone ':' (by decide)
      unfold magnitude
      split
      · rename_i heq
        exact absurd heq (Text.ofNat_ne_nil n)
      · rename_i heq
        exact absurd rfl ((first_ofNat heq).2 hn)
      · rename_i heq
        exact absurd rfl ((first_ofNat heq).2 hn)
      · rename_i heq
        exact absurd rfl ((first_ofNat heq).2 hn)
      · rename_i heq
        exact absurd rfl ((first_ofNat heq).2 hn)
      · rw [hcolon, if_neg Bool.false_ne_true, decimal, hinteger]
  unfold intValue
  rw [hfilter]
  split
  · rename_i heq
    exact absurd heq (Text.ofNat_ne_nil n)
  · rename_i heq
    exact absurd (first_ofNat heq).1 (by decide)
  · rename_i heq
    exact absurd (first_ofNat heq).1 (by decide)
  · exact hmagnitude

/-- So an integer that is written is read again. -/
theorem value_ofNat (h : (Text.ofNat n).length ≤ Text.maxDigits) :
    scalarValue (Tag.ofForm (Text.ofNat n)) (Text.ofNat n) = .ok (.int n) := by
  rw [ofForm_ofNat, scalarValue, intValue_ofNat h]
  rfl

-- ============================================================= doubles

/-- An exponent, or nothing. -/
inductive IsExponent : Text → Prop where
  | none : IsExponent []
  | some {sign : Char} {digits : Text} (hsign : sign = '-' ∨ sign = '+') (hne : digits ≠ [])
      (hdigits : ∀ c ∈ digits, isPlainDigit c = true) : IsExponent ('e' :: sign :: digits)

/-- A decimal: digits before and behind a point, and perhaps an exponent. -/
structure IsDecimal (whole fraction exponent : Text) : Prop where
  inhabited : whole ≠ [] ∨ fraction ≠ []
  whole : ∀ c ∈ whole, isPlainDigit c = true
  fraction : ∀ c ∈ fraction, isPlainDigit c = true
  exponent : IsExponent exponent

/-- The characters of a decimal. -/
theorem IsDecimal.chars (h : IsDecimal whole fraction exponent) :
    ∀ c ∈ whole ++ '.' :: (fraction ++ exponent), c ∈ numeralChars := by
  have hexponent : ∀ c ∈ exponent, c ∈ numeralChars := by
    cases h.exponent with
    | none => exact nofun
    | some hsign _ hdigits =>
        simp only [List.forall_mem_cons]
        refine ⟨by decide, ?_, fun c hc => mem_numeralChars (hdigits c hc)⟩
        rcases hsign with rfl | rfl <;> decide
  simp only [List.forall_mem_append, List.forall_mem_cons]
  exact ⟨fun c hc => mem_numeralChars (h.whole c hc), by decide,
    fun c hc => mem_numeralChars (h.fraction c hc), hexponent⟩

/-- A decimal begins with a digit or the point. -/
theorem IsDecimal.starts (h : IsDecimal whole fraction exponent) :
    first (whole ++ '.' :: (fraction ++ exponent)) ∈ '.' :: digitChars := by
  cases whole with
  | nil => exact List.mem_cons_self
  | cons c whole => exact List.mem_cons_of_mem _ (mem_digitChars (h.whole c List.mem_cons_self))

/-- Digits and an exponent can stand behind a point. -/
theorem isFraction_append (hfraction : ∀ c ∈ fraction, isPlainDigit c = true)
    (hexponent : IsExponent exponent) : Form.isFraction (fraction ++ exponent) = true := by
  have hspaced : ∀ c ∈ fraction, Form.isSpacedDigit c = true := fun c hc => by
    rw [Form.isSpacedDigit, hfraction c hc, Bool.true_or]
  have hhead : ∀ c, exponent.head? = some c → Form.isSpacedDigit c = false := fun c hc => by
    cases hexponent with
    | none => cases hc
    | some => rw [← Option.some.inj hc]; decide
  have hform : Form.isExponent exponent = true := by
    cases hexponent with
    | none => rfl
    | @some sign digits hsign hne hdigits =>
        have hrun : Form.isRun isPlainDigit digits = true := by
          rw [Form.isRun, List.isEmpty_eq_false_iff.mpr hne, List.all_eq_true.mpr hdigits]
          rfl
        rw [Form.isExponent, hrun]
        rcases hsign with rfl | rfl <;> rfl
  rw [Form.isFraction, (Text.takeWhile_dropWhile_append hspaced hhead).2, hform]

/-- It shows the form of a double. -/
theorem IsDecimal.ofForm (h : IsDecimal whole fraction exponent) :
    Tag.ofForm (whole ++ '.' :: (fraction ++ exponent)) = .float := by
  obtain ⟨hunsigned, hbool⟩ := starts_facts h.starts
  have hfloat : Form.isFloat (whole ++ '.' :: (fraction ++ exponent)) = true := by
    unfold Form.isFloat
    rw [hunsigned]
    dsimp only
    split
    · rfl
    · cases whole with
      | nil =>
          obtain ⟨d, rest, rfl⟩ := List.exists_cons_of_ne_nil (h.inhabited.resolve_left (· rfl))
          obtain ⟨hd, hrest⟩ := List.forall_mem_cons.mp h.fraction
          show (isPlainDigit d && Form.isFraction (rest ++ exponent)) = true
          rw [hd, isFraction_append hrest h.exponent]
          rfl
      | cons c whole =>
          obtain ⟨hc, hwhole⟩ := List.forall_mem_cons.mp h.whole
          have hnopoint : '.' ∉ c :: whole := fun hmem => absurd (h.whole _ hmem) (by decide)
          have hcut := Text.cut_eq_some_iff.mpr
            ⟨rfl (a := c :: whole ++ '.' :: (fraction ++ exponent)), hnopoint⟩
          have hdigits : Form.isDigits (c :: whole) = true := by
            rw [Form.isDigits, hc, Bool.true_and, List.all_eq_true]
            intro d hd
            rw [Form.isSpacedDigit, hwhole d hd, Bool.true_or]
          split
          · rename_i heq
            exact absurd (List.cons.inj heq).1 fun hpoint => hnopoint (hpoint ▸ List.mem_cons_self)
          · rw [hcut]
            simp only [hdigits, isFraction_append h.fraction h.exponent, Bool.and_self,
              Bool.true_or]
  unfold Tag.ofForm
  simp only [hbool, hfloat, Bool.false_eq_true, if_false, if_true]

/-- What is laid out is a decimal, or digits with an exponent and no point. -/
theorem layOut_cases {digits : Text} (hdigits : ∀ c ∈ digits, isPlainDigit c = true) (point : Int) :
    (∃ whole fraction exponent, IsDecimal whole fraction exponent
        ∧ Double.layOut digits point = whole ++ '.' :: (fraction ++ exponent))
      ∨ ∃ exponent, exponent ≠ [] ∧ IsExponent exponent ∧ digits.length ≤ 1
        ∧ Double.layOut digits point = digits ++ exponent := by
  have hzeros (n : Nat) : ∀ c ∈ List.replicate n '0', isPlainDigit c = true := fun c hc =>
    List.eq_of_mem_replicate hc ▸ rfl
  unfold Double.layOut
  split
  · obtain ⟨sign, hsign, hwritten⟩ : ∃ sign : Char, (sign = '-' ∨ sign = '+')
        ∧ (if point - 1 < 0 then "-" else "+" : Text) = [sign] := by
      split
      · exact ⟨'-', .inl rfl, rfl⟩
      · exact ⟨'+', .inr rfl, rfl⟩
    have hexponent := IsExponent.some hsign (Text.padded_ne_nil 2 (point - 1).natAbs)
      (Text.plainDigits_padded 2 (point - 1).natAbs)
    dsimp only
    rw [hwritten]
    cases hdrop : digits.drop 1 with
    | nil =>
        have hshort : digits.length ≤ 1 := List.drop_eq_nil_iff.mp hdrop
        refine .inr ⟨_, List.cons_ne_nil _ _, hexponent, hshort, ?_⟩
        rw [List.take_of_length_le hshort]
        simp [Text.concat]
    | cons d rest =>
        refine .inl ⟨digits.take 1, d :: rest, _, ⟨.inr (List.cons_ne_nil _ _),
          fun c hc => hdigits c (List.mem_of_mem_take hc),
          fun c hc => hdigits c (List.mem_of_mem_drop (hdrop ▸ hc)), hexponent⟩, ?_⟩
        simp [Text.concat]
  · split
    · refine .inl ⟨['0'], List.replicate (-point).toNat '0' ++ digits, [], ⟨.inl (by simp),
        by decide, List.forall_mem_append.mpr ⟨hzeros _, hdigits⟩, .none⟩, ?_⟩
      simp [Text.concat]
    · dsimp only
      split
      · refine .inl ⟨digits ++ List.replicate (point.toNat - digits.length) '0', ['0'], [],
          ⟨.inr (by simp), List.forall_mem_append.mpr ⟨hdigits, hzeros _⟩, by decide, .none⟩, ?_⟩
        simp [Text.concat]
      · rename_i hlong
        have hrest : digits.drop point.toNat ≠ [] := fun hnil =>
          hlong (List.drop_eq_nil_iff.mp hnil)
        refine .inl ⟨digits.take point.toNat, digits.drop point.toNat, [], ⟨.inr hrest,
          fun c hc => hdigits c (List.mem_of_mem_take hc),
          fun c hc => hdigits c (List.mem_of_mem_drop hc), .none⟩, ?_⟩
        simp [Text.concat]

/-- The point and the zero are put before an exponent. -/
theorem flatMap_pointed (hwhole : ∀ c ∈ whole, isPlainDigit c = true)
    (hexponent : IsExponent exponent) (hne : exponent ≠ []) :
    (whole ++ exponent).flatMap (fun c => if c = 'e' then ".0e".toList else [c])
      = whole ++ '.' :: (['0'] ++ exponent) := by
  have hsame (t : Text) (ht : 'e' ∉ t) :
      t.flatMap (fun c => if c = 'e' then ".0e".toList else [c]) = t := by
    induction t with
    | nil => rfl
    | cons c t ih =>
        rw [List.mem_cons, not_or] at ht
        rw [List.flatMap_cons, if_neg (Ne.symm ht.1), ih ht.2]
        rfl
  have hdigit {t : Text} (ht : ∀ c ∈ t, isPlainDigit c = true) : 'e' ∉ t := fun hmem =>
    absurd (ht _ hmem) (by decide)
  cases hexponent with
  | none => exact absurd rfl hne
  | @some sign digits hsign _ hdigits =>
      have hrest : 'e' ∉ sign :: digits := by
        rw [List.mem_cons, not_or]
        refine ⟨?_, hdigit hdigits⟩
        rcases hsign with rfl | rfl <;> decide
      rw [List.flatMap_append, hsame whole (hdigit hwhole), List.flatMap_cons, hsame _ hrest]
      rfl

/-- A double above zero is infinite or finite and not zero. -/
theorem isPositive_cases {d : Double} (h : d.isPositive = true) :
    d = .infinite false ∨ ∃ mantissa power, mantissa ≠ 0 ∧ d = .finite false mantissa power := by
  cases d with
  | finite negative mantissa power =>
      obtain ⟨rfl, hmantissa⟩ : negative = false ∧ mantissa ≠ 0 := by
        simpa [Double.isPositive] using h
      exact .inr ⟨mantissa, power, hmantissa, rfl⟩
  | infinite negative =>
      obtain rfl : negative = false := by simpa [Double.isPositive] using h
      exact .inl rfl
  | nan => cases h

/-- How a finite double above zero is written, and its shortest form. -/
theorem exists_decimal {mantissa : Nat} (hmantissa : mantissa ≠ 0) (power : Int) :
    ∃ whole fraction exponent, IsDecimal whole fraction exponent
      ∧ writeDoubleNumber (.finite false mantissa power) = whole ++ '.' :: (fraction ++ exponent)
      ∧ ((Double.finite false mantissa power).shortest = whole ++ '.' :: (fraction ++ exponent)
        ∨ whole.length ≤ 1 ∧ fraction = ['0'] ∧ exponent ≠ []
          ∧ (Double.finite false mantissa power).shortest = whole ++ exponent) := by
  have hdigits : ∀ c ∈ Text.stripEnd (· == '0')
      (Text.ofNat (Double.shortestDigits mantissa power).1), isPlainDigit c = true := fun c hc => by
    have hmem := (List.dropWhile_sublist _).mem (List.mem_reverse.mp hc)
    exact Text.isPlainDigit_of_mem_ofNat (List.mem_reverse.mp hmem)
  have hshortest : (Double.finite false mantissa power).shortest = Double.layOut
      (Text.stripEnd (· == '0') (Text.ofNat (Double.shortestDigits mantissa power).1))
      (Double.shortestDigits mantissa power).2 := by
    unfold Double.shortest
    simp only [if_neg hmantissa, Bool.false_eq_true, if_false]
  have hwritten : writeDoubleNumber (.finite false mantissa power)
      = if (Double.finite false mantissa power).shortest.contains '.' then
          (Double.finite false mantissa power).shortest
        else (Double.finite false mantissa power).shortest.flatMap
          fun c => if c = 'e' then ".0e".toList else [c] := rfl
  rw [hwritten, hshortest]
  obtain ⟨whole, fraction, exponent, hdecimal, hlaid⟩ | ⟨exponent, hne, hexponent, hshort, hlaid⟩ :=
    layOut_cases hdigits (Double.shortestDigits mantissa power).2
  · refine ⟨whole, fraction, exponent, hdecimal, ?_, .inl hlaid⟩
    rw [hlaid, if_pos (by simp)]
  · refine ⟨_, ['0'], exponent, ⟨.inr (by simp), hdigits, by decide, hexponent⟩, ?_,
      .inr ⟨hshort, rfl, hne, hlaid⟩⟩
    have hpoint : '.' ∉ exponent := by
      cases hexponent with
      | none => exact List.not_mem_nil
      | some hsign _ hdigits =>
          simp only [List.mem_cons, not_or]
          refine ⟨by decide, ?_, fun hmem => absurd (hdigits _ hmem) (by decide)⟩
          rcases hsign with rfl | rfl <;> decide
    rw [hlaid, if_neg, flatMap_pointed hdigits hexponent hne]
    rw [List.contains_iff_mem, List.mem_append]
    exact fun hmem => hmem.elim (fun h => absurd (hdigits _ h) (by decide)) hpoint

/-- What begins with a digit, a point or an exponent is read as a decimal, if at all. -/
theorem double?_of_starts (h : first t ∈ 'e' :: '.' :: digitChars) :
    Lax.double? t = Lax.decimalDouble? false t := by
  obtain ⟨c, rest, rfl⟩ : ∃ c rest, t = c :: rest := by
    cases t with
    | nil => exact absurd h (by decide)
    | cons c rest => exact ⟨c, rest, rfl⟩
  have hc : c ∈ 'e' :: '.' :: digitChars := h
  have hletters : ∀ c ∈ 'e' :: '.' :: digitChars, c.toLower ≠ 'i' ∧ c.toLower ≠ 'n' := by decide
  have hword (word : Text) (hword : first word = 'i' ∨ first word = 'n') :
      ¬ Text.lowerPlain (c :: rest) = word := by
    rintro rfl
    exact hword.elim (hletters c hc).1 (hletters c hc).2
  unfold Lax.double?
  split
  rename_i negative body hbody
  split at hbody
  · rename_i heq
    exact absurd ((List.cons.inj heq).1 ▸ hc) (by decide)
  · rename_i heq
    exact absurd ((List.cons.inj heq).1 ▸ hc) (by decide)
  · obtain ⟨rfl, rfl⟩ := Prod.mk.inj hbody
    simp only [hword "inf".toList (.inl rfl), hword "infinity".toList (.inl rfl),
      hword "nan".toList (.inr rfl), decide_false, Bool.or_self, Bool.false_eq_true, if_false]

/-- The exponent that is written. -/
def exponentOf : Text → Int
  | 'e' :: '-' :: digits => -(Lax.plainValue digits : Int)
  | 'e' :: _ :: digits => Lax.plainValue digits
  | _ => 0

/-- Digits are not refused for an exponent. -/
theorem noRun_digits (hne : t ≠ []) (ht : ∀ c ∈ t, isPlainDigit c = true) :
    (t.isEmpty || !t.all isPlainDigit) = false := by
  rw [List.isEmpty_eq_false_iff.mpr hne, List.all_eq_true.mpr ht]
  rfl

/-- The double that a decimal spells. -/
theorem decimalDouble?_decimal (h : IsDecimal whole fraction exponent) :
    Lax.decimalDouble? false (whole ++ '.' :: (fraction ++ exponent))
      = some (Double.ofDecimal false (Lax.plainValue (whole ++ fraction))
          (exponentOf exponent - fraction.length)) := by
  have hpoint : ∀ c, ('.' :: (fraction ++ exponent)).head? = some c → isPlainDigit c = false :=
    fun c hc => Option.some.inj hc ▸ rfl
  have hmark : ∀ c, exponent.head? = some c → isPlainDigit c = false := fun c hc => by
    cases h.exponent with
    | none => cases hc
    | some => rw [← Option.some.inj hc]; rfl
  obtain ⟨hwhole, hrest⟩ := Text.takeWhile_dropWhile_append h.whole hpoint
  obtain ⟨hfraction, hleft⟩ := Text.takeWhile_dropWhile_append h.fraction hmark
  have hinhabited : (whole.isEmpty && fraction.isEmpty) = false := by
    rcases h.inhabited with hne | hne <;> simp [List.isEmpty_eq_false_iff.mpr hne]
  unfold Lax.decimalDouble?
  simp only [hwhole, hrest, hfraction, hleft, hinhabited, Bool.false_eq_true, if_false]
  cases h.exponent with
  | none => rfl
  | @some sign digits hsign hne hdigits =>
      rcases hsign with rfl | rfl <;> simp [noRun_digits hne hdigits, exponentOf]

/-- The double that digits and an exponent spell. -/
theorem decimalDouble?_exponent (hwhole : ∀ c ∈ whole, isPlainDigit c = true)
    (hexponent : IsExponent exponent) (hne : exponent ≠ []) :
    Lax.decimalDouble? false (whole ++ exponent)
      = if whole.isEmpty then none
        else some (Double.ofDecimal false (Lax.plainValue whole) (exponentOf exponent)) := by
  cases hexponent with
  | none => exact absurd rfl hne
  | @some sign digits hsign hdigitsNe hdigits =>
      have hmark : ∀ c, ('e' :: sign :: digits).head? = some c → isPlainDigit c = false :=
        fun c hc => Option.some.inj hc ▸ rfl
      obtain ⟨htaken, hrest⟩ := Text.takeWhile_dropWhile_append hwhole hmark
      unfold Lax.decimalDouble?
      simp only [htaken, hrest]
      rcases hsign with rfl | rfl <;> simp [noRun_digits hdigitsNe hdigits, exponentOf]

/-- A zero more makes a number ten times as great. -/
theorem plainValue_append_zero (t : Text) :
    Lax.plainValue (t ++ ['0']) = 10 * Lax.plainValue t := by
  have hzero : Text.digit? '0' = some 0 := by decide
  unfold Lax.plainValue Text.digitsValue
  rw [List.foldl_append, List.foldl_cons, List.foldl_nil, hzero]
  rfl

/-- One digit spells a number below ten. -/
theorem plainValue_lt_ten (hshort : t.length ≤ 1) (ht : ∀ c ∈ t, isPlainDigit c = true) :
    Lax.plainValue t < 10 := by
  have hvalues : ∀ c ∈ digitChars, Lax.plainValue [c] < 10 := by decide
  cases t with
  | nil => decide
  | cons c t =>
      obtain rfl := List.eq_nil_of_length_eq_zero (Nat.le_zero.mp (Nat.le_of_succ_le_succ hshort))
      exact hvalues c (mem_digitChars (ht c List.mem_cons_self))

/-- What is written reads back as the double if its shortest form does. -/
theorem double?_writeDoubleNumber {d : Double} (hpositive : d.isPositive = true)
    (hfinite : d.isFinite = true) (h : Lax.double? d.shortest = some d) :
    Lax.double? (writeDoubleNumber d) = some d := by
  obtain rfl | ⟨mantissa, power, hmantissa, rfl⟩ := isPositive_cases hpositive
  · cases hfinite
  · obtain ⟨whole, fraction, exponent, hdecimal, hwritten, hshortest⟩ :=
      exists_decimal hmantissa power
    rw [hwritten]
    rcases hshortest with hsame | ⟨hshort, rfl, hne, hshortest⟩
    · rwa [hsame] at h
    · -- one digit and an exponent: the zero behind the point makes up for the exponent
      have hstarts : first (whole ++ exponent) ∈ 'e' :: '.' :: digitChars := by
        cases whole with
        | nil =>
            cases hdecimal.exponent with
            | none => exact absurd rfl hne
            | some => exact List.mem_cons_self
        | cons c whole =>
            exact List.mem_cons_of_mem _ (List.mem_cons_of_mem _
              (mem_digitChars (hdecimal.whole c List.mem_cons_self)))
      rw [hshortest, double?_of_starts hstarts,
        decimalDouble?_exponent hdecimal.whole hdecimal.exponent hne] at h
      split at h
      · cases h
      · have hvalue := Option.some.inj h
        rw [double?_of_starts (List.mem_cons_of_mem _ hdecimal.starts),
          decimalDouble?_decimal hdecimal, plainValue_append_zero]
        rw [← hvalue] at hpositive hfinite
        rw [← hvalue]
        exact congrArg some (Double.ofDecimal_shift
          (plainValue_lt_ten hshort hdecimal.whole) hpositive hfinite)

/-- A double above zero is read as it is written. -/
theorem readsAs_writeDoubleNumber {d : Double} (hpositive : d.isPositive = true) :
    ReadsAs (writeDoubleNumber d) (writeDoubleNumber d) true := by
  obtain rfl | ⟨mantissa, power, hmantissa, rfl⟩ := isPositive_cases hpositive
  · have hword : OpeningWord (writeDoubleNumber (.infinite false)) :=
      ⟨⟨by decide, by decide, by decide, by decide⟩, by decide, by decide⟩
    exact readsAs_word hword
  · obtain ⟨whole, fraction, exponent, hdecimal, hwritten, -⟩ :=
      exists_decimal hmantissa power
    rw [hwritten]
    refine readsAs_word (openingWord_of_numeral (by simp) hdecimal.chars fun hminus => ?_)
    have hstarts := hdecimal.starts
    rw [hminus] at hstarts
    exact absurd hstarts (by decide)

/-- The value of a decimal is the double that it spells. -/
theorem floatValue_decimal (h : IsDecimal whole fraction exponent) {mantissa : Nat} {power : Int}
    (hreads : Lax.double? (whole ++ '.' :: (fraction ++ exponent))
      = some (.finite false mantissa power)) :
    floatValue (whole ++ '.' :: (fraction ++ exponent)) = .ok (.finite false mantissa power) := by
  have hchars := h.chars
  have hunsigned := (starts_facts h.starts).1
  have hstarts := h.starts
  have hne : whole ++ '.' :: (fraction ++ exponent) ≠ [] := by simp
  generalize whole ++ '.' :: (fraction ++ exponent) = t at *
  have hall : ∀ c ∈ numeralChars, (c != '_') = true ∧ c.toLower = c ∧ Text.isBlank c = false
      ∧ plainDigitOf c = c := by
    decide
  have hfilter : t.filter (· != '_') = t :=
    List.filter_eq_self.mpr fun c hc => (hall c (hchars c hc)).1
  have hlower : Text.lowerPlain t = t := by
    unfold Text.lowerPlain
    rw [List.map_congr_left fun c hc => (hall c (hchars c hc)).2.1, List.map_id']
  have htrim : Text.trim t = t := by
    refine Text.Firm.strip ⟨hne, fun c hc => ?_, fun c hc => ?_⟩
    · exact (hall c (hchars c (List.mem_of_head? hc))).2.2.1
    · exact (hall c (hchars c (List.mem_of_getLast? hc))).2.2.1
  have hplain : t.map plainDigitOf = t := by
    rw [List.map_congr_left fun c hc => (hall c (hchars c hc)).2.2.2, List.map_id']
  have hsign : ¬ t.head? = some '-' := fun hhead => by
    obtain ⟨rest, rfl⟩ := List.head?_eq_some_iff.mp hhead
    exact absurd (show '-' ∈ '.' :: digitChars from hstarts) (by decide)
  have hspecial {word : Text} (c : Char) (hc : c ∈ word) (hnot : c ∉ numeralChars) :
      ¬ t = word := by
    rintro rfl
    exact hnot (hchars c hc)
  have hinfinite : ¬ t = ".inf".toList := hspecial 'i' (by decide) (by decide)
  have hnan : ¬ t = ".nan".toList := hspecial 'n' (by decide) (by decide)
  have hcolon : t.contains ':' = false := by
    rw [Bool.eq_false_iff, ne_eq, List.contains_iff_mem]
    exact fun hmem => absurd (hchars _ hmem) (by decide)
  unfold floatValue
  simp only [hfilter, hlower, hunsigned, List.isEmpty_eq_false_iff.mpr hne,
    if_neg hinfinite, if_neg hnan, hcolon, floatPart, htrim, hplain, hreads, decide_eq_false hsign,
    Bool.false_eq_true, if_false, bind, Except.bind]
  rfl

/-- Its value is the double, if its shortest form reads back. -/
theorem value_writeDoubleNumber {d : Double} (hpositive : d.isPositive = true)
    (h : d.isFinite = true → Lax.double? d.shortest = some d) :
    scalarValue (Tag.ofForm (writeDoubleNumber d)) (writeDoubleNumber d) = .ok (.double d) := by
  obtain rfl | ⟨mantissa, power, hmantissa, rfl⟩ := isPositive_cases hpositive
  · rfl
  · have hreads := double?_writeDoubleNumber hpositive rfl (h rfl)
    obtain ⟨whole, fraction, exponent, hdecimal, hwritten, -⟩ :=
      exists_decimal hmantissa power
    rw [hwritten] at hreads ⊢
    rw [hdecimal.ofForm, scalarValue, floatValue_decimal hdecimal hreads]
    rfl

/-- Numbers are visible ASCII. -/
theorem isOrdinary_numeral (h : ∀ c ∈ t, c ∈ numeralChars) : ∀ c ∈ t, isOrdinary c = true := by
  have hall : ∀ c ∈ numeralChars, isOrdinary c = true := by decide
  exact fun c hc => hall c (h c hc)

theorem isOrdinary_writeDoubleNumber {d : Double} (hpositive : d.isPositive = true) :
    ∀ c ∈ writeDoubleNumber d, isOrdinary c = true := by
  obtain rfl | ⟨mantissa, power, hmantissa, rfl⟩ := isPositive_cases hpositive
  · decide
  · obtain ⟨whole, fraction, exponent, hdecimal, hwritten, -⟩ :=
      exists_decimal hmantissa power
    rw [hwritten]
    exact isOrdinary_numeral hdecimal.chars

end FeedSieve.Yaml
