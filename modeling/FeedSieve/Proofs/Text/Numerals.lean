/-
Numerals that are written are read again.

A numeral is written with the digits `0` to `9`, most significant first, and
a minus sign in front of a negative number. Reading takes digits of any
script, blanks around them and underscores between them, of which a written
numeral has none; so it gives back the number, unless there are more digits
than are read (`integer?_ofInt_eq_some_iff`). Zeros in front of the digits
make no difference (`digitsValue_padded`), and neither does a plus sign
(`integer_signed`).
-/
import Mathlib.Data.Nat.Digits.Defs
import FeedSieve.Proofs.Text.Parts

namespace FeedSieve.Text

variable {c : Char} {t a b : Text} {n width : Nat}

-- ======================================================== plain digits

/-- Digits of the plain kind. -/
def PlainDigits (t : Text) : Prop := ∀ c ∈ t, isPlainDigit c = true

instance (t : Text) : Decidable (PlainDigits t) := List.decidableBAll _ t

/-- There are ten of them. -/
theorem exists_plainDigit (h : isPlainDigit c = true) : ∃ n < 10, c = Char.ofNat (0x30 + n) := by
  obtain ⟨hlo, hhi⟩ := Bool.and_eq_true_iff.mp h
  have hlo : 0x30 ≤ c.toNat := of_decide_eq_true hlo
  have hhi : c.toNat ≤ 0x39 := of_decide_eq_true hhi
  refine ⟨c.toNat - 0x30, by omega, ?_⟩
  rw [Nat.add_sub_cancel' hlo, Char.ofNat_toNat]

/-- A number is written with plain digits. -/
theorem isPlainDigit_of_mem_ofNat (h : c ∈ ofNat n) : isPlainDigit c = true :=
  Nat.isDigit_of_mem_toDigits (by decide) (by decide) h

theorem ofNat_ne_nil (n : Nat) : ofNat n ≠ [] := Nat.toDigits_ne_nil

/-- So is one with zeros in front. -/
theorem plainDigits_padded (width n : Nat) : PlainDigits (padded width n) := by
  intro c hc
  rcases List.mem_append.mp hc with hzero | hdigit
  · obtain rfl := List.eq_of_mem_replicate hzero
    decide
  · exact isPlainDigit_of_mem_ofNat hdigit

theorem padded_ne_nil (width n : Nat) : padded width n ≠ [] :=
  List.append_ne_nil_of_right_ne_nil _ (ofNat_ne_nil n)

/-- It is as wide as asked for, if the number is not wider. -/
theorem length_padded (hwidth : 0 < width) (h : n < 10 ^ width) :
    (padded width n).length = width := by
  have hlength : (Nat.toDigits 10 n).length ≤ width := Nat.toDigits_length 10 n width hwidth h
  unfold padded
  rw [List.length_append, List.length_replicate]
  omega

/-- The numbers that can be written, by their size. -/
theorem isWritable_iff : isWritable n = true ↔ n < 10 ^ maxDigits := by
  rw [isWritable, decide_eq_true_iff]
  exact Nat.length_toDigits_le_iff (by decide) (by decide)

/-- The plain digits are the first of all digits. -/
theorem digit?_of_isPlainDigit (h : isPlainDigit c = true) :
    digit? c = some (c.toNat - '0'.toNat) := by
  obtain ⟨hlo, hhi⟩ := Bool.and_eq_true_iff.mp h
  have hlo : 0x30 ≤ c.toNat := of_decide_eq_true hlo
  have hhi : c.toNat ≤ 0x39 := of_decide_eq_true hhi
  obtain ⟨others, hzeros⟩ : ∃ others, zeros = 0x30 :: others := ⟨zeros.tail, by decide⟩
  unfold digit?
  rw [hzeros, List.find?_cons_of_pos]
  · rfl
  · simp [hlo, Nat.lt_succ_of_le hhi]

theorem isDigit_of_isPlainDigit (h : isPlainDigit c = true) : isDigit c = true := by
  rw [isDigit, digit?_of_isPlainDigit h]
  rfl

/-- What plain digits spell. -/
theorem digitsValue_eq (h : PlainDigits t) : digitsValue t = Nat.ofDigitChars 10 t 0 := by
  have hsame (m : Nat) :
      t.foldl (fun n c => 10 * n + (digit? c).getD 0) m = Nat.ofDigitChars 10 t m := by
    induction t generalizing m with
    | nil => rfl
    | cons c t ih =>
        obtain ⟨hc, ht⟩ := List.forall_mem_cons.mp h
        rw [List.foldl_cons, digit?_of_isPlainDigit hc, ih ht]
        rfl
  exact hsame 0

/-- The digits of a number spell it. -/
theorem digitsValue_ofNat (n : Nat) : digitsValue (ofNat n) = n := by
  rw [digitsValue_eq fun c hc => isPlainDigit_of_mem_ofNat hc]
  exact Nat.ofDigitChars_ten_toDigits

/-- So they do with zeros in front. -/
theorem digitsValue_padded (width n : Nat) : digitsValue (padded width n) = n := by
  rw [digitsValue_eq (plainDigits_padded width n), padded, Nat.ofDigitChars_append,
    Nat.ofDigitChars_replicate_zero, Nat.mul_zero]
  exact Nat.ofDigitChars_ten_toDigits

/-- Digits that follow others leave these so many places behind. -/
theorem digitsValue_append (ha : PlainDigits a) (hb : PlainDigits b) :
    digitsValue (a ++ b) = 10 ^ b.length * digitsValue a + digitsValue b := by
  have hboth : PlainDigits (a ++ b) := fun c hc => (List.mem_append.mp hc).elim (ha c) (hb c)
  rw [digitsValue_eq hboth, digitsValue_eq ha, digitsValue_eq hb, Nat.ofDigitChars_append,
    Nat.ofDigitChars_eq_ofDigitChars_zero]

/-- Digits stand together without underscores. -/
private theorem ungroup?_of_forall (hne : t ≠ []) (h : ∀ c ∈ t, isDigit c = true) :
    ungroup? t = some t := by
  have hmark : isDigit '_' = false := by decide +kernel
  induction t using ungroup?.induct with
  | case1 => exact absurd rfl hne
  | case2 c hc => rw [ungroup?, if_pos hc]
  | case3 c hc => exact absurd (h c List.mem_cons_self) hc
  | case4 c rest hc ih =>
      have := h '_' (List.mem_cons_of_mem _ List.mem_cons_self)
      rw [hmark] at this
      cases this
  | case5 c rest hc => exact absurd (h c List.mem_cons_self) hc
  | case6 c rest hnil hmarked hc ih =>
      rw [ungroup?, if_pos hc, ih hnil fun d hd => h d (List.mem_cons_of_mem _ hd)]
      · rfl
      · exact hnil
      · exact hmarked
  | case7 c rest hnil hmarked hc => exact absurd (h c List.mem_cons_self) hc

-- ============================================================ integers

/-- Plain digits are no blanks, and no signs. -/
theorem isBlank_of_isPlainDigit (h : isPlainDigit c = true) : isBlank c = false :=
  isBlank_of_isDigit (isDigit_of_isPlainDigit h)

private theorem ne_sign_of_isPlainDigit (h : isPlainDigit c = true) : c ≠ '-' ∧ c ≠ '+' := by
  constructor <;> rintro rfl <;> exact absurd h (by decide)

/-- What is read where plain digits stand. -/
theorem integer_digits (hne : t ≠ []) (h : PlainDigits t) : integer t
    = if maxDigits < t.length then .error (.tooLong t.length) else .ok (digitsValue t) := by
  have hfirm : Firm isBlank t := ⟨hne,
    fun c hc => isBlank_of_isPlainDigit (h c (List.mem_of_head? hc)),
    fun c hc => isBlank_of_isPlainDigit (h c (List.mem_of_getLast? hc))⟩
  have hread := ungroup?_of_forall hne fun c hc => isDigit_of_isPlainDigit (h c hc)
  obtain ⟨c, rest, rfl⟩ := List.exists_cons_of_ne_nil hne
  obtain ⟨hminus, hplus⟩ := ne_sign_of_isPlainDigit (h c List.mem_cons_self)
  unfold integer trim
  simp [hfirm.strip, hminus, hplus, hread]

/-- What is read where plain digits stand behind a sign. -/
theorem integer_signed (hsign : c = '-' ∨ c = '+') (hne : t ≠ []) (h : PlainDigits t) :
    integer (c :: t) = if maxDigits < t.length then .error (.tooLong t.length)
      else .ok (if c = '-' then -(digitsValue t : Int) else digitsValue t) := by
  have hfirm : Firm isBlank (c :: t) := by
    refine ⟨List.cons_ne_nil _ _, fun d hd => ?_, fun d hd => ?_⟩
    · obtain rfl := Option.some.inj hd
      rcases hsign with rfl | rfl <;> decide
    · rw [List.getLast?_cons_of_ne_nil hne] at hd
      exact isBlank_of_isPlainDigit (h d (List.mem_of_getLast? hd))
  have hread := ungroup?_of_forall hne fun c hc => isDigit_of_isPlainDigit (h c hc)
  unfold integer trim
  rcases hsign with rfl | rfl <;> simp [hfirm.strip, hread]

/-- What is read where an integer was written. -/
private theorem integer_ofInt (i : Int) : integer (ofInt i)
    = if maxDigits < (ofNat i.natAbs).length then .error (.tooLong (ofNat i.natAbs).length)
      else .ok i := by
  have hplain {n : Nat} : PlainDigits (ofNat n) := fun c hc => isPlainDigit_of_mem_ofNat hc
  cases i with
  | ofNat n =>
      unfold ofInt
      rw [integer_digits (ofNat_ne_nil n) hplain, digitsValue_ofNat]
      rfl
  | negSucc n =>
      unfold ofInt
      rw [integer_signed (Or.inl rfl) (ofNat_ne_nil _) hplain, digitsValue_ofNat, if_pos rfl]
      rfl

/-- A digit is worth less than ten. -/
theorem digit?_lt {n : Nat} (h : digit? c = some n) : n < 10 := by
  obtain ⟨z, hz, rfl⟩ := Option.map_eq_some_iff.mp h
  have hbounds := List.find?_some hz
  simp only [Bool.and_eq_true, decide_eq_true_eq] at hbounds
  omega

/-- The number that digits spell has no more digits. -/
theorem digitsValue_lt (t : Text) : digitsValue t < 10 ^ t.length := by
  induction t using List.reverseRecOn with
  | nil => decide
  | append_singleton t c ih =>
      have hdigit : (digit? c).getD 0 < 10 := by
        cases h : digit? c with
        | none => decide
        | some n => exact digit?_lt h
      have hvalue : digitsValue (t ++ [c]) = 10 * digitsValue t + (digit? c).getD 0 := by
        simp [digitsValue]
      rw [hvalue, List.length_append, List.length_singleton, Nat.pow_succ]
      omega

/-- An integer that is read is one that can be written. -/
theorem natAbs_lt_of_integer? {i : Int} (h : integer? t = some i) : i.natAbs < 10 ^ maxDigits := by
  unfold integer? integer at h
  simp only at h
  split at h
  · cases h
  · rename_i digits hdigits
    split at h
    · cases h
    · rename_i hshort
      have hbound : digitsValue digits < 10 ^ maxDigits :=
        (digitsValue_lt digits).trans_le (Nat.pow_le_pow_right (by decide) (Nat.not_lt.mp hshort))
      have hi := Option.some.inj h
      split at hi <;> omega

/-- An integer that is written is read again unless it is too long. -/
theorem integer?_ofInt_eq_some_iff (i : Int) :
    integer? (ofInt i) = some i ↔ (ofNat i.natAbs).length ≤ maxDigits := by
  rw [integer?, integer_ofInt, ← Nat.not_lt]
  split
  case isTrue h => simp [Except.toOption, h]
  case isFalse h => simp [Except.toOption, h]

end FeedSieve.Text
