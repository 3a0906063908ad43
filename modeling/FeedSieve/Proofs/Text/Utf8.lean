/-
What is written in UTF-8 is read again.

Every character is read off the bytes it is written in, and off no more of
them (`step_encodeChar`), so a text is read off its bytes one character
after another (`decode_encode`). Nothing else is read as a character
(`Reads.encodeChar`), so what is read at all are the bytes of a text
(`decode_eq_ok_iff`).

A character takes one byte if it is an ASCII character, and otherwise up to
four. So the number of characters bounds the number of bytes only loosely
(`size_le`), unless they are all of the one kind (`size_eq_length`).
-/
import Mathlib.Data.Char
import FeedSieve.Text.Utf8

namespace FeedSieve.Utf8

variable {n : Nat}

/-- A byte has the number it is made of, if that is one of a byte. -/
private theorem toNat_toUInt8 (h : n < 256) : n.toUInt8.toNat = n := by
  rw [Nat.toUInt8, UInt8.toNat_ofNat']
  exact Nat.mod_eq_of_lt h

/-- A character is no surrogate, and not past the last one. -/
private theorem toNat_bounds (c : Char) :
    c.toNat < 0x110000 ∧ ¬ (0xd800 ≤ c.toNat ∧ c.toNat < 0xe000) := by
  have h := c.valid
  simp only [UInt32.isValidChar, Nat.isValidChar] at h
  have : c.toNat = c.val.toNat := rfl
  omega

/-- The byte that carries six bits of a number. -/
def tailByte (n : Nat) : UInt8 := (0x80 + n % 64).toUInt8

private theorem toNat_tailByte (n : Nat) : (tailByte n).toNat = 0x80 + n % 64 :=
  toNat_toUInt8 (by omega)

private theorem isTail_tailByte (n : Nat) : isTail (tailByte n) = true := by
  simp only [isTail, UInt8.le_iff_toNat_le, UInt8.lt_iff_toNat_lt, toNat_tailByte,
    Bool.and_eq_true, decide_eq_true_eq]
  refine ⟨Nat.le_add_right _ _, ?_⟩
  show 0x80 + n % 64 < 0xc0
  omega

private theorem tailBits_tailByte (n : Nat) : tailBits (tailByte n) = n % 64 := by
  rw [tailBits, toNat_tailByte]
  omega

/-- What a byte that may follow must satisfy, in numbers. -/
private theorem admits_tailByte {first : UInt8} (h0 : first.toNat = 0xe0 → 0x20 ≤ n % 64)
    (hd : first.toNat = 0xed → n % 64 < 0x20) (hf0 : first.toNat = 0xf0 → 0x10 ≤ n % 64)
    (hf4 : first.toNat = 0xf4 → n % 64 < 0x10) : admits first (tailByte n) = true := by
  unfold admits
  rw [isTail_tailByte, Bool.true_and]
  simp only [UInt8.le_iff_toNat_le, UInt8.lt_iff_toNat_lt, toNat_tailByte, ← UInt8.toNat_inj]
  simp only [UInt8.reduceToNat]
  split
  case isTrue h => exact decide_eq_true (by have := h0 h; omega)
  case isFalse =>
    split
    case isTrue h => exact decide_eq_true (by have := hd h; omega)
    case isFalse =>
      split
      case isTrue h => exact decide_eq_true (by have := hf0 h; omega)
      case isFalse =>
        split
        case isTrue h => exact decide_eq_true (by have := hf4 h; omega)
        case isFalse => rfl

/-- A character is read off its own bytes. -/
theorem step_encodeChar (c : Char) (rest : Bytes) :
    ∃ first tail, encodeChar c = first :: tail
      ∧ step first (tail ++ rest) = .char c (tail.length + 1) := by
  obtain ⟨hlast, hsurrogate⟩ := toNat_bounds c
  generalize hn : c.toNat = n at hlast hsurrogate
  have hchar : ∀ {m : Nat}, m = n → Char.ofNat m = c := by
    rintro m rfl
    rw [← hn, Char.ofNat_toNat]
  unfold encodeChar
  simp only [hn]
  by_cases h1 : n < 0x80
  · refine ⟨n.toUInt8, [], by rw [if_pos h1], ?_⟩
    have hfirst := toNat_toUInt8 (n := n) (by omega)
    unfold step
    simp only [UInt8.lt_iff_toNat_lt, hfirst]
    rw [if_pos (show n < UInt8.toNat 0x80 from h1), hchar rfl]
    rfl
  by_cases h2 : n < 0x800
  · refine ⟨(0xc0 + n / 64).toUInt8, [tailByte (n / 1)], by rw [if_neg h1, if_pos h2]; rfl, ?_⟩
    have hfirst := toNat_toUInt8 (n := 0xc0 + n / 64) (by omega)
    have hadmits : admits (0xc0 + n / 64).toUInt8 (tailByte (n / 1)) = true :=
      admits_tailByte (by omega) (by omega) (by omega) (by omega)
    unfold step
    simp only [List.cons_append, List.nil_append, hadmits, tailBits_tailByte,
      UInt8.lt_iff_toNat_lt, UInt8.le_iff_toNat_le, hfirst]
    simp only [UInt8.reduceToNat]
    rw [if_neg (by omega), if_neg (by simp; omega), if_neg (by simp), if_pos (by omega),
      hchar (by omega)]
    rfl
  by_cases h3 : n < 0x10000
  · refine ⟨(0xe0 + n / 4096).toUInt8, [tailByte (n / 64), tailByte (n / 1)],
      by rw [if_neg h1, if_neg h2, if_pos h3]; rfl, ?_⟩
    have hfirst := toNat_toUInt8 (n := 0xe0 + n / 4096) (by omega)
    have hadmits : admits (0xe0 + n / 4096).toUInt8 (tailByte (n / 64)) = true :=
      admits_tailByte (by omega) (by omega) (by omega) (by omega)
    unfold step
    simp only [List.cons_append, List.nil_append, hadmits, isTail_tailByte, tailBits_tailByte,
      UInt8.lt_iff_toNat_lt, UInt8.le_iff_toNat_le, hfirst]
    simp only [UInt8.reduceToNat]
    rw [if_neg (by omega), if_neg (by simp; omega), if_neg (by simp), if_neg (by omega),
      if_neg (by simp), if_pos (by omega), hchar (by omega)]
    rfl
  · refine ⟨(0xf0 + n / 262144).toUInt8,
      [tailByte (n / 4096), tailByte (n / 64), tailByte (n / 1)],
      by rw [if_neg h1, if_neg h2, if_neg h3]; rfl, ?_⟩
    have hfirst := toNat_toUInt8 (n := 0xf0 + n / 262144) (by omega)
    have hadmits : admits (0xf0 + n / 262144).toUInt8 (tailByte (n / 4096)) = true :=
      admits_tailByte (by omega) (by omega) (by omega) (by omega)
    unfold step
    simp only [List.cons_append, List.nil_append, hadmits, isTail_tailByte, tailBits_tailByte,
      UInt8.lt_iff_toNat_lt, UInt8.le_iff_toNat_le, hfirst]
    simp only [UInt8.reduceToNat]
    rw [if_neg (by omega), if_neg (by simp; omega), if_neg (by simp), if_neg (by omega),
      if_neg (by simp), if_neg (by omega), if_neg (by simp), hchar (by omega)]
    rfl

/-- The bytes behind the first one of a character are passed over. -/
private theorem decodeFrom_append (tail rest : Bytes) (position : Nat) (done : Text) :
    decodeFrom tail.length position done (tail ++ rest)
      = decodeFrom 0 (position + tail.length) done rest := by
  induction tail generalizing position with
  | nil => rfl
  | cons b tail ih =>
      rw [List.length_cons, List.cons_append, decodeFrom, ih]
      congr 1
      omega

/-- Reading goes on behind a text that has been written. -/
theorem decodeFrom_encode (t : Text) (rest : Bytes) (position : Nat) (done : Text) :
    decodeFrom 0 position done (encode t ++ rest)
      = decodeFrom 0 (position + size t) (t.reverse ++ done) rest := by
  induction t generalizing position done with
  | nil => rfl
  | cons c t ih =>
      obtain ⟨first, tail, hbytes, hstep⟩ := step_encodeChar c (encode t ++ rest)
      have hencode : encode (c :: t) = first :: (tail ++ encode t) := by
        rw [encode, List.flatMap_cons, hbytes]
        rfl
      have hsize : size (c :: t) = 1 + tail.length + size t := by
        rw [size, hencode, List.length_cons, List.length_append, size]
        omega
      rw [hencode, List.cons_append, List.append_assoc, decodeFrom]
      simp only [hstep, Nat.add_sub_cancel]
      rw [decodeFrom_append, ih, hsize, List.reverse_cons, List.append_assoc]
      congr 1
      omega

/-- A text is read off its bytes. -/
theorem decode_encode (t : Text) : decode (encode t) = .ok t := by
  have h := decodeFrom_encode t [] 0 []
  rw [List.append_nil, List.append_nil] at h
  rw [decode, h, decodeFrom, List.reverse_reverse]

/-- Bytes are those of one text at most. -/
theorem encode_injective {t t' : Text} (h : encode t = encode t') : t = t' := by
  have hdecode := congrArg decode h
  rw [decode_encode, decode_encode] at hdecode
  exact Except.ok.inj hdecode

-- ============================================================== steps

/-- How a character is read off its first byte and those behind it. -/
inductive Reads (first : UInt8) : Bytes → Char → Nat → Prop where
  | one {rest : Bytes} (h : first.toNat < 0x80) : Reads first rest (Char.ofNat first.toNat) 1
  | two {b : UInt8} {rest : Bytes} (hfirst : 0xc2 ≤ first.toNat ∧ first.toNat < 0xe0)
      (hb : admits first b = true) :
      Reads first (b :: rest) (Char.ofNat (first.toNat % 32 * 64 + tailBits b)) 2
  | three {b c : UInt8} {rest : Bytes} (hfirst : 0xe0 ≤ first.toNat ∧ first.toNat < 0xf0)
      (hb : admits first b = true) (hc : isTail c = true) :
      Reads first (b :: c :: rest)
        (Char.ofNat (first.toNat % 16 * 4096 + (tailBits b * 64 + tailBits c))) 3
  | four {b c d : UInt8} {rest : Bytes} (hfirst : 0xf0 ≤ first.toNat ∧ first.toNat < 0xf5)
      (hb : admits first b = true) (hc : isTail c = true) (hd : isTail d = true) :
      Reads first (b :: c :: d :: rest)
        (Char.ofNat (first.toNat % 8 * 262144 + (tailBits b * 64 + tailBits c) * 64 + tailBits d)) 4

/-- There is no other way. -/
theorem reads_of_step {first : UInt8} {rest : Bytes} {x : Char} {size : Nat}
    (h : step first rest = .char x size) : Reads first rest x size := by
  unfold step at h
  simp only [UInt8.lt_iff_toNat_lt, UInt8.le_iff_toNat_le] at h
  simp only [UInt8.reduceToNat] at h
  split at h
  case isTrue hplain =>
    obtain ⟨rfl, rfl⟩ := Step.char.inj h
    exact .one hplain
  case isFalse hplain =>
    split at h
    case isTrue => cases h
    case isFalse hstart =>
      simp only [Bool.or_eq_true, decide_eq_true_eq, not_or, not_lt, not_le] at hstart
      match rest with
      | [] => cases h
      | b :: rest =>
          simp only at h
          split at h
          case isTrue => cases h
          case isFalse hb =>
            have hb' : admits first b = true := by simpa using hb
            split at h
            case isTrue htwo =>
              obtain ⟨rfl, rfl⟩ := Step.char.inj h
              exact .two ⟨hstart.1, htwo⟩ hb'
            case isFalse htwo =>
              match rest with
              | [] => cases h
              | c :: rest =>
                  simp only at h
                  split at h
                  case isTrue => cases h
                  case isFalse hc =>
                    have hc' : isTail c = true := by simpa using hc
                    split at h
                    case isTrue hthree =>
                      obtain ⟨rfl, rfl⟩ := Step.char.inj h
                      exact .three ⟨not_lt.mp htwo, hthree⟩ hb' hc'
                    case isFalse hthree =>
                      match rest with
                      | [] => cases h
                      | d :: rest =>
                          simp only at h
                          split at h
                          case isTrue => cases h
                          case isFalse hd =>
                            obtain ⟨rfl, rfl⟩ := Step.char.inj h
                            exact .four ⟨not_lt.mp hthree, hstart.2⟩ hb' hc' (by simpa using hd)

-- ============================================================= length

/-- A character of one byte has the number of that byte; the others have more
bytes. -/
private theorem step_char {first : UInt8} {rest : Bytes} {c : Char} {size : Nat}
    (h : step first rest = .char c size) :
    size = 1 ∧ c = Char.ofNat first.toNat ∨ 2 ≤ size ∧ rest ≠ [] := by
  cases reads_of_step h with
  | one => exact .inl ⟨rfl, rfl⟩
  | two => exact .inr ⟨by decide, List.cons_ne_nil _ _⟩
  | three => exact .inr ⟨by decide, List.cons_ne_nil _ _⟩
  | four => exact .inr ⟨by decide, List.cons_ne_nil _ _⟩

/-- No more characters are read than there are bytes, and as many only if each
is one byte. -/
private theorem decodeFrom_length {bytes : Bytes} {skip position : Nat} {done t : Text}
    (h : decodeFrom skip position done bytes = .ok t) :
    t.length ≤ done.length + bytes.length
      ∧ (t.length = done.length + bytes.length → (skip = 0 ∨ bytes = [])
        ∧ t = done.reverse ++ bytes.map fun b => Char.ofNat b.toNat) := by
  induction bytes generalizing skip position done with
  | nil =>
      obtain rfl := Except.ok.inj h
      simp
  | cons first rest ih =>
      cases skip with
      | succ skip =>
          obtain ⟨hle, -⟩ := ih h
          rw [List.length_cons]
          exact ⟨by omega, fun heq => by omega⟩
      | zero =>
          rw [decodeFrom] at h
          cases hstep : step first rest with
          | fault size why => simp [hstep] at h
          | char c size =>
              simp only [hstep] at h
              obtain ⟨hle, heq⟩ := ih h
              rw [List.length_cons] at hle heq ⊢
              refine ⟨by omega, fun hsame => ⟨.inl rfl, ?_⟩⟩
              obtain ⟨hskip, ht⟩ := heq (by omega)
              rcases step_char hstep with ⟨-, rfl⟩ | ⟨hsize, hrest⟩
              · simpa using ht
              · rcases hskip with hskip | hskip
                · omega
                · exact absurd hskip hrest

/-- A text has at most as many characters as bytes. -/
theorem length_decode_le {bytes : Bytes} {t : Text} (h : decode bytes = .ok t) :
    t.length ≤ bytes.length := by
  simpa using (decodeFrom_length h).1

/-- If it has as many, each of them is a byte. -/
theorem decode_eq_map_of_length {bytes : Bytes} {t : Text} (h : decode bytes = .ok t)
    (hlength : t.length = bytes.length) : t = bytes.map fun b => Char.ofNat b.toNat := by
  simpa using ((decodeFrom_length h).2 (by simpa using hlength)).2

-- ============================================================ exactness

/-- A byte is made of its number. -/
private theorem toUInt8_of_toNat {b : UInt8} (h : b.toNat = n) : n.toUInt8 = b := by
  rw [← h]
  exact UInt8.ofNat_toNat

/-- A byte that may follow is the one that carries its bits. -/
private theorem tailByte_of_isTail {b : UInt8} (h : isTail b = true) (hbits : n % 64 = tailBits b) :
    tailByte n = b := by
  simp only [isTail, UInt8.le_iff_toNat_le, UInt8.lt_iff_toNat_lt, Bool.and_eq_true,
    decide_eq_true_eq] at h
  simp only [UInt8.reduceToNat] at h
  unfold tailBits at hbits
  exact toUInt8_of_toNat (by omega)

/-- What a byte that may follow satisfies, in numbers. -/
private theorem admits_facts {first second : UInt8} (h : admits first second = true) :
    isTail second = true ∧ tailBits second < 64
      ∧ (first.toNat = 0xe0 → 0x20 ≤ tailBits second)
      ∧ (first.toNat = 0xed → tailBits second < 0x20)
      ∧ (first.toNat = 0xf0 → 0x10 ≤ tailBits second)
      ∧ (first.toNat = 0xf4 → tailBits second < 0x10) := by
  unfold admits at h
  obtain ⟨htail, hrange⟩ := (Bool.and_eq_true_iff ..).mp h
  refine ⟨htail, Nat.mod_lt _ (by decide), ?_⟩
  unfold tailBits
  simp only [isTail, UInt8.le_iff_toNat_le, UInt8.lt_iff_toNat_lt, ← UInt8.toNat_inj,
    Bool.and_eq_true, decide_eq_true_eq] at htail hrange
  simp only [UInt8.reduceToNat] at htail hrange
  split_ifs at hrange <;> simp only [decide_eq_true_eq] at hrange <;> omega

/-- A number that is one of a character is that of the character it makes. -/
private theorem toNat_char (hlast : n < 0x110000) (hsurrogate : ¬ (0xd800 ≤ n ∧ n < 0xe000)) :
    (Char.ofNat n).toNat = n := by
  have hvalid : n.isValidChar := by
    unfold Nat.isValidChar
    omega
  unfold Char.ofNat
  rw [dif_pos hvalid]
  rfl

/-- What is read as a character are the bytes it is written in. -/
theorem Reads.encodeChar {first : UInt8} {rest : Bytes} {x : Char} {size : Nat}
    (h : Reads first rest x size) :
    ∃ tail later, rest = tail ++ later ∧ size = tail.length + 1
      ∧ encodeChar x = first :: tail := by
  unfold Utf8.encodeChar
  cases h with
  | one h =>
      refine ⟨[], rest, rfl, rfl, ?_⟩
      simp only [toNat_char (n := first.toNat) (by omega) (by omega)]
      rw [if_pos h, toUInt8_of_toNat rfl]
  | @two b rest hfirst hb =>
      obtain ⟨htail, hbits, -⟩ := admits_facts hb
      refine ⟨[b], rest, rfl, rfl, ?_⟩
      simp only [toNat_char (n := first.toNat % 32 * 64 + tailBits b) (by omega) (by omega)]
      rw [if_neg (by omega), if_pos (by omega), toUInt8_of_toNat (b := first) (by omega)]
      exact congrArg (first :: [·]) (tailByte_of_isTail htail (by omega))
  | @three b c rest hfirst hb hc =>
      obtain ⟨htail, hbits, hleast, hmost, -⟩ := admits_facts hb
      have hcbits : tailBits c < 64 := Nat.mod_lt _ (by decide)
      refine ⟨[b, c], rest, rfl, rfl, ?_⟩
      simp only [toNat_char (n := first.toNat % 16 * 4096 + (tailBits b * 64 + tailBits c))
        (by omega) (by omega)]
      rw [if_neg (by omega), if_neg (by omega), if_pos (by omega),
        toUInt8_of_toNat (b := first) (by omega)]
      have h1 := tailByte_of_isTail (n := (first.toNat % 16 * 4096
        + (tailBits b * 64 + tailBits c)) / 64) htail (by omega)
      have h2 := tailByte_of_isTail (n := (first.toNat % 16 * 4096
        + (tailBits b * 64 + tailBits c)) / 1) hc (by omega)
      exact congrArg₂ (first :: [·, ·]) h1 h2
  | @four b c d rest hfirst hb hc hd =>
      obtain ⟨htail, hbits, -, -, hleast, hmost⟩ := admits_facts hb
      have hcbits : tailBits c < 64 := Nat.mod_lt _ (by decide)
      have hdbits : tailBits d < 64 := Nat.mod_lt _ (by decide)
      refine ⟨[b, c, d], rest, rfl, rfl, ?_⟩
      generalize hn : first.toNat % 8 * 262144 + (tailBits b * 64 + tailBits c) * 64
        + tailBits d = n
      simp only [toNat_char (n := n) (by omega) (by omega)]
      rw [if_neg (by omega), if_neg (by omega), if_neg (by omega),
        toUInt8_of_toNat (b := first) (by omega)]
      have h1 := tailByte_of_isTail (n := n / 4096) htail (by omega)
      have h2 := tailByte_of_isTail (n := n / 64) hc (by omega)
      have h3 := tailByte_of_isTail (n := n / 1) hd (by omega)
      show first :: [tailByte (n / 4096), tailByte (n / 64), tailByte (n / 1)] = _
      rw [h1, h2, h3]

/-- Behind what has been read of a text, the bytes are those that the rest of
it is written in. -/
private theorem decodeFrom_eq_ok {bytes : Bytes} {skip position : Nat} {done t : Text}
    (hskip : skip ≤ bytes.length) (h : decodeFrom skip position done bytes = .ok t) :
    ∃ rest, t = done.reverse ++ rest ∧ bytes.drop skip = encode rest := by
  induction bytes generalizing skip position done with
  | nil =>
      obtain rfl := Except.ok.inj h
      exact ⟨[], (List.append_nil _).symm, List.drop_nil⟩
  | cons first bytes ih =>
      cases skip with
      | succ skip => exact ih (Nat.le_of_succ_le_succ hskip) h
      | zero =>
          rw [decodeFrom] at h
          cases hstep : step first bytes with
          | fault size why => simp [hstep] at h
          | char c size =>
              simp only [hstep] at h
              obtain ⟨tail, later, rfl, rfl, hbytes⟩ := (reads_of_step hstep).encodeChar
              obtain ⟨rest, rfl, hrest⟩ := ih (by simp) h
              refine ⟨c :: rest, ?_, ?_⟩
              · rw [List.reverse_cons, List.append_assoc]
                rfl
              · rw [Nat.add_sub_cancel, List.drop_left] at hrest
                show first :: (tail ++ later) = encodeChar c ++ encode rest
                rw [hbytes, hrest]
                rfl

/-- Bytes are read as a text if they are those it is written in, and only
then. -/
theorem decode_eq_ok_iff {bytes : Bytes} {t : Text} : decode bytes = .ok t ↔ bytes = encode t := by
  constructor
  · intro h
    obtain ⟨rest, rfl, hrest⟩ := decodeFrom_eq_ok (Nat.zero_le _) h
    exact hrest
  · rintro rfl
    exact decode_encode t

-- ================================================================ room

/-- Texts put together take the room of both. -/
theorem size_append (s t : Text) : size (s ++ t) = size s + size t := by
  unfold size encode
  rw [List.flatMap_append, List.length_append]

/-- A text takes the room of its characters. -/
theorem size_cons (c : Char) (t : Text) : size (c :: t) = (encodeChar c).length + size t := by
  unfold size encode
  rw [List.flatMap_cons, List.length_append]

/-- No character takes more than four bytes. -/
theorem length_encodeChar_le (c : Char) : (encodeChar c).length ≤ 4 := by
  unfold encodeChar
  dsimp only
  split_ifs <;> simp

/-- So a text takes at most four bytes for each of its characters. -/
theorem size_le (t : Text) : size t ≤ 4 * t.length := by
  induction t with
  | nil => exact Nat.le_refl _
  | cons c t ih =>
      have hc := length_encodeChar_le c
      rw [size_cons, List.length_cons]
      omega

/-- ASCII characters take one byte. -/
theorem length_encodeChar_of_lt {c : Char} (h : c.toNat < 0x80) : (encodeChar c).length = 1 := by
  unfold encodeChar
  dsimp only
  rw [if_pos h]
  rfl

/-- So a text of them takes as many bytes as it has characters. -/
theorem size_eq_length {t : Text} (h : ∀ c ∈ t, c.toNat < 0x80) : size t = t.length := by
  induction t with
  | nil => rfl
  | cons c t ih =>
      obtain ⟨hc, ht⟩ := List.forall_mem_cons.mp h
      rw [size_cons, length_encodeChar_of_lt hc, ih ht, List.length_cons, Nat.add_comm]

end FeedSieve.Utf8
