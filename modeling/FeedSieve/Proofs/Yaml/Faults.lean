/-
What can be wrong with a document.

Scanning a document may fail because it is malformed, and for two reasons
beside that: an escape for a character beyond the last, and the number of a
version with more digits than are read. Either of them stands in the
document (`MetIn`). Scanning only goes forward, so what is met in what is
left is met in the document, and this carries over from every token to all
of them (`gives_scan`).
-/
import FeedSieve.Yaml.Token
import Mathlib.Algebra.GroupWithZero.Nat

namespace FeedSieve.Yaml

variable {α β : Type} {P P' : α → Prop} {Q : β → Prop} {F F' : Fault → Prop}
  {x : Except Fault α} {f : α → Except Fault β} {fault : Fault} {s t : Text} {limit : Nat}

-- ========================================================== judgements

/-- What is read satisfies `P`, and a fault satisfies `F`. -/
inductive Gives (P : α → Prop) (F : Fault → Prop) : Except Fault α → Prop where
  | ok {a : α} (h : P a) : Gives P F (.ok a)
  | error {fault : Fault} (h : F fault) : Gives P F (.error fault)

/-- One reading after another. -/
theorem Gives.bind (hx : Gives P F x) (hf : ∀ a, P a → Gives Q F (f a)) : Gives Q F (x >>= f) := by
  cases hx with
  | ok h => exact hf _ h
  | error h => exact .error h

/-- What is read is turned into something else. -/
theorem Gives.map {g : α → β} (hx : Gives P F x) (hg : ∀ a, P a → Q (g a)) :
    Gives Q F (x.map g) := by
  cases hx with
  | ok h => exact .ok (hg _ h)
  | error h => exact .error h

/-- One reading or another. -/
theorem Gives.ite {c : Prop} [Decidable c] {y : Except Fault α} (hx : Gives P F x)
    (hy : Gives P F y) : Gives P F (if c then x else y) := by
  split
  · exact hx
  · exact hy

theorem Gives.mono (hx : Gives P F x) (hP : ∀ a, P a → P' a) (hF : ∀ fault, F fault → F' fault) :
    Gives P' F' x := by
  cases hx with
  | ok h => exact .ok (hP _ h)
  | error h => exact .error (hF _ h)

/-- Steps that keep an invariant give a result under it, or a fault of one of
them; only that there are too many of them is a fault of its own. -/
theorem gives_steps {σ ρ : Type} {step : σ → Except Fault (σ ⊕ ρ)} {I : σ → Prop} {R : ρ → Prop}
    (hF : F .malformed) (hstep : ∀ s, I s → Gives (Sum.elim I R) F (step s)) (limit : Nat) {s : σ}
    (hs : I s) : Gives R F (steps limit step s) := by
  induction limit generalizing s with
  | zero => exact .error hF
  | succ limit ih =>
      have hone := hstep s hs
      unfold steps
      generalize step s = next at hone ⊢
      cases hone with
      | error h => exact .error h
      | @ok next h =>
          cases next with
          | inl next => exact ih h
          | inr result => exact .ok h

/-- A fault that can be met in a text: that it is malformed; an escape for a
character beyond the last; a number with more digits than are read. -/
inductive MetIn (t : Text) : Fault → Prop where
  | malformed : MetIn t .malformed
  | character {digits : Text} {code : Nat} (h : '\\' :: 'U' :: digits <:+: t)
      (hlength : digits.length = 8) (hvalue : hexValue? digits = some code)
      (hpast : 0x110000 ≤ code) : MetIn t (.noCharacter code)
  | number {digits : Text} (h : digits <:+: t) (hdigits : ∀ c ∈ digits, Text.isPlainDigit c = true)
      (hlong : Text.maxDigits < digits.length) : MetIn t (.tooLong digits.length)

/-- What can be met in a part can be met in the whole. -/
theorem MetIn.within (h : MetIn s fault) (hpart : s <:+: t) : MetIn t fault := by
  cases h with
  | malformed => exact .malformed
  | character h hlength hvalue hpast => exact .character (h.trans hpart) hlength hvalue hpast
  | number h hdigits hlong => exact .number (h.trans hpart) hdigits hlong

/-- What is read of an end of a text is read of the text. -/
theorem Gives.within (hx : Gives P (MetIn s) x) (hpart : s <:+ t) : Gives P (MetIn t) x :=
  hx.mono (fun _ => id) fun _ h => h.within hpart.isInfix

-- ============================================================= scalars

/-- A hexadecimal digit counts less than sixteen. -/
theorem hexDigit?_lt {c : Char} {d : Nat} (h : Text.hexDigit? c = some d) : d < 16 := by
  have hone (low high : Char) : (decide (low ≤ c) && decide (c ≤ high)) = true →
      low.toNat ≤ c.toNat ∧ c.toNat ≤ high.toNat := by
    intro hrange
    simp only [Bool.and_eq_true, decide_eq_true_eq, Char.le_def, UInt32.le_iff_toNat_le] at hrange
    exact hrange
  have hletters : 'a'.toNat = 97 ∧ 'f'.toNat = 102 ∧ 'A'.toNat = 65 ∧ 'F'.toNat = 70
      ∧ '0'.toNat = 48 ∧ '9'.toNat = 57 := by decide
  unfold Text.hexDigit? Text.isPlainDigit at h
  split at h
  case isTrue hdigit =>
    have := hone _ _ hdigit
    have := Option.some.inj h
    omega
  case isFalse =>
    split at h
    case isTrue hsmall =>
      have := hone _ _ hsmall
      have := Option.some.inj h
      omega
    case isFalse =>
      split at h
      case isTrue hcapital =>
        have := hone _ _ hcapital
        have := Option.some.inj h
        omega
      case isFalse => cases h

/-- A number is less than as many hexadecimal digits allow. -/
theorem hexValue?_lt {digits : Text} {code : Nat} (h : hexValue? digits = some code) :
    code < 16 ^ digits.length := by
  have hgrow (digits : Text) (start : Option Nat) (h : digits.foldl (fun n c =>
      n.bind fun n => (Text.hexDigit? c).map (16 * n + ·)) start = some code) :
      ∃ n, start = some n ∧ code < (n + 1) * 16 ^ digits.length := by
    induction digits generalizing start with
    | nil => exact ⟨code, h, by simp⟩
    | cons c digits ih =>
        obtain ⟨next, hnext, hless⟩ := ih _ h
        obtain ⟨n, rfl, hn⟩ := Option.bind_eq_some_iff.mp hnext
        obtain ⟨d, hd, rfl⟩ := Option.map_eq_some_iff.mp hn
        refine ⟨n, rfl, Nat.lt_of_lt_of_le hless ?_⟩
        have hdigit := hexDigit?_lt hd
        rw [List.length_cons, Nat.pow_succ', ← Nat.mul_assoc]
        exact Nat.mul_le_mul_right _ (by omega)
  obtain ⟨n, hn, hless⟩ := hgrow digits (some 0) h
  obtain rfl := Option.some.inj hn
  simpa using hless

/-- Digits are those of a character, or of no number, or of one beyond the last
character. -/
theorem gives_character (digits : Text) :
    Gives (fun _ => True) (fun fault => fault = .malformed ∨ ∃ code, fault = .noCharacter code
      ∧ hexValue? digits = some code ∧ 0x110000 ≤ code) (character digits) := by
  unfold character
  split
  · exact .error (Or.inl rfl)
  · rename_i code hvalue
    split
    · exact .ok trivial
    · rename_i hpast
      exact .error (Or.inr ⟨code, rfl, hvalue, Nat.not_lt.mp hpast⟩)

/-- Few digits are those of a character, or of no number. -/
theorem gives_character_short (digits : Text) (h : digits.length ≤ 4) :
    Gives (fun _ => True) (· = .malformed) (character digits) := by
  refine (gives_character digits).mono (fun _ => id) ?_
  rintro fault (rfl | ⟨code, -, hvalue, hpast⟩)
  · rfl
  · have hless := hexValue?_lt hvalue
    have hmost : 16 ^ digits.length ≤ 16 ^ 4 := Nat.pow_le_pow_right (by decide) h
    omega

/-- Eight digits are those of a character, or of a number that stands there. -/
theorem gives_character_long (digits : Text) {rest : Text} (h : digits.length = 8) :
    Gives (fun _ => True) (MetIn ('\\' :: 'U' :: (digits ++ rest))) (character digits) := by
  refine (gives_character digits).mono (fun _ => id) ?_
  rintro fault (rfl | ⟨code, rfl, hvalue, hpast⟩)
  · exact .malformed
  · exact .character (List.prefix_append _ rest).isInfix h hvalue hpast

/-- What is met behind an opening quote is met in the text. The induction is on
its length, as an escape takes up several characters. -/
theorem gives_doubleQuoted (done : Text) (gap : Gap) (t : Text) :
    Gives (fun _ => True) (MetIn t) (doubleQuoted done gap t) := by
  induction hlength : t.length using Nat.strongRecOn generalizing done gap t with
  | ind n ih =>
    subst hlength
    have hlater (done : Text) (gap : Gap) (read rest : Text) (ht : t = read ++ rest)
        (hread : read ≠ []) : Gives (fun _ => True) (MetIn t) (doubleQuoted done gap rest) := by
      have hshorter : rest.length < t.length := by
        rw [ht, List.length_append]
        exact Nat.lt_add_of_pos_left (List.length_pos_iff.mpr hread)
      exact (ih _ hshorter done gap rest rfl).within (ht ▸ List.suffix_append read rest)
    have hshort (digits : Text) (h : digits.length ≤ 4) :
        Gives (fun _ => True) (MetIn t) (character digits) :=
      (gives_character_short digits h).mono (fun _ => id) fun _ hfault => hfault ▸ .malformed
    cases t with
    | nil => exact .error .malformed
    | cons c rest =>
      rw [doubleQuoted]
      dsimp only
      refine .ite (.error .malformed) <| .ite (hlater _ _ [c] rest rfl (List.cons_ne_nil _ _)) <|
        .ite (hlater _ _ [c] rest rfl (List.cons_ne_nil _ _)) <| .ite (.ok trivial) ?_
      split
      case isFalse => exact hlater _ _ [c] rest rfl (List.cons_ne_nil _ _)
      case isTrue hescape =>
        subst hescape
        split
        · exact .error .malformed
        · rename_i e rest
          split
          · exact hlater _ _ ['\\', e] rest rfl (List.cons_ne_nil _ _)
          · refine .ite (hlater _ _ ['\\', e] rest rfl (List.cons_ne_nil _ _)) ?_
            split
            · rename_i a b rest _
              exact (hshort [a, b] (by simp)).bind fun x _ =>
                hlater _ _ ['\\', 'x', a, b] rest rfl (List.cons_ne_nil _ _)
            · rename_i a b c d rest _
              exact (hshort [a, b, c, d] (by simp)).bind fun x _ =>
                hlater _ _ ['\\', 'u', a, b, c, d] rest rfl (List.cons_ne_nil _ _)
            · rename_i a b c d a' b' c' d' rest _
              exact (gives_character_long [a, b, c, d, a', b', c', d'] rfl).bind fun x _ =>
                hlater _ _ ['\\', 'U', a, b, c, d, a', b', c', d'] rest rfl (List.cons_ne_nil _ _)
            · exact .error .malformed

/-- Reading a line of a block never fails. -/
theorem gives_blockLine (folded : Bool) (indent : Nat) (b : Block) :
    Gives (fun _ => True) F (blockLine folded indent b) := by
  unfold blockLine
  dsimp only
  repeat' split
  all_goals exact .ok trivial

section Malformed

variable (hF : F .malformed)
include hF

theorem gives_singleQuoted (done : Text) (gap : Gap) (t : Text) :
    Gives (fun _ => True) F (singleQuoted done gap t) := by
  fun_induction singleQuoted done gap t
  case case1 | case2 => exact .error hF
  case case6 => exact .ok trivial
  all_goals assumption

theorem gives_blockSigns (t : Text) : Gives (fun _ => True) F (blockSigns t) := by
  unfold blockSigns
  simp only [bind, Except.bind, pure, Except.pure, throw, throwThe, MonadExceptOf.throw]
  repeat' split
  all_goals first
    | exact .ok trivial
    | exact .error hF

theorem gives_emptyLine (t : Text) : Gives (fun _ => True) F (emptyLine t) := by
  unfold emptyLine
  dsimp only
  split
  · exact .ok trivial
  · split
    · exact .ok trivial
    · exact .error hF

theorem gives_block (folded : Bool) (outer : Int) (t : Text) :
    Gives (fun _ => True) F (block folded outer t) := by
  unfold block
  refine (gives_blockSigns hF t).bind fun signs _ => ?_
  refine (gives_emptyLine hF _).bind fun t _ => ?_
  refine Gives.bind (P := fun _ => True) ?_ fun b _ => .ok trivial
  refine gives_steps hF (I := fun _ => True) (fun b _ => ?_) _ trivial
  refine (gives_blockLine folded _ b).mono (fun next _ => ?_) fun _ => id
  cases next <;> trivial

-- --------------------------------------------------------------- names

theorem gives_readName (t : Text) : Gives (fun read => read.2 <:+ t) F (readName t) := by
  unfold readName
  dsimp only
  split
  · exact .error hF
  · exact .ok (List.drop_suffix _ _)

theorem gives_readAnchor (t : Text) : Gives (fun _ => True) F (readAnchor t) := by
  unfold readAnchor
  refine (gives_readName hF t).bind fun read _ => ?_
  dsimp only
  split
  · exact .ok trivial
  · exact .error hF

theorem gives_readHandle (t : Text) : Gives (fun _ => True) F (readHandle t) := by
  unfold readHandle
  split
  · split
    · exact .ok trivial
    · dsimp only
      split
      · exact .ok trivial
      · exact .error hF
  · exact .error hF

theorem gives_escapedBytes (t : Text) : Gives (fun _ => True) F (escapedBytes t) := by
  fun_induction escapedBytes t
  case case1 | case3 => exact .error hF
  case case2 ih => exact ih.map fun _ _ => trivial
  case case4 => exact .ok trivial

theorem gives_readTagText (limit : Nat) (done t : Text) :
    Gives (fun _ => True) F (readTagText limit done t) := by
  fun_induction readTagText limit done t
  case case1 ih =>
    refine (gives_escapedBytes hF _).bind fun read _ => ?_
    dsimp only
    split
    · exact ih _ _
    · exact .error hF
  case case2 ih => exact ih
  case case3 | case5 => exact .error hF
  case case4 | case6 => exact .ok trivial

theorem gives_readTag (t : Text) : Gives (fun _ => True) F (readTag t) := by
  have hend (token : Token) (rest : Text) : Gives (fun _ => True) F
      (if endsWord (first rest) then pure (token, rest) else throw .malformed) := by
    split
    · exact .ok trivial
    · exact .error hF
  unfold readTag
  dsimp only
  split
  · refine (gives_readTagText hF _ _ _).bind fun read _ => ?_
    split
    · exact .error hF
    · exact hend _ _
  · split
    · exact hend _ _
    · split
      · exact (gives_readHandle hF t).bind fun _ _ =>
          (gives_readTagText hF _ _ _).bind fun read _ => hend _ _
      · exact (gives_readTagText hF _ _ _).bind fun read _ => hend _ _

end Malformed

/-- The number of a version is read, or stands there with too many digits. -/
theorem gives_readVersionNumber (t : Text) :
    Gives (fun read => read.2 <:+ t) (MetIn t) (readVersionNumber t) := by
  unfold readVersionNumber
  dsimp only
  split
  · exact .error .malformed
  · split
    · rename_i hlong
      exact .error (.number (List.takeWhile_prefix _).isInfix
        (List.all_eq_true.mp List.all_takeWhile) hlong)
    · exact .ok (List.drop_suffix _ _)

theorem gives_readDirective (t : Text) : Gives (fun _ => True) (MetIn t) (readDirective t) := by
  unfold readDirective
  have hend (d : Directive) (rest : Text) : Gives (fun _ => True) (MetIn t) (do
      let rest ← emptyLine rest
      return (d, rest)) :=
    (gives_emptyLine .malformed rest).bind fun _ _ => .ok trivial
  refine (gives_readName .malformed (t.drop 1)).bind fun name hname => ?_
  have hrest : name.2 <:+ t := hname.trans (List.drop_suffix _ _)
  dsimp only
  split
  · exact .error .malformed
  · split
    · have hfirst : name.2.dropWhile (· = ' ') <:+ t := (List.dropWhile_suffix _).trans hrest
      refine ((gives_readVersionNumber _).within hfirst).bind fun major hmajor => ?_
      split
      · exact .error .malformed
      · have hsecond : major.2.drop 1 <:+ t := (List.drop_suffix _ _).trans (hmajor.trans hfirst)
        refine ((gives_readVersionNumber _).within hsecond).bind fun minor _ => ?_
        split
        · exact .error .malformed
        · exact hend _ _
    · split
      · refine (gives_readHandle .malformed _).bind fun handle _ => ?_
        split
        · exact .error .malformed
        · refine (gives_readTagText .malformed _ _ _).bind fun meaning _ => ?_
          split
          · exact .error .malformed
          · exact hend _ _
      · exact hend _ _

-- ============================================================ scanning

/-- A cursor goes forward. -/
theorem Cursor.skip_suffix (c : Cursor) (n : Nat) : (c.skip n).rest <:+ c.rest := by
  induction n generalizing c with
  | zero => exact List.suffix_rfl
  | succ n ih =>
      refine (ih c.next).trans ?_
      unfold next
      split
      · exact List.suffix_rfl
      · rename_i x rest hrest
        rw [hrest]
        split <;> exact List.suffix_cons x rest

namespace Scan

/-- Scanning goes forward from a place, or meets a fault of what is left. -/
def Goes (s : Scan) : Except Fault Scan → Prop :=
  Gives (fun next => next.cursor.rest <:+ s.cursor.rest) (MetIn s.cursor.rest)

variable {s : Scan} {x : Except Fault Scan} {f : Scan → Except Fault Scan}

/-- A place that has been come to is at the text that is left of it, or further on. -/
theorem Goes.bind (hx : s.Goes x) (hf : ∀ next : Scan, next.Goes (f next)) : s.Goes (x >>= f) :=
  Gives.bind hx fun next hnext =>
    (hf next).mono (fun _ h => h.trans hnext) fun _ h => h.within hnext.isInfix

theorem goes_self {s' : Scan} (h : s'.cursor = s.cursor) : s.Goes (.ok s') :=
  .ok (h.symm ▸ List.suffix_rfl)

theorem goes_dropCandidate (s : Scan) : s.Goes s.dropCandidate := by
  unfold dropCandidate
  split
  · exact goes_self rfl
  · split
    · exact .error .malformed
    · exact goes_self rfl

theorem goes_offerCandidate (s : Scan) : s.Goes s.offerCandidate := by
  unfold offerCandidate
  split
  · exact goes_self rfl
  · exact (goes_dropCandidate s).bind fun next => goes_self rfl

theorem goes_dropStale (s : Scan) : s.Goes s.dropStale := by
  unfold dropStale
  dsimp only
  split
  · exact .error .malformed
  · exact goes_self rfl

theorem cursor_unwind (column : Int) (s : Scan) : (s.unwind column).cursor = s.cursor := by
  unfold unwind
  split
  · rfl
  · dsimp only
    split <;> rfl

theorem cursor_indentTo {column : Int} {next : Scan} (h : s.indentTo column = some next) :
    next.cursor = s.cursor := by
  unfold indentTo at h
  split at h
  · rw [← Option.some.inj h]
  · cases h

theorem goes_blockMark (block : Token) (s : Scan) : s.Goes (s.blockMark block) := by
  unfold blockMark
  split
  · exact goes_self rfl
  · split
    · exact .error .malformed
    · split
      · rename_i next hindent
        have hcursor := cursor_indentTo hindent
        exact goes_self hcursor
      · exact goes_self rfl

/-- Ending blocks leaves the place as it is. -/
theorem Goes.of_unwind {column : Int} (h : (s.unwind column).Goes x) : s.Goes x := by
  unfold Goes at h ⊢
  rwa [cursor_unwind] at h

theorem goes_take (length : Nat) (token : Token) {s' : Scan} (h : s'.cursor = s.cursor) :
    s.Goes (pure (s'.take length token)) := by
  refine .ok ?_
  show (s'.cursor.skip length).rest <:+ s.cursor.rest
  rw [h]
  exact s.cursor.skip_suffix length

theorem goes_goTo (rest : Text) (token : Token) {s' : Scan} (h : s'.cursor = s.cursor) :
    s.Goes (pure ((s'.goTo rest).push token)) := by
  refine .ok ?_
  show (s'.cursor.upTo rest).rest <:+ s.cursor.rest
  rw [h]
  exact s.cursor.skip_suffix _

-- ------------------------------------------------ one kind of token each

theorem gives_finish (s : Scan) : Gives (fun _ => True) (MetIn s.cursor.rest) s.finish :=
  Gives.bind (Goes.of_unwind (goes_dropCandidate _)) fun _ _ => .ok trivial

theorem goes_separator (token : Token) (s : Scan) : s.Goes (s.separator token) :=
  (Goes.of_unwind (goes_dropCandidate _)).bind fun _ => goes_take _ _ rfl

theorem goes_directive (s : Scan) : s.Goes s.directive :=
  (Goes.of_unwind (goes_dropCandidate _)).bind fun next =>
    Gives.bind (gives_readDirective next.cursor.rest) fun _ _ => goes_goTo _ _ rfl

theorem goes_opening (token : Token) (s : Scan) : s.Goes (s.opening token) :=
  (goes_offerCandidate s).bind fun _ => goes_take _ _ rfl

theorem goes_closing (token : Token) (s : Scan) : s.Goes (s.closing token) := by
  refine (goes_dropCandidate s).bind fun next => ?_
  split
  · exact .error .malformed
  · exact goes_take _ _ rfl

theorem goes_flowEntry (s : Scan) : s.Goes s.flowEntry :=
  (goes_dropCandidate s).bind fun _ => goes_take _ _ rfl

theorem goes_blockEntry (s : Scan) : s.Goes s.blockEntry :=
  (goes_blockMark _ s).bind fun next =>
    (goes_dropCandidate next).bind fun _ => goes_take _ _ rfl

theorem goes_explicitKey (s : Scan) : s.Goes s.explicitKey :=
  (goes_blockMark _ s).bind fun next =>
    (goes_dropCandidate next).bind fun _ => goes_take _ _ rfl

theorem goes_mappingValue (s : Scan) : s.Goes s.mappingValue := by
  unfold mappingValue
  split
  · dsimp only
    split
    · rename_i next hindent
      split at hindent
      · cases hindent
      · have hcursor := cursor_indentTo hindent
        exact goes_take _ _ hcursor
    · exact goes_take _ _ rfl
  · exact (goes_blockMark _ s).bind fun next =>
      (goes_dropCandidate next).bind fun _ => goes_take _ _ rfl

theorem goes_keyLike {read : Text → Except Fault (Token × Text)}
    (hread : ∀ t, Gives (fun _ => True) (MetIn t) (read t)) (s : Scan) : s.Goes (s.keyLike read) :=
  (goes_offerCandidate s).bind fun next =>
    Gives.bind (hread next.cursor.rest) fun _ _ => goes_goTo _ _ rfl

theorem goes_blockScalar (folded : Bool) (s : Scan) : s.Goes (s.blockScalar folded) :=
  (goes_dropCandidate s).bind fun _ =>
    Gives.bind (gives_block .malformed _ _ _) fun _ _ => goes_goTo _ _ rfl

theorem goes_plainScalar (s : Scan) : s.Goes s.plainScalar :=
  (goes_offerCandidate s).bind fun _ => goes_goTo _ _ rfl

-- -------------------------------------------------------------- all of them

/-- A step goes on, or ends the document. -/
theorem gives_step (s : Scan) :
    Gives (Sum.elim (fun next => next.cursor.rest <:+ s.cursor.rest) fun _ => True)
      (MetIn s.cursor.rest) s.step := by
  have hstart : s.Goes s.skipBlanks.dropStale :=
    (goes_dropStale s.skipBlanks).mono (fun _ h => h.trans (s.cursor.skip_suffix _))
      fun _ h => h.within (s.cursor.skip_suffix _).isInfix
  have hquoted (read : Text → Except Fault (Text × Text)) {make : Text × Text → Token × Text}
      (hread : ∀ t, Gives (fun _ => True) (MetIn t) (read t)) (t : Text) :
      Gives (fun _ => True) (MetIn t) ((read (t.drop 1)).map make) :=
    ((hread (t.drop 1)).within (List.drop_suffix 1 t)).map fun _ _ => trivial
  have hnamed {make : Text × Text → Token × Text} (t : Text) : Gives (fun _ => True) (MetIn t)
      ((readAnchor (t.drop 1)).map make) :=
    (gives_readAnchor .malformed _).map fun _ _ => trivial
  unfold step
  refine Gives.bind hstart fun next hnext => ?_
  have hgoes {x : Except Fault Scan} (hx : (next.unwind next.column).Goes x) :
      Gives (Sum.elim (fun next => next.cursor.rest <:+ s.cursor.rest) fun _ => True)
        (MetIn s.cursor.rest) (Sum.inl (β := List Token) <$> x) :=
    Gives.map (Goes.of_unwind hx |>.mono (fun _ h => h.trans hnext)
      fun _ h => h.within hnext.isInfix) fun _ h => h
  refine .ite (Gives.map ((gives_finish _).within ?_) fun _ _ => trivial) (hgoes ?_)
  · rw [cursor_unwind]
    exact hnext
  · exact .ite (goes_directive _) <| .ite (goes_separator _ _) <| .ite (goes_separator _ _) <|
      .ite (goes_opening _ _) <| .ite (goes_opening _ _) <| .ite (goes_closing _ _) <|
      .ite (goes_closing _ _) <| .ite (goes_flowEntry _) <| .ite (goes_blockEntry _) <|
      .ite (goes_explicitKey _) <| .ite (goes_mappingValue _) <|
      .ite (goes_keyLike hnamed _) <| .ite (goes_keyLike hnamed _) <|
      .ite (goes_keyLike (fun _ => gives_readTag .malformed _) _) <|
      .ite (goes_blockScalar _ _) <| .ite (goes_blockScalar _ _) <|
      .ite (goes_keyLike (hquoted (singleQuoted [] .none) fun t =>
        gives_singleQuoted .malformed [] .none t) _) <|
      .ite (goes_keyLike (hquoted (doubleQuoted [] .none) (gives_doubleQuoted [] .none)) _) <|
      .ite (goes_plainScalar _) (.error .malformed)

end Scan

/-- Scanning a document meets faults of the document only. -/
theorem gives_scan (t : Text) : Gives (fun _ => True) (MetIn t) (Token.scan t) := by
  unfold Token.scan
  refine .ite (.error .malformed) ?_
  dsimp only
  generalize hbody : (if first t = '\uFEFF' then t.drop 1 else t) = body
  have hpart : body <:+ t := by
    rw [← hbody]
    split
    · exact List.drop_suffix 1 t
    · exact List.suffix_rfl
  refine gives_steps (I := fun s => s.cursor.rest <:+ t) .malformed (fun s hs => ?_) _ hpart
  refine s.gives_step.mono (fun next hnext => ?_) fun _ h => h.within hs.isInfix
  cases next with
  | inl next => exact hnext.trans hs
  | inr tokens => trivial

end FeedSieve.Yaml
