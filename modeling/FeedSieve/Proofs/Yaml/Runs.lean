/-
The runs of a text.

The runs of a text make it up (`textOf_runsOf`), and none of them is empty.
Runs of one sort are never neighbours. So where spaces do not stand next to
line ends, what stands between two words is one run: words and gaps
alternate (`alternating_runsOf`).
-/
import Mathlib.Algebra.GroupWithZero.Nat
import Mathlib.Data.List.Chain
import FeedSieve.Yaml.Written

namespace FeedSieve.Yaml

variable {p q : Char → Bool} {c : Char} {t : Text} {r : Run} {runs : List Run}

-- ======================================================== neighbours

/-- Neighbours are not found where no place has them. -/
theorem hasNeighbours_eq_false_iff :
    hasNeighbours p q t = false ↔ t.IsChain fun a b => p a = true → q b = false := by
  induction t with
  | nil => exact iff_of_true rfl .nil
  | cons a t ih =>
      cases t with
      | nil => exact iff_of_true rfl (.singleton a)
      | cons b t =>
          have hstep : hasNeighbours p q (a :: b :: t)
              = ((p a && q b) || hasNeighbours p q (b :: t)) := rfl
          rw [hstep, Bool.or_eq_false_iff, List.isChain_cons_cons, ih, Bool.and_eq_false_imp]

-- ============================================================== runs

namespace Run

/-- The characters of a run. -/
def text : Run → Text
  | word t => t
  | spaces n => List.replicate n ' '
  | breaks n => List.replicate n '\n'

/-- Whether it is a word. -/
def isWord : Run → Bool
  | word _ => true
  | _ => false

/-- It is not empty, and a word has neither spaces nor line ends. -/
def Sound : Run → Prop
  | word t => t ≠ [] ∧ ∀ c ∈ t, c ≠ ' ' ∧ c ≠ '\n'
  | spaces n => n ≠ 0
  | breaks n => n ≠ 0

end Run

/-- The text that runs make up. -/
def textOf (runs : List Run) : Text := runs.flatMap Run.text

@[simp] theorem textOf_nil : textOf [] = [] := rfl

@[simp] theorem textOf_cons (r : Run) (runs : List Run) :
    textOf (r :: runs) = r.text ++ textOf runs :=
  List.flatMap_cons

/-- Words and gaps alternate. -/
structure Alternating (runs : List Run) : Prop where
  sound : ∀ r ∈ runs, r.Sound
  chain : runs.IsChain fun a b => a.isWord ≠ b.isWord

theorem alternating_nil : Alternating [] := ⟨fun _ h => absurd h List.not_mem_nil, .nil⟩

theorem Alternating.tail (h : Alternating (r :: runs)) : Alternating runs :=
  ⟨fun r hr => h.sound r (List.mem_cons_of_mem _ hr), h.chain.tail⟩

/-- What stands before a word is a gap, and the other way round. -/
theorem alternating_cons (hr : r.Sound) (h : Alternating runs)
    (hhead : ∀ next ∈ runs.head?, r.isWord ≠ next.isWord) : Alternating (r :: runs) :=
  ⟨List.forall_mem_cons.mpr ⟨hr, h.sound⟩, List.isChain_cons.mpr ⟨hhead, h.chain⟩⟩

/-- A run may be exchanged for one that is a word if it is. -/
theorem Alternating.exchange {r' : Run} (h : Alternating (r :: runs)) (hr : r'.Sound)
    (hsame : r'.isWord = r.isWord) : Alternating (r' :: runs) := by
  refine alternating_cons hr h.tail fun next hnext => ?_
  rw [hsame]
  exact (List.isChain_cons.mp h.chain).1 next hnext

/-- Putting a character before runs puts it before their text. -/
theorem textOf_consRun (c : Char) (runs : List Run) :
    textOf (consRun c runs) = c :: textOf runs := by
  unfold consRun
  split
  · rename_i hc
    subst hc
    split <;> rfl
  · split
    · rename_i hc
      subst hc
      split <;> rfl
    · split <;> rfl

theorem runsOf_cons (c : Char) (t : Text) : runsOf (c :: t) = consRun c (runsOf t) := rfl

/-- The runs of a text make it up. -/
theorem textOf_runsOf (t : Text) : textOf (runsOf t) = t := by
  induction t with
  | nil => rfl
  | cons c t ih => rw [runsOf_cons, textOf_consRun, ih]

/-- A character that goes with what follows leaves runs alternating. -/
theorem alternating_consRun (h : Alternating runs)
    (hbreak : c = '\n' → (textOf runs).head? ≠ some ' ')
    (hspace : c = ' ' → (textOf runs).head? ≠ some '\n') : Alternating (consRun c runs) := by
  have hword (w : Text) (hc : c ≠ ' ' ∧ c ≠ '\n') (hw : ∀ d ∈ w, d ≠ ' ' ∧ d ≠ '\n') :
      (Run.word (c :: w)).Sound :=
    ⟨List.cons_ne_nil c w, List.forall_mem_cons.mpr ⟨hc, hw⟩⟩
  unfold consRun
  split
  case isTrue hc =>
    cases runs with
    | nil => exact alternating_cons Nat.one_ne_zero h fun next hnext => by cases hnext
    | cons s rest =>
        cases s with
        | word w =>
            refine alternating_cons Nat.one_ne_zero h fun next hnext => ?_
            rw [← Option.some.inj hnext]
            exact Bool.false_ne_true
        | spaces n => exact h.exchange (Nat.succ_ne_zero n) rfl
        | breaks n =>
            obtain ⟨n, rfl⟩ := Nat.exists_eq_succ_of_ne_zero (h.sound _ List.mem_cons_self)
            exact absurd rfl (hspace hc)
  case isFalse hnospace =>
    split
    case isTrue hc =>
      cases runs with
      | nil => exact alternating_cons Nat.one_ne_zero h fun next hnext => by cases hnext
      | cons s rest =>
          cases s with
          | word w =>
              refine alternating_cons Nat.one_ne_zero h fun next hnext => ?_
              rw [← Option.some.inj hnext]
              exact Bool.false_ne_true
          | breaks n => exact h.exchange (Nat.succ_ne_zero n) rfl
          | spaces n =>
              obtain ⟨n, rfl⟩ := Nat.exists_eq_succ_of_ne_zero (h.sound _ List.mem_cons_self)
              exact absurd rfl (hbreak hc)
    case isFalse hnobreak =>
      have hc := And.intro hnospace hnobreak
      cases runs with
      | nil => exact alternating_cons (hword [] hc (by simp)) h fun next hnext => by cases hnext
      | cons s rest =>
          cases s with
          | word w => exact h.exchange (hword w hc (h.sound _ List.mem_cons_self).2) rfl
          | spaces n =>
              refine alternating_cons (hword [] hc (by simp)) h fun next hnext => ?_
              rw [← Option.some.inj hnext]
              exact Bool.false_ne_true.symm
          | breaks n =>
              refine alternating_cons (hword [] hc (by simp)) h fun next hnext => ?_
              rw [← Option.some.inj hnext]
              exact Bool.false_ne_true.symm

/-- The runs of a text alternate where no space stands next to a line end. -/
theorem alternating_runsOf (hbreak : hasNeighbours (· = '\n') (· = ' ') t = false)
    (hspace : hasNeighbours (· = ' ') (· = '\n') t = false) : Alternating (runsOf t) := by
  rw [hasNeighbours_eq_false_iff] at hbreak hspace
  induction t with
  | nil => exact alternating_nil
  | cons c t ih =>
      obtain ⟨hbreakHead, hbreakTail⟩ := List.isChain_cons.mp hbreak
      obtain ⟨hspaceHead, hspaceTail⟩ := List.isChain_cons.mp hspace
      rw [runsOf_cons]
      refine alternating_consRun (ih hbreakTail hspaceTail) (fun hc hhead => ?_)
        fun hc hhead => ?_
      · rw [textOf_runsOf] at hhead
        exact absurd (hbreakHead ' ' hhead (decide_eq_true hc)) (by decide)
      · rw [textOf_runsOf] at hhead
        exact absurd (hspaceHead '\n' hhead (decide_eq_true hc)) (by decide)

end FeedSieve.Yaml
