/-
Splitting a command line into words, as a shell does it.

A shell reads a command line one character after another. It is outside of
all quotes, or between some, or right behind a backslash, and what the next
character means depends on nothing else (`step`). Where a shell would do more
than split (an operator, an expansion, a pattern), or where a quote is left
open, there is no answer.

A word that has been quoted takes the shell from one place outside of quotes
to another, with just this word gathered on the way (`walk_quote`); so the
words of a command line come back whatever is in them (`split?_join`).
-/
import FeedSieve.Text.ShellWord

namespace FeedSieve.ShellWord

/-- Where a shell is. -/
inductive Spot where
  /-- Outside of all quotes. -/
  | bare
  /-- Behind a backslash outside of quotes. -/
  | escaped
  /-- Between single quotes. -/
  | single
  /-- Between double quotes. -/
  | double
  /-- Behind a backslash between double quotes. -/
  | doubleEscaped
deriving Repr, DecidableEq

/-- What a shell has read. -/
structure Splitting where
  /-- The words that have ended. -/
  words : List Text
  /-- The word that has begun. -/
  word : Option Text
  spot : Spot
deriving Repr, DecidableEq

namespace Splitting

/-- Before anything is read. -/
def start : Splitting := ⟨[], none, .bare⟩

/-- All words. -/
def all (s : Splitting) : List Text := s.words ++ s.word.toList

/-- At another spot. -/
def moveTo (s : Splitting) (spot : Spot) : Splitting := { s with spot := spot }

/-- Within a word, which may be empty so far. -/
def inWord (s : Splitting) : Splitting := { s with word := some (s.word.getD []) }

/-- With one more character in the word. -/
def add (s : Splitting) (c : Char) : Splitting := { s with word := some (s.word.getD [] ++ [c]) }

end Splitting

/-- The characters that mean something outside of quotes, besides quotes,
backslashes and blanks. -/
def active : Text := "|&;<>()$`*?[]\x7b\x7d#~!\n".toList

/-- The characters that mean something between double quotes if there is no
backslash before them. -/
def activeInDouble : Text := "$`\"\\".toList

/-- Reads a character. -/
def step (s : Splitting) (c : Char) : Option Splitting :=
  match s.spot with
  | .bare =>
      if c = ' ' ∨ c = '\t' then some ⟨s.all, none, .bare⟩
      else if c = '\'' then some (s.inWord.moveTo .single)
      else if c = '"' then some (s.inWord.moveTo .double)
      else if c = '\\' then some (s.moveTo .escaped)
      else if c ∈ active then none
      else some (s.add c)
  | .escaped => some (if c = '\n' then s.moveTo .bare else (s.add c).moveTo .bare)
  | .single => some (if c = '\'' then s.moveTo .bare else s.add c)
  | .double =>
      if c = '"' then some (s.moveTo .bare)
      else if c = '\\' then some (s.moveTo .doubleEscaped)
      else if c ∈ activeInDouble then none
      else some (s.add c)
  | .doubleEscaped =>
      some ((if c = '\n' then s else if c ∈ activeInDouble then s.add c
        else (s.add '\\').add c).moveTo .double)

/-- Reads characters. -/
def walk (s : Splitting) (t : Text) : Option Splitting := t.foldlM step s

/-- The words of a command line. -/
def split? (t : Text) : Option (List Text) :=
  ((walk .start t).filter (·.spot = .bare)).map (·.all)

variable {s : Splitting} {words : List Text} {word : Text} {c : Char}

-- =============================================================== walks

theorem walk_append (s : Splitting) (t u : Text) :
    walk s (t ++ u) = (walk s t).bind (walk · u) := List.foldlM_append

theorem walk_cons (s : Splitting) (c : Char) (t : Text) :
    walk s (c :: t) = (step s c).bind (walk · t) := List.foldlM_cons

-- =============================================================== words

/-- A harmless character means nothing. -/
theorem step_plain (h : isPlain c = true) (hbare : s.spot = .bare) : step s c = some (s.add c) := by
  have hne {d : Char} (hd : isPlain d = false) : c ≠ d := fun hcd => by
    rw [← hcd, h] at hd
    cases hd
  have hactive : c ∉ active := fun hc => by
    have hall : active.all (!isPlain ·) = true := by decide
    rw [List.all_eq_true] at hall
    simpa [h] using hall c hc
  have hblank : ¬ (c = ' ' ∨ c = '\t') := by
    rintro (hc | hc)
    · exact hne (by decide) hc
    · exact hne (by decide) hc
  simp only [step, hbare]
  rw [if_neg hblank, if_neg (hne (by decide)), if_neg (hne (by decide)), if_neg (hne (by decide)),
    if_neg hactive]

/-- Harmless characters are gathered in the word. -/
theorem walk_plain (before : Text) (h : ∀ c ∈ word, isPlain c = true) :
    walk ⟨words, some before, .bare⟩ word = some ⟨words, some (before ++ word), .bare⟩ := by
  induction word generalizing before with
  | nil => rw [List.append_nil]; rfl
  | cons c rest ih =>
      rw [List.forall_mem_cons] at h
      rw [walk_cons, step_plain h.1 rfl, Option.bind_some, Splitting.add, Option.getD_some, ih _ h.2,
        List.append_assoc, List.singleton_append]

/-- So is whatever stands between single quotes: a single quote leaves them,
stands between double quotes, and enters them again. -/
theorem walk_within (before word : Text) :
    walk ⟨words, some before, .single⟩ (word.flatMap within)
      = some ⟨words, some (before ++ word), .single⟩ := by
  induction word generalizing before with
  | nil => rw [List.append_nil]; rfl
  | cons c rest ih =>
      have hone : walk ⟨words, some before, .single⟩ (within c)
          = some ⟨words, some (before ++ [c]), .single⟩ := by
        by_cases hc : c = '\''
        · rw [hc]
          rfl
        · rw [within, if_neg hc, walk_cons]
          simp only [step, if_neg hc]
          rfl
      rw [List.flatMap_cons, walk_append, hone, Option.bind_some, ih, List.append_assoc,
        List.singleton_append]

/-- A quoted word is read as one word, and nothing is left open. -/
theorem walk_quote (words : List Text) (word : Text) :
    walk ⟨words, none, .bare⟩ (quote word) = some ⟨words, some word, .bare⟩ := by
  unfold quote
  cases word with
  | nil => rfl
  | cons c rest =>
      rw [if_neg (by simp)]
      split
      case isTrue hplain =>
        rw [List.all_eq_true, List.forall_mem_cons] at hplain
        rw [walk_cons, step_plain hplain.1 rfl]
        exact walk_plain [c] hplain.2
      case isFalse =>
        have hopen : step ⟨words, none, .bare⟩ '\'' = some ⟨words, some [], .single⟩ := rfl
        rw [List.cons_append, walk_cons, hopen, Option.bind_some, walk_append, walk_within,
          List.nil_append]
        rfl

-- ======================================================= command lines

/-- Words with blanks between them are read one after another. -/
theorem walk_join (words : List Text) (word : Text) (rest : List Text) :
    ∃ s, walk ⟨words, none, .bare⟩ (join (word :: rest)) = some s ∧ s.spot = .bare
      ∧ s.all = words ++ word :: rest := by
  induction rest generalizing words word with
  | nil => exact ⟨_, walk_quote words word, rfl, rfl⟩
  | cons next rest ih =>
      obtain ⟨s, hwalk, hspot, hall⟩ := ih (words ++ [word]) next
      refine ⟨s, ?_, hspot, by rw [hall, List.append_assoc, List.singleton_append]⟩
      have hblank : step ⟨words, some word, .bare⟩ ' ' = some ⟨words ++ [word], none, .bare⟩ := rfl
      have hjoin : join (word :: next :: rest) = quote word ++ ' ' :: join (next :: rest) := by
        simp [join, Text.joinWith]
      rw [hjoin, walk_append, walk_quote, Option.bind_some, walk_cons, hblank, Option.bind_some,
        hwalk]

/-- The words of a command line come back, whatever is in them. -/
theorem split?_join (command : List Text) : split? (join command) = some command := by
  cases command with
  | nil => rfl
  | cons word rest =>
      obtain ⟨s, hwalk, hspot, hall⟩ := walk_join [] word rest
      rw [split?, Splitting.start, hwalk, Option.filter_some, if_pos (by simp [hspot]),
        Option.map_some, hall, List.nil_append]

example : split? "a 'b $c' \"it's\" \\d".toList
    = some ["a".toList, "b $c".toList, "it's".toList, "d".toList] := by decide

example : split? "a $b".toList = none := by decide

end FeedSieve.ShellWord
