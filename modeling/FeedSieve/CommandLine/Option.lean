/-
Options among the words of a command line.

An option has a long name behind two hyphens, and perhaps a letter behind
one. Its value, if it takes one, is the next word, whatever that looks like,
or stands behind the long name and an equals sign, or right behind the
letter. Letters may share a hyphen, up to the first that takes a value. Two
hyphens alone end the options.
-/
import FeedSieve.Text.Basic

namespace FeedSieve.CommandLine

/-- An option. -/
structure Flag where
  /-- Its long name, with the hyphens. -/
  long : Text
  letter : Option Char
  /-- Whether it takes a value. -/
  valued : Bool
deriving Repr, DecidableEq

/-- An option with a letter that takes a value. -/
def Flag.valuedWith (letter : Char) (long : Text) : Flag := ⟨long, some letter, true⟩

/-- An option without letter that takes a value. -/
def Flag.valuedLong (long : Text) : Flag := ⟨long, none, true⟩

/-- An option without letter or value. -/
def Flag.plain (long : Text) : Flag := ⟨long, none, false⟩

/-- An option as it is given. -/
structure Given where
  /-- The long name. -/
  long : Text
  value : Option Text
deriving Repr, DecidableEq

/-- What is wrong with the words. -/
inductive Misuse where
  /-- There is no such option. -/
  | unknown (word : Text)
  /-- An option is given without its value. -/
  | valueMissing (long : Text)
  /-- An option is given with a value that it does not take. -/
  | valueUnwanted (long : Text)
deriving Repr, DecidableEq

/-- What one word says. -/
structure Said where
  /-- The options that it gives. -/
  given : List Given
  /-- The option at its end whose value is to come. -/
  wants : Option Text
deriving Repr, DecidableEq

/-- What the letters behind a hyphen say. -/
def lettersSay (flags : List Flag) : Text → Except Misuse Said
  | [] => .ok ⟨[], none⟩
  | c :: rest =>
      match flags.find? (·.letter == some c) with
      | none => .error (.unknown ['-', c])
      | some flag =>
          if !flag.valued then
            (lettersSay flags rest).map fun said =>
              { said with given := ⟨flag.long, none⟩ :: said.given }
          else if rest.isEmpty then .ok ⟨[], some flag.long⟩
          else .ok ⟨[⟨flag.long, some rest⟩], none⟩

/-- What a word says that begins with a hyphen. -/
def wordSays (flags : List Flag) (word : Text) : Except Misuse Said :=
  let (name, value) := Text.cut '=' word
  match flags.find? (·.long == name), value with
  | some flag, some value =>
      if flag.valued then .ok ⟨[⟨flag.long, some value⟩], none⟩
      else .error (.valueUnwanted flag.long)
  | some flag, none =>
      if flag.valued then .ok ⟨[], some flag.long⟩ else .ok ⟨[⟨flag.long, none⟩], none⟩
  | none, _ =>
      if Text.beginsWith "--" word then .error (.unknown name)
      else lettersSay flags (word.drop 1)

/-- Whether a word gives options. -/
def givesOptions (word : Text) : Bool := word.head? == some '-' && 1 < word.length

/-- Reads words: the options given, and the words that are left. If options
are not `mixed` with other words, the first other word ends them. -/
def readWords (flags : List Flag) (mixed : Bool) :
    List Text → Except Misuse (List Given × List Text)
  | [] => .ok ([], [])
  | word :: rest =>
      if word = "--".toList then .ok ([], rest)
      else if givesOptions word then
        match wordSays flags word with
        | .error misuse => .error misuse
        | .ok said =>
            match said.wants, rest with
            | none, rest =>
                (readWords flags mixed rest).map fun (given, left) => (said.given ++ given, left)
            | some long, value :: rest =>
                (readWords flags mixed rest).map fun (given, left) =>
                  (said.given ++ ⟨long, some value⟩ :: given, left)
            | some long, [] => .error (.valueMissing long)
      else if mixed then
        (readWords flags mixed rest).map fun (given, left) => (given, word :: left)
      else .ok ([], word :: rest)

/-- The value of an option; the last one given counts. -/
def valueOf? (given : List Given) (long : Text) : Option Text :=
  ((given.filter (·.long == long)).getLast?).bind (·.value)

/-- Whether an option is given. -/
def isGiven (given : List Given) (long : Text) : Bool := given.any (·.long == long)

end FeedSieve.CommandLine
