/-
Words of a shell command.

A word made of harmless characters stands for itself. Any other stands
between single quotes, within which nothing has a meaning but the single
quote; that one is written between double quotes, outside the single ones.
-/
import FeedSieve.Text.Basic

namespace FeedSieve.ShellWord

/-- Whether the shell takes a character as it is. -/
def isPlain (c : Char) : Bool :=
  Text.isLetter c || Text.isPlainDigit c || "_@%+=:,./-".toList.contains c

/-- One character between single quotes. -/
def within (c : Char) : Text := if c = '\'' then "'\"'\"'" else [c]

/-- A word as the shell reads it back. -/
def quote (word : Text) : Text :=
  if word.isEmpty then "''"
  else if word.all isPlain then word
  else '\'' :: word.flatMap within ++ ['\'']

/-- A command line. -/
def join (command : List Text) : Text := Text.joinWith " " (command.map quote)

end FeedSieve.ShellWord
