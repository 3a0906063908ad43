/-
What the file system refuses.

A refusal has a number, a wording, and the path that was asked for; moving a
file has two paths. A path with the character of number zero in it is
refused before the file system is asked at all.
-/
import FeedSieve.Text.Quoted
import FeedSieve.Files.Path

namespace FeedSieve.Files

/-- The reasons the file system has. -/
inductive Reason where
  | missing
  | busy
  | present
  | notDirectory
  | isDirectory
  | nameTooLong
deriving Repr, DecidableEq

/-- The number of a reason. -/
def Reason.number : Reason → Nat
  | missing => 2
  | busy => 16
  | present => 17
  | notDirectory => 20
  | isDirectory => 21
  | nameTooLong => 36

/-- The wording of a reason. -/
def Reason.wording : Reason → Text
  | missing => "No such file or directory"
  | busy => "Device or resource busy"
  | present => "File exists"
  | notDirectory => "Not a directory"
  | isDirectory => "Is a directory"
  | nameTooLong => "File name too long"

/-- A refusal. -/
inductive Fault where
  /-- By the file system. -/
  | refused (reason : Reason) (path : Text) (target : Option Text)
  /-- Of a path that is none. -/
  | nul
deriving Repr, DecidableEq

/-- The message about a refusal. -/
def Fault.message : Fault → Text
  | refused reason path target =>
      let move := match target with
        | some t => " -> ".toList ++ Text.quoted t
        | none => []
      Text.concat ["[Errno ", Text.ofNat reason.number, "] ", reason.wording, ": ",
        Text.quoted path, move]
  | nul => "embedded null byte"

end FeedSieve.Files
