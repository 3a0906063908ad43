/-
Hosts between brackets.

A host in brackets is an address of version 6, or of a version yet to come
marked by `v`. An address of version 6 is eight groups of up to four
hexadecimal digits with colons between them; one run of groups may be left
out, and the last two may be written as an address of version 4. A scope
may follow behind a percent sign.
-/
import FeedSieve.Text.Basic

namespace FeedSieve.Url

/-- A number of an address of version 4: at most 255, without leading zeros. -/
def isOctet (t : Text) : Bool :=
  !t.isEmpty && t.length ≤ 3 && t.all Text.isPlainDigit &&
    (t.length == 1 || t.head? != some '0') &&
    decide (t.foldl (fun n c => 10 * n + (Text.plainDigit? c).getD 0) 0 ≤ 255)

/-- Whether a text is an address of version 4. -/
def isAddress4 (t : Text) : Bool :=
  let octets := Text.splitOn '.' t
  octets.length == 4 && octets.all isOctet

/-- A group of an address of version 6. -/
def isGroup (t : Text) : Bool :=
  1 ≤ t.length && t.length ≤ 4 && t.all fun c => (Text.hexDigit? c).isSome

/-- The groups of an address with an address of version 4 at its end turned
into two groups. -/
def groupsOf? (t : Text) : Option (List Text) :=
  let groups := Text.splitOn ':' t
  match groups.getLast? with
  | some last =>
      if last.contains '.' then
        if isAddress4 last then some (groups.dropLast ++ [['0'], ['0']]) else none
      else some groups
  | none => some groups

/-- Whether a text is an address of version 6. A group that is left out
leaves an empty text between two colons, and one more at an end that it
touches. -/
def isAddress6 (t : Text) : Bool :=
  let (address, scope) := Text.cut '%' t
  let scopeFits := match scope with
    | none => true
    | some s => !s.isEmpty && !s.contains '%'
  match groupsOf? address with
  | none => false
  | some groups =>
      let empty := (groups.drop 1).dropLast.countP List.isEmpty
      let opening := groups.head? == some []
      let closing := groups.getLast? == some []
      let filled := groups.filter (!·.isEmpty)
      let gap := match groups with
        | [] :: second :: _ => second.isEmpty
        | _ => true
      let gapAtEnd := match groups.reverse with
        | [] :: second :: _ => second.isEmpty
        | _ => true
      scopeFits && 3 ≤ groups.length && filled.all isGroup &&
        (if empty == 0 then !opening && !closing && filled.length == 8
         else empty == 1 && (!opening || gap) && (!closing || gapAtEnd) && filled.length ≤ 7)

/-- Whether a text is an address of a later version: `v`, a hexadecimal
number, a point and something behind it on one line. -/
def isFutureAddress (t : Text) : Bool :=
  match t with
  | 'v' :: rest =>
      match Text.cut '.' rest with
      | (version, some address) =>
          !version.isEmpty && version.all (fun c => (Text.hexDigit? c).isSome) &&
            !address.isEmpty && !address.contains '\n'
      | _ => false
  | _ => false

end FeedSieve.Url
