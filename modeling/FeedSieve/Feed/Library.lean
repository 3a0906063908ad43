/-
The library that takes feed documents apart.

Reading a document is left to a library, and most of what that library does
is written out here, element by element. Some of its parts are not: how it
makes pages harmless and how it tells a page from a plain text, in which
other forms it knows dates, how it puts a media type in small letters, and
what becomes of a document that is not well-formed when it is gone over
again loosely. Nor is it written out what it makes of documents that hold
more than what is read here. Whatever depends on these parts has them as a
parameter, with the little that is relied on.
-/
import FeedSieve.Feed.Record

namespace FeedSieve.Feed

open Lax (Value)

/-- What is made of a document. -/
structure Digest where
  /-- What is malformed about it. -/
  malformed : Option Text
  /-- Whether it is a feed. -/
  isFeed : Bool
  /-- What it says about the feed. -/
  feed : Record
  /-- What it says about the entries, in order. -/
  entries : List Record
deriving Repr, DecidableEq

/-- The draft that is handed over. -/
def Digest.draft (d : Digest) : Draft :=
  ⟨some (.bool d.isFeed), d.malformed, d.feed.channelFields, d.entries.map Record.entryFields⟩

/-- How the text of an element is taken. -/
inductive Manner where
  /-- As it is. -/
  | asIs
  /-- As a plain text, which may turn out to be a page. -/
  | plain
  /-- As a page. -/
  | page
deriving Repr, DecidableEq

/-- The parts of the library that are not written out. -/
structure Library where
  /-- Whether a plain text is taken for a page. -/
  looksLikePage : Text → Bool
  /-- A page with its addresses resolved and without what might do harm, or
  what breaks that off. -/
  purified : Text → Except Text Text
  /-- The date that a text means, in any of the forms that the library knows. -/
  stamp? : Text → Option Stamp
  /-- A text in small letters. -/
  lowered : Text → Text
  /-- What escapes when a document that is not well-formed is gone over. -/
  stray? : Bytes → Option Text
  /-- What is made of a document that holds more than what is read here, or
  what escapes; `none` if it makes no difference. -/
  digest? : Bytes → Option (Except Text Digest)
  purified_nil : purified [] = .ok []
  lowered_lowered : ∀ t, lowered (lowered t) = lowered t
  lowered_ascii : ∀ t, (∀ c ∈ t, c.toNat < 128) → lowered t = Text.lowerPlain t
  lowered_digest : ∀ bytes digest, digest? bytes = some (.ok digest) →
    ∀ entry ∈ digest.entries, entry.Lowered lowered

namespace Library

/-- A text that is taken in some way; in an Atom feed a text that is said to
be plain is so. -/
def purify (library : Library) (manner : Manner) (isAtom : Bool) (t : Text) : Except Text Text :=
  match manner with
  | .asIs => .ok t
  | .plain => if !isAtom && library.looksLikePage t then library.purified t else .ok t
  | .page => library.purified t

/-- What is kept of a text: nothing if it breaks off. -/
def kept (library : Library) (manner : Manner) (isAtom : Bool) (t : Text) : Text :=
  (library.purify manner isAtom t).toOption.getD []

/-- What breaks a text off. -/
def fault? (library : Library) (manner : Manner) (isAtom : Bool) (t : Text) : Option Text :=
  match library.purify manner isAtom t with
  | .ok _ => none
  | .error what => some what

/-- The date in numbers that the text of an element means. -/
def stampOf? (library : Library) (t : Text) : Option Stamp :=
  if t.isEmpty then none else library.stamp? t

private theorem toLower_toLower (c : Char) : c.toLower.toLower = c.toLower := by
  unfold Char.toLower
  split
  case isFalse h => rfl
  case isTrue h =>
    rw [dif_neg]
    simp only [ge_iff_le, UInt32.le_iff_toNat_le, UInt32.toNat_add] at h ⊢
    have hfirst : 'A'.val.toNat = 65 := rfl
    have hlast : 'Z'.val.toNat = 90 := rfl
    have hgap : ('a'.val - 'A'.val).toNat = 32 := rfl
    omega

/-- What is in small letters is so already. -/
private theorem lowerPlain_lowerPlain (t : Text) :
    Text.lowerPlain (Text.lowerPlain t) = Text.lowerPlain t := by
  rw [Text.lowerPlain, Text.lowerPlain, List.map_map]
  exact List.map_congr_left fun c _ => toLower_toLower c

/-- The library as far as it is written out: nothing looks like a page, no
date is known but in the usual forms, only the letters of ASCII have small
ones, and documents of all sorts are read as far as they can be. -/
def plain : Library where
  looksLikePage _ := false
  purified := .ok
  stamp? _ := none
  lowered := Text.lowerPlain
  stray? _ := none
  digest? _ := none
  purified_nil := rfl
  lowered_lowered := lowerPlain_lowerPlain
  lowered_ascii _ _ := rfl
  lowered_digest _ _ h := nomatch h

end Library

end FeedSieve.Feed
