/-
The names of downloaded files.

A file is named by the title of its item, made safe as a single name within
a directory: characters with a meaning to some file system become hyphens,
runs of blanks become one space, points and spaces at the ends go, and at
most two hundred characters are kept. If nothing is left the identifier of
the item is used in the same way, and failing that its number. The
extension follows from the media type of the enclosure, else from the path
of its URL.

Downloading and telling what has been downloaded use the same names. Two
items may have one name; then they have one file.
-/
import FeedSieve.Feed.Basic
import FeedSieve.Files.Path
import FeedSieve.Text.Percent
import FeedSieve.Url.Split
import FeedSieve.Download.MediaType

namespace FeedSieve.Download

/-- The most characters that are kept of a title. -/
def stemLength : Nat := 200

/-- Whether a character may have a meaning to a file system. -/
def isUnsafe (c : Char) : Bool :=
  "/\\<>:\"|?*".toList.contains c || c.toNat < 0x20 || c.toNat = 0x7f

/-- Whether a character is dropped at the ends of a name. -/
def isMargin (c : Char) : Bool := c = ' ' || c = '.'

/-- A text as a single name. -/
def sanitize (t : Text) : Text :=
  let cleaned := Text.squeeze (t.map fun c => if isUnsafe c then '-' else c)
  Text.stripEnd isMargin ((Text.strip isMargin cleaned).take stemLength)

/-- Whether a character may stand in an extension. -/
def inExtension (c : Char) : Bool := Text.isLetter c || Text.isPlainDigit c

/-- The extension of a file name: one to five letters or digits behind its
last point. A line end behind them is passed over. -/
def suffix? (name : Text) : Option Text :=
  let backward := match name.reverse with
    | '\n' :: rest => rest
    | rest => rest
  let extension := backward.takeWhile inExtension
  if 1 ≤ extension.length && extension.length ≤ 5 &&
      (backward.drop extension.length).head? = some '.' then
    some (Text.lowerPlain extension.reverse)
  else none

/-- The extension of the file that a URL is the address of. -/
def urlExtension? (url : Text) : Except Url.Broken (Option Text) := do
  let parts ← Url.split url
  return suffix? (Files.Path.ofText (Percent.decode parts.plainPath)).name

/-- The extension for the enclosure of an item: by its type if that is
known, else by its address. -/
def extension? (item : Feed.Item) : Except Url.Broken (Option Text) :=
  match (item.enclosureType.filter (!·.isEmpty)).bind MediaType.extension? with
  | some extension => .ok (some extension)
  | none => match item.enclosureUrl with
    | some url => if url.isEmpty then .ok none else urlExtension? url
    | none => .ok none

/-- The name without extension. -/
def stem (item : Feed.Item) : Text :=
  let ofTitle := sanitize item.title
  if !ofTitle.isEmpty then ofTitle
  else
    let ofGuid := sanitize (item.guid.getD [])
    if !ofGuid.isEmpty then ofGuid else "item-".toList ++ Text.ofNat item.index

/-- The name of the file of an item. -/
def fileName (item : Feed.Item) : Except Url.Broken Text := do
  match ← extension? item with
  | some extension => return Text.concat [stem item, ".", extension]
  | none => return stem item

/-- The path of the file of an item within a directory. -/
def filePath (item : Feed.Item) (destination : Files.Path) : Except Url.Broken Files.Path := do
  return destination.child (← fileName item)

end FeedSieve.Download
