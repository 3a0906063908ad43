/-
Values of data formats.

Settings and queries also come as structured data, in which nothing is
known beforehand about the shape of a value. Whole numbers are kept apart
from doubles, as the formats keep them apart.
-/
import FeedSieve.Number.Double

namespace FeedSieve.Lax

/-- A value of a data format. -/
inductive Value where
  | null
  | bool (b : Bool)
  | int (i : Int)
  | double (d : Number.Double)
  | text (t : Text)
  /-- Bytes, and the text that they spell if they spell one. -/
  | bytes (spelt? : Option Text)
  | list (members : List Value)
  /-- A mapping from texts to values; of two fields of one name the last counts. -/
  | record (fields : List (Text × Value))
  /-- A value of some other sort, which nothing here asks for. -/
  | other
deriving Repr, Inhabited

/-- The field of a record, if there is one of that name. -/
def fieldOf? (fields : List (Text × Value)) (name : Text) : Option Value :=
  (fields.reverse.find? fun f => f.1 == name).map (·.2)

end FeedSieve.Lax
