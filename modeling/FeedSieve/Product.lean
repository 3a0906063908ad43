/-
What the program is called, wherever it says so.
-/
import FeedSieve.Text.Basic

namespace FeedSieve.Product

/-- The name of the program. -/
def name : Text := "dumptruck"

/-- Its version. -/
def version : Text := "0.3.0"

/-- How it signs the feeds it makes. -/
def generator : Text := Text.concat [name, " ", version]

/-- How it introduces itself to servers. -/
def userAgent : Text := Text.concat [name, "/", version]

end FeedSieve.Product
