/-
Response statuses.
-/
import FeedSieve.Text.Basic

namespace FeedSieve.Download

/-- What a failing status is called. -/
def describeStatus (status : Int) : Text :=
  if status = 404 then "Not found (404)"
  else if status = 403 then "Access forbidden (403)"
  else if 500 ≤ status then Text.concat ["Server error (", Text.ofInt status, ")"]
  else Text.concat ["HTTP ", Text.ofInt status]

end FeedSieve.Download
