/-
The length of an enclosure as a feed gives it.

A feed may say anything there. A whole number, however it is spelled, is
taken; anything else is as good as nothing, except that an infinite number
is not to be had.
-/
import FeedSieve.Text.Digits
import FeedSieve.Lax.Value

namespace FeedSieve.Feed

/-- Reads a length; `none` for an infinite number. -/
def length? : Lax.Value → Option (Option Int)
  | .int i => some (some i)
  | .bool b => some (some (if b then 1 else 0))
  | .text t => some (Text.integer? t)
  | .double (.infinite _) => none
  | .double d => some d.truncated?
  | _ => some none

end FeedSieve.Feed
