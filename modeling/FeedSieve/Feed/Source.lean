/-
Where a feed comes from.
-/
import FeedSieve.Url.Split

namespace FeedSieve.Feed

/-- Whether a source is the address of a document on the web, going by its
scheme. -/
def isUrl (source : Text) : Except Url.Broken Bool := do
  let parts ← Url.split source
  return parts.scheme == "http".toList || parts.scheme == "https".toList

end FeedSieve.Feed
