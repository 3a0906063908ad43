import FeedSieve.Main
import FeedSieve.Query.Check
import FeedSieve.Proofs.Query.Complete
import FeedSieve.Proofs.Query.Numbers
import FeedSieve.Proofs.Download.Sequential
import FeedSieve.Proofs.Files.Tree
import FeedSieve.Download.Flight
import FeedSieve.Proofs.Download.Part
import FeedSieve.Proofs.Download.Flight
import FeedSieve.Proofs.Download.AllOrNothing
import FeedSieve.Proofs.Download.Destination
import FeedSieve.Proofs.Download.Naming
import FeedSieve.Proofs.Download.Traffic
import FeedSieve.Proofs.Download.Undisturbed
import FeedSieve.Proofs.Download.Carried
import FeedSieve.Proofs.Download.Recognised
import FeedSieve.Proofs.Query.Missing
import FeedSieve.Proofs.Download.Addresses
import FeedSieve.Proofs.Feed.Replaced
import FeedSieve.Proofs.Download.Collisions
import FeedSieve.Proofs.Feed.RoundTrip
import FeedSieve.Proofs.Feed.Republished
import FeedSieve.Proofs.Query.Canonical
import FeedSieve.Proofs.Query.Stable
import FeedSieve.Proofs.Run.Refused
import FeedSieve.Proofs.Run.Preview
import FeedSieve.Proofs.Run.Unusable
import FeedSieve.Proofs.Settings.Saved
import FeedSieve.Proofs.Query.Recent
import FeedSieve.Proofs.Download.SafeNames
import FeedSieve.Proofs.Run.Unsettled
import FeedSieve.Proofs.Query.Phrases
import FeedSieve.Proofs.Query.Days
import FeedSieve.Proofs.Download.NameRoom
import FeedSieve.Proofs.Download.Retries
import FeedSieve.Proofs.Feed.Dates
import FeedSieve.Proofs.Feed.Readable
import FeedSieve.Proofs.Run.Hint
import FeedSieve.Proofs.Query.Fragments
import FeedSieve.Proofs.Query.LoneDay
import FeedSieve.Proofs.CommandLine.Init
import FeedSieve.Proofs.Run.Verbatim
