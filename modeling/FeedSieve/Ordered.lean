/-
Strictly increasing lists.

A set whose members have an order is kept as the list of its members, least
first, each once. Then two ways of writing one set give the same list, and
printing it gives them in order. The order is a test `lt` that holds of two
members in at most one direction; members neither of which comes first are
taken to be the same.
-/
namespace FeedSieve.Ordered

variable {α : Type}

/-- Puts a member in its place, unless it is there. -/
def insert (lt : α → α → Bool) (x : α) : List α → List α
  | [] => [x]
  | y :: ys =>
      if lt x y then x :: y :: ys
      else if lt y x then y :: insert lt x ys
      else y :: ys

/-- The members of a list, least first, each once. -/
def ofList (lt : α → α → Bool) (xs : List α) : List α := xs.foldr (insert lt) []

end FeedSieve.Ordered
