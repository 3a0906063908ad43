/-
Spans: two ends and everything between them.

A span contains its ends. Nothing forbids that its lower end is above its
upper one; it is empty then.
-/
namespace FeedSieve

/-- An inclusive range. -/
structure Span (α : Type) where
  /-- The lower end. -/
  lo : α
  /-- The upper end. -/
  hi : α
deriving Repr, DecidableEq

namespace Span

variable {α : Type}

/-- Whether a value lies in the span, in the order whose test is `le`. -/
def contains (le : α → α → Bool) (s : Span α) (x : α) : Bool := le s.lo x && le x s.hi

/-- Whether a span comes before another: by lower end, then by upper end. -/
def before (lt : α → α → Bool) (s t : Span α) : Bool :=
  lt s.lo t.lo || (!lt t.lo s.lo && lt s.hi t.hi)

end Span

end FeedSieve
