/-
The bounds of whole numbers in machine words.

A short word holds the numbers from `-shortEnd` up to, but not with,
`shortEnd`; a long word likewise.
-/
namespace FeedSieve.Number

/-- The first number beyond a short word, two to the 31st. -/
def shortEnd : Nat := 2147483648

/-- The first number beyond a long word, two to the 63rd. -/
def longEnd : Nat := 9223372036854775808

end FeedSieve.Number
