/-!
# Sets of characters

A set of code points that is given by where it begins and ends: the first bound is the first code
point in the set, the next one the first that is out again, and so on.  So a code point is in the
set if the number of bounds that it has reached is odd.
-/

namespace TaggedHeap

/-- A set of code points by its bounds. -/
structure CharSet where
  /-- The bounds, in ascending order. -/
  bounds : Array Nat

namespace CharSet

/-- Whether a character is in the set. -/
def contains (s : CharSet) (c : Char) : Bool := s.bounds.countP (· ≤ c.toNat) % 2 == 1

end CharSet

end TaggedHeap
