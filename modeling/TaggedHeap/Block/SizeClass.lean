import TaggedHeap.Block.Size

/-!
# Size classes

Sizes are sorted into twelve classes.  The first one holds sizes up to 32 bytes, each following one
sizes up to twice as much as the one before, and the last one all the rest.
-/

namespace TaggedHeap

/-- The number of size classes. -/
abbrev classCount : Nat := 12

/-- The number of a size class. -/
abbrev SizeClass : Type := Fin classCount

namespace SizeClass

/-- The class of a size.  The largest sizes of the classes are powers of two from the fifth on, so a
logarithm finds it. -/
def of (size : Nat) : SizeClass :=
  if size ≤ minBlockSize then 0
  else
    ⟨min (Nat.log2 (size - 1) + 1 - 5) 11,
      Nat.lt_of_le_of_lt (Nat.min_le_right ..) (by decide)⟩

/-- All classes, in order. -/
def all : List SizeClass := List.finRange classCount

/-- The classes from one on, in order. -/
def upFrom (c : SizeClass) : List SizeClass := all.drop c

end SizeClass

end TaggedHeap
