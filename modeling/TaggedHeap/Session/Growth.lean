import TaggedHeap.Source

/-!
# Growing step by step

What a source tells of itself after it was asked to grow.
-/

namespace TaggedHeap

/-- A growth that was asked for, and the source after it. -/
structure Growth where
  /-- The size before, if the source grew. -/
  result : Except Refusal Nat
  /-- The offset of the first byte. -/
  low : Nat
  /-- One past the offset of the last byte. -/
  high : Nat
  /-- The size that is reported. -/
  size : Nat
  /-- Whether the last bytes, as many as were asked for, are all zero. -/
  zero : Bool

namespace Growth

/-- Whether the last `n` bytes, or all if there are less, are zero. -/
def endsInZeros (m : Memory) (n : Nat) : Bool :=
  let count := min n m.size
  m.holds (m.size - count) 0 count

/-- What a source tells after it was asked to grow by `n` bytes. -/
def report (result : Except Refusal Nat) (source : Source) (n : Nat) : Growth where
  result
  low := source.low
  high := source.high
  size := source.size
  zero := endsInZeros source.memory n

end Growth

namespace Source

/-- Asks a source to grow by `n` bytes. -/
def tryGrow (source : Source) (n : Nat) : Growth × Source :=
  let (result, source) := source.grow n
  (.report result source n, source)

/-- Asks a source to grow by one number of bytes after the other. -/
def growAll (source : Source) : List Nat → List Growth × Source
  | [] => ([], source)
  | n :: rest =>
    let (growth, source) := source.tryGrow n
    let (growths, source) := source.growAll rest
    (growth :: growths, source)

end Source

end TaggedHeap
