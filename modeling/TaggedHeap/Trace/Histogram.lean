import TaggedHeap.Trace.Operation

/-!
# Histograms of traces

Two samples are taken of a trace: the sizes that it asks for, by their logarithm, and the lifetimes
of its allocations, counted in operations.  Their values are added to a histogram one by one, in the
order of the operations.

How a histogram sorts values into its buckets is no matter of traces.  So what can be done with one
is a parameter, `Histogramming`.  `equalWidth` is a histogram that can be put in for it, with
buckets of one width.  Only runs, which have to show some buckets, make use of how that one sorts.
-/

namespace TaggedHeap

/-! ## Any histogram -/

/-- What can be done with histograms of some kind. -/
structure Histogramming (H : Type) where
  /-- A histogram with so many buckets and without values. -/
  withBuckets : Nat → H
  /-- The histogram with one more value. -/
  add : H → Nat → H
  /-- How many values each of its buckets counts. -/
  counts : H → List Nat

namespace Histogramming

/-- The number of buckets in the histograms of a trace. -/
def bucketNumber : Nat := 20

variable {H : Type}

/-- The histogram of a sample. -/
def ofSample (kind : Histogramming H) (sample : List Nat) : H :=
  sample.foldl kind.add (kind.withBuckets bucketNumber)

end Histogramming

/-! ## Buckets of one width -/

/-- One bar of a histogram. -/
structure Bucket where
  /-- The least value that is counted. -/
  start : Nat
  /-- The least value that is too large; the last bucket takes those as well. -/
  stop : Nat
  /-- How many values are counted. -/
  count : Nat
deriving DecidableEq, Repr

namespace Bucket

/-- The width of `number` buckets for values that differ by at most `range`. -/
def width (number range : Nat) : Nat := max 1 ((range + range % number) / number)

/-- The bucket with the given index of `number` buckets for a sample that starts at `least`. -/
def ofSample (number : Nat) (sample : List Nat) (least width index : Nat) : Bucket :=
  let start := least + index * width
  let stop := least + (index + 1) * width
  { start
    stop
    count := sample.countP fun value =>
      start ≤ value && (value < stop || index + 1 == number) }

/-- The buckets of a sample.  A sample without values has none. -/
def allOfSample (number : Nat) (sample : List Nat) : List Bucket :=
  match sample.min?, sample.max? with
  | some least, some most =>
    (List.range number).map (ofSample number sample least (width number (most - least)))
  | _, _ => []

end Bucket

namespace Histogramming

/-- Histograms with buckets of one width: the number of buckets, and the values so far, the last one
first. -/
def equalWidth : Histogramming (Nat × List Nat) where
  withBuckets number := (number, [])
  add := fun (number, sample) value => (number, value :: sample)
  counts := fun (number, sample) => (Bucket.allOfSample number sample).map Bucket.count

end Histogramming

/-- The buckets of a sample, with one width, as runs show them. -/
def histogram (sample : List Nat) : List Bucket :=
  let (number, values) := Histogramming.equalWidth.ofSample sample
  Bucket.allOfSample number values

/-! ## Samples of traces -/

/-- The binary logarithm of a size, rounded to the nearest number, a half away from zero.  It is
computed in floating point, and no bytes count as one. -/
def logSize (size : Nat) : Nat := size.toUInt64.toFloat.log2.round.toUInt64.toNat

namespace Trace

/-- The sizes that a trace asks for, by their logarithm. -/
def sizeSample (t : Trace) : List Nat := (t.filterMap Operation.size?).map logSize

/-- The lifetimes in what is left of a trace after `time` operations, with the times of birth of the
allocations so far. -/
def lifetimesFrom (time : Nat) (births : Array Nat) : Trace → List Nat
  | [] => []
  | .alloc _ :: rest => lifetimesFrom (time + 1) (births.push time) rest
  | .free index :: rest =>
    match births[index]? with
    | some birth => (time - birth) :: lifetimesFrom (time + 1) births rest
    | none => lifetimesFrom (time + 1) births rest
  | .realloc _ _ :: rest => lifetimesFrom (time + 1) births rest

/-- The lifetimes in a trace: for each operation that frees an allocation made before, the number of
operations from the one to the other. -/
def lifetimeSample (t : Trace) : List Nat := lifetimesFrom 0 #[] t

variable {H : Type}

/-- The histogram of the sizes that a trace asks for. -/
def sizeHistogram (kind : Histogramming H) (t : Trace) : H := kind.ofSample t.sizeSample

/-- The histogram of the lifetimes in a trace. -/
def lifetimeHistogram (kind : Histogramming H) (t : Trace) : H := kind.ofSample t.lifetimeSample

end Trace

end TaggedHeap
