import TaggedHeap.Text.Numeral

/-!
# Operations and traces

A trace is a list of operations.  Allocations are counted as they come, and the other operations
name the one they mean by its number.
-/

namespace TaggedHeap

/-- One step of a trace. -/
inductive Operation where
  /-- Allocates this many bytes. -/
  | alloc (size : Nat)
  /-- Frees an allocation, or does nothing if it is not live. -/
  | free (index : Nat)
  /-- Resizes an allocation, which keeps its number, or does nothing if it is not live. -/
  | realloc (index size : Nat)
deriving DecidableEq, Repr, Inhabited

namespace Operation

/-- Whether this is an allocation. -/
def isAlloc : Operation → Bool
  | alloc _ => true
  | free _ | realloc _ _ => false

/-- The allocation that an operation refers to. -/
def index? : Operation → Option Nat
  | alloc _ => none
  | free index | realloc index _ => some index

/-- The size that an operation asks for. -/
def size? : Operation → Option Nat
  | alloc size | realloc _ size => some size
  | free _ => none

/-- The operation as it is written in a trace. -/
def text : Operation → List Char
  | alloc size => "Alloc(".toList ++ Numeral.decimal size ++ "),".toList
  | free index => "Free(".toList ++ Numeral.decimal index ++ "),".toList
  | realloc index size =>
    "Realloc(".toList ++ Numeral.decimal index ++ ", ".toList ++ Numeral.decimal size ++ "),".toList

/-- The operation in short: its initial and its numbers. -/
def code : Operation → String
  | alloc size => "A" ++ toString size
  | free index => "F" ++ toString index
  | realloc index size => "R" ++ toString index ++ "," ++ toString size

end Operation

/-- A list of operations, to be performed in order. -/
abbrev Trace : Type := List Operation

/-- The codes of a trace's operations, one space apart. -/
def Trace.code (t : Trace) : String := String.intercalate " " (t.map Operation.code)

end TaggedHeap
