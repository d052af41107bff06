import TaggedHeap.Allocator.Basic

/-!
# Initialisation

A source may hold any bytes when an allocator is made for it, for instance those of an earlier heap.
Setting up a heap grows the source until its size is one that a heap can have, and then makes
everything between the padding and the epilogue one free block.
-/

namespace TaggedHeap.Allocator

/-- The size that a heap over `size` bytes is given: whole units, with room for the padding and the
epilogue, and for a whole block if for anything more. -/
def setUpSize (size : Nat) : Except Refusal Nat := do
  let units ← wholeUnits size
  let whole := max units heapOverhead
  if heapOverhead < whole ∧ whole - heapOverhead < minBlockSize then
    return heapOverhead + minBlockSize
  else return whole

/-- Forgets all blocks, and that there was an initialisation. -/
def reset (a : Allocator) : Allocator :=
  { a with lists := .empty, starts := .empty, ready := false }

/-- Records that an initialisation has succeeded. -/
def markReady (a : Allocator) : Allocator := { a with ready := true }

/-- Writes an empty heap over the source's memory, which is `size` bytes. -/
def layOut (size : Nat) : Action Allocator Unit := do
  let free ← onArena fun hardened arena => Arena.format hardened arena.memory size
  .modify markReady
  .note (.initialized size free)
  verify

/-- Sets up an empty heap over all of the source's memory.  Whatever was allocated is gone.  If this
fails, the allocator refuses requests until an initialisation succeeds. -/
def init : Action Allocator Unit := do
  .modify reset
  let old ← .read (·.source.size)
  let size ← setUpSize old
  if old < size then
    let _ ← grow (size - old)
  layOut size

end TaggedHeap.Allocator
