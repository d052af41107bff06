import TaggedHeap.Allocator.Basic

/-!
# Pointers

A caller names a payload by its offset, and any number can be given as one.  So the word before a
payload is read with suspicion: it has to be a header that fits into the heap, and of an allocated
block, and the start set has to know the block, since a payload may hold anything.

A block that looks free was probably freed before, and is reported as such; everything else is
reported as a pointer that never was one.
-/

namespace TaggedHeap.Allocator

/-- The block of a payload, if the payload is a live one. -/
def validate (a : Allocator) (payload : Nat) : Except Failure Nat := do
  let invalid : Failure := .refused (.invalidPointer payload)
  let epilogue ← subWord a.high wordSize
  let block := payload - wordSize
  if payload % alignment ≠ 0 ∨ payload < payloadOf firstBlock then throw invalid
  else if epilogue ≤ block then throw invalid
  else
    let raw ← a.memory.readWord block
    let h := Header.decode raw
    if Header.reserved raw then throw invalid
    else if h.size < minBlockSize ∨ epilogue - block < h.size then throw invalid
    else if !h.allocated then throw (.refused (.doubleFree payload))
    else if !a.starts.contains block then throw invalid
    else if a.hardened then
      let next ← a.memory.header (block + h.size)
      require next.prevAllocated .violated
      return block
    else return block

/-- The block of a payload.  A pointer to no live payload is rejected, and a record says so. -/
def locate (payload : Nat) : Action Allocator Nat := do
  match ← Action.attempt (.inspect (validate · payload)) with
  | .ok block => return block
  | .error error =>
    .note (.rejected payload error)
    .refuse error

/-- How many bytes of a live payload may be used. -/
def usable (payload : Nat) : Action Allocator Nat := do
  requireReady
  let block ← locate payload
  .inspect fun a => do
    let h ← a.memory.header block
    subWord h.size wordSize

end TaggedHeap.Allocator
