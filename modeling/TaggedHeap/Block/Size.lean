import TaggedHeap.Memory

/-!
# Block sizes

Every block is a whole number of sixteen-byte units, and at least two of them: a free block needs
one word for its header, two for its list links and one for its footer.  A request for payload
bytes is turned into a block size here, or refused when no word can hold that size.
-/

namespace TaggedHeap

/-- The unit of sizes: every payload starts at a multiple of it. -/
@[simp] abbrev alignment : Nat := 16

/-- The smallest size at which a free block has room for its header, links and footer. -/
@[simp] abbrev minBlockSize : Nat := 32

/-- The first block's offset.  The word before it is padding, which makes payloads come out
aligned although every header is half a unit off. -/
@[simp] abbrev firstBlock : Nat := 8

/-- What a heap without blocks consists of: the padding word and the epilogue. -/
@[simp] abbrev heapOverhead : Nat := 16

/-- How much a heap grows at least, unless its configuration says otherwise. -/
@[simp] def defaultChunk : Nat := 4096

/-- How large a heap may become, unless its source says otherwise. -/
@[simp] def defaultLimit : Nat := 33554432

/-- The payload of a block: what follows its header. -/
@[simp] abbrev payloadOf (block : Nat) : Nat := block + wordSize

/-- The least multiple of the alignment that is no smaller, if finding it stays within words. -/
def wholeUnits (n : Nat) : Except Refusal Nat :=
  if n + (alignment - 1) < wordBound then
    .ok ((n + (alignment - 1)) / alignment * alignment)
  else .error .sizeOverflow

/-- The size of a block whose payload has room for `n` bytes. -/
def blockSizeFor (n : Nat) : Except Refusal Nat := do
  if n + wordSize < wordBound then
    let size ← wholeUnits (n + wordSize)
    return max size minBlockSize
  else throw .sizeOverflow

end TaggedHeap
