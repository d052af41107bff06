import TaggedHeap.Block.Header

/-!
# Blocks in memory

A block is named by the offset of its header.  While it is free it also has a footer, a copy of
the header in its last word, so that the block behind it can find its start; and between the two
lie its list links, which `FreeLists` takes care of.

A hardened heap fills the rest of a free block with a pattern and looks at it again before the
block is handed out.  It also tests what the functions here take for granted.  Whether a heap is
hardened is the first argument wherever it makes a difference.
-/

namespace TaggedHeap

/-- What a hardened heap writes over freed bytes. -/
def poison : UInt8 := 0x57

/-- Insists that a payload is aligned, on a hardened heap. -/
def requireAligned (hardened : Bool) (block : Nat) : Except Fault Unit :=
  require (!hardened || payloadOf block % alignment == 0) .violated

/-- Where a free block's pattern starts: behind its links. -/
def poisonStart (block : Nat) : Nat := payloadOf block + 2 * wordSize

/-- How far a free block's pattern reaches: up to its footer. -/
def poisonCount (block size : Nat) : Nat := block + size - wordSize - poisonStart block

namespace Memory

/-- The header of a block. -/
def header (m : Memory) (block : Nat) : Except Fault Header := do
  return Header.decode (← m.readWord block)

/-- Replaces the header of a block.  A word has bits for whole units only, and a hardened heap
insists that nothing is lost. -/
def putHeader (hardened : Bool) (m : Memory) (block : Nat) (h : Header) :
    Except Fault Memory := do
  require (!hardened || h.size % alignment == 0) .violated
  m.writeWord block h.encode

/-- Records in a block's header whether the block before it is allocated. -/
def putPrevAllocated (hardened : Bool) (m : Memory) (block : Nat) (prevAllocated : Bool) :
    Except Fault Memory := do
  let h ← m.header block
  m.putHeader hardened block { h with prevAllocated }

/-- Writes the pattern into a free block. -/
def writePoison (m : Memory) (block size : Nat) : Except Fault Memory := do
  requireAligned true block
  m.fillRange (poisonStart block) poison (poisonCount block size)

/-- Insists, on a hardened heap, that a free block still holds the pattern. -/
def requirePoison (hardened : Bool) (m : Memory) (block size : Nat) : Except Fault Unit := do
  if hardened then
    requireAligned true block
    let intact ← m.rangeHolds (poisonStart block) poison (poisonCount block size)
    require intact (.dirtyBlock block)

/-- Makes a range of bytes a free block: writes its header and its footer, and the pattern on a
hardened heap. -/
def writeFree (hardened : Bool) (m : Memory) (block size : Nat) (prevAllocated : Bool) :
    Except Fault Memory := do
  require (!hardened || minBlockSize ≤ size) .violated
  let h := Header.free size prevAllocated
  let m ← m.putHeader hardened block h
  let footer ← subWord (block + size) wordSize
  let m ← m.writeWord footer h.encode
  if hardened then m.writePoison block size else return m

/-- The block before a block, found through its footer.  Only a free block has one. -/
def blockBefore (hardened : Bool) (m : Memory) (block : Nat) : Except Fault Nat := do
  if hardened then
    let h ← m.header block
    require (!h.prevAllocated) .violated
  let footer ← m.header (← subWord block wordSize)
  require (!hardened || !footer.allocated) (.footerNotFree block)
  subWord block footer.size

end Memory

end TaggedHeap
