import TaggedHeap.Arena

/-!
# Auditing an arena

An audit looks at every block and every list entry, and either finds that all of it fits together
or names the first thing that does not.  It takes nothing for granted but that the memory can be
read, so it can be asked about any bytes, heads and start set.

It has three parts.  The walk goes from block to block and tells what it met, as a list of
`Extent`s.  The start set then has to name no block besides the allocated ones.  At last the lists
are followed, and each entry is crossed off the free blocks that the walk met: what is not there to
be crossed off was listed before, or is no free block, and what is left over was never listed.
-/

namespace TaggedHeap

/-- A block as a walk meets it. -/
structure Extent where
  /-- The offset of its header. -/
  block : Nat
  /-- Its size in bytes. -/
  size : Nat
  /-- Whether it is allocated. -/
  allocated : Bool
deriving DecidableEq, Repr

/-- The figures of a heap that passed an audit. -/
structure Stats where
  /-- All bytes, padding and epilogue included. -/
  heapSize : Nat
  /-- How many blocks are allocated. -/
  allocatedBlocks : Nat
  /-- How many bytes they have, headers included. -/
  allocatedBytes : Nat
  /-- How many blocks are free. -/
  freeBlocks : Nat
  /-- How many bytes they have, headers and footers included. -/
  freeBytes : Nat
  /-- The size of the largest free block, zero if there is none. -/
  largestFree : Nat
deriving DecidableEq, Repr

/-- The number of bytes that some blocks have together. -/
def bytesOf : List Extent → Nat
  | [] => 0
  | extent :: rest => extent.size + bytesOf rest

/-- The size of the largest of some blocks, zero if there is none. -/
def largestOf : List Extent → Nat
  | [] => 0
  | extent :: rest => max extent.size (largestOf rest)

namespace Stats

/-- The figures of a heap that consists of the given blocks. -/
def ofExtents (heapSize : Nat) (extents : List Extent) : Stats :=
  let (taken, free) := extents.partition (·.allocated)
  { heapSize
    allocatedBlocks := taken.length
    allocatedBytes := bytesOf taken
    freeBlocks := free.length
    freeBytes := bytesOf free
    largestFree := largestOf free }

end Stats

namespace Arena

/-- Refuses because of what an audit found. -/
def corrupt {α : Type} (offset : Nat) (cause : Corruption) : Except Failure α :=
  .error (.refused (.corruptHeap offset cause))

/-- Refuses for `cause` at `offset` unless `condition` holds. -/
def expect (condition : Bool) (offset : Nat) (cause : Corruption) : Except Failure Unit :=
  if condition then .ok () else corrupt offset cause

/-- Lets a block pass if it is allocated, or if the one before it is and its last word is the `raw`
word of its header. -/
def expectFooter (m : Memory) (block raw : Nat) (prevAllocated : Bool) :
    Except Failure Unit := do
  let h := Header.decode raw
  if h.allocated then return ()
  expect prevAllocated block .adjacentFree
  let footer ← m.readWord (block + h.size - wordSize)
  expect (footer == raw) block .footerMismatch

/-- Walks from a block to the epilogue.  `prevAllocated` says whether the block before is allocated.
The walk ends because every block has a size and none reaches beyond the epilogue. -/
def walk (m : Memory) (starts : StartSet) (epilogue block : Nat) (prevAllocated : Bool) :
    Except Failure (List Extent) := do
  let raw ← m.readWord block
  let h := Header.decode raw
  expect (!Header.reserved raw) block .reservedBits
  expect (h.prevAllocated == prevAllocated) block .wrongPredecessor
  if block = epilogue then
    expect (h.size == 0 && h.allocated) block .badEpilogue
    return []
  else if small : h.size < minBlockSize then
    corrupt block (if h.size = 0 then .zeroSize else .undersized)
  else if past : epilogue - block < h.size then
    corrupt block .pastEpilogue
  else
    expect (h.allocated == starts.contains block) block .startMismatch
    expectFooter m block raw prevAllocated
    have shorter : epilogue - (block + h.size) < epilogue - block := by
      simp only [minBlockSize] at small
      omega
    let rest ← walk m starts epilogue (block + h.size) h.allocated
    return ⟨block, h.size, h.allocated⟩ :: rest
termination_by epilogue - block
decreasing_by assumption

/-- Follows one list from `cursor` on, with `prev` before it, and crosses its entries off the blocks
that are yet unlisted.  Answers the blocks that are left. -/
def crossOff (hardened : Bool) (m : Memory) (c : SizeClass) (prev cursor : Option Nat)
    (unlisted : List Nat) : Except Failure (List Nat) := do
  match cursor with
  | none => return unlisted
  | some block =>
    if listed : block ∈ unlisted then
      m.requireLinks block
      let own ← FreeLists.classOfBlock hardened m block
      expect (own == c) block .wrongClass
      let back ← m.prevLink hardened block
      expect (back == prev) block .brokenBackLink
      let next ← m.nextLink hardened block
      have shorter : (unlisted.erase block).length < unlisted.length := by
        rw [List.length_erase_of_mem listed]
        exact Nat.sub_lt (List.length_pos_of_mem listed) Nat.one_pos
      crossOff hardened m c (some block) next (unlisted.erase block)
    else corrupt block .strayEntry
termination_by unlisted.length
decreasing_by assumption

/-- Follows the lists of the given classes, one after the other. -/
def crossOffAll (hardened : Bool) (m : Memory) (lists : FreeLists) :
    List (SizeClass) → List Nat → Except Failure (List Nat)
  | [], unlisted => return unlisted
  | c :: classes, unlisted => do
    let left ← crossOff hardened m c none (lists.head c) unlisted
    crossOffAll hardened m lists classes left

/-- Audits an arena that is said to end at `high`. -/
def audit (hardened : Bool) (arena : Arena) (high : Nat) : Except Failure Stats := do
  expect (heapOverhead ≤ high && high % alignment == 0 && arena.memory.size == high) high
    .raggedSize
  let extents ← walk arena.memory arena.starts (high - wordSize) firstBlock true
  let (taken, free) := extents.partition (·.allocated)
  expect (arena.starts.size == taken.length) 0 .phantomStart
  let left ← crossOffAll hardened arena.memory arena.lists SizeClass.all
    (free.map (·.block))
  match left with
  | [] => return Stats.ofExtents high extents
  | block :: _ => corrupt block .unlisted

end Arena

end TaggedHeap
