import TaggedHeap.FreeLists
import TaggedHeap.StartSet

/-!
# Arenas

An arena is a memory that is divided into blocks, together with what is known of the blocks outside
of it: the heads of the free lists and the set of allocated blocks.  Here are the steps that all
requests are made of.  A free block is split as it is placed; an allocated one is split as it is
shrunk; and whatever becomes free is merged with its free neighbours and listed.
-/

namespace TaggedHeap

/-- A memory divided into blocks. -/
structure Arena where
  /-- The bytes. -/
  memory : Memory
  /-- The free blocks by size. -/
  lists : FreeLists
  /-- The allocated blocks. -/
  starts : StartSet
deriving DecidableEq

namespace Arena

/-- Writes an empty heap over all of the memory, whose `size` bytes leave room for padding and
epilogue and for either no block or a whole one.  Answers how many bytes are free. -/
def format (hardened : Bool) (m : Memory) (size : Nat) : Except Fault (Nat × Arena) := do
  let m ← m.writeWord 0 0
  let free ← subWord size heapOverhead
  if free = 0 then
    let m ← m.putHeader hardened firstBlock (.epilogue true)
    return (free, ⟨m, .empty, .empty⟩)
  else
    let m ← m.writeFree hardened firstBlock free true
    let m ← m.putHeader hardened (firstBlock + free) (.epilogue false)
    let (lists, m) ← FreeLists.empty.insert hardened m firstBlock
    return (free, ⟨m, lists, .empty⟩)

/-- Lists a free block. -/
def list (hardened : Bool) (arena : Arena) (block : Nat) : Except Fault Arena := do
  let ⟨m, lists, starts⟩ := arena
  let (lists, m) ← lists.insert hardened m block
  return ⟨m, lists, starts⟩

/-- Takes a free block out of its list. -/
def unlist (hardened : Bool) (arena : Arena) (block : Nat) : Except Fault Arena := do
  let ⟨m, lists, starts⟩ := arena
  let (lists, m) ← lists.remove hardened m block
  return ⟨m, lists, starts⟩

/-- Allocates `size` bytes at the start of a free block that is in no list, and answers the payload.
What is left becomes a free block if it is large enough to be one, and else is part of the
allocated one. -/
def allocate (hardened : Bool) (arena : Arena) (block size : Nat) :
    Except Fault (Nat × Arena) := do
  let ⟨m, lists, starts⟩ := arena
  let h ← m.header block
  require (!hardened || !h.allocated) .violated
  require (!hardened || size ≤ h.size) .violated
  m.requirePoison hardened block h.size
  let remainder ← subWord h.size size
  if minBlockSize ≤ remainder then
    let m ← m.putHeader hardened block (.taken size h.prevAllocated)
    let rest := block + size
    let m ← m.writeFree hardened rest remainder true
    let (lists, m) ← lists.insert hardened m rest
    requireAligned hardened block
    return (payloadOf block, ⟨m, lists, starts.insert block⟩)
  else
    let m ← m.putHeader hardened block (.taken h.size h.prevAllocated)
    let m ← m.putPrevAllocated hardened (block + h.size) true
    requireAligned hardened block
    return (payloadOf block, ⟨m, lists, starts.insert block⟩)

/-- Takes the block behind a block with the given header out of its list, if it is free, and answers
the size of both. -/
def joinNext (hardened : Bool) (lists : FreeLists) (m : Memory) (block : Nat) (h : Header) :
    Except Fault (Nat × FreeLists × Memory) := do
  let next := block + h.size
  let nextHeader ← m.header next
  if nextHeader.allocated then return (h.size, lists, m)
  let (lists, m) ← lists.remove hardened m next
  return (← addWord h.size nextHeader.size, lists, m)

/-- Takes the block before a block out of its list, if it is free, and answers where the two start,
their size when the second one has the given one, and whether the block before them is allocated. -/
def joinPrev (hardened : Bool) (lists : FreeLists) (m : Memory) (block size : Nat)
    (prevAllocated : Bool) : Except Fault (Nat × Nat × Bool × FreeLists × Memory) := do
  if prevAllocated then return (block, size, prevAllocated, lists, m)
  let prev ← m.blockBefore hardened block
  let prevHeader ← m.header prev
  let (lists, m) ← lists.remove hardened m prev
  return (prev, ← addWord size prevHeader.size, prevHeader.prevAllocated, lists, m)

/-- Merges a free block that is in no list with its free neighbours, and answers where the merged
block starts.  It is in no list either. -/
def merge (hardened : Bool) (arena : Arena) (block : Nat) : Except Fault (Nat × Arena) := do
  let ⟨m, lists, starts⟩ := arena
  let h ← m.header block
  require (!hardened || !h.allocated) .violated
  let (size, lists, m) ← joinNext hardened lists m block h
  let (start, size, prevAllocated, lists, m) ←
    joinPrev hardened lists m block size h.prevAllocated
  let m ← m.writeFree hardened start size prevAllocated
  let m ← m.putPrevAllocated hardened (start + size) false
  return (start, ⟨m, lists, starts⟩)

/-- Merges a free block that is in no list with its free neighbours and lists the result. -/
def reclaim (hardened : Bool) (arena : Arena) (block : Nat) : Except Fault Arena := do
  let (start, arena) ← arena.merge hardened block
  arena.list hardened start

/-- Frees an allocated block. -/
def deallocate (hardened : Bool) (arena : Arena) (block : Nat) : Except Fault Arena := do
  let ⟨m, lists, starts⟩ := arena
  let h ← m.header block
  require (!hardened || h.allocated) .violated
  let m ← m.writeFree hardened block h.size h.prevAllocated
  require (!hardened || starts.contains block) .violated
  reclaim hardened ⟨m, lists, starts.remove block⟩ block

/-- Shrinks an allocated block to `size` bytes.  What is cut off is freed if it is large enough to
be a block, and else stays part of this one. -/
def shrink (hardened : Bool) (arena : Arena) (block size : Nat) : Except Fault Arena := do
  let ⟨m, lists, starts⟩ := arena
  let h ← m.header block
  require (!hardened || h.allocated) .violated
  let remainder ← subWord h.size size
  if remainder < minBlockSize then return ⟨m, lists, starts⟩
  let m ← m.putHeader hardened block (.taken size h.prevAllocated)
  let rest := block + size
  let m ← m.writeFree hardened rest remainder true
  reclaim hardened ⟨m, lists, starts⟩ rest

/-- What lies at the end of a heap. -/
structure HeapEnd where
  /-- The offset of the epilogue. -/
  epilogue : Nat
  /-- The free block that ends there, if there is one. -/
  trailing : Option Nat
  /-- Its size, zero if there is none. -/
  trailingSize : Nat
deriving DecidableEq, Repr

/-- The end of a heap that reaches up to `high`. -/
def heapEnd (hardened : Bool) (m : Memory) (high : Nat) : Except Fault HeapEnd := do
  let epilogue ← subWord high wordSize
  let h ← m.header epilogue
  if h.prevAllocated then return ⟨epilogue, none, 0⟩
  let trailing ← m.blockBefore hardened epilogue
  let trailingHeader ← m.header trailing
  return ⟨epilogue, some trailing, trailingHeader.size⟩

/-- Makes the bytes that the heap grew by, together with the free block before them, one free block
that is in no list, writes the epilogue behind it and answers where it starts. -/
def append (hardened : Bool) (arena : Arena) (stop : HeapEnd) (growth : Nat) :
    Except Fault (Nat × Arena) := do
  let (block, prevAllocated, ⟨m, lists, starts⟩) ← match stop.trailing with
    | some trailing => do
      let arena ← arena.unlist hardened trailing
      let h ← arena.memory.header trailing
      pure (trailing, h.prevAllocated, arena)
    | none => pure (stop.epilogue, true, arena)
  let size ← addWord stop.trailingSize growth
  let m ← m.writeFree hardened block size prevAllocated
  let m ← m.putHeader hardened (block + size) (.epilogue false)
  return (block, ⟨m, lists, starts⟩)

/-- What an allocated block could grow into without moving. -/
structure Room where
  /-- The block's own header. -/
  header : Header
  /-- The free block behind it, if there is one. -/
  next : Option Nat
  /-- The bytes of both together. -/
  available : Nat
  /-- Where they end. -/
  stop : Nat
deriving DecidableEq, Repr

/-- The room of an allocated block. -/
def room (m : Memory) (block : Nat) : Except Fault Room := do
  let h ← m.header block
  let next := block + h.size
  let nextHeader ← m.header next
  if nextHeader.allocated then return ⟨h, none, h.size, next⟩
  let available ← addWord h.size nextHeader.size
  let stop ← addWord next nextHeader.size
  return ⟨h, some next, available, stop⟩

/-- Takes the free block in some room out of its list. -/
def clear (hardened : Bool) (arena : Arena) (room : Room) : Except Fault Arena :=
  match room.next with
  | some next => arena.unlist hardened next
  | none => .ok arena

/-- Lets what lies behind an allocated block that ends at `stop` say so.  Where the heap grew, that
is a new epilogue. -/
def endAt (hardened : Bool) (m : Memory) (stop : Nat) (growth : Option Nat) :
    Except Fault Memory :=
  match growth with
  | some _ => m.putHeader hardened stop (.epilogue true)
  | none => m.putPrevAllocated hardened stop true

/-- Makes a block with its room, and with what the heap grew by behind it, one allocated block of
`size` bytes, and frees what is left. -/
def absorb (hardened : Bool) (arena : Arena) (block size : Nat) (room : Room)
    (growth : Option Nat) : Except Fault Arena := do
  let available ← addWord room.available (growth.getD 0)
  let ⟨m, lists, starts⟩ ← arena.clear hardened room
  let m ← m.putHeader hardened block (.taken available room.header.prevAllocated)
  let m ← endAt hardened m (block + available) growth
  shrink hardened ⟨m, lists, starts⟩ block size

end Arena

end TaggedHeap
