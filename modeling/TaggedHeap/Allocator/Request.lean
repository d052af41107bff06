import TaggedHeap.Allocator.Payload

/-!
# Requests

* `alloc` and `calloc` hand out a payload, and grow the heap if no free block is large enough.
* `free` takes a payload back.
* `realloc` resizes a payload: where it is if that is possible, else by moving it.

A request for no bytes is answered with no payload.  A refused request leaves the heap as it was.
-/

namespace TaggedHeap.Allocator

/-- By how much the heap grows when `missing` bytes are needed. -/
def growthFor (missing : Nat) : Action Allocator Nat := do
  let chunk ← .read (·.config.chunk)
  wholeUnits (max missing chunk)

/-- Grows the heap so that a free block of at least `size` bytes ends at the epilogue, and answers
that block, which is in no list.  A free block that ends there already is a part of it, and then
only the difference is asked for. -/
def blockFromGrowth (size : Nat) : Action Allocator Nat := do
  let stop ← .inspect fun a => Arena.heapEnd a.hardened a.memory a.high
  let growth ← growthFor (size - stop.trailingSize)
  let old ← grow growth
  .inspect fun a => require (!a.hardened || old == stop.epilogue + wordSize) .violated
  .note (.grew growth (old + growth))
  onArena fun hardened arena => arena.append hardened stop growth

/-- A free block of at least `size` bytes, taken out of its list.  If there is none, the heap
grows. -/
def takeBlock (size : Nat) : Action Allocator Nat := do
  match ← .inspect fun a => a.lists.findBlock a.hardened a.memory a.config.fit size with
  | some block =>
    editArena fun hardened arena => arena.unlist hardened block
    return block
  | none => blockFromGrowth size

/-- Allocates a block of `size` bytes, wherever it fits, and answers its payload. -/
def allocateBlock (size : Nat) : Action Allocator Nat := do
  let block ← takeBlock size
  onArena fun hardened arena => arena.allocate hardened block size

/-- Hands out a payload with room for `n` bytes, which may hold anything. -/
def alloc (n : Nat) : Action Allocator (Option Nat) := do
  requireReady
  if n = 0 then return none
  let size ← blockSizeFor n
  let payload ← allocateBlock size
  .note (.allocated n payload)
  verify
  return some payload

/-- Takes a payload back.  To give back none is allowed at any time. -/
def free : (payload : Option Nat) → Action Allocator Unit
  | none => return ()
  | some payload => do
    requireReady
    let block ← locate payload
    .note (.freed payload)
    editArena fun hardened arena => arena.deallocate hardened block
    verify

/-- Hands out a payload with room for `n` elements of `size` bytes, all zero. -/
def calloc (n size : Nat) : Action Allocator (Option Nat) := do
  requireReady
  if wordBound ≤ n * size then .refuse .sizeOverflow
  match ← alloc (n * size) with
  | none => return none
  | some payload =>
    editMemory fun m => do
      let h ← m.header (payload - wordSize)
      let capacity ← subWord h.size wordSize
      m.fillRange payload 0 capacity
    return some payload

/-- Makes an allocated block `size` bytes large where it is, if the free block behind it, or growing
the heap there, has room enough.  Answers whether it had. -/
def stretch (block size : Nat) : Action Allocator Bool := do
  let room ← .inspect fun a => Arena.room a.memory block
  if size ≤ room.available then
    editArena fun hardened arena => arena.absorb hardened block size room none
    return true
  let epilogue ← .inspect fun a => subWord a.high wordSize
  if room.stop ≠ epilogue then return false
  let growth ← growthFor (size - room.available)
  match ← (grow growth).attempt with
  | .error error =>
    .note (.growthRefused block error)
    return false
  | .ok _ =>
    .note (.grewAt growth block)
    editArena fun hardened arena => arena.absorb hardened block size room (some growth)
    return true

/-- Moves the payload of an allocated block of `old` bytes into a new block of `size` bytes, with as
many bytes as both have of the `n` asked for, and frees the old block. -/
def move (block old size n : Nat) : Action Allocator Nat := do
  let payload := payloadOf block
  let target ← allocateBlock size
  editArena fun hardened arena => do
    let ⟨m, lists, starts⟩ := arena
    let capacity ← subWord old wordSize
    let m ← m.copyRange payload target (min capacity n)
    Arena.deallocate hardened ⟨m, lists, starts⟩ block
  .note (.moved payload n target)
  return target

/-- Resizes the payload of an allocated block to `n` bytes, for which `size` is the block size. -/
def resize (block size n : Nat) : Action Allocator Nat := do
  let payload := payloadOf block
  let old ← .inspect fun a => a.memory.header block
  if size ≤ old.size then
    .note (.shrunk payload n)
    editArena fun hardened arena => arena.shrink hardened block size
    return payload
  if ← stretch block size then
    .note (.grown payload n)
    return payload
  move block old.size size n

/-- Resizes a payload to `n` bytes and keeps what it holds, up to the smaller of the two sizes.
With no payload this is `alloc`, and with no bytes it is `free`. -/
def realloc (payload : Option Nat) (n : Nat) : Action Allocator (Option Nat) := do
  match payload with
  | none => alloc n
  | some payload =>
    if n = 0 then
      free (some payload)
      return none
    requireReady
    let block ← locate payload
    let size ← blockSizeFor n
    let result ← resize block size n
    verify
    return some result

end TaggedHeap.Allocator
