import TaggedHeap.Allocator.Pointer

/-!
# What payloads hold

The bytes of a live payload belong to the caller.  Before they are read or written, the payload's
pointer is checked as that of any other request, and the payload has to lie inside the memory.
-/

namespace TaggedHeap.Allocator

/-- The length of a live payload, all of whose bytes are there. -/
def payloadLength (payload : Nat) : Action Allocator Nat := do
  let length ← usable payload
  .inspect fun a => a.memory.inBounds payload length
  return length

/-- Changes the bytes of the heap and nothing else. -/
def editMemory (step : Memory → Except Fault Memory) : Action Allocator Unit :=
  editArena fun _ arena => do
    let ⟨m, lists, starts⟩ := arena
    return ⟨← step m, lists, starts⟩

/-- Sets the first `count` bytes of a payload to one value. -/
def fillPayload (payload : Nat) (b : UInt8) (count : Nat) : Action Allocator Unit :=
  editMemory fun m => m.fillRange payload b count

/-- Writes bytes into the heap, wherever that is. -/
def writeBytes (offset : Nat) (bytes : ByteArray) : Action Allocator Unit :=
  editMemory fun m => m.pasteRange offset bytes

/-- Stops with `fault` unless the first `count` bytes of a live payload all have one value. -/
def requireFilled (payload : Nat) (b : UInt8) (count : Nat) (fault : Fault) :
    Action Allocator Unit := do
  let length ← payloadLength payload
  .inspect fun a => do
    require (count ≤ length) .outOfBounds
    let intact ← a.memory.rangeHolds payload b count
    require intact fault

/-- The figures of a heap that passes an audit. -/
def check : Action Allocator Stats := .inspect audit

end TaggedHeap.Allocator
