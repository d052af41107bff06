import TaggedHeap.Allocator.Payload
import TaggedHeap.Allocator.Request
import TaggedHeap.Allocator.Setup
import TaggedHeap.Trace.Operation

/-!
# Replaying traces

A replayer performs the operations of a trace on an allocator.  It fills each payload with a byte of
its own and looks at it again before the payload is given back or moved, so two payloads that
overlap, or one whose bytes get lost, are found out.

Running out of memory is no failure of a replay: the allocation is recorded as one that never was.
Anything else that is refused is passed on, and what a replayer finds wrong itself is a fault.
-/

namespace TaggedHeap

/-- A payload that a replayer watches. -/
structure Watched where
  /-- The payload. -/
  payload : Nat
  /-- How many of its bytes were asked for. -/
  size : Nat
  /-- The byte they are filled with. -/
  fill : UInt8
deriving DecidableEq, Repr

/-- The state of a replay. -/
structure Replayer where
  /-- The allocations by number, as far as they are live. -/
  entries : Array (Option Watched)
  /-- How many operations were performed. -/
  performed : Nat
deriving DecidableEq, Repr

/-- The byte for an allocation, which is never zero: fresh memory is. -/
def patternByte (number : Nat) : UInt8 := UInt8.ofNat (number % 255 + 1)

/-- How many operations pass from one audit to the next. -/
@[simp] def auditPeriod : Nat := 64

namespace Watched

/-- Stops unless the payload still holds its pattern. -/
def verify (live : Watched) : Action Allocator Unit :=
  Allocator.requireFilled live.payload live.fill live.size (.overwritten live.payload)

/-- Checks a payload that was just handed out, and fills the bytes that were asked for. -/
def watch (payload size : Nat) (fill : UInt8) : Action Allocator Watched := do
  require (payload % alignment == 0) .violated
  let usable ← Allocator.usable payload
  require (size ≤ usable) .violated
  .inspect fun a => do
    let stop ← addWord payload usable
    require (stop ≤ a.high) (.offTheHeap payload)
    a.memory.inBounds payload usable
  Allocator.fillPayload payload fill size
  return ⟨payload, size, fill⟩

end Watched

namespace Replayer

/-- A replayer that has performed nothing yet. -/
def new : Replayer := ⟨#[], 0⟩

instance : Inhabited Replayer := ⟨new⟩

/-- The number of allocations that are live. -/
def live (replayer : Replayer) : Nat := replayer.entries.countP Option.isSome

/-- The live allocation with the given number. -/
def get? (replayer : Replayer) (index : Nat) : Option Watched := replayer.entries[index]?.join

/-- Records the next allocation. -/
def push (live : Option Watched) (replayer : Replayer) : Replayer :=
  { replayer with entries := replayer.entries.push live }

/-- Records what became of an allocation. -/
def put (index : Nat) (live : Option Watched) (replayer : Replayer) : Replayer :=
  { replayer with entries := replayer.entries.setIfInBounds index live }

/-- Records that one more operation was performed. -/
def tick (replayer : Replayer) : Replayer := { replayer with performed := replayer.performed + 1 }

/-- An action of a replayer on an allocator. -/
abbrev Replay (α : Type) : Type := Action (Replayer × Allocator) α

/-- Reads a part of the replayer. -/
def look {α : Type} (f : Replayer → α) : Replay α := .read fun (replayer, _) => f replayer

/-- Changes the replayer. -/
def record (f : Replayer → Replayer) : Replay Unit := .modify fun (replayer, a) => (f replayer, a)

/-- Lets the allocator act. -/
def act {α : Type} (x : Action Allocator α) : Replay α := x.onSecond

/-- What becomes of the next allocation, of `size` bytes. -/
def allocate (size : Nat) (fill : UInt8) : Action Allocator (Option Watched) := do
  match ← (Allocator.alloc size).attempt with
  | .ok (some payload) => return some (← Watched.watch payload size fill)
  | .ok none =>
    require (size == 0) .violated
    return none
  | .error (.outOfMemory _) => return none
  | .error error => .refuse error

/-- What becomes of a live allocation that is resized. -/
def reallocate (live : Watched) (size : Nat) : Action Allocator (Option Watched) := do
  live.verify
  match ← (Allocator.realloc (some live.payload) size).attempt with
  | .ok (some payload) =>
    Allocator.requireFilled payload live.fill (min live.size size) (.contentsLost live.payload)
    return some (← Watched.watch payload size live.fill)
  | .ok none => return none
  | .error (.outOfMemory _) =>
    live.verify
    return some live
  | .error error => .refuse error

/-- Performs one operation, without counting it. -/
def perform : Operation → Replay Unit
  | .alloc size => do
    let fill ← look fun replayer => patternByte replayer.entries.size
    let live ← act (allocate size fill)
    record (push live)
  | .free index => do
    match ← look (·.get? index) with
    | none => return ()
    | some live =>
      record (put index none)
      act live.verify
      act (Allocator.free (some live.payload))
  | .realloc index size => do
    match ← look (·.get? index) with
    | none => return ()
    | some live =>
      let live ← act (reallocate live size)
      record (put index live)

/-- Performs one operation, and audits the heap from time to time. -/
def step (operation : Operation) : Replay Unit := do
  perform operation
  record tick
  if (← look (·.performed)) % auditPeriod = 0 then
    let _ ← act Allocator.check

/-- Performs the operations of a trace. -/
def stepAll : Trace → Replay Unit
  | [] => return ()
  | operation :: rest => do
    step operation
    stepAll rest

/-- Verifies each of the given payloads that is live. -/
def verifyAll : List (Option Watched) → Action Allocator Unit
  | [] => return ()
  | none :: rest => verifyAll rest
  | some live :: rest => do
    live.verify
    verifyAll rest

/-- Verifies all live payloads, and the heap as a whole. -/
def finish : Replay Unit := do
  let entries ← look (·.entries)
  act (verifyAll entries.toList)
  let _ ← act Allocator.check

/-- Lets a replayer of its own act on the allocator. -/
def alone {α : Type} (x : Replay α) : Action Allocator α := x.withFirst new

end Replayer

namespace Trace

open Replayer

/-- Replays a trace to its end. -/
def replay (t : Trace) : Action Allocator Unit := alone do
  stepAll t
  finish

/-- Replays a trace that may not fail: what would be refused is a fault. -/
def replayUnfailing (t : Trace) : Action Allocator Unit := alone do
  (stepAll t).orStop .replayFailed
  finish.orStop .notIntact

/-- Sets up a heap and replays a trace on it, which may not fail. -/
def replayAfresh (t : Trace) : Action Allocator Unit := do
  Allocator.init.orStop .replayFailed
  t.replay.orStop .replayFailed

/-- How a replay on a new heap of the standard source ends. -/
def replayAlone (hardened : Bool) (t : Trace) : Outcome Allocator Unit :=
  t.replayAfresh.outcome (.create .standard { hardened })

end Trace

end TaggedHeap
