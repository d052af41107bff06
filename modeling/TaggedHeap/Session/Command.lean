import TaggedHeap.Config
import TaggedHeap.Session.Growth
import TaggedHeap.Session.Pointer
import TaggedHeap.Session.Runs
import TaggedHeap.Audit
import TaggedHeap.Trace.Parser

/-!
# Commands and answers

What can be asked for in a session, and what can come of it.
-/

namespace TaggedHeap

/-- How a trace is replayed in a session. -/
inductive ReplayMode where
  /-- By the session's own replayer, with a look at the heap after every so many operations. -/
  | observed (period : Nat)
  /-- By a replayer of its own, to the end. -/
  | whole
  /-- By a replayer of its own, which may not fail. -/
  | unfailing
deriving DecidableEq, Repr

/-- One command of a session. -/
inductive Command where
  /-- Sets up the heap. -/
  | init
  /-- Allocates. -/
  | alloc (n : Nat)
  /-- Allocates zeroed elements. -/
  | calloc (n size : Nat)
  /-- Resizes a payload. -/
  | realloc (p : Pointer) (n : Nat)
  /-- Frees a payload. -/
  | free (p : Pointer)
  /-- Asks how many bytes of a payload may be used. -/
  | usable (p : Pointer)
  /-- Reads `n` bytes of a payload, or all, from `start` on. -/
  | read (p : Pointer) (start : Nat) (n : Option Nat)
  /-- Sets the first `n` bytes of a payload, or all, to one value. -/
  | fill (p : Pointer) (b : UInt8) (n : Option Nat)
  /-- Writes bytes into a payload, from `start` on. -/
  | write (p : Pointer) (start : Nat) (bytes : ByteArray)
  /-- Writes bytes anywhere into the heap. -/
  | poke (p : Pointer) (bytes : ByteArray)
  /-- Lets the source report a size that is off by `drift`. -/
  | skew (drift : Int)
  /-- Audits the heap. -/
  | check
  /-- Counts the blocks in the free lists. -/
  | freeBlocks
  /-- Shows all words of the heap. -/
  | dump
  /-- Shows the allocator's settings. -/
  | info
  /-- Grows the source and makes a new allocator for it. -/
  | reopen (growths : List Nat) (chunk : Nat) (fit : FitPolicy)
  /-- Reads an operation and lets the session's replayer perform it. -/
  | step (text : List Char)
  /-- Reads a trace and replays it. -/
  | replay (text : List Char) (mode : ReplayMode)
  /-- Lets the session's replayer verify what is live. -/
  | finish

/-- What an observer notes after an operation of a trace. -/
structure Observation where
  /-- The operation's number, counted from zero. -/
  index : Nat
  /-- How many allocations are live. -/
  live : Nat
  /-- The figures of the heap, or what is wrong with it. -/
  stats : Except Refusal Stats

/-- The settings of an allocator and the bounds of its heap. -/
structure Info where
  /-- Whether the allocator is initialised. -/
  ready : Bool
  /-- How much the heap grows at least. -/
  chunk : Nat
  /-- How blocks are chosen. -/
  fit : FitPolicy
  /-- The offset of the first byte. -/
  low : Nat
  /-- One past the offset of the last byte. -/
  high : Nat

/-- What comes of a command that is not refused. -/
inductive Answer where
  /-- Nothing but that it was done. -/
  | done
  /-- A number. -/
  | number (n : Nat)
  /-- A new payload, or none. -/
  | payload (p : Option Nat)
  /-- Runs of bytes. -/
  | bytes (runs : List (Run UInt8))
  /-- Runs of words, by number of word. -/
  | words (runs : List (Run Nat))
  /-- Figures of the heap. -/
  | stats (stats : Stats)
  /-- Settings. -/
  | info (info : Info)
  /-- What the source told while it grew. -/
  | growths (growths : List Growth)
  /-- What was observed during a replay, and the error that ended it early. -/
  | observed (observations : List Observation) (failed : Option Refusal)
  /-- The text is no operation. -/
  | unreadable (error : ParseError)
  /-- A payload is needed and none was named. -/
  | noPayload
  /-- The bytes would go beyond what they are to be written into. -/
  | outOfRange

namespace Answer

/-- The payload that later commands can refer to. -/
def payload? : Answer → Option Nat
  | payload p => p
  | _ => none

end Answer

end TaggedHeap
