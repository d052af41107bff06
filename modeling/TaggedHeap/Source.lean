import TaggedHeap.Block.Size

/-!
# Heap sources

A source owns the memory of a heap and extends it at its end, up to a cap.  There are two kinds.  A
buffer takes its limit as its cap and asks for room when it grows, so a very large growth may be
refused below the cap.  A reservation asks for all of its room when it is made, in whole pages, so
it may be refused then, and growing never asks for more.

Whether there is room is not for a source to say but for the platform that it asks.  The thresholds
`bufferRoom` and `reservationRoom` stand for the platform's answers: a request below them is taken
to be granted, and one from them on is refused.

The size that a source reports can be made to drift from the size of its memory.  That is of no use
to a heap, but shows what an allocator does on one that is not what it seems.
-/

namespace TaggedHeap

/-- The size of a page in bytes. -/
@[simp] def pageSize : Nat := 4096

/-- The growth from which on a buffer has no room, whatever its cap.  It stands for what the
platform's allocator answers when a buffer tries to reserve room for a growth: 2^47 bytes are all
the addresses that a process has, so it never grants so many more. -/
def bufferRoom : Nat := 0x800000000000

/-- The limit from which on no reservation can be made.  It stands for what the platform answers
when it is asked to map as many pages: 2^60 bytes and more exceed every address space that it
manages. -/
def reservationRoom : Nat := 0x1000000000000000

/-- Where a source gets its room from. -/
inductive SourceKind where
  /-- Room is asked for with each growth. -/
  | buffer
  /-- All room was asked for in advance. -/
  | reservation
deriving DecidableEq, Repr

/-- A source of heap memory. -/
structure Source where
  /-- Where it gets its room from. -/
  kind : SourceKind
  /-- The most bytes that it will ever hold. -/
  cap : Nat
  /-- The bytes that it holds. -/
  memory : Memory
  /-- What it adds to its size when asked for it. -/
  drift : Int
deriving DecidableEq

namespace Source

instance : Inhabited Source := ⟨⟨.buffer, 0, .empty, 0⟩⟩

/-- A buffer without bytes. -/
def buffer (limit : Nat) : Source := ⟨.buffer, limit, .empty, 0⟩

/-- The least number of whole pages, in bytes, that has room for `limit` bytes and is not zero. -/
def wholePages (limit : Nat) : Nat := (max limit 1 + (pageSize - 1)) / pageSize * pageSize

/-- A reservation without bytes. -/
def reserve (limit : Nat) : Except Refusal Source :=
  if limit < reservationRoom then .ok ⟨.reservation, wholePages limit, .empty, 0⟩
  else .error (.mapFailed limit)

/-- The source of a heap when there is no reason to choose another one. -/
def standard : Source := ⟨.reservation, wholePages defaultLimit, .empty, 0⟩

/-- A source of the given kind without bytes. -/
def make (kind : SourceKind) (limit : Nat) : Except Refusal Source :=
  match kind with
  | .buffer => .ok (buffer limit)
  | .reservation => reserve limit

/-- The size that the source reports, as a word. -/
def size (s : Source) : Nat := ((s.memory.size + s.drift) % wordBound).toNat

/-- The offset of the first byte. -/
def low (_ : Source) : Nat := 0

/-- One past the offset of the last byte, as far as the reported size tells. -/
def high (s : Source) : Nat := s.low + s.size

/-- Whether room for `n` more bytes can be had at all. -/
def hasRoom (s : Source) (n : Nat) : Bool := s.kind == .reservation || n < bufferRoom

/-- Whether growing by `n` bytes succeeds. -/
def accepts (s : Source) (n : Nat) : Bool :=
  s.memory.size + n < wordBound && s.memory.size + n ≤ s.cap && s.hasRoom n

/-- The source with `n` more bytes, all zero. -/
def extend (s : Source) (n : Nat) : Source :=
  let ⟨kind, cap, memory, drift⟩ := s
  ⟨kind, cap, memory.extend n, drift⟩

/-- Asks for `n` more bytes.  Answers the size before, and the source afterwards, which is as it was
if it refused. -/
def grow (s : Source) (n : Nat) : Except Refusal Nat × Source :=
  if s.accepts n then
    let old := s.memory.size
    (.ok old, s.extend n)
  else (.error (.outOfMemory n), s)

end Source

end TaggedHeap
