import TaggedHeap.Text.Numeral

/-!
# What can go wrong

Three kinds of trouble are kept apart, because they promise different things.

* A `Refusal` is an answer: the call was refused, and the heap is as it was.
* A `Corruption` is the reason that an audit gives with its `Refusal.corruptHeap`.
* A `Fault` is no answer at all.  It stands for a run that stopped inside an operation, on a heap
  whose bytes no longer mean what the allocator thinks they mean, or because a self-check failed.

Some faults have a text of their own and some have none; `Fault.message?` says which.
-/

namespace TaggedHeap

/-- Which invariant an audit found broken. -/
inductive Corruption where
  /-- The heap's size is no multiple of the alignment, or not the size of its memory. -/
  | raggedSize
  /-- A header uses bits that no header may use. -/
  | reservedBits
  /-- A header's mark about its predecessor is wrong. -/
  | wrongPredecessor
  /-- The last word of the heap is no epilogue. -/
  | badEpilogue
  /-- A block before the epilogue has no size. -/
  | zeroSize
  /-- A block is too small to hold its own bookkeeping. -/
  | undersized
  /-- A block reaches beyond the epilogue. -/
  | pastEpilogue
  /-- The start set and a header disagree about a block. -/
  | startMismatch
  /-- Two free blocks touch. -/
  | adjacentFree
  /-- A free block's last word is no copy of its header. -/
  | footerMismatch
  /-- The start set names a block that the walk did not meet. -/
  | phantomStart
  /-- A list entry is no free block, or was listed before. -/
  | strayEntry
  /-- A free block is listed under another size class than its own. -/
  | wrongClass
  /-- A free block's back link does not name the entry before it. -/
  | brokenBackLink
  /-- A free block is in no list. -/
  | unlisted
deriving DecidableEq, Repr

namespace Corruption

/-- The reason as messages give it. -/
def reason : Corruption → String
  | raggedSize => "heap size is not a whole number of aligned blocks"
  | reservedBits => "reserved header bits are set"
  | wrongPredecessor => "header disagrees with the state of the previous block"
  | badEpilogue => "epilogue is not a zero-sized allocated block"
  | zeroSize => "zero-sized block before the epilogue"
  | undersized => "block is smaller than the minimum block size"
  | pastEpilogue => "block runs past the epilogue"
  | startMismatch => "block start table disagrees with the header"
  | adjacentFree => "two adjacent free blocks"
  | footerMismatch => "free block's header and footer disagree"
  | phantomStart => "block start table names a block that does not exist"
  | strayEntry => "free list entry is not an unlisted free block"
  | wrongClass => "free block is in the wrong size class"
  | brokenBackLink => "free list back link is broken"
  | unlisted => "free block is missing from the free lists"

end Corruption

/-- The answer of a call that was refused. -/
inductive Refusal where
  /-- The heap source would not grow by `request` bytes. -/
  | outOfMemory (request : Nat)
  /-- A size is too large to be a word. -/
  | sizeOverflow
  /-- The pointer names no live payload. -/
  | invalidPointer (offset : Nat)
  /-- The pointer names a block that is free already. -/
  | doubleFree (offset : Nat)
  /-- An audit found `cause` at `offset`. -/
  | corruptHeap (offset : Nat) (cause : Corruption)
  /-- No initialisation has succeeded yet. -/
  | uninitialized
  /-- A heap source with room for `request` bytes could not be made. -/
  | mapFailed (request : Nat)
deriving DecidableEq, Repr

namespace Refusal

/-- The name of a refusal. -/
def name : Refusal → String
  | outOfMemory _ => "OutOfMemory"
  | sizeOverflow => "SizeOverflow"
  | invalidPointer _ => "InvalidPointer"
  | doubleFree _ => "DoubleFree"
  | corruptHeap _ _ => "CorruptHeap"
  | uninitialized => "Uninitialized"
  | mapFailed _ => "MapFailed"

/-- The refusal as a sentence. -/
def message : Refusal → String
  | outOfMemory request =>
    "out of memory: the heap could not grow by " ++ toString request ++ " bytes"
  | sizeOverflow => "requested size overflows usize"
  | invalidPointer offset => "offset " ++ Numeral.hex offset ++ " is not a live allocation"
  | doubleFree offset => "offset " ++ Numeral.hex offset ++ " was already freed"
  | corruptHeap offset cause =>
    "heap is corrupt at offset " ++ Numeral.hex offset ++ ": " ++ cause.reason
  | uninitialized => "allocator used before a successful init"
  | mapFailed request => "could not map " ++ toString request ++ " bytes of backing memory"

/-- A name with named fields behind it, between braces. -/
def withFields (name : String) (fields : List (String × String)) : String :=
  name ++ " \x7b " ++ String.intercalate ", " (fields.map fun (field, value) =>
    field ++ ": " ++ value) ++ " \x7d"

/-- The refusal as a term: its name and, where it has any, its fields. -/
def term (error : Refusal) : String :=
  match error with
  | outOfMemory request => withFields error.name [("request", toString request)]
  | sizeOverflow => error.name
  | invalidPointer offset => withFields error.name [("offset", toString offset)]
  | doubleFree offset => withFields error.name [("offset", toString offset)]
  | corruptHeap offset cause =>
    withFields error.name
      [("offset", toString offset), ("reason", "\"" ++ cause.reason ++ "\"")]
  | uninitialized => error.name
  | mapFailed request => withFields error.name [("request", toString request)]

end Refusal

/-- A block's name in messages: the offset of its header. -/
def blockName (block : Nat) : String := "Block(" ++ toString block ++ ")"

/-- Why a run stopped inside an operation. -/
inductive Fault where
  /-- A byte outside the memory was asked for. -/
  | outOfBounds
  /-- A sum or a difference is no word. -/
  | overflow
  /-- A self-check failed that has nothing to say. -/
  | violated
  /-- A list was followed for more steps than the memory has bytes. -/
  | endless
  /-- Free list links were asked of a block that is allocated. -/
  | noLinks (block : Nat)
  /-- The word before `block` should be a free block's footer and is not. -/
  | footerNotFree (block : Nat)
  /-- A free block no longer holds the pattern it was filled with. -/
  | dirtyBlock (block : Nat)
  /-- The audit after an operation failed. -/
  | auditFailed (cause : Refusal)
  /-- A replayed payload does not hold its pattern any more. -/
  | overwritten (payload : Nat)
  /-- A replayed payload reaches beyond the heap. -/
  | offTheHeap (payload : Nat)
  /-- A replayed reallocation did not keep the payload's bytes. -/
  | contentsLost (payload : Nat)
  /-- A replay that may not fail did. -/
  | replayFailed (cause : Refusal)
  /-- The closing check of a replay that may not fail did. -/
  | notIntact (cause : Refusal)
deriving DecidableEq, Repr

namespace Fault

/-- The text of a fault, where it has one. -/
def message? : Fault → Option String
  | outOfBounds | overflow | violated | endless => none
  | noLinks block => some (blockName block ++ " is allocated and has no free list links")
  | footerNotFree block => some ("the footer before " ++ blockName block ++ " is not free")
  | dirtyBlock block =>
    some ("free " ++ blockName block ++ " was written to after it was freed")
  | auditFailed cause => some cause.message
  | overwritten payload => some ("payload at " ++ Numeral.hex payload ++ " was overwritten")
  | offTheHeap payload => some ("payload at " ++ Numeral.hex payload ++ " runs off the heap")
  | contentsLost payload => some ("realloc of " ++ Numeral.hex payload ++ " lost its contents")
  | replayFailed cause =>
    some ("Replay should not hit an allocator error: " ++ cause.term)
  | notIntact cause => some ("Live payloads should be intact: " ++ cause.term)

end Fault

/-- Why a computation has no value: it was refused, or it stopped with a fault. -/
inductive Failure where
  /-- The computation was refused. -/
  | refused (error : Refusal)
  /-- The computation stopped. -/
  | stopped (fault : Fault)
deriving DecidableEq, Repr

instance : MonadLift (Except Refusal) (Except Failure) where
  monadLift x := x.mapError .refused

instance : MonadLift (Except Fault) (Except Failure) where
  monadLift x := x.mapError .stopped

/-- Goes on if `condition` holds and stops with `fault` otherwise. -/
def require (condition : Bool) (fault : Fault) : Except Fault Unit :=
  if condition then .ok () else .error fault

/-- The sum of two words, if it is one. -/
def addWord (a b : Nat) : Except Fault Nat :=
  if a + b < wordBound then .ok (a + b) else .error .overflow

/-- The difference of two words, if it is one. -/
def subWord (a b : Nat) : Except Fault Nat :=
  if b ≤ a then .ok (a - b) else .error .overflow

@[simp] theorem require_true (fault : Fault) : require true fault = .ok () := rfl

@[simp] theorem require_false (fault : Fault) : require false fault = .error fault := rfl

theorem addWord_of_lt {a b : Nat} (h : a + b < wordBound) : addWord a b = .ok (a + b) :=
  if_pos h

theorem subWord_of_le {a b : Nat} (h : b ≤ a) : subWord a b = .ok (a - b) := if_pos h

end TaggedHeap
