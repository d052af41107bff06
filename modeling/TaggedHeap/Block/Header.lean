import TaggedHeap.Block.Size

/-!
# Headers

A header is one word.  Sizes are multiples of sixteen, so four of its bits are free to carry
something else: the lowest says whether the block is allocated, the next one whether the block
before it is, and the other two are always clear.
-/

namespace TaggedHeap

/-- What the first word of a block says. -/
structure Header where
  /-- The block's size in bytes, header included. -/
  size : Nat
  /-- Whether the block is allocated. -/
  allocated : Bool
  /-- Whether the block before it is allocated. -/
  prevAllocated : Bool
deriving DecidableEq, Repr

namespace Header

/-- The header of a free block. -/
def free (size : Nat) (prevAllocated : Bool) : Header := ⟨size, false, prevAllocated⟩

/-- The header of an allocated block. -/
def taken (size : Nat) (prevAllocated : Bool) : Header := ⟨size, true, prevAllocated⟩

/-- The header that ends a heap: an allocated block without bytes. -/
def epilogue (prevAllocated : Bool) : Header := taken 0 prevAllocated

/-- The word that stands for a header. -/
def encode (h : Header) : Nat := h.size + h.allocated.toNat + 2 * h.prevAllocated.toNat

/-- The header that a word stands for, whatever its reserved bits are. -/
def decode (w : Nat) : Header where
  size := w / alignment * alignment
  allocated := w % 2 == 1
  prevAllocated := w / 2 % 2 == 1

/-- Whether a word has one of the two bits set that no header uses. -/
def reserved (w : Nat) : Bool := w / 4 % 4 != 0

end Header

end TaggedHeap
