import TaggedHeap.Block.Layout

/-!
# Links

A free block's payload starts with two links, to the next block of its list and to the previous one.
A link is the offset of a block, or zero if there is none.

A link is only as good as the bytes that hold it.  So every block is looked at before its links
are used, and a block that is not free has none: that is `Fault.noLinks`.
-/

namespace TaggedHeap

/-- Where a block's link to the next one lies. -/
@[simp] abbrev nextSlot (block : Nat) : Nat := payloadOf block

/-- Where a block's link to the previous one lies. -/
@[simp] abbrev prevSlot (block : Nat) : Nat := payloadOf block + wordSize

namespace Memory

/-- Insists that a block is free and so has links. -/
def requireLinks (m : Memory) (block : Nat) : Except Fault Unit := do
  let h ← m.header block
  require (!h.allocated) (.noLinks block)

/-- Insists, on a hardened heap, that a block whose link is used is free and aligned. -/
def requireLinkable (hardened : Bool) (m : Memory) (block : Nat) : Except Fault Unit := do
  if hardened then
    let h ← m.header block
    require (!h.allocated) .violated
    requireAligned hardened block

/-- The link in one of a block's slots. -/
def link (hardened : Bool) (m : Memory) (block slot : Nat) : Except Fault (Option Nat) := do
  requireLinkable hardened m block
  let w ← m.readWord slot
  return if w = 0 then none else some w

/-- Replaces the link in one of a block's slots. -/
def putLink (hardened : Bool) (m : Memory) (block slot : Nat) (target : Option Nat) :
    Except Fault Memory := do
  requireLinkable hardened m block
  m.writeWord slot (target.getD 0)

/-- The free block that follows a block in its list. -/
def nextLink (hardened : Bool) (m : Memory) (block : Nat) : Except Fault (Option Nat) :=
  link hardened m block (nextSlot block)

/-- The free block that precedes a block in its list. -/
def prevLink (hardened : Bool) (m : Memory) (block : Nat) : Except Fault (Option Nat) :=
  link hardened m block (prevSlot block)

/-- Records which free block follows a block in its list. -/
def putNextLink (hardened : Bool) (m : Memory) (block : Nat) (target : Option Nat) :
    Except Fault Memory :=
  putLink hardened m block (nextSlot block) target

/-- Records which free block precedes a block in its list. -/
def putPrevLink (hardened : Bool) (m : Memory) (block : Nat) (target : Option Nat) :
    Except Fault Memory :=
  putLink hardened m block (prevSlot block) target

end Memory

end TaggedHeap
