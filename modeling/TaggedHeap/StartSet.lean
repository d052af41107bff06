import TaggedHeap.Block.Size

/-!
# The set of allocated blocks

Which blocks are allocated is also kept outside the heap, where no payload's bytes can forge it.
Headers are sixteen bytes apart at least, so one flag for each unit is enough; the flags end at the
last unit that was ever named, and all units behind it are clear.

`contains_insert` and `contains_remove` say what each change does to the set.
-/

namespace TaggedHeap

/-- The set of the blocks that are allocated. -/
structure StartSet where
  /-- One flag for each unit. -/
  flags : Array Bool
deriving DecidableEq, Repr

namespace StartSet

/-- The set without blocks. -/
def empty : StartSet := ⟨#[]⟩

instance : Inhabited StartSet := ⟨empty⟩

/-- The unit that a block starts in. -/
def unit (block : Nat) : Nat := block / alignment

/-- Whether a block is in the set. -/
def contains (starts : StartSet) (block : Nat) : Bool := starts.flags.getD (unit block) false

/-- Appends clear flags until there are `count` of them. -/
def padded (flags : Array Bool) (count : Nat) : Array Bool :=
  flags ++ Array.replicate (count - flags.size) false

/-- Adds a block. -/
def insert (starts : StartSet) (block : Nat) : StartSet :=
  ⟨(padded starts.flags (unit block + 1)).setIfInBounds (unit block) true⟩

/-- Takes a block out. -/
def remove (starts : StartSet) (block : Nat) : StartSet :=
  ⟨starts.flags.setIfInBounds (unit block) false⟩

/-- The number of blocks in the set. -/
def size (starts : StartSet) : Nat := starts.flags.count true

@[simp] theorem contains_empty (block : Nat) : empty.contains block = false := by
  simp [contains, empty]

theorem contains_insert (starts : StartSet) (block other : Nat) :
    (starts.insert block).contains other
      = (unit other == unit block || starts.contains other) := by
  simp only [contains, insert, padded, Array.getD_eq_getD_getElem?, Array.getElem?_setIfInBounds]
  by_cases h : unit block = unit other
  · have : unit other < starts.flags.size + (unit other + 1 - starts.flags.size) := by omega
    simp [h, this]
  · simp only [h, if_false, Array.getElem?_append, Array.getElem?_replicate]
    by_cases hs : unit other < starts.flags.size
    · simp [hs, Ne.symm h]
    · simp only [hs, if_false, Array.getElem?_eq_none (Nat.not_lt.mp hs)]
      split <;> simp [Ne.symm h]

theorem contains_remove (starts : StartSet) (block other : Nat) :
    (starts.remove block).contains other
      = (unit other != unit block && starts.contains other) := by
  simp only [contains, remove, Array.getD_eq_getD_getElem?, Array.getElem?_setIfInBounds]
  by_cases h : unit block = unit other
  · simp only [h, if_true]
    split <;> simp
  · simp [h, Ne.symm h]

end StartSet

end TaggedHeap
