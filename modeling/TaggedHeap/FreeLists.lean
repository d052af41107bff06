import TaggedHeap.Block.Links
import TaggedHeap.Block.SizeClass

/-!
# Free lists

Free blocks are kept in doubly linked lists, one for each size class.  Only the heads are kept
outside the heap; the links lie in the blocks themselves.

A search goes through one list after the other and ends early, so what it finds depends on the order
of the lists: new blocks come to the front.
-/

namespace TaggedHeap

/-- How to choose among the free blocks that are large enough. -/
inductive FitPolicy where
  /-- The first one met. -/
  | firstFit
  /-- The smallest one of the first class that has one. -/
  | bestFit
deriving DecidableEq, Repr

/-- The heads of the free lists, one for each class. -/
structure FreeLists where
  /-- The first block of each list. -/
  heads : Vector (Option Nat) classCount
deriving DecidableEq, Repr

namespace FreeLists

/-- Lists without blocks. -/
def empty : FreeLists := ⟨Vector.replicate classCount none⟩

instance : Inhabited FreeLists := ⟨empty⟩

/-- The first block of a class. -/
def head (lists : FreeLists) (c : SizeClass) : Option Nat := lists.heads[c.val]

/-- Replaces the first block of a class. -/
def setHead (lists : FreeLists) (c : SizeClass) (block : Option Nat) : FreeLists :=
  ⟨lists.heads.set c.val block⟩

@[simp] theorem head_empty (c : SizeClass) : empty.head c = none := by
  simp [empty, head]

theorem head_setHead (lists : FreeLists) (c d : SizeClass) (block : Option Nat) :
    (lists.setHead c block).head d = if c = d then block else lists.head d := by
  simp [head, setHead, Vector.getElem_set, Fin.ext_iff]

/-- The class of a free block, by the size in its header. -/
def classOfBlock (hardened : Bool) (m : Memory) (block : Nat) :
    Except Fault (SizeClass) := do
  let h ← m.header block
  require (!hardened || minBlockSize ≤ h.size) .violated
  return SizeClass.of h.size

/-- Puts a free block in front of the list of its class. -/
def insert (hardened : Bool) (lists : FreeLists) (m : Memory) (block : Nat) :
    Except Fault (FreeLists × Memory) := do
  m.requireLinks block
  let c ← classOfBlock hardened m block
  let first := lists.head c
  let m ← m.putNextLink hardened block first
  let m ← m.putPrevLink hardened block none
  let m ← match first with
    | some first => do
      m.requireLinks first
      m.putPrevLink hardened first (some block)
    | none => pure m
  return (lists.setHead c (some block), m)

/-- Takes a free block out of its list.  Its links have to be intact still, so this comes before
the block is split or merged. -/
def remove (hardened : Bool) (lists : FreeLists) (m : Memory) (block : Nat) :
    Except Fault (FreeLists × Memory) := do
  m.requireLinks block
  let next ← m.nextLink hardened block
  let prev ← m.prevLink hardened block
  let (lists, m) ← match prev with
    | some prev => do
      m.requireLinks prev
      let m ← m.putNextLink hardened prev next
      pure (lists, m)
    | none => do
      let c ← classOfBlock hardened m block
      require (!hardened || lists.head c == some block) .violated
      pure (lists.setHead c next, m)
  let m ← match next with
    | some next => do
      m.requireLinks next
      m.putPrevLink hardened next prev
    | none => pure m
  let m ← m.putNextLink hardened block none
  let m ← m.putPrevLink hardened block none
  return (lists, m)

/-- The better of a candidate and the best block so far; of two of one size, the earlier one. -/
def better (best : Option (Nat × Nat)) (block size : Nat) : Nat × Nat :=
  match best with
  | some (best, bestSize) => if size < bestSize then (block, size) else (best, bestSize)
  | none => (block, size)

/-- Looks through one list from `cursor` on for a block of at least `size` bytes.  `fuel` bounds the
number of blocks looked at. -/
def findIn (hardened : Bool) (m : Memory) (fit : FitPolicy) (size : Nat) :
    (fuel : Nat) → (cursor : Option Nat) → (best : Option (Nat × Nat)) →
      Except Fault (Option Nat)
  | _, none, best => return best.map (·.1)
  | 0, some _, _ => throw .endless
  | fuel + 1, some block, best => do
    let h ← m.header block
    if size ≤ h.size ∧ (fit = .firstFit ∨ h.size = size) then
      return some block
    let best := if size ≤ h.size then some (better best block h.size) else best
    m.requireLinks block
    let next ← m.nextLink hardened block
    findIn hardened m fit size fuel next best

/-- The bound on a walk through a list.  A list that never comes back to a block it left has at
most one block for each byte. -/
def walkBound (m : Memory) : Nat := m.size + 1

/-- The first of the given classes' answers that names a block. -/
def findAmong (hardened : Bool) (lists : FreeLists) (m : Memory) (fit : FitPolicy) (size : Nat) :
    List (SizeClass) → Except Fault (Option Nat)
  | [] => return none
  | c :: classes => do
    match ← findIn hardened m fit size (walkBound m) (lists.head c) none with
    | some block => return some block
    | none => findAmong hardened lists m fit size classes

/-- A free block of at least `size` bytes, which stays in its list.  The search starts at the class
of that size: all blocks in the ones before it are smaller. -/
def findBlock (hardened : Bool) (lists : FreeLists) (m : Memory) (fit : FitPolicy) (size : Nat) :
    Except Fault (Option Nat) := do
  require (!hardened || minBlockSize ≤ size) .violated
  findAmong hardened lists m fit size (SizeClass.of size).upFrom

/-- The number of blocks in one list from `cursor` on. -/
def countFrom (hardened : Bool) (m : Memory) : (fuel : Nat) → (cursor : Option Nat) →
    Except Fault Nat
  | _, none => return 0
  | 0, some _ => throw .endless
  | fuel + 1, some block => do
    m.requireLinks block
    let next ← m.nextLink hardened block
    return (← countFrom hardened m fuel next) + 1

/-- The number of blocks in the given classes' lists. -/
def countAmong (hardened : Bool) (lists : FreeLists) (m : Memory) :
    List (SizeClass) → Except Fault Nat
  | [] => return 0
  | c :: classes => do
    let count ← countFrom hardened m (walkBound m) (lists.head c)
    return count + (← countAmong hardened lists m classes)

/-- The number of blocks in all lists. -/
def count (hardened : Bool) (lists : FreeLists) (m : Memory) : Except Fault Nat :=
  countAmong hardened lists m SizeClass.all

end FreeLists

end TaggedHeap
