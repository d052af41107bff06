import TaggedHeap.Error

/-!
# Memory

The bytes of a heap, addressed from zero, and the words that lie in them: eight bytes each, the
least significant one first.

Access comes in two kinds.  The functions of `Memory` itself are total: a byte past the end reads
as zero, and a write past the end is lost.  They are what proofs compute with.  The functions that
answer in `Except Fault` put a bounds test in front, and they are all that the allocator uses.

What every byte is after a write is said by `byte_setByte` for the one write that all others are
made of.
-/

namespace TaggedHeap

/-- The size of a word in bytes. -/
@[simp] abbrev wordSize : Nat := 8

/-- The bytes of a heap. -/
structure Memory where
  /-- The bytes, from the heap's low end. -/
  bytes : ByteArray

namespace Memory

instance : DecidableEq Memory := fun m m' =>
  match ByteArray.instDecidableEq m.bytes m'.bytes with
  | isTrue h => isTrue (congrArg Memory.mk h)
  | isFalse h => isFalse fun e => h (congrArg Memory.bytes e)

/-- A heap that has not grown yet. -/
def empty : Memory := ⟨ByteArray.empty⟩

instance : Inhabited Memory := ⟨empty⟩

/-- The number of bytes. -/
def size (m : Memory) : Nat := m.bytes.size

/-- The byte at an offset, zero past the end. -/
def byte (m : Memory) (i : Nat) : UInt8 := if h : i < m.bytes.size then m.bytes[i] else 0

/-- Replaces the byte at an offset, if there is one. -/
def setByte (m : Memory) (i : Nat) (b : UInt8) : Memory :=
  if h : i < m.bytes.size then ⟨m.bytes.set i b h⟩ else m

/-- Two memories are equal if they have the same size and the same bytes. -/
theorem ext_byte {m m' : Memory} (hs : m.size = m'.size) (h : ∀ i, m.byte i = m'.byte i) :
    m = m' := by
  obtain ⟨a⟩ := m
  obtain ⟨b⟩ := m'
  congr 1
  refine ByteArray.ext_getElem hs fun i hi hi' => ?_
  simpa [byte, hi, hi'] using h i

theorem byte_of_size_le {m : Memory} {i : Nat} (h : m.size ≤ i) : m.byte i = 0 := by
  simp [byte, show ¬ i < m.bytes.size from Nat.not_lt.mpr h]

private theorem size_bytes_set (bytes : ByteArray) (i : Nat) (b : UInt8) (h : i < bytes.size) :
    (bytes.set i b h).size = bytes.size := by
  rw [← ByteArray.size_data, ← ByteArray.size_data, ByteArray.data_set, Array.size_set]

@[simp] theorem size_setByte (m : Memory) (i : Nat) (b : UInt8) :
    (m.setByte i b).size = m.size := by
  unfold setByte
  split
  · exact size_bytes_set ..
  · rfl

theorem byte_setByte (m : Memory) (i j : Nat) (b : UInt8) :
    (m.setByte i b).byte j = if j = i ∧ i < m.size then b else m.byte j := by
  by_cases h : i < m.bytes.size
  · simp only [setByte, h, dif_pos, byte, size_bytes_set, size, and_true]
    by_cases hj : j < m.bytes.size
    · simp only [hj, dif_pos, ByteArray.getElem_eq_getElem_data, ByteArray.data_set,
        Array.getElem_set]
      simp [eq_comm]
    · simp only [hj, dif_neg, not_false_eq_true]
      split
      · omega
      · rfl
  · simp [setByte, h, size]

/-! ## Words -/

/-- The number that `count` bytes from an offset on stand for, the first one counting least. -/
def littleEndian (m : Memory) (i : Nat) : Nat → Nat
  | 0 => 0
  | count + 1 => (m.byte i).toNat + 256 * m.littleEndian (i + 1) count

/-- Spreads a number over `count` bytes from an offset on, the least significant one first. -/
def putLittleEndian (m : Memory) (i : Nat) : Nat → Nat → Memory
  | 0, _ => m
  | count + 1, value =>
    (m.setByte i (UInt8.ofNat value)).putLittleEndian (i + 1) count (value / 256)

/-- The word at an offset. -/
def word (m : Memory) (i : Nat) : Nat := m.littleEndian i wordSize

/-- Replaces the word at an offset. -/
def putWord (m : Memory) (i value : Nat) : Memory := m.putLittleEndian i wordSize value

/-! ## Ranges -/

/-- Sets `count` bytes from an offset on to one value. -/
def fill (m : Memory) (i : Nat) (b : UInt8) : Nat → Memory
  | 0 => m
  | count + 1 => (m.setByte i b).fill (i + 1) b count

/-- Whether `count` bytes from an offset on all have one value. -/
def holds (m : Memory) (i : Nat) (b : UInt8) : Nat → Bool
  | 0 => true
  | count + 1 => m.byte i == b && m.holds (i + 1) b count

/-- The `count` bytes from an offset on, as far as there are any. -/
def slice (m : Memory) (i count : Nat) : ByteArray := m.bytes.extract i (i + count)

/-- Writes bytes from an offset on. -/
def paste (m : Memory) (i : Nat) (bytes : ByteArray) : Memory :=
  ⟨bytes.copySlice 0 m.bytes i bytes.size⟩

/-- Appends `count` bytes, all zero. -/
def extend (m : Memory) : Nat → Memory
  | 0 => m
  | count + 1 => Memory.extend ⟨m.bytes.push 0⟩ count

/-! ## Access with a bounds test -/

/-- Lets an access pass if its `count` bytes from an offset on all exist. -/
def inBounds (m : Memory) (i count : Nat) : Except Fault Unit :=
  require (i + count ≤ m.size) .outOfBounds

/-- The word at an offset, if all its bytes exist. -/
def readWord (m : Memory) (i : Nat) : Except Fault Nat := do
  m.inBounds i wordSize
  return m.word i

/-- Replaces the word at an offset, if all its bytes exist. -/
def writeWord (m : Memory) (i value : Nat) : Except Fault Memory := do
  m.inBounds i wordSize
  return m.putWord i value

/-- Sets a range to one value, if all its bytes exist. -/
def fillRange (m : Memory) (i : Nat) (b : UInt8) (count : Nat) : Except Fault Memory := do
  m.inBounds i count
  return m.fill i b count

/-- Whether a range has one value throughout, if all its bytes exist. -/
def rangeHolds (m : Memory) (i : Nat) (b : UInt8) (count : Nat) : Except Fault Bool := do
  m.inBounds i count
  return m.holds i b count

/-- Writes bytes from an offset on, if there is a place for all of them. -/
def pasteRange (m : Memory) (i : Nat) (bytes : ByteArray) : Except Fault Memory := do
  m.inBounds i bytes.size
  return m.paste i bytes

/-- Copies a range to another place, if both exist.  The ranges may overlap: the bytes are taken
before any of them is written. -/
def copyRange (m : Memory) (source target count : Nat) : Except Fault Memory := do
  m.inBounds source count
  m.inBounds target count
  return m.paste target (m.slice source count)

end Memory

end TaggedHeap
