import TaggedHeap.Block.Links
import TaggedHeap.Memory.Lemmas

/-!
# Checked access that succeeds, and frames

All that the arena does to a memory goes through access with a bounds test.  Where the bounds are
known the tests disappear: each of the first lemmas here says that one kind of access succeeds, and
with what.

The rest is about what a write leaves alone.  `Memory.EqOff m m' P` says that `m'` is `m` but for
bytes at which `P` holds.  Steps of the arena compose such frames (`EqOff.trans`, `EqOff.mono`), and
`EqOff.word` turns one into the statement that proofs need, that a certain word is still there.
-/

namespace TaggedHeap

variable {α β ε : Type}

/-! ## Computations that succeed -/

/-- A computation that has its value goes on with it. -/
@[simp] theorem ok_bind (a : α) (f : α → Except ε β) : (Except.ok a >>= f) = f a := rfl

/-- A computation that failed does not go on. -/
@[simp] theorem error_bind (e : ε) (f : α → Except ε β) : (Except.error e >>= f) = .error e := rfl

/-- To end with a value is to succeed with it. -/
@[simp] theorem pure_eq_ok (a : α) : (pure a : Except ε α) = .ok a := rfl

/-- A computation in two parts has a value if both parts have one. -/
theorem bind_eq_ok_iff {x : Except ε α} {f : α → Except ε β} {b : β} :
    (x >>= f) = .ok b ↔ ∃ a, x = .ok a ∧ f a = .ok b := by
  cases x with
  | error e => simp
  | ok a => simp

/-- A demand that is met lets the computation pass. -/
theorem require_of {condition : Bool} {fault : Fault} (h : condition = true) :
    require condition fault = .ok () := by
  rw [h, require_true]

/-- A demand that only a hardened heap makes, and that is met there. -/
theorem require_hardened {hardened condition : Bool} {fault : Fault}
    (h : hardened = true → condition = true) :
    require (!hardened || condition) fault = .ok () := by
  cases hardened
  · rfl
  · rw [h rfl]; rfl

namespace Memory

variable {hardened : Bool} {m m' m'' : Memory} {P Q : Nat → Prop}

/-- The last word of every number that a memory can hold is a word. -/
theorem readWord_of_le {i : Nat} (h : i + wordSize ≤ m.size) : m.readWord i = .ok (m.word i) :=
  readWord_eq_ok_iff.mpr ⟨h, rfl⟩

/-- A word is written where there is room for it. -/
theorem writeWord_of_le {i w : Nat} (h : i + wordSize ≤ m.size) :
    m.writeWord i w = .ok (m.putWord i w) :=
  writeWord_eq_ok_iff.mpr ⟨h, rfl⟩

/-- A header is read where there is one. -/
theorem header_of_le {block : Nat} (h : block + wordSize ≤ m.size) :
    m.header block = .ok (Header.decode (m.word block)) := by
  rw [header, readWord_of_le h]
  rfl

/-- A header is written where there is room for it, if its size is whole units. -/
theorem putHeader_of_le {block : Nat} {header : Header} (h : block + wordSize ≤ m.size)
    (units : header.size % alignment = 0) :
    m.putHeader hardened block header = .ok (m.putWord block header.encode) := by
  rw [putHeader, require_hardened fun _ => beq_iff_eq.mpr units, ok_bind, writeWord_of_le h]

/-- A mark about the block before is set where there is a header. -/
theorem putPrevAllocated_of_le {block : Nat} {prevAllocated : Bool}
    (h : block + wordSize ≤ m.size) :
    m.putPrevAllocated hardened block prevAllocated
      = .ok (m.putWord block
          ({ Header.decode (m.word block) with prevAllocated } : Header).encode) := by
  rw [putPrevAllocated, header_of_le h, ok_bind, putHeader_of_le h (Nat.mul_mod_left ..)]

/-- A range is filled where it exists. -/
theorem fillRange_of_le {i count : Nat} {b : UInt8} (h : i + count ≤ m.size) :
    m.fillRange i b count = .ok (m.fill i b count) := by
  rw [fillRange, inBounds_of_le h]
  rfl

/-- A range is looked at where it exists. -/
theorem rangeHolds_of_le {i count : Nat} {b : UInt8} (h : i + count ≤ m.size) :
    m.rangeHolds i b count = .ok (m.holds i b count) := by
  rw [rangeHolds, inBounds_of_le h]
  rfl

/-- A range is copied where both places exist. -/
theorem copyRange_of_le {source target count : Nat} (hs : source + count ≤ m.size)
    (ht : target + count ≤ m.size) :
    m.copyRange source target count = .ok (m.paste target (m.slice source count)) := by
  rw [copyRange, inBounds_of_le hs, ok_bind, inBounds_of_le ht]
  rfl

/-- Bytes are pasted where there is room for them. -/
theorem pasteRange_of_le {i : Nat} {bytes : ByteArray} (h : i + bytes.size ≤ m.size) :
    m.pasteRange i bytes = .ok (m.paste i bytes) := by
  rw [pasteRange, inBounds_of_le h]
  rfl

/-! ## Frames -/

/-- The offsets from `lo` on and before `hi`. -/
abbrev Span (lo hi j : Nat) : Prop := lo ≤ j ∧ j < hi

/-- The memories have the same size, and the same bytes but for those at which `P` holds. -/
structure EqOff (m m' : Memory) (P : Nat → Prop) : Prop where
  /-- No byte came or went. -/
  size : m'.size = m.size
  /-- What lies outside is as it was. -/
  byte : ∀ j, ¬ P j → m'.byte j = m.byte j

/-- Nothing differs from itself. -/
theorem EqOff.refl (m : Memory) (P : Nat → Prop) : m.EqOff m P := ⟨rfl, fun _ _ => rfl⟩

/-- Two steps that each keep to the same bytes do so together. -/
theorem EqOff.trans (h : m.EqOff m' P) (h' : m'.EqOff m'' P) : m.EqOff m'' P :=
  ⟨h'.size.trans h.size, fun j hj => (h'.byte j hj).trans (h.byte j hj)⟩

/-- A frame may be made coarser. -/
theorem EqOff.mono (h : m.EqOff m' P) (hPQ : ∀ j, P j → Q j) : m.EqOff m' Q :=
  ⟨h.size, fun j hj => h.byte j fun hP => hj (hPQ j hP)⟩

/-- A word that lies outside is as it was. -/
theorem EqOff.word (h : m.EqOff m' P) {i : Nat} (off : ∀ j, i ≤ j → j < i + wordSize → ¬ P j) :
    m'.word i = m.word i :=
  word_congr fun j hj hj' => h.byte j (off j hj hj')

/-- So is a header. -/
theorem EqOff.header (h : m.EqOff m' P) {i : Nat} (off : ∀ j, i ≤ j → j < i + wordSize → ¬ P j) :
    m'.header i = m.header i := by
  unfold Memory.header readWord inBounds
  rw [h.size, h.word off]

/-- Writing a word touches its eight bytes. -/
theorem eqOff_putWord (m : Memory) (i value : Nat) :
    m.EqOff (m.putWord i value) (Span i (i + wordSize)) :=
  ⟨size_putWord .., fun j hj => byte_putWord_of_disjoint value (by
    simp only [Span, wordSize] at hj ⊢
    omega)⟩

/-- Filling a range touches its bytes. -/
theorem eqOff_fill {i count : Nat} (b : UInt8) (h : i + count ≤ m.size) :
    m.EqOff (m.fill i b count) (Span i (i + count)) :=
  ⟨size_fill .., fun j hj => by rw [byte_fill b h]; exact if_neg hj⟩

/-- Pasting touches the bytes that are pasted over. -/
theorem eqOff_paste {i : Nat} {bytes : ByteArray} (h : i + bytes.size ≤ m.size) :
    m.EqOff (m.paste i bytes) (Span i (i + bytes.size)) :=
  ⟨size_paste h, fun j hj => by rw [byte_paste h]; exact if_neg hj⟩

end Memory

end TaggedHeap
