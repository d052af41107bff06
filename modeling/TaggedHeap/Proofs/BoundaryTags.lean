import Mathlib.Data.Nat.Bitwise
import TaggedHeap.Proofs.Blocks
import TaggedHeap.Proofs.Words

/-!
# Boundary tags

A block's size and two flags share one word.  That word is the block's header, and while the block
is free it is its footer as well.  All that is known of a block's surroundings is read from such
words, so nothing may be lost when they are written.

* A header's flags lie where whole units have no bits (`Header.testBit_encode`).  `Header.toWord`
  and `Header.ofWord` put it together and take it apart by masks, and agree with `encode` and
  `decode`.
* `Memory.bit` looks at a memory bit by bit.  A word's bits are those of its bytes
  (`Memory.testBit_word`), so a change of one flag is a change of one bit of the memory
  (`Memory.bit_putPrevAllocated`).
* `MadeFree` is what it comes to that a range of bytes is made a free block: the block is found from
  both ends.

`boundary_tags_lossless` puts these together.
-/

namespace TaggedHeap

open Memory

/-! ## Headers as words -/

namespace Header

variable {h : Header}

/-- The flags of a header, as a number of two bits. -/
def flags (h : Header) : Nat := h.allocated.toNat + 2 * h.prevAllocated.toNat

/-- The flags are two bits. -/
theorem testBit_flags (k : Nat) : h.flags.testBit k
    = if k = 0 then h.allocated else if k = 1 then h.prevAllocated else false := by
  have bits : ∀ a p : Bool, (a.toNat + 2 * p.toNat).testBit 0 = a ∧
      (a.toNat + 2 * p.toNat).testBit 1 = p ∧ a.toNat + 2 * p.toNat < 2 ^ 2 := by decide
  obtain ⟨first, second, small⟩ := bits h.allocated h.prevAllocated
  match k with
  | 0 => exact first
  | 1 => exact second
  | k + 2 =>
    exact Nat.testBit_lt_two_pow
      (Nat.lt_of_lt_of_le small (Nat.pow_le_pow_right Nat.two_pos (Nat.le_add_left 2 k)))

/-- The four bits that no whole units have. -/
theorem testBit_of_units {n k : Nat} (units : n % alignment = 0) (low : k < 4) :
    n.testBit k = false := by
  obtain ⟨count, rfl⟩ := Nat.dvd_of_mod_eq_zero units
  rw [Nat.testBit_two_pow_mul (i := 4), decide_eq_false (Nat.not_le.mpr low), Bool.false_and]

/-- The flags are put where whole units have no bits. -/
theorem encode_eq_or (units : h.size % alignment = 0) : h.encode = h.size ||| h.flags := by
  have small : h.flags < 2 ^ 4 := by
    have := h.allocated.toNat_le
    have := h.prevAllocated.toNat_le
    unfold flags
    omega
  obtain ⟨count, whole⟩ := Nat.dvd_of_mod_eq_zero units
  rw [encode, Nat.add_assoc, whole]
  exact Nat.two_pow_add_eq_or_of_lt small count

/-- A header's word, bit by bit. -/
theorem testBit_encode (units : h.size % alignment = 0) (k : Nat) : h.encode.testBit k
    = if k = 0 then h.allocated else if k = 1 then h.prevAllocated else h.size.testBit k := by
  rw [encode_eq_or units, Nat.testBit_or, testBit_flags]
  split
  next first => rw [first, testBit_of_units units (by decide), Bool.false_or]
  next =>
    split
    next second => rw [second, testBit_of_units units (by decide), Bool.false_or]
    next => rw [Bool.or_false]

/-- A mark is one bit of a header's word. -/
theorem testBit_mark (units : h.size % alignment = 0) (prevAllocated : Bool) (k : Nat) :
    ({ h with prevAllocated } : Header).encode.testBit k
      = if k = 1 then prevAllocated else h.encode.testBit k := by
  rw [testBit_encode (h := { h with prevAllocated }) units, testBit_encode units]
  by_cases first : k = 0
  · subst first
    rfl
  · rw [if_neg first, if_neg first]
    split <;> rfl

/-- The word of a header, put together as the flags are set. -/
def toWord (h : Header) : UInt64 :=
  let word := UInt64.ofNat h.size
  let word := if h.allocated then word ||| 1 else word
  if h.prevAllocated then word ||| 2 else word

/-- The header of a word, taken apart by masks. -/
def ofWord (w : UInt64) : Header := ⟨(w &&& ~~~15).toNat, w &&& 1 != 0, w &&& 2 != 0⟩

/-- Setting flags is what adding them is. -/
theorem toNat_toWord (units : h.size % alignment = 0) (small : h.size < wordBound) :
    h.toWord.toNat = h.encode := by
  have whole : (UInt64.ofNat h.size).toNat = h.size := UInt64.toNat_ofNat_of_lt' small
  rw [encode_eq_or units]
  unfold toWord flags
  cases h.allocated <;> cases h.prevAllocated <;> simp [whole, Nat.or_assoc]

/-- Masks find what divisions find. -/
theorem ofWord_eq (w : UInt64) : ofWord w = decode w.toNat := by
  unfold ofWord decode
  rw [Word.toNat_mask, Word.and_bit_ne_zero w 1 (k := 0) rfl, Word.and_bit_ne_zero w 2 (k := 1) rfl,
    Nat.testBit_eq_decide_div_mod_eq, Nat.testBit_eq_decide_div_mod_eq]
  simp [beq_eq_decide]

/-- A mask tests the bits that no header uses. -/
theorem and_reserved_eq_zero_iff (w : UInt64) : w &&& 12 = 0 ↔ reserved w.toNat = false := by
  have high : (w.toNat &&& 12) / 4 = w.toNat / 4 % 4 := by
    have shifted : (w.toNat &&& 12) >>> 2 = w.toNat >>> 2 &&& (2 ^ 2 - 1) :=
      Nat.shiftRight_and_distrib
    rwa [Nat.and_two_pow_sub_one_eq_mod, Nat.shiftRight_eq_div_pow, Nat.shiftRight_eq_div_pow]
      at shifted
  have low : (w.toNat &&& 12) % 4 = 0 := by
    have cut : (w.toNat &&& 12) % 2 ^ 2 = w.toNat % 2 ^ 2 &&& 0 := Nat.and_mod_two_pow
    rwa [Nat.and_zero] at cut
  rw [← UInt64.toNat_inj, UInt64.toNat_and, reserved, bne_eq_false_iff_eq, ← high]
  show w.toNat &&& 12 = 0 ↔ _
  omega

end Header

/-! ## Memory bit by bit -/

namespace Memory

variable {hardened : Bool} {m m' : Memory}

/-- A bit of a memory, counted from the least significant one of the first byte. -/
def bit (m : Memory) (n : Nat) : Bool := (m.byte (n / 8)).toNat.testBit (n % 8)

/-- The bits of a number are those of its bytes. -/
theorem testBit_littleEndian (m : Memory) (i count k : Nat) :
    (m.littleEndian i count).testBit k = (decide (k < 8 * count) && m.bit (8 * i + k)) := by
  induction count generalizing i k with
  | zero => simp [littleEndian]
  | succ count ih =>
    have split : m.littleEndian i (count + 1)
        = 2 ^ 8 * m.littleEndian (i + 1) count + (m.byte i).toNat := Nat.add_comm ..
    rw [split, Nat.testBit_two_pow_mul_add _ (m.byte i).toNat_lt]
    by_cases first : k < 8
    · have within : k < 8 * (count + 1) := by omega
      have byte : (8 * i + k) / 8 = i := by omega
      have place : (8 * i + k) % 8 = k := by omega
      rw [if_pos first, decide_eq_true within, Bool.true_and, bit, byte, place]
    · have place : 8 * (i + 1) + (k - 8) = 8 * i + k := by omega
      have within : k - 8 < 8 * count ↔ k < 8 * (count + 1) := by omega
      rw [if_neg first, ih, place, decide_eq_decide.mpr within]

/-- The bits of a word. -/
theorem testBit_word (m : Memory) (i : Nat) {k : Nat} (within : k < 64) :
    (m.word i).testBit k = m.bit (8 * i + k) := by
  rw [word, testBit_littleEndian, decide_eq_true (show k < 8 * wordSize from within), Bool.true_and]

/-- Bits outside are as they were. -/
theorem EqOff.bit {P : Nat → Prop} (h : m.EqOff m' P) {n : Nat} (off : ¬ P (n / 8)) :
    m'.bit n = m.bit n := by
  unfold Memory.bit
  rw [h.byte _ off]

/-- **To record whether the block before is allocated is to set one bit,** if the header's word has
no others than a header's. -/
theorem bit_putPrevAllocated (hardened : Bool) {block : Nat} (prevAllocated : Bool)
    (inside : block + wordSize ≤ m.size) (clear : Header.reserved (m.word block) = false) :
    ∃ m', m.putPrevAllocated hardened block prevAllocated = .ok m' ∧ m'.size = m.size ∧
      ∀ n, m'.bit n = if n = 8 * block + 1 then prevAllocated else m.bit n := by
  have old : (Header.decode (m.word block)).encode = m.word block := Header.encode_decode clear
  have units : (Header.decode (m.word block)).size % alignment = 0 := Header.size_decode_mod _
  have small : (Header.decode (m.word block)).size < wordBound :=
    Nat.lt_of_le_of_lt (Nat.div_mul_le_self ..) (m.word_lt block)
  obtain ⟨m', put, word, frame⟩ := putHeader_ok hardened m block
    { Header.decode (m.word block) with prevAllocated } inside units small
  refine ⟨m', ?_, frame.size, ?_⟩
  · rw [putPrevAllocated, header_of_le inside, ok_bind, put]
  · intro n
    by_cases here : Span block (block + wordSize) (n / 8)
    · obtain ⟨k, within, rfl⟩ : ∃ k < 64, n = 8 * block + k := by
        simp only [Span, wordSize] at here
        exact ⟨n - 8 * block, by omega, by omega⟩
      rw [← testBit_word m' block within, word, Header.testBit_mark units, old,
        testBit_word m block within]
      simp only [Nat.add_left_cancel_iff]
    · have other : n ≠ 8 * block + 1 := by
        simp only [Span, wordSize] at here
        omega
      rw [frame.bit here, if_neg other]

end Memory

/-! ## Free blocks, from both ends -/

/-- What it comes to that a range of bytes is made a free block. -/
structure MadeFree (hardened : Bool) (m m' : Memory) (block size : Nat) (prevAllocated : Bool) :
    Prop where
  /-- Nothing outside is written to. -/
  frame : m.EqOff m' (Span block (block + size))
  /-- Its header says how large it is, and what is before it. -/
  header : m'.header block = .ok (.free size prevAllocated)
  /-- It is found from the block behind, whatever has become of the bytes outside, as long as that
  block says that there is a free one before it. -/
  found : ∀ m'' own, m'.EqOff m'' (fun j => ¬ Span block (block + size) j) →
    m''.header (block + size) = .ok own → own.prevAllocated = false →
    m''.blockBefore hardened (block + size) = .ok block

/-- **A free block is found from both ends.** -/
theorem writeFree_madeFree {hardened : Bool} {m : Memory} {block size : Nat} (prevAllocated : Bool)
    (units : size % alignment = 0) (room : minBlockSize ≤ size) (inside : block + size ≤ m.size)
    (bounded : m.size < wordBound) (aligned : hardened = true → block % alignment = firstBlock) :
    ∃ m', m.writeFree hardened block size prevAllocated = .ok m' ∧
      MadeFree hardened m m' block size prevAllocated := by
  obtain ⟨m', written, vacant, frame, -⟩ := writeFree_ok (e := ⟨block, size, false⟩)
    (fun _ (hard : hardened = true) => hard) prevAllocated rfl ⟨room, units⟩ inside bounded aligned
  have inside' : block + size ≤ m'.size := by rwa [frame.size]
  refine ⟨m', written, frame, vacant.tagged.header_eq ⟨room, units⟩ inside', ?_⟩
  intro m'' own later header mark
  have tagged : (⟨block, size, false⟩ : Extent).Tagged m'' prevAllocated := by
    apply vacant.tagged.congr
    · exact .inl (Nat.le_trans (by decide) room)
    · intro j hj
      apply later.byte j
      simp only [Extent.TagByte, Extent.stop, wordSize, minBlockSize] at hj room ⊢
      omega
  exact blockBefore_ok (l := ⟨block, size, false⟩) rfl ⟨room, units⟩ tagged (by rwa [later.size])
    header mark

/-- A hardened heap makes free blocks only where blocks start. -/
theorem aligned_of_writeFree {m m' : Memory} {block size : Nat} {prevAllocated : Bool}
    (written : m.writeFree true block size prevAllocated = .ok m') :
    block % alignment = firstBlock := by
  simp only [writeFree, if_true, bind_eq_ok_iff] at written
  obtain ⟨-, -, m₁, -, footer, -, m₂, -, poisons⟩ := written
  by_contra misaligned
  have refused : requireAligned true block = .error .violated := by
    have off : (payloadOf block % alignment == 0) = false := by
      simp only [payloadOf, wordSize, alignment, firstBlock, beq_eq_false_iff_ne] at misaligned ⊢
      omega
    rw [requireAligned, off]
    rfl
  rw [writePoison, refused] at poisons
  cases poisons

/-- **Boundary tags lose nothing.**  A header is read back from its word, and a word with clear
reserved bits is the word of the header that it is read as, whether by divisions or by masks.  A
range of bytes that is made a free block has the header that was asked for, is found from behind
through its footer, and no byte outside is written to; a hardened heap makes one only where a block
can start.  To record whether the block before is allocated is to set one bit of all that the memory
has. -/
theorem boundary_tags_lossless :
    (∀ h : Header, h.size % alignment = 0 → h.size < wordBound →
      Header.decode h.encode = h ∧ h.toWord.toNat = h.encode) ∧
    (∀ w : UInt64, Header.ofWord w = Header.decode w.toNat ∧
      (w &&& 12 = 0 → (Header.decode w.toNat).encode = w.toNat)) ∧
    (∀ hardened (m : Memory) block size prevAllocated, size % alignment = 0 → minBlockSize ≤ size →
      block + size ≤ m.size → m.size < wordBound →
      ((∃ m', m.writeFree hardened block size prevAllocated = .ok m' ∧
        MadeFree hardened m m' block size prevAllocated) ↔
        (hardened = true → block % alignment = firstBlock))) ∧
    ∀ hardened (m : Memory) block prevAllocated, block + wordSize ≤ m.size →
      Header.reserved (m.word block) = false →
      ∃ m', m.putPrevAllocated hardened block prevAllocated = .ok m' ∧ m'.size = m.size ∧
        ∀ n, m'.bit n = if n = 8 * block + 1 then prevAllocated else m.bit n := by
  refine ⟨?_, ?_, ?_, ?_⟩
  · intro h units small
    exact ⟨Header.decode_encode units, Header.toNat_toWord units small⟩
  · intro w
    refine ⟨Header.ofWord_eq w, fun clear => ?_⟩
    exact Header.encode_decode ((Header.and_reserved_eq_zero_iff w).mp clear)
  · intro hardened m block size prevAllocated units room inside bounded
    refine ⟨?_, writeFree_madeFree prevAllocated units room inside bounded⟩
    rintro ⟨m', written, -⟩ rfl
    exact aligned_of_writeFree written
  · intro hardened m block prevAllocated inside clear
    exact bit_putPrevAllocated hardened prevAllocated inside clear

/-- In a memory of zeros a block is made and found from behind, and a mark is set. -/
theorem boundary_tags_lossless_of_zeros :
    Header.decode (Header.taken 48 true).encode = .taken 48 true ∧
    (Header.decode (50 : UInt64).toNat).encode = 50 ∧
    (∃ m', (Memory.empty.extend 64).writeFree true 8 32 true = .ok m' ∧
      m'.header 8 = .ok (.free 32 true) ∧ m'.blockBefore true 40 = .ok 8) ∧
    ∃ m', (Memory.empty.extend 64).putPrevAllocated true 40 true = .ok m' ∧ m'.bit 321 = true := by
  obtain ⟨headers, words, blocks, marks⟩ := boundary_tags_lossless
  refine ⟨(headers (.taken 48 true) rfl (by decide)).1, (words 50).2 (by decide), ?_, ?_⟩
  · obtain ⟨m', written, made⟩ := (blocks true (Memory.empty.extend 64) 8 32 true (by decide)
      (by decide) (by decide) (by decide)).mpr fun _ => rfl
    refine ⟨m', written, made.header, made.found m' ⟨0, false, false⟩ (.refl ..) ?_ rfl⟩
    rw [made.frame.header fun j hj _ => by simp only [Span]; omega]
    rfl
  · obtain ⟨m', put, -, bits⟩ := marks true (Memory.empty.extend 64) 40 true (by decide) (by decide)
    exact ⟨m', put, (bits 321).trans (if_pos rfl)⟩

end TaggedHeap
