import TaggedHeap.Memory

/-!
# Reading after writing

What every byte of a memory is after each kind of write, and what follows from it for words: a word
is read back as it was written, and a write leaves the words alone that it does not touch.

* `byte_putWord`, `byte_fill`, `byte_paste` and `byte_extend` are about bytes.
* `word_putWord` and `word_putWord_of_disjoint` are about words, and `word_congr` reduces any other
  question about a word to its bytes.
* `readWord_eq_ok_iff` and its like say when a guarded access succeeds, and with what.
-/

namespace TaggedHeap.Memory

/-! ## Words -/

@[simp] theorem size_putLittleEndian (m : Memory) (i count value : Nat) :
    (m.putLittleEndian i count value).size = m.size := by
  induction count generalizing m i value with
  | zero => rfl
  | succ count ih => rw [putLittleEndian, ih, size_setByte]

@[simp] theorem size_putWord (m : Memory) (i value : Nat) : (m.putWord i value).size = m.size :=
  size_putLittleEndian ..

/-- Bytes outside of a number's place are not touched. -/
theorem byte_putLittleEndian_of_disjoint {m : Memory} {i j count : Nat} (value : Nat)
    (h : j < i ∨ i + count ≤ j) : (m.putLittleEndian i count value).byte j = m.byte j := by
  induction count generalizing m i value with
  | zero => rfl
  | succ count ih =>
    rw [putLittleEndian, ih _ (by omega), byte_setByte, if_neg (by omega)]

/-- Two memories with the same bytes in a number's place hold the same number there. -/
theorem littleEndian_congr {m m' : Memory} {i count : Nat}
    (h : ∀ j, i ≤ j → j < i + count → m.byte j = m'.byte j) :
    m.littleEndian i count = m'.littleEndian i count := by
  induction count generalizing i with
  | zero => rfl
  | succ count ih =>
    rw [littleEndian, littleEndian, h i (by omega) (by omega),
      ih fun j hj hj' => h j (by omega) (by omega)]

/-- How many numbers some bytes can stand for. -/
def numberCount : (count : Nat) → Nat
  | 0 => 1
  | count + 1 => 256 * numberCount count

/-- A number that is written over existing bytes is read back, up to what they have room for. -/
theorem littleEndian_putLittleEndian {m : Memory} {i count : Nat} (value : Nat)
    (h : i + count ≤ m.size) :
    (m.putLittleEndian i count value).littleEndian i count = value % numberCount count := by
  induction count generalizing m i value with
  | zero => exact (Nat.mod_one value).symm
  | succ count ih =>
    rw [littleEndian, putLittleEndian, ih _ (by rw [size_setByte]; omega),
      byte_putLittleEndian_of_disjoint _ (by omega), byte_setByte, if_pos ⟨rfl, by omega⟩,
      UInt8.toNat_ofNat', numberCount, Nat.mod_mul]

theorem littleEndian_lt (m : Memory) (i count : Nat) :
    m.littleEndian i count < numberCount count := by
  induction count generalizing i with
  | zero => exact Nat.one_pos
  | succ count ih =>
    have first := (m.byte i).toNat_lt
    have rest := ih (i + 1)
    rw [littleEndian, numberCount]
    omega

theorem word_lt (m : Memory) (i : Nat) : m.word i < wordBound := littleEndian_lt m i wordSize

theorem word_congr {m m' : Memory} {i : Nat}
    (h : ∀ j, i ≤ j → j < i + wordSize → m.byte j = m'.byte j) : m.word i = m'.word i :=
  littleEndian_congr h

theorem byte_putWord_of_disjoint {m : Memory} {i j : Nat} (value : Nat)
    (h : j < i ∨ i + wordSize ≤ j) : (m.putWord i value).byte j = m.byte j :=
  byte_putLittleEndian_of_disjoint value h

theorem word_putWord {m : Memory} {i value : Nat} (h : i + wordSize ≤ m.size)
    (hv : value < wordBound) : (m.putWord i value).word i = value := by
  rw [word, putWord, littleEndian_putLittleEndian value h]
  exact Nat.mod_eq_of_lt hv

theorem word_putWord_of_disjoint {m : Memory} {i j : Nat} (value : Nat)
    (h : j + wordSize ≤ i ∨ i + wordSize ≤ j) : (m.putWord i value).word j = m.word j :=
  word_congr fun _ _ _ => byte_putWord_of_disjoint value (by omega)

/-! ## Ranges -/

@[simp] theorem size_fill (m : Memory) (i count : Nat) (b : UInt8) :
    (m.fill i b count).size = m.size := by
  induction count generalizing m i with
  | zero => rfl
  | succ count ih => rw [fill, ih, size_setByte]

theorem byte_fill {m : Memory} {i count : Nat} (b : UInt8) (h : i + count ≤ m.size) (j : Nat) :
    (m.fill i b count).byte j = if i ≤ j ∧ j < i + count then b else m.byte j := by
  induction count generalizing m i with
  | zero => rw [if_neg (by omega)]; rfl
  | succ count ih =>
    rw [fill, ih (by simpa using by omega), byte_setByte]
    by_cases hj : j = i
    · rw [if_neg (by omega), if_pos ⟨hj, by omega⟩, if_pos (by omega)]
    · by_cases hj' : i ≤ j ∧ j < i + (count + 1)
      · rw [if_pos (by omega), if_pos hj']
      · rw [if_neg (by omega), if_neg (by omega), if_neg hj']

theorem holds_iff {m : Memory} {i count : Nat} {b : UInt8} :
    m.holds i b count = true ↔ ∀ j, i ≤ j → j < i + count → m.byte j = b := by
  induction count generalizing i with
  | zero => exact ⟨fun _ j _ _ => by omega, fun _ => rfl⟩
  | succ count ih =>
    simp only [holds, Bool.and_eq_true, beq_iff_eq, ih]
    constructor
    · intro ⟨first, rest⟩ j hj hj'
      by_cases h : j = i
      · exact h ▸ first
      · exact rest j (by omega) (by omega)
    · intro h
      exact ⟨h i (by omega) (by omega), fun j hj hj' => h j (by omega) (by omega)⟩

/-- Where a slice lies inside the memory, its bytes are the memory's. -/
theorem size_slice {m : Memory} {i count : Nat} (h : i + count ≤ m.size) :
    (m.slice i count).size = count := by
  simp only [slice, ByteArray.size_extract]
  simp only [size] at h
  omega

theorem byte_slice {m : Memory} {i count j : Nat} (h : i + count ≤ m.size) (hj : j < count) :
    (Memory.mk (m.slice i count)).byte j = m.byte (i + j) := by
  have inside : j < (m.slice i count).size := by rw [size_slice h]; exact hj
  have inside' : i + j < m.bytes.size := by simp only [size] at h; omega
  simp only [byte, inside, inside', dif_pos]
  simp only [slice, ByteArray.getElem_extract]

/-- Pasting cuts the memory in two and puts the bytes between. -/
theorem bytes_paste (m : Memory) (i : Nat) (bytes : ByteArray) :
    (m.paste i bytes).bytes
      = m.bytes.extract 0 i ++ bytes ++ m.bytes.extract (i + bytes.size) m.bytes.size := by
  simp [paste, ByteArray.copySlice_eq_append]

theorem size_paste {m : Memory} {i : Nat} {bytes : ByteArray} (h : i + bytes.size ≤ m.size) :
    (m.paste i bytes).size = m.size := by
  simp only [size, bytes_paste, ByteArray.size_append, ByteArray.size_extract] at h ⊢
  omega

theorem byte_paste {m : Memory} {i : Nat} {bytes : ByteArray} (h : i + bytes.size ≤ m.size)
    (j : Nat) :
    (m.paste i bytes).byte j =
      if i ≤ j ∧ j < i + bytes.size then (Memory.mk bytes).byte (j - i) else m.byte j := by
  rcases Nat.lt_or_ge j m.size with inside | outside
  rotate_left
  · rw [byte_of_size_le (by rw [size_paste h]; exact outside), if_neg (by omega),
      byte_of_size_le outside]
  have first : (m.bytes.extract 0 i).size = i := by
    simp only [size] at h
    simp only [ByteArray.size_extract]
    omega
  have front : (m.bytes.extract 0 i ++ bytes).size = i + bytes.size := by
    rw [ByteArray.size_append, first]
  have inside' : j < (m.paste i bytes).bytes.size := by
    rw [← size, size_paste h]
    exact inside
  have whole : (m.paste i bytes).byte j = (m.paste i bytes).bytes[j] := by
    simp only [byte, inside', dif_pos]
  rw [whole]
  simp only [bytes_paste]
  by_cases before : j < i
  · rw [if_neg (by omega), ByteArray.getElem_append_left (by omega),
      ByteArray.getElem_append_left (by omega), ByteArray.getElem_extract]
    simp only [byte, Nat.zero_add, dif_pos (show j < m.bytes.size from inside)]
  · by_cases within : j < i + bytes.size
    · have bound : j - i < bytes.size := by omega
      rw [if_pos (by omega), ByteArray.getElem_append_left (by omega),
        ByteArray.getElem_append_right (by omega)]
      simp only [byte, first, dif_pos bound]
    · rw [if_neg (by omega), ByteArray.getElem_append_right (by omega),
        ByteArray.getElem_extract]
      have place : i + bytes.size + (j - (i + bytes.size)) = j := by omega
      simp only [byte, front, place, dif_pos (show j < m.bytes.size from inside)]

@[simp] theorem size_extend (m : Memory) (count : Nat) :
    (m.extend count).size = m.size + count := by
  induction count generalizing m with
  | zero => rfl
  | succ count ih =>
    rw [Memory.extend, ih]
    simp only [size, ByteArray.size_push]
    omega

theorem byte_push_zero (bytes : ByteArray) (j : Nat) :
    (Memory.mk (bytes.push 0)).byte j = (Memory.mk bytes).byte j := by
  by_cases inside : j < bytes.size
  · have inside' : j < (bytes.push 0).size := by rw [ByteArray.size_push]; omega
    simp only [byte, inside, inside', dif_pos, ByteArray.getElem_eq_getElem_data]
    exact Array.getElem_push_lt inside
  · rw [byte_of_size_le (show (Memory.mk bytes).size ≤ j from Nat.not_lt.mp inside)]
    by_cases last : j < (bytes.push 0).size
    · have here : j = bytes.data.size := by
        rw [ByteArray.size_push] at last
        rw [ByteArray.size_data]
        omega
      subst here
      simp only [byte, last, dif_pos, ByteArray.getElem_eq_getElem_data]
      exact Array.getElem_push_eq
    · exact byte_of_size_le (Nat.not_lt.mp last)

/-- What is appended is zero, just as what lies past the end. -/
@[simp] theorem byte_extend (m : Memory) (count j : Nat) : (m.extend count).byte j = m.byte j := by
  induction count generalizing m with
  | zero => rfl
  | succ count ih => rw [Memory.extend, ih, byte_push_zero]

/-! ## Guarded access -/

theorem inBounds_of_le {m : Memory} {i count : Nat} (h : i + count ≤ m.size) :
    m.inBounds i count = .ok () := by
  simp [inBounds, require, h]

theorem inBounds_of_lt {m : Memory} {i count : Nat} (h : m.size < i + count) :
    m.inBounds i count = .error .outOfBounds := by
  simp [inBounds, require, Nat.not_le.mpr h]

theorem readWord_eq_ok_iff {m : Memory} {i w : Nat} :
    m.readWord i = .ok w ↔ i + wordSize ≤ m.size ∧ m.word i = w := by
  by_cases h : i + wordSize ≤ m.size
  · simp only [readWord, inBounds_of_le h, h, true_and]
    simp [bind, Except.bind, pure, Except.pure]
  · simp only [readWord, inBounds_of_lt (Nat.not_le.mp h), h, false_and, iff_false]
    simp [bind, Except.bind]

theorem writeWord_eq_ok_iff {m m' : Memory} {i w : Nat} :
    m.writeWord i w = .ok m' ↔ i + wordSize ≤ m.size ∧ m.putWord i w = m' := by
  by_cases h : i + wordSize ≤ m.size
  · simp only [writeWord, inBounds_of_le h, h, true_and]
    simp [bind, Except.bind, pure, Except.pure]
  · simp only [writeWord, inBounds_of_lt (Nat.not_le.mp h), h, false_and, iff_false]
    simp [bind, Except.bind]

end TaggedHeap.Memory
