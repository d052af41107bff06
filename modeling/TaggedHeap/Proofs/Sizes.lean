import Mathlib.Order.Bounds.Basic
import Mathlib.Order.Fin.Basic
import TaggedHeap.Block.SizeClass
import TaggedHeap.Proofs.Access
import TaggedHeap.Proofs.Words

/-!
# Sizes and their classes

A request for some bytes takes a block of whole units, and blocks are sorted by their sizes into
classes.  Both are computed from bits: units by clearing the last four of them, classes by a
logarithm.  What comes out is said here without bits.

* Rounding up finds the least of `UnitsFrom n`, the numbers of whole units that are enough
  (`wholeUnits_eq_ok_iff`), and is refused where that is no word (`wholeUnits_eq_error_iff`).  A
  block's size is found by rounding up once (`blockSizeFor_eq`).
* Where a size stands among the classes is a comparison with their bounds (`SizeClass.of_le_iff`).
* `Word` computes both by operations on words, with leading zeros for the logarithm, and agrees.

`sizes_exact` puts these together.
-/

namespace TaggedHeap

/-- The most bytes that a block can have room for. -/
def largestRequest : Nat := wordBound - alignment - wordSize

/-- The most bytes by which a heap can be told to grow at least, so that whole units of them are
still a word. -/
def largestChunk : Nat := wordBound - alignment

/-- The numbers of whole units that are no fewer bytes than some. -/
def UnitsFrom (n : Nat) : Set Nat := {units | alignment ∣ units ∧ n ≤ units}

/-- The least of them. -/
def leastUnits (n : Nat) : Nat := (n + (alignment - 1)) / alignment * alignment

/-! ## Rounding up -/

section Units

variable {n n' size units units' : Nat}

/-- Whole units are no fewer than the least ones if they are enough. -/
theorem leastUnits_le_iff (whole : alignment ∣ units) : leastUnits n ≤ units ↔ n ≤ units := by
  obtain ⟨count, rfl⟩ := whole
  unfold leastUnits
  simp only [alignment]
  omega

/-- The least whole units are enough, and no fewer are. -/
theorem isLeast_leastUnits (n : Nat) : IsLeast (UnitsFrom n) (leastUnits n) := by
  have whole : alignment ∣ leastUnits n := Nat.dvd_mul_left ..
  refine ⟨⟨whole, (leastUnits_le_iff whole).mp (Nat.le_refl _)⟩, ?_⟩
  rintro units ⟨whole, enough⟩
  exact (leastUnits_le_iff whole).mpr enough

/-- They are a word as long as no more than the largest chunk is asked for. -/
theorem leastUnits_lt_iff : leastUnits n < wordBound ↔ n ≤ largestChunk := by
  unfold leastUnits largestChunk
  simp only [alignment, wordBound]
  omega

/-- To round up is to take the least whole units, if these are a word. -/
theorem wholeUnits_eq (n : Nat) : wholeUnits n
    = if leastUnits n < wordBound then .ok (leastUnits n) else .error .sizeOverflow := by
  have fits : n + (alignment - 1) < wordBound ↔ leastUnits n < wordBound := by
    rw [leastUnits_lt_iff]
    unfold largestChunk
    simp only [alignment, wordBound]
    omega
  exact if_congr fits rfl rfl

/-- **What rounding up finds is the least there is,** and a word. -/
theorem wholeUnits_eq_ok_iff :
    wholeUnits n = .ok units ↔ IsLeast (UnitsFrom n) units ∧ units < wordBound := by
  rw [wholeUnits_eq]
  constructor
  · intro found
    split at found
    next word =>
      cases found
      exact ⟨isLeast_leastUnits n, word⟩
    next => cases found
  · rintro ⟨least, word⟩
    obtain rfl := least.unique (isLeast_leastUnits n)
    exact if_pos word

/-- **Rounding up is refused past the last unit,** and only there. -/
theorem wholeUnits_eq_error_iff :
    wholeUnits n = .error .sizeOverflow ↔ largestChunk < n := by
  rw [wholeUnits_eq]
  split
  next word => exact iff_of_false nofun (Nat.not_lt.mpr (leastUnits_lt_iff.mp word))
  next large => exact iff_of_true rfl (Nat.not_le.mp (mt leastUnits_lt_iff.mpr large))

/-- A number is rounded up to whole units, unless no word can hold them. -/
theorem wholeUnits_cases (n : Nat) :
    (∃ units, wholeUnits n = .ok units ∧ n ≤ units ∧ units % alignment = 0) ∨
      wholeUnits n = .error .sizeOverflow := by
  obtain ⟨whole, enough⟩ := (isLeast_leastUnits n).1
  rw [wholeUnits_eq]
  split
  · exact .inl ⟨_, rfl, enough, Nat.mod_eq_zero_of_dvd whole⟩
  · exact .inr rfl

/-- What is no more than the largest chunk can be rounded up to whole units, and these are not more
either. -/
theorem wholeUnits_of_le (h : n ≤ largestChunk) :
    ∃ units, wholeUnits n = .ok units ∧ units ≤ largestChunk := by
  have whole : alignment ∣ largestChunk := ⟨2 ^ 60 - 1, rfl⟩
  refine ⟨leastUnits n, ?_, (leastUnits_le_iff whole).mpr h⟩
  rw [wholeUnits_eq, if_pos (leastUnits_lt_iff.mpr h)]

/-- What is more than the largest chunk cannot. -/
theorem wholeUnits_of_gt (h : largestChunk < n) : wholeUnits n = .error .sizeOverflow :=
  wholeUnits_eq_error_iff.mpr h

/-- Whole units are enough for what they are made of. -/
theorem le_of_wholeUnits (h : wholeUnits n = .ok units) : n ≤ units :=
  (wholeUnits_eq_ok_iff.mp h).1.1.2

/-- They are less than one unit more. -/
theorem lt_of_wholeUnits (h : wholeUnits n = .ok units) : units < n + alignment := by
  obtain ⟨least, -⟩ := wholeUnits_eq_ok_iff.mp h
  obtain rfl := least.unique (isLeast_leastUnits n)
  unfold leastUnits
  simp only [alignment]
  omega

/-- What is whole units already is not rounded. -/
theorem wholeUnits_of_whole (whole : n % alignment = 0) (word : n < wordBound) :
    wholeUnits n = .ok n := by
  refine wholeUnits_eq_ok_iff.mpr ⟨⟨⟨Nat.dvd_of_mod_eq_zero whole, Nat.le_refl n⟩, ?_⟩, word⟩
  exact fun _ more => more.2

/-- More bytes are no fewer units. -/
theorem wholeUnits_mono (h : wholeUnits n = .ok units) (h' : wholeUnits n' = .ok units')
    (le : n ≤ n') : units ≤ units' := by
  have least : IsLeast (UnitsFrom n) units := (wholeUnits_eq_ok_iff.mp h).1
  have least' : IsLeast (UnitsFrom n') units' := (wholeUnits_eq_ok_iff.mp h').1
  apply least'.mono least
  rintro _ ⟨whole, enough⟩
  exact ⟨whole, Nat.le_trans le enough⟩

/-! ## Sizes of blocks -/

/-- The size of a block is found by rounding up what it has to have room for, header included, and
no less than a smallest block. -/
theorem blockSizeFor_eq (n : Nat) :
    blockSizeFor n = wholeUnits (max (n + wordSize) minBlockSize) := by
  have larger : leastUnits (max (n + wordSize) minBlockSize)
      = max (leastUnits (n + wordSize)) minBlockSize := by
    unfold leastUnits
    simp only [alignment, minBlockSize]
    omega
  rw [wholeUnits_eq, larger, blockSizeFor, wholeUnits_eq]
  by_cases word : leastUnits (n + wordSize) < wordBound
  · have sum : n + wordSize < wordBound := Nat.lt_of_le_of_lt (isLeast_leastUnits _).1.2 word
    have both : max (leastUnits (n + wordSize)) minBlockSize < wordBound :=
      Nat.max_lt.mpr ⟨word, by decide⟩
    rw [if_pos sum, if_pos word, if_pos both]
    rfl
  · -- the sum may be no word, or the units that it is rounded up to; the answer is the same
    have neither : ¬ max (leastUnits (n + wordSize)) minBlockSize < wordBound := fun both =>
      word (Nat.max_lt.mp both).1
    rw [if_neg word, if_neg neither]
    split <;> rfl

/-- What a block has to have room for is no more than the largest chunk for no more than the largest
request. -/
theorem max_le_largestChunk_iff :
    max (n + wordSize) minBlockSize ≤ largestChunk ↔ n ≤ largestRequest := by
  unfold largestChunk largestRequest
  simp only [alignment, wordSize, minBlockSize, wordBound]
  omega

/-- A request is turned into a size that a block can have and that has room for it, unless no word
can hold that size. -/
theorem blockSizeFor_cases (n : Nat) :
    (∃ size, blockSizeFor n = .ok size ∧ n + wordSize ≤ size ∧ minBlockSize ≤ size ∧
      size % alignment = 0) ∨ blockSizeFor n = .error .sizeOverflow := by
  rw [blockSizeFor_eq]
  apply (wholeUnits_cases _).imp_left
  rintro ⟨size, found, enough, units⟩
  obtain ⟨room, large⟩ := Nat.max_le.mp enough
  exact ⟨size, found, room, large, units⟩

/-- The size of a block for some bytes has room for them, and is one that a block can have. -/
theorem of_blockSizeFor (h : blockSizeFor n = .ok size) :
    n + wordSize ≤ size ∧ minBlockSize ≤ size ∧ size % alignment = 0 := by
  rw [blockSizeFor_eq, wholeUnits_eq_ok_iff] at h
  obtain ⟨⟨⟨whole, enough⟩, -⟩, -⟩ := h
  obtain ⟨room, large⟩ := Nat.max_le.mp enough
  exact ⟨room, large, Nat.mod_eq_zero_of_dvd whole⟩

/-- What is no more than the largest request has a size. -/
theorem blockSizeFor_of_le (h : n ≤ largestRequest) :
    ∃ size, blockSizeFor n = .ok size ∧ size ≤ largestChunk := by
  rw [blockSizeFor_eq]
  exact wholeUnits_of_le (max_le_largestChunk_iff.mpr h)

/-- What is more has none. -/
theorem blockSizeFor_of_gt (h : largestRequest < n) : blockSizeFor n = .error .sizeOverflow := by
  rw [blockSizeFor_eq, wholeUnits_eq_error_iff, ← Nat.not_le, max_le_largestChunk_iff]
  exact Nat.not_le.mpr h

example : blockSizeFor (2 ^ 64 - 24) = .ok (2 ^ 64 - 16) := by decide

example : blockSizeFor (2 ^ 64 - 23) = .error .sizeOverflow := by decide

/-- The size for some bytes is a word. -/
theorem le_of_blockSizeFor (h : blockSizeFor n = .ok size) : n ≤ largestRequest := by
  by_contra large
  rw [blockSizeFor_of_gt (Nat.not_le.mp large)] at h
  cases h

end Units

/-! ## Classes -/

namespace SizeClass

variable {size size' : Nat} {c d : SizeClass}

/-- **A size is in a class, or in one before it, if it does not exceed the bound of that class.** -/
theorem of_le_iff : of size ≤ c ↔ size ≤ 32 * 2 ^ c.val ∨ c = 11 := by
  by_cases small : size ≤ minBlockSize
  · have bound : 32 ≤ 32 * 2 ^ c.val := Nat.le_mul_of_pos_right 32 (Nat.two_pow_pos _)
    have first : of size = 0 := if_pos small
    rw [first]
    exact iff_of_true (Fin.zero_le c) (.inl (Nat.le_trans small bound))
  · have large : 32 < size := Nat.not_le.mp small
    have log : Nat.log2 (size - 1) < c.val + 5 ↔ size ≤ 32 * 2 ^ c.val := by
      rw [Nat.log2_lt (by omega), Nat.pow_add, Nat.mul_comm]
      omega
    have last : c = 11 ↔ 11 ≤ c.val := by
      rw [Fin.ext_iff]
      have bounded : c.val < 12 := c.isLt
      show c.val = 11 ↔ _
      omega
    rw [← log, last, of, if_neg small, Fin.le_def]
    show min _ _ ≤ c.val ↔ _
    omega

/-- A larger size is in no earlier class. -/
theorem of_mono (h : size ≤ size') : of size ≤ of size' := by
  have own : size' ≤ 32 * 2 ^ (of size').val ∨ of size' = 11 := of_le_iff.mp (Fin.le_refl _)
  exact of_le_iff.mpr (own.imp_left (Nat.le_trans h))

/-- **The class of a size is the first one whose bound it does not exceed,** or the last one if it
exceeds all bounds. -/
theorem isLeast_of (size : Nat) :
    IsLeast {c : SizeClass | size ≤ 32 * 2 ^ c.val} (of size) ∨
      (∀ c : SizeClass, 32 * 2 ^ c.val < size) ∧ of size = 11 := by
  by_cases fits : size ≤ 32 * 2 ^ (of size).val
  · exact .inl ⟨fits, fun c within => of_le_iff.mpr (.inl within)⟩
  · have last : of size = 11 := (of_le_iff.mp (Fin.le_refl _)).resolve_left fits
    refine .inr ⟨fun c => Nat.lt_of_le_of_lt ?_ (Nat.not_le.mp fits), last⟩
    rw [last]
    exact Nat.mul_le_mul_left 32 (Nat.pow_le_pow_right Nat.two_pos (Fin.le_last c))

/-- The classes from one on are those that are not before it. -/
theorem mem_upFrom : d ∈ c.upFrom ↔ c ≤ d := by
  unfold upFrom all
  rw [List.mem_drop_iff_getElem]
  simp only [List.getElem_finRange, List.length_finRange]
  constructor
  · rintro ⟨i, hi, rfl⟩
    exact Fin.mk_le_mk.mpr (Nat.le_add_right ..)
  · intro h
    have hd := d.isLt
    have h' : c.val ≤ d.val := h
    refine ⟨d.val - c.val, by omega, Fin.ext ?_⟩
    show c.val + (d.val - c.val) = d.val
    omega

end SizeClass

/-! ## By words alone -/

namespace Word

/-- The sum of two words, if it is one. -/
def sum (a b : UInt64) : Except Refusal UInt64 :=
  if a.toNat + b.toNat < wordBound then .ok (a + b) else .error .sizeOverflow

/-- Whole units by a mask: the last four bits of a sum are cleared. -/
def wholeUnits (n : UInt64) : Except Refusal UInt64 := do
  let past ← sum n 15
  return past &&& ~~~15

/-- The size of a block, by two sums that have to be words and a mask. -/
def blockSizeFor (n : UInt64) : Except Refusal UInt64 := do
  let large ← sum n 8
  let size ← wholeUnits large
  return max size 32

/-- The class of a size, by the zeros that lead in a word. -/
def sizeClass (size : UInt64) : Nat :=
  if size ≤ 32 then 0 else min (64 - (size - 1).toBitVec.clz.toNat - 5) 11

section Sum

variable {a b : UInt64}

/-- A sum that is a word is taken as one of numbers. -/
theorem sum_of_lt (word : a.toNat + b.toNat < wordBound) :
    ∃ s, sum a b = .ok s ∧ s.toNat = a.toNat + b.toNat := by
  refine ⟨a + b, if_pos word, ?_⟩
  rw [UInt64.toNat_add]
  exact Nat.mod_eq_of_lt word

/-- A sum that is none is refused. -/
theorem sum_of_not_lt (large : ¬ a.toNat + b.toNat < wordBound) : sum a b = .error .sizeOverflow :=
  if_neg large

end Sum

/-- Rounding up is by words what it is by numbers. -/
theorem toNat_wholeUnits (n : UInt64) :
    (wholeUnits n).map UInt64.toNat = TaggedHeap.wholeUnits n.toNat := by
  unfold wholeUnits TaggedHeap.wholeUnits
  split
  next word =>
    obtain ⟨s, sum, same⟩ := sum_of_lt (a := n) (b := 15) word
    rw [sum, ok_bind]
    show Except.ok (s &&& ~~~15).toNat = _
    rw [toNat_mask, same]
    rfl
  next large =>
    rw [sum_of_not_lt (a := n) (b := 15) large]
    rfl

/-- Sizes of blocks are by words what they are by numbers. -/
theorem toNat_blockSizeFor (n : UInt64) :
    (blockSizeFor n).map UInt64.toNat = TaggedHeap.blockSizeFor n.toNat := by
  unfold blockSizeFor TaggedHeap.blockSizeFor
  split
  next word =>
    obtain ⟨s, sum, same⟩ := sum_of_lt (a := n) (b := 8) word
    have same : s.toNat = n.toNat + wordSize := same
    rw [sum, ok_bind, ← same, ← toNat_wholeUnits]
    cases wholeUnits s with
    | error refusal => rfl
    | ok size => exact congrArg Except.ok (toNat_max size 32)
  next large =>
    rw [sum_of_not_lt (a := n) (b := 8) large]
    rfl

/-- Leading zeros find the class that a logarithm finds. -/
theorem sizeClass_eq (size : UInt64) : sizeClass size = (SizeClass.of size.toNat).val := by
  unfold sizeClass SizeClass.of
  by_cases small : size.toNat ≤ 32
  · rw [if_pos small, if_pos (UInt64.le_iff_toNat_le.mpr small)]
    rfl
  · have pos : 1 ≤ size.toNat := by omega
    have before : (size - 1).toBitVec.toNat = size.toNat - 1 :=
      UInt64.toNat_sub_of_le size 1 (UInt64.le_iff_toNat_le.mpr pos)
    have ne : (size - 1).toBitVec ≠ 0 := by
      rw [BitVec.toNat_ne, before]
      show size.toNat - 1 ≠ 0
      omega
    rw [if_neg small, if_neg fun le => small (UInt64.le_iff_toNat_le.mp le), sub_clz_eq ne, before]

end Word

/-! ## All sizes -/

/-- **Sizes and their classes are exact.**  The size of a block for some bytes is the least number
of whole units that has room for them and a header and is no less than a smallest block, and if that
is no word there is none.  The class of a size is the first one whose bound it does not exceed, or
the last one.  So no larger size is in an earlier class, and a search that starts at the class of a
request comes past every block that is large enough.  What words alone compute is no different. -/
theorem sizes_exact :
    (∀ n, ∃ size, IsLeast (UnitsFrom (max (n + wordSize) minBlockSize)) size ∧
      blockSizeFor n = (if size < wordBound then .ok size else .error .sizeOverflow) ∧
      (wordBound ≤ size ↔ 2 ^ 64 - 24 < n)) ∧
    (∀ size, IsLeast {c : SizeClass | size ≤ 32 * 2 ^ c.val} (SizeClass.of size) ∨
      (∀ c : SizeClass, 32 * 2 ^ c.val < size) ∧ SizeClass.of size = 11) ∧
    Monotone SizeClass.of ∧
    (∀ size block, size ≤ block → SizeClass.of block ∈ (SizeClass.of size).upFrom) ∧
    (∀ n : UInt64, (Word.blockSizeFor n).map UInt64.toNat = blockSizeFor n.toNat) ∧
    ∀ size : UInt64, Word.sizeClass size = (SizeClass.of size.toNat).val := by
  refine ⟨?_, SizeClass.isLeast_of, fun _ _ => SizeClass.of_mono, ?_, Word.toNat_blockSizeFor,
    Word.sizeClass_eq⟩
  · intro n
    refine ⟨_, isLeast_leastUnits _, ?_, ?_⟩
    · rw [blockSizeFor_eq, wholeUnits_eq]
    · rw [← Nat.not_lt, leastUnits_lt_iff, max_le_largestChunk_iff, Nat.not_le]
      rfl
  · intro size block large
    exact SizeClass.mem_upFrom.mpr (SizeClass.of_mono large)

/-- A block of nine units is in the class after that of a request for five, and is not missed. -/
theorem sizes_exact_of_units :
    SizeClass.of 80 = 2 ∧ SizeClass.of 144 = 3 ∧ 80 ≤ 144 ∧
      SizeClass.of 144 ∈ (SizeClass.of 80).upFrom :=
  ⟨by decide, by decide, by decide, sizes_exact.2.2.2.1 80 144 (by decide)⟩

end TaggedHeap
