import Mathlib.Data.Nat.Bitwise
import TaggedHeap.Block.Size

/-!
# Operations on words

What operations on the bits of a word are as operations on numbers: masks that clear bits or test
one, and the zeros that lead.
-/

namespace TaggedHeap.Word

/-- Words are compared as numbers are. -/
theorem toNat_max (a b : UInt64) : (max a b).toNat = max a.toNat b.toNat := by
  rw [Nat.max_def]
  show (if a ≤ b then b else a).toNat = _
  rw [apply_ite UInt64.toNat]
  exact if_congr UInt64.le_iff_toNat_le rfl rfl

/-- To clear the last four bits of a word is to leave whole units. -/
theorem toNat_mask (w : UInt64) : (w &&& ~~~15).toNat = w.toNat / alignment * alignment := by
  have mask : (~~~15 : UInt64).toNat = (2 ^ 60 - 1) * 2 ^ 4 := rfl
  have units : w.toNat / alignment * alignment = w.toNat / 2 ^ 4 * 2 ^ 4 := rfl
  rw [UInt64.toNat_and, mask, units]
  apply Nat.eq_of_testBit_eq
  intro k
  rw [Nat.testBit_and, Nat.testBit_mul_two_pow, Nat.testBit_mul_two_pow,
    Nat.testBit_two_pow_sub_one, Nat.testBit_div_two_pow]
  by_cases low : k < 4
  · simp [Nat.not_le.mpr low]
  rw [Nat.sub_add_cancel (Nat.not_lt.mp low)]
  by_cases high : k < 64
  · have here : k - 4 < 60 := by omega
    rw [decide_eq_true here, Bool.and_true, Bool.and_comm]
  · have past : w.toNat.testBit k = false :=
      Nat.testBit_lt_two_pow (Nat.lt_of_lt_of_le w.toNat_lt
        (Nat.pow_le_pow_right Nat.two_pos (Nat.not_lt.mp high)))
    rw [past, Bool.and_false, Bool.false_and]

/-- A mask of one bit tests it. -/
theorem and_bit_ne_zero (w bit : UInt64) {k : Nat} (power : bit.toNat = 2 ^ k) :
    (w &&& bit != 0) = w.toNat.testBit k := by
  rw [Bool.eq_iff_iff, bne_iff_ne, ne_eq, ← UInt64.toNat_inj, UInt64.toNat_and, power,
    Nat.and_two_pow]
  cases w.toNat.testBit k <;> simp

/-- A word without the zeros that lead is as long as its logarithm says. -/
theorem sub_clz_eq {w : BitVec 64} (ne : w ≠ 0) : 64 - w.clz.toNat = Nat.log2 w.toNat + 1 := by
  have leading : w.clz.toNat < 64 := BitVec.lt_def.mp (BitVec.clz_lt_iff_ne_zero.mpr ne)
  have log : Nat.log2 w.toNat = 63 - w.clz.toNat := by
    have next : 63 - w.clz.toNat + 1 = 64 - w.clz.toNat := by omega
    rw [Nat.log2_eq_iff (BitVec.toNat_ne.mp ne), next]
    exact ⟨BitVec.two_pow_sub_clz_le_toNat_of_ne_zero (by decide) ne,
      BitVec.toNat_lt_two_pow_sub_clz⟩
  rw [log]
  omega

end TaggedHeap.Word
