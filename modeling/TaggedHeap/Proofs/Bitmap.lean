import Mathlib.Algebra.GroupWithZero.Nat
import Mathlib.Data.Finset.Card
import Mathlib.Data.Finset.Image
import TaggedHeap.Proofs.Starts
import TaggedHeap.Proofs.Words

/-!
# The start set is a set

Blocks are put in the start set and taken out of it one by one, and an initialisation forgets them
all.  Whatever the order, and whether or not a block that comes is new and one that goes was there,
what the set then holds is what a finite set of places would hold.

The flags of a start set lie side by side, and sixty-four of them make a word.  A `Bitmap` is a
start set kept like that: a flag is a bit of a word, new words come when a bit behind the last one
is needed, and to forget all blocks is to clear all words.

* `Flagged flag members` says of either what it has to say: a place has its flag set exactly if it
  is a member.  One lemma for each change keeps it, `Flagged.insert`, `Flagged.remove` and
  `flagged_empty`.
* `bit_insert`, `bit_remove` and `bit_clear` are about bits what the lemmas about `StartSet` are
  about flags, so that the same lemmas serve.
* `Flagged.countP_range` counts the members by their flags, and `Bitmap.size_eq` the bits of all
  words.
-/

namespace TaggedHeap

open StartSet

/-- An offset at which a block can start. -/
abbrev Place : Type := { block : Nat // block % alignment = firstBlock }

/-! ## Flags of members -/

/-- Exactly the members have the flag of their unit set. -/
def Flagged (flag : Nat → Bool) (members : Finset Place) : Prop :=
  ∀ place : Place, flag (unit place) = true ↔ place ∈ members

section Flagged

variable {flag flag' : Nat → Bool} {members : Finset Place} {place other : Place} {u bound : Nat}

/-- No two places share a unit. -/
theorem unit_place_inj : unit place = unit other ↔ place = other :=
  (unit_inj place.2 other.2).trans Subtype.ext_iff.symm

/-- Every unit has a place. -/
theorem exists_unit_eq (u : Nat) : ∃ place : Place, unit place = u :=
  ⟨⟨u * alignment + firstBlock, by simp only [alignment, firstBlock]; omega⟩, by
    simp only [unit, alignment, firstBlock]; omega⟩

/-- Clear flags have no members. -/
theorem flagged_empty (clear : ∀ u, flag u = false) : Flagged flag ∅ := by
  intro place
  simp [clear]

/-- A place that is put in is a member, and the others are what they were. -/
theorem Flagged.insert (h : Flagged flag members) (place : Place)
    (set : ∀ u, flag' u = (u == unit place || flag u)) : Flagged flag' (insert place members) := by
  intro other
  rw [set, Bool.or_eq_true, beq_iff_eq, unit_place_inj, h other, Finset.mem_insert]

/-- A place that is taken out is none, and the others are what they were. -/
theorem Flagged.remove (h : Flagged flag members) (place : Place)
    (reset : ∀ u, flag' u = (u != unit place && flag u)) : Flagged flag' (members.erase place) := by
  intro other
  rw [reset, Bool.and_eq_true, bne_iff_ne, ne_eq, unit_place_inj, h other, Finset.mem_erase]

/-- **There are as many members as flags that are set.** -/
theorem Flagged.countP_range (h : Flagged flag members) (within : ∀ u, flag u = true → u < bound) :
    (List.range bound).countP flag = members.card := by
  have same : ((List.range bound).filter flag).toFinset
      = members.image fun place : Place => unit place := by
    ext u
    obtain ⟨place, rfl⟩ := exists_unit_eq u
    simp only [List.mem_toFinset, List.mem_filter, List.mem_range, Finset.mem_image, unit_place_inj,
      exists_eq_right, h place, and_iff_right_iff_imp]
    exact fun mem => within _ ((h place).mpr mem)
  rw [List.countP_eq_length_filter, ← List.toFinset_card_of_nodup (List.nodup_range.filter _), same,
    Finset.card_image_of_injective _ fun _ _ same => unit_place_inj.mp same]

end Flagged

/-! ## Start sets as bitmaps -/

/-- A start set whose flags are the bits of words. -/
structure Bitmap where
  /-- The words, each with the flags of sixty-four units. -/
  words : Array UInt64

namespace Bitmap

/-- No words. -/
def empty : Bitmap := ⟨#[]⟩

/-- The word that has the flag of a block. -/
def word (block : Nat) : Nat := unit block / 64

/-- The flag of a block in its word. -/
def mask (block : Nat) : UInt64 := 1 <<< UInt64.ofNat (unit block % 64)

/-- Whether a block is in the set. -/
def contains (bitmap : Bitmap) (block : Nat) : Bool :=
  match bitmap.words[word block]? with
  | some w => w &&& mask block != 0
  | none => false

/-- Adds a block, with as many words as it takes. -/
def insert (bitmap : Bitmap) (block : Nat) : Bitmap :=
  let words := bitmap.words ++ Array.replicate (word block + 1 - bitmap.words.size) 0
  ⟨words.modify (word block) (· ||| mask block)⟩

/-- Takes a block out. -/
def remove (bitmap : Bitmap) (block : Nat) : Bitmap :=
  ⟨bitmap.words.modify (word block) (· &&& ~~~ mask block)⟩

/-- Takes all blocks out, and keeps the words. -/
def clear (bitmap : Bitmap) : Bitmap := ⟨bitmap.words.map fun _ => 0⟩

/-- The number of blocks in the set: of bits that are set. -/
def size (bitmap : Bitmap) : Nat := (bitmap.words.toList.map fun w => w.toBitVec.cpop.toNat).sum

/-- The flag of a unit, clear past the last word. -/
def bit (bitmap : Bitmap) (u : Nat) : Bool :=
  (bitmap.words.getD (u / 64) 0).toBitVec.getLsbD (u % 64)

/-- A mask is a power of two. -/
theorem toBitVec_mask (block : Nat) :
    (mask block).toBitVec = BitVec.twoPow 64 (unit block % 64) := by
  rw [mask, UInt64.toBitVec_shiftLeft, BitVec.twoPow, BitVec.shiftLeft_eq']
  simp

/-- The bits of a mask. -/
theorem getLsbD_mask (block k : Nat) :
    (mask block).toBitVec.getLsbD k = decide (k = unit block % 64) := by
  rw [toBitVec_mask, BitVec.getLsbD_twoPow, decide_eq_true (Nat.mod_lt _ (by decide)),
    Bool.true_and]
  exact decide_eq_decide.mpr eq_comm

/-- To test a mask is to read a bit. -/
theorem and_mask_ne_zero (w : UInt64) (block : Nat) :
    (w &&& mask block != 0) = w.toBitVec.getLsbD (unit block % 64) := by
  have power : (mask block).toNat = 2 ^ (unit block % 64) :=
    (congrArg BitVec.toNat (toBitVec_mask block)).trans
      (BitVec.toNat_twoPow_of_lt (Nat.mod_lt _ (by decide)))
  rw [Word.and_bit_ne_zero w (mask block) power]
  rfl

/-- The bits of a bitmap, one word of which is changed.  A word that is not there counts as a clear
one. -/
theorem bit_modify (words : Array UInt64) (i : Nat) (change : UInt64 → UInt64) (u : Nat)
    (there : i < words.size ∨ change 0 = 0) : bit ⟨words.modify i change⟩ u
      = if i = u / 64 then (change (words.getD (u / 64) 0)).toBitVec.getLsbD (u % 64)
        else bit ⟨words⟩ u := by
  unfold bit
  simp only [Array.getD_eq_getD_getElem?, Array.getElem?_modify]
  split
  next same =>
    cases read : words[u / 64]? with
    | some w => rfl
    | none =>
      have outside : ¬ i < words.size := Nat.not_lt.mpr (same ▸ Array.getElem?_eq_none_iff.mp read)
      rw [Option.getD_none, there.resolve_left outside]
      rfl
  next => rfl

/-- New words are clear. -/
theorem bit_append_replicate (words : Array UInt64) (count u : Nat) :
    bit ⟨words ++ Array.replicate count 0⟩ u = bit ⟨words⟩ u := by
  unfold bit
  simp only [Array.getD_eq_getD_getElem?, Array.getElem?_append, Array.getElem?_replicate]
  by_cases inside : u / 64 < words.size
  · rw [if_pos inside]
  · rw [if_neg inside, Array.getElem?_eq_none (Nat.not_lt.mp inside)]
    split <;> rfl

/-- A block is in the set if its bit is set. -/
theorem contains_eq_bit (bitmap : Bitmap) (block : Nat) :
    bitmap.contains block = bitmap.bit (unit block) := by
  unfold contains bit word
  rw [Array.getD_eq_getD_getElem?]
  cases bitmap.words[unit block / 64]? with
  | none => simp
  | some w => exact and_mask_ne_zero w block

/-- The bit of a block is that of its word at its place there. -/
theorem eq_unit_iff (block u : Nat) :
    u = unit block ↔ word block = u / 64 ∧ u % 64 = unit block % 64 := by
  unfold word
  omega

/-- Adding a block sets its bit and no other. -/
theorem bit_insert (bitmap : Bitmap) (block u : Nat) :
    (bitmap.insert block).bit u = (u == unit block || bitmap.bit u) := by
  have there : word block
      < (bitmap.words ++ Array.replicate (word block + 1 - bitmap.words.size) 0).size := by
    rw [Array.size_append, Array.size_replicate]
    omega
  rw [insert, bit_modify _ _ _ _ (.inl there), bit_append_replicate, Bool.eq_iff_iff,
    Bool.or_eq_true, beq_iff_eq, eq_unit_iff]
  split
  next same =>
    have old := bit_append_replicate bitmap.words (word block + 1 - bitmap.words.size) u
    rw [UInt64.toBitVec_or, BitVec.getLsbD_or, getLsbD_mask, Bool.or_eq_true,
      decide_eq_true_eq, or_comm, and_iff_right same]
    exact or_congr_right (Bool.eq_iff_iff.mp old)
  next other => simp [other]

/-- Taking a block out clears its bit and no other. -/
theorem bit_remove (bitmap : Bitmap) (block u : Nat) :
    (bitmap.remove block).bit u = (u != unit block && bitmap.bit u) := by
  rw [remove, bit_modify _ _ (· &&& ~~~ mask block) _ (.inr UInt64.zero_and), Bool.eq_iff_iff,
    Bool.and_eq_true, bne_iff_ne, ne_eq, eq_unit_iff]
  split
  next same =>
    rw [UInt64.toBitVec_and, BitVec.getLsbD_and, UInt64.toBitVec_not, BitVec.getLsbD_not,
      getLsbD_mask, and_iff_right same]
    simp [bit, Nat.mod_lt, and_comm]
  next other => simp [other]

/-- Without blocks all bits are clear. -/
theorem bit_clear (bitmap : Bitmap) (u : Nat) : bitmap.clear.bit u = false := by
  unfold bit clear
  rw [Array.getD_eq_getD_getElem?, Array.getElem?_map]
  cases bitmap.words[u / 64]? <;> simp

/-- The bits of a word that are set. -/
theorem toNat_cpop_eq_countP (w : BitVec 64) :
    w.cpop.toNat = (List.range 64).countP (w.getLsbD ·) := by
  have below (count : Nat) : w.cpopNatRec count 0 = (List.range count).countP (w.getLsbD ·) := by
    induction count with
    | zero => rfl
    | succ k ih =>
      rw [BitVec.cpopNatRec_succ, BitVec.cpopNatRec_add, ih, List.range_succ, List.countP_append]
      cases set : w.getLsbD k <;> simp [set]
  rw [BitVec.toNat_cpop, below]

/-- The bits of some words that are set. -/
theorem sum_cpop_eq_countP (words : List UInt64) :
    (words.map fun w => w.toBitVec.cpop.toNat).sum
      = (List.range (64 * words.length)).countP fun u =>
          (words.getD (u / 64) 0).toBitVec.getLsbD (u % 64) := by
  induction words using List.reverseRecOn with
  | nil => rfl
  | append_singleton words w ih =>
    rw [List.map_append, List.sum_append, ih, List.length_append, List.length_singleton,
      Nat.mul_succ, List.range_add, List.countP_append, List.countP_map]
    congr 1
    · apply List.countP_congr
      intro u hu
      have inside : u / 64 < words.length := by
        rw [List.mem_range] at hu
        omega
      rw [List.getD_eq_getElem?_getD, List.getD_eq_getElem?_getD, List.getElem?_append_left inside]
    · -- what stands behind the others is the last word
      rw [List.map_singleton, List.sum_singleton, toNat_cpop_eq_countP]
      apply List.countP_congr
      intro k hk
      rw [List.mem_range] at hk
      have last : (64 * words.length + k) / 64 = words.length := by omega
      have place : (64 * words.length + k) % 64 = k := by omega
      simp [last, place]

/-- **The size of a bitmap is the number of its bits that are set.** -/
theorem size_eq (bitmap : Bitmap) :
    bitmap.size = (List.range (64 * bitmap.words.size)).countP bitmap.bit := by
  rw [size, sum_cpop_eq_countP, Array.length_toList]
  apply List.countP_congr
  intro u _
  rw [bit, Array.getD_eq_getD_getElem?, List.getD_eq_getElem?_getD, Array.getElem?_toList]

/-- No bit is set past the last word. -/
theorem lt_of_bit (bitmap : Bitmap) {u : Nat} (set : bitmap.bit u = true) :
    u < 64 * bitmap.words.size := by
  by_contra outside
  rw [bit, Array.getD_eq_getD_getElem?, Array.getElem?_eq_none (by omega)] at set
  simp at set

end Bitmap

/-! ## Histories -/

namespace StartSet

variable {starts : StartSet} {members : Finset Place}

/-- The flag of a unit, clear past the last one. -/
def flag (starts : StartSet) (u : Nat) : Bool := starts.flags.getD u false

/-- Adding a block sets its flag and no other. -/
theorem flag_insert (starts : StartSet) (block u : Nat) :
    (starts.insert block).flag u = (u == unit block || starts.flag u) := by
  obtain ⟨place, rfl⟩ := exists_unit_eq u
  exact contains_insert starts block place

/-- Taking a block out clears its flag and no other. -/
theorem flag_remove (starts : StartSet) (block u : Nat) :
    (starts.remove block).flag u = (u != unit block && starts.flag u) := by
  obtain ⟨place, rfl⟩ := exists_unit_eq u
  exact contains_remove starts block place

/-- The size of a start set is the number of its flags that are set. -/
theorem size_eq_countP (starts : StartSet) :
    starts.size = (List.range starts.flags.size).countP starts.flag := by
  rw [size_eq_length_units, List.countP_eq_length_filter]
  rfl

/-- No flag is set past the last one. -/
theorem lt_of_flag {u : Nat} (set : starts.flag u = true) : u < starts.flags.size := by
  by_contra outside
  rw [flag, Array.getD_eq_getD_getElem?, Array.getElem?_eq_none (Nat.not_lt.mp outside)] at set
  cases set

/-- A change of the set of allocated blocks. -/
inductive Change where
  /-- A block is added, or was there already. -/
  | insert (place : Place)
  /-- A block is taken out, or was not there. -/
  | remove (place : Place)
  /-- All blocks are taken out. -/
  | clear

/-- What a change makes of a finite set. -/
def Change.onSet (members : Finset Place) : Change → Finset Place
  | insert place => Insert.insert place members
  | remove place => members.erase place
  | clear => ∅

/-- What a change makes of a start set. -/
def Change.onStarts (starts : StartSet) : Change → StartSet
  | insert place => starts.insert place
  | remove place => starts.remove place
  | clear => .empty

/-- What a change makes of a bitmap. -/
def Change.onBitmap (bitmap : Bitmap) : Change → Bitmap
  | insert place => bitmap.insert place
  | remove place => bitmap.remove place
  | clear => bitmap.clear

/-- A change of a start set is that of its members. -/
theorem flagged_onStarts (h : Flagged starts.flag members) (change : Change) :
    Flagged (change.onStarts starts).flag (change.onSet members) := by
  cases change with
  | insert place => exact h.insert place (flag_insert starts place)
  | remove place => exact h.remove place (flag_remove starts place)
  | clear => exact flagged_empty fun u => by simp [Change.onStarts, flag, empty]

/-- A change of a bitmap is that of its members. -/
theorem flagged_onBitmap {bitmap : Bitmap} (h : Flagged bitmap.bit members) (change : Change) :
    Flagged (change.onBitmap bitmap).bit (change.onSet members) := by
  cases change with
  | insert place => exact h.insert place (bitmap.bit_insert place)
  | remove place => exact h.remove place (bitmap.bit_remove place)
  | clear => exact flagged_empty bitmap.bit_clear

/-- What each change keeps, a history keeps. -/
theorem flagged_foldl {σ : Type} (flag : σ → Nat → Bool) (step : σ → Change → σ) {s : σ}
    (keeps : ∀ {s members}, Flagged (flag s) members → ∀ change : Change,
      Flagged (flag (step s change)) (change.onSet members))
    (history : List Change) (h : Flagged (flag s) members) :
    Flagged (flag (history.foldl step s)) (history.foldl Change.onSet members) := by
  induction history generalizing s members with
  | nil => exact h
  | cons change history ih => exact ih (keeps h change)

/-- **A start set is a finite set of places,** after any history of blocks that come and go.  It
holds the places that a set would hold, and its size is their number.  So it is when it is kept as a
bitmap. -/
theorem starts_refine_set (history : List Change) :
    (∀ place : Place, (history.foldl Change.onStarts .empty).contains place = true ↔
      place ∈ history.foldl Change.onSet ∅) ∧
    (history.foldl Change.onStarts .empty).size = (history.foldl Change.onSet ∅).card ∧
    (∀ place : Place, (history.foldl Change.onBitmap .empty).contains place = true ↔
      place ∈ history.foldl Change.onSet ∅) ∧
    (history.foldl Change.onBitmap .empty).size = (history.foldl Change.onSet ∅).card := by
  have flags : Flagged (history.foldl Change.onStarts .empty).flag (history.foldl Change.onSet ∅) :=
    flagged_foldl StartSet.flag Change.onStarts flagged_onStarts history
      (flagged_empty fun u => by simp [flag, empty])
  have bits : Flagged (history.foldl Change.onBitmap .empty).bit (history.foldl Change.onSet ∅) :=
    flagged_foldl Bitmap.bit Change.onBitmap flagged_onBitmap history
      (flagged_empty fun u => by simp [Bitmap.bit, Bitmap.empty])
  refine ⟨flags, ?_, ?_, ?_⟩
  · rw [size_eq_countP, flags.countP_range fun u => lt_of_flag]
  · intro place
    rw [Bitmap.contains_eq_bit]
    exact bits place
  · rw [Bitmap.size_eq, bits.countP_range fun u => Bitmap.lt_of_bit _]

end StartSet

end TaggedHeap
