import Mathlib.Algebra.GroupWithZero.Nat
import Mathlib.Data.List.Nodup
import TaggedHeap.Proofs.Shrinking
import TaggedHeap.Trace.Histogram

/-!
# Lifetimes of allocations

An allocation lives until the first operation that frees it.  A later operation that names it again
has nothing to free, and one that names a number which no earlier allocation has frees nothing
either.

* `freed?` says what an operation frees, by the time at which that was made.  `death?` is the time
  at which the allocation made at some time is freed, and `lifetimes` has one entry for each
  allocation that is.
* `lifetimeSample_eq`: the sample has an entry for each operation that names an earlier allocation.
  So it also has entries, here called `again`, for those that name an allocation whose lifetime is
  over, and by `lifetimeSample_perm` these are all that it has besides the lifetimes.
* `CountsAll` says of a kind of histogram that it counts all of a sample, and `countsAll_equalWidth`
  that one with buckets of one width does.  `lifetimes_sampled` says how many any such histogram
  counts.
-/

namespace TaggedHeap

/-! ## Histograms -/

/-- Each value of a sample is counted in one bucket. -/
def Histogramming.CountsAll {H : Type} (kind : Histogramming H) : Prop :=
  ∀ sample, (kind.counts (kind.ofSample sample)).sum = sample.length

section Buckets

variable {sample : List Nat} {least number count : Nat}

/-- Counting the values in two ranges, one behind the other. -/
theorem countP_lt_add_countP (sample : List Nat) {a b : Nat} (le : a ≤ b) :
    sample.countP (· < a) + sample.countP (fun v => a ≤ v && v < b) = sample.countP (· < b) := by
  induction sample with
  | nil => rfl
  | cons v sample ih =>
    simp only [List.countP_cons, Bool.and_eq_true, decide_eq_true_eq]
    split <;> split <;> split <;> omega

/-- The first buckets count the values that are less than where the next one starts. -/
theorem sum_count_ofSample (width : Nat) (above : ∀ v ∈ sample, least ≤ v) (few : count < number) :
    ((List.range count).map fun i => (Bucket.ofSample number sample least width i).count).sum
      = sample.countP (· < least + count * width) := by
  induction count with
  | zero =>
    symm
    simpa [List.countP_eq_zero] using above
  | succ i ih =>
    -- it is not the last bucket, which has no upper end
    have not_last : (i + 1 == number) = false := beq_eq_false_iff_ne.mpr (Nat.ne_of_lt few)
    have wider : least + i * width ≤ least + (i + 1) * width :=
      Nat.add_le_add_left (Nat.mul_le_mul_right _ (Nat.le_succ i)) _
    rw [List.range_succ, List.map_append, List.sum_append, ih (Nat.lt_of_succ_lt few),
      ← countP_lt_add_countP sample wider]
    simp [Bucket.ofSample, not_last]

/-- The buckets count each value once. -/
theorem sum_count_allOfSample (some_bucket : 0 < number) (sample : List Nat) :
    ((Bucket.allOfSample number sample).map (·.count)).sum = sample.length := by
  cases sample with
  | nil => rfl
  | cons v sample =>
    obtain ⟨last, rfl⟩ := Nat.exists_eq_add_one.mpr some_bucket
    obtain ⟨least, least_eq⟩ : ∃ least, (v :: sample).min? = some least := ⟨_, rfl⟩
    obtain ⟨most, most_eq⟩ : ∃ most, (v :: sample).max? = some most := ⟨_, rfl⟩
    have above : ∀ u ∈ v :: sample, least ≤ u := (List.min?_eq_some_iff.mp least_eq).2
    -- all buckets but the last count what lies before it, and the last one counts the rest
    let width := Bucket.width (last + 1) (most - least)
    have before := sum_count_ofSample width above (Nat.lt_add_one last)
    have rest : (Bucket.ofSample (last + 1) (v :: sample) least width last).count
        = (v :: sample).countP fun u => ¬ u < least + last * width := by
      simp [Bucket.ofSample]
    rw [Bucket.allOfSample, least_eq, most_eq]
    dsimp only
    rw [List.map_map, List.range_succ, List.map_append, List.sum_append,
      List.length_eq_countP_add_countP (fun u => decide (u < least + last * width))]
    exact congrArg₂ (· + ·) before (by simpa using rest)

namespace Histogramming

/-- A histogram with buckets of one width has the values that were added to it. -/
theorem foldl_add_equalWidth (number : Nat) (before sample : List Nat) :
    sample.foldl equalWidth.add (number, before) = (number, sample.reverse ++ before) := by
  induction sample generalizing before with
  | nil => rfl
  | cons v sample ih =>
    rw [List.reverse_cons, List.append_assoc]
    exact ih (v :: before)

/-- **Buckets of one width count each value of a sample.** -/
theorem countsAll_equalWidth : equalWidth.CountsAll := by
  intro sample
  have held : equalWidth.ofSample sample = (bucketNumber, sample.reverse ++ []) :=
    foldl_add_equalWidth bucketNumber [] sample
  rw [held, List.append_nil, ← List.length_reverse]
  exact sum_count_allOfSample (by decide) sample.reverse

end Histogramming

end Buckets

namespace Trace

open Operation

variable {t before after rest : Trace} {i birth index : Nat}

/-! ## What an operation frees -/

/-- When the allocation was made that an operation frees: one that was made before, and that it
names. -/
def freed? (t : Trace) (i : Nat) : Option Nat :=
  match t[i]? with
  | some (.free index) => (t.allocation? index).filter (· < i)
  | _ => none

/-- How long before an operation the allocation was made that it frees. -/
def age? (t : Trace) (i : Nat) : Option Nat := (t.freed? i).map (i - ·)

/-- When an allocation is freed: at the first operation that frees what was made at `birth`. -/
def death? (t : Trace) (birth : Nat) : Option Nat :=
  (List.range t.length).find? fun i => t.freed? i == some birth

/-- The lifetimes of the allocations that are freed, by the order in which they were made. -/
def lifetimes (t : Trace) : List Nat :=
  (positions isAlloc t).filterMap fun birth => (t.death? birth).map (· - birth)

/-- Whether an operation is the first one to free an allocation. -/
def isDeath (t : Trace) (i : Nat) : Bool := (t.freed? i).any fun birth => t.death? birth == some i

/-- How long ago the allocations were made that are named by operations that free them once more. -/
def again (t : Trace) : List Nat := ((List.range t.length).filter (!t.isDeath ·)).filterMap t.age?

/-- What is freed was made before, by an allocation with the number that is named. -/
theorem freed?_eq_some_iff : t.freed? i = some birth ↔
    ∃ index, t[i]? = some (free index) ∧ t.allocation? index = some birth ∧ birth < i := by
  rw [freed?]
  split
  next index there => simp [there, Option.filter_eq_some_iff]
  next other =>
    simp only [reduceCtorEq, false_iff]
    rintro ⟨index, there, -⟩
    exact other index there

/-- Of the numbers of a trace, those of its beginning are the ones whose allocations stand there. -/
theorem filter_allocation?_append (before after : Trace) (index : Nat) :
    ((before ++ after).allocation? index).filter (· < before.length)
      = before.allocation? index := by
  unfold allocation?
  rw [positions_append]
  rcases Nat.lt_or_ge index (positions isAlloc before).length with inside | behind
  · rw [List.getElem?_append_left inside, List.getElem?_eq_getElem inside, Option.filter_some,
      if_pos]
    obtain ⟨first, op, last, same, length, -⟩ := mem_positions.mp (List.getElem_mem inside)
    rw [decide_eq_true_eq, ← length, same, List.length_append, List.length_cons]
    omega
  · rw [List.getElem?_append_right behind, List.getElem?_map, List.getElem?_eq_none behind]
    cases (positions isAlloc after)[index - (positions isAlloc before).length]? with
    | none => rfl
    | some i => simp

/-- The sample of what is left of a trace, with the allocations made before. -/
theorem lifetimesFrom_eq (before rest : Trace) :
    lifetimesFrom before.length (positions isAlloc before).toArray rest
      = (List.range' before.length rest.length).filterMap (before ++ rest).age? := by
  induction rest generalizing before with
  | nil => rfl
  | cons op rest ih =>
    have here : (before ++ op :: rest)[before.length]? = some op := by simp
    have made : positions isAlloc (before ++ [op])
        = positions isAlloc before ++ if op.isAlloc then [before.length] else [] := by
      rw [positions_append, positions_cons]
      cases op.isAlloc <;> simp [positions]
    have later := ih (before ++ [op])
    rw [List.append_assoc, List.singleton_append, List.length_append, List.length_singleton,
      made] at later
    rw [List.length_cons, List.range'_succ, List.filterMap_cons, ← later]
    cases op with
    | alloc size =>
      have nothing : (before ++ alloc size :: rest).age? before.length = none := by
        rw [age?, freed?, here]
        rfl
      rw [nothing, lifetimesFrom, List.push_toArray]
      rfl
    | realloc index size =>
      have nothing : (before ++ realloc index size :: rest).age? before.length = none := by
        rw [age?, freed?, here]
        rfl
      rw [nothing, lifetimesFrom]
      simp [isAlloc]
    | free index =>
      have frees : (before ++ free index :: rest).age? before.length
          = (before.allocation? index).map (before.length - ·) := by
        rw [age?, freed?, here]
        exact congrArg (Option.map _) (filter_allocation?_append ..)
      have named : (positions isAlloc before).toArray[index]? = before.allocation? index :=
        List.getElem?_toArray ..
      rw [frees, lifetimesFrom, named]
      cases before.allocation? index <;> simp [isAlloc]

/-- **The sample has an entry for each operation that names an earlier allocation.** -/
theorem lifetimeSample_eq (t : Trace) :
    lifetimeSample t = (List.range t.length).filterMap t.age? := by
  rw [List.range_eq_range']
  exact lifetimesFrom_eq [] t

/-! ## The first operation that frees an allocation -/

/-- Only operations of the trace free anything. -/
theorem lt_length_of_freed? (freed : t.freed? i = some birth) : i < t.length := by
  obtain ⟨index, there, -⟩ := freed?_eq_some_iff.mp freed
  exact (List.getElem?_eq_some_iff.mp there).1

/-- Only allocations are freed. -/
theorem mem_positions_of_freed? (freed : t.freed? i = some birth) :
    birth ∈ positions isAlloc t := by
  obtain ⟨index, -, found, -⟩ := freed?_eq_some_iff.mp freed
  exact List.mem_of_getElem? found

/-- An allocation is freed by the first operation that frees it. -/
theorem death?_eq_some_iff : t.death? birth = some i ↔
    t.freed? i = some birth ∧ ∀ j < i, t.freed? j ≠ some birth := by
  rw [death?, List.find?_range_eq_some]
  simp only [beq_iff_eq, List.mem_range, Bool.not_eq_true', beq_eq_false_iff_ne]
  exact ⟨fun ⟨freed, _, first⟩ => ⟨freed, first⟩,
    fun ⟨freed, first⟩ => ⟨freed, lt_length_of_freed? freed, first⟩⟩

/-- What is freed at all is freed at some time first. -/
theorem exists_death?_of_freed? (freed : t.freed? i = some birth) :
    ∃ j, t.death? birth = some j := by
  rw [← Option.isSome_iff_exists, death?, List.find?_isSome]
  exact ⟨i, List.mem_range.mpr (lt_length_of_freed? freed), beq_iff_eq.mpr freed⟩

/-- The operations that are the first ones to free an allocation, by the order of the allocations or
by their own. -/
theorem filter_isDeath_perm (t : Trace) :
    ((List.range t.length).filter t.isDeath).Perm ((positions isAlloc t).filterMap t.death?) := by
  have once : ∀ birth birth' i, i ∈ t.death? birth → i ∈ t.death? birth' → birth = birth' := by
    intro birth birth' i dies dies'
    have freed := (death?_eq_some_iff.mp dies).1
    rw [(death?_eq_some_iff.mp dies').1] at freed
    exact (Option.some.inj freed).symm
  refine (List.perm_ext_iff_of_nodup (List.nodup_range.filter _)
    ((nodup_positions ..).filterMap once)).mpr ?_
  intro i
  simp only [List.mem_filter, List.mem_range, isDeath, Option.any_eq_true, beq_iff_eq,
    List.mem_filterMap]
  constructor
  · rintro ⟨-, birth, freed, dies⟩
    exact ⟨birth, mem_positions_of_freed? freed, dies⟩
  · rintro ⟨birth, -, dies⟩
    have freed := (death?_eq_some_iff.mp dies).1
    exact ⟨lt_length_of_freed? freed, birth, freed, dies⟩

/-- A lifetime is the age that an allocation has when it is freed first. -/
theorem lifetimes_eq (t : Trace) :
    lifetimes t = ((positions isAlloc t).filterMap t.death?).filterMap t.age? := by
  rw [List.filterMap_filterMap, lifetimes]
  apply List.filterMap_congr
  intro birth _
  cases dies : t.death? birth with
  | none => rfl
  | some i => simp [age?, (death?_eq_some_iff.mp dies).1]

/-- **The sample has one entry for each allocation that is freed, and one for each operation that
frees one once more.** -/
theorem lifetimeSample_perm (t : Trace) : (lifetimeSample t).Perm (lifetimes t ++ again t) := by
  have parted := (List.filter_append_perm t.isDeath (List.range t.length)).symm.filterMap t.age?
  rw [List.filterMap_append] at parted
  rw [lifetimeSample_eq, lifetimes_eq]
  exact parted.trans (((filter_isDeath_perm t).filterMap t.age?).append_right _)

/-- There is a lifetime for each allocation that is freed later. -/
theorem length_lifetimes (t : Trace) :
    (lifetimes t).length = (positions isAlloc t).countP fun birth => (t.death? birth).isSome := by
  simp [lifetimes, List.length_filterMap_eq_countP]

/-- Nothing is freed once more if no two operations free the same. -/
theorem again_eq_nil_iff : again t = [] ↔
    ∀ i j birth, t.freed? i = some birth → t.freed? j = some birth → i = j := by
  have empty : again t = [] ↔ ∀ i birth, t.freed? i = some birth → t.death? birth = some i := by
    simp only [again, List.filterMap_eq_nil_iff, List.mem_filter, List.mem_range,
      Bool.not_eq_true', age?, Option.map_eq_none_iff]
    constructor
    · intro none_again i birth freed
      by_contra other
      have late : t.isDeath i = false := by simp [isDeath, freed, other]
      rw [none_again i ⟨lt_length_of_freed? freed, late⟩] at freed
      cases freed
    · rintro first i ⟨-, late⟩
      cases freed : t.freed? i with
      | none => rfl
      | some birth => simp [isDeath, freed, first i birth freed] at late
  rw [empty]
  constructor
  · intro first i j birth freed freed'
    have same := first i birth freed
    rw [first j birth freed'] at same
    exact (Option.some.inj same).symm
  · intro once i birth freed
    obtain ⟨j, dies⟩ := exists_death?_of_freed? freed
    rw [dies, once j i birth (death?_eq_some_iff.mp dies).1 freed]

/-- **Each lifetime is sampled once, and so is the time to each operation that frees an allocation
once more.**  An operation that names no earlier allocation is not sampled.  So a histogram that
counts all that is added to it counts the allocations that are freed later, and besides them the
operations that have nothing left to free; there are none of these exactly if no two operations free
the same allocation. -/
theorem lifetimes_sampled (t : Trace) :
    lifetimeSample t = (List.range t.length).filterMap t.age? ∧
    (lifetimeSample t).Perm (lifetimes t ++ again t) ∧
    (∀ (H : Type) (kind : Histogramming H), kind.CountsAll →
      (kind.counts (t.lifetimeHistogram kind)).sum
        = ((positions isAlloc t).countP fun birth => (t.death? birth).isSome)
          + (again t).length) ∧
    (again t = [] ↔ ∀ i j birth, t.freed? i = some birth → t.freed? j = some birth → i = j) := by
  refine ⟨lifetimeSample_eq t, lifetimeSample_perm t, fun H kind counts_all => ?_,
    again_eq_nil_iff⟩
  rw [lifetimeHistogram, counts_all, (lifetimeSample_perm t).length_eq, List.length_append,
    length_lifetimes]

/-- Two allocations are freed, one of them once more, and what frees an allocation never made is not
sampled. -/
theorem lifetimes_sampled_of_freed_twice :
    (lifetimeSample [alloc 1, alloc 2, free 1, realloc 0 3, free 0, free 5, free 0]).Perm
        ([4, 1] ++ [6]) ∧
      (Histogramming.equalWidth.counts (lifetimeHistogram .equalWidth
        [alloc 1, alloc 2, free 1, realloc 0 3, free 0, free 5, free 0])).sum = 2 + 1 := by
  let t : Trace := [alloc 1, alloc 2, free 1, realloc 0 3, free 0, free 5, free 0]
  obtain ⟨-, sampled, counted, -⟩ := lifetimes_sampled t
  have counted_here := counted _ .equalWidth Histogramming.countsAll_equalWidth
  have freed : lifetimes t = [4, 1] := by decide
  have late : again t = [6] := by decide
  rw [← length_lifetimes, freed, late] at counted_here
  rw [freed, late] at sampled
  exact ⟨sampled, counted_here⟩

/-- It is not so that only lifetimes are sampled: an allocation freed twice has two samples. -/
theorem only_lifetimes_sampled_fails :
    (¬ ∀ t : Trace, (lifetimeSample t).Perm (lifetimes t)) ∧
      ¬ ∀ t : Trace, (lifetimeSample t).length
        = (positions isAlloc t).countP fun birth => (t.death? birth).isSome := by
  have twice : (lifetimeSample [alloc 1, free 0, free 0]).length
      ≠ (lifetimes [alloc 1, free 0, free 0]).length := by
    decide
  refine ⟨fun only => twice (only _).length_eq, fun only => twice ?_⟩
  rw [only, length_lifetimes]

end Trace

end TaggedHeap
