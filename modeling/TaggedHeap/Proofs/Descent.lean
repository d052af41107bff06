import Mathlib.Algebra.GroupWithZero.Nat
import Mathlib.Data.Prod.Lex
import Mathlib.Order.WellFounded
import TaggedHeap.Proofs.Shrinking

/-!
# Making traces smaller comes to an end

Each candidate for a smaller trace has fewer operations, or as many of them that allocate fewer
bytes in all.  That is `extent_lt_of_mem_shrink`; one case for each kind of candidate suffices,
since `shrink_cases` says what they are.

* `wellFounded_shrink`: so it does not matter which candidate is taken each time, nor how large a
  trace the first one was.
* `length_shrink` counts the candidates.  There is at least one for each operation, so that only the
  empty trace has none.
-/

namespace TaggedHeap

/-- The bytes that an operation allocates.  One that resizes does not count: no candidate asks it
for less. -/
def Operation.allocated : Operation → Nat
  | alloc size => size
  | free _ | realloc _ _ => 0

namespace Trace

open Operation

variable {t candidate : Trace} {i : Nat}

/-- The bytes that all allocations of a trace ask for. -/
def allocated (t : Trace) : Nat := (t.map Operation.allocated).sum

/-- The bytes that two traces ask for, one behind the other. -/
theorem allocated_append (before after : Trace) :
    allocated (before ++ after) = before.allocated + after.allocated := by
  rw [allocated, List.map_append, List.sum_append]
  rfl

/-- The bytes that a trace asks for, the first operation apart. -/
theorem allocated_cons (op : Operation) (t : Trace) :
    allocated (op :: t) = op.allocated + t.allocated :=
  List.sum_cons

/-- What a trace is compared by: the number of its operations, and then the bytes of its
allocations. -/
def extent (t : Trace) : Nat ×ₗ Nat := toLex (t.length, t.allocated)

/-- A trace with fewer operations is smaller, whatever they allocate. -/
theorem extent_lt_of_length_lt (fewer : candidate.length < t.length) :
    candidate.extent < t.extent :=
  Prod.Lex.toLex_lt_toLex.mpr (.inl fewer)

/-- **Candidates for a smaller trace are smaller.** -/
theorem extent_lt_of_mem_shrink (h : candidate ∈ shrink t) : candidate.extent < t.extent := by
  rcases shrink_cases h with ⟨rest, rfl, some_left⟩ | ⟨before, op, after, rfl, -, rfl⟩ |
    ⟨before, size, after, rfl, rfl⟩ | ⟨before, size, after, rfl, asks, rfl⟩
  · apply extent_lt_of_length_lt
    rw [List.length_append]
    exact Nat.lt_add_of_pos_right (List.length_pos_iff.mpr some_left)
  · apply extent_lt_of_length_lt
    rw [List.length_append, List.length_append, List.length_cons]
    omega
  · -- the references that go with the allocation only make the trace shorter still
    apply extent_lt_of_length_lt
    have most := List.length_filterMap_le (afterDropping (before.countP isAlloc)) (before ++ after)
    rw [List.length_append] at most
    rw [List.length_append, List.length_cons]
    omega
  · refine Prod.Lex.toLex_lt_toLex.mpr (.inr ⟨?_, ?_⟩)
    · simp only [List.length_append, List.length_cons]
    · have half : size / 2 < size := Nat.div_lt_self (Nat.pos_of_ne_zero asks) Nat.one_lt_two
      simp only [allocated_append, allocated_cons, Operation.allocated]
      omega

/-- To make a trace smaller again and again comes to an end. -/
theorem wellFounded_shrink : WellFounded fun candidate t : Trace => candidate ∈ shrink t :=
  Subrelation.wf extent_lt_of_mem_shrink (InvImage.wf extent wellFounded_lt)

/-! ## The number of candidates -/

/-- There is a candidate without each allocation. -/
@[simp] theorem length_withoutAllocs (t : Trace) : (withoutAllocs t).length = t.countP isAlloc := by
  rw [withoutAllocs, List.length_mapIdx, length_positions]

/-- What is halved is an allocation of some bytes. -/
theorem isSome_halveAlloc? (t : Trace) (i : Nat) :
    (halveAlloc? t i).isSome = (t[i]?.map fun op => op.allocated != 0).getD false := by
  rw [halveAlloc?]
  cases t[i]? with
  | none => rfl
  | some op =>
    cases op with
    | alloc size => by_cases none_asked : size = 0 <;> simp [Operation.allocated, none_asked]
    | free | realloc => rfl

/-- What allocates some bytes is an allocation. -/
theorem isAlloc_of_allocated {op : Operation} (asks : (op.allocated != 0) = true) :
    op.isAlloc = true := by
  cases op with
  | alloc size => rfl
  | free | realloc => cases asks

/-- There is a candidate with each allocation halved that asks for any bytes. -/
@[simp] theorem length_withHalves (t : Trace) :
    (withHalves t).length = t.countP fun op => op.allocated != 0 := by
  rw [withHalves, List.length_filterMap_eq_countP, ← length_positions,
    List.countP_eq_length_filter, positions, positions, List.filter_filter]
  congr 2
  funext i
  rw [isSome_halveAlloc?]
  cases t[i]? with
  | none => rfl
  | some op =>
    cases asks : op.allocated != 0 with
    | false => simp [asks]
    | true => simp [asks, isAlloc_of_allocated asks]

/-- **How many candidates there are.** -/
theorem length_shrink (t : Trace) : (shrink t).length =
    t.length + t.countP (!·.isAlloc) + t.countP isAlloc + t.countP fun op => op.allocated != 0 := by
  simp only [shrink, List.length_append, length_beginnings, length_withoutOthers,
    length_withoutAllocs, length_withHalves]

/-- Only the empty trace has no candidates. -/
theorem shrink_eq_nil_iff : shrink t = [] ↔ t = [] := by
  constructor
  · intro none_left
    have count := length_shrink t
    rw [none_left, List.length_nil] at count
    exact List.eq_nil_of_length_eq_zero (by omega)
  · rintro rfl
    rfl

/-- **Making a trace smaller again and again comes to an end.**  Each candidate has fewer
operations, or as many that allocate fewer bytes, and so there is no endless chain of candidates of
candidates.  There is one for each operation, one more without each, and one for each allocation
that can be halved; only the empty trace has none. -/
theorem shrink_terminates :
    (∀ t : Trace, ∀ candidate ∈ shrink t,
      toLex (candidate.length, candidate.allocated) < toLex (t.length, t.allocated)) ∧
    (¬ ∃ chain : Nat → Trace, ∀ n, chain (n + 1) ∈ shrink (chain n)) ∧
    (∀ t : Trace, (shrink t).length =
      t.length + t.countP (!·.isAlloc) + t.countP isAlloc + t.countP fun op => op.allocated != 0) ∧
    ∀ t : Trace, shrink t = [] ↔ t = [] := by
  refine ⟨fun t candidate mem => extent_lt_of_mem_shrink mem, ?_, length_shrink,
    fun t => shrink_eq_nil_iff⟩
  rintro ⟨chain, smaller⟩
  exact (wellFounded_iff_isEmpty_descending_chain.mp wellFounded_shrink).elim ⟨chain, smaller⟩

/-- An allocation of one byte is halved to one of none, and the trace is smaller by that. -/
theorem shrink_terminates_of_one_byte :
    let t : Trace := [alloc 1, realloc 0 5, free 0]
    let candidate : Trace := [alloc 0, realloc 0 5, free 0]
    candidate ∈ shrink t ∧
      toLex (candidate.length, candidate.allocated) < toLex (t.length, t.allocated) ∧
      (shrink t).length = 7 := by
  intro t candidate
  have mem : candidate ∈ shrink t := by decide
  obtain ⟨smaller, -, count, -⟩ := shrink_terminates
  exact ⟨mem, smaller t candidate mem, count t⟩

end Trace

end TaggedHeap
