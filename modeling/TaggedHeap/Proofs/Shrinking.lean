import Mathlib.Data.List.Basic
import Mathlib.Data.List.Nodup
import TaggedHeap.Trace.Shrink

/-!
# References in smaller traces

An operation refers to an allocation by its number, and numbers change when an allocation is taken
out.

* `allocation?` says where the allocation with a number stands, which is what a number refers to.
* `survivors` says where the operations come from that are left when an allocation is taken out.  By
  `dropAlloc_eq` they are left in their order, and by `allocation?_dropAlloc` each of them refers to
  the allocation that it referred to before.
* `Backward` traces refer only to allocations that were made before.  Each candidate for a smaller
  trace is the trace with one place changed, and by one lemma for each kind of change it is
  `Backward` again.
-/

namespace TaggedHeap

namespace Operation

/-- The operation with another number for the allocation that it refers to. -/
def reindex (number : Nat → Nat) : Operation → Operation
  | alloc size => alloc size
  | free index => free (number index)
  | realloc index size => realloc (number index) size

@[simp] theorem isAlloc_reindex (number : Nat → Nat) (op : Operation) :
    (op.reindex number).isAlloc = op.isAlloc := by
  cases op <;> rfl

@[simp] theorem index?_reindex (number : Nat → Nat) (op : Operation) :
    (op.reindex number).index? = op.index?.map number := by
  cases op <;> rfl

/-- An allocation refers to none. -/
theorem index?_of_isAlloc {op : Operation} (is_alloc : op.isAlloc = true) : op.index? = none := by
  cases op with
  | alloc size => rfl
  | free | realloc => cases is_alloc

end Operation

namespace Trace

open Operation

variable {t before after : Trace} {op : Operation} {condition : Operation → Bool}
  {i position index dropped made : Nat}

/-! ## Positions -/

/-- The positions in two traces, one behind the other. -/
theorem positions_append (condition : Operation → Bool) (before after : Trace) :
    positions condition (before ++ after)
      = positions condition before ++ (positions condition after).map (before.length + ·) := by
  unfold positions
  rw [List.length_append, List.range_add, List.filter_append, List.filter_map]
  congr 1
  · apply List.filter_congr
    intro i hi
    rw [List.getElem?_append_left (List.mem_range.mp hi)]
  · congr 1
    apply List.filter_congr
    intro i _
    simp only [Function.comp_apply, List.getElem?_append_right (Nat.le_add_right ..),
      Nat.add_sub_cancel_left]

/-- The positions in a trace with one more operation in front. -/
theorem positions_cons (condition : Operation → Bool) (op : Operation) (t : Trace) :
    positions condition (op :: t)
      = (if condition op then [0] else []) ++ (positions condition t).map (1 + ·) := by
  have first : positions condition [op] = if condition op then [0] else [] := by
    cases holds : condition op <;> simp [positions, holds]
  rw [← first]
  exact positions_append condition [op] t

/-- There is a position for each operation that satisfies the condition. -/
theorem length_positions (condition : Operation → Bool) (t : Trace) :
    (positions condition t).length = t.countP condition := by
  induction t with
  | nil => rfl
  | cons op t ih =>
    rw [positions_cons, List.length_append, List.length_map, ih, List.countP_cons, Nat.add_comm]
    cases condition op <;> rfl

/-- No position comes twice. -/
theorem nodup_positions (condition : Operation → Bool) (t : Trace) :
    (positions condition t).Nodup :=
  List.nodup_range.filter _

/-- A position parts the trace into what comes before it, the operation there, and what comes
behind. -/
theorem mem_positions : i ∈ positions condition t ↔
    ∃ before op after, t = before ++ op :: after ∧ before.length = i ∧ condition op = true := by
  simp only [positions, List.mem_filter, List.mem_range]
  constructor
  · rintro ⟨inside, holds⟩
    rw [List.getElem?_eq_getElem inside] at holds
    refine ⟨t.take i, t[i], t.drop (i + 1), ?_, List.length_take_of_le (Nat.le_of_lt inside), holds⟩
    rw [← List.drop_eq_getElem_cons inside, List.take_append_drop]
  · rintro ⟨before, op, after, rfl, rfl, holds⟩
    simp [holds]

/-- The position of an allocation, by its number. -/
def allocation? (t : Trace) (number : Nat) : Option Nat := (positions isAlloc t)[number]?

/-- An allocation has the number of those before it. -/
theorem allocation?_append (before : Trace) (size : Nat) (after : Trace) :
    (before ++ alloc size :: after).allocation? (before.countP isAlloc) = some before.length := by
  rw [allocation?, positions_append, ← length_positions, List.getElem?_append_right (Nat.le_refl _),
    Nat.sub_self, positions_cons]
  rfl

/-- **An allocation parts the trace into what comes before it and what comes behind,** and its
number says how many allocations come before. -/
theorem allocation?_eq_some_iff : t.allocation? index = some i ↔
    ∃ before size after, t = before ++ alloc size :: after ∧ before.length = i ∧
      before.countP isAlloc = index := by
  constructor
  · intro found
    obtain ⟨before, op, after, rfl, rfl, is_alloc⟩ := mem_positions.mp (List.mem_of_getElem? found)
    cases op with
    | alloc size =>
      have here := allocation?_append before size after
      have inside := (List.getElem?_eq_some_iff.mp here).1
      exact ⟨before, size, after, rfl, rfl,
        (List.getElem?_inj inside (nodup_positions ..)).mp (here.trans found.symm)⟩
    | free | realloc => cases is_alloc
  · rintro ⟨before, size, after, rfl, rfl, rfl⟩
    exact allocation?_append before size after

/-- There are as many numbers as allocations. -/
theorem allocation?_eq_none_iff : t.allocation? index = none ↔ t.countP isAlloc ≤ index := by
  rw [allocation?, List.getElem?_eq_none_iff, length_positions]

/-! ## Without an allocation -/

/-- The positions of the operations that are left without allocation number `dropped`, which stands
at `position`: all others that do not refer to it. -/
def survivors (t : Trace) (dropped position : Nat) : List Nat :=
  (List.range t.length).filter fun i => i ≠ position ∧ t[i]?.bind index? ≠ some dropped

/-- What the number of an allocation becomes. -/
def closeGap (dropped index : Nat) : Nat := if dropped < index then index - 1 else index

/-- An operation that does not refer to the allocation is renumbered. -/
theorem afterDropping_eq (dropped : Nat) (op : Operation) : afterDropping dropped op =
    if op.index? ≠ some dropped then some (op.reindex (closeGap dropped)) else none := by
  cases op with
  | alloc size => rfl
  | free index | realloc index size =>
    by_cases same : index = dropped <;> simp [afterDropping, index?, reindex, closeGap, same]

/-- What stands at all positions. -/
theorem filterMap_getElem? (t : Trace) : (List.range t.length).filterMap (t[·]?) = t := by
  induction t with
  | nil => rfl
  | cons op t ih =>
    rw [List.length_cons, List.range_succ_eq_map, List.filterMap_cons, List.filterMap_map]
    exact congrArg (op :: ·) ih

/-- What stands at all positions but one. -/
theorem filterMap_getElem?_ne (t : Trace) (position : Nat) :
    ((List.range t.length).filter (· ≠ position)).filterMap (t[·]?) = t.eraseIdx position := by
  induction t generalizing position with
  | nil => rfl
  | cons op t ih =>
    rw [List.length_cons, List.range_succ_eq_map]
    cases position with
    | zero =>
      simp [List.filter_map, List.filterMap_map, Function.comp_def, filterMap_getElem?]
    | succ position =>
      simp [List.filter_map, List.filterMap_map, Function.comp_def, ← ih]

/-- **What is left without an allocation.** -/
theorem dropAlloc_eq (t : Trace) (dropped position : Nat) : dropAlloc t dropped position =
    ((survivors t dropped position).filterMap (t[·]?)).map (reindex (closeGap dropped)) := by
  have kept (l : List Nat) : (l.filter fun i => t[i]?.bind index? ≠ some dropped).filterMap (t[·]?)
      = (l.filterMap (t[·]?)).filter fun op => op.index? ≠ some dropped := by
    rw [List.filterMap_filter, List.filter_filterMap]
    congr 1
    funext i
    cases t[i]? <;> simp [Option.filter]
  have renumbered (l : Trace) : l.filterMap (afterDropping dropped)
      = (l.filter fun op => op.index? ≠ some dropped).map (reindex (closeGap dropped)) := by
    rw [← List.filterMap_eq_map, List.filterMap_filter]
    congr 1
    funext op
    simp only [afterDropping_eq, decide_eq_true_eq, Function.comp_apply]
  have parted : survivors t dropped position = ((List.range t.length).filter (· ≠ position)).filter
      fun i => t[i]?.bind index? ≠ some dropped := by
    rw [List.filter_filter, survivors]
    congr 1
    funext i
    rw [Bool.decide_and, Bool.and_comm]
  rw [dropAlloc, renumbered, parted, kept, filterMap_getElem?_ne]

/-- The allocations of a trace whose operations are taken from another, wherever they come from. -/
theorem allocation?_bind_getElem? (t : Trace) (number : Nat → Nat) {l : List Nat}
    (inside : ∀ i ∈ l, i < t.length) (index : Nat) :
    (allocation? ((l.filterMap (t[·]?)).map (reindex number)) index).bind (l[·]?)
      = (l.filter fun i => (t[i]?.map isAlloc).getD false)[index]? := by
  induction l generalizing index with
  | nil => rfl
  | cons i l ih =>
    obtain ⟨here, inside⟩ := List.forall_mem_cons.mp inside
    have there := ih inside
    have read : t[i]? = some t[i] := List.getElem?_eq_getElem here
    -- a position in the others is one less there
    have behind (l' : List Nat) (index : Nat) :
        (((l'.map (1 + ·))[index]?).bind ((i :: l)[·]?)) = (l'[index]?).bind (l[·]?) := by
      rw [List.getElem?_map, Option.bind_map]
      congr 1
      funext j
      rw [Function.comp_apply, Nat.add_comm, List.getElem?_cons_succ]
    rw [List.filterMap_cons, read, List.map_cons, allocation?, positions_cons, isAlloc_reindex,
      List.filter_cons, read, Option.map_some, Option.getD_some]
    cases is_alloc : t[i].isAlloc with
    | false =>
      rw [if_neg Bool.false_ne_true, if_neg Bool.false_ne_true, List.nil_append, behind]
      exact there index
    | true =>
      rw [if_pos rfl, if_pos rfl, List.singleton_append]
      cases index with
      | zero => rfl
      | succ index =>
        rw [List.getElem?_cons_succ, List.getElem?_cons_succ, behind]
        exact there index

/-- All allocations but one are left. -/
theorem survivors_filter_isAlloc (found : t.allocation? dropped = some position) :
    ((survivors t dropped position).filter fun i => (t[i]?.map isAlloc).getD false)
      = (positions isAlloc t).eraseIdx dropped := by
  obtain ⟨inside, same⟩ := List.getElem?_eq_some_iff.mp found
  rw [← (nodup_positions ..).erase_getElem _ inside, same, (nodup_positions ..).erase_eq_filter,
    positions, survivors, List.filter_filter, List.filter_filter]
  apply List.filter_congr
  intro i hi
  obtain ⟨op, read⟩ : ∃ op, t[i]? = some op := ⟨_, List.getElem?_eq_getElem (List.mem_range.mp hi)⟩
  rw [read, Bool.eq_iff_iff]
  -- an allocation refers to none
  cases op <;> simp [isAlloc, index?]

/-- **The reference of an operation is what it was,** when another allocation was dropped than the
one that it refers to. -/
theorem allocation?_dropAlloc (found : t.allocation? dropped = some position)
    (other : index ≠ dropped) :
    ((dropAlloc t dropped position).allocation? (closeGap dropped index)).bind
      ((survivors t dropped position)[·]?) = t.allocation? index := by
  have inside : ∀ i ∈ survivors t dropped position, i < t.length := fun i hi =>
    List.mem_range.mp (List.mem_of_mem_filter hi)
  rw [dropAlloc_eq, allocation?_bind_getElem? t _ inside, survivors_filter_isAlloc found,
    List.getElem?_eraseIdx, allocation?, closeGap]
  rcases Nat.lt_or_gt_of_ne other with before | behind
  · rw [if_neg (Nat.lt_asymm before), if_pos before]
  · rw [if_pos behind, if_neg (by omega), Nat.sub_add_cancel (by omega)]

/-- Every operation that is left was somewhere. -/
theorem length_dropAlloc (t : Trace) (dropped position : Nat) :
    (dropAlloc t dropped position).length = (survivors t dropped position).length := by
  rw [dropAlloc_eq, List.length_map, List.filterMap_length_eq_length]
  intro i hi
  rw [List.getElem?_eq_getElem (List.mem_range.mp (List.mem_of_mem_filter hi))]
  rfl

/-- A number that no allocation has is still one that none has. -/
theorem countP_dropAlloc_le (found : t.allocation? dropped = some position)
    (missing : t.countP isAlloc ≤ index) :
    (dropAlloc t dropped position).countP isAlloc ≤ closeGap dropped index := by
  have other : index ≠ dropped := by
    rintro rfl
    rw [allocation?_eq_none_iff.mpr missing] at found
    cases found
  have nowhere := allocation?_dropAlloc found other
  rw [allocation?_eq_none_iff.mpr missing, Option.bind_eq_none_iff] at nowhere
  rw [← allocation?_eq_none_iff, Option.eq_none_iff_forall_ne_some]
  intro j there
  have inside : j < (dropAlloc t dropped position).length := by
    obtain ⟨before, size, after, same, rfl, -⟩ := allocation?_eq_some_iff.mp there
    rw [same]
    simp
  rw [length_dropAlloc] at inside
  exact absurd (nowhere j there) (by simp [inside])

/-- There is a proper beginning of each smaller length. -/
@[simp] theorem length_beginnings (t : Trace) : (beginnings t).length = t.length := by
  rw [beginnings, List.length_map, List.length_range]

/-- There is a candidate without each operation that is no allocation. -/
@[simp] theorem length_withoutOthers (t : Trace) :
    (withoutOthers t).length = t.countP (!·.isAlloc) := by
  rw [withoutOthers, List.length_map, length_positions]

/-- The candidate without an allocation stands behind the beginnings and the candidates without an
operation of another kind. -/
theorem shrink_getElem? (found : t.allocation? dropped = some position) :
    (shrink t)[t.length + t.countP (!·.isAlloc) + dropped]?
      = some (dropAlloc t dropped position) := by
  have here : (withoutAllocs t)[dropped]? = some (dropAlloc t dropped position) := by
    rw [withoutAllocs, List.getElem?_mapIdx]
    exact congrArg (Option.map _) found
  have inside := (List.getElem?_eq_some_iff.mp here).1
  have before : (beginnings t ++ withoutOthers t).length = t.length + t.countP (!·.isAlloc) := by
    rw [List.length_append, length_beginnings, length_withoutOthers]
  rw [shrink, List.getElem?_append_left (by rw [List.length_append, before]; omega),
    List.getElem?_append_right (by rw [before]; omega), before, Nat.add_sub_cancel_left, here]

/-! ## References to earlier allocations -/

/-- Every operation refers to an allocation that was made before it.  Numbers count from zero, so
allocation number `index` is among the first `index + 1`. -/
def Backward (t : Trace) : Prop :=
  ∀ before op after, t = before ++ op :: after →
    ∀ index ∈ op.index?, index + 1 ≤ before.countP isAlloc

/-- The same of what comes behind some allocations, one operation after the other. -/
def Follows (made : Nat) : Trace → Prop
  | [] => True
  | op :: t => (∀ index ∈ op.index?, index < made) ∧ Follows (made + if op.isAlloc then 1 else 0) t

/-- What comes behind a part of a trace comes behind its allocations. -/
theorem follows_append :
    Follows made (before ++ after) ↔
      Follows made before ∧ Follows (made + before.countP isAlloc) after := by
  induction before generalizing made with
  | nil => simp [Follows]
  | cons op before ih =>
    rw [List.cons_append, Follows, Follows, ih, and_assoc, List.countP_cons, Nat.add_assoc,
      Nat.add_comm (List.countP isAlloc before)]

/-- Each operation may be looked at on its own, with what comes before it. -/
theorem follows_iff : Follows made t ↔
    ∀ before op after, t = before ++ op :: after →
      ∀ index ∈ op.index?, index < made + before.countP isAlloc := by
  constructor
  · rintro follows before op after rfl
    exact (follows_append.mp follows).2.1
  · intro all
    induction t generalizing made with
    | nil => trivial
    | cons op t ih =>
      refine ⟨all [] op t rfl, ih fun before op' after same index hi => ?_⟩
      have there := all (op :: before) op' after (congrArg (op :: ·) same) index hi
      rwa [List.countP_cons, Nat.add_comm (List.countP isAlloc before), ← Nat.add_assoc] at there

/-- At the beginning of a trace no allocation was made. -/
theorem backward_iff : Backward t ↔ Follows 0 t := by
  rw [follows_iff, Backward]
  simp only [Nat.zero_add, Nat.succ_le_iff]

/-- What refers to an earlier allocation refers to one that there is. -/
theorem Backward.earlier (backward : Backward t) (parted : t = before ++ op :: after)
    (refers : index ∈ op.index?) : ∃ i < before.length, t.allocation? index = some i := by
  have made := backward before op after parted index refers
  rw [← length_positions] at made
  obtain ⟨i, found⟩ : ∃ i, (positions isAlloc before)[index]? = some i :=
    ⟨_, List.getElem?_eq_getElem made⟩
  obtain ⟨first, _, rest, rfl, rfl, -⟩ := mem_positions.mp (List.mem_of_getElem? found)
  refine ⟨first.length, by simp, ?_⟩
  rw [allocation?, parted, positions_append, List.getElem?_append_left made, found]

/-- If renumbering keeps below the allocations made, all operations that are left still follow. -/
theorem Follows.filterMap_afterDropping {made' : Nat} (follows : Follows made t)
    (below : ∀ more ≤ t.countP isAlloc, ∀ index < made + more, index ≠ dropped →
      closeGap dropped index < made' + more) :
    Follows made' (t.filterMap (afterDropping dropped)) := by
  induction t generalizing made made' with
  | nil => trivial
  | cons op t ih =>
    obtain ⟨here, behind⟩ := follows
    rw [List.countP_cons] at below
    rw [List.filterMap_cons, afterDropping_eq]
    by_cases refers : op.index? = some dropped
    · -- the operation is left out, and made no allocation
      have no_alloc : op.isAlloc = false := by
        rw [Bool.eq_false_iff]
        intro is_alloc
        rw [index?_of_isAlloc is_alloc] at refers
        cases refers
      rw [if_neg (not_not.mpr refers)]
      rw [no_alloc] at behind below
      exact ih behind below
    · rw [if_pos refers]
      refine ⟨?_, ?_⟩
      · intro index hi
        rw [index?_reindex] at hi
        obtain ⟨index, referred, rfl⟩ := Option.map_eq_some_iff.mp hi
        exact below 0 (Nat.zero_le _) index (here index referred) fun same =>
          refers (same ▸ referred)
      · rw [isAlloc_reindex]
        apply ih behind
        intro more most index low other
        rw [Nat.add_assoc, Nat.add_comm _ more] at low ⊢
        exact below _ (Nat.add_le_add_right most _) index low other

/-- Dropping an allocation drops no other. -/
theorem countP_filterMap_afterDropping (dropped : Nat) (t : Trace) :
    (t.filterMap (afterDropping dropped)).countP isAlloc = t.countP isAlloc := by
  induction t with
  | nil => rfl
  | cons op t ih =>
    rw [List.filterMap_cons, afterDropping_eq, List.countP_cons]
    by_cases refers : op.index? = some dropped
    · cases op with
      | alloc size => cases refers
      | free | realloc => simpa [refers, isAlloc] using ih
    · rw [if_pos refers]
      simp only [List.countP_cons, isAlloc_reindex, ih]

/-- **A trace without one of its allocations refers to earlier ones if the trace did.** -/
theorem Backward.without {size : Nat} (backward : Backward (before ++ alloc size :: after)) :
    Backward ((before ++ after).filterMap (afterDropping (before.countP isAlloc))) := by
  rw [backward_iff, follows_append] at backward
  obtain ⟨first, -, behind⟩ := backward
  rw [backward_iff, List.filterMap_append, follows_append, countP_filterMap_afterDropping]
  constructor
  · -- before the allocation only smaller numbers are referred to
    apply first.filterMap_afterDropping
    intro more most index low _
    rw [closeGap, if_neg (by omega)]
    exact low
  · apply behind.filterMap_afterDropping
    intro more _ index low other
    simp only [isAlloc, if_true] at low
    unfold closeGap
    split <;> omega

/-- What a candidate for a smaller trace is. -/
theorem shrink_cases {candidate : Trace} (h : candidate ∈ shrink t) :
    (∃ rest, t = candidate ++ rest ∧ rest ≠ []) ∨
    (∃ before op after, t = before ++ op :: after ∧ op.isAlloc = false ∧
      candidate = before ++ after) ∨
    (∃ before size after, t = before ++ alloc size :: after ∧
      candidate = (before ++ after).filterMap (afterDropping (before.countP isAlloc))) ∨
    ∃ before size after, t = before ++ alloc size :: after ∧ size ≠ 0 ∧
      candidate = before ++ alloc (size / 2) :: after := by
  have erased (before : Trace) (op : Operation) (after : Trace) :
      (before ++ op :: after).eraseIdx before.length = before ++ after := by
    rw [List.eraseIdx_append_of_length_le (Nat.le_refl _), Nat.sub_self, List.eraseIdx_cons_zero]
  rw [shrink, List.mem_append, List.mem_append, List.mem_append] at h
  rcases h with ((beginning | other) | without) | half
  · obtain ⟨i, mem, rfl⟩ := List.mem_map.mp beginning
    refine .inl ⟨t.drop i, (List.take_append_drop i t).symm, fun nothing => ?_⟩
    exact absurd (List.drop_eq_nil_iff.mp nothing) (Nat.not_le.mpr (List.mem_range.mp mem))
  · obtain ⟨i, mem, rfl⟩ := List.mem_map.mp other
    obtain ⟨before, op, after, rfl, rfl, no_alloc⟩ := mem_positions.mp mem
    exact .inr (.inl ⟨before, op, after, rfl, by simpa using no_alloc, erased ..⟩)
  · obtain ⟨dropped, inside, rfl⟩ := List.mem_mapIdx.mp without
    obtain ⟨before, size, after, rfl, same, rfl⟩ :=
      allocation?_eq_some_iff.mp (List.getElem?_eq_getElem inside)
    refine .inr (.inr (.inl ⟨before, size, after, rfl, ?_⟩))
    rw [dropAlloc, ← same, erased]
  · obtain ⟨i, mem, halved⟩ := List.mem_filterMap.mp half
    obtain ⟨before, op, after, rfl, rfl, is_alloc⟩ := mem_positions.mp mem
    cases op with
    | alloc size =>
      rw [halveAlloc?, List.getElem?_append_right (Nat.le_refl _), Nat.sub_self] at halved
      simp only [List.getElem?_cons_zero] at halved
      split at halved
      next => cases halved
      next asks =>
        refine .inr (.inr (.inr ⟨before, size, after, rfl, asks, ?_⟩))
        rw [← Option.some.inj halved, List.set_append_right _ _ (Nat.le_refl _), Nat.sub_self,
          List.set_cons_zero]
    | free | realloc => cases is_alloc

/-- **The candidates for a smaller trace refer to earlier allocations if the trace does.** -/
theorem Backward.of_mem_shrink {candidate : Trace} (backward : Backward t)
    (h : candidate ∈ shrink t) : Backward candidate := by
  rcases shrink_cases h with ⟨rest, rfl, -⟩ | ⟨before, op, after, rfl, no_alloc, rfl⟩ |
    ⟨before, size, after, rfl, rfl⟩ | ⟨before, size, after, rfl, -, rfl⟩
  · rw [backward_iff, follows_append] at backward
    exact backward_iff.mpr backward.1
  · rw [backward_iff, follows_append, Follows, no_alloc] at backward
    rw [backward_iff, follows_append]
    exact ⟨backward.1, backward.2.2⟩
  · exact backward.without
  · rw [backward_iff, follows_append] at backward ⊢
    exact backward

/-- **Smaller traces refer to what the trace refers to.**  The candidate without an allocation
consists of all operations but that and those that refer to it, in their order, with other numbers
under which each refers to the allocation that it referred to before, or to none as before.  And if
all operations of a trace refer to allocations that were made before, then those of all candidates
do. -/
theorem shrink_references :
    (∀ (t : Trace) (dropped position : Nat), t.allocation? dropped = some position →
      ∃ candidate : Trace, ∃ number : Nat → Nat,
        (shrink t)[t.length + t.countP (!·.isAlloc) + dropped]? = some candidate ∧
        candidate = ((survivors t dropped position).filterMap (t[·]?)).map (reindex number) ∧
        ∀ index, index ≠ dropped →
          (candidate.allocation? (number index)).bind ((survivors t dropped position)[·]?)
            = t.allocation? index ∧
          (t.countP isAlloc ≤ index → candidate.countP isAlloc ≤ number index)) ∧
    ∀ t : Trace, Backward t → ∀ candidate ∈ shrink t, Backward candidate ∧
      ∀ before op after, candidate = before ++ op :: after → ∀ index ∈ op.index?,
        ∃ i < before.length, candidate.allocation? index = some i := by
  constructor
  · intro t dropped position found
    refine ⟨_, closeGap dropped, shrink_getElem? found, dropAlloc_eq t dropped position,
      fun index other => ?_⟩
    exact ⟨allocation?_dropAlloc found other, countP_dropAlloc_le found⟩
  · intro t backward candidate mem
    have backward' := backward.of_mem_shrink mem
    exact ⟨backward', fun before op after parted index refers => backward'.earlier parted refers⟩

/-- Without the second of three allocations the third is still the one that is freed. -/
theorem shrink_references_of_three_allocs :
    let t : Trace := [alloc 10, alloc 20, realloc 1 40, alloc 30, free 0, free 2, free 1]
    (∃ number : Nat → Nat,
      (shrink t)[12]? = some (List.map (reindex number) [alloc 10, alloc 30, free 0, free 2]) ∧
      (allocation? (List.map (reindex number) [alloc 10, alloc 30, free 0, free 2]) (number 2)).bind
        ([0, 3, 4, 5][·]?) = some 3) ∧
    ∀ candidate ∈ shrink t, Backward candidate := by
  intro t
  constructor
  · obtain ⟨candidate, number, there, rfl, same⟩ := shrink_references.1 t 1 1 rfl
    exact ⟨number, there, (same 2 (by decide)).1⟩
  · have backward : Backward t := by
      rw [backward_iff]
      simp [t, Follows, index?, isAlloc]
    exact fun candidate mem => (shrink_references.2 t backward candidate mem).1

end Trace

end TaggedHeap
