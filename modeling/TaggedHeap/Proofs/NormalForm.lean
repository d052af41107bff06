import Mathlib.Data.List.Sort
import TaggedHeap.Proofs.Sound

/-!
# The normal form of a layout

Where no two free blocks touch, the free blocks say nothing that the allocated ones do not say
already.

* `withGaps start taken stop` is the layout that some allocated blocks have between two offsets:
  each gap between them is one free block.  `Contiguous.eq_withGaps` says that every coalesced
  layout is of this form, so that it can be told from its allocated blocks alone.
* `MaximalGap` says the same of a single gap and without recursion, and
  `Contiguous.mem_iff_maximalGap` that the free blocks are just these.
* `Contiguous.taken_eq` says that of the allocated blocks only the set matters, as their order is
  that of their offsets.
* `withGaps_widen` is what becomes of a layout when its end moves.

All of this is about lists of extents, and none of it about memory.
-/

namespace TaggedHeap

/-- The free block between two offsets, if there is room for one. -/
def gapBetween (lo hi : Nat) : List Extent := if lo < hi then [⟨lo, hi - lo, false⟩] else []

/-- Blocks from one offset to another, with a free one in each gap. -/
def withGaps (start : Nat) : List Extent → (stop : Nat) → List Extent
  | [], stop => gapBetween start stop
  | e :: es, stop => gapBetween start e.block ++ e :: withGaps e.stop es stop

/-- From `s` to `t` there is room between some blocks, and none of it is left out: on either side is
one of the blocks, or an end of the range. -/
structure MaximalGap (taken : List Extent) (lo hi s t : Nat) : Prop where
  /-- There is some room. -/
  room : s < t
  /-- It starts at the low end of the range or behind a block. -/
  front : s = lo ∨ ∃ x ∈ taken, x.stop = s
  /-- It ends at the high end of the range or before a block. -/
  back : t = hi ∨ ∃ x ∈ taken, x.block = t
  /-- No block reaches into it. -/
  clear : ∀ x ∈ taken, x.stop ≤ s ∨ t ≤ x.block

/-- The free block at the end of some blocks has `growth` bytes more, or there is one of that size
if there was none. -/
def enlarged (stop growth : Nat) : List Extent → List Extent
  | [] => [⟨stop, growth, false⟩]
  | [e] => if e.allocated then [e, ⟨stop, growth, false⟩] else [⟨e.block, e.size + growth, false⟩]
  | e :: x :: es => e :: enlarged stop growth (x :: es)

section Lists

variable {a c lo hi s t growth : Nat} {es es' : List Extent} {e x y : Extent}

/-- There is no free block where there is no room. -/
theorem gapBetween_self (lo : Nat) : gapBetween lo lo = [] := if_neg (Nat.lt_irrefl lo)

/-- The free block where there is room. -/
theorem gapBetween_of_lt (room : lo < hi) : gapBetween lo hi = [⟨lo, hi - lo, false⟩] := if_pos room

/-- A free extent fills the gap that it leaves. -/
theorem gapBetween_of_free (regular : e.Regular) (free : e.allocated = false) :
    gapBetween e.block e.stop = [e] := by
  have room : 32 ≤ e.size := regular.room
  obtain ⟨block, size, allocated⟩ := e
  obtain rfl : allocated = false := free
  rw [gapBetween_of_lt (by simp only [Extent.stop] at room ⊢; omega)]
  simp only [Extent.stop, Nat.add_sub_cancel_left]

/-! ## Layouts are in normal form -/

/-- The first one of some coalesced extents is free, and the next one, if there is one, is not. -/
theorem Coalesced.next_taken (coalesced : Coalesced (e :: es)) (free : e.allocated = false) :
    ∀ y ∈ es.head?, y.allocated = true := by
  intro y hy
  refine ((List.isChain_cons.mp coalesced).1 y hy).resolve_left ?_
  rw [free]
  exact Bool.false_ne_true

/-- **A coalesced layout is told from its allocated blocks.** -/
theorem Contiguous.eq_withGaps (tiles : Contiguous a es c) (coalesced : Coalesced es) :
    es = withGaps a (es.filter (·.allocated)) c := by
  induction es generalizing a with
  | nil =>
    obtain rfl : a = c := tiles
    exact (gapBetween_self a).symm
  | cons e es ih =>
    obtain ⟨rfl, regular, rest⟩ := tiles
    have here := ih rest (List.isChain_cons.mp coalesced).2
    cases taken : e.allocated with
    | true =>
      rw [List.filter_cons_of_pos taken, withGaps, gapBetween_self, List.nil_append, ← here]
    | false =>
      rw [List.filter_cons_of_neg (by rw [taken]; exact Bool.false_ne_true)]
      -- What follows a free block starts with an allocated one, so the gap before that is the
      -- block.
      cases es with
      | nil =>
        obtain rfl : e.stop = c := rest
        exact (gapBetween_of_free regular taken).symm
      | cons y es =>
        have next : y.allocated = true := coalesced.next_taken taken y rfl
        obtain ⟨start, -, -⟩ := rest
        rw [List.filter_cons_of_pos next, withGaps] at here ⊢
        rw [start, gapBetween_self, List.nil_append] at here
        rw [start, gapBetween_of_free regular taken, ← here]
        rfl

/-- Contiguous extents are in the order of their offsets. -/
theorem Contiguous.sorted (tiles : Contiguous a es c) :
    es.Pairwise fun x y => x.block < y.block := by
  induction es generalizing a with
  | nil => exact .nil
  | cons e es ih =>
    obtain ⟨rfl, regular, rest⟩ := tiles
    refine List.pairwise_cons.mpr ⟨fun y hy => ?_, ih rest⟩
    have room := regular.room
    have start := (rest.bounds hy).start
    simp only [Extent.stop, minBlockSize] at room start
    omega

/-- **Of the allocated blocks of a layout only the set matters.** -/
theorem Contiguous.taken_eq {a' c' : Nat} (tiles : Contiguous a es c)
    (tiles' : Contiguous a' es' c') (same : ∀ x, Live es x ↔ Live es' x) :
    es.filter (·.allocated) = es'.filter (·.allocated) := by
  have : Std.Irrefl fun x y : Extent => x.block < y.block := ⟨fun x => Nat.lt_irrefl x.block⟩
  have : Std.Antisymm fun x y : Extent => x.block < y.block :=
    ⟨fun x y less more => absurd less (Nat.lt_asymm more)⟩
  refine (tiles.sorted.filter _).eq_of_mem_iff (tiles'.sorted.filter _) fun {x} => ?_
  rw [List.mem_filter, List.mem_filter]
  exact same x

/-! ## Free blocks are maximal gaps -/

/-- Between two offsets at the first of which a block ends, another one starts. -/
theorem Contiguous.exists_block (tiles : Contiguous a es c) (front : s = a ∨ ∃ x ∈ es, x.stop = s)
    (before : s < c) : ∃ e ∈ es, e.block = s := by
  rcases front with rfl | ⟨x, hx, rfl⟩
  · cases es with
    | nil =>
      obtain rfl : s = c := tiles
      exact absurd before (Nat.lt_irrefl s)
    | cons e es => exact ⟨e, List.mem_cons_self, tiles.1⟩
  · obtain ⟨pre, post, rfl⟩ := List.append_of_mem hx
    obtain ⟨-, -, behind⟩ := contiguous_middle.mp tiles
    cases post with
    | nil =>
      obtain rfl : x.stop = c := behind
      exact absurd before (Nat.lt_irrefl _)
    | cons e post => exact ⟨e, by simp, behind.1⟩

/-- What lies on either side of a free block of a coalesced layout. -/
theorem Contiguous.around_free (tiles : Contiguous a es c) (coalesced : Coalesced es) (he : e ∈ es)
    (free : e.allocated = false) :
    (e.block = a ∨ ∃ x, Live es x ∧ x.stop = e.block) ∧
      (e.stop = c ∨ ∃ x, Live es x ∧ x.block = e.stop) := by
  obtain ⟨pre, post, rfl⟩ := List.append_of_mem he
  obtain ⟨before, -, behind⟩ := contiguous_middle.mp tiles
  constructor
  · rcases List.eq_nil_or_concat pre with rfl | ⟨front, x, rfl⟩
    · exact .inl (Eq.symm before)
    · right
      rw [List.concat_eq_append] at before coalesced ⊢
      rw [List.append_assoc] at coalesced
      have seam := List.isChain_iff_forall_rel_of_append_cons_cons.mp coalesced
        (show front ++ ([x] ++ e :: post) = front ++ x :: e :: post from rfl)
      exact ⟨x, ⟨by simp, seam.resolve_right (by rw [free]; exact Bool.false_ne_true)⟩,
        (contiguous_middle.mp before).2.2⟩
  · cases post with
    | nil => exact .inl behind
    | cons y post =>
      have seam := List.isChain_iff_forall_rel_of_append_cons_cons.mp coalesced
        (rfl : pre ++ e :: y :: post = pre ++ e :: y :: post)
      exact .inr ⟨y, ⟨by simp, seam.resolve_left (by rw [free]; exact Bool.false_ne_true)⟩,
        behind.1⟩

/-- **The free blocks of a coalesced layout are its maximal gaps.** -/
theorem Contiguous.mem_iff_maximalGap (tiles : Contiguous a es c) (coalesced : Coalesced es) :
    (∃ e ∈ es, e.allocated = false ∧ e.block = s ∧ e.stop = t) ↔
      MaximalGap (es.filter (·.allocated)) a c s t := by
  have live : ∀ x, x ∈ es.filter (·.allocated) ↔ Live es x := fun x => List.mem_filter
  constructor
  · rintro ⟨e, he, free, rfl, rfl⟩
    have room := (tiles.bounds he).room
    obtain ⟨front, back⟩ := tiles.around_free coalesced he free
    refine ⟨by simp only [Extent.stop, minBlockSize] at room ⊢; omega, ?_, ?_, ?_⟩
    · simpa only [live] using front
    · simpa only [live] using back
    · intro x hx
      obtain ⟨hx, taken⟩ := (live x).mp hx
      rcases tiles.apart hx he with rfl | before | behind
      · rw [free] at taken
        cases taken
      · exact .inl before
      · exact .inr behind
  · rintro ⟨room, front, back, clear⟩
    simp only [live] at front back clear
    have before : s < c := by
      rcases back with rfl | ⟨x, hx, rfl⟩
      · exact room
      · have stop := (tiles.bounds hx.1).stop
        omega
    obtain ⟨e, he, rfl⟩ := tiles.exists_block
      (front.imp id fun ⟨x, hx, stop⟩ => ⟨x, hx.1, stop⟩) before
    have large := (tiles.bounds he).room
    simp only [Extent.stop, minBlockSize] at clear large ⊢
    have free : e.allocated = false := by
      by_contra taken
      have overlap := clear e ⟨he, Bool.not_eq_false _ ▸ taken⟩
      omega
    refine ⟨e, he, free, rfl, ?_⟩
    -- The block can neither end before the gap does nor behind it.
    have stop := (tiles.bounds he).stop
    obtain ⟨-, behind⟩ := tiles.around_free coalesced he free
    simp only [Extent.stop] at behind
    apply Nat.le_antisymm
    · rcases back with rfl | ⟨x, hx, rfl⟩
      · exact stop
      · have room_x := (tiles.bounds hx.1).room
        rcases tiles.apart he hx.1 with rfl | first | last
        · omega
        · exact first
        · simp only [Extent.stop, minBlockSize] at last room_x
          omega
    · rcases behind with reached | ⟨x, hx, start⟩
      · rcases back with rfl | ⟨x, hx, rfl⟩
        · omega
        · have room_x := (tiles.bounds hx.1).room
          have stop_x := (tiles.bounds hx.1).stop
          omega
      · have room_x := (tiles.bounds hx.1).room
        have overlap := clear x hx
        simp only [minBlockSize] at room_x
        omega

/-! ## Moving the end -/

/-- **When its end moves, a coalesced layout gets all of the new room at its end.** -/
theorem withGaps_widen (tiles : Contiguous a es c) (coalesced : Coalesced es) (more : 0 < growth) :
    withGaps a (es.filter (·.allocated)) (c + growth) = enlarged c growth es := by
  induction es generalizing a with
  | nil =>
    obtain rfl : a = c := tiles
    rw [List.filter_nil, withGaps, gapBetween_of_lt (by omega), Nat.add_sub_cancel_left]
    rfl
  | cons e es ih =>
    obtain ⟨rfl, regular, rest⟩ := tiles
    have here := ih rest (List.isChain_cons.mp coalesced).2
    have room : 32 ≤ e.size := regular.room
    cases taken : e.allocated with
    | true =>
      rw [List.filter_cons_of_pos taken, withGaps, gapBetween_self, List.nil_append, here]
      cases es with
      | nil => exact (if_pos taken).symm
      | cons y es => rfl
    | false =>
      rw [List.filter_cons_of_neg (by rw [taken]; exact Bool.false_ne_true)]
      cases es with
      | nil =>
        obtain rfl : e.stop = c := rest
        rw [List.filter_nil, withGaps, gapBetween_of_lt (by simp only [Extent.stop]; omega),
          enlarged, if_neg (by rw [taken]; exact Bool.false_ne_true)]
        simp only [Extent.stop, Nat.add_assoc, Nat.add_sub_cancel_left]
      | cons y es =>
        have next : y.allocated = true := coalesced.next_taken taken y rfl
        obtain ⟨start, -, -⟩ := rest
        rw [List.filter_cons_of_pos next, withGaps] at here ⊢
        rw [start, gapBetween_self, List.nil_append] at here
        rw [start, gapBetween_of_free regular taken, here]
        rfl

end Lists

end TaggedHeap
