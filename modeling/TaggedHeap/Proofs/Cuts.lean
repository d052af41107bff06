import TaggedHeap.Proofs.NormalForm

/-!
# What a gap is cut into

Of a gap in which a block is allocated, what is left over is free if it can be a block, and else
goes with the allocated one.  `cutInto` says which blocks that makes, and the lemmas here that the
steps on a `Gap` make just these.

A layout is seen from the gap.  What is free there is `gapBetween` two offsets, whether there is a
free block or none, so that neither a block without a free one behind it nor a heap without a free
one at its end is a case of its own (`Contiguous.front_gap`, `Contiguous.end_gap`).
-/

namespace TaggedHeap

/-- The blocks that `length` bytes from `lo` on become when `size` of them are allocated at the
start. -/
def cutInto (lo length size : Nat) : List Extent :=
  if minBlockSize ≤ length - size then
    [⟨lo, size, true⟩, ⟨lo + size, length - size, false⟩]
  else [⟨lo, length, true⟩]

section

variable {a c f lo hi s size : Nat} {pre post es : List Extent} {shelves : Shelves} {e x : Extent}

/-! ## Layouts around a gap -/

/-- Some blocks that tile a range are a gap, and others of which the first is allocated. -/
theorem Contiguous.front_gap (tiles : Contiguous a es c) (coalesced : Coalesced es) :
    ∃ f post, es = gapBetween a (a + f) ++ post ∧ ∀ y ∈ post.head?, y.allocated = true := by
  have nothing : gapBetween a (a + 0) = [] := gapBetween_self a
  cases es with
  | nil => exact ⟨0, [], by rw [nothing]; rfl, fun y hy => by cases hy⟩
  | cons e es =>
    obtain ⟨rfl, regular, -⟩ := tiles
    cases taken : e.allocated with
    | true =>
      refine ⟨0, e :: es, by rw [nothing]; rfl, ?_⟩
      rintro _ ⟨⟩
      exact taken
    | false =>
      refine ⟨e.size, es, ?_, coalesced.next_taken taken⟩
      show e :: es = gapBetween e.block e.stop ++ es
      rw [gapBetween_of_free regular taken]
      rfl

/-- Some blocks that tile a range are ones of which the last is allocated, and a gap. -/
theorem Contiguous.end_gap (tiles : Contiguous a es c) (coalesced : Coalesced es) :
    ∃ pre s, es = pre ++ gapBetween s c ∧ s ≤ c ∧ ∀ x ∈ pre.getLast?, x.allocated = true := by
  rcases List.eq_nil_or_concat es with rfl | ⟨pre, t, rfl⟩
  · exact ⟨[], c, by rw [gapBetween_self]; rfl, Nat.le_refl _, fun x hx => by cases hx⟩
  rw [List.concat_eq_append] at tiles coalesced ⊢
  obtain ⟨-, regular, stop⟩ := contiguous_middle.mp tiles
  obtain rfl : t.stop = c := stop
  cases taken : t.allocated with
  | true =>
    refine ⟨pre ++ [t], t.stop, by rw [gapBetween_self, List.append_nil], Nat.le_refl _, ?_⟩
    rw [List.getLast?_concat]
    rintro _ ⟨⟩
    exact taken
  | false =>
    have last := ((coalesced_middle_free taken).mp coalesced).2.1
    exact ⟨pre, t.block, by rw [gapBetween_of_free regular taken], Nat.le_add_right .., last⟩

/-- What is free in front of blocks is determined by them. -/
theorem front_gap_unique {f' : Nat} {post' : List Extent}
    (same : gapBetween a (a + f) ++ post = gapBetween a (a + f') ++ post')
    (next : ∀ y ∈ post.head?, y.allocated = true)
    (next' : ∀ y ∈ post'.head?, y.allocated = true) : f = f' ∧ post = post' := by
  have some_room {f : Nat} (room : 0 < f) : gapBetween a (a + f) = [⟨a, f, false⟩] := by
    rw [gapBetween_of_lt (Nat.lt_add_of_pos_right room), Nat.add_sub_cancel_left]
  have no_room : gapBetween a (a + 0) = [] := gapBetween_self a
  rcases Nat.eq_zero_or_pos f with rfl | room <;> rcases Nat.eq_zero_or_pos f' with rfl | room'
  · rw [no_room] at same
    exact ⟨rfl, same⟩
  · rw [no_room, some_room room', List.nil_append] at same
    rw [same] at next
    cases next _ rfl
  · rw [no_room, some_room room, List.nil_append] at same
    rw [← same] at next'
    cases next' _ rfl
  · rw [some_room room, some_room room'] at same
    cases same
    exact ⟨rfl, rfl⟩

/-- What is free behind blocks is determined by them. -/
theorem end_gap_unique {s' : Nat} {pre' : List Extent}
    (same : pre ++ gapBetween s c = pre' ++ gapBetween s' c) (ordered : s ≤ c) (ordered' : s' ≤ c)
    (last : ∀ x ∈ pre.getLast?, x.allocated = true)
    (last' : ∀ x ∈ pre'.getLast?, x.allocated = true) : pre = pre' ∧ s = s' := by
  rcases Nat.eq_or_lt_of_le ordered with rfl | room <;>
    rcases Nat.eq_or_lt_of_le ordered' with rfl | room'
  · rw [gapBetween_self, List.append_nil, List.append_nil] at same
    exact ⟨same, rfl⟩
  · rw [gapBetween_self, gapBetween_of_lt room', List.append_nil] at same
    rw [same, List.getLast?_concat] at last
    cases last _ rfl
  · rw [gapBetween_self, gapBetween_of_lt room, List.append_nil] at same
    rw [← same, List.getLast?_concat] at last'
    cases last' _ rfl
  · rw [gapBetween_of_lt room, gapBetween_of_lt room'] at same
    obtain ⟨first, gap⟩ := List.append_inj' same rfl
    cases gap
    exact ⟨first, rfl⟩

/-- Behind a gap, the blocks start where it ends. -/
theorem Contiguous.behind_gap (tiles : Contiguous s (gapBetween s (s + f) ++ post) c) :
    Contiguous (s + f) post c := by
  rcases Nat.eq_zero_or_pos f with rfl | room
  · rwa [Nat.add_zero, gapBetween_self] at tiles
  · rw [gapBetween_of_lt (Nat.lt_add_of_pos_right room), Nat.add_sub_cancel_left] at tiles
    exact tiles.2.2

/-- No blocks tile no bytes. -/
theorem Contiguous.eq_nil (tiles : Contiguous a es a) : es = [] := by
  cases es with
  | nil => rfl
  | cons e es =>
    obtain ⟨rfl, regular, rest⟩ := tiles
    have room : 32 ≤ e.size := regular.room
    have stop := rest.le
    simp only [Extent.stop] at stop
    omega

namespace Gap

/-- A gap is joined with what is free behind it. -/
theorem joinNext_gap (next : ∀ y ∈ post.head?, y.allocated = true) :
    ∃ shelves', joinNext ⟨pre, lo, hi, gapBetween hi (hi + f) ++ post, shelves⟩
      = ⟨pre, lo, hi + f, post, shelves'⟩ := by
  rcases Nat.eq_zero_or_pos f with rfl | room
  · rw [Nat.add_zero, gapBetween_self, List.nil_append]
    exact ⟨shelves, joinNext_of_taken next⟩
  · rw [gapBetween_of_lt (Nat.lt_add_of_pos_right room), Nat.add_sub_cancel_left]
    exact ⟨_, joinNext_of_free rfl⟩

/-- A gap is joined with what is free before it. -/
theorem joinPrev_gap (last : ∀ x ∈ pre.getLast?, x.allocated = true) (ordered : s ≤ lo) :
    ∃ shelves', joinPrev ⟨pre ++ gapBetween s lo, lo, hi, post, shelves⟩
      = ⟨pre, s, hi, post, shelves'⟩ := by
  rcases Nat.eq_or_lt_of_le ordered with rfl | room
  · rw [gapBetween_self, List.append_nil]
    exact ⟨shelves, joinPrev_of_taken last⟩
  · rw [gapBetween_of_lt room]
    exact ⟨_, joinPrev_of_free rfl⟩

/-- What is left of a gap becomes free together with what is free behind it. -/
theorem extents_cut_of_splits (next : ∀ y ∈ post.head?, y.allocated = true)
    (splits : minBlockSize ≤ hi - lo - size) :
    (cut ⟨pre, lo, hi, gapBetween hi (hi + f) ++ post, shelves⟩ size).extents
      = pre ++ ⟨lo, size, true⟩ :: ⟨lo + size, hi + f - (lo + size), false⟩ :: post := by
  obtain ⟨shelves', joined⟩ : ∃ shelves',
      joinNext ⟨pre ++ [⟨lo, size, true⟩], lo + size, hi, gapBetween hi (hi + f) ++ post, shelves⟩
        = ⟨pre ++ [⟨lo, size, true⟩], lo + size, hi + f, post, shelves'⟩ := joinNext_gap next
  have last : ∀ x ∈ (pre ++ [(⟨lo, size, true⟩ : Extent)]).getLast?, x.allocated = true := by
    rw [List.getLast?_concat]
    rintro _ ⟨⟩
    rfl
  rw [cut_of_splits splits, reclaimed, joined, joinPrev_of_taken last]
  show pre ++ [_] ++ _ = _
  rw [List.append_assoc]
  rfl

/-- A gap is cut into two blocks, or into one. -/
theorem extents_cut (next : ∀ y ∈ post.head?, y.allocated = true) :
    (cut ⟨pre, lo, hi, post, shelves⟩ size).extents = pre ++ cutInto lo (hi - lo) size ++ post := by
  unfold cutInto
  by_cases splits : minBlockSize ≤ hi - lo - size
  · have cut_eq : (cut ⟨pre, lo, hi, gapBetween hi (hi + 0) ++ post, shelves⟩ size).extents = _ :=
      extents_cut_of_splits next splits
    rw [Nat.add_zero, gapBetween_self, List.nil_append] at cut_eq
    rw [cut_eq, if_pos splits, List.append_assoc, Nat.sub_sub]
    rfl
  · rw [cut_of_small splits, if_neg splits, List.append_assoc]
    rfl

end Gap

end

end TaggedHeap
