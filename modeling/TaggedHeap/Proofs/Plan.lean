import TaggedHeap.Proofs.Shelves

/-!
# Plans

What there is to a heap besides its bytes: which blocks it consists of, and in which order the lists
hold the free ones.  The steps of the arena have a counterpart here that knows nothing else, so what
they make of a heap depends on nothing else.

* `Plan` is a heap without bytes, and `Gap` is one in which some bytes belong to no block.
* `Gap.joinNext` and `Gap.joinPrev` widen a gap over a free neighbour, `Gap.merged` over both, and
  `Gap.freed` and `Gap.taken` make it one block.
* `Gap.reclaimed` is how what becomes free is merged and listed, and `Gap.cut` how a block of some
  size is allocated at the start of a gap.

That the arena does just this is said where its steps are proved to go through.
-/

namespace TaggedHeap

namespace Shelves

/-- A free extent is taken off the shelf of its class. -/
def unlist (shelves : Shelves) (e : Extent) : Shelves :=
  shelves.drop (SizeClass.of e.size) e.block

/-- A free extent is put on the shelf of its class. -/
def list (shelves : Shelves) (e : Extent) : Shelves :=
  shelves.push (SizeClass.of e.size) e.block

end Shelves

/-- The blocks of a heap and the order of its free ones. -/
structure Plan where
  /-- The blocks, one behind the other. -/
  extents : List Extent
  /-- The free ones, by class. -/
  shelves : Shelves

/-- The blocks of a heap but for a gap, which reaches from `lo` to `hi`. -/
structure Gap where
  /-- The blocks before the gap. -/
  pre : List Extent
  /-- The offset of the first byte. -/
  lo : Nat
  /-- One past the last byte. -/
  hi : Nat
  /-- The blocks behind the gap. -/
  post : List Extent
  /-- The free blocks on both sides, by class. -/
  shelves : Shelves

namespace Gap

/-- The number of bytes in the gap. -/
def length (g : Gap) : Nat := g.hi - g.lo

/-- The gap with `n` more bytes at its end. -/
def widen (g : Gap) (n : Nat) : Gap := { g with hi := g.hi + n }

/-- A free block behind the gap becomes a part of it. -/
def joinNext (g : Gap) : Gap :=
  match g.post with
  | [] => g
  | r :: post =>
    if r.allocated then g
    else { g with hi := r.stop, post, shelves := g.shelves.unlist r }

/-- A free block before the gap becomes a part of it. -/
def joinPrev (g : Gap) : Gap :=
  match g.pre.getLast? with
  | none => g
  | some l =>
    if l.allocated then g
    else { g with pre := g.pre.dropLast, lo := l.block, shelves := g.shelves.unlist l }

/-- The gap becomes one free block, which is listed. -/
def freed (g : Gap) : Plan :=
  ⟨g.pre ++ ⟨g.lo, g.length, false⟩ :: g.post, g.shelves.list ⟨g.lo, g.length, false⟩⟩

/-- The gap becomes one allocated block. -/
def taken (g : Gap) : Plan := ⟨g.pre ++ ⟨g.lo, g.length, true⟩ :: g.post, g.shelves⟩

/-- The gap with what is free on both sides. -/
def merged (g : Gap) : Gap := g.joinNext.joinPrev

/-- The gap becomes one free block together with its free neighbours. -/
def reclaimed (g : Gap) : Plan := g.joinNext.joinPrev.freed

/-- A block of `size` bytes is allocated at the start of the gap.  What is left becomes free if it
can be a block, and else is part of the allocated one. -/
def cut (g : Gap) (size : Nat) : Plan :=
  if minBlockSize ≤ g.length - size then
    reclaimed { g with pre := g.pre ++ [⟨g.lo, size, true⟩], lo := g.lo + size }
  else g.taken

section

variable {pre post : List Extent} {lo hi size : Nat} {shelves : Shelves} {l r : Extent}

/-- Before an allocated block, or the epilogue, there is nothing to join. -/
theorem joinNext_of_taken (next : ∀ y ∈ post.head?, y.allocated = true) :
    joinNext ⟨pre, lo, hi, post, shelves⟩ = ⟨pre, lo, hi, post, shelves⟩ := by
  cases post with
  | nil => rfl
  | cons r post => exact if_pos (next r rfl)

/-- Before a free block, that is joined. -/
theorem joinNext_of_free (free : r.allocated = false) :
    joinNext ⟨pre, lo, hi, r :: post, shelves⟩ = ⟨pre, lo, r.stop, post, shelves.unlist r⟩ :=
  if_neg (by rw [free]; exact Bool.false_ne_true)

/-- Behind an allocated block, or the padding, there is nothing to join. -/
theorem joinPrev_of_taken (last : ∀ x ∈ pre.getLast?, x.allocated = true) :
    joinPrev ⟨pre, lo, hi, post, shelves⟩ = ⟨pre, lo, hi, post, shelves⟩ := by
  unfold joinPrev
  cases h : pre.getLast? with
  | none => rfl
  | some l => exact if_pos (last l h)

/-- Behind a free block, that is joined. -/
theorem joinPrev_of_free (free : l.allocated = false) :
    joinPrev ⟨pre ++ [l], lo, hi, post, shelves⟩
      = ⟨pre, l.block, hi, post, shelves.unlist l⟩ := by
  unfold joinPrev
  simp only [List.getLast?_concat, List.dropLast_concat]
  exact if_neg (by rw [free]; exact Bool.false_ne_true)

/-- What is left of a gap is freed if it can be a block. -/
theorem cut_of_splits (splits : minBlockSize ≤ hi - lo - size) :
    cut ⟨pre, lo, hi, post, shelves⟩ size
      = reclaimed ⟨pre ++ [⟨lo, size, true⟩], lo + size, hi, post, shelves⟩ :=
  if_pos splits

/-- What is left of a gap stays with the allocated block if it is too little. -/
theorem cut_of_small (small : ¬ minBlockSize ≤ hi - lo - size) :
    cut ⟨pre, lo, hi, post, shelves⟩ size = ⟨pre ++ ⟨lo, hi - lo, true⟩ :: post, shelves⟩ :=
  if_neg small

/-- Between allocated blocks, a gap is freed as it is. -/
theorem reclaimed_of_taken (last : ∀ x ∈ pre.getLast?, x.allocated = true)
    (next : ∀ y ∈ post.head?, y.allocated = true) :
    reclaimed ⟨pre, lo, hi, post, shelves⟩ = freed ⟨pre, lo, hi, post, shelves⟩ := by
  rw [reclaimed, joinNext_of_taken next, joinPrev_of_taken last]

/-- What the first block behind a gap has to do with it: nothing, or it is free and becomes a part
of it. -/
theorem joinNext_cases (g : Gap) :
    ∃ hi post shelves, g.joinNext = { g with hi, post, shelves } ∧
      (hi = g.hi ∧ post = g.post ∨
        ∃ r, r.allocated = false ∧ g.post = r :: post ∧ hi = r.stop) := by
  obtain ⟨pre, lo, hi, post, shelves⟩ := g
  by_cases next : ∀ y ∈ post.head?, y.allocated = true
  · exact ⟨hi, post, shelves, joinNext_of_taken next, .inl ⟨rfl, rfl⟩⟩
  · cases post with
    | nil => exact absurd (fun y hy => by cases hy) next
    | cons r post =>
      have free : r.allocated = false := by simpa using next
      exact ⟨r.stop, post, shelves.unlist r, joinNext_of_free free, .inr ⟨r, free, rfl, rfl⟩⟩

/-- The same of the last block before it. -/
theorem joinPrev_cases (g : Gap) :
    ∃ pre lo shelves, g.joinPrev = { g with pre, lo, shelves } ∧
      (pre = g.pre ∧ lo = g.lo ∨ ∃ l, l.allocated = false ∧ g.pre = pre ++ [l] ∧ lo = l.block) := by
  obtain ⟨pre, lo, hi, post, shelves⟩ := g
  by_cases last : ∀ x ∈ pre.getLast?, x.allocated = true
  · exact ⟨pre, lo, shelves, joinPrev_of_taken last, .inl ⟨rfl, rfl⟩⟩
  · rcases List.eq_nil_or_concat pre with rfl | ⟨pre, l, rfl⟩
    · exact absurd (fun x hx => by cases hx) last
    · rw [List.concat_eq_append] at last ⊢
      have free : l.allocated = false := by simpa using last
      exact ⟨pre, l.block, shelves.unlist l, joinPrev_of_free free, .inr ⟨l, free, rfl, rfl⟩⟩

end

end Gap

end TaggedHeap
