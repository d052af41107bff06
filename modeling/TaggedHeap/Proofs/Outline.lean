import TaggedHeap.Allocator.Setup
import TaggedHeap.Proofs.Growth
import TaggedHeap.Proofs.Search

/-!
# Outlines

What there is to an allocator besides the bytes of its heap.  An `Outline` is a plan of the heap
together with the start set and the `Terms`: what the source is and how large, and the settings that
placing depends on.  Whether the allocator makes self-checks is not among them.

Every request has a counterpart here, which computes the new outline and what is answered.  It looks
at no byte, for there are none.  That the allocator answers the same, and shows the new outline
afterwards, is what the lemmas on requests say; so the outline is all that an answer depends on.
The one thing that it does not tell is which of two reasons a pointer to no live payload is refused
for.
-/

namespace TaggedHeap

/-! ## Blocks by their offset -/

/-- One of some extents, and those before and behind it. -/
structure Spot where
  /-- Those before it. -/
  pre : List Extent
  /-- The one. -/
  extent : Extent
  /-- Those behind it. -/
  post : List Extent

/-- The gap that a block leaves. -/
def Spot.gap (s : Spot) (shelves : Shelves) : Gap :=
  ⟨s.pre, s.extent.block, s.extent.stop, s.post, shelves⟩

/-- The first of some extents that starts at an offset. -/
def spotAt (block : Nat) : List Extent → Option Spot
  | [] => none
  | e :: es =>
    if e.block = block then some ⟨[], e, es⟩
    else (spotAt block es).map fun s => { s with pre := e :: s.pre }

section Spots

variable {a c block : Nat} {pre post es : List Extent} {e : Extent}

/-- An extent is found where it starts, if none before it starts there. -/
theorem spotAt_middle (other : ∀ x ∈ pre, x.block ≠ e.block) :
    spotAt e.block (pre ++ e :: post) = some ⟨pre, e, post⟩ := by
  induction pre with
  | nil => exact if_pos rfl
  | cons x pre ih =>
    rw [List.cons_append, spotAt, if_neg (other x List.mem_cons_self),
      ih fun y hy => other y (List.mem_cons_of_mem _ hy)]
    rfl

/-- What is found is an extent with those around it, and starts where it should. -/
theorem split_of_spotAt {s : Spot} (found : spotAt block es = some s) :
    es = s.pre ++ s.extent :: s.post ∧ s.extent.block = block := by
  induction es generalizing s with
  | nil => cases found
  | cons e es ih =>
    rw [spotAt] at found
    split at found
    next here =>
      cases found
      exact ⟨rfl, here⟩
    next =>
      obtain ⟨s', found', rfl⟩ := Option.map_eq_some_iff.mp found
      obtain ⟨split, start⟩ := ih found'
      exact ⟨congrArg (e :: ·) split, start⟩

/-- An extent of contiguous ones is found where it starts. -/
theorem Contiguous.spotAt (tiles : Contiguous a (pre ++ e :: post) c) :
    spotAt e.block (pre ++ e :: post) = some ⟨pre, e, post⟩ := by
  apply spotAt_middle
  intro x hx same
  obtain ⟨before, regular, -⟩ := contiguous_middle.mp tiles
  have stop := (before.bounds hx).stop
  have room := (before.bounds hx).room
  simp only [minBlockSize] at room
  omega

/-- Contiguous extents are split around one of them in one way only. -/
theorem Contiguous.split_unique {pre' post' : List Extent} {x : Extent}
    (tiles : Contiguous a (pre ++ e :: post) c) (same : pre ++ e :: post = pre' ++ x :: post')
    (start : e.block = x.block) : pre = pre' ∧ e = x ∧ post = post' := by
  have found := tiles.spotAt
  rw [same] at tiles found
  rw [start, tiles.spotAt] at found
  cases found
  exact ⟨rfl, rfl, rfl⟩

end Spots

/-! ## Terms -/

/-- What an allocator goes by besides its heap. -/
structure Terms where
  /-- Where its source gets room from. -/
  kind : SourceKind
  /-- The most bytes that the source will hold. -/
  cap : Nat
  /-- The bytes that it holds. -/
  size : Nat
  /-- The heap grows by this many bytes at least. -/
  chunk : Nat
  /-- How a block is chosen. -/
  fit : FitPolicy

namespace Terms

/-- Whether the source accepts to grow by `n` bytes. -/
def accepts (t : Terms) (n : Nat) : Bool :=
  t.size + n < wordBound && t.size + n ≤ t.cap && (t.kind == .reservation || n < bufferRoom)

/-- The source grows by `n` bytes. -/
def grow (t : Terms) (n : Nat) : Except Refusal Terms :=
  if t.accepts n then .ok { t with size := t.size + n } else .error (.outOfMemory n)

/-- By how much to grow when `missing` bytes are needed. -/
def growth (t : Terms) (missing : Nat) : Except Refusal Nat := wholeUnits (max missing t.chunk)

end Terms

/-! ## Outlines and their steps -/

/-- An allocator without the bytes of its heap. -/
structure Outline extends Plan, Terms where
  /-- The allocated blocks. -/
  starts : StartSet

/-- An empty heap over all that the source holds, which grows if that is too little. -/
def Terms.init (t : Terms) : Except Refusal Outline := do
  let size ← Allocator.setUpSize t.size
  let t ← if t.size < size then t.grow (size - t.size) else .ok t
  return { toTerms := t, extents := blank size, shelves := blankShelves size, starts := .empty }

namespace Outline

/-- The size of the block at an offset. -/
def sizeOf (o : Outline) (block : Nat) : Nat :=
  ((spotAt block o.extents).map (·.extent.size)).getD 0

/-- The free block that a search for `size` bytes finds. -/
def find (o : Outline) (size : Nat) : Option Nat :=
  (SizeClass.of size).upFrom.findSome? fun c => scan o.fit size o.sizeOf (o.shelves c) none

/-- The gap that the end of the heap leaves when it grows so far that `size` bytes fit. -/
def openEnd (o : Outline) (size : Nat) : Except Refusal (Gap × Terms) := do
  let stop := o.size - wordSize
  let gap := Gap.joinPrev ⟨o.extents, stop, stop, [], o.shelves⟩
  let growth ← o.growth (size - gap.length)
  let terms ← o.grow growth
  return (gap.widen growth, terms)

/-- A gap of at least `size` bytes: that of a free block, or if none is large enough, one at the
end. -/
def openSpace (o : Outline) (size : Nat) : Except Refusal (Gap × Terms) :=
  match (o.find size).bind (spotAt · o.extents) with
  | some s => .ok (s.gap (o.shelves.unlist s.extent), o.toTerms)
  | none => o.openEnd size

/-- A block of `size` bytes is allocated. -/
def allocateBlock (o : Outline) (size : Nat) : Except Refusal (Nat × Outline) := do
  let (gap, terms) ← o.openSpace size
  return (payloadOf gap.lo, ⟨gap.cut size, terms, o.starts.insert gap.lo⟩)

/-- An allocated block is freed. -/
def release (o : Outline) (s : Spot) : Outline :=
  { o with toPlan := (s.gap o.shelves).reclaimed, starts := o.starts.remove s.extent.block }

/-- An allocated block is made larger where it is, if there is room. -/
def stretch (o : Outline) (s : Spot) (size : Nat) : Except Refusal (Option Outline) := do
  let gap := (s.gap o.shelves).joinNext
  if size ≤ gap.length then return some { o with toPlan := gap.cut size }
  if gap.hi ≠ o.size - wordSize then return none
  let growth ← o.growth (size - gap.length)
  match o.grow growth with
  | .error _ => return none
  | .ok terms => return some { o with toPlan := (gap.widen growth).cut size, toTerms := terms }

/-- An allocated block is moved into a new one of `size` bytes. -/
def move (o : Outline) (block size : Nat) : Except Refusal (Nat × Outline) := do
  let (target, o) ← o.allocateBlock size
  return (target, ((spotAt block o.extents).map o.release).getD o)

/-- An allocated block is resized to `size` bytes. -/
def resize (o : Outline) (s : Spot) (size : Nat) : Except Refusal (Nat × Outline) := do
  if size ≤ s.extent.size then
    return (payloadOf s.extent.block, { o with toPlan := (s.gap o.shelves).cut size })
  match ← o.stretch s size with
  | some o => return (payloadOf s.extent.block, o)
  | none => o.move s.extent.block size

/-! ## Requests -/

/-- The block of a payload, if that is a live one. -/
def locate (o : Outline) (p : Nat) : Except Refusal Spot :=
  match spotAt (p - wordSize) o.extents with
  | some s =>
    if s.extent.allocated ∧ payloadOf s.extent.block = p then .ok s else .error (.invalidPointer p)
  | none => .error (.invalidPointer p)

/-- A payload is handed out. -/
def alloc (o : Outline) (n : Nat) : Except Refusal (Option Nat × Outline) := do
  if n = 0 then return (none, o)
  let size ← blockSizeFor n
  let (payload, o) ← o.allocateBlock size
  return (some payload, o)

/-- A payload of zeros is handed out. -/
def calloc (o : Outline) (n size : Nat) : Except Refusal (Option Nat × Outline) :=
  if wordBound ≤ n * size then .error .sizeOverflow else o.alloc (n * size)

/-- A payload is taken back. -/
def free (o : Outline) : (payload : Option Nat) → Except Refusal Outline
  | none => .ok o
  | some p => do
    let s ← o.locate p
    return o.release s

/-- A payload is resized. -/
def realloc (o : Outline) (payload : Option Nat) (n : Nat) :
    Except Refusal (Option Nat × Outline) :=
  match payload with
  | none => o.alloc n
  | some p => do
    if n = 0 then return (none, ← o.free (some p))
    let s ← o.locate p
    let size ← blockSizeFor n
    let (q, o) ← o.resize s size
    return (some q, o)

/-- A pointer to no live payload is refused as one that never was: an outline does not tell it from
one that was taken back. -/
theorem locate_dead {o : Outline} {p : Nat} (dead : ∀ e, Live o.extents e → payloadOf e.block ≠ p) :
    o.locate p = .error (.invalidPointer p) := by
  unfold locate
  split
  next s found =>
    obtain ⟨split, -⟩ := split_of_spotAt found
    refine if_neg ?_
    rintro ⟨taken, same⟩
    exact dead s.extent ⟨by simp [split], taken⟩ same
  next => rfl

end Outline

end TaggedHeap
