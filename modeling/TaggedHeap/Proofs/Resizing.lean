import TaggedHeap.Proofs.Supply
import TaggedHeap.Proofs.Scarcity

/-!
# How a reallocation ends

A live block is cut where it is if it is large enough.  If not, it is stretched over the free block
behind it, and at the end of the heap over what that grows by.  If that is not possible either, it
is moved.

* `Outline.stretch_eq` says which of these it is, and how far the block is stretched.
* `realloc_planned` takes over to the allocator what is done in place, and `realloc_moves` compares
  a move to an allocation in the same state.  Both allocate a block by the same step, so they end
  alike, and on a hardened heap they stop at the same block.
* `alloc_without_growth` says what is left for a move to succeed with when the source did not grow:
  it asks for no less.
* `realloc_exact` puts these together, for every heap that passes an audit.
-/

namespace TaggedHeap

open Memory

/-- The gap that a block leaves with what is free behind it. -/
theorem Spot.joinNext_gap {post : List Extent} (pre : List Extent) (e : Extent) (f : Nat)
    (shelves : Shelves) (next : ∀ y ∈ post.head?, y.allocated = true) :
    ∃ shelves', (Spot.gap ⟨pre, e, gapBetween e.stop (e.stop + f) ++ post⟩ shelves).joinNext
        = ⟨pre, e.block, e.stop + f, post, shelves'⟩ ∧
      Gap.length ⟨pre, e.block, e.stop + f, post, shelves'⟩ = e.size + f := by
  obtain ⟨shelves', joined⟩ : ∃ shelves',
      (Spot.gap ⟨pre, e, gapBetween e.stop (e.stop + f) ++ post⟩ shelves).joinNext
        = ⟨pre, e.block, e.stop + f, post, shelves'⟩ := Gap.joinNext_gap next
  refine ⟨shelves', joined, ?_⟩
  simp only [Gap.length, Extent.stop]
  omega

namespace Outline

variable {o : Outline} {pre post : List Extent} {e : Extent} {f size : Nat}

/-- **How far a block is stretched:** over the free block behind it, and at the end of the heap over
what that grows by, if it does. -/
theorem stretch_spec (next : ∀ y ∈ post.head?, y.allocated = true) :
    ∃ shelves',
      (size ≤ e.size + f → o.stretch ⟨pre, e, gapBetween e.stop (e.stop + f) ++ post⟩ size
        = .ok (some { o with toPlan := Gap.cut ⟨pre, e.block, e.stop + f, post, shelves'⟩ size })) ∧
      (e.size + f < size → e.stop + f ≠ o.size - wordSize →
        o.stretch ⟨pre, e, gapBetween e.stop (e.stop + f) ++ post⟩ size = .ok none) ∧
      ∀ inc, e.size + f < size → e.stop + f = o.size - wordSize →
        o.growth (size - (e.size + f)) = .ok inc →
        (∀ error, o.grow inc = .error error →
          o.stretch ⟨pre, e, gapBetween e.stop (e.stop + f) ++ post⟩ size = .ok none) ∧
        ∀ terms, o.grow inc = .ok terms →
          o.stretch ⟨pre, e, gapBetween e.stop (e.stop + f) ++ post⟩ size = .ok (some
            ⟨Gap.cut ⟨pre, e.block, e.stop + f + inc, post, shelves'⟩ size, terms, o.starts⟩) := by
  obtain ⟨shelves', joined, length⟩ := Spot.joinNext_gap pre e f o.shelves next
  refine ⟨shelves', ?_⟩
  unfold Outline.stretch
  simp only [joined, length]
  refine ⟨fun fits => if_pos fits, fun short inner => ?_, fun inc short last planned => ?_⟩
  · rw [if_neg (Nat.not_le.mpr short), if_pos inner]
    rfl
  · rw [if_neg (Nat.not_le.mpr short), if_neg (not_not.mpr last), planned]
    refine ⟨fun error refused => ?_, fun terms grown => ?_⟩
    · rw [ok_bind, refused]
      rfl
    · rw [ok_bind, grown]
      rfl

end Outline

namespace Allocator

variable {a b : Allocator} {pre post : List Extent} {e x : Extent} {stats : Stats} {o o' : Outline}
  {f inc n p q size : Nat} {filled : Extent → Prop}

/-! ## In place -/

/-- **What is planned for a block is done,** unless it is to be moved. -/
theorem realloc_planned (fills : ∀ x, filled x → a.hardened = true) (shows : a.Shows o filled)
    (split : o.extents = pre ++ e :: post) (taken : e.allocated = true) (pos : n ≠ 0)
    (hsize : blockSizeFor n = .ok size) (planned : o.resize ⟨pre, e, post⟩ size = .ok (q, o'))
    (stays : size ≤ e.size ∨ o.stretch ⟨pre, e, post⟩ size ≠ .ok none) :
    ∃ b, (realloc (some (payloadOf e.block)) n).outcome a = .ok (some q) b ∧ b.Shows o' filled := by
  have live : Live o.extents e := ⟨by simp [split], taken⟩
  rw [realloc_eq shows.sound live pos hsize]
  rcases resize_or_stops fills shows split taken hsize with ⟨error, -, refused, -⟩ |
    ⟨e', b, o'', planned', resized, shows', -⟩ | ⟨x, small, moves, -⟩
  · rw [planned] at refused
    cases refused
  · rw [planned, Except.ok.injEq, Prod.mk.injEq] at planned'
    obtain ⟨rfl, rfl⟩ := planned'
    refine ⟨b, ?_, shows'⟩
    rw [resized, Outcome.bind_ok, shows'.sound.verify]
    rfl
  · rcases stays with fits | stretched
    · exact absurd small (Nat.not_lt.mpr fits)
    · exact absurd moves stretched

/-- A block that is large enough is cut where it is. -/
theorem realloc_cuts (fills : ∀ x, filled x → a.hardened = true) (shows : a.Shows o filled)
    (split : o.extents = pre ++ e :: post) (taken : e.allocated = true) (pos : n ≠ 0)
    (hsize : blockSizeFor n = .ok size) (fits : size ≤ e.size) :
    ∃ b, (realloc (some (payloadOf e.block)) n).outcome a = .ok (some (payloadOf e.block)) b ∧
      b.Shows { o with toPlan := Gap.cut ⟨pre, e.block, e.stop, post, o.shelves⟩ size } filled := by
  refine realloc_planned fills shows split taken pos hsize ?_ (.inl fits)
  unfold Outline.resize
  rw [if_pos fits]
  rfl

/-- A block that can be stretched is. -/
theorem realloc_stretches (fills : ∀ x, filled x → a.hardened = true) (shows : a.Shows o filled)
    (split : o.extents = pre ++ e :: post) (taken : e.allocated = true) (pos : n ≠ 0)
    (hsize : blockSizeFor n = .ok size) (short : e.size < size)
    (planned : o.stretch ⟨pre, e, post⟩ size = .ok (some o')) :
    ∃ b, (realloc (some (payloadOf e.block)) n).outcome a = .ok (some (payloadOf e.block)) b ∧
      b.Shows o' filled := by
  refine realloc_planned fills shows split taken pos hsize ?_ (.inr ?_)
  · unfold Outline.resize
    rw [if_neg (Nat.not_le.mpr short), planned]
    rfl
  · rw [planned]
    exact fun h => by cases h

/-! ## Moving -/

/-- A reallocation of the payload `p` ends as an allocation does, from `a`: with the same payload
and a heap of the same size, where `p` is live no longer, or with the same refusal, or it stops at
the same block. -/
def EndsAlike (a : Allocator) (p : Nat) :
    (allocation reallocation : Outcome Allocator (Option Nat)) → Prop
  | .ok q b, .ok q' c => q' = q ∧ c.high = b.high ∧ ∀ r, r ∈ c.payloads ↔ r ∈ b.payloads ∧ r ≠ p
  | .refused error b, .refused error' c => error' = error ∧ b = a ∧ c = a
  | .fault stop, .fault stop' => stop' = stop
  | _, _ => False

/-- **A move ends as an allocation in the same state.** -/
theorem realloc_moves (fills : ∀ x, filled x → a.hardened = true) (shows : a.Shows o filled)
    (split : o.extents = pre ++ e :: post) (taken : e.allocated = true) (pos : n ≠ 0)
    (hsize : blockSizeFor n = .ok size) (short : e.size < size)
    (planned : o.stretch ⟨pre, e, post⟩ size = .ok none) :
    EndsAlike a (payloadOf e.block) ((alloc n).outcome a)
      ((realloc (some (payloadOf e.block)) n).outcome a) := by
  have live : Live o.extents e := ⟨by simp [split], taken⟩
  obtain ⟨-, large, units⟩ := of_blockSizeFor hsize
  have stays : (stretch e.block size).outcome a = .ok false a := by
    rcases stretch_cases fills shows split taken hsize with ⟨error, -, planned', -⟩ | ⟨-, stays⟩ |
      ⟨e', b, o', planned', -⟩
    · rw [planned] at planned'
      cases planned'
    · exact stays
    · rw [planned] at planned'
      cases planned'
  rw [realloc_eq shows.sound live pos hsize, alloc_eq shows.sound pos hsize,
    resize_moves shows live (Nat.not_le.mpr short) stays]
  rcases allocateBlock_or_stops fills shows large units with ⟨error, -, -, refused⟩ |
    ⟨t, b, o₁, -, placed, shows₁, change, snug⟩ | ⟨x, -, stops⟩
  · rw [move_of_refused refused, refused]
    exact ⟨rfl, rfl, rfl⟩
  · obtain ⟨pre₁, post₁, c, -, moved, shows', carried⟩ :=
      move_allocated fills live hsize placed shows₁ change snug
    rw [moved, placed, Outcome.bind_ok, Outcome.bind_ok, shows'.sound.verify, shows₁.sound.verify]
    have live₁ := change.live shows₁
    have live_e : Live o₁.extents e := (live₁ e).mpr (.inr ⟨live, Option.not_mem_none e⟩)
    have apart : t ≠ e := fun same =>
      change.fresh t rfl e live (Option.not_mem_none e) (congrArg Extent.block same.symm)
    have live' : ∀ y, Live (o₁.release ⟨pre₁, e, post₁⟩).extents y ↔ Live o₁.extents y ∧ y ≠ e := by
      intro y
      rw [carried.live shows' y, live₁ y]
      constructor
      · rintro (new | ⟨hy, stays⟩)
        · obtain rfl : t = y := Option.some.inj new
          exact ⟨.inl rfl, apart⟩
        · exact ⟨.inr ⟨hy, Option.not_mem_none y⟩, fun same => stays (congrArg some same.symm)⟩
      · rintro ⟨hy | ⟨hy, -⟩, ne⟩
        · exact .inl hy
        · exact .inr ⟨hy, fun same => ne (Option.some.inj same).symm⟩
    refine ⟨rfl, shows'.high.trans shows₁.high.symm, fun r => ?_⟩
    rw [shows'.sound.mem_payloads, shows₁.sound.mem_payloads]
    constructor
    · rintro ⟨y, hy, rfl⟩
      obtain ⟨hy, ne⟩ := (live' y).mp hy
      exact ⟨⟨y, hy, rfl⟩, fun same => ne <|
        shows₁.sound.arena.tiles.block_inj hy.1 live_e.1 (Nat.add_right_cancel same)⟩
    · rintro ⟨⟨y, hy, rfl⟩, ne⟩
      exact ⟨y, (live' y).mpr ⟨hy, fun same => ne (by rw [same])⟩, rfl⟩
  · rw [move_of_fault stops, stops]
    exact rfl

/-! ## When the source does not grow -/

/-- A source that does not grow by some bytes does not grow by more. -/
theorem accepts_of_le {s : Source} {inc' : Nat} (le : inc ≤ inc')
    (accepted : s.accepts inc' = true) : s.accepts inc = true := by
  unfold Source.accepts Source.hasRoom at accepted ⊢
  simp only [Bool.and_eq_true, Bool.or_eq_true, decide_eq_true_eq] at accepted ⊢
  exact ⟨⟨by omega, by omega⟩, accepted.2.imp id fun small => by omega⟩

/-- **Where a block at the end of the heap was not stretched because the source did not grow, an
allocation takes a free block or none,** as it would ask the source for no less. -/
theorem alloc_without_growth {m : Nat} {q : Option Nat} (passes : a.audit = .ok stats) (pos : n ≠ 0)
    (hsize : blockSizeFor n = .ok size) (he : e ∈ a.taken) (last : a.high - wordSize = e.block + m)
    (units : wholeUnits (max (size - m) a.config.chunk) = .ok inc)
    (refuses : a.source.accepts inc = false) (answered : (alloc n).outcome a = .ok q b) :
    b.high = a.high ∧ ∃ x, a.Suits size x ∧ q = some (payloadOf x.block) := by
  by_cases suits : ∃ x, a.Suits size x
  · obtain ⟨x, hx, ⟨b', answered', high⟩ | ⟨-, -, stops⟩⟩ := alloc_found passes pos hsize suits
    · rw [answered] at answered'
      cases answered'
      exact ⟨high, x, hx, rfl⟩
    · rw [answered] at stops
      cases stops
  · exfalso
    obtain ⟨pre, s, t, layout, -, reach, -, overflow, grown⟩ :=
      alloc_grown passes pos hsize (not_exists.mp suits)
    obtain ⟨es, shelves, sound⟩ := sound_filled passes
    have live := sound.mem_taken.mp he
    -- What is free at the end lies behind the block.
    have behind : t ≤ m := by
      rcases Nat.eq_zero_or_pos t with rfl | room
      · exact Nat.zero_le m
      have free : (⟨s, t, false⟩ : Extent) ∈ es := by
        rw [← sound.layout, layout, gapBetween_of_lt (Nat.lt_add_of_pos_right room),
          Nat.add_sub_cancel_left]
        exact List.mem_append_right _ List.mem_cons_self
      obtain ⟨-, -, large, -, stop, -⟩ := sound.bounds live.1
      simp only [wordSize] at last reach
      rcases sound.apart live.1 free with same | before | after
      · rw [same] at live
        cases live.2
      · simp only at before
        omega
      · simp only at after
        omega
    rcases wholeUnits_cases (max (size - t) a.config.chunk) with ⟨inc', units', -⟩ | none_fit
    · have more : inc ≤ inc' := wholeUnits_mono units units' (by omega)
      have refuses' : a.source.accepts inc' = false := by
        cases accepted : a.source.accepts inc' with
        | false => rfl
        | true =>
          rw [accepts_of_le more accepted] at refuses
          cases refuses
      have refused := grown inc' units'
      rw [refuses', if_neg Bool.false_ne_true, answered] at refused
      cases refused
    · have refused := overflow none_fit
      rw [answered] at refused
      cases refused

/-! ## How a reallocation ends -/

/-- The payload `p` is resized to `n` bytes where it is.  The heap grows by `inc` bytes, and then
its layout is `es`. -/
def InPlace (a : Allocator) (p n inc : Nat) (es : List Extent) : Prop :=
  ∃ b, (realloc (some p) n).outcome a = .ok (some p) b ∧ b.high = a.high + inc ∧ b.layout = es

section Around

variable {es : List Extent} {shelves : Shelves}

/-- How far a block of a heap is stretched. -/
theorem Sound.stretch_spec (sound : a.Sound es shelves filled)
    (next : ∀ y ∈ post.head?, y.allocated = true) (short : e.size + f < size)
    (units : wholeUnits (max (size - (e.size + f)) a.config.chunk) = .ok inc) :
    ∃ shelves',
      (e.stop + f = a.high - wordSize ∧ a.source.accepts inc = true →
        Outline.stretch ⟨⟨es, shelves⟩, a.terms, a.starts⟩
            ⟨pre, e, gapBetween e.stop (e.stop + f) ++ post⟩ size
          = .ok (some ⟨Gap.cut ⟨pre, e.block, e.stop + f + inc, post, shelves'⟩ size,
            (a.grown inc).terms, a.starts⟩)) ∧
      (¬ (e.stop + f = a.high - wordSize ∧ a.source.accepts inc = true) →
        Outline.stretch ⟨⟨es, shelves⟩, a.terms, a.starts⟩
          ⟨pre, e, gapBetween e.stop (e.stop + f) ++ post⟩ size = .ok none) := by
  obtain ⟨shelves', -, inner, grows⟩ : ∃ shelves', _ ∧ _ ∧ _ :=
    @Outline.stretch_spec ⟨⟨es, shelves⟩, a.terms, a.starts⟩ pre post e f size next
  have grows := grows inc short
  rw [sound.size]
  refine ⟨shelves', fun ⟨last, accepted⟩ => ?_, fun stuck => ?_⟩
  · exact (grows last units).2 _ (terms_grow_of_accepts accepted)
  · by_cases last : e.stop + f = a.memory.size - wordSize
    · have refuses : a.source.accepts inc = false := by
        rw [← Bool.not_eq_true]
        exact fun accepted => stuck ⟨last, accepted⟩
      exact (grows last units).1 _ (terms_grow_of_refuses refuses)
    · exact inner short last

/-- A block, with what is free behind it. -/
theorem Sound.split_behind (sound : a.Sound es shelves filled) (he : e ∈ es) :
    ∃ pre f post, es = pre ++ e :: (gapBetween e.stop (e.stop + f) ++ post) ∧
      ∀ y ∈ post.head?, y.allocated = true := by
  obtain ⟨pre, rest, split⟩ := List.append_of_mem he
  have tiles := sound.arena.tiles
  have coalesced := sound.arena.coalesced
  rw [split] at tiles coalesced
  obtain ⟨f, post, rfl, next⟩ := (contiguous_middle.mp tiles).2.2.front_gap
    (List.isChain_cons.mp (List.isChain_append.mp coalesced).2.1).2
  exact ⟨pre, f, post, split, next⟩

/-- What a layout is around a block is determined by where the block starts. -/
theorem split_behind_unique {x : Extent} {f' : Nat} {pre' post' : List Extent}
    (passes : a.audit = .ok stats)
    (split : a.layout = pre ++ e :: (gapBetween e.stop (e.stop + f) ++ post))
    (split' : a.layout = pre' ++ x :: (gapBetween x.stop (x.stop + f') ++ post'))
    (start : e.block = x.block) (next : ∀ y ∈ post.head?, y.allocated = true)
    (next' : ∀ y ∈ post'.head?, y.allocated = true) :
    pre = pre' ∧ e = x ∧ f = f' ∧ post = post' := by
  obtain ⟨es, shelves, sound, -⟩ := sound_of_audit passes
  have tiles := sound.arena.tiles
  rw [← sound.layout, split] at tiles
  obtain ⟨rfl, rfl, behind⟩ := tiles.split_unique (split.symm.trans split') start
  obtain ⟨rfl, rfl⟩ := front_gap_unique behind next next'
  exact ⟨rfl, rfl, rfl, rfl⟩

/-- Nothing lies behind a block that ends where the heap does. -/
theorem Sound.nil_of_last (sound : a.Sound es shelves filled)
    (split : es = pre ++ e :: (gapBetween e.stop (e.stop + f) ++ post))
    (last : e.stop + f = a.high - wordSize) : post = [] := by
  have tiles := sound.arena.tiles
  rw [split] at tiles
  have behind := (contiguous_middle.mp tiles).2.2.behind_gap
  rw [last] at behind
  exact behind.eq_nil

/-- A block that is large enough is cut, and the rest becomes free if it can be a block. -/
theorem inPlace_cut (sound : a.Sound es shelves a.Filled)
    (split : es = pre ++ e :: (gapBetween e.stop (e.stop + f) ++ post)) (taken : e.allocated = true)
    (next : ∀ y ∈ post.head?, y.allocated = true) (pos : n ≠ 0) (hsize : blockSizeFor n = .ok size)
    (fits : size ≤ e.size) :
    a.InPlace (payloadOf e.block) n 0 (if minBlockSize ≤ e.size - size then
        pre ++ ⟨e.block, size, true⟩ :: ⟨e.block + size, e.size + f - size, false⟩ :: post
      else a.layout) := by
  obtain ⟨b, answered, shows'⟩ :=
    realloc_cuts hardened_of_filled sound.shows split taken pos hsize fits
  refine ⟨b, answered, shows'.high.trans sound.size.symm, ?_⟩
  have length : e.stop - e.block = e.size := Nat.add_sub_cancel_left ..
  rw [shows'.sound.layout]
  by_cases splits : minBlockSize ≤ e.size - size
  · have rest : e.stop + f - (e.block + size) = e.size + f - size := by
      simp only [Extent.stop]
      omega
    rw [if_pos splits, Gap.extents_cut_of_splits next (by rw [length]; exact splits), rest]
  · rw [if_neg splits, Gap.cut_of_small (by rw [length]; exact splits), sound.layout, split, length,
      ← taken]

/-- A block that is not large enough is stretched over what is free behind it. -/
theorem inPlace_stretched (sound : a.Sound es shelves a.Filled)
    (split : es = pre ++ e :: (gapBetween e.stop (e.stop + f) ++ post)) (taken : e.allocated = true)
    (next : ∀ y ∈ post.head?, y.allocated = true) (pos : n ≠ 0) (hsize : blockSizeFor n = .ok size)
    (short : e.size < size) (fits : size ≤ e.size + f) :
    a.InPlace (payloadOf e.block) n 0 (pre ++ cutInto e.block (e.size + f) size ++ post) := by
  obtain ⟨shelves', stretched, -⟩ := Outline.stretch_spec next
  obtain ⟨b, answered, shows'⟩ :=
    realloc_stretches hardened_of_filled sound.shows split taken pos hsize short (stretched fits)
  refine ⟨b, answered, shows'.high.trans sound.size.symm, ?_⟩
  have length : e.stop + f - e.block = e.size + f := by
    simp only [Extent.stop]
    omega
  rw [shows'.sound.layout, Gap.extents_cut next, length]

/-- At the end of the heap, a block is stretched over what that grows by. -/
theorem inPlace_grown (sound : a.Sound es shelves a.Filled)
    (split : es = pre ++ e :: (gapBetween e.stop (e.stop + f) ++ post)) (taken : e.allocated = true)
    (next : ∀ y ∈ post.head?, y.allocated = true) (pos : n ≠ 0) (hsize : blockSizeFor n = .ok size)
    (short : e.size + f < size)
    (units : wholeUnits (max (size - (e.size + f)) a.config.chunk) = .ok inc)
    (grows : e.stop + f = a.high - wordSize ∧ a.source.accepts inc = true) :
    a.InPlace (payloadOf e.block) n inc (pre ++ cutInto e.block (e.size + f + inc) size) := by
  obtain ⟨shelves', stretched, -⟩ := sound.stretch_spec next short units
  obtain ⟨b, answered, shows'⟩ := realloc_stretches hardened_of_filled sound.shows split taken pos
    hsize (Nat.lt_of_le_of_lt (Nat.le_add_right ..) short) (stretched grows)
  have grown : (a.grown inc).memory.size = a.memory.size + inc := size_extend ..
  have length : e.stop + f + inc - e.block = e.size + f + inc := by
    simp only [Extent.stop]
    omega
  refine ⟨b, answered, ?_, ?_⟩
  · rw [sound.size, ← grown]
    exact shows'.high
  · rw [shows'.sound.layout, Gap.extents_cut next, length, sound.nil_of_last split grows.1,
      List.append_nil]

/-- A block that can be stretched no further is moved. -/
theorem endsAlike_of_stuck (sound : a.Sound es shelves a.Filled)
    (split : es = pre ++ e :: (gapBetween e.stop (e.stop + f) ++ post)) (taken : e.allocated = true)
    (next : ∀ y ∈ post.head?, y.allocated = true) (pos : n ≠ 0) (hsize : blockSizeFor n = .ok size)
    (short : e.size + f < size)
    (units : wholeUnits (max (size - (e.size + f)) a.config.chunk) = .ok inc)
    (stuck : ¬ (e.stop + f = a.high - wordSize ∧ a.source.accepts inc = true)) :
    EndsAlike a (payloadOf e.block) ((alloc n).outcome a)
      ((realloc (some (payloadOf e.block)) n).outcome a) := by
  obtain ⟨-, -, moves⟩ := sound.stretch_spec next short units
  exact realloc_moves hardened_of_filled sound.shows split taken pos hsize
    (Nat.lt_of_le_of_lt (Nat.le_add_right ..) short) (moves stuck)

end Around

/-- **How a reallocation ends is determined by the layout,** in every heap that passes an audit and
is not told to grow by more than whole units of a word at a time.

Let `e` be the block of a live payload, with `f` bytes free behind it.
* If `e` is large enough, it is cut where it is, and what is cut off becomes free together with the
  `f` bytes.  Too little to be a block stays with it.
* If `e` and the `f` bytes are large enough, it is stretched over them and cut.
* If they are not, but end where the heap does and the source grows by what is missing, or by a
  chunk if that is more, it is stretched over that as well.
* Else it ends as an allocation in the same state does, and the payload is live no longer if it
  succeeds.  If the source refused to grow in the case before, that can only be in a block that was
  free already. -/
theorem realloc_exact (passes : a.audit = .ok stats) (chunk : a.config.chunk ≤ largestChunk)
    (hp : p ∈ a.payloads) (pos : n ≠ 0) (hsize : blockSizeFor n = .ok size) :
    ∃ pre e f post inc, a.layout = pre ++ e :: (gapBetween e.stop (e.stop + f) ++ post) ∧
      e.allocated = true ∧ payloadOf e.block = p ∧ (∀ y ∈ post.head?, y.allocated = true) ∧
      wholeUnits (max (size - (e.size + f)) a.config.chunk) = .ok inc ∧
      (size ≤ e.size → InPlace a p n 0 (if minBlockSize ≤ e.size - size then
          pre ++ ⟨e.block, size, true⟩ :: ⟨e.block + size, e.size + f - size, false⟩ :: post
        else a.layout)) ∧
      (e.size < size → size ≤ e.size + f →
        InPlace a p n 0 (pre ++ cutInto e.block (e.size + f) size ++ post)) ∧
      (e.size + f < size →
        if e.stop + f = a.high - wordSize ∧ a.source.accepts inc then
          InPlace a p n inc (pre ++ cutInto e.block (e.size + f + inc) size)
        else
          EndsAlike a p ((alloc n).outcome a) ((realloc (some p) n).outcome a) ∧
          (e.stop + f = a.high - wordSize → ∀ q b, (alloc n).outcome a = .ok q b →
            b.high = a.high ∧ ∃ x, a.Suits size x ∧ q = some (payloadOf x.block))) := by
  obtain ⟨es, shelves, sound⟩ := sound_filled passes
  obtain ⟨e, live, rfl⟩ := sound.mem_payloads.mp hp
  have he : e ∈ a.taken := sound.mem_taken.mpr live
  obtain ⟨pre, f, post, split, next⟩ := sound.split_behind live.1
  obtain ⟨inc, units⟩ : ∃ inc, wholeUnits (max (size - (e.size + f)) a.config.chunk) = .ok inc := by
    obtain ⟨size', hsize', small⟩ := blockSizeFor_of_le (le_of_blockSizeFor hsize)
    obtain rfl : size = size' := Except.ok.inj (hsize.symm.trans hsize')
    obtain ⟨inc, units, -⟩ :=
      wholeUnits_of_le (Nat.max_le.mpr ⟨(Nat.sub_le ..).trans small, chunk⟩)
    exact ⟨inc, units⟩
  refine ⟨pre, e, f, post, inc, sound.layout.trans split, live.2, rfl, next, units,
    inPlace_cut sound split live.2 next pos hsize,
      inPlace_stretched sound split live.2 next pos hsize,
    fun short => ?_⟩
  by_cases grows : e.stop + f = a.high - wordSize ∧ a.source.accepts inc = true
  · rw [if_pos grows]
    exact inPlace_grown sound split live.2 next pos hsize short units grows
  · rw [if_neg grows]
    refine ⟨endsAlike_of_stuck sound split live.2 next pos hsize short units grows,
      fun last q b answered => ?_⟩
    have refuses : a.source.accepts inc = false := by
      rw [← Bool.not_eq_true]
      exact fun accepted => grows ⟨last, accepted⟩
    have reach : a.high - wordSize = e.block + (e.size + f) := by
      rw [← last, Extent.stop, Nat.add_assoc]
    exact alloc_without_growth passes pos hsize he reach units refuses answered

/-- There is a heap with two payloads, the first of which has an allocated block behind it, and the
second one a free block at the end of the heap. -/
theorem exists_stretchable : ∃ a : Allocator, (∃ stats, a.audit = .ok stats) ∧
    a.layout = [⟨8, 32, true⟩, ⟨40, 80, true⟩, ⟨120, 48, false⟩] ∧ a.high = 176 ∧
    a.config.chunk = 80 ∧ a.source.accepts 80 = true ∧
    ∃ b, (alloc 30).outcome a = .ok (some 128) b ∧ b.high = 176 := by
  have truthful : (Source.buffer 320).Truthful :=
    Source.truthful_make (rfl : Source.make .buffer 320 = .ok (.buffer 320))
  obtain ⟨a, run, shows⟩ := exists_reaches [.alloc 1, .alloc 60] truthful
    (rfl : (Allocator.create (.buffer 320) { chunk := 80 }).terms.init = .ok _) (by decide +kernel)
  have config := run.config truthful
  have layout : a.layout = [⟨8, 32, true⟩, ⟨40, 80, true⟩, ⟨120, 48, false⟩] :=
    shows.sound.layout.trans (by decide +kernel)
  have high : a.high = 176 := shows.high.trans (by decide +kernel)
  have accepts : a.source.accepts 80 = a.terms.accepts 80 := rfl
  refine ⟨a, ⟨_, shows.sound.audit⟩, layout, high, congrArg Config.chunk config, ?_, ?_⟩
  · rw [accepts, shows.terms]
    decide +kernel
  · have only (y : Extent) (suits : a.Suits 48 y) : y = ⟨120, 48, false⟩ := by
      obtain ⟨mem, free, -⟩ := suits
      rw [layout] at mem
      simp only [List.mem_cons, List.not_mem_nil, or_false] at mem
      rcases mem with rfl | rfl | rfl
      · cases free
      · cases free
      · rfl
    obtain ⟨b, answered, same⟩ := alloc_found_only shows.sound.audit
      (congrArg Config.hardened config) (show 30 ≠ 0 by decide) rfl
      ⟨by simp [layout], rfl, by decide⟩ only
    exact ⟨b, answered, same.trans high⟩

/-- The second payload is cut where it is, and what is cut off is joined with the free block behind
it.  It is stretched over that block, and over a chunk that the heap grows by.  The first payload
can only be moved. -/
theorem realloc_exact_of_stretchable :
    ∃ a : Allocator, a.layout = [⟨8, 32, true⟩, ⟨40, 80, true⟩, ⟨120, 48, false⟩] ∧
      InPlace a 48 1 0 [⟨8, 32, true⟩, ⟨40, 32, true⟩, ⟨72, 96, false⟩] ∧
      InPlace a 48 100 0 [⟨8, 32, true⟩, ⟨40, 128, true⟩] ∧
      InPlace a 48 140 80 [⟨8, 32, true⟩, ⟨40, 160, true⟩, ⟨200, 48, false⟩] ∧
      ∃ c, (realloc (some 16) 30).outcome a = .ok (some 128) c ∧ c.high = a.high ∧
        16 ∉ c.payloads := by
  obtain ⟨a, ⟨stats, passes⟩, layout, high, chunk, accepts, b, served, same⟩ := exists_stretchable
  have small : a.config.chunk ≤ largestChunk := by
    rw [chunk]
    decide
  have live : ∀ p ∈ [16, 48], p ∈ a.payloads := by
    simp [payloads, taken, layout]
  have second {pre post : List Extent} {e : Extent} {f : Nat}
      (split : a.layout = pre ++ e :: (gapBetween e.stop (e.stop + f) ++ post))
      (start : payloadOf e.block = 48) (next : ∀ y ∈ post.head?, y.allocated = true) :
      [⟨8, 32, true⟩] = pre ∧ ⟨40, 80, true⟩ = e ∧ 48 = f ∧ [] = post :=
    split_behind_unique passes layout split (Nat.add_right_cancel start).symm
      (fun y none => absurd none (Option.not_mem_none y)) next
  refine ⟨a, layout, ?_, ?_, ?_, ?_⟩
  · obtain ⟨pre, e, f, post, inc, split, -, start, next, -, cut, -⟩ := realloc_exact passes small
      (live 48 (by simp)) (show 1 ≠ 0 by decide) (show blockSizeFor 1 = .ok 32 from rfl)
    obtain ⟨rfl, rfl, rfl, rfl⟩ := second split start next
    exact cut (by decide)
  · obtain ⟨pre, e, f, post, inc, split, -, start, next, -, -, stretched, -⟩ :=
      realloc_exact passes small (live 48 (by simp)) (show 100 ≠ 0 by decide)
        (show blockSizeFor 100 = .ok 112 from rfl)
    obtain ⟨rfl, rfl, rfl, rfl⟩ := second split start next
    exact stretched (by decide) (by decide)
  · obtain ⟨pre, e, f, post, inc, split, -, start, next, units, -, -, grown⟩ :=
      realloc_exact passes small (live 48 (by simp)) (show 140 ≠ 0 by decide)
        (show blockSizeFor 140 = .ok 160 from rfl)
    obtain ⟨rfl, rfl, rfl, rfl⟩ := second split start next
    rw [chunk] at units
    obtain rfl : 80 = inc := Except.ok.inj units
    have at_end := grown (by decide)
    rwa [if_pos ⟨by rw [high]; rfl, accepts⟩] at at_end
  · obtain ⟨pre, e, f, post, inc, split, -, start, next, -, -, -, moved⟩ :=
      realloc_exact passes small (live 16 (by simp)) (show 30 ≠ 0 by decide)
        (show blockSizeFor 30 = .ok 48 from rfl)
    obtain ⟨rfl, rfl, rfl, rfl⟩ : [] = pre ∧ ⟨8, 32, true⟩ = e ∧ 0 = f ∧
        [⟨40, 80, true⟩, ⟨120, 48, false⟩] = post :=
      split_behind_unique passes layout split (Nat.add_right_cancel start).symm
        (by rintro _ ⟨⟩; rfl) next
    have elsewhere := moved (by decide)
    rw [if_neg (fun inside => absurd inside.1 (by rw [high]; decide)), served] at elsewhere
    obtain ⟨alike, -⟩ := elsewhere
    cases ended : (realloc (some 16) 30).outcome a with
    | ok q c =>
      rw [ended] at alike
      obtain ⟨rfl, size, payloads⟩ := alike
      exact ⟨c, rfl, by rw [size, same, high], fun mem => ((payloads 16).mp mem).2 rfl⟩
    | refused error c => rw [ended] at alike; exact alike.elim
    | fault stop => rw [ended] at alike; exact alike.elim

end Allocator

end TaggedHeap
