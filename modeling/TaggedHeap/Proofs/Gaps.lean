import TaggedHeap.Proofs.Layout
import TaggedHeap.Proofs.Plan

/-!
# Opening and closing gaps

The moves that steps of the arena are made of, each on layouts alone.

* A gap is widened over a neighbour (`Laid.widen_right`, `Laid.widen_left`) and narrowed by a block
  that was written in it (`Laid.narrow_left`, `Laid.narrow_right`).
* `Tiled.split` opens a gap without bytes at any seam, `Around.close` closes one.
* `Laid.remark` changes what the header behind the gap says of what lies before it, and
  `Laid.reseal` puts an epilogue behind a gap at the end, wherever the heap ends then.
* `Stocked.unlist` and `Stocked.list` take free blocks off the shelves and put them there.

`Around.unlist_right`, `Around.unlist_left` and `Around.list` combine the last two with the first
two: a free neighbour becomes part of the gap, and a vacant block fills it.
-/

namespace TaggedHeap

open Memory

variable {filled : Extent → Prop} {m m' : Memory} {lists : FreeLists} {high high' lo hi : Nat}
  {pre post es : List Extent} {mark mark' : Bool} {shelves : Shelves} {e l r x : Extent}

/-! ## Neighbours -/

/-- The first extent behind the gap becomes a part of it. -/
theorem Laid.widen_right (h : Laid filled m high pre lo hi (r :: post) mark) :
    Laid filled m high pre lo r.stop post r.allocated ∧ r.block = hi ∧ r.Regular ∧
      r.Tagged m mark := by
  obtain ⟨start, regular, rest⟩ := h.after
  obtain ⟨tagged, tagged_rest⟩ := h.back
  have units : r.size % 16 = 0 := regular.units
  have aligned : hi % 16 = 8 := h.aligned
  have ordered := h.ordered
  refine ⟨{ h with after := rest, ordered := ?_, aligned := ?_, back := tagged_rest,
                   poisoned := ?_, right := h.right.of_cons },
    start, regular, tagged⟩
  · simp only [Extent.stop]
    omega
  · simp only [Extent.stop, alignment, firstBlock]
    omega
  · intro x hx
    refine h.poisoned x (List.mem_append.mpr ?_)
    exact (List.mem_append.mp hx).imp_right (List.mem_cons_of_mem _)

/-- The last extent before the gap becomes a part of it. -/
theorem Laid.widen_left (h : Laid filled m high (pre ++ [l]) lo hi post mark) :
    Laid filled m high pre l.block hi post mark ∧ l.stop = lo ∧ l.Regular ∧
      l.Tagged m (lastAllocated true pre) := by
  obtain ⟨before, regular, stop⟩ := contiguous_middle.mp h.before
  obtain ⟨front, tagged, -⟩ := tagged_middle.mp h.front
  have stop : l.block + l.size = lo := stop
  have ordered := h.ordered
  refine ⟨{ h with before, ordered := by omega, front, poisoned := ?_,
                   left := (List.isChain_append.mp h.left).1 }, stop, regular, tagged⟩
  intro x hx
  refine h.poisoned x (List.mem_append.mpr ?_)
  exact (List.mem_append.mp hx).imp_left (List.mem_append_left _)

/-- A block at the start of the gap ends the part before it. -/
theorem Laid.narrow_left (h : Laid filled m high pre e.block hi post mark) (regular : e.Regular)
    (tagged : e.Tagged m (lastAllocated true pre)) (fits : e.stop ≤ hi)
    (poisoned : e.allocated = false → filled e → Poisoned m e)
    (seam : e.allocated = true ∨ lastAllocated true pre = true) :
    Laid filled m high (pre ++ [e]) e.stop hi post mark := by
  refine { h with before := contiguous_middle.mpr ⟨h.before, regular, rfl⟩, ordered := fits,
                  front := tagged_middle.mpr ⟨h.front, tagged, trivial⟩,
                  poisoned := ?_,
                  left := List.isChain_append.mpr ⟨h.left, .singleton e, ?_⟩ }
  · intro x hx free must
    simp only [List.append_assoc, List.mem_append, List.mem_singleton] at hx
    rcases hx with hx | rfl | hx
    · exact h.poisoned x (List.mem_append_left _ hx) free must
    · exact poisoned free must
    · exact h.poisoned x (List.mem_append_right _ hx) free must
  · intro x hx y hy
    cases hy
    exact seam.symm.imp_left fun last => lastAllocated_iff.mp last x hx

/-- A block at the end of the gap starts the part behind it. -/
theorem Laid.narrow_right (h : Laid filled m high pre lo e.stop post e.allocated)
    (regular : e.Regular) (tagged : e.Tagged m mark) (fits : lo ≤ e.block)
    (poisoned : e.allocated = false → filled e → Poisoned m e)
    (seam : e.allocated = true ∨ ∀ y ∈ post.head?, y.allocated = true) :
    Laid filled m high pre lo e.block (e :: post) mark := by
  have units : e.size % 16 = 0 := regular.units
  have aligned : (e.block + e.size) % 16 = 8 := h.aligned
  refine { h with after := ⟨rfl, regular, h.after⟩, ordered := fits, aligned := ?_,
                  back := ⟨tagged, h.back⟩, poisoned := ?_,
                  right := List.isChain_cons.mpr ⟨?_, h.right⟩ }
  · simp only [alignment, firstBlock]
    omega
  · intro x hx free must
    simp only [List.mem_append, List.mem_cons] at hx
    rcases hx with hx | rfl | hx
    · exact h.poisoned x (List.mem_append_left _ hx) free must
    · exact poisoned free must
    · exact h.poisoned x (List.mem_append_right _ hx) free must
  · intro y hy
    exact seam.imp_right fun next => next y hy

/-! ## The header behind the gap -/

/-- A header keeps its size when its mark about the block before it changes. -/
theorem Extent.Tagged.remark (h : e.Tagged m mark) (units : e.size % alignment = 0)
    (taken : e.allocated = true) (inside : e.block + wordSize ≤ m.size)
    (bounded : m.size < wordBound) (size : e.size ≤ m.size) :
    e.Tagged (m.putWord e.block
      ({ Header.decode (m.word e.block) with prevAllocated := mark' } : Header).encode) mark' where
  head := by
    rw [h.decode units, word_putWord inside]
    · rfl
    · exact Header.encode_lt units (Nat.lt_of_le_of_lt size bounded)
  foot free := by
    rw [taken] at free
    cases free

/-- A gap at the end of the heap is closed by an epilogue, wherever the heap ends then. -/
theorem Laid.reseal (h : Laid filled m high pre lo hi [] mark)
    (same : ∀ j, j < lo → m'.byte j = m.byte j) (inside : high' ≤ m'.size)
    (bounded : m'.size < wordBound) (ordered : lo + wordSize ≤ high')
    (aligned : high' % alignment = 0)
    (word : m'.word (high' - wordSize) = (Header.epilogue mark').encode) :
    Laid filled m' high' pre lo (high' - wordSize) [] mark' := by
  simp only [wordSize, alignment] at ordered aligned
  have off : ∀ x ∈ pre, x.block + x.size ≤ lo ∧ 32 ≤ x.size := fun x hx =>
    ⟨(h.before.bounds hx).stop, (h.before.bounds hx).room⟩
  refine { inside, bounded, before := h.before, after := rfl,
           ordered := by simp only [wordSize]; omega,
           aligned := by simp only [wordSize, alignment, firstBlock]; omega,
           front := h.front.congr (fun x hx => .inl ?_) ?_,
           back := ⟨⟨word, fun free => by cases free⟩, trivial⟩,
           poisoned := fun x hx free must => (h.poisoned x hx free must).congr ?_,
           left := h.left, right := .nil }
  · have := off x hx
    simp only [wordSize]
    omega
  · intro x hx j hj
    have := off x hx
    simp only [Extent.TagByte, Extent.stop, wordSize] at hj
    exact same j (by omega)
  · intro j hj
    rw [List.append_nil] at hx
    have := off x hx
    simp only [Extent.stop, wordSize] at hj
    exact same j (by omega)

/-- The header behind the gap is told of another state of what lies before it. -/
theorem Laid.remark (hardened mark' : Bool) (h : Laid filled m high pre lo hi post mark)
    (next : ∀ y ∈ post.head?, y.allocated = true) :
    ∃ m', m.putPrevAllocated hardened hi mark' = .ok m' ∧
      Laid filled m' high pre lo hi post mark' ∧ m.EqOff m' (Span hi (hi + 8)) := by
  obtain ⟨-, -, ordered, aligned, stop, inside⟩ := h.gap
  refine ⟨_, putPrevAllocated_of_le (by simp only [wordSize]; omega), ?_, eqOff_putWord ..⟩
  have frame := eqOff_putWord m hi
    ({ Header.decode (m.word hi) with prevAllocated := mark' } : Header).encode
  cases post with
  | nil =>
    have end_eq : hi = high - 8 := h.after
    subst end_eq
    refine h.reseal (fun j hj => frame.byte j (by simp only [wordSize]; omega)) ?_ ?_ ?_ ?_ ?_
    · rw [frame.size]
      exact h.inside
    · rw [frame.size]
      exact h.bounded
    · simp only [wordSize]
      omega
    · simp only [alignment]
      omega
    · have inside' : high - 8 + 8 ≤ m.size := by omega
      exact (h.back.1.remark rfl rfl inside' h.bounded (Nat.zero_le _)).head
  | cons y post =>
    obtain ⟨wide, rfl, regular, tagged⟩ := h.widen_right
    have taken : y.allocated = true := next y rfl
    have fits := wide.gap
    have room : 32 ≤ y.size := regular.room
    simp only [Extent.stop] at fits
    have wide' := wide.write (frame.mono fun j hj => by
      simp only [wordSize, Extent.stop] at hj ⊢
      omega)
    refine wide'.narrow_right regular (tagged.remark regular.units taken ?_ h.bounded ?_) ordered
      (?_) (.inl taken)
    · simp only [wordSize]
      omega
    · omega
    · intro free
      rw [taken] at free
      cases free

/-- Telling the header behind the gap touches no payload outside of it. -/
theorem Laid.samePayloads_of_remark (h : Laid filled m high pre lo hi post mark)
    (frame : m.EqOff m' (Span hi (hi + 8))) : SamePayloads (pre ++ post) m m' := by
  apply frame.samePayloads
  intro x hx j hj
  obtain ⟨-, -, room, -, start, off⟩ := h.outside hx.1
  have gap := h.gap
  simp only [payloadOf, Extent.stop, wordSize] at hj
  omega

/-- No free block starts where an allocated one does. -/
theorem Laid.free_ne (h : Laid filled m high pre lo hi post mark)
    (next : ∀ y ∈ post.head?, y.allocated = true) (hx : x ∈ pre ++ post)
    (free : x.allocated = false) : x.block ≠ hi := by
  rintro rfl
  have ordered := h.ordered
  obtain ⟨-, -, room, -⟩ := h.outside hx
  rcases List.mem_append.mp hx with hx | hx
  · have stop := (h.before.bounds hx).stop
    omega
  · cases post with
    | nil => cases hx
    | cons y post =>
      have same := h.after.block_inj hx List.mem_cons_self h.after.1.symm
      rw [same, next y rfl] at free
      cases free

/-- The header behind the gap is told of another state of what lies before it. -/
theorem Around.remark (hardened mark' : Bool)
    (h : Around filled m lists high pre lo hi post mark shelves)
    (next : ∀ y ∈ post.head?, y.allocated = true) :
    ∃ m', m.putPrevAllocated hardened hi mark' = .ok m' ∧
      Around filled m' lists high pre lo hi post mark' shelves ∧
      m.EqOff m' (Span hi (hi + 8)) := by
  obtain ⟨m', hput, laid, frame⟩ := h.toLaid.remark hardened mark' next
  refine ⟨m', hput, ⟨laid, h.toStocked.congr (Nat.le_of_eq frame.size.symm) ?_⟩, frame⟩
  intro x hx free j hj
  have ne := h.free_ne next hx free
  obtain ⟨-, -, room, -, start, off⟩ := h.outside hx
  have gap := h.gap
  exact frame.byte j (by omega)

/-! ## Seams -/

/-- At any seam there is a gap without bytes. -/
theorem Tiled.split (h : Tiled filled m lists high (pre ++ post) shelves) :
    ∃ x, Around filled m lists high pre x x post (lastAllocated true pre) shelves := by
  obtain ⟨x, before, after⟩ := contiguous_append.mp h.tiles
  have tagged := h.tagged
  rw [List.append_assoc] at tagged
  obtain ⟨front, back⟩ := tagged_append.mp tagged
  obtain ⟨left, right, -⟩ := List.isChain_append.mp h.coalesced
  exact ⟨x, { h with before, after, front, back, left, right, ordered := Nat.le_refl _,
                     aligned := before.stop_mod }⟩

/-- A gap without bytes is none, if what it divides fits together. -/
theorem Around.close {a : Nat}
    (h : Around filled m lists high pre a a post (lastAllocated true pre) shelves)
    (seam : ∀ x ∈ pre.getLast?, ∀ y ∈ post.head?, x.allocated = true ∨ y.allocated = true) :
    Tiled filled m lists high (pre ++ post) shelves where
  toStocked := h.toStocked
  inside := h.inside
  bounded := h.bounded
  tiles := contiguous_append.mpr ⟨a, h.before, h.after⟩
  tagged := by
    rw [List.append_assoc]
    exact tagged_append.mpr ⟨h.front, h.back⟩
  poisoned := h.poisoned
  coalesced := List.isChain_append.mpr ⟨h.left, h.right, seam⟩

/-- An allocated block is left to a gap. -/
theorem Tiled.open_taken (h : Tiled filled m lists high (pre ++ e :: post) shelves)
    (taken : e.allocated = true) :
    Around filled m lists high pre e.block e.stop post true shelves ∧ e.Regular ∧
      e.Tagged m (lastAllocated true pre) := by
  obtain ⟨x, around⟩ := h.split
  obtain ⟨laid, rfl, regular, tagged⟩ := around.toLaid.widen_right
  rw [taken] at laid
  refine ⟨⟨laid, h.shelving, h.filed.congr ?_⟩, regular, tagged⟩
  intro x free
  rw [List.mem_append, List.mem_append, List.mem_cons]
  refine or_congr_right ⟨.inr, fun hx => hx.resolve_left ?_⟩
  rintro rfl
  rw [taken] at free
  cases free

/-- An allocated block at the start of the gap ends the part before it. -/
theorem Around.narrow_taken
    (h : Around filled m lists high pre e.block hi post mark shelves)
    (taken : e.allocated = true) (regular : e.Regular)
    (tagged : e.Tagged m (lastAllocated true pre)) (fits : e.stop ≤ hi) :
    Around filled m lists high (pre ++ [e]) e.stop hi post mark shelves := by
  have free_ne : ∀ x : Extent, x.allocated = false → x ≠ e := by
    rintro x free rfl
    rw [taken] at free
    cases free
  refine ⟨h.toLaid.narrow_left regular tagged fits (fun free => absurd rfl (free_ne e free))
    (.inl taken), h.shelving, h.filed.congr ?_⟩
  intro x free
  simp only [List.append_assoc, List.mem_append, List.mem_singleton, free_ne x free, false_or]

/-- An allocated block that ends where the gap starts becomes a part of the gap. -/
theorem Around.widen_taken
    (h : Around filled m lists high (pre ++ [e]) lo hi post mark shelves)
    (taken : e.allocated = true) :
    Around filled m lists high pre e.block hi post mark shelves := by
  refine ⟨h.toLaid.widen_left.1, h.shelving, h.filed.congr ?_⟩
  intro x free
  have ne : x ≠ e := by
    rintro rfl
    rw [taken] at free
    cases free
  simp only [List.append_assoc, List.mem_append, List.mem_singleton, ne, false_or]

/-- A gap is filled by an allocated block. -/
theorem Around.close_taken
    (h : Around filled m lists high pre e.block e.stop post true shelves)
    (taken : e.allocated = true) (regular : e.Regular)
    (tagged : e.Tagged m (lastAllocated true pre)) :
    Tiled filled m lists high (pre ++ e :: post) shelves := by
  have narrow := h.narrow_taken taken regular tagged (Nat.le_refl _)
  have mark : lastAllocated true (pre ++ [e]) = true := by
    rw [lastAllocated_append_cons]
    exact taken
  have closed : Tiled filled m lists high (pre ++ [e] ++ post) shelves :=
    Around.close (by rw [mark]; exact narrow) fun x hx y _ => .inl (lastAllocated_iff.mp mark x hx)
  rwa [List.append_assoc, List.singleton_append] at closed

/-- The other live blocks are those that are live besides an allocated one. -/
theorem Tiled.live_others (h : Tiled filled m lists high (pre ++ e :: post) shelves)
    (taken : e.allocated = true) :
    Live (pre ++ post) x ↔ Live (pre ++ e :: post) x ∧ x ≠ e := by
  rw [live_middle_taken taken]
  constructor
  · intro hx
    refine ⟨.inr hx, ?_⟩
    rintro rfl
    obtain ⟨around, regular, -⟩ := h.open_taken taken
    have room : 32 ≤ x.size := regular.room
    obtain ⟨-, -, -, -, -, apart⟩ := around.outside hx.1
    simp only [Extent.stop] at apart
    omega
  · rintro ⟨rfl | hx, hne⟩
    · exact absurd rfl hne
    · exact hx

/-- A payload of an allocated block may hold anything. -/
theorem Tiled.write_payload (h : Tiled filled m lists high (pre ++ e :: post) shelves)
    (taken : e.allocated = true) (frame : m.EqOff m' (Span (payloadOf e.block) e.stop)) :
    Tiled filled m' lists high (pre ++ e :: post) shelves := by
  obtain ⟨around, regular, tagged⟩ := h.open_taken taken
  have room : 32 ≤ e.size := regular.room
  refine (around.write (frame.mono ?_)).close_taken taken regular ?_
  · intro j hj
    simp only [payloadOf, wordSize, Extent.stop] at hj ⊢
    omega
  · refine tagged.congr (.inr taken) fun j hj => frame.byte j ?_
    intro hspan
    rcases hj with hj | ⟨free, -⟩
    · simp only [payloadOf, wordSize, Extent.stop] at hj hspan
      omega
    · rw [taken] at free
      cases free

/-! ## Shelves -/

/-- A free block is taken off its shelf. -/
theorem Stocked.unlist (hardened : Bool) (h : Stocked m lists (pre ++ e :: post) shelves)
    (free : e.allocated = false) (other : ∀ x ∈ pre ++ post, x.block ≠ e.block) :
    ∃ lists' m', lists.remove hardened m e.block = .ok (lists', m') ∧
      Stocked m' lists' (pre ++ post) (shelves.unlist e) ∧
      m.EqOff m' (FreeLinkByte (pre ++ e :: post)) := by
  have mem : e.block ∈ shelves (SizeClass.of e.size) :=
    (h.filed _ _).mpr ⟨e, by simp, free, rfl, rfl⟩
  obtain ⟨lists', m', hremove, shelving, frame⟩ := h.shelving.remove_ok hardened mem
  exact ⟨lists', m', hremove,
    ⟨shelving, h.filed.drop rfl (h.shelving.nodup _) other⟩, frame.mono fun j => h.filed.linkByte⟩

/-- A vacant block is put on the shelf of its class. -/
theorem Stocked.list {prev : Bool} (hardened : Bool) (h : Stocked m lists (pre ++ post) shelves)
    (vacant : Vacant filled m e prev) (inside : e.stop ≤ m.size) (bounded : m.size < wordBound)
    (aligned : e.block % alignment = firstBlock)
    (apart : ∀ x ∈ pre ++ post, Apart e.block x.block) :
    ∃ lists' m', lists.insert hardened m e.block = .ok (lists', m') ∧
      Stocked m' lists' (pre ++ e :: post) (shelves.list e) ∧
      m.EqOff m' (FreeLinkByte (pre ++ e :: post)) := by
  obtain ⟨listable, size⟩ :=
    vacant.tagged.listable vacant.free vacant.regular inside bounded aligned
  have apart' : ∀ d, ∀ b ∈ shelves d, Apart e.block b := by
    intro d b hb
    obtain ⟨x, hx, -, rfl, -⟩ := (h.filed d b).mp hb
    exact apart x hx
  obtain ⟨lists', m', hinsert, shelving, frame⟩ :=
    h.shelving.insert_ok hardened listable (congrArg SizeClass.of size) apart'
  refine ⟨lists', m', hinsert, ⟨shelving, h.filed.push vacant.free rfl⟩, frame.mono ?_⟩
  intro j
  rintro (hj | hj)
  · exact ⟨e, by simp, vacant.free, hj⟩
  · obtain ⟨x, hx, free, hj⟩ := h.filed.linkByte hj
    rw [List.mem_append] at hx
    exact ⟨x, List.mem_append.mpr (hx.imp_right (List.mem_cons_of_mem _)), free, hj⟩

/-! ## Free neighbours, and free blocks in the gap -/

/-- **A free block behind the gap is taken off its shelf and becomes a part of the gap.** -/
theorem Around.unlist_right (hardened : Bool)
    (h : Around filled m lists high pre lo hi (r :: post) mark shelves)
    (free : r.allocated = false) :
    ∃ lists' m', lists.remove hardened m r.block = .ok (lists', m') ∧
      Around filled m' lists' high pre lo r.stop post false (shelves.unlist r) ∧
      Vacant filled m' r mark ∧ r.block = hi ∧ m.EqOff m' (FreeLinkByte (pre ++ r :: post)) := by
  have other : ∀ x ∈ pre ++ post, x.block ≠ r.block := by
    intro x hx
    obtain ⟨laid, start, -⟩ := h.toLaid.widen_right
    have off := laid.outside hx
    have ordered := h.ordered
    have room : 32 ≤ r.size := (h.outside (x := r) (by simp)).2.2.1
    simp only [Extent.stop] at off
    omega
  obtain ⟨lists', m', hremove, stocked, frame⟩ := h.toStocked.unlist hardened free other
  have laid := h.toLaid.links frame
  obtain ⟨wide, start, regular, tagged⟩ := laid.widen_right
  rw [free] at wide
  have vacant : Vacant filled m' r mark :=
    ⟨free, regular, tagged, laid.poisoned r (by simp) free⟩
  exact ⟨lists', m', hremove, ⟨wide, stocked⟩, vacant, start, frame⟩

/-- **A free block before the gap is taken off its shelf and becomes a part of the gap.** -/
theorem Around.unlist_left (hardened : Bool)
    (h : Around filled m lists high (pre ++ [l]) lo hi post mark shelves)
    (free : l.allocated = false) :
    ∃ lists' m', lists.remove hardened m l.block = .ok (lists', m') ∧
      Around filled m' lists' high pre l.block hi post mark (shelves.unlist l) ∧
      Vacant filled m' l (lastAllocated true pre) ∧ l.stop = lo ∧
      m.EqOff m' (FreeLinkByte (pre ++ l :: post)) := by
  have split : pre ++ [l] ++ post = pre ++ l :: post := by
    rw [List.append_assoc, List.singleton_append]
  have stocked := h.toStocked
  rw [split] at stocked
  have other : ∀ x ∈ pre ++ post, x.block ≠ l.block := by
    intro x hx
    obtain ⟨laid, stop, regular, -⟩ := h.toLaid.widen_left
    have off := laid.outside hx
    have gap := h.gap
    have room : 32 ≤ l.size := regular.room
    simp only [Extent.stop] at stop
    omega
  obtain ⟨lists', m', hremove, stocked', frame⟩ := stocked.unlist hardened free other
  have laid := h.toLaid.links (by rw [split]; exact frame)
  obtain ⟨wide, stop, regular, tagged⟩ := laid.widen_left
  have vacant : Vacant filled m' l (lastAllocated true pre) :=
    ⟨free, regular, tagged, laid.poisoned l (by simp) free⟩
  exact ⟨lists', m', hremove, ⟨wide, stocked'⟩, vacant, stop, frame⟩

/-- **A gap is filled by a vacant block, which is put on a shelf.** -/
theorem Around.list (hardened : Bool)
    (h : Around filled m lists high pre e.block e.stop post false shelves)
    (vacant : Vacant filled m e true) (last : lastAllocated true pre = true)
    (next : ∀ y ∈ post.head?, y.allocated = true) :
    ∃ lists' m', lists.insert hardened m e.block = .ok (lists', m') ∧
      Tiled filled m' lists' high (pre ++ e :: post) (shelves.list e) ∧
      SamePayloads (pre ++ post) m m' ∧ m.EqOff m' (FreeLinkByte (pre ++ e :: post)) := by
  obtain ⟨start, aligned, -, -, stop, inside⟩ := h.gap
  have room : 32 ≤ e.size := vacant.regular.room
  have apart : ∀ x ∈ pre ++ post, Apart e.block x.block := by
    intro x hx
    have off := h.outside hx
    simp only [Extent.stop] at off
    omega
  obtain ⟨lists', m', hinsert, stocked, frame⟩ :=
    h.toStocked.list hardened vacant (by omega) h.bounded aligned apart
  -- the block joins the part before the gap first, so that its own links count as outside
  have laid := h.toLaid.narrow_left vacant.regular (by rw [last]; exact vacant.tagged)
    (Nat.le_refl _) (fun _ => vacant.poisoned) (.inr last)
  have split : pre ++ [e] ++ post = pre ++ e :: post := by
    rw [List.append_assoc, List.singleton_append]
  rw [← split] at frame stocked
  have mark : lastAllocated true (pre ++ [e]) = false := by
    rw [lastAllocated_append_cons]
    exact vacant.free
  have closed : Tiled filled m' lists' high (pre ++ [e] ++ post) (shelves.list e) :=
    Around.close ⟨by rw [mark]; exact laid.links frame, stocked⟩ fun x _ y hy => .inr (next y hy)
  refine ⟨lists', m', hinsert, by rwa [split] at closed, ?_, by rwa [split] at frame⟩
  apply (laid.samePayloads_of_links frame).mono
  intro x hx
  rw [live_append] at hx ⊢
  exact hx.imp_left fun hx => live_append.mpr (.inl hx)

/-- **A free block of a heap is taken off its shelf and leaves a gap.** -/
theorem Tiled.unlist (hardened : Bool)
    (h : Tiled filled m lists high (pre ++ e :: post) shelves) (free : e.allocated = false) :
    ∃ lists' m', lists.remove hardened m e.block = .ok (lists', m') ∧
      Around filled m' lists' high pre e.block e.stop post false (shelves.unlist e) ∧
      Vacant filled m' e true ∧ lastAllocated true pre = true ∧
      (∀ y ∈ post.head?, y.allocated = true) ∧ SamePayloads (pre ++ post) m m' ∧
      m.EqOff m' (FreeLinkByte (pre ++ e :: post)) := by
  obtain ⟨-, last, next⟩ := (coalesced_middle_free free).mp h.coalesced
  have last := lastAllocated_iff.mpr last
  obtain ⟨x, around⟩ := h.split
  obtain ⟨lists', m', hremove, around', vacant, start, frame⟩ := around.unlist_right hardened free
  rw [last] at vacant
  rw [← start] at around'
  exact ⟨lists', m', hremove, around', vacant, last, next, (around.samePayloads_of_links frame).mono
    fun x hx => (live_middle_free free).mpr hx, frame⟩

end TaggedHeap
