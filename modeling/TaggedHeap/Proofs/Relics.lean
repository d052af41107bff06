import TaggedHeap.Proofs.Requests

/-!
# What is left of a freed block

A block that was freed may be merged with its neighbours, and then there is no such block any more.
Its header is still there.  Without self-checks nothing overwrites it until the bytes are handed out
again: what is written to free blocks is their headers, links and footers, and a block that starts
behind another one starts behind the links of that as well.

* `Gap.mem_merged` says what becomes of the blocks around a gap that is merged with its free
  neighbours.
* `Relic` is such a header, and `Stale` says that there is one at an offset.
* `Stale.reclaimed`: merging and listing leave every relic one, and `free_stale` says it of a
  request that takes a payload back.
* `Sound.write_stale`: so does a write into a live payload.
* `Sound.validate_stale`: a pointer behind a relic is refused as one that was taken back before.
-/

namespace TaggedHeap

open Memory

variable {m m' m₁ : Memory} {pre post es : List Extent} {shelves : Shelves} {e x y : Extent}
  {a b c j lo hi : Nat} {prev : Bool}

/-! ## Blocks around a freed one -/

/-- A block before a gap is not touched when the gap is merged with its free neighbours, or it is
the one that the merged gap starts with. -/
theorem Gap.merged_before (g : Gap) (tiles : Contiguous a g.pre g.lo) :
    (g.lo = g.merged.lo ∨ g.merged.lo + minBlockSize ≤ g.lo) ∧
      ∀ x ∈ g.pre, x ∈ g.merged.pre ∨ x.block = g.merged.lo ∧ x.stop = g.lo := by
  obtain ⟨hi, post, shelves, joined, -⟩ := g.joinNext_cases
  obtain ⟨pre, lo, shelves', joined', last⟩ := g.joinNext.joinPrev_cases
  rw [merged, joined']
  rw [joined] at last
  dsimp only at last ⊢
  rcases last with ⟨rfl, rfl⟩ | ⟨l, -, split, rfl⟩
  · exact ⟨.inl rfl, fun x hx => .inl hx⟩
  · rw [split] at tiles ⊢
    obtain ⟨-, regular, stop⟩ := contiguous_middle.mp tiles
    have room := regular.room
    have stop : l.stop = g.lo := stop
    refine ⟨.inr (by rw [← stop, Extent.stop]; omega), fun x hx => ?_⟩
    rcases List.mem_append.mp hx with hx | hx
    · exact .inl hx
    · obtain rfl := List.mem_singleton.mp hx
      exact .inr ⟨rfl, stop⟩

/-- A block behind the gap is not touched either, or it is the one that the merged gap ends with. -/
theorem Gap.merged_behind (g : Gap) (tiles : Contiguous g.hi g.post c) :
    g.hi ≤ g.merged.hi ∧
      ∀ x ∈ g.post, x ∈ g.merged.post ∨ x.block = g.hi ∧ x.stop = g.merged.hi := by
  obtain ⟨hi, post, shelves, joined, next⟩ := g.joinNext_cases
  obtain ⟨pre, lo, shelves', joined', -⟩ := g.joinNext.joinPrev_cases
  rw [merged, joined', joined]
  dsimp only
  rcases next with ⟨rfl, rfl⟩ | ⟨r, -, split, rfl⟩
  · exact ⟨Nat.le_refl _, fun x hx => .inl hx⟩
  · rw [split] at tiles ⊢
    obtain ⟨start, -⟩ := tiles
    refine ⟨by rw [Extent.stop]; omega, fun x hx => ?_⟩
    rcases List.mem_cons.mp hx with rfl | hx
    · exact .inr ⟨start, rfl⟩
    · exact .inl hx

/-- A block is not touched when one of its like is merged with what is free around it, or becomes a
part of the merged block, at its start or at least a block behind it. -/
theorem Gap.mem_merged (shelves : Shelves) (tiles : Contiguous a (pre ++ e :: post) c)
    (hx : x ∈ pre ++ e :: post) :
    x ∈ (Gap.merged ⟨pre, e.block, e.stop, post, shelves⟩).pre ++
        (Gap.merged ⟨pre, e.block, e.stop, post, shelves⟩).post ∨
      (x.block = (Gap.merged ⟨pre, e.block, e.stop, post, shelves⟩).lo ∨
          (Gap.merged ⟨pre, e.block, e.stop, post, shelves⟩).lo + minBlockSize ≤ x.block) ∧
        x.stop ≤ (Gap.merged ⟨pre, e.block, e.stop, post, shelves⟩).hi := by
  obtain ⟨before, regular, after⟩ := contiguous_middle.mp tiles
  obtain ⟨start, old⟩ := Gap.merged_before ⟨pre, e.block, e.stop, post, shelves⟩ before
  obtain ⟨stop, new⟩ := Gap.merged_behind ⟨pre, e.block, e.stop, post, shelves⟩ after
  dsimp only at start stop old new
  rw [List.mem_append, List.mem_cons] at hx
  rcases hx with hx | rfl | hx
  · rcases old x hx with untouched | ⟨same, stop_x⟩
    · exact .inl (List.mem_append_left _ untouched)
    · refine .inr ⟨.inl same, ?_⟩
      rw [stop_x]
      exact Nat.le_trans (Nat.le_add_right ..) stop
  · exact .inr ⟨start, stop⟩
  · rcases new x hx with untouched | ⟨start_x, same⟩
    · exact .inl (List.mem_append_right _ untouched)
    · refine .inr ⟨.inr ?_, Nat.le_of_eq same⟩
      have room : minBlockSize ≤ e.size := regular.room
      have stop_e : e.stop = e.block + e.size := rfl
      rw [start_x]
      omega

/-! ## Relics -/

/-- In the free block `x` lies the header of a free block `y`.  It is that of `x`, or lies behind
the links of `x`, and by what it says `y` ends no later than `x` does. -/
structure Relic (m : Memory) (x y : Extent) : Prop where
  /-- The block that it lies in is free. -/
  whole : x.allocated = false
  /-- It says that its own block is free, too. -/
  free : y.allocated = false
  /-- It says a size that a block can have. -/
  regular : y.Regular
  /-- It lies where a block can start. -/
  aligned : y.block % alignment = firstBlock
  /-- It is the first header of `x`, or lies behind its links. -/
  start : y.block = x.block ∨ x.block + minBlockSize ≤ y.block
  /-- It does not reach beyond `x`. -/
  stop : y.stop ≤ x.stop
  /-- It is there. -/
  head : ∃ prev, m.word y.block = (y.header prev).encode

/-- At the offset `b` there is a relic in one of some extents. -/
def Stale (m : Memory) (es : List Extent) (b : Nat) : Prop :=
  ∃ x ∈ es, ∃ y : Extent, y.block = b ∧ Relic m x y

/-- A free block has its own header. -/
theorem Extent.Tagged.stale (tagged : e.Tagged m prev) (free : e.allocated = false)
    (within : e.Within firstBlock c) (he : e ∈ es) : Stale m es e.block :=
  ⟨e, he, e, rfl, free, free, ⟨within.room, within.units⟩, within.aligned, .inl rfl, Nat.le_refl _,
    prev, tagged.head⟩

/-- A relic is read from its bytes. -/
theorem Relic.congr (relic : Relic m x y)
    (same : ∀ j, Span y.block (y.block + wordSize) j → m'.byte j = m.byte j) : Relic m' x y := by
  obtain ⟨prev, head⟩ := relic.head
  refine { relic with head := ⟨prev, ?_⟩ }
  rw [← head]
  exact word_congr fun j hj hj' => same j ⟨hj, hj'⟩

/-- A relic lies in its block. -/
theorem Relic.span (relic : Relic m x y) (hj : Span y.block (y.block + wordSize) j) :
    Span x.block x.stop j := by
  have start := relic.start
  have stop := relic.stop
  have room := relic.regular.room
  simp only [Extent.stop, minBlockSize, wordSize] at start stop room hj ⊢
  omega

/-- No relic lies in an allocated block. -/
theorem Relic.ne (relic : Relic m x y) (taken : e.allocated = true) : x ≠ e := by
  rintro rfl
  have whole := relic.whole
  rw [taken] at whole
  cases whole

/-- What is written to an allocated block reaches no relic, since all of them lie
in other blocks. -/
theorem Stale.write (stale : Stale m es b) (tiles : Contiguous a es c) (he : e ∈ es)
    (taken : e.allocated = true) (frame : m.EqOff m' (Span e.block e.stop)) :
    ∃ x ∈ es, x ≠ e ∧ ∃ y : Extent, y.block = b ∧ Relic m' x y := by
  obtain ⟨x, hx, y, rfl, relic⟩ := stale
  have ne := relic.ne taken
  refine ⟨x, hx, ne, y, rfl, relic.congr fun j hj => frame.byte j fun written => ?_⟩
  have inner := relic.span hj
  rcases tiles.apart hx he with same | before | after
  · exact ne same
  · omega
  · omega

/-- Links do not reach a relic. -/
theorem Relic.not_link (relic : Relic m x y) (tiles : Contiguous a es c) (hx : x ∈ es)
    (hj : Span y.block (y.block + wordSize) j) : ¬ FreeLinkByte es j := by
  rintro ⟨z, hz, -, link⟩
  have inner := relic.span hj
  have start := relic.start
  have room := (tiles.bounds hz).room
  simp only [Extent.stop, minBlockSize, wordSize] at inner start room hj
  rcases tiles.apart hx hz with rfl | before | after
  · omega
  · simp only [Extent.stop] at before
    omega
  · simp only [Extent.stop] at after
    omega

/-- The rim of a block that `x` is a part of does not reach a relic in `x`, unless they start
together. -/
theorem Relic.not_rim (relic : Relic m x y) (start : x.block = lo ∨ lo + minBlockSize ≤ x.block)
    (stop : x.stop ≤ hi) (later : y.block ≠ lo) (hj : Span y.block (y.block + wordSize) j) :
    ¬ Rim lo hi j := by
  have start_y := relic.start
  have stop_y := relic.stop
  have room := relic.regular.room
  simp only [Rim, poisonStart, payloadOf, Extent.stop, minBlockSize, wordSize] at *
  omega

/-- The rim of any block of a heap does not reach a relic behind the links of another one, or of
that one. -/
theorem Relic.not_rim_of_mem (relic : Relic m x y) (tiles : Contiguous a es c)
    (hx : x ∈ es) (he : e ∈ es) (later : x.block + minBlockSize ≤ y.block)
    (hj : Span y.block (y.block + wordSize) j) :
    ¬ Rim e.block e.stop j := by
  have room : 32 ≤ e.size := (tiles.bounds he).room
  have stop_y := relic.stop
  have room_y := relic.regular.room
  rcases tiles.apart hx he with rfl | before | after
  · refine relic.not_rim (.inl rfl) (Nat.le_refl _) ?_ hj
    simp only [minBlockSize] at later
    omega
  · simp only [Rim, poisonStart, payloadOf, Extent.stop, minBlockSize, wordSize] at *
    omega
  · simp only [Rim, poisonStart, payloadOf, Extent.stop, minBlockSize, wordSize] at *
    omega

/-- A relic in a part of a free block is one in that block. -/
theorem Relic.widen (relic : Relic m x y) (free : e.allocated = false)
    (start : x.block = e.block ∨ e.block + minBlockSize ≤ x.block) (stop : x.stop ≤ e.stop) :
    Relic m e y where
  whole := free
  free := relic.free
  regular := relic.regular
  aligned := relic.aligned
  start := by
    have start_y := relic.start
    omega
  stop := Nat.le_trans relic.stop stop
  head := relic.head

/-! ## Freeing -/

/-- Every free block of a heap has its header, so there is a relic at its start. -/
theorem Tiled.stale {filled : Extent → Prop} {lists : FreeLists} {high : Nat}
    (tiled : Tiled filled m lists high es shelves) (he : e ∈ es) (free : e.allocated = false) :
    Stale m es e.block := by
  obtain ⟨prev, tagged⟩ := tiled.tagged.of_mem (List.mem_append_left _ he)
  exact tagged.stale free (tiled.tiles.bounds he) he

/-- **When a free block is merged with what is free around it, every relic stays one.**  There is
one case for a relic in a block that is not touched, and one for a relic in a part of the merged
block.  In either case it is the first header of a block, which is written anew if at all, or lies
where nothing is written. -/
theorem Stale.reclaimed {filled : Extent → Prop} {lists : FreeLists} {high : Nat}
    (stale : Stale m (pre ++ e :: post) b) (tiles : Contiguous firstBlock (pre ++ e :: post) c)
    (plan : (Gap.reclaimed ⟨pre, e.block, e.stop, post, shelves⟩).extents = es)
    {shelves' : Shelves} (tiled : Tiled filled m' lists high es shelves')
    (frame : m.EqOff m' fun j => FreeLinkByte (pre ++ post) j ∨
      Rim (Gap.merged ⟨pre, e.block, e.stop, post, shelves⟩).lo
        (Gap.merged ⟨pre, e.block, e.stop, post, shelves⟩).hi j) : Stale m' es b := by
  obtain ⟨x, hx, y, rfl, relic⟩ := stale
  have links : ∀ j, Span y.block (y.block + wordSize) j → ¬ FreeLinkByte (pre ++ post) j :=
    fun j hj link => relic.not_link tiles hx hj <| link.mono fun z hz =>
      List.mem_append.mpr ((List.mem_append.mp hz).imp_right (List.mem_cons_of_mem _))
  have position := Gap.mem_merged shelves tiles hx
  generalize hg : Gap.merged ⟨pre, e.block, e.stop, post, shelves⟩ = g at position frame
  obtain ⟨z, hz⟩ : ∃ z : Extent, z = ⟨g.lo, g.length, false⟩ := ⟨_, rfl⟩
  have split : es = g.pre ++ z :: g.post := by
    rw [← plan, ← hg, hz, ← hg]
    rfl
  have mem : z ∈ es := by simp [split]
  have room : 32 ≤ z.size := (tiled.tiles.bounds mem).room
  have start_z : z.block = g.lo := by rw [hz]
  have stop_z : z.stop = g.hi := by
    rw [hz] at room ⊢
    simp only [Gap.length, Extent.stop] at room ⊢
    omega
  rw [← start_z, ← stop_z] at position frame
  -- a relic that nothing is written to stays one in whichever block it lies in then
  have stays : (∀ j, Span y.block (y.block + wordSize) j → ¬ Rim z.block z.stop j) → Relic m' x y :=
    fun off => relic.congr fun j hj => frame.byte j fun written =>
      written.elim (links j hj) (off j hj)
  rcases position with untouched | ⟨start, stop⟩
  · have hx' : x ∈ es := by
      rw [split]
      exact List.mem_append.mpr ((List.mem_append.mp untouched).imp_right (List.mem_cons_of_mem _))
    rcases relic.start with first | later
    · rw [first]
      exact tiled.stale hx' relic.whole
    · exact ⟨x, hx', y, rfl, stays fun j hj => relic.not_rim_of_mem tiled.tiles hx' mem later hj⟩
  · have whole : z.allocated = false := by rw [hz]
    by_cases first : y.block = z.block
    · rw [first]
      exact tiled.stale mem whole
    · have kept := stays fun j hj => relic.not_rim start stop first hj
      exact ⟨z, mem, y, rfl, kept.widen whole start stop⟩

namespace Allocator

variable {a b c : Allocator} {es : List Extent} {shelves : Shelves} {e : Extent} {p q : Nat}
  {filled : Extent → Prop}

/-- **A payload that is taken back leaves a relic, and every relic stays one.** -/
theorem free_stale (fills : ∀ x, filled x → a.hardened = true) (plain : a.hardened = false)
    (sound : a.Sound es shelves filled) (live : Live es e) :
    ∃ b es' shelves', (free (some (payloadOf e.block))).outcome a = .ok () b ∧
      b.Sound es' shelves' filled ∧ b.config = a.config ∧
      (∀ x, Live es' x ↔ Live es x ∧ x ≠ e) ∧ Stale b.memory es' e.block ∧
      ∀ c, Stale a.memory es c → Stale b.memory es' c := by
  obtain ⟨pre, post, rfl⟩ := List.append_of_mem live.1
  obtain ⟨arena, done, shows, change⟩ := deallocate_live fills sound.shows rfl live.2
  obtain ⟨-, start_mod, -⟩ := sound.bounds live.1
  have known : a.starts.contains e.block = true :=
    (sound.arena.marks e.block start_mod).mpr ⟨e, live, rfl⟩
  obtain ⟨m', lists', es', shelves', done', plan, tiled, -, -, written⟩ :=
    deallocate_ok fills sound.arena.toTiled live.2 fun _ => known
  obtain rfl : arena = ⟨m', lists', a.starts.remove e.block⟩ :=
    Except.ok.inj (done.symm.trans done')
  obtain ⟨freed, m₁, start, stop, vacant, tags, rim⟩ := written plain
  have extents : (Outline.release ⟨⟨pre ++ e :: post, shelves⟩, a.terms, a.starts⟩
      ⟨pre, e, post⟩).extents = es' := congrArg Plan.extents plan
  have sound' := shows.sound
  rw [extents] at sound'
  -- between the two steps, the block is a free one like any other
  have tiles : Contiguous firstBlock (pre ++ freed :: post) (a.high - wordSize) := by
    obtain ⟨before, -, after⟩ := contiguous_middle.mp sound.arena.tiles
    rw [← start] at before
    rw [← stop] at after
    exact contiguous_middle.mpr ⟨before, vacant.regular, after⟩
  rw [← start, ← stop] at plan rim
  have reclaimed : ∀ c, Stale m₁ (pre ++ freed :: post) c → Stale m' es' c := fun c stale =>
    stale.reclaimed tiles (congrArg Plan.extents plan) tiled rim
  refine ⟨_, es', _, ?_, sound', change.config, ?_, ?_, fun c stale => reclaimed c ?_⟩
  · rw [free_eq sound live, outcome_editArena_of_ok done, Outcome.bind_ok, shows.sound.verify]
  · intro x
    rw [← extents, change.live shows x]
    simp [eq_comm]
  · rw [← start]
    exact reclaimed _ (vacant.tagged.stale vacant.free (tiles.bounds (by simp)) (by simp))
  · have inside : a.memory.EqOff m₁ (Span e.block e.stop) := tags.mono fun j tag => by
      have room : 32 ≤ freed.size := vacant.regular.room
      rw [← start, ← stop]
      simp only [Extent.TagByte, Extent.stop, wordSize] at tag ⊢
      omega
    obtain ⟨x, hx, ne, y, start_y, relic⟩ := stale.write sound.arena.tiles live.1 live.2 inside
    refine ⟨x, ?_, y, start_y, relic⟩
    rw [List.mem_append, List.mem_cons] at hx ⊢
    exact hx.imp_right fun hx => .inr (hx.resolve_left ne)

/-- A write into a live payload reaches no relic. -/
theorem Sound.write_stale {m' : Memory} {b : Nat} (sound : a.Sound es shelves filled)
    (live : Live es e) (frame : a.memory.EqOff m' (Span (payloadOf e.block) e.stop))
    (stale : Stale a.memory es b) : Stale m' es b := by
  have inside : a.memory.EqOff m' (Span e.block e.stop) := frame.mono fun j hj => by
    simp only [payloadOf, wordSize] at hj
    omega
  obtain ⟨x, hx, -, y, start, relic⟩ := stale.write sound.arena.tiles live.1 live.2 inside
  exact ⟨x, hx, y, start, relic⟩

/-- **A pointer behind a relic is refused as one that was taken back before.** -/
theorem Sound.validate_stale (sound : a.Sound es shelves filled) {b : Nat}
    (stale : Stale a.memory es b) :
    a.validate (payloadOf b) = .error (.refused (.doubleFree (payloadOf b))) := by
  obtain ⟨x, hx, y, rfl, relic⟩ := stale
  obtain ⟨first, -, -, -, reach, inside⟩ := sound.bounds hx
  obtain ⟨prev, head⟩ := relic.head
  have start := relic.start
  have stop := relic.stop
  simp only [Extent.stop, minBlockSize] at start stop
  have free : (y.header prev).allocated = false := relic.free
  rw [validate_of_head ?_ relic.aligned head relic.regular.units relic.regular.room ?_ inside, free]
  · rfl
  · simp only [firstBlock]
    omega
  · simp only [Extent.header, wordSize]
    omega

end Allocator

end TaggedHeap
