import TaggedHeap.Proofs.Gaps

/-!
# Steps on blocks

What the steps of the arena do to a heap that is tiled: each goes through, leaves a heap that is
tiled again, and writes to no payload but that of the block it is about.

* `writePoison_ok` and `Vacant.requirePoison_cases` are the two ends of the pattern: a hardened heap
  writes it into free blocks, and looks at it before it gives one out.
* `writeFree_ok` and `blockBefore_ok` are the two ends of the footer: one writes it, one reads it.
* `Around.carve` and `Around.free_gap` make a free block, behind one that is cut and of a whole gap.
* `reclaim_ok`: a vacant block in a gap is merged with what is free around it and put on a shelf.
* `allocate_ok`, `deallocate_ok` and `shrink_ok` are the three steps that requests use.  The first
  one is not made where the pattern is missing (`allocate_dirty`).

The conclusions do not say which blocks the heap consists of afterwards but which of them are live.
That is all that a caller can tell, and together with `Tiled` it says the rest as well.
-/

namespace TaggedHeap

open Memory

variable {hardened : Bool} {filled : Extent → Prop} {m m' : Memory} {lists : FreeLists}
  {starts : StartSet} {high lo hi size start : Nat} {pre post es : List Extent} {mark prev : Bool}
  {shelves : Shelves} {e l r x : Extent} {own : Header}

/-! ## The pattern in free blocks -/

/-- The payload of a block is aligned, where blocks start. -/
theorem requireAligned_of_mod (hardened : Bool) {block : Nat}
    (aligned : block % alignment = firstBlock) : requireAligned hardened block = .ok () := by
  apply require_hardened
  intro _
  simp only [payloadOf, wordSize, alignment, firstBlock, beq_iff_eq] at aligned ⊢
  omega

/-- The pattern reaches up to the footer. -/
theorem Extent.Regular.poison_stop (regular : e.Regular) :
    poisonStart e.block + poisonCount e.block e.size = e.stop - wordSize := by
  have room : 32 ≤ e.size := regular.room
  simp only [poisonCount, poisonStart, payloadOf, Extent.stop, wordSize]
  omega

/-- The pattern is written between the links of a block and its footer. -/
theorem writePoison_ok (tagged : e.Tagged m prev) (regular : e.Regular) (inside : e.stop ≤ m.size)
    (aligned : e.block % alignment = firstBlock) :
    ∃ m', m.writePoison e.block e.size = .ok m' ∧ e.Tagged m' prev ∧ Poisoned m' e ∧
      m.EqOff m' (Span e.block e.stop) := by
  have room : 32 ≤ e.size := regular.room
  have stop := regular.poison_stop
  have fits : poisonStart e.block + poisonCount e.block e.size ≤ m.size := by
    rw [stop]
    exact Nat.le_trans (Nat.sub_le ..) inside
  have frame := eqOff_fill poison fits
  rw [stop] at frame
  unfold Memory.writePoison
  rw [requireAligned_of_mod true aligned, ok_bind, fillRange_of_le fits]
  refine ⟨_, rfl, tagged.congr ?_ ?_, ?_, frame.mono ?_⟩
  · left
    simp only [wordSize]
    omega
  · intro j hj
    apply frame.byte j
    simp only [Extent.TagByte, poisonStart, payloadOf, Extent.stop, wordSize] at hj ⊢
    omega
  · intro j hj
    rw [byte_fill poison fits, stop]
    exact if_pos hj
  · intro j hj
    simp only [poisonStart, payloadOf, Extent.stop, wordSize] at hj ⊢
    omega

/-- **A hardened heap stops at a vacant block exactly where the pattern is not in it.** -/
theorem Vacant.requirePoison_cases (hardened : Bool) (vacant : Vacant filled m e prev)
    (inside : e.stop ≤ m.size) (aligned : e.block % alignment = firstBlock) :
    (m.requirePoison hardened e.block e.size = .ok () ∧ (hardened = true → Poisoned m e)) ∨
      hardened = true ∧ ¬ Poisoned m e ∧
        m.requirePoison hardened e.block e.size = .error (.dirtyBlock e.block) := by
  have stop := vacant.regular.poison_stop
  have fits : poisonStart e.block + poisonCount e.block e.size ≤ m.size := by
    rw [stop]
    exact Nat.le_trans (Nat.sub_le ..) inside
  have holds : m.holds (poisonStart e.block) poison (poisonCount e.block e.size) = true ↔
      Poisoned m e := by
    rw [holds_iff, stop]
    exact ⟨fun all j hj => all j hj.1 hj.2, fun all j hj hj' => all j ⟨hj, hj'⟩⟩
  unfold Memory.requirePoison
  cases hardened with
  | false => exact .inl ⟨rfl, nofun⟩
  | true =>
    rw [if_pos rfl, requireAligned_of_mod true aligned, ok_bind, rangeHolds_of_le fits]
    cases intact : m.holds (poisonStart e.block) poison (poisonCount e.block e.size) with
    | true => exact .inl ⟨rfl, fun _ => holds.mp intact⟩
    | false =>
      refine .inr ⟨rfl, fun poisoned => ?_, rfl⟩
      rw [holds.mpr poisoned] at intact
      cases intact

/-! ## Writing a free block, and finding it from behind -/

/-- A range of bytes is made a free block.  Without self-checks, only its tags are written. -/
theorem writeFree_ok (fills : ∀ x, filled x → hardened = true) (prev : Bool)
    (free : e.allocated = false) (regular : e.Regular) (inside : e.stop ≤ m.size)
    (bounded : m.size < wordBound) (aligned : hardened = true → e.block % alignment = firstBlock) :
    ∃ m', m.writeFree hardened e.block e.size prev = .ok m' ∧ Vacant filled m' e prev ∧
      m.EqOff m' (Span e.block e.stop) ∧ (hardened = false → m.EqOff m' e.TagByte) := by
  have room : 32 ≤ e.size := regular.room
  have stop : e.block + e.size ≤ m.size := inside
  have header : Header.free e.size prev = e.header prev := by
    unfold Extent.header
    rw [free]
    rfl
  have isWord : (e.header prev).encode < wordBound :=
    Header.encode_lt regular.units (Nat.lt_of_le_of_lt (show e.size ≤ m.size by omega) bounded)
  have tags : m.EqOff ((m.putWord e.block (e.header prev).encode).putWord
      (e.block + e.size - wordSize) (e.header prev).encode) e.TagByte := by
    refine ((eqOff_putWord ..).mono fun j hj => .inl hj).trans ((eqOff_putWord ..).mono ?_)
    intro j hj
    refine .inr ⟨free, ?_⟩
    simp only [Extent.stop, wordSize] at hj ⊢
    omega
  have frame := tags.mono (Q := Span e.block e.stop) fun j hj => by
    simp only [Extent.TagByte, Extent.stop, wordSize] at hj ⊢
    omega
  have tagged : e.Tagged ((m.putWord e.block (e.header prev).encode).putWord
      (e.block + e.size - wordSize) (e.header prev).encode) prev := by
    constructor
    · rw [word_putWord_of_disjoint _ (by simp only [wordSize]; omega)]
      exact word_putWord (by simp only [wordSize]; omega) isWord
    · intro _
      exact word_putWord (by rw [size_putWord]; simp only [wordSize]; omega) isWord
  unfold Memory.writeFree
  rw [require_hardened fun _ => decide_eq_true regular.room, ok_bind]
  dsimp only
  rw [header, putHeader_of_le (by simp only [wordSize]; omega) regular.units, ok_bind,
    subWord_of_le (by simp only [wordSize]; omega), ok_bind,
    writeWord_of_le (by rw [size_putWord]; simp only [wordSize]; omega), ok_bind]
  cases hardened with
  | false =>
    exact ⟨_, rfl, ⟨free, regular, tagged, fun must => by cases fills e must⟩, frame, fun _ => tags⟩
  | true =>
    obtain ⟨m', hpoison, tagged', poisoned, frame'⟩ :=
      writePoison_ok tagged regular (by rw [frame.size]; exact inside) (aligned rfl)
    rw [if_pos rfl]
    exact ⟨m', hpoison, ⟨free, regular, tagged', fun _ => poisoned⟩, frame.trans frame',
      fun plain => by cases plain⟩

/-- The header of a tagged block is read. -/
theorem Extent.Tagged.header_eq (tagged : e.Tagged m prev) (regular : e.Regular)
    (inside : e.stop ≤ m.size) : m.header e.block = .ok (e.header prev) := by
  have room : 32 ≤ e.size := regular.room
  rw [header_of_le (by simp only [Extent.stop, wordSize] at inside ⊢; omega),
    tagged.decode regular.units]

/-- The block before a block is found through its footer. -/
theorem blockBefore_ok (free : l.allocated = false) (regular : l.Regular) (tagged : l.Tagged m prev)
    (inside : l.stop ≤ m.size) (header : m.header l.stop = .ok own)
    (mark : own.prevAllocated = false) : m.blockBefore hardened l.stop = .ok l.block := by
  have room : 32 ≤ l.size := regular.room
  have inside : l.block + l.size ≤ m.size := inside
  have footer : m.header (l.stop - wordSize) = .ok (l.header prev) := by
    rw [header_of_le (by simp only [Extent.stop, wordSize]; omega), tagged.foot free,
      Header.decode_encode]
    exact regular.units
  have found : subWord l.stop (l.header prev).size = .ok l.block := by
    rw [Extent.header, subWord_of_le (by simp only [Extent.stop]; omega)]
    simp only [Extent.stop, Nat.add_sub_cancel]
  have last : subWord l.stop wordSize = .ok (l.stop - wordSize) :=
    subWord_of_le (by simp only [Extent.stop, wordSize]; omega)
  have not_taken : (l.header prev).allocated = false := free
  unfold Memory.blockBefore
  cases hardened <;>
    simp only [header, mark, last, footer, found, not_taken, ok_bind, require_true, if_true,
      Bool.false_eq_true, if_false, Bool.not_false, Bool.not_true, Bool.true_or, Bool.or_true]

/-! ## Merging -/

/-- The header behind a gap is that of the first extent there, or of the epilogue. -/
theorem Laid.header_behind (h : Laid filled m high pre lo hi post mark) :
    m.header hi = .ok ((post.head?.getD (.epilogue (high - wordSize))).header mark) := by
  obtain ⟨-, -, -, -, stop, inside⟩ := h.gap
  rw [header_of_le (by simp only [wordSize]; omega)]
  cases post with
  | nil =>
    obtain rfl : hi = high - wordSize := h.after
    exact congrArg Except.ok (h.back.1.decode rfl)
  | cons y post =>
    obtain ⟨-, rfl, regular, tagged⟩ := h.widen_right
    exact congrArg Except.ok (tagged.decode regular.units)

/-- What is free behind a block in the gap becomes a part of the gap. -/
theorem joinNext_ok (hardened : Bool)
    (around : Around filled m lists high pre lo e.stop post mark shelves)
    (own : Header) (size : own.size = e.size) :
    ∃ stop post' mark' lists' m' shelves',
      Arena.joinNext hardened lists m e.block own = .ok (stop - e.block, lists', m') ∧
      Gap.joinNext ⟨pre, lo, e.stop, post, shelves⟩ = ⟨pre, lo, stop, post', shelves'⟩ ∧
      Around filled m' lists' high pre lo stop post' mark' shelves' ∧ e.stop ≤ stop ∧
      (∀ y ∈ post'.head?, y.allocated = true) ∧ (∀ x ∈ post', x ∈ post) ∧
      (∀ x, Live (pre ++ post') x ↔ Live (pre ++ post) x) ∧
      m.EqOff m' (FreeLinkByte (pre ++ post)) := by
  have next : m.header (e.block + own.size)
      = .ok ((post.head?.getD (.epilogue (high - wordSize))).header mark) := by
    rw [size]
    exact around.header_behind
  unfold Arena.joinNext
  dsimp only
  rw [next, ok_bind]
  by_cases taken : ∀ y ∈ post.head?, y.allocated = true
  · have stays :
        ((post.head?.getD (.epilogue (high - wordSize))).header mark).allocated = true := by
      cases post with
      | nil => rfl
      | cons y post => exact taken y rfl
    rw [if_pos stays, pure_eq_ok, size]
    refine ⟨e.stop, post, mark, lists, m, shelves, ?_, Gap.joinNext_of_taken taken, around,
      Nat.le_refl _, taken, fun x hx => hx, fun x => .rfl, .refl ..⟩
    simp only [Extent.stop, Nat.add_sub_cancel_left]
  · cases post with
    | nil => exact absurd (fun y hy => by cases hy) taken
    | cons r post =>
      have free : r.allocated = false := by
        simpa using taken
      obtain ⟨lists', m', hremove, around', -, start, frame⟩ := around.unlist_right hardened free
      obtain ⟨-, -, -, -, stop, inside⟩ := around'.gap
      have bounded := around'.bounded
      have start : r.block = e.block + e.size := start
      have stop : r.block + r.size + 8 ≤ high := stop
      refine ⟨r.stop, post, false, lists', m', shelves.unlist r, ?_, Gap.joinNext_of_free free,
        around', ?_, ?_, fun x hx => List.mem_cons_of_mem _ hx,
        fun x => (live_middle_free free).symm, frame⟩
      · have sum : addWord own.size r.size = .ok (r.stop - e.block) := by
          rw [size, addWord_of_lt (by omega)]
          simp only [Extent.stop, start, Nat.add_assoc, Nat.add_sub_cancel_left]
        simp only [List.head?_cons, Option.getD_some, Extent.header, free, Bool.false_eq_true,
          if_false, size, ← start, hremove, ok_bind]
        rw [← size, sum]
        rfl
      · simp only [Extent.stop]
        omega
      · exact ((List.isChain_cons.mp around.right).1 · · |>.resolve_left (by simp [free]))

/-- What is free before a block at the start of the gap becomes a part of the gap. -/
theorem joinPrev_ok (hardened : Bool)
    (around : Around filled m lists high pre lo hi post mark shelves)
    (header : m.header lo = .ok own) (last : own.prevAllocated = lastAllocated true pre)
    (fits : lo + size = hi) :
    ∃ start pre' lists' m' shelves',
      Arena.joinPrev hardened lists m lo size own.prevAllocated
        = .ok (start, hi - start, true, lists', m') ∧
      Gap.joinPrev ⟨pre, lo, hi, post, shelves⟩ = ⟨pre', start, hi, post, shelves'⟩ ∧
      Around filled m' lists' high pre' start hi post mark shelves' ∧ start ≤ lo ∧
      lastAllocated true pre' = true ∧ (∀ x ∈ pre', x ∈ pre) ∧
      (∀ x, Live (pre' ++ post) x ↔ Live (pre ++ post) x) ∧
      m.EqOff m' (FreeLinkByte (pre ++ post)) := by
  unfold Arena.joinPrev
  rw [last]
  cases mark_pre : lastAllocated true pre with
  | true =>
    refine ⟨lo, pre, lists, m, shelves, ?_, Gap.joinPrev_of_taken (lastAllocated_iff.mp mark_pre),
      around, Nat.le_refl _, mark_pre, fun x hx => hx, fun x => .rfl, .refl ..⟩
    rw [if_pos rfl, pure_eq_ok, ← fits, Nat.add_sub_cancel_left]
  | false =>
    rcases List.eq_nil_or_concat pre with rfl | ⟨pre, l, rfl⟩
    · cases mark_pre
    rw [List.concat_eq_append] at around mark_pre last ⊢
    have free : l.allocated = false := by
      rwa [lastAllocated_append_cons] at mark_pre
    obtain ⟨-, stop, regular, tagged⟩ := around.toLaid.widen_left
    obtain ⟨lists', m', hremove, around', -, -, frame⟩ := around.unlist_left hardened free
    obtain ⟨-, -, ordered, -, high_le, inside⟩ := around.gap
    have bounded := around.bounded
    have stop' : l.block + l.size = lo := stop
    have found : m.blockBefore hardened lo = .ok l.block := by
      rw [← stop] at header ⊢
      refine blockBefore_ok free regular tagged ?_ header (by rw [last, mark_pre])
      rw [stop]
      omega
    have before : lastAllocated true pre = true := by
      apply lastAllocated_iff.mpr
      intro x hx
      have seam := (List.isChain_append.mp around.left).2.2 x hx l rfl
      simpa [free] using seam
    have header_l : m.header l.block = .ok (l.header true) := by
      rw [tagged.header_eq regular (by rw [stop]; omega), before]
    have sum : addWord size l.size = .ok (hi - l.block) := by
      rw [addWord_of_lt (by omega)]
      congr 1
      omega
    refine ⟨l.block, pre, lists', m', shelves.unlist l, ?_, Gap.joinPrev_of_free free, around',
      by omega, before, fun x hx => List.mem_append_left _ hx, ?_, by rwa [List.append_assoc]⟩
    · rw [if_neg Bool.false_ne_true, found, ok_bind, header_l, ok_bind, hremove, ok_bind]
      simp only [Extent.header, sum, ok_bind]
      rfl
    · intro x
      rw [List.append_assoc, List.singleton_append]
      exact (live_middle_free free).symm

/-- A gap between allocated blocks is made one free block, and the header behind it is told. -/
theorem Around.free_gap (fills : ∀ x, filled x → hardened = true)
    (around : Around filled m lists high pre lo hi post mark shelves)
    (room : lo + minBlockSize ≤ hi) (next : ∀ y ∈ post.head?, y.allocated = true) :
    ∃ whole m₁ m₂, whole.block = lo ∧ whole.stop = hi ∧
      m.writeFree hardened lo (hi - lo) true = .ok m₁ ∧
      m₁.putPrevAllocated hardened hi false = .ok m₂ ∧
      Around filled m₂ lists high pre lo hi post false shelves ∧ Vacant filled m₂ whole true ∧
      SamePayloads (pre ++ post) m m₂ ∧
      (hardened = false → m.EqOff m₂ fun j => whole.TagByte j ∨ Span hi (hi + 8) j) := by
  obtain ⟨-, start_mod, ordered, stop_mod, stop_high, inside⟩ := around.gap
  simp only [minBlockSize] at room
  obtain ⟨whole, rfl, rfl, free⟩ :
      ∃ x : Extent, x.block = lo ∧ x.stop = hi ∧ x.allocated = false :=
    ⟨⟨lo, hi - lo, false⟩, rfl, by simp only [Extent.stop]; omega, rfl⟩
  have size : whole.stop - whole.block = whole.size := Nat.add_sub_cancel_left ..
  have regular : whole.Regular :=
    ⟨by simp only [minBlockSize]; omega, by simp only [alignment]; omega⟩
  obtain ⟨m₁, hwrite, vacant, frame₁, tags⟩ :=
    writeFree_ok fills true free regular (by omega) around.bounded fun _ => start_mod
  have around₁ := around.write frame₁
  obtain ⟨m₂, hmark, around₂, frame₂⟩ := around₁.remark hardened false next
  have vacant₂ : Vacant filled m₂ whole true := vacant.congr fun j hj _ =>
    frame₂.byte j (by omega)
  exact ⟨whole, m₁, m₂, rfl, rfl, by rw [size]; exact hwrite, hmark, around₂, vacant₂,
    (around.samePayloads_of_write frame₁).trans (around₁.samePayloads_of_remark frame₂),
    fun plain => ((tags plain).mono fun j => .inl).trans (frame₂.mono fun j => .inr)⟩

/-- The bytes that are written to make one free block of a gap: a header and links at its start, a
footer at its end, and the header behind it. -/
def Rim (lo hi j : Nat) : Prop :=
  Span lo (poisonStart lo) j ∨ Span (hi - wordSize) (hi + wordSize) j

/-- A vacant block in a gap is merged with what is free around it.  No block becomes live by this,
and none ceases to be.  Without self-checks, only links and the rim of the merged
block are written. -/
theorem merge_ok (fills : ∀ x, filled x → hardened = true) (starts : StartSet)
    (around : Around filled m lists high pre e.block e.stop post mark shelves)
    (vacant : Vacant filled m e (lastAllocated true pre)) :
    ∃ merged pre' post' m' lists' shelves',
      Arena.merge hardened ⟨m, lists, starts⟩ e.block
        = .ok (merged.block, ⟨m', lists', starts⟩) ∧
      Gap.merged ⟨pre, e.block, e.stop, post, shelves⟩
        = ⟨pre', merged.block, merged.stop, post', shelves'⟩ ∧
      Around filled m' lists' high pre' merged.block merged.stop post' false shelves' ∧
      Vacant filled m' merged true ∧ lastAllocated true pre' = true ∧
      (∀ y ∈ post'.head?, y.allocated = true) ∧ (∀ x ∈ pre' ++ post', x ∈ pre ++ post) ∧
      (∀ x, Live (pre' ++ post') x ↔ Live (pre ++ post) x) ∧
      SamePayloads (pre ++ post) m m' ∧
      (hardened = false →
        m.EqOff m' fun j => FreeLinkByte (pre ++ post) j ∨ Rim merged.block merged.stop j) := by
  obtain ⟨-, -, -, -, high_le, inside⟩ := around.gap
  have room : 32 ≤ e.size := vacant.regular.room
  have high_le : e.block + e.size + 8 ≤ high := high_le
  have header := vacant.tagged.header_eq vacant.regular (by omega)
  obtain ⟨stop, post', mark₁, lists₁, m₁, shelves₁, hnext, plan₁, around₁, stop_le, next, sub₁,
    live₁, frame₁⟩ := joinNext_ok hardened around (e.header (lastAllocated true pre)) rfl
  -- the gap has grown, but the block's header is still at its start
  have header₁ : m₁.header e.block = .ok (e.header (lastAllocated true pre)) := by
    have gap_head : m₁.word e.block = m.word e.block := word_congr fun j hj hj' =>
      frame₁.byte j (around.not_link_of_gap (by simp only [Extent.stop, wordSize] at hj' ⊢; omega))
    have inside₁ : e.block + wordSize ≤ m₁.size := by
      rw [frame₁.size]
      simp only [wordSize]
      omega
    rw [header_of_le inside₁, gap_head, vacant.tagged.decode vacant.regular.units]
  have stop_le : e.block + e.size ≤ stop := stop_le
  obtain ⟨start, pre', lists₂, m₂, shelves₂, hprev, plan₂, around₂, start_le, last, sub₂, live₂,
    frame₂⟩ :=
    joinPrev_ok hardened around₁ header₁ rfl (show e.block + (stop - e.block) = stop by omega)
  obtain ⟨merged, m₃, m₄, rfl, rfl, hwrite, hmark, around₄, vacant₄, same₄, tags⟩ :=
    around₂.free_gap fills (by simp only [minBlockSize]; omega) next
  have live : ∀ x, Live (pre' ++ post') x ↔ Live (pre ++ post) x := fun x =>
    (live₂ x).trans (live₁ x)
  have same₁ := around.samePayloads_of_links frame₁
  have same₂ := around₁.samePayloads_of_links frame₂
  have inner : ∀ x ∈ pre ++ post', x ∈ pre ++ post := fun x hx =>
    List.mem_append.mpr ((List.mem_append.mp hx).imp_right (sub₁ x))
  refine ⟨merged, pre', post', m₄, lists₂, shelves₂, ?_, by rw [Gap.merged, plan₁, plan₂], around₄,
    vacant₄, last, next, ?_, live,
    (same₁.trans (same₂.mono fun x => (live₁ x).mpr)).trans (same₄.mono fun x => (live x).mpr),
    fun plain => ?_⟩
  · have not_taken : (!hardened || !(e.header (lastAllocated true pre)).allocated) = true := by
      rw [Extent.header, vacant.free]
      exact Bool.or_true _
    unfold Arena.merge
    dsimp only
    rw [header, ok_bind, require_of not_taken, ok_bind, hnext, ok_bind]
    dsimp only
    rw [hprev, ok_bind]
    dsimp only
    have behind : merged.block + (merged.stop - merged.block) = merged.stop := by omega
    rw [hwrite, ok_bind, behind, hmark]
    rfl
  · exact fun x hx => inner x (List.mem_append.mpr ((List.mem_append.mp hx).imp_left (sub₂ x)))
  · refine ((frame₁.mono fun j => .inl).trans (frame₂.mono fun j hj => .inl (hj.mono inner))).trans
      ((tags plain).mono fun j hj => .inr ?_)
    have room : 32 ≤ merged.size := vacant₄.regular.room
    simp only [Rim, Extent.TagByte, poisonStart, payloadOf, Extent.stop, wordSize] at hj ⊢
    omega

/-- **A vacant block in a gap is merged with what is free around it and put on a shelf.** -/
theorem reclaim_ok (fills : ∀ x, filled x → hardened = true) (starts : StartSet)
    (around : Around filled m lists high pre e.block e.stop post mark shelves)
    (vacant : Vacant filled m e (lastAllocated true pre)) :
    ∃ m' lists' es' shelves',
      Arena.reclaim hardened ⟨m, lists, starts⟩ e.block = .ok ⟨m', lists', starts⟩ ∧
      Gap.reclaimed ⟨pre, e.block, e.stop, post, shelves⟩ = ⟨es', shelves'⟩ ∧
      Tiled filled m' lists' high es' shelves' ∧ (∀ x, Live es' x ↔ Live (pre ++ post) x) ∧
      SamePayloads (pre ++ post) m m' ∧
      (hardened = false → m.EqOff m' fun j => FreeLinkByte (pre ++ post) j ∨
        Rim (Gap.merged ⟨pre, e.block, e.stop, post, shelves⟩).lo
          (Gap.merged ⟨pre, e.block, e.stop, post, shelves⟩).hi j) := by
  obtain ⟨merged, pre', post', m₁, lists₁, shelves₁, hmerge, plan, around₁, vacant₁, last, next,
    sub, live, same₁, rim⟩ := merge_ok fills starts around vacant
  obtain ⟨lists₂, m₂, hinsert, tiled, same₂, links⟩ := around₁.list hardened vacant₁ last next
  have whole : (⟨merged.block, merged.stop - merged.block, false⟩ : Extent) = merged := by
    rw [Extent.stop, Nat.add_sub_cancel_left, ← vacant₁.free]
  have reclaimed : Gap.reclaimed ⟨pre, e.block, e.stop, post, shelves⟩
      = ⟨pre' ++ merged :: post', shelves₁.list merged⟩ := by
    show (Gap.merged ⟨pre, e.block, e.stop, post, shelves⟩).freed = _
    rw [plan, Gap.freed, Gap.length, whole]
  refine ⟨m₂, lists₂, _, _, ?_, reclaimed, tiled, ?_,
    same₁.trans (same₂.mono fun x => (live x).mpr), fun plain => ?_⟩
  · unfold Arena.reclaim
    rw [hmerge, ok_bind]
    dsimp only
    unfold Arena.list
    dsimp only
    rw [hinsert]
    rfl
  · intro x
    rw [live_middle_free vacant₁.free]
    exact live x
  · rw [plan]
    refine (rim plain).trans (links.mono ?_)
    rintro j ⟨x, hx, free, hj⟩
    rw [List.mem_append, List.mem_cons] at hx
    rcases hx with hx | rfl | hx
    · exact .inl ⟨x, sub x (List.mem_append_left _ hx), free, hj⟩
    · refine .inr (.inl ?_)
      simp only [poisonStart, payloadOf, wordSize]
      omega
    · exact .inl ⟨x, sub x (List.mem_append_right _ hx), free, hj⟩

/-! ## Freeing -/

/-- **An allocated block is freed.**  It is no longer live, and every other block stays so. -/
theorem deallocate_ok (fills : ∀ x, filled x → hardened = true)
    (tiled : Tiled filled m lists high (pre ++ e :: post) shelves)
    (taken : e.allocated = true) (known : hardened = true → starts.contains e.block = true) :
    ∃ m' lists' es' shelves',
      Arena.deallocate hardened ⟨m, lists, starts⟩ e.block
        = .ok ⟨m', lists', starts.remove e.block⟩ ∧
      Gap.reclaimed ⟨pre, e.block, e.stop, post, shelves⟩ = ⟨es', shelves'⟩ ∧
      Tiled filled m' lists' high es' shelves' ∧ (∀ x, Live es' x ↔ Live (pre ++ post) x) ∧
      SamePayloads (pre ++ post) m m' ∧
      (hardened = false → ∃ freed m₁, freed.block = e.block ∧ freed.stop = e.stop ∧
        Vacant filled m₁ freed (lastAllocated true pre) ∧ m.EqOff m₁ freed.TagByte ∧
        m₁.EqOff m' fun j => FreeLinkByte (pre ++ post) j ∨
          Rim (Gap.merged ⟨pre, e.block, e.stop, post, shelves⟩).lo
            (Gap.merged ⟨pre, e.block, e.stop, post, shelves⟩).hi j) := by
  obtain ⟨around, regular, tagged⟩ := tiled.open_taken taken
  obtain ⟨-, start_mod, -, -, high_le, inside⟩ := around.gap
  have header := tagged.header_eq regular (by omega)
  -- the block as it is once it is free
  obtain ⟨freed, start, size, free⟩ :
      ∃ x : Extent, x.block = e.block ∧ x.size = e.size ∧ x.allocated = false :=
    ⟨{ e with allocated := false }, rfl, rfl, rfl⟩
  have stop : freed.stop = e.stop := by rw [Extent.stop, Extent.stop, start, size]
  rw [← start, ← stop] at around
  rw [← stop]
  rw [← start] at known header start_mod ⊢
  have freed_regular : freed.Regular :=
    ⟨by rw [size]; exact regular.room, by rw [size]; exact regular.units⟩
  obtain ⟨m₁, hwrite, vacant, frame, tags⟩ := writeFree_ok fills (lastAllocated true pre) free
    freed_regular (by omega) around.bounded fun _ => start_mod
  obtain ⟨m₂, lists₂, es', shelves', hreclaim, plan, tiled', live, same, rim⟩ :=
    reclaim_ok fills (starts.remove freed.block) (around.write frame) vacant
  refine ⟨m₂, lists₂, es', shelves', ?_, plan, tiled', live,
    (around.samePayloads_of_write frame).trans same,
    fun plain => ⟨freed, m₁, rfl, rfl, vacant, tags plain, rim plain⟩⟩
  have is_taken : (e.header (lastAllocated true pre)).allocated = true := taken
  unfold Arena.deallocate
  dsimp only
  rw [header, ok_bind, require_hardened fun _ => is_taken, ok_bind, Extent.header, ← size]
  dsimp only
  rw [hwrite, ok_bind, require_hardened known, ok_bind]
  exact hreclaim

/-! ## Shrinking -/

/-- An allocated block became another one at the same place, of `size` bytes or one unit more.  The
others are as they were, and it holds what it held, as far as both reach. -/
structure Resized (m m' : Memory) (others : List Extent) (e e' : Extent) (size : Nat)
    (es' : List Extent) : Prop where
  /-- It did not move. -/
  block : e'.block = e.block
  /-- It is allocated still. -/
  taken : e'.allocated = true
  /-- It has the size that was asked for, or too little more to be a block of its own. -/
  size : e'.size = size ∨ e'.size = size + alignment
  /-- It is live, and besides it what was. -/
  live : ∀ x, Live es' x ↔ x = e' ∨ Live others x
  /-- The other payloads are as they were. -/
  same : SamePayloads others m m'
  /-- It holds what it held. -/
  kept : ∀ j, Span (payloadOf e.block) e.stop j → j < e'.stop → m'.byte j = m.byte j

/-- A block that became another one by a step without effect on the payloads, and was resized then,
was resized. -/
theorem Resized.after {m₁ : Memory} {others₁ : List Extent} {whole e' : Extent} {es' : List Extent}
    (h : Resized m₁ m' others₁ whole e' size es') (block : whole.block = e.block)
    (larger : e.size ≤ whole.size) (live : ∀ x, Live others₁ x ↔ Live es x)
    (same : SamePayloads es m m₁)
    (kept : ∀ j, Span (payloadOf e.block) e.stop j → m₁.byte j = m.byte j) :
    Resized m m' es e e' size es' where
  block := h.block.trans block
  taken := h.taken
  size := h.size
  live x := by rw [h.live x, live x]
  same := same.trans (h.same.mono fun x => (live x).mpr)
  kept j hj hj' := by
    rw [h.kept j _ hj', kept j hj]
    simp only [Extent.stop] at hj ⊢
    rw [block]
    omega

/-- An allocated block whose header is rewritten to a smaller size leaves a gap behind it. -/
theorem Around.cut (hardened : Bool)
    (around : Around filled m lists high pre e.block e.stop post mark shelves)
    (large : minBlockSize ≤ size) (units : size % alignment = 0) (fits : size ≤ e.size) :
    ∃ m', m.putHeader hardened e.block (.taken size (lastAllocated true pre)) = .ok m' ∧
      Around filled m' lists high (pre ++ [⟨e.block, size, true⟩]) (e.block + size) e.stop post
        mark shelves ∧
      m.EqOff m' (Span e.block (e.block + wordSize)) := by
  obtain ⟨-, -, -, -, high_le, inside⟩ := around.gap
  have bounded := around.bounded
  have large' : 32 ≤ size := large
  have high_le : e.block + e.size + 8 ≤ high := high_le
  obtain ⟨m', hput, word, frame⟩ := m.putHeader_ok hardened e.block
    (.taken size (lastAllocated true pre)) (by simp only [wordSize]; omega) units
    (show size < wordBound by omega)
  have around' := around.write (frame.mono fun j hj => by
    simp only [Extent.stop, wordSize] at hj ⊢
    omega)
  refine ⟨m', hput, Around.narrow_taken (e := ⟨e.block, size, true⟩) around' rfl ⟨large, units⟩
    ⟨word, fun free => by cases free⟩ ?_, frame⟩
  simp only [Extent.stop]
  omega

/-- An allocated block whose header is rewritten to a smaller size leaves a free block behind it. -/
theorem Around.carve (fills : ∀ x, filled x → hardened = true)
    (around : Around filled m lists high pre e.block e.stop post mark shelves)
    (large : minBlockSize ≤ size) (units : size % alignment = 0) (fits : size ≤ e.size)
    (splits : minBlockSize ≤ e.size - size) (e_units : e.size % alignment = 0) :
    ∃ m₁ m₂ rest, m.putHeader hardened e.block (.taken size (lastAllocated true pre)) = .ok m₁ ∧
      m₁.writeFree hardened (e.block + size) (e.size - size) true = .ok m₂ ∧
      rest.block = e.block + size ∧ rest.stop = e.stop ∧
      Around filled m₂ lists high (pre ++ [⟨e.block, size, true⟩]) rest.block rest.stop post mark
        shelves ∧
      Vacant filled m₂ rest (lastAllocated true (pre ++ [⟨e.block, size, true⟩])) ∧
      SamePayloads (pre ++ ⟨e.block, size, true⟩ :: post) m m₂ := by
  obtain ⟨m₁, hput, around₁, frame₁⟩ := around.cut hardened large units fits
  obtain ⟨rest, start, stop, free⟩ :
      ∃ x : Extent, x.block = e.block + size ∧ x.stop = e.stop ∧ x.allocated = false :=
    ⟨⟨e.block + size, e.size - size, false⟩, rfl, by simp only [Extent.stop]; omega, rfl⟩
  have rest_size : e.size - size = rest.size := by
    simp only [Extent.stop] at stop
    omega
  have regular : rest.Regular := by
    simp only [alignment] at units e_units
    exact ⟨rest_size ▸ splits, by simp only [alignment]; omega⟩
  rw [← start, ← stop] at around₁
  obtain ⟨-, rest_mod, -, -, rest_high, inside₁⟩ := around₁.gap
  obtain ⟨m₂, hwrite, vacant, frame₂, -⟩ :=
    writeFree_ok fills true free regular (by omega) around₁.bounded fun _ => rest_mod
  have mark_cut : lastAllocated true (pre ++ [⟨e.block, size, true⟩]) = true := by
    rw [lastAllocated_append_cons]
    rfl
  have same₁ : SamePayloads (pre ++ ⟨e.block, size, true⟩ :: post) m m₁ := by
    apply frame₁.samePayloads
    intro x hx j hj
    simp only [payloadOf, Extent.stop, wordSize] at hj ⊢
    rcases (live_middle_taken rfl).mp hx with rfl | hx
    · simp only at hj
      omega
    · have off := around.outside hx.1
      simp only [Extent.stop] at off
      omega
  have same₂ := around₁.samePayloads_of_write frame₂
  rw [List.append_assoc, List.singleton_append] at same₂
  exact ⟨m₁, m₂, rest, hput, by rw [rest_size, ← start]; exact hwrite, start, stop,
    around₁.write frame₂, by rw [mark_cut]; exact vacant, same₁.trans same₂⟩

/-- A gap is made one allocated block: its header is written, and the one behind it is told. -/
theorem Around.fill (hardened : Bool)
    (around : Around filled m lists high pre e.block e.stop post mark shelves)
    (taken : e.allocated = true) (regular : e.Regular)
    (next : ∀ y ∈ post.head?, y.allocated = true) :
    ∃ m₁ m₂, m.putHeader hardened e.block (.taken e.size (lastAllocated true pre)) = .ok m₁ ∧
      m₁.putPrevAllocated hardened e.stop true = .ok m₂ ∧
      Tiled filled m₂ lists high (pre ++ e :: post) shelves ∧ SamePayloads (pre ++ post) m m₂ ∧
      ∀ j, Span (payloadOf e.block) e.stop j → m₂.byte j = m.byte j := by
  obtain ⟨m₁, hput, around₁, frame₁⟩ :=
    around.cut hardened regular.room regular.units (Nat.le_refl _)
  obtain ⟨m₂, hmark, around₂, frame₂⟩ := around₁.remark hardened true next
  have room : 32 ≤ e.size := regular.room
  have same_block : (⟨e.block, e.size, true⟩ : Extent) = e := by
    rw [← taken]
  rw [same_block] at around₁ around₂
  have mark : lastAllocated true (pre ++ [e]) = true := by
    rw [lastAllocated_append_cons]
    exact taken
  have tiled : Tiled filled m₂ lists high (pre ++ [e] ++ post) shelves :=
    Around.close (by rw [mark]; exact around₂) fun x hx y _ =>
      .inl (lastAllocated_iff.mp mark x hx)
  rw [List.append_assoc, List.singleton_append] at tiled
  have same₁ : SamePayloads (pre ++ post) m m₁ := around.samePayloads_of_write <|
    frame₁.mono fun j hj => by
      simp only [Extent.stop, wordSize] at hj ⊢
      omega
  have same₂ := around₁.samePayloads_of_remark frame₂
  rw [List.append_assoc, List.singleton_append] at same₂
  refine ⟨m₁, m₂, hput, hmark, tiled, same₁.trans (same₂.mono ?_), ?_⟩
  · intro x hx
    exact (live_middle_taken taken).mpr (.inr hx)
  · intro j hj
    rw [frame₂.byte j (by omega), frame₁.byte j]
    simp only [payloadOf, wordSize] at hj ⊢
    omega

/-- **An allocated block is shrunk,** by all that can be a block of its own. -/
theorem shrink_ok (fills : ∀ x, filled x → hardened = true) (starts : StartSet)
    (tiled : Tiled filled m lists high (pre ++ e :: post) shelves)
    (taken : e.allocated = true) (large : minBlockSize ≤ size) (units : size % alignment = 0)
    (fits : size ≤ e.size) :
    ∃ m' lists' es' shelves' e',
      Arena.shrink hardened ⟨m, lists, starts⟩ e.block size = .ok ⟨m', lists', starts⟩ ∧
      Gap.cut ⟨pre, e.block, e.stop, post, shelves⟩ size = ⟨es', shelves'⟩ ∧
      Tiled filled m' lists' high es' shelves' ∧
      Resized m m' (pre ++ post) e e' size es' := by
  obtain ⟨around, regular, tagged⟩ := tiled.open_taken taken
  obtain ⟨-, start_mod, -, stop_mod, high_le, inside⟩ := around.gap
  have header := tagged.header_eq regular (by omega)
  have is_taken : (e.header (lastAllocated true pre)).allocated = true := taken
  have units' : size % 16 = 0 := units
  have e_units : e.size % 16 = 0 := regular.units
  have cut_off : subWord (e.header (lastAllocated true pre)).size size = .ok (e.size - size) :=
    subWord_of_le fits
  have length : e.stop - e.block = e.size := Nat.add_sub_cancel_left ..
  unfold Arena.shrink
  dsimp only
  rw [header, ok_bind, require_hardened fun _ => is_taken, ok_bind, cut_off, ok_bind]
  by_cases small : e.size - size < minBlockSize
  · rw [if_pos small]
    have plan :
        Gap.cut ⟨pre, e.block, e.stop, post, shelves⟩ size = ⟨pre ++ e :: post, shelves⟩ := by
      rw [Gap.cut_of_small (by rw [length]; exact Nat.not_le.mpr small), length, ← taken]
    refine ⟨m, lists, _, shelves, e, rfl, plan, tiled, rfl, taken, ?_,
      fun x => live_middle_taken taken, .refl .., fun j _ _ => rfl⟩
    simp only [minBlockSize, alignment] at small ⊢
    omega
  · rw [if_neg small]
    obtain ⟨m₁, m₂, rest, hput, hwrite, start, stop, around₂, vacant, same₂⟩ :=
      around.carve fills large units fits (Nat.not_lt.mp small) regular.units
    obtain ⟨m₃, lists₃, es', shelves', hreclaim, plan, tiled', live, same₃, -⟩ :=
      reclaim_ok fills starts around₂ vacant
    rw [start, stop, ← Gap.cut_of_splits (by rw [length]; exact Nat.not_lt.mp small)] at plan
    rw [List.append_assoc, List.singleton_append] at live same₃
    have live' : ∀ x, Live (pre ++ ⟨e.block, size, true⟩ :: post) x ↔
        x = ⟨e.block, size, true⟩ ∨ Live (pre ++ post) x := fun x => live_middle_taken rfl
    have same := same₂.trans same₃
    refine ⟨m₃, lists₃, es', shelves', ⟨e.block, size, true⟩, ?_, plan, tiled', rfl, rfl, .inl rfl,
      fun x => (live x).trans (live' x), same.mono fun x hx => (live' x).mpr (.inr hx),
      fun j hj hj' => same.byte _ ((live' _).mpr (.inl rfl)) j ⟨hj.1, hj'⟩⟩
    rw [Extent.header, hput, ok_bind, hwrite, ok_bind, ← start]
    exact hreclaim

/-! ## Allocating -/

/-- **A block is allocated at the start of a vacant one.**  It becomes live, and what is left over
is free if it can be a block of its own. -/
theorem allocate_ok (fills : ∀ x, filled x → hardened = true) (starts : StartSet)
    (around : Around filled m lists high pre e.block e.stop post false shelves)
    (vacant : Vacant filled m e true) (last : lastAllocated true pre = true)
    (next : ∀ y ∈ post.head?, y.allocated = true) (large : minBlockSize ≤ size)
    (units : size % alignment = 0) (fits : size ≤ e.size)
    (pattern : m.requirePoison hardened e.block e.size = .ok ()) :
    ∃ m' lists' es' shelves' e',
      Arena.allocate hardened ⟨m, lists, starts⟩ e.block size
        = .ok (payloadOf e.block, ⟨m', lists', starts.insert e.block⟩) ∧
      Gap.cut ⟨pre, e.block, e.stop, post, shelves⟩ size = ⟨es', shelves'⟩ ∧
      Tiled filled m' lists' high es' shelves' ∧
      (e'.block = e.block ∧ e'.allocated = true ∧
        (e'.size = size ∨ e'.size = size + alignment)) ∧
      (∀ x, Live es' x ↔ x = e' ∨ Live (pre ++ post) x) ∧ SamePayloads (pre ++ post) m m' := by
  obtain ⟨-, start_mod, -, stop_mod, high_le, inside⟩ := around.gap
  have header := vacant.tagged.header_eq vacant.regular (by omega)
  have is_free : (e.header true).allocated = false := vacant.free
  have units' : size % 16 = 0 := units
  have e_units : e.size % 16 = 0 := vacant.regular.units
  have cut_off : subWord e.size size = .ok (e.size - size) := subWord_of_le fits
  have payload := requireAligned_of_mod hardened start_mod
  have length : e.stop - e.block = e.size := Nat.add_sub_cancel_left ..
  unfold Arena.allocate
  dsimp only
  rw [header, ok_bind, require_hardened fun _ => by rw [is_free]; rfl, ok_bind, Extent.header]
  dsimp only
  rw [require_hardened fun _ => decide_eq_true fits, ok_bind,
    pattern, ok_bind, cut_off, ok_bind]
  by_cases splits : minBlockSize ≤ e.size - size
  · rw [if_pos splits]
    obtain ⟨m₁, m₂, rest, hput, hwrite, start, stop, around₂, vacant₂, same₂⟩ :=
      around.carve fills large units fits splits vacant.regular.units
    have mark : lastAllocated true (pre ++ [⟨e.block, size, true⟩]) = true := by
      rw [lastAllocated_append_cons]
      rfl
    rw [mark] at vacant₂
    obtain ⟨lists₃, m₃, hinsert, tiled, same₃, -⟩ := around₂.list hardened vacant₂ mark next
    rw [List.append_assoc, List.singleton_append] at same₃
    have plan : Gap.cut ⟨pre, e.block, e.stop, post, shelves⟩ size
        = ⟨pre ++ [⟨e.block, size, true⟩] ++ rest :: post, shelves.list rest⟩ := by
      have whole : (⟨e.block + size, e.stop - (e.block + size), false⟩ : Extent) = rest := by
        rw [← start, ← stop, Extent.stop, Nat.add_sub_cancel_left, ← vacant₂.free]
      rw [Gap.cut_of_splits (by rw [length]; exact splits),
        Gap.reclaimed_of_taken (lastAllocated_iff.mp mark) next, Gap.freed, Gap.length, whole]
    refine ⟨m₃, lists₃, _, _, ⟨e.block, size, true⟩, ?_, plan, tiled, ⟨rfl, rfl, .inl rfl⟩,
      ?_, (same₂.trans same₃).mono fun x hx => (live_middle_taken rfl).mpr (.inr hx)⟩
    · rw [last] at hput
      rw [hput, ok_bind, hwrite, ok_bind, ← start, hinsert, ok_bind]
      dsimp only
      rw [payload, ok_bind]
      rfl
    · intro x
      rw [live_middle_free vacant₂.free, List.append_assoc, List.singleton_append,
        live_middle_taken rfl]
  · rw [if_neg splits]
    simp only [minBlockSize] at splits
    obtain ⟨whole, start, stop, taken⟩ :
        ∃ x : Extent, x.block = e.block ∧ x.stop = e.stop ∧ x.allocated = true :=
      ⟨{ e with allocated := true }, rfl, rfl, rfl⟩
    have whole_size : whole.size = e.size := by
      simp only [Extent.stop] at stop
      omega
    rw [← start, ← stop] at around
    obtain ⟨m₁, m₂, hput, hmark, tiled, same, -⟩ := around.fill hardened taken
      ⟨by rw [whole_size]; exact vacant.regular.room, by rw [whole_size]; exact e_units⟩ next
    rw [last, whole_size] at hput
    have plan : Gap.cut ⟨pre, e.block, e.stop, post, shelves⟩ size
        = ⟨pre ++ whole :: post, shelves⟩ := by
      rw [Gap.cut_of_small (by rw [length]; exact splits), length, ← start, ← whole_size, ← taken]
    refine ⟨m₂, lists, _, shelves, whole, ?_, plan, tiled, ⟨start, taken, ?_⟩,
      fun x => live_middle_taken taken, same⟩
    · rw [← start, hput, ok_bind, ← whole_size, hmark, ok_bind, start, payload, ok_bind]
      rfl
    · simp only [alignment]
      omega

/-- Where the pattern is missing, nothing is allocated. -/
theorem allocate_dirty {fault : Fault} (starts : StartSet) (vacant : Vacant filled m e true)
    (inside : e.stop ≤ m.size) (fits : size ≤ e.size)
    (dirty : m.requirePoison hardened e.block e.size = .error fault) :
    Arena.allocate hardened ⟨m, lists, starts⟩ e.block size = .error fault := by
  have is_free : (e.header true).allocated = false := vacant.free
  unfold Arena.allocate
  dsimp only
  rw [vacant.tagged.header_eq vacant.regular inside, ok_bind,
    require_hardened fun _ => by rw [is_free]; rfl, ok_bind, Extent.header]
  dsimp only
  rw [require_hardened fun _ => decide_eq_true fits, ok_bind, dirty]
  rfl

end TaggedHeap
