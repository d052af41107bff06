import TaggedHeap.Proofs.Blocks

/-!
# Steps at the end of a heap

How a heap comes about and how it gets larger.

* `format_ok`: an empty heap is written over any memory that is large enough.
* `heapEnd_eq` and `append_ok`: what a heap ends with, and how bytes that were appended to the
  memory become one vacant block together with it.
* `room_eq` and `absorb_ok`: what an allocated block could grow into, and how it does.

Growing itself touches nothing.  `Tiled` asks for a memory that is at least as large as the heap, so
a heap stays tiled when its memory grows (`Tiled.extend`), and the steps here catch up with it.
-/

namespace TaggedHeap

open Memory

variable {hardened : Bool} {filled : Extent → Prop} {m m' : Memory} {lists : FreeLists}
  {starts : StartSet} {high lo hi size growth : Nat} {pre post es : List Extent}
  {mark prev : Bool} {shelves : Shelves} {e r x : Extent}

/-- A heap stays as it is when its memory grows. -/
theorem Tiled.extend (tiled : Tiled filled m lists high es shelves)
    (bounded : m.size + growth < wordBound) :
    Tiled filled (m.extend growth) lists high es shelves := by
  rw [← List.append_nil es] at tiled
  obtain ⟨a, around⟩ := tiled.split
  have size := size_extend m growth
  have inside := around.inside
  have laid : Laid filled (m.extend growth) high es a a [] (lastAllocated true es) :=
    around.toLaid.congr (by omega) (by omega) fun j _ _ _ => byte_extend ..
  have stocked : Stocked (m.extend growth) lists (es ++ []) shelves :=
    around.toStocked.congr (by omega) fun x _ _ j _ => byte_extend ..
  have closed : Tiled filled (m.extend growth) lists high (es ++ []) shelves :=
    Around.close ⟨laid, stocked⟩ fun x _ y hy => by cases hy
  rwa [List.append_nil] at closed

/-! ## The free block at the end -/

/-- What a heap up to `high` that consists of some extents ends with. -/
def endOf (high : Nat) (es : List Extent) : Arena.HeapEnd :=
  match es.getLast? with
  | some t =>
    if t.allocated then ⟨high - wordSize, none, 0⟩ else ⟨high - wordSize, some t.block, t.size⟩
  | none => ⟨high - wordSize, none, 0⟩

/-- The epilogue is the last word. -/
theorem epilogue_endOf (high : Nat) (es : List Extent) :
    (endOf high es).epilogue = high - wordSize := by
  unfold endOf
  split
  · split <;> rfl
  · rfl

/-- Behind an allocated block, or no block at all, there is only the epilogue. -/
theorem endOf_of_taken (last : lastAllocated true es = true) :
    endOf high es = ⟨high - wordSize, none, 0⟩ := by
  unfold endOf
  cases h : es.getLast? with
  | none => rfl
  | some t => exact if_pos (lastAllocated_iff.mp last t h)

/-- A free block at the end is found there. -/
theorem endOf_of_free (free : e.allocated = false) :
    endOf high (pre ++ [e]) = ⟨high - wordSize, some e.block, e.size⟩ := by
  unfold endOf
  rw [List.getLast?_concat]
  exact if_neg (by rw [free]; exact Bool.false_ne_true)

/-- **The end of a heap is what its last extent says.** -/
theorem heapEnd_eq (tiled : Tiled filled m lists high es shelves) :
    Arena.heapEnd hardened m high = .ok (endOf high es) := by
  rw [← List.append_nil es] at tiled
  obtain ⟨a, around⟩ := tiled.split
  obtain ⟨start, start_mod, -, -, high_le, inside⟩ := around.gap
  obtain rfl : a = high - wordSize := around.after
  have epilogue : m.header (high - wordSize)
      = .ok ((Extent.epilogue (high - wordSize)).header (lastAllocated true es)) :=
    around.header_behind
  have behind : subWord high wordSize = .ok (high - wordSize) :=
    subWord_of_le (by simp only [wordSize] at start ⊢; omega)
  unfold Arena.heapEnd
  rw [behind, ok_bind, epilogue, ok_bind]
  cases last : lastAllocated true es with
  | true =>
    rw [endOf_of_taken last]
    rfl
  | false =>
    rcases List.eq_nil_or_concat es with rfl | ⟨pre, t, rfl⟩
    · cases last
    rw [List.concat_eq_append] at around last epilogue ⊢
    have free : t.allocated = false := by
      rwa [lastAllocated_append_cons] at last
    obtain ⟨-, stop, regular, tagged⟩ := around.toLaid.widen_left
    have room : 32 ≤ t.size := regular.room
    rw [last, ← stop] at epilogue
    have stop' : t.block + t.size = high - 8 := stop
    have found : m.blockBefore hardened t.stop = .ok t.block :=
      blockBefore_ok free regular tagged (by rw [stop]; simp only [wordSize] at high_le ⊢; omega)
        epilogue rfl
    rw [stop] at found
    have header_t := tagged.header_eq regular (by omega)
    rw [endOf_of_free free]
    show (m.blockBefore hardened (high - wordSize) >>= _) = _
    rw [found, ok_bind, header_t]
    rfl

/-- A gap at the end of a heap reaches to any later epilogue, whatever was written from where the
gap starts on. -/
theorem Around.reseal {stop : Nat}
    (around : Around filled m lists high pre lo hi [] mark shelves) (size : m'.size = m.size)
    (before : ∀ j, j < lo → m'.byte j = m.byte j) (ordered : lo ≤ stop)
    (stop_eq : stop + wordSize = high + growth) (units : growth % alignment = 0)
    (grown : high + growth ≤ m.size) {mark' : Bool}
    (word : m'.word stop = (Header.epilogue mark').encode) :
    Around filled m' lists (high + growth) pre lo stop [] mark' shelves ∧
      SamePayloads pre m m' := by
  obtain ⟨-, start_mod, -, stop_mod, high_le, inside⟩ := around.gap
  obtain rfl : hi = high - wordSize := around.after
  have bounded := around.bounded
  simp only [wordSize, alignment] at stop_eq units stop_mod high_le
  have end_eq : high + growth - wordSize = stop := by
    simp only [wordSize]
    omega
  refine ⟨⟨?_, around.toStocked.congr (Nat.le_of_eq size.symm) fun x hx _ j hj => before j ?_⟩,
    ⟨size, fun x hx j hj => before j ?_⟩⟩
  · rw [← end_eq]
    refine around.toLaid.reseal before (by omega) (by omega) (by simp only [wordSize]; omega)
      (by simp only [alignment]; omega) ?_
    rw [end_eq]
    exact word
  · have off := around.outside hx
    omega
  · have off := around.outside (List.mem_append_left _ hx.1)
    simp only [Extent.stop] at hj
    omega

/-- The bytes behind a gap at the end of a heap become one vacant block together with the gap. -/
theorem seal_ok (fills : ∀ x, filled x → hardened = true)
    (around : Around filled m lists high pre e.block hi [] mark shelves)
    (free : e.allocated = false) (regular : e.Regular) (stop : e.stop + wordSize = high + growth)
    (units : growth % alignment = 0) (grown : high + growth ≤ m.size) :
    ∃ m₁ m₂, m.writeFree hardened e.block e.size true = .ok m₁ ∧
      m₁.putHeader hardened e.stop (.epilogue false) = .ok m₂ ∧
      Around filled m₂ lists (high + growth) pre e.block e.stop [] false shelves ∧
      Vacant filled m₂ e true ∧ SamePayloads pre m m₂ := by
  obtain ⟨-, start_mod, -⟩ := around.gap
  have inside : e.stop + wordSize ≤ m.size := stop ▸ grown
  obtain ⟨m₁, hwrite, vacant, frame₁, -⟩ := writeFree_ok fills true free regular
    (Nat.le_trans (Nat.le_add_right ..) inside) around.bounded fun _ => start_mod
  obtain ⟨m₂, hput, word, frame₂⟩ := m₁.putHeader_ok hardened e.stop (.epilogue false)
    (by rw [frame₁.size]; exact inside) rfl (Nat.two_pow_pos 64)
  have before : ∀ j, j < e.block → m₂.byte j = m.byte j := by
    intro j hj
    rw [frame₂.byte j (by simp only [Extent.stop, wordSize]; omega), frame₁.byte j (by omega)]
  obtain ⟨around₂, same⟩ := around.reseal (frame₂.size.trans frame₁.size) before
    (Nat.le_add_right ..) stop units grown word
  exact ⟨m₁, m₂, hwrite, hput, around₂, vacant.congr fun j hj _ => frame₂.byte j (by omega), same⟩

/-- Appending starts with a gap at the end of the heap: where a free block is, that is taken off its
list first. -/
theorem append_open (hardened : Bool) (starts : StartSet) (growth : Nat)
    (tiled : Tiled filled m lists high es shelves) :
    ∃ block pre m' lists' shelves' mark,
      Arena.append hardened ⟨m, lists, starts⟩ (endOf high es) growth = (do
        let size ← addWord (endOf high es).trailingSize growth
        let m ← m'.writeFree hardened block size true
        let m ← m.putHeader hardened (block + size) (.epilogue false)
        return (block, ⟨m, lists', starts⟩)) ∧
      Gap.joinPrev ⟨es, high - wordSize, high - wordSize, [], shelves⟩
        = ⟨pre, block, high - wordSize, [], shelves'⟩ ∧
      Around filled m' lists' high pre block (high - wordSize) [] mark shelves' ∧
      block + (endOf high es).trailingSize = high - wordSize ∧
      (endOf high es).trailingSize % alignment = 0 ∧ lastAllocated true pre = true ∧
      (∀ x, Live pre x ↔ Live es x) ∧ SamePayloads es m m' := by
  cases last : lastAllocated true es with
  | true =>
    rw [← List.append_nil es] at tiled
    obtain ⟨a, around⟩ := tiled.split
    obtain rfl : a = high - wordSize := around.after
    rw [endOf_of_taken last]
    exact ⟨high - wordSize, es, m, lists, shelves, _, rfl,
      Gap.joinPrev_of_taken (lastAllocated_iff.mp last), around, rfl, rfl, last, fun x => .rfl,
      .refl ..⟩
  | false =>
    rcases List.eq_nil_or_concat es with rfl | ⟨pre, t, rfl⟩
    · cases last
    rw [List.concat_eq_append] at tiled last ⊢
    have free : t.allocated = false := by
      rwa [lastAllocated_append_cons] at last
    obtain ⟨lists', m', hremove, around, vacant, last', -, same, -⟩ := tiled.unlist hardened free
    have stop : t.stop = high - wordSize := around.after
    obtain ⟨-, -, -, -, high_le, inside⟩ := around.gap
    have header := vacant.tagged.header_eq vacant.regular (by omega)
    have live : ∀ x, Live pre x ↔ Live (pre ++ [t]) x := fun x => by
      rw [live_middle_free free, List.append_nil]
    rw [stop] at around
    rw [endOf_of_free free]
    refine ⟨t.block, pre, m', lists', shelves.unlist t, _, ?_, Gap.joinPrev_of_free free, around,
      stop, vacant.regular.units, last', live, ?_⟩
    · unfold Arena.append Arena.unlist
      dsimp only
      rw [hremove]
      dsimp only [pure_eq_ok, ok_bind]
      rw [header]
      rfl
    · rw [List.append_nil] at same
      exact same.mono fun x => (live x).mpr

/-- **The bytes that a memory grew by become one vacant block,** together with the free block before
them, if there is one. -/
theorem append_ok (fills : ∀ x, filled x → hardened = true) (starts : StartSet)
    (tiled : Tiled filled m lists high es shelves) (grown : high + growth ≤ m.size)
    (units : growth % alignment = 0) (room : minBlockSize ≤ (endOf high es).trailingSize + growth) :
    ∃ e pre m' lists' shelves',
      Arena.append hardened ⟨m, lists, starts⟩ (endOf high es) growth
        = .ok (e.block, ⟨m', lists', starts⟩) ∧
      Gap.joinPrev ⟨es, high - wordSize, high - wordSize, [], shelves⟩
        = ⟨pre, e.block, high - wordSize, [], shelves'⟩ ∧
      e.stop = high - wordSize + growth ∧
      Around filled m' lists' (high + growth) pre e.block e.stop [] false shelves' ∧
      Vacant filled m' e true ∧ lastAllocated true pre = true ∧
      e.size = (endOf high es).trailingSize + growth ∧ (∀ x, Live pre x ↔ Live es x) ∧
      SamePayloads es m m' := by
  have bounded := tiled.bounded
  obtain ⟨block, pre, m₁, lists₁, shelves₁, mark, hopen, plan, around₁, stop, trailing_units, last,
    live, same₁⟩ := append_open hardened starts growth tiled
  obtain ⟨-, -, -, -, high_le, inside⟩ := around₁.gap
  have size₁ := same₁.size
  simp only [wordSize, alignment] at stop trailing_units high_le
  have sum : addWord (endOf high es).trailingSize growth
      = .ok ((endOf high es).trailingSize + growth) := addWord_of_lt (by omega)
  have regular : (⟨block, (endOf high es).trailingSize + growth, false⟩ : Extent).Regular := by
    simp only [alignment] at units
    exact ⟨room, by simp only [alignment]; omega⟩
  obtain ⟨m₂, m₃, hwrite, hput, around₃, vacant, same₃⟩ :=
    seal_ok fills around₁ rfl regular (by simp only [Extent.stop, wordSize]; omega) units (by omega)
  refine ⟨_, pre, m₃, lists₁, shelves₁, ?_, plan, ?_, around₃, vacant, last, rfl, live,
    same₁.trans (same₃.mono fun x => (live x).mpr)⟩
  · rw [hopen, sum, ok_bind]
    dsimp only at hwrite ⊢
    rw [hwrite, ok_bind]
    exact congrArg (· >>= _) hput
  · simp only [Extent.stop, wordSize]
    omega

/-! ## The room behind an allocated block -/

/-- What an allocated extent could grow into when `post` comes behind it. -/
def roomOf (e : Extent) (prev : Bool) (post : List Extent) : Arena.Room :=
  match post with
  | r :: _ =>
    if r.allocated then ⟨e.header prev, none, e.size, e.stop⟩
    else ⟨e.header prev, some r.block, e.size + r.size, r.stop⟩
  | [] => ⟨e.header prev, none, e.size, e.stop⟩

/-- Before an allocated block, or the epilogue, there is no room. -/
theorem roomOf_of_taken (next : ∀ y ∈ post.head?, y.allocated = true) :
    roomOf e prev post = ⟨e.header prev, none, e.size, e.stop⟩ := by
  cases post with
  | nil => rfl
  | cons r post => exact if_pos (next r rfl)

/-- Before a free block, there is that block's. -/
theorem roomOf_of_free (free : r.allocated = false) :
    roomOf e prev (r :: post) = ⟨e.header prev, some r.block, e.size + r.size, r.stop⟩ :=
  if_neg (by rw [free]; exact Bool.false_ne_true)

/-- **The room of a block is what its next extent says.** -/
theorem room_eq (tiled : Tiled filled m lists high (pre ++ e :: post) shelves)
    (taken : e.allocated = true) :
    Arena.room m e.block = .ok (roomOf e (lastAllocated true pre) post) := by
  obtain ⟨around, regular, tagged⟩ := tiled.open_taken taken
  obtain ⟨-, -, -, -, high_le, inside⟩ := around.gap
  have header := tagged.header_eq regular (by omega)
  have behind := around.header_behind
  have bounded := around.bounded
  unfold Arena.room
  rw [header, ok_bind]
  dsimp only
  show (m.header e.stop >>= _) = _
  rw [behind, ok_bind]
  by_cases next : ∀ y ∈ post.head?, y.allocated = true
  · rw [roomOf_of_taken next]
    have stays :
        ((post.head?.getD (.epilogue (high - wordSize))).header true).allocated = true := by
      cases post with
      | nil => rfl
      | cons y post => exact next y rfl
    exact if_pos stays
  · cases post with
    | nil => exact absurd (fun y hy => by cases hy) next
    | cons r post =>
      have free : r.allocated = false := by simpa using next
      have off := around.outside (x := r) (by simp)
      obtain ⟨-, start, -⟩ := around.toLaid.widen_right
      have start : r.block = e.block + e.size := start
      have sum : addWord e.size r.size = .ok (e.size + r.size) := addWord_of_lt (by omega)
      have sum' : addWord (e.block + e.size) r.size = .ok r.stop := by
        rw [addWord_of_lt (by omega), Extent.stop, start]
      have stays : ¬ ((((r :: post).head?.getD (.epilogue (high - wordSize))).header true).allocated
          = true) := by
        show ¬ r.allocated = true
        rw [free]
        exact Bool.false_ne_true
      rw [roomOf_of_free free, if_neg stays]
      show (addWord e.size r.size >>= _) = _
      rw [sum, ok_bind]
      show (addWord (e.block + e.size) r.size >>= _) = _
      rw [sum', ok_bind, start]
      rfl

/-- An allocated block and its room become a gap. -/
theorem clear_ok (hardened : Bool) (starts : StartSet) (prev : Bool)
    (tiled : Tiled filled m lists high (pre ++ e :: post) shelves) (taken : e.allocated = true) :
    ∃ lists' m' shelves' post' mark',
      Arena.clear hardened ⟨m, lists, starts⟩ (roomOf e prev post) = .ok ⟨m', lists', starts⟩ ∧
      Gap.joinNext ⟨pre, e.block, e.stop, post, shelves⟩
        = ⟨pre, e.block, (roomOf e prev post).stop, post', shelves'⟩ ∧
      Around filled m' lists' high pre e.block (roomOf e prev post).stop post' mark' shelves' ∧
      (∀ y ∈ post'.head?, y.allocated = true) ∧
      e.block + (roomOf e prev post).available = (roomOf e prev post).stop ∧
      e.size ≤ (roomOf e prev post).available ∧
      (∀ x, Live (pre ++ post') x ↔ Live (pre ++ post) x) ∧
      SamePayloads (pre ++ e :: post) m m' := by
  by_cases next : ∀ y ∈ post.head?, y.allocated = true
  · obtain ⟨around, -, -⟩ := tiled.open_taken taken
    rw [roomOf_of_taken next]
    exact ⟨lists, m, shelves, post, true, rfl, Gap.joinNext_of_taken next, around, next, rfl,
      Nat.le_refl _, fun x => .rfl, .refl ..⟩
  · cases post with
    | nil => exact absurd (fun y hy => by cases hy) next
    | cons r post =>
      have free : r.allocated = false := by simpa using next
      rw [roomOf_of_free free]
      have split : pre ++ e :: r :: post = pre ++ [e] ++ r :: post := by simp
      rw [split] at tiled
      obtain ⟨lists', m', hremove, around', -, -, next', same, -⟩ := tiled.unlist hardened free
      have start : e.stop = r.block := by
        obtain ⟨a, around⟩ := tiled.split
        obtain ⟨-, stop, -⟩ := around.toLaid.widen_left
        obtain ⟨-, start, -⟩ := around.toLaid.widen_right
        rw [stop, start]
      refine ⟨lists', m', shelves.unlist r, post, false, ?_, Gap.joinNext_of_free free,
        around'.widen_taken taken, next', ?_, Nat.le_add_right ..,
        fun x => (live_middle_free free).symm, same.mono ?_⟩
      · show Arena.unlist hardened ⟨m, lists, starts⟩ r.block = _
        unfold Arena.unlist
        dsimp only
        rw [hremove]
        rfl
      · simp only [Extent.stop] at start ⊢
        omega
      · intro x hx
        rw [split] at hx
        exact (live_middle_free free).mp hx

/-- The room of a block is the gap that it and a free block behind it would leave. -/
theorem roomOf_gap (starts : StartSet) (prev : Bool)
    (tiled : Tiled filled m lists high (pre ++ e :: post) shelves) (taken : e.allocated = true) :
    (Gap.joinNext ⟨pre, e.block, e.stop, post, shelves⟩).length = (roomOf e prev post).available ∧
      (Gap.joinNext ⟨pre, e.block, e.stop, post, shelves⟩).hi = (roomOf e prev post).stop := by
  obtain ⟨lists', m', shelves', post', mark', -, plan, -, -, stop, -⟩ :=
    clear_ok false starts prev tiled taken
  rw [plan, Gap.length]
  dsimp only
  exact ⟨by omega, rfl⟩

/-- A gap at the end of a heap and the bytes behind it are made one allocated block: its header is
written, and an epilogue behind it. -/
theorem Around.fill_end (hardened : Bool)
    (around : Around filled m lists high pre e.block hi [] mark shelves)
    (taken : e.allocated = true) (regular : e.Regular)
    (stop : e.stop + wordSize = high + growth) (units : growth % alignment = 0)
    (grown : high + growth ≤ m.size) :
    ∃ m₁ m₂, m.putHeader hardened e.block (.taken e.size (lastAllocated true pre)) = .ok m₁ ∧
      m₁.putHeader hardened e.stop (.epilogue true) = .ok m₂ ∧
      Tiled filled m₂ lists (high + growth) (pre ++ [e]) shelves ∧ SamePayloads pre m m₂ ∧
      ∀ j, Span (payloadOf e.block) e.stop j → m₂.byte j = m.byte j := by
  have bounded := around.bounded
  have room : 32 ≤ e.size := regular.room
  have stop_eq : e.stop = e.block + e.size := rfl
  have inside : e.stop + wordSize ≤ m.size := stop ▸ grown
  simp only [wordSize] at inside
  obtain ⟨m₁, hput₁, word₁, frame₁⟩ := m.putHeader_ok hardened e.block
    (.taken e.size (lastAllocated true pre)) (by simp only [wordSize]; omega) regular.units
    (show e.size < wordBound by omega)
  obtain ⟨m₂, hput₂, word₂, frame₂⟩ := m₁.putHeader_ok hardened e.stop (.epilogue true)
    (by rw [frame₁.size]; exact inside) rfl (Nat.two_pow_pos 64)
  have size₂ : m₂.size = m.size := frame₂.size.trans frame₁.size
  simp only [wordSize] at frame₁ frame₂
  have before : ∀ j, j < e.block → m₂.byte j = m.byte j := by
    intro j hj
    rw [frame₂.byte j (by omega), frame₁.byte j (by omega)]
  have inner : ∀ j, Span (payloadOf e.block) e.stop j → m₂.byte j = m.byte j := by
    intro j hj
    simp only [payloadOf, wordSize] at hj
    rw [frame₂.byte j (by omega), frame₁.byte j (by omega)]
  have tagged : e.Tagged m₂ (lastAllocated true pre) := by
    refine ⟨?_, fun free => by rw [taken] at free; cases free⟩
    rw [frame₂.word fun j hj hj' => by simp only [wordSize] at hj'; omega, word₁, Extent.header,
      taken]
    rfl
  obtain ⟨around₂, same⟩ := around.reseal size₂ before (by omega) stop units grown word₂
  exact ⟨m₁, m₂, hput₁, hput₂, Around.close_taken around₂ taken regular tagged, same, inner⟩

/-- A gap is made one allocated block, with the bytes that the heap grew by if there are any. -/
theorem Around.fill_at (hardened : Bool) (growth : Option Nat)
    (around : Around filled m lists high pre e.block hi post mark shelves)
    (taken : e.allocated = true) (regular : e.Regular)
    (next : ∀ y ∈ post.head?, y.allocated = true) (stop : e.stop = hi + growth.getD 0)
    (at_end : growth.isSome = true → post = []) (units : growth.getD 0 % alignment = 0)
    (grown : high + growth.getD 0 ≤ m.size) :
    ∃ m₁ m₂, m.putHeader hardened e.block (.taken e.size (lastAllocated true pre)) = .ok m₁ ∧
      Arena.endAt hardened m₁ e.stop growth = .ok m₂ ∧
      Tiled filled m₂ lists (high + growth.getD 0) (pre ++ e :: post) shelves ∧
      SamePayloads (pre ++ post) m m₂ ∧
      ∀ j, Span (payloadOf e.block) e.stop j → m₂.byte j = m.byte j := by
  cases growth with
  | none =>
    obtain rfl : e.stop = hi := stop
    exact around.fill hardened taken regular next
  | some n =>
    obtain rfl := at_end rfl
    obtain ⟨-, -, -, -, high_le, -⟩ := around.gap
    have last : hi = high - wordSize := around.after
    obtain ⟨m₁, m₂, hput, hend, tiled, same, inner⟩ := around.fill_end hardened taken regular
      (by simp only [Option.getD_some, wordSize] at stop last ⊢; omega) units grown
    exact ⟨m₁, m₂, hput, hend, tiled, by rwa [List.append_nil], inner⟩

/-- A room says what the block's header says. -/
theorem header_roomOf (e : Extent) (prev : Bool) (post : List Extent) :
    (roomOf e prev post).header = e.header prev := by
  unfold roomOf
  split
  · split <;> rfl
  · rfl

/-- **A block grows into the room behind it,** and at the end of a heap into what that grew by. -/
theorem absorb_ok (fills : ∀ x, filled x → hardened = true) (starts : StartSet)
    (growth : Option Nat)
    (tiled : Tiled filled m lists high (pre ++ e :: post) shelves) (taken : e.allocated = true)
    (large : minBlockSize ≤ size) (units : size % alignment = 0)
    (fits : size ≤ (roomOf e (lastAllocated true pre) post).available + growth.getD 0)
    (at_end : growth.isSome = true →
      (roomOf e (lastAllocated true pre) post).stop = high - wordSize)
    (growth_units : growth.getD 0 % alignment = 0) (grown : high + growth.getD 0 ≤ m.size) :
    ∃ m' lists' es' shelves' e',
      Arena.absorb hardened ⟨m, lists, starts⟩ e.block size
        (roomOf e (lastAllocated true pre) post) growth = .ok ⟨m', lists', starts⟩ ∧
      ((Gap.joinNext ⟨pre, e.block, e.stop, post, shelves⟩).widen (growth.getD 0)).cut size
        = ⟨es', shelves'⟩ ∧
      Tiled filled m' lists' (high + growth.getD 0) es' shelves' ∧
      Resized m m' (pre ++ post) e e' size es' := by
  obtain ⟨lists₁, m₁, shelves₁, post₁, mark₁, hclear, plan₁, around, next, stop, larger,
      live₁, same₁⟩ :=
    clear_ok hardened starts (lastAllocated true pre) tiled taken
  have room_header := header_roomOf e (lastAllocated true pre) post
  generalize roomOf e (lastAllocated true pre) post = room at *
  obtain ⟨-, start_mod, ordered, stop_mod, high_le, inside⟩ := around.gap
  have bounded := around.bounded
  have size₁ := same₁.size
  -- nothing lies between the room and the epilogue where the heap grew
  have post₁_nil : growth.isSome = true → post₁ = [] := by
    intro some_growth
    cases post₁ with
    | nil => rfl
    | cons y post₁ =>
      have off := around.outside (x := y) (by simp)
      obtain ⟨-, start, -⟩ := around.toLaid.widen_right
      have last := at_end some_growth
      simp only [wordSize] at last
      omega
  obtain ⟨whole, start, whole_size, whole_taken⟩ : ∃ x : Extent, x.block = e.block ∧
      x.size = room.available + growth.getD 0 ∧ x.allocated = true :=
    ⟨⟨e.block, room.available + growth.getD 0, true⟩, rfl, rfl, rfl⟩
  have whole_stop : whole.stop = e.block + (room.available + growth.getD 0) := by
    rw [Extent.stop, start, whole_size]
  have regular : whole.Regular := by
    simp only [minBlockSize, alignment] at large growth_units
    exact ⟨by simp only [minBlockSize]; omega, by simp only [alignment]; omega⟩
  rw [← start] at around
  obtain ⟨m₂, m₃, hput, hend, tiled₃, same₃, inner₃⟩ :=
    around.fill_at hardened growth whole_taken regular next (by omega) post₁_nil growth_units
      (by omega)
  obtain ⟨m₄, lists₄, es', shelves', e', hshrink, plan₄, tiled₄, resized⟩ :=
    shrink_ok fills starts tiled₃ whole_taken large units (by omega)
  have plan : ((Gap.joinNext ⟨pre, e.block, e.stop, post, shelves⟩).widen (growth.getD 0)).cut size
      = ⟨es', shelves'⟩ := by
    have reach : room.stop + growth.getD 0 = whole.stop := by omega
    rw [plan₁, Gap.widen]
    dsimp only
    rw [reach, ← start, plan₄]
  have live : ∀ x, Live (pre ++ e :: post) x ↔ x = e ∨ Live (pre ++ post) x := fun x =>
    live_middle_taken taken
  refine ⟨m₄, lists₄, es', shelves', e', ?_, plan, tiled₄,
    resized.after start (by omega) live₁ ?_ ?_⟩
  · have total : addWord room.available (growth.getD 0) = .ok (room.available + growth.getD 0) :=
      addWord_of_lt (by omega)
    unfold Arena.absorb
    rw [total, ok_bind, hclear, ok_bind]
    dsimp only
    rw [room_header, ← whole_stop, ← whole_size, ← start]
    show (m₁.putHeader hardened whole.block (.taken whole.size (lastAllocated true pre)) >>= _) = _
    rw [hput, ok_bind, hend, ok_bind]
    exact hshrink
  · exact (same₁.mono fun x hx => (live x).mpr (.inr hx)).trans
      (same₃.mono fun x => (live₁ x).mpr)
  · intro j hj
    rw [inner₃ j, same₁.byte e ((live e).mpr (.inl rfl)) j hj]
    simp only [payloadOf, Extent.stop, wordSize] at hj ⊢
    omega

/-! ## Empty heaps -/

/-- The extents of an empty heap up to `high`. -/
def blank (high : Nat) : List Extent :=
  if high = heapOverhead then [] else [⟨firstBlock, high - heapOverhead, false⟩]

/-- The shelves of an empty heap up to `high`. -/
def blankShelves (high : Nat) : Shelves :=
  if high = heapOverhead then .empty
  else Shelves.empty.list ⟨firstBlock, high - heapOverhead, false⟩

/-- Of an empty heap, nothing is live. -/
theorem not_live_blank : ¬ Live (blank high) x := by
  unfold blank
  split
  · exact live_nil
  · rw [live_cons_free rfl]
    exact live_nil

/-- A memory that ends with an epilogue is a heap with a gap before it. -/
theorem around_blank (filled : Extent → Prop) (inside : high ≤ m.size)
    (bounded : m.size < wordBound) (large : heapOverhead ≤ high) (units : high % alignment = 0)
    (word : m.word (high - wordSize) = (Header.epilogue mark).encode) :
    Around filled m .empty high [] firstBlock (high - wordSize) [] mark .empty where
  inside := inside
  bounded := bounded
  before := rfl
  after := rfl
  ordered := by
    simp only [heapOverhead, firstBlock, wordSize] at large ⊢
    omega
  aligned := by
    simp only [heapOverhead, firstBlock, wordSize, alignment] at large units ⊢
    omega
  front := trivial
  back := ⟨⟨word, fun free => by cases free⟩, trivial⟩
  poisoned x hx := absurd hx List.not_mem_nil
  left := .nil
  right := .nil
  shelving := .empty ..
  filed c b := ⟨fun hb => absurd hb List.not_mem_nil, fun ⟨x, hx, _⟩ => absurd hx List.not_mem_nil⟩

/-- **An empty heap is written over all of a memory.** -/
theorem format_ok (fills : ∀ x, filled x → hardened = true) (size : m.size = high)
    (bounded : m.size < wordBound) (large : heapOverhead ≤ high) (units : high % alignment = 0)
    (room : high = heapOverhead ∨ heapOverhead + minBlockSize ≤ high) :
    ∃ m' lists', Arena.format hardened m high = .ok (high - heapOverhead, ⟨m', lists', .empty⟩) ∧
      m'.size = m.size ∧ Tiled filled m' lists' high (blank high) (blankShelves high) := by
  simp only [heapOverhead, minBlockSize, alignment] at large units room
  have padding : m.writeWord 0 0 = .ok (m.putWord 0 0) :=
    writeWord_of_le (by simp only [wordSize]; omega)
  have size₁ : (m.putWord 0 0).size = m.size := size_putWord ..
  generalize m.putWord 0 0 = m₁ at padding size₁
  have sub : subWord high heapOverhead = .ok (high - heapOverhead) :=
    subWord_of_le (by simp only [heapOverhead]; omega)
  unfold Arena.format blank blankShelves
  rw [padding, ok_bind, sub, ok_bind]
  by_cases bare : high = heapOverhead
  · subst bare
    obtain ⟨m₂, hput, word, frame⟩ := m₁.putHeader_ok hardened firstBlock (.epilogue true)
      (by simp only [firstBlock, wordSize]; omega) rfl (Nat.two_pow_pos 64)
    have size₂ := frame.size
    have around := around_blank filled (by omega) (by omega) (Nat.le_refl _) rfl word
    refine ⟨m₂, .empty, ?_, by omega, Around.close around fun x hx => by cases hx⟩
    rw [if_pos (Nat.sub_self _), hput]
    rfl
  · simp only [heapOverhead] at bare
    rw [if_neg (by simp only [heapOverhead]; omega), if_neg bare, if_neg bare]
    obtain ⟨e, start, size_eq, free⟩ : ∃ x : Extent, x.block = firstBlock ∧
        x.size = high - heapOverhead ∧ x.allocated = false :=
      ⟨⟨firstBlock, high - heapOverhead, false⟩, rfl, rfl, rfl⟩
    have stop : e.stop = high - wordSize := by
      simp only [Extent.stop, start, size_eq, firstBlock, heapOverhead, wordSize]
      omega
    simp only [heapOverhead] at size_eq
    simp only [wordSize] at stop
    obtain ⟨m₂, hwrite, vacant, frame₂, -⟩ := writeFree_ok (m := m₁) fills true free
      ⟨by simp only [minBlockSize]; omega, by simp only [alignment]; omega⟩ (by omega) (by omega)
      fun _ => by rw [start]; rfl
    have size₂ := frame₂.size
    obtain ⟨m₃, hput, word, frame₃⟩ := m₂.putHeader_ok hardened e.stop (.epilogue false)
      (by simp only [wordSize]; omega) rfl (Nat.two_pow_pos 64)
    have size₃ := frame₃.size
    have around : Around filled m₃ .empty high [] firstBlock (high - 8) [] false .empty :=
      around_blank filled (by omega) (by omega) (by simp only [heapOverhead]; omega) units
        (by rw [wordSize, ← stop]; exact word)
    rw [← stop, ← start] at around
    have vacant₃ : Vacant filled m₃ e true := vacant.congr fun j hj _ =>
      frame₃.byte j (by omega)
    obtain ⟨lists₄, m₄, hinsert, tiled, same, -⟩ :=
      around.list hardened vacant₃ rfl fun y hy => by cases hy
    have whole : e = ⟨firstBlock, high - heapOverhead, false⟩ := by
      rw [← start, ← free]
      simp only [heapOverhead, ← size_eq]
    refine ⟨m₄, lists₄, ?_, by rw [same.size]; omega, by rwa [whole] at tiled⟩
    have stop' : firstBlock + (high - heapOverhead) = e.stop := by
      rw [Extent.stop, start, size_eq]
    rw [stop', ← start, heapOverhead, ← size_eq, hwrite, ok_bind, hput, ok_bind, hinsert, ok_bind]
    rfl

end TaggedHeap
