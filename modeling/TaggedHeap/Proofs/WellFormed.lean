import Mathlib.Algebra.GroupWithZero.Nat
import TaggedHeap.Proofs.Sound

/-!
# An audit accepts exactly the well-formed heaps

What a heap is, said without a program and without reference to how one comes about: `WellFormed` is
about the words in the memory, the heads of the lists and the start set, as they lie there.
`Figures` says in the same way what the figures of a heap are.

`audit_eq_ok_iff_wellFormed` compares the two with the audit, which is asked about any bytes, heads
and start set at all.  It goes through the layouts of the other modules twice: what a walk and
the lists have shown is put into the words of `WellFormed`, and what these words say is enough for a
walk and for following the lists.
-/

namespace TaggedHeap

open Memory

variable {hardened : Bool} {m : Memory} {arena : Arena} {high stop b : Nat}
  {prev cursor : Option Nat} {l : List Nat} {e : Extent} {es xs : List Extent} {shelves : Shelves}
  {mark : Bool} {s : Stats}

/-! ## Lists as they are followed -/

/-- What a link names: a block, or none if it is zero. -/
def linkAt (m : Memory) (slot : Nat) : Option Nat :=
  if m.word slot = 0 then none else some (m.word slot)

/-- Following the links from `cursor` on visits the blocks of a list, one after the other, and then
there are no more. -/
def Visits (m : Memory) : (cursor : Option Nat) → List Nat → Prop
  | cursor, [] => cursor = none
  | cursor, b :: rest => cursor = some b ∧ Visits m (linkAt m (nextSlot b)) rest

/-- The link of each block of a list to the one before names that, or none for the first block. -/
def NamesBefore (m : Memory) (l : List Nat) : Prop :=
  ∀ xs b ys, l = xs ++ b :: ys → linkAt m (prevSlot b) = xs.getLast?

/-- A link names a block, or none, if that is what its word says. -/
theorem linkAt_eq_iff {slot : Nat} {target : Option Nat} (pos : ∀ x ∈ target, x ≠ 0) :
    linkAt m slot = target ↔ m.word slot = target.getD 0 := by
  unfold linkAt
  cases target with
  | none => simp
  | some x =>
    have hx : x ≠ 0 := pos x rfl
    constructor
    · intro h
      split at h
      · cases h
      · exact Option.some.inj h
    · intro h
      rw [Option.getD_some] at h
      rw [h, if_neg hx]

/-- **Blocks that are visited in order, and name the ones before them, are linked.** -/
theorem linked_iff (cursor prev : Option Nat) (pos : ∀ x ∈ l, x ≠ 0) (first : ∀ x ∈ prev, x ≠ 0) :
    cursor = l.head? ∧ Linked m prev l none ↔
      Visits m cursor l ∧
        ∀ xs b ys, l = xs ++ b :: ys → linkAt m (prevSlot b) = xs.getLast?.or prev := by
  induction l generalizing prev cursor with
  | nil => simp [Linked, Visits]
  | cons b rest ih =>
    have pos_rest : ∀ x ∈ rest, x ≠ 0 := fun x hx => pos x (List.mem_cons_of_mem _ hx)
    have next_pos : ∀ x ∈ rest.head?, x ≠ 0 := fun x hx => pos_rest x (List.mem_of_head? hx)
    have own_pos : ∀ x ∈ some b, x ≠ 0 := by
      rintro _ ⟨⟩
      exact pos b List.mem_cons_self
    have ih' := ih (linkAt m (nextSlot b)) (some b) pos_rest own_pos
    rw [linkAt_eq_iff next_pos] at ih'
    simp only [Linked, Visits, List.head?_cons, Option.or_none]
    constructor
    · rintro ⟨here, next, before, linked⟩
      obtain ⟨visits, names⟩ := ih'.mp ⟨next, linked⟩
      refine ⟨⟨here, visits⟩, ?_⟩
      intro xs x ys split
      cases xs with
      | nil =>
        obtain ⟨rfl, rfl⟩ := List.cons.inj split
        exact (linkAt_eq_iff first).mpr before
      | cons y xs =>
        obtain ⟨rfl, split_rest⟩ := List.cons.inj split
        have named := names xs x ys split_rest
        rwa [List.getLast?_cons, Option.some_or, ← Option.or_some]
    · rintro ⟨⟨here, visits⟩, names⟩
      have before : m.word (prevSlot b) = prev.getD 0 :=
        (linkAt_eq_iff first).mp (names [] b rest rfl)
      obtain ⟨next, linked⟩ := ih'.mpr ⟨visits, fun xs x ys split => by
        have named := names (b :: xs) x ys (congrArg (b :: ·) split)
        rwa [List.getLast?_cons, Option.some_or, ← Option.or_some] at named⟩
      exact ⟨here, next, before, linked⟩

/-! ## Headers as they are read -/

/-- The word of an extent's header has clear reserved bits, the extent's size and state, and the
state of what lies before it. -/
def HeaderSays (m : Memory) (e : Extent) (mark : Bool) : Prop :=
  Header.reserved (m.word e.block) = false ∧ Header.decode (m.word e.block) = e.header mark

/-- An extent has its tags if its header says what it should, and its last word says the same if it
is free. -/
theorem Extent.tagged_iff (units : e.size % alignment = 0) :
    e.Tagged m mark ↔ HeaderSays m e mark ∧
      (e.allocated = false → m.word (e.stop - wordSize) = m.word e.block) := by
  constructor
  · intro tagged
    refine ⟨⟨?_, tagged.decode units⟩, fun free => (tagged.foot free).trans tagged.head.symm⟩
    rw [tagged.head]
    exact Header.reserved_encode units
  · rintro ⟨⟨reserved, decode⟩, foot⟩
    have head : m.word e.block = (e.header mark).encode := by
      rw [← decode, Header.encode_decode reserved]
    exact ⟨head, fun free => (foot free).trans head⟩

/-- Extents have their tags if each has them, behind what lies before it. -/
theorem tagged_iff_forall :
    Tagged m mark es ↔
      ∀ pre e post, es = pre ++ e :: post → e.Tagged m (lastAllocated mark pre) := by
  constructor
  · rintro tagged pre e post rfl
    exact (tagged_middle.mp tagged).2.1
  · intro each
    induction es generalizing mark with
    | nil => trivial
    | cons x es ih =>
      refine ⟨each [] x es rfl, ih fun pre e post split => ?_⟩
      exact each (x :: pre) e post (congrArg (x :: ·) split)

/-! ## Well-formed heaps -/

/-- An arena is a heap up to `high`: it consists of the blocks `es`, and its lists hold the blocks
on the shelves, in that order. -/
structure WellFormed (arena : Arena) (high : Nat) (es : List Extent) (shelves : Shelves) :
    Prop where
  /-- The memory ends where the heap does. -/
  size : arena.memory.size = high
  /-- There is room for the padding and the epilogue. -/
  large : heapOverhead ≤ high
  /-- The heap is whole units long. -/
  units : high % alignment = 0
  /-- The blocks lie one behind the other, from the padding to the epilogue, and none of them is
  smaller than the smallest. -/
  tiles : Contiguous firstBlock es (high - wordSize)
  /-- Every header, that of the epilogue included, has clear reserved bits, and says how large its
  block is, whether it is allocated, and whether the one before it is. -/
  headers : ∀ pre e post, es ++ [.epilogue (high - wordSize)] = pre ++ e :: post →
    HeaderSays arena.memory e (lastAllocated true pre)
  /-- The last word of every free block is that of its header. -/
  footers : ∀ e ∈ es, e.allocated = false →
    arena.memory.word (e.stop - wordSize) = arena.memory.word e.block
  /-- No two blocks next to each other are free. -/
  coalesced : ∀ pre x y post, es = pre ++ x :: y :: post → x.allocated = true ∨ y.allocated = true
  /-- The start set names the allocated blocks. -/
  starts : ∀ b, b % alignment = firstBlock →
    (arena.starts.contains b = true ↔ ∃ e ∈ es, e.allocated = true ∧ e.block = b)
  /-- Following the links from the heads visits the shelves. -/
  visited : ∀ c, Visits arena.memory (arena.lists.head c) (shelves c)
  /-- Every listed block names the one before it. -/
  before : ∀ c, NamesBefore arena.memory (shelves c)
  /-- Every free block is listed once, and nothing else is. -/
  listed : (SizeClass.all.flatMap shelves).Perm ((es.filter fun e => !e.allocated).map (·.block))
  /-- It is listed in the class of its size. -/
  sorted : ∀ c, ∀ e ∈ es, e.allocated = false → e.block ∈ shelves c → SizeClass.of e.size = c

/-- The figures of a heap up to `high` that consists of the blocks `es`. -/
structure Figures (high : Nat) (es : List Extent) (s : Stats) : Prop where
  /-- All bytes. -/
  heapSize : s.heapSize = high
  /-- The number of allocated blocks. -/
  allocatedBlocks : s.allocatedBlocks = es.countP (·.allocated)
  /-- The bytes of the allocated blocks. -/
  allocatedBytes : s.allocatedBytes = ((es.filter (·.allocated)).map (·.size)).sum
  /-- The number of free blocks. -/
  freeBlocks : s.freeBlocks = es.countP fun e => !e.allocated
  /-- The bytes of the free blocks. -/
  freeBytes : s.freeBytes = ((es.filter fun e => !e.allocated).map (·.size)).sum
  /-- No free block is larger than the largest one. -/
  bound : ∀ e ∈ es, e.allocated = false → e.size ≤ s.largestFree
  /-- There is one as large as that, or no free block at all. -/
  attained : (∃ e ∈ es, e.allocated = false ∧ e.size = s.largestFree) ∨
    s.largestFree = 0 ∧ ∀ e ∈ es, e.allocated = true

/-! ## Figures -/

/-- The bytes of some blocks are the sum of their sizes. -/
theorem bytesOf_eq_sum (es : List Extent) : bytesOf es = (es.map (·.size)).sum := by
  induction es with
  | nil => rfl
  | cons e es ih => rw [bytesOf, ih, List.map_cons, List.sum_cons]

/-- No block is larger than the largest. -/
theorem le_largestOf (he : e ∈ es) : e.size ≤ largestOf es := by
  induction es with
  | nil => cases he
  | cons x es ih =>
    rw [largestOf]
    rcases List.mem_cons.mp he with rfl | he
    · exact Nat.le_max_left ..
    · exact (ih he).trans (Nat.le_max_right ..)

/-- One of the blocks is the largest, if there are any. -/
theorem exists_largestOf (some_block : es ≠ []) : ∃ e ∈ es, e.size = largestOf es := by
  induction es with
  | nil => exact absurd rfl some_block
  | cons x es ih =>
    rw [largestOf]
    by_cases rest : es = []
    · subst rest
      exact ⟨x, List.mem_cons_self, (Nat.max_eq_left (Nat.zero_le _)).symm⟩
    · obtain ⟨e, he, largest⟩ := ih rest
      rcases Nat.le_total x.size (largestOf es) with smaller | larger
      · exact ⟨e, List.mem_cons_of_mem _ he, by rw [largest, Nat.max_eq_right smaller]⟩
      · exact ⟨x, List.mem_cons_self, (Nat.max_eq_left larger).symm⟩

/-- **What an audit counts are the figures.** -/
theorem figures_ofExtents (high : Nat) (es : List Extent) :
    Figures high es (Stats.ofExtents high es) := by
  have free_iff :
      ∀ e, e ∈ es.filter (not ∘ fun x => x.allocated) ↔ e ∈ es ∧ e.allocated = false := by
    intro e
    simp only [List.mem_filter, Function.comp_apply, Bool.not_eq_true']
  unfold Stats.ofExtents
  rw [List.partition_eq_filter_filter]
  refine { heapSize := rfl, allocatedBlocks := List.countP_eq_length_filter.symm,
           allocatedBytes := bytesOf_eq_sum _, freeBlocks := List.countP_eq_length_filter.symm,
           freeBytes := bytesOf_eq_sum _, bound := ?_, attained := ?_ }
  · intro e he free
    exact le_largestOf ((free_iff e).mpr ⟨he, free⟩)
  · by_cases none_free : es.filter (not ∘ fun x => x.allocated) = []
    · right
      refine ⟨by rw [none_free]; rfl, ?_⟩
      intro e he
      by_contra free
      have he := (free_iff e).mpr ⟨he, Bool.not_eq_true _ ▸ free⟩
      rw [none_free] at he
      cases he
    · left
      obtain ⟨e, he, largest⟩ := exists_largestOf none_free
      obtain ⟨he, free⟩ := (free_iff e).mp he
      exact ⟨e, he, free, largest⟩

/-- A heap has only one set of figures. -/
theorem Figures.unique {t : Stats} (h : Figures high es s) (h' : Figures high es t) : s = t := by
  have largest : s.largestFree = t.largestFree := by
    rcases h.attained with ⟨e, he, free, size⟩ | ⟨zero, taken⟩
    · rcases h'.attained with ⟨x, hx, free', size'⟩ | ⟨-, taken⟩
      · exact Nat.le_antisymm (size ▸ h'.bound e he free) (size' ▸ h.bound x hx free')
      · rw [taken e he] at free
        cases free
    · rcases h'.attained with ⟨x, hx, free', -⟩ | ⟨zero', -⟩
      · rw [taken x hx] at free'
        cases free'
      · rw [zero, zero']
  obtain ⟨size, count, bytes, free, free_bytes, -, -⟩ := h
  obtain ⟨size', count', bytes', free', free_bytes', -, -⟩ := h'
  cases s
  cases t
  simp_all only

/-! ## An audit -/

/-- An arena that is sound is well formed, if it ends where its memory does. -/
theorem Arena.Sound.wellFormed {filled : Extent → Prop}
    (sound : arena.Sound filled high es shelves) (size : arena.memory.size = high) :
    WellFormed arena high es shelves := by
  have start : 8 ≤ high - 8 := sound.tiles.le
  have stop_mod : (high - 8) % 16 = 8 := sound.tiles.stop_mod
  have units : ∀ e ∈ es ++ [.epilogue (high - wordSize)], e.size % alignment = 0 := by
    intro e he
    rcases List.mem_append.mp he with he | he
    · exact (sound.tiles.bounds he).units
    · rw [List.mem_singleton.mp he]
      rfl
  have linked : ∀ c, _ := fun c => (linked_iff _ none
    (fun x hx => (sound.shelving.listable c x hx).pos) (fun x hx => by cases hx)).mp
    ⟨sound.shelving.heads c, sound.shelving.linked c⟩
  refine { size := size, large := ?_, units := ?_, tiles := sound.tiles, headers := ?_,
           footers := ?_, coalesced := ?_, starts := ?_, visited := fun c => (linked c).1,
           before := ?_, listed := sound.perm_shelves.symm, sorted := ?_ }
  · simp only [heapOverhead]
    omega
  · simp only [alignment]
    omega
  · intro pre e post split
    have tagged := tagged_iff_forall.mp sound.tagged pre e post split
    exact ((Extent.tagged_iff (units e (by rw [split]; simp))).mp tagged).1
  · intro e he free
    obtain ⟨prev, tagged⟩ := sound.tagged.of_mem (List.mem_append_left _ he)
    exact ((Extent.tagged_iff (sound.tiles.bounds he).units).mp tagged).2 free
  · intro pre x y post split
    exact List.isChain_iff_forall_rel_of_append_cons_cons.mp sound.coalesced split
  · intro b aligned
    rw [sound.marks b aligned]
    simp only [Live, and_assoc]
  · intro c xs b ys split
    have named := (linked c).2 xs b ys split
    rwa [Option.or_none] at named
  · intro c e he free listed
    obtain ⟨x, hx, -, same, class_eq⟩ := (sound.filed c e.block).mp listed
    rwa [sound.tiles.block_inj hx he same] at class_eq

/-- A well-formed heap is walked through. -/
theorem WellFormed.walked (h : WellFormed arena high es shelves) :
    Walked arena.memory arena.starts (high - wordSize) firstBlock true es := by
  have large : 16 ≤ high := h.large
  have marks : Marks arena.starts es := by
    intro b aligned
    rw [h.starts b aligned]
    simp only [Live, and_assoc]
  refine { inside := by rw [h.size]; simp only [wordSize]; omega, tiles := h.tiles, tagged := ?_,
           coalesced := ?_, first := fun last => (by cases last),
           agree := fun e he => marks.agree h.tiles he }
  · apply tagged_iff_forall.mpr
    intro pre e post split
    have mem : e ∈ es ++ [.epilogue (high - wordSize)] := by
      rw [split]
      simp
    rcases List.mem_append.mp mem with he | he
    · exact (Extent.tagged_iff (h.tiles.bounds he).units).mpr
        ⟨h.headers pre e post split, h.footers e he⟩
    · obtain rfl := List.mem_singleton.mp he
      exact (Extent.tagged_iff rfl).mpr ⟨h.headers pre _ post split, fun free => by cases free⟩
  · exact List.isChain_iff_forall_rel_of_append_cons_cons.mpr fun x y pre post split =>
      h.coalesced pre x y post split

/-- **A well-formed heap passes an audit.** -/
theorem WellFormed.audit (h : WellFormed arena high es shelves) (bounded : high < wordBound) :
    arena.audit hardened high = .ok (Stats.ofExtents high es) := by
  have walked := h.walked
  have perm : (freeBlocksOf es).Perm (SizeClass.all.flatMap shelves) := h.listed.symm
  have bounded' : arena.memory.size < wordBound := by rw [h.size]; exact bounded
  have listable : ∀ c, ∀ b ∈ shelves c, ∃ e ∈ es, e.allocated = false ∧ e.block = b ∧
      Listable arena.memory b ∧ sizeAt arena.memory b = e.size := by
    intro c b hb
    obtain ⟨e, he, free, rfl⟩ := (mem_shelves_iff perm).mp ⟨c, hb⟩
    obtain ⟨can, size⟩ := walked.listable bounded' he free
    exact ⟨e, he, free, rfl, can, size⟩
  have spec :
      ∀ c, arena.lists.head c = (shelves c).head? ∧ Linked arena.memory none (shelves c) none ∧
      ∀ b ∈ shelves c, SizeClass.of (sizeAt arena.memory b) = c := by
    intro c
    have pos : ∀ x ∈ shelves c, x ≠ 0 := fun x hx => by
      obtain ⟨-, -, -, -, can, -⟩ := listable c x hx
      exact can.pos
    obtain ⟨head, linked⟩ := (linked_iff _ none pos (fun x hx => by cases hx)).mpr
      ⟨h.visited c, fun xs b ys split => by rw [Option.or_none]; exact h.before c xs b ys split⟩
    refine ⟨head, linked, ?_⟩
    intro b hb
    obtain ⟨e, he, free, rfl, -, size⟩ := listable c b hb
    rw [size]
    exact h.sorted c e he free hb
  refine walked.audit ?_ (walked.shelving bounded' spec perm) perm h.size
  intro b aligned
  rw [h.starts b aligned]
  simp only [Live, and_assoc]

/-- **An audit of an allocator, whatever its bytes, heads and start set are, succeeds exactly if it
is initialised and its heap is well formed, and then with the figures of that heap.** -/
theorem audit_eq_ok_iff_wellFormed (a : Allocator) (s : Stats) :
    a.audit = .ok s ↔ a.ready = true ∧
      ∃ es shelves, WellFormed a.arena a.high es shelves ∧ Figures a.high es s := by
  unfold Allocator.audit
  cases ready : a.ready with
  | false =>
    constructor
    · intro h
      cases h
    · rintro ⟨h, -⟩
      cases h
  | true =>
    rw [if_pos rfl]
    constructor
    · intro h
      obtain ⟨size, es, shelves, sound, rfl⟩ := audit_sound a.high_lt h
      exact ⟨rfl, es, shelves, sound.wellFormed size, figures_ofExtents ..⟩
    · rintro ⟨-, es, shelves, wellFormed, figures⟩
      rw [wellFormed.audit a.high_lt, (figures_ofExtents a.high es).unique figures]

end TaggedHeap
