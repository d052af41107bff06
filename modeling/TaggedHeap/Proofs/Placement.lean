import TaggedHeap.Proofs.Sound

/-!
# How blocks are placed

A block of some size is taken from the free lists, or made by growing the heap, and then allocated.
Each of these steps goes through or is refused because there is no room, as in the outline that the
allocator shows, and a refusal leaves the allocator as it was.

* `Opened a a' es e pre post shelves filled` is what lies between the two halves: the block `e` is
  in no list, and nothing else is missing.
* `takeBlock_cases` says how the first half ends, and `allocateBlock_or_stops` how both do.  There
  is one more end on a hardened heap that somebody may have written to where nothing is allocated:
  it stops.
-/

namespace TaggedHeap

open Memory

namespace Allocator

variable {a a' : Allocator} {es pre post : List Extent} {shelves : Shelves} {e x : Extent}
  {size : Nat} {filled : Extent → Prop}

/-! ## Taking a block -/

/-- `a'` came from `a` by taking the free block `e`, from between `pre` and `post`, out of its list
or by making it at the end of the heap.  What is live in `es` is live still. -/
structure Opened (a a' : Allocator) (es : List Extent) (e : Extent) (pre post : List Extent)
    (shelves : Shelves) (filled : Extent → Prop) : Prop where
  /-- The allocator is initialised still. -/
  ready : a'.ready = true
  /-- The source tells the size of its memory. -/
  size : a'.high = a'.memory.size
  /-- The settings stay. -/
  config : a'.config = a.config
  /-- The start set stays. -/
  starts : a'.starts = a.starts
  /-- All but the block fits together. -/
  around : Around filled a'.memory a'.lists a'.high pre e.block e.stop post false shelves
  /-- The block is a free one. -/
  vacant : Vacant filled a'.memory e true
  /-- What lies before it is allocated. -/
  last : lastAllocated true pre = true
  /-- What lies behind it is allocated. -/
  next : ∀ y ∈ post.head?, y.allocated = true
  /-- The live blocks are those that were. -/
  live : ∀ x, Live (pre ++ post) x ↔ Live es x
  /-- They hold what they held. -/
  kept : ∀ x, Live es x → ∀ j, Span (payloadOf x.block) x.stop j →
    a'.memory.byte j = a.memory.byte j

/-- The size in the header of a block is its size. -/
theorem Sound.sizeAt (sound : a.Sound es shelves filled) (he : e ∈ es) :
    TaggedHeap.sizeAt a.memory e.block = e.size := by
  obtain ⟨-, -, -, units, -⟩ := sound.bounds he
  obtain ⟨prev, tagged⟩ := sound.arena.tagged.of_mem (List.mem_append_left _ he)
  have decode : Header.decode (a.memory.word e.block) = e.header prev := tagged.decode units
  rw [TaggedHeap.sizeAt, decode]
  rfl

/-- A block that is listed is taken out of its list, and only links are written. -/
theorem unlist_opens (sound : a.Sound es shelves filled) {c : SizeClass} {block : Nat}
    (listed : block ∈ shelves c) :
    ∃ e pre post a', e.block = block ∧ es = pre ++ e :: post ∧
      (editArena fun hardened arena => arena.unlist hardened block).outcome a = .ok () a' ∧
      Opened a a' es e pre post (shelves.unlist e) filled ∧ a'.terms = a.terms ∧
      e.size = TaggedHeap.sizeAt a.memory block ∧ a.memory.EqOff a'.memory (FreeLinkByte es) := by
  obtain ⟨e, he, free, rfl, -⟩ := (sound.arena.filed c block).mp listed
  have size := sound.sizeAt he
  obtain ⟨pre, post, rfl⟩ := List.append_of_mem he
  obtain ⟨lists', m', hremove, around, vacant, last, next, same, frame⟩ :=
    sound.arena.toTiled.unlist a.hardened free
  have step : Arena.unlist a.hardened a.arena e.block = .ok ⟨m', lists', a.starts⟩ := by
    unfold Arena.unlist
    dsimp only
    rw [hremove]
    rfl
  have high : (a.withArena ⟨m', lists', a.starts⟩).high = a.high := high_withArena same.size
  have live : ∀ x, Live (pre ++ post) x ↔ Live (pre ++ e :: post) x := fun x =>
    (live_middle_free free).symm
  refine ⟨e, pre, post, _, rfl, rfl, outcome_editArena_of_ok step,
    { ready := sound.ready, size := ?_, config := rfl, starts := rfl, around := ?_,
      vacant := vacant, last := last, next := next, live := live,
      kept := fun x hx => same.byte x ((live x).mpr hx) }, terms_withArena same.size, size.symm,
    frame⟩
  · rw [high, sound.size]
    exact same.size.symm
  · rw [high]
    exact around

/-- The heap is to grow by whole units, as many as are missing or more, unless no word
can be that. -/
theorem growthFor_cases (a : Allocator) (missing : Nat) :
    (a.terms.growth missing = .error .sizeOverflow ∧
      (growthFor missing).outcome a = .refused .sizeOverflow a) ∨
    ∃ growth, a.terms.growth missing = .ok growth ∧ (growthFor missing).outcome a = .ok growth a ∧
      missing ≤ growth ∧ growth % alignment = 0 := by
  have settled : (growthFor missing).outcome a
      = .ofExcept a ((a.terms.growth missing).mapError .refused) := by
    unfold growthFor
    rw [Action.outcome_bind, Action.outcome_read, Outcome.bind_ok, outcome_lift]
    rfl
  rw [settled]
  rcases wholeUnits_cases (max missing a.config.chunk) with ⟨growth, h, enough, units⟩ | h
  · right
    have h : a.terms.growth missing = .ok growth := h
    exact ⟨growth, h, by rw [h]; rfl, (Nat.le_max_left ..).trans enough, units⟩
  · left
    have h : a.terms.growth missing = .error .sizeOverflow := h
    exact ⟨h, by rw [h]; rfl⟩

/-- The last word of a heap is its epilogue. -/
theorem Sound.epilogue_endOf (sound : a.Sound es shelves filled) :
    (endOf a.high es).epilogue + wordSize = a.memory.size := by
  have start : firstBlock ≤ a.high - wordSize := sound.arena.tiles.le
  rw [TaggedHeap.epilogue_endOf, ← sound.size]
  simp only [firstBlock, wordSize] at start ⊢
  omega

/-- The gap that the end of a heap leaves is what the heap ends with. -/
theorem Sound.length_endOf (sound : a.Sound es shelves filled) :
    (Gap.joinPrev ⟨es, a.high - wordSize, a.high - wordSize, [], shelves⟩).length
      = (endOf a.high es).trailingSize := by
  obtain ⟨block, pre, m', lists', shelves', mark, -, plan, -, stop, -⟩ :=
    append_open a.hardened a.starts 0 sound.arena.toTiled
  rw [plan, Gap.length]
  dsimp only
  omega

/-- A heap that grew gets a free block at its end. -/
theorem append_opens {growth : Nat} (fills : ∀ x, filled x → a.hardened = true)
    (sound : a.Sound es shelves filled) (accepted : a.source.accepts growth = true)
    (units : growth % alignment = 0) (large : minBlockSize ≤ size)
    (enough : size - (endOf a.high es).trailingSize ≤ growth) :
    ∃ e pre shelves' a',
      (onArena fun hardened arena => arena.append hardened (endOf a.high es) growth).outcome
        (a.grown growth) = .ok e.block a' ∧
      (Gap.joinPrev ⟨es, a.high - wordSize, a.high - wordSize, [], shelves⟩).widen growth
        = ⟨pre, e.block, e.stop, [], shelves'⟩ ∧
      Opened a a' es e pre [] shelves' filled ∧ a'.terms = (a.grown growth).terms ∧
      size ≤ e.size := by
  obtain ⟨high, truthful, tiled⟩ := sound.grown accepted
  obtain ⟨e, pre, m', lists', shelves', happend, plan, stop, around, vacant, last, size_eq, live,
    same⟩ := append_ok fills a.starts tiled (by rw [← high]; exact Nat.le_of_eq truthful) units
    (by omega)
  have high' : ((a.grown growth).withArena ⟨m', lists', a.starts⟩).high = a.high + growth :=
    (high_withArena same.size).trans high
  refine ⟨e, pre, shelves', (a.grown growth).withArena ⟨m', lists', a.starts⟩,
    outcome_onArena_of_ok happend, by rw [plan, stop]; rfl,
    { ready := sound.ready, size := ?_, config := rfl, starts := rfl, around := ?_,
      vacant := vacant, last := last, next := fun y hy => (by cases hy), live := ?_,
      kept := ?_ }, terms_withArena same.size, by omega⟩
  · rw [high', ← high, truthful]
    exact same.size.symm
  · rw [high']
    exact around
  · intro x
    rw [List.append_nil, live]
  · intro x hx j hj
    exact (same.byte x hx j hj).trans (byte_extend ..)

section

variable {o : Outline}

/-- The heap grows by a block that is large enough, or is as it was and there is no room. -/
theorem blockFromGrowth_cases (fills : ∀ x, filled x → a.hardened = true)
    (shows : a.Shows o filled) (large : minBlockSize ≤ size) :
    (∃ error, Exhausted error ∧ o.openEnd size = .error error ∧
      (blockFromGrowth size).outcome a = .refused error a) ∨
    ∃ e pre post shelves' a',
      o.openEnd size = .ok (⟨pre, e.block, e.stop, post, shelves'⟩, a'.terms) ∧
      (blockFromGrowth size).outcome a = .ok e.block a' ∧
      Opened a a' o.extents e pre post shelves' filled ∧ size ≤ e.size := by
  have sound := shows.sound
  have heapEnd : Arena.heapEnd a.hardened a.memory a.high = .ok (endOf a.high o.extents) :=
    heapEnd_eq sound.arena.toTiled
  unfold blockFromGrowth Outline.openEnd
  rw [← shows.high, ← shows.terms]
  simp only [sound.length_endOf, Action.outcome_bind, Action.outcome_inspect, heapEnd, lift_ok,
    Outcome.ofExcept_ok, Outcome.bind_ok]
  rcases growthFor_cases a (size - (endOf a.high o.extents).trailingSize) with
    ⟨planned, overflow⟩ | ⟨growth, planned, hgrowth, enough, units⟩
  · left
    exact ⟨.sizeOverflow, .inl rfl, by rw [planned]; rfl,
      by rw [overflow, Outcome.bind_refused]⟩
  · rw [hgrowth, Outcome.bind_ok, planned, ok_bind]
    cases accepted : a.source.accepts growth with
    | false =>
      left
      exact ⟨_, .inr ⟨growth, rfl⟩, by rw [terms_grow_of_refuses accepted]; rfl,
        by rw [outcome_grow_of_refuses accepted, Outcome.bind_refused]⟩
    | true =>
      right
      obtain ⟨e, pre, shelves', a', appended, plan, opened, terms, fits⟩ :=
        append_opens fills sound accepted units large enough
      refine ⟨e, pre, [], shelves', a', ?_, ?_, opened, fits⟩
      · rw [terms_grow_of_accepts accepted, ok_bind, plan, terms]
        rfl
      · rw [outcome_grow_of_accepts accepted, Outcome.bind_ok,
          require_hardened fun _ => beq_iff_eq.mpr sound.epilogue_endOf.symm]
        exact appended

/-- Scans by any policy find in the memory what they find in the outline. -/
theorem Shows.scans_eq (shows : a.Shows o filled) (fit : FitPolicy) (classes : List SizeClass) :
    classes.findSome? (fun c => scan fit size o.sizeOf (o.shelves c) none)
      = classes.findSome? fun c =>
        scan fit size (TaggedHeap.sizeAt a.memory) (o.shelves c) none := by
  have same : ∀ c, scan fit size o.sizeOf (o.shelves c) none
      = scan fit size (TaggedHeap.sizeAt a.memory) (o.shelves c) none := by
    intro c
    apply scan_congr
    intro b hb
    obtain ⟨e, he, -, rfl, -⟩ := (shows.sound.arena.filed c b).mp hb
    rw [shows.sizeOf he, shows.sound.sizeAt he]
  simp only [same]

/-- A search for a block finds in the memory what it finds in the outline. -/
theorem Shows.find_eq (shows : a.Shows o filled) :
    o.find size = (SizeClass.of size).upFrom.findSome? fun c =>
      scan a.config.fit size (TaggedHeap.sizeAt a.memory) (o.shelves c) none := by
  have fit : o.fit = a.config.fit := congrArg Terms.fit shows.terms.symm
  rw [Outline.find, shows.scans_eq, fit]

/-- **A search finds a free block if there is one that is large enough.** -/
theorem Shows.find_isSome (shows : a.Shows o filled) (he : e ∈ o.extents)
    (free : e.allocated = false) (fits : size ≤ e.size) : (o.find size).isSome := by
  have listed : e.block ∈ o.shelves (SizeClass.of e.size) :=
    (shows.sound.arena.filed _ _).mpr ⟨e, he, free, rfl, rfl⟩
  unfold Outline.find
  rw [List.findSome?_isSome_iff]
  refine ⟨_, SizeClass.mem_upFrom.mpr (SizeClass.of_mono fits), scan_isSome (.inl ?_)⟩
  exact ⟨e.block, listed, by rw [shows.sizeOf he]; exact fits⟩

/-- What a search finds is a free block that is large enough. -/
theorem Shows.of_find {block : Nat} (shows : a.Shows o filled) (found : o.find size = some block) :
    ∃ e ∈ o.extents, e.allocated = false ∧ size ≤ e.size ∧ e.block = block := by
  rw [shows.find_eq] at found
  obtain ⟨c, listed, fits⟩ := mem_of_findSome? found
  obtain ⟨e, he, free, rfl, -⟩ := (shows.sound.arena.filed c block).mp listed
  rw [shows.sound.sizeAt he] at fits
  exact ⟨e, he, free, fits, rfl⟩

/-- The block that a search finds is opened, and the source is not asked. -/
theorem Shows.openSpace_of_find (shows : a.Shows o filled) (he : e ∈ o.extents)
    (found : o.find size = some e.block) :
    ∃ pre post, o.extents = pre ++ e :: post ∧
      o.openSpace size = .ok (⟨pre, e.block, e.stop, post, o.shelves.unlist e⟩, o.toTerms) := by
  obtain ⟨pre, post, split⟩ := List.append_of_mem he
  refine ⟨pre, post, split, ?_⟩
  unfold Outline.openSpace
  rw [found, Option.bind_some, shows.spotAt split]
  rfl

/-- **Where a free block is large enough, one is opened,** and the source is not asked. -/
theorem Shows.openSpace_found (shows : a.Shows o filled) (he : e ∈ o.extents)
    (free : e.allocated = false) (fits : size ≤ e.size) :
    ∃ x ∈ o.extents, x.allocated = false ∧ size ≤ x.size ∧ ∃ pre post,
      o.openSpace size = .ok (⟨pre, x.block, x.stop, post, o.shelves.unlist x⟩, o.toTerms) := by
  obtain ⟨block, found⟩ := Option.isSome_iff_exists.mp (shows.find_isSome he free fits)
  obtain ⟨x, hx, free_x, fits_x, rfl⟩ := shows.of_find found
  obtain ⟨pre, post, -, opened⟩ := shows.openSpace_of_find hx found
  exact ⟨x, hx, free_x, fits_x, pre, post, opened⟩

/-- A search in the lists by any policy is a scan of the outline's shelves. -/
theorem Shows.findBlock_by (shows : a.Shows o filled) (large : minBlockSize ≤ size)
    (fit : FitPolicy) : a.lists.findBlock a.hardened a.memory fit size
      = .ok ((SizeClass.of size).upFrom.findSome? fun c =>
        scan fit size o.sizeOf (o.shelves c) none) := by
  rw [shows.scans_eq]
  exact TaggedHeap.findBlock_eq shows.sound.arena.shelving large

/-- A search in the lists finds what it finds in the outline. -/
theorem Shows.findBlock_eq (shows : a.Shows o filled) (large : minBlockSize ≤ size) :
    a.lists.findBlock a.hardened a.memory a.config.fit size = .ok (o.find size) := by
  rw [shows.find_eq]
  exact TaggedHeap.findBlock_eq shows.sound.arena.shelving large

/-- **The block that a search finds is taken,** and only links are written. -/
theorem takeBlock_found {block : Nat} (shows : a.Shows o filled) (large : minBlockSize ≤ size)
    (found : o.find size = some block) :
    ∃ e pre post a', e.block = block ∧ o.extents = pre ++ e :: post ∧ size ≤ e.size ∧
      o.openSpace size = .ok (⟨pre, e.block, e.stop, post, o.shelves.unlist e⟩, a'.terms) ∧
      (takeBlock size).outcome a = .ok e.block a' ∧
      Opened a a' o.extents e pre post (o.shelves.unlist e) filled ∧
      a.memory.EqOff a'.memory (FreeLinkByte o.extents) := by
  have search := found
  rw [shows.find_eq] at search
  obtain ⟨c, listed, fits⟩ := mem_of_findSome? search
  obtain ⟨e, pre, post, a', rfl, split, hunlist, opened, terms, size_eq, frame⟩ :=
    unlist_opens shows.sound listed
  refine ⟨e, pre, post, a', rfl, split, by omega, ?_, ?_, opened, frame⟩
  · unfold Outline.openSpace
    rw [found, Option.bind_some, shows.spotAt split, terms, shows.terms]
    rfl
  · unfold takeBlock
    simp only [Action.outcome_bind, Action.outcome_inspect, shows.findBlock_eq large, found,
      lift_ok, Outcome.ofExcept_ok, Outcome.bind_ok, hunlist]
    rfl

/-- A block that is large enough is found or made, or the allocator is as it was and there is no
room. -/
theorem takeBlock_cases (fills : ∀ x, filled x → a.hardened = true)
    (shows : a.Shows o filled) (large : minBlockSize ≤ size) :
    (∃ error, Exhausted error ∧ o.openSpace size = .error error ∧
      (takeBlock size).outcome a = .refused error a) ∨
    ∃ e pre post shelves' a',
      o.openSpace size = .ok (⟨pre, e.block, e.stop, post, shelves'⟩, a'.terms) ∧
      (takeBlock size).outcome a = .ok e.block a' ∧
      Opened a a' o.extents e pre post shelves' filled ∧ size ≤ e.size := by
  cases found : o.find size with
  | none =>
    unfold takeBlock Outline.openSpace
    simp only [Action.outcome_bind, Action.outcome_inspect, shows.findBlock_eq large, found,
      lift_ok, Outcome.ofExcept_ok, Outcome.bind_ok]
    exact blockFromGrowth_cases fills shows large
  | some block =>
    obtain ⟨e, pre, post, a', -, -, fits, planned, taken, opened, -⟩ :=
      takeBlock_found shows large found
    exact .inr ⟨e, pre, post, _, a', planned, taken, opened, fits⟩

/-! ## Allocating a block -/

/-- A block that is in no list is allocated, if nobody wrote to it. -/
theorem Opened.allocate {shelves' : Shelves} (fills : ∀ x, filled x → a'.hardened = true)
    (opened : Opened a a' es e pre post shelves' filled) (marks : Marks a.starts es)
    (large : minBlockSize ≤ size) (units : size % alignment = 0) (fits : size ≤ e.size)
    (pattern : a'.memory.requirePoison a'.hardened e.block e.size = .ok ()) :
    ∃ e' a'', (onArena fun hardened arena => arena.allocate hardened e.block size).outcome a'
        = .ok (payloadOf e'.block) a'' ∧
      e'.block = e.block ∧
      a''.Shows ⟨Gap.cut ⟨pre, e.block, e.stop, post, shelves'⟩ size, a'.terms,
        a.starts.insert e.block⟩ filled ∧
      Change a a'' es none (some e') filled ∧ (e'.size = size ∨ e'.size = size + alignment) := by
  obtain ⟨m', lists', es', shelves'', e', hallocate, plan, tiled, ⟨start, taken, snug⟩,
      live, same⟩ :=
    allocate_ok fills a'.starts opened.around opened.vacant opened.last opened.next large units fits
      pattern
  have live' : ∀ x, Live es' x ↔ x = e' ∨ Live es x := fun x => by rw [live, opened.live]
  have aligned : e'.block % alignment = firstBlock := by
    rw [start]
    exact opened.around.gap.2.1
  have marks' : Marks (a'.starts.insert e.block) es' := by
    rw [opened.starts, ← start]
    exact marks.insert aligned live'
  have step : Arena.allocate a'.hardened a'.arena e.block size
      = .ok (payloadOf e'.block, ⟨m', lists', a'.starts.insert e.block⟩) := by
    rw [start]
    exact hallocate
  have sound : (a'.withArena ⟨m', lists', a'.starts.insert e.block⟩).Sound es' shelves'' filled :=
    sound_withArena opened.ready opened.size same.size ⟨tiled, marks'⟩
  rw [plan]
  refine ⟨e', a'.withArena ⟨m', lists', a'.starts.insert e.block⟩, outcome_onArena_of_ok step,
    start, ⟨sound, terms_withArena same.size, congrArg (·.insert e.block) opened.starts⟩,
    { sound := ⟨es', shelves'', sound, ?_⟩, fresh := ?_, config := opened.config,
      kept := ?_ }, snug⟩
  · intro x
    rw [live' x]
    simp [eq_comm]
  · rintro y ⟨⟩ x hx -
    obtain ⟨hx, -⟩ := (opened.live x).mpr hx
    obtain ⟨-, -, room, -, -, apart⟩ := opened.around.outside hx
    rw [start]
    have room' : 32 ≤ e.size := opened.vacant.regular.room
    simp only [Extent.stop] at apart
    omega
  · intro x hx _ j hj
    exact (same.byte x ((opened.live x).mpr hx) j hj).trans (opened.kept x hx j hj)

/-- A hardened heap stops at a block that somebody wrote to. -/
theorem Opened.dirty {shelves' : Shelves} {fault : Fault}
    (opened : Opened a a' es e pre post shelves' filled) (fits : size ≤ e.size)
    (dirty : a'.memory.requirePoison a'.hardened e.block e.size = .error fault) :
    (onArena fun hardened arena => arena.allocate hardened e.block size).outcome a'
      = .fault fault := by
  obtain ⟨-, -, -, -, high_le, inside⟩ := opened.around.gap
  have inside : e.stop ≤ a'.memory.size := by omega
  have stops : Arena.allocate a'.hardened a'.arena e.block size = .error fault :=
    allocate_dirty a'.starts opened.vacant inside fits dirty
  rw [outcome_onArena, stops]

/-- A hardened heap stops when it comes to hand out `size` bytes: what was opened for them is the
free block `x`, and nothing is known of the pattern there. -/
structure Stopped (a : Allocator) (o : Outline) (size : Nat) (x : Extent) (filled : Extent → Prop) :
    Prop where
  /-- The heap makes self-checks. -/
  hard : a.hardened = true
  /-- The pattern did not have to be in the block. -/
  spoiled : ¬ filled x
  /-- The block is free. -/
  free : x.allocated = false
  /-- It is the gap that was opened. -/
  opened :
    ∃ pre post shelves terms, o.openSpace size = .ok (⟨pre, x.block, x.stop, post, shelves⟩, terms)

/-- **A block is allocated, or the allocator is as it was and there is no room,** or a hardened heap
stops at a block where the pattern did not have to be. -/
theorem allocateBlock_or_stops (fills : ∀ x, filled x → a.hardened = true)
    (shows : a.Shows o filled) (large : minBlockSize ≤ size) (units : size % alignment = 0) :
    (∃ error, Exhausted error ∧ o.allocateBlock size = .error error ∧
      (allocateBlock size).outcome a = .refused error a) ∨
    (∃ e a' o', o.allocateBlock size = .ok (payloadOf e.block, o') ∧
      (allocateBlock size).outcome a = .ok (payloadOf e.block) a' ∧ a'.Shows o' filled ∧
      Change a a' o.extents none (some e) filled ∧ (e.size = size ∨ e.size = size + alignment)) ∨
    ∃ x, Stopped a o size x filled ∧
      (allocateBlock size).outcome a = .fault (.dirtyBlock x.block) := by
  unfold allocateBlock Outline.allocateBlock
  rw [Action.outcome_bind]
  rcases takeBlock_cases fills shows large with ⟨error, full, planned, refused⟩ |
    ⟨e, pre, post, shelves', a', planned, taken, opened, fits⟩
  · left
    exact ⟨error, full, by rw [planned]; rfl, by rw [refused, Outcome.bind_refused]⟩
  · right
    rw [taken, Outcome.bind_ok, planned]
    have hardened : a'.hardened = a.hardened := congrArg Config.hardened opened.config
    obtain ⟨-, start_mod, -, -, high_le, inside⟩ := opened.around.gap
    rcases opened.vacant.requirePoison_cases a'.hardened (by omega) start_mod with
      ⟨pattern, -⟩ | ⟨hard, spoiled, dirty⟩
    · left
      obtain ⟨e', a'', answered, start, shows', change, snug⟩ :=
        opened.allocate (by rwa [hardened]) shows.sound.arena.marks large units fits pattern
      rw [shows.starts, ← start] at shows'
      exact ⟨e', a'', _, by rw [start]; rfl, answered, shows', change, snug⟩
    · right
      exact ⟨e,
        ⟨by rw [← hardened, hard], mt opened.vacant.poisoned spoiled, opened.vacant.free,
          _, _, _, _, planned⟩,
        opened.dirty fits dirty⟩

end

end Allocator

end TaggedHeap
