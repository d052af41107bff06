import TaggedHeap.Proofs.Pointers

/-!
# How requests end

Every request to a sound allocator ends with a value or with a refusal, and here is which, and what
the allocator looks like then.  A refusal leaves it as it was.  A success is always a `Change`: it
says which block went, which one came, and that all others stayed.  Which of the two it is, what the
value is and what the allocator shows afterwards, is what the outline says.

* `alloc_cases` and `calloc_cases` hand out a new block, and `free_live` takes one back.
* `realloc_cases` takes a block back and hands one out, which holds what the old one held.
* `init_cases` starts over, with an empty heap.
* `alloc_or_stops`, `free_shows_of_fills` and `realloc_or_stops` do without the pattern in free
  blocks.  A hardened heap may stop then.  `alloc_opened` and `alloc_refused` say it of one way that
  the outline goes.

What is said of a block that was handed out is in `Handed`: it has the size for the bytes that were
asked for, or too little more to be two blocks.
-/

namespace TaggedHeap

open Memory

/-- A block has the size of one for `n` bytes, or too little more to be a block of its own. -/
def Extent.Snug (e : Extent) (n : Nat) : Prop :=
  ∃ size, blockSizeFor n = .ok size ∧ (e.size = size ∨ e.size = size + alignment)

/-- A block for `n` bytes has room for them. -/
theorem Extent.Snug.room {e : Extent} {n : Nat} (snug : e.Snug n) : n + wordSize ≤ e.size := by
  obtain ⟨size, hsize, snug⟩ := snug
  obtain ⟨room, -, -⟩ := of_blockSizeFor hsize
  rcases snug with snug | snug <;> omega

namespace Outline

variable {o : Outline} {n size : Nat} {gap : Gap} {terms : Terms} {error : Refusal}

/-- A payload is handed out at the start of the gap that was opened for it. -/
theorem alloc_of_opened (pos : n ≠ 0) (hsize : blockSizeFor n = .ok size)
    (opened : o.openSpace size = .ok (gap, terms)) :
    o.alloc n = .ok (some (payloadOf gap.lo), ⟨gap.cut size, terms, o.starts.insert gap.lo⟩) := by
  unfold Outline.alloc Outline.allocateBlock
  rw [if_neg pos, hsize, ok_bind, opened]
  rfl

/-- Where no gap is opened, no payload is handed out. -/
theorem alloc_of_refused (pos : n ≠ 0) (hsize : blockSizeFor n = .ok size)
    (refused : o.openSpace size = .error error) : o.alloc n = .error error := by
  unfold Outline.alloc Outline.allocateBlock
  rw [if_neg pos, hsize, ok_bind, refused]
  rfl

end Outline

namespace Allocator

variable {a a' a'' : Allocator} {es pre post : List Extent} {shelves : Shelves} {e x : Extent}
  {gone : Option Extent} {o : Outline} {n size p : Nat} {filled : Extent → Prop}

/-- `a'` came from `a` by a request for `n` bytes that handed out the block `e`, and took `gone`
back if there is one. -/
structure Handed (a a' : Allocator) (es : List Extent) (gone : Option Extent) (e : Extent) (n : Nat)
    (filled : Extent → Prop := fun _ => a'.hardened = true) : Prop
    extends Change a a' es gone (some e) filled where
  /-- The block has the size that it should have. -/
  snug : e.Snug n

/-! ## Handing out -/

/-- A request for no bytes is answered with no payload. -/
theorem alloc_zero (sound : a.Sound es shelves filled) : (alloc 0).outcome a = .ok none a := by
  unfold alloc
  rw [Action.outcome_bind, sound.requireReady]
  rfl

/-- To hand out a payload is to allocate a block of its size. -/
theorem alloc_eq (sound : a.Sound es shelves filled) (pos : n ≠ 0)
    (hsize : blockSizeFor n = .ok size) :
    (alloc n).outcome a = ((allocateBlock size).outcome a).bind fun q b =>
      (verify.outcome b).bind fun _ c => .ok (some q) c := by
  unfold alloc
  simp only [Action.outcome_bind, sound.requireReady, Outcome.bind_ok, if_neg pos, outcome_lift,
    hsize, Except.mapError, Outcome.ofExcept_ok, Action.outcome_note, Action.outcome_pure]

/-- **A payload is handed out, or the allocator is as it was and there is no room,** or a hardened
heap stops at a block where the pattern did not have to be. -/
theorem alloc_or_stops (fills : ∀ x, filled x → a.hardened = true) (shows : a.Shows o filled)
    (pos : n ≠ 0) :
    (∃ error, Exhausted error ∧ o.alloc n = .error error ∧
      (alloc n).outcome a = .refused error a) ∨
    (∃ e a' o', o.alloc n = .ok (some (payloadOf e.block), o') ∧
      (alloc n).outcome a = .ok (some (payloadOf e.block)) a' ∧ a'.Shows o' filled ∧
      Handed a a' o.extents none e n filled) ∨
    ∃ x size, blockSizeFor n = .ok size ∧ Stopped a o size x filled ∧
      (alloc n).outcome a = .fault (.dirtyBlock x.block) := by
  unfold Outline.alloc
  rw [if_neg pos]
  rcases blockSizeFor_cases n with ⟨size, hsize, -, large, units⟩ | overflow
  · rw [hsize, ok_bind, alloc_eq shows.sound pos hsize]
    rcases allocateBlock_or_stops fills shows large units with ⟨error, full, planned, refused⟩ |
      ⟨e, a', o', planned, placed, shows', change, snug⟩ | ⟨x, stopped, stops⟩
    · left
      exact ⟨error, full, by rw [planned]; rfl, by rw [refused, Outcome.bind_refused]⟩
    · right
      left
      refine ⟨e, a', o', by rw [planned]; rfl, ?_, shows', change, size, hsize, snug⟩
      rw [placed, Outcome.bind_ok, shows'.sound.verify, Outcome.bind_ok]
    · right
      right
      exact ⟨x, size, rfl, stopped, by rw [stops]; rfl⟩
  · left
    refine ⟨.sizeOverflow, .inl rfl, by rw [overflow]; rfl, ?_⟩
    unfold alloc
    simp only [Action.outcome_bind, shows.sound.requireReady, Outcome.bind_ok, if_neg pos,
      outcome_lift, overflow]
    rfl

/-- **A payload is handed out, or the allocator is as it was and there is no room.** -/
theorem alloc_cases (shows : a.Shows o) (pos : n ≠ 0) :
    (∃ error, Exhausted error ∧ o.alloc n = .error error ∧
      (alloc n).outcome a = .refused error a) ∨
    ∃ e a' o', o.alloc n = .ok (some (payloadOf e.block), o') ∧
      (alloc n).outcome a = .ok (some (payloadOf e.block)) a' ∧ a'.Shows o' ∧
      Handed a a' o.extents none e n := by
  rcases alloc_or_stops (fun _ hard => hard) shows pos with
    refused | ⟨e, a', o', planned, answered, shows', handed⟩ | ⟨x, size, -, stopped, -⟩
  · exact .inl refused
  · rw [← handed.hardened] at shows' handed
    exact .inr ⟨e, a', o', planned, answered, shows', handed⟩
  · exact absurd stopped.hard stopped.spoiled

/-- **What was opened in the outline is handed out,** unless a hardened heap stops there. -/
theorem alloc_opened {gap : Gap} {terms : Terms} (fills : ∀ x, filled x → a.hardened = true)
    (shows : a.Shows o filled) (pos : n ≠ 0) (hsize : blockSizeFor n = .ok size)
    (opened : o.openSpace size = .ok (gap, terms)) :
    (∃ b, (alloc n).outcome a = .ok (some (payloadOf gap.lo)) b ∧
      b.Shows ⟨gap.cut size, terms, o.starts.insert gap.lo⟩ filled) ∨
    ∃ x : Extent, x.block = gap.lo ∧ x.stop = gap.hi ∧ x.allocated = false ∧ a.hardened = true ∧
      ¬ filled x ∧ (alloc n).outcome a = .fault (.dirtyBlock x.block) := by
  have plan := Outline.alloc_of_opened pos hsize opened
  rcases alloc_or_stops fills shows pos with ⟨error, -, planned, -⟩ |
    ⟨e, b, o', planned, answered, shows', -⟩ | ⟨x, size', hsize', stopped, stops⟩
  · rw [plan] at planned
    cases planned
  · rw [plan, Except.ok.injEq, Prod.mk.injEq] at planned
    obtain ⟨same, rfl⟩ := planned
    exact .inl ⟨b, by rw [same, answered], shows'⟩
  · obtain ⟨pre, post, shelves, terms', opened'⟩ := stopped.opened
    obtain rfl : size = size' := Except.ok.inj (hsize.symm.trans hsize')
    obtain ⟨rfl, -⟩ := Prod.mk.inj (Except.ok.inj (opened.symm.trans opened'))
    exact .inr ⟨x, rfl, rfl, stopped.free, stopped.hard, stopped.spoiled, stops⟩

/-- Where nothing was opened, the request is refused. -/
theorem alloc_refused {error : Refusal} (fills : ∀ x, filled x → a.hardened = true)
    (shows : a.Shows o filled) (pos : n ≠ 0) (hsize : blockSizeFor n = .ok size)
    (refused : o.openSpace size = .error error) :
    (alloc n).outcome a = .refused error a := by
  have plan := Outline.alloc_of_refused pos hsize refused
  rcases alloc_or_stops fills shows pos with ⟨error', -, planned, answered⟩ |
    ⟨e, b, o', planned, -⟩ | ⟨x, size', hsize', stopped, -⟩
  · obtain rfl := Except.error.inj (plan.symm.trans planned)
    exact answered
  · rw [plan] at planned
    cases planned
  · obtain ⟨pre, post, shelves, terms', opened⟩ := stopped.opened
    obtain rfl : size = size' := Except.ok.inj (hsize.symm.trans hsize')
    rw [refused] at opened
    cases opened

/-! ## Taking back -/

/-- A live block is freed. -/
theorem deallocate_live (fills : ∀ x, filled x → a.hardened = true) (shows : a.Shows o filled)
    (split : o.extents = pre ++ e :: post) (taken : e.allocated = true) :
    ∃ arena, Arena.deallocate a.hardened a.arena e.block = .ok arena ∧
      (a.withArena arena).Shows (o.release ⟨pre, e, post⟩) filled ∧
      Change a (a.withArena arena) o.extents (some e) none filled := by
  have sound := shows.sound
  have live : Live o.extents e := ⟨by simp [split], taken⟩
  obtain ⟨-, start_mod, -⟩ := sound.bounds live.1
  have known : a.starts.contains e.block = true :=
    (sound.arena.marks e.block start_mod).mpr ⟨e, live, rfl⟩
  have other : ∀ x ∈ o.extents, x ≠ e → x.block ≠ e.block := fun x hx hne same =>
    hne (sound.arena.tiles.block_inj hx live.1 same)
  have tiled := sound.arena.toTiled
  have old_marks := sound.arena.marks
  rw [split] at tiled other old_marks ⊢
  obtain ⟨m', lists', es', shelves', hfree, plan, tiled', live', same, -⟩ :=
    deallocate_ok fills tiled taken fun _ => known
  have others : ∀ x, Live es' x ↔ Live (pre ++ e :: post) x ∧ x ≠ e := fun x =>
    (live' x).trans (tiled.live_others taken)
  have marks : Marks (a.starts.remove e.block) es' :=
    old_marks.remove start_mod (fun x => by rw [live', live_middle_taken taken])
      fun x hx => other x ((others x).mp hx).1.1 ((others x).mp hx).2
  have sound' : (a.withArena ⟨m', lists', a.starts.remove e.block⟩).Sound es' shelves' filled :=
    sound_withArena sound.ready sound.size same.size ⟨tiled', marks⟩
  refine ⟨_, hfree, ?_,
    { sound := ⟨es', shelves', sound', ?_⟩,
      fresh := fun y hy => (by cases hy), config := rfl, kept := ?_ }⟩
  · unfold Outline.release Spot.gap
    rw [plan, ← shows.terms, ← shows.starts]
    exact ⟨sound', terms_withArena same.size, rfl⟩
  · intro x
    rw [others x]
    simp [eq_comm]
  · intro x hx stays j hj
    refine same.byte x ((tiled.live_others taken).mpr ⟨hx, ?_⟩) j hj
    rintro rfl
    exact stays rfl

/-- To take back a live payload is to free its block. -/
theorem free_eq (sound : a.Sound es shelves filled) (live : Live es e) :
    (free (some (payloadOf e.block))).outcome a
      = ((editArena fun hardened arena => arena.deallocate hardened e.block).outcome a).bind
        fun _ b => verify.outcome b := by
  unfold free
  simp only [Action.outcome_bind, sound.requireReady, Outcome.bind_ok, locate_live sound live,
    Action.outcome_note]

/-- A live payload is taken back, as in the outline, whichever free blocks hold the pattern. -/
theorem free_shows_of_fills (fills : ∀ x, filled x → a.hardened = true) (shows : a.Shows o filled)
    (live : Live o.extents e) :
    ∃ a' o', o.free (some (payloadOf e.block)) = .ok o' ∧
      (free (some (payloadOf e.block))).outcome a = .ok () a' ∧ a'.Shows o' filled ∧
      Change a a' o.extents (some e) none filled := by
  obtain ⟨pre, post, split⟩ := List.append_of_mem live.1
  obtain ⟨arena, freed, shows', change⟩ := deallocate_live fills shows split live.2
  have edited : (editArena fun hardened arena => arena.deallocate hardened e.block).outcome a
      = .ok () (a.withArena arena) :=
    outcome_editArena_of_ok freed
  refine ⟨_, _, ?_, ?_, shows', change⟩
  · show (o.locate (payloadOf e.block) >>= _) = _
    rw [shows.locate_live split live.2]
    rfl
  · rw [free_eq shows.sound live, edited, Outcome.bind_ok, shows'.sound.verify]

/-- A live payload is taken back, as in the outline. -/
theorem free_shows (shows : a.Shows o) (live : Live o.extents e) :
    ∃ a' o', o.free (some (payloadOf e.block)) = .ok o' ∧
      (free (some (payloadOf e.block))).outcome a = .ok () a' ∧ a'.Shows o' ∧
      Change a a' o.extents (some e) none := by
  obtain ⟨a', o', planned, freed, shows', change⟩ :=
    free_shows_of_fills (fun _ hard => hard) shows live
  rw [← change.hardened] at shows' change
  exact ⟨a', o', planned, freed, shows', change⟩

/-- **A live payload is taken back.** -/
theorem free_live (sound : a.Sound es shelves) (live : Live es e) :
    ∃ a', (free (some (payloadOf e.block))).outcome a = .ok () a' ∧
      Change a a' es (some e) none := by
  obtain ⟨a', -, -, freed, -, change⟩ := free_shows sound.shows live
  exact ⟨a', freed, change⟩

/-- A pointer that does not pass is not taken back. -/
theorem free_of_refused {error : Refusal} (ready : a.ready = true)
    (refused : a.validate p = .error (.refused error)) :
    (free (some p)).outcome a = .refused error a := by
  unfold free
  simp only [Action.outcome_bind, requireReady_of_ready ready, Outcome.bind_ok,
    locate_of_refused refused, Outcome.bind_refused]

/-- A pointer to no live payload is not taken back. -/
theorem free_dead (sound : a.Sound es shelves filled)
    (dead : ∀ e, Live es e → payloadOf e.block ≠ p) :
    ∃ error, Denied p error ∧ (free (some p)).outcome a = .refused error a := by
  obtain ⟨error, denied, refused⟩ := validate_dead sound dead
  exact ⟨error, denied, free_of_refused sound.ready refused⟩

/-! ## Handing out zeros -/

/-- No bytes are zeroed for a product that is no word. -/
theorem calloc_overflow (sound : a.Sound es shelves filled) (overflow : wordBound ≤ n * size) :
    (calloc n size).outcome a = .refused .sizeOverflow a := by
  unfold calloc
  rw [Action.outcome_bind, sound.requireReady, Outcome.bind_ok, if_pos overflow]
  rfl

/-- Sets all of the payload `p` to zero that its block has room for. -/
def zeroFill (p : Nat) (m : Memory) : Except Fault Memory := do
  let h ← m.header (p - wordSize)
  let capacity ← subWord h.size wordSize
  m.fillRange p 0 capacity

/-- To hand out zeros is to hand out as many bytes, and to set them to zero. -/
theorem calloc_eq (sound : a.Sound es shelves filled) (small : n * size < wordBound) :
    (calloc n size).outcome a = ((alloc (n * size)).outcome a).bind fun q b =>
      match q with
      | none => .ok none b
      | some p => ((editMemory (zeroFill p)).outcome b).bind fun _ c => .ok (some p) c := by
  unfold calloc
  simp only [Action.outcome_bind, sound.requireReady, Outcome.bind_ok,
    if_neg (Nat.not_le.mpr small)]
  congr 1
  funext q b
  cases q with
  | none => rfl
  | some p => exact Action.outcome_bind ..

/-- A request for no zeros is answered with no payload. -/
theorem calloc_zero (sound : a.Sound es shelves filled) (zero : n * size = 0) :
    (calloc n size).outcome a = .ok none a := by
  rw [calloc_eq sound (by rw [zero]; decide), zero, alloc_zero sound, Outcome.bind_ok]

/-- All of a live payload is set to zero. -/
theorem zeroFill_live (sound : a.Sound es shelves filled) (live : Live es e) :
    ∃ m', zeroFill (payloadOf e.block) a.memory = .ok m' ∧
      a.memory.EqOff m' (Span (payloadOf e.block) e.stop) ∧
      ∀ j, Span (payloadOf e.block) e.stop j → m'.byte j = 0 := by
  obtain ⟨-, -, room, -, stop, inside⟩ := sound.bounds live.1
  obtain ⟨prev, header⟩ := sound.header live.1
  have some_room : wordSize ≤ e.size := by
    simp only [wordSize]
    omega
  have block : payloadOf e.block - wordSize = e.block := Nat.add_sub_cancel ..
  have capacity : subWord (e.header prev).size wordSize = .ok (e.size - wordSize) :=
    subWord_of_le some_room
  have reach := e.payload_stop some_room
  have bytes : payloadOf e.block + (e.size - wordSize) ≤ a.memory.size := by
    rw [reach]
    simp only [Extent.stop]
    omega
  have frame := eqOff_fill 0 bytes
  rw [reach] at frame
  refine ⟨_, ?_, frame, fun j hj => (byte_fill 0 bytes j).trans (if_pos ?_)⟩
  · unfold zeroFill
    rw [block, header, ok_bind, capacity, ok_bind, fillRange_of_le bytes]
  · rw [reach]
    exact hj

/-- **Zeros are handed out as bytes are, and all that may be used are zero.** -/
theorem calloc_cases (shows : a.Shows o) (small : n * size < wordBound) (pos : n * size ≠ 0) :
    (∃ error, Exhausted error ∧ o.calloc n size = .error error ∧
      (calloc n size).outcome a = .refused error a) ∨
    ∃ e a' o', o.calloc n size = .ok (some (payloadOf e.block), o') ∧
      (calloc n size).outcome a = .ok (some (payloadOf e.block)) a' ∧ a'.Shows o' ∧
      Handed a a' o.extents none e (n * size) ∧
      ∀ j, Span (payloadOf e.block) e.stop j → a'.memory.byte j = 0 := by
  rw [calloc_eq shows.sound small]
  unfold Outline.calloc
  rw [if_neg (Nat.not_le.mpr small)]
  rcases alloc_cases shows pos with ⟨error, full, planned, refused⟩ |
    ⟨e, a', o', planned, answered, shows', handed⟩
  · left
    exact ⟨error, full, planned, by rw [refused]; rfl⟩
  · right
    have live' := handed.live shows'
    have live : Live o'.extents e := (live' e).mpr (.inl rfl)
    obtain ⟨m', zeroed, frame, zeros⟩ := zeroFill_live shows'.sound live
    refine ⟨e, a'.withArena ⟨m', a'.lists, a'.starts⟩, o', planned, ?_, shows'.write live frame,
      ⟨handed.toChange.trans live' (shows'.sound.write live frame), handed.snug⟩, zeros⟩
    rw [answered, Outcome.bind_ok]
    dsimp only
    rw [outcome_editMemory_of_ok zeroed, Outcome.bind_ok]

/-! ## Resizing -/

/-- `a'` came from `a` by a request that took the block `e` back and handed out `e'` for `n` bytes,
with as many of the bytes of `e` as both have. -/
structure Carried (a a' : Allocator) (es : List Extent) (e e' : Extent) (n : Nat)
    (filled : Extent → Prop := fun _ => a'.hardened = true) : Prop
    extends Handed a a' es (some e) e' n filled where
  /-- The bytes that both have are the same. -/
  held : ∀ j, j < e.size - wordSize → j < n →
    a'.memory.byte (payloadOf e'.block + j) = a.memory.byte (payloadOf e.block + j)
  /-- A block that stays where it is keeps all bytes that it has before and afterwards. -/
  still : e'.block = e.block → ∀ j, j < e.size - wordSize → j < e'.size - wordSize →
    a'.memory.byte (payloadOf e.block + j) = a.memory.byte (payloadOf e.block + j)

section Resizing

variable {e' : Extent} {b : Allocator} {m' : Memory} {lists' : FreeLists} {es' : List Extent}
  {shelves' : Shelves}

/-- A block that was resized where it is holds what it held.  The heap may have grown before, from
`a` to `b`. -/
theorem Carried.of_resized (sound : a.Sound (pre ++ e :: post) shelves filled)
    (taken : e.allocated = true)
    (hsize : blockSizeFor n = .ok size) (ready : b.ready = true) (high : b.high = b.memory.size)
    (config : b.config = a.config) (starts : b.starts = a.starts)
    (before : ∀ j, b.memory.byte j = a.memory.byte j)
    (tiled : Tiled filled m' lists' b.high es' shelves')
    (resized : Resized b.memory m' (pre ++ post) e e' size es') :
    (b.withArena ⟨m', lists', b.starts⟩).Shows ⟨⟨es', shelves'⟩, b.terms, a.starts⟩ filled ∧
      Carried a (b.withArena ⟨m', lists', b.starts⟩) (pre ++ e :: post) e e' n filled := by
  have others : ∀ x, Live (pre ++ post) x ↔ Live (pre ++ e :: post) x ∧ x ≠ e := fun x =>
    sound.arena.toTiled.live_others taken
  have live : Live (pre ++ e :: post) e := ⟨by simp, taken⟩
  obtain ⟨-, -, large, -⟩ := sound.bounds live.1
  obtain ⟨room, -, -⟩ := of_blockSizeFor hsize
  have marks : Marks b.starts es' := by
    rw [starts]
    exact sound.arena.marks.replace resized.block (fun x => live_middle_taken taken) resized.live
  have bytes : n + wordSize ≤ e'.size := by
    rcases resized.size with size | size <;> omega
  have sound' : (b.withArena ⟨m', lists', b.starts⟩).Sound es' shelves' filled :=
    sound_withArena ready high resized.same.size ⟨tiled, marks⟩
  have still : ∀ j, j < e.size - wordSize → j < e'.size - wordSize →
      m'.byte (payloadOf e.block + j) = a.memory.byte (payloadOf e.block + j) := by
    intro j hj hj'
    rw [← before]
    apply resized.kept _ (Extent.span_payload hj)
    simp only [payloadOf, wordSize, Extent.stop, resized.block] at hj' ⊢
    omega
  refine ⟨⟨sound', terms_withArena resized.same.size, starts⟩,
    { sound := ⟨es', shelves', sound', ?_⟩,
      fresh := ?_, config := config, kept := ?_, snug := ⟨size, hsize, resized.size⟩,
      held := ?_, still := fun _ => still }⟩
  · intro x
    rw [resized.live, others]
    simp [eq_comm]
  · rintro _ ⟨⟩ x hx stays same
    rw [resized.block] at same
    exact stays (congrArg some (sound.arena.tiles.block_inj hx.1 live.1 same).symm)
  · intro x hx stays j hj
    have hne : x ≠ e := by
      rintro rfl
      exact stays rfl
    exact (resized.same.byte x ((others x).mpr ⟨hx, hne⟩) j hj).trans (before j)
  · intro j hj hn
    rw [resized.block]
    exact still j hj (by simp only [wordSize] at bytes ⊢; omega)

/-- A block that is large enough is cut where it is. -/
theorem shrink_live (fills : ∀ x, filled x → a.hardened = true) (shows : a.Shows o filled)
    (split : o.extents = pre ++ e :: post) (taken : e.allocated = true)
    (hsize : blockSizeFor n = .ok size) (fits : size ≤ e.size) :
    ∃ e' a', (editArena fun hardened arena => arena.shrink hardened e.block size).outcome a
        = .ok () a' ∧ e'.block = e.block ∧
      a'.Shows { o with toPlan := (Spot.gap ⟨pre, e, post⟩ o.shelves).cut size } filled ∧
      Carried a a' o.extents e e' n filled := by
  obtain ⟨-, large, units⟩ := of_blockSizeFor hsize
  have sound := shows.sound
  rw [split] at sound ⊢
  obtain ⟨m', lists', es', shelves', e', hshrink, plan, tiled, resized⟩ :=
    shrink_ok fills a.starts sound.arena.toTiled taken large units fits
  obtain ⟨shows', carried⟩ := Carried.of_resized sound taken hsize sound.ready sound.size rfl rfl
    (fun _ => rfl) tiled resized
  refine ⟨e', _, outcome_editArena_of_ok hshrink, resized.block, ?_, carried⟩
  unfold Spot.gap
  rw [plan, ← shows.terms, ← shows.starts]
  exact shows'

/-- A block is made larger where it is, if what lies behind it has room. -/
theorem absorb_live (fills : ∀ x, filled x → a.hardened = true) (shows : a.Shows o filled)
    (split : o.extents = pre ++ e :: post) (taken : e.allocated = true)
    (hsize : blockSizeFor n = .ok size)
    (fits : size ≤ (roomOf e (lastAllocated true pre) post).available) :
    ∃ e' a', (editArena fun hardened arena => arena.absorb hardened e.block size
        (roomOf e (lastAllocated true pre) post) none).outcome a = .ok () a' ∧
      e'.block = e.block ∧
      a'.Shows { o with toPlan := (Spot.gap ⟨pre, e, post⟩ o.shelves).joinNext.cut size } filled ∧
      Carried a a' o.extents e e' n filled := by
  obtain ⟨-, large, units⟩ := of_blockSizeFor hsize
  have sound := shows.sound
  rw [split] at sound ⊢
  obtain ⟨m', lists', es', shelves', e', habsorb, plan, tiled, resized⟩ :=
    absorb_ok fills a.starts none sound.arena.toTiled taken large units fits
      (fun h => by cases h) rfl sound.arena.inside
  obtain ⟨shows', carried⟩ := Carried.of_resized sound taken hsize sound.ready sound.size rfl rfl
    (fun _ => rfl) tiled resized
  refine ⟨e', _, outcome_editArena_of_ok habsorb, resized.block, ?_, carried⟩
  have plan : (Spot.gap ⟨pre, e, post⟩ o.shelves).joinNext.cut size = ⟨es', shelves'⟩ := plan
  rw [plan, ← shows.terms, ← shows.starts]
  exact shows'

/-- A block at the end of the heap is made larger where it is, once the heap grew. -/
theorem absorb_grown_live {growth : Nat} (fills : ∀ x, filled x → a.hardened = true)
    (shows : a.Shows o filled) (split : o.extents = pre ++ e :: post) (taken : e.allocated = true)
    (hsize : blockSizeFor n = .ok size)
    (accepted : a.source.accepts growth = true) (growth_units : growth % alignment = 0)
    (last : (roomOf e (lastAllocated true pre) post).stop = a.high - wordSize)
    (enough : size - (roomOf e (lastAllocated true pre) post).available ≤ growth) :
    ∃ e' a', (editArena fun hardened arena => arena.absorb hardened e.block size
        (roomOf e (lastAllocated true pre) post) (some growth)).outcome (a.grown growth)
          = .ok () a' ∧
      e'.block = e.block ∧
      a'.Shows ⟨((Spot.gap ⟨pre, e, post⟩ o.shelves).joinNext.widen growth).cut size,
        (a.grown growth).terms, o.starts⟩ filled ∧
      Carried a a' o.extents e e' n filled := by
  obtain ⟨-, large, units⟩ := of_blockSizeFor hsize
  have sound := shows.sound
  rw [split] at sound ⊢
  obtain ⟨high, truthful, tiled⟩ := sound.grown accepted
  obtain ⟨m', lists', es', shelves', e', habsorb, plan, tiled', resized⟩ :=
    absorb_ok fills a.starts (some growth) tiled taken large units
      (by rw [Option.getD_some]; omega) (fun _ => last) growth_units
      (by rw [Option.getD_some, ← high]; exact Nat.le_of_eq truthful)
  rw [Option.getD_some, ← high] at tiled'
  obtain ⟨shows', carried⟩ := Carried.of_resized (b := a.grown growth) sound taken hsize sound.ready
    truthful rfl rfl (fun _ => byte_extend ..) tiled' resized
  refine ⟨e', _, outcome_editArena_of_ok habsorb, resized.block, ?_, carried⟩
  have plan : ((Spot.gap ⟨pre, e, post⟩ o.shelves).joinNext.widen growth).cut size
      = ⟨es', shelves'⟩ := plan
  rw [plan, ← shows.starts]
  exact shows'

/-- A block is made larger where it is, or there is no room and the allocator is as it was. -/
theorem stretch_cases (fills : ∀ x, filled x → a.hardened = true) (shows : a.Shows o filled)
    (split : o.extents = pre ++ e :: post) (taken : e.allocated = true)
    (hsize : blockSizeFor n = .ok size) :
    (∃ error, Exhausted error ∧ o.stretch ⟨pre, e, post⟩ size = .error error ∧
      (stretch e.block size).outcome a = .refused error a) ∨
    (o.stretch ⟨pre, e, post⟩ size = .ok none ∧ (stretch e.block size).outcome a = .ok false a) ∨
    ∃ e' a' o', o.stretch ⟨pre, e, post⟩ size = .ok (some o') ∧
      (stretch e.block size).outcome a = .ok true a' ∧ e'.block = e.block ∧ a'.Shows o' filled ∧
      Carried a a' o.extents e e' n filled := by
  have tiled := shows.sound.arena.toTiled
  rw [split] at tiled
  have start : 8 ≤ a.high - 8 := tiled.tiles.le
  have epilogue : subWord a.high wordSize = .ok (a.high - wordSize) :=
    subWord_of_le (by simp only [wordSize]; omega)
  have hroom : Arena.room a.memory e.block = .ok (roomOf e (lastAllocated true pre) post) :=
    room_eq tiled taken
  obtain ⟨length, stop⟩ : (Spot.gap ⟨pre, e, post⟩ o.shelves).joinNext.length
        = (roomOf e (lastAllocated true pre) post).available ∧
      (Spot.gap ⟨pre, e, post⟩ o.shelves).joinNext.hi
        = (roomOf e (lastAllocated true pre) post).stop :=
    roomOf_gap a.starts (lastAllocated true pre) tiled taken
  unfold stretch Outline.stretch
  rw [← shows.high]
  simp only [Action.outcome_bind, Action.outcome_inspect, hroom, lift_ok, Outcome.ofExcept_ok,
    Outcome.bind_ok, length, stop]
  by_cases fits : size ≤ (roomOf e (lastAllocated true pre) post).available
  · right
    right
    obtain ⟨e', a', absorbed, same, shows', carried⟩ :=
      absorb_live fills shows split taken hsize fits
    refine ⟨e', a', _, if_pos fits, ?_, same, shows', carried⟩
    rw [if_pos fits, Action.outcome_bind, absorbed]
    rfl
  simp only [if_neg fits, Action.outcome_bind, Action.outcome_inspect, epilogue, lift_ok,
    Outcome.ofExcept_ok, Outcome.bind_ok]
  by_cases last : (roomOf e (lastAllocated true pre) post).stop ≠ a.high - wordSize
  · right
    left
    rw [if_pos last, if_pos last]
    exact ⟨rfl, rfl⟩
  simp only [if_neg last, Action.outcome_bind]
  rw [← shows.terms]
  rcases growthFor_cases a (size - (roomOf e (lastAllocated true pre) post).available) with
    ⟨planned, overflow⟩ | ⟨growth, planned, hgrowth, enough, units⟩
  · left
    exact ⟨.sizeOverflow, .inl rfl, by rw [planned]; rfl, by rw [overflow, Outcome.bind_refused]⟩
  rw [hgrowth, Outcome.bind_ok, Action.outcome_attempt, planned]
  cases accepted : a.source.accepts growth with
  | false =>
    right
    left
    rw [outcome_grow_of_refuses accepted]
    refine ⟨?_, rfl⟩
    rw [ok_bind, terms_grow_of_refuses accepted]
    rfl
  | true =>
    right
    right
    obtain ⟨e', a', absorbed, same, shows', carried⟩ :=
      absorb_grown_live fills shows split taken hsize accepted units (not_not.mp last) enough
    refine ⟨e', a', _, ?_, ?_, same, shows', carried⟩
    · rw [ok_bind, terms_grow_of_accepts accepted]
      rfl
    · rw [outcome_grow_of_accepts accepted]
      dsimp only [Outcome.bind_ok]
      rw [Action.outcome_bind, Action.outcome_note, Outcome.bind_ok, Action.outcome_bind, absorbed]
      rfl

/-- A block is moved into one that was allocated for it. -/
theorem move_allocated {a₁ : Allocator} {o₁ : Outline} {t : Extent}
    (fills : ∀ x, filled x → a.hardened = true) (live : Live o.extents e)
    (hsize : blockSizeFor n = .ok size)
    (placed : (allocateBlock size).outcome a = .ok (payloadOf t.block) a₁)
    (shows₁ : a₁.Shows o₁ filled)
    (change₁ : Change a a₁ o.extents none (some t) filled)
    (snug : t.size = size ∨ t.size = size + alignment) :
    ∃ pre post a', o₁.extents = pre ++ e :: post ∧
      (move e.block e.size size n).outcome a = .ok (payloadOf t.block) a' ∧
      a'.Shows (o₁.release ⟨pre, e, post⟩) filled ∧ Carried a a' o.extents e t n filled := by
  obtain ⟨room, -, -⟩ := of_blockSizeFor hsize
  have live₁ := change₁.live shows₁
  have live_t : Live o₁.extents t := (live₁ t).mpr (.inl rfl)
  have live_e : Live o₁.extents e := (live₁ e).mpr (.inr ⟨live, Option.not_mem_none e⟩)
  obtain ⟨-, -, old_large, -⟩ := shows₁.sound.bounds live_e.1
  have new_large : n + wordSize ≤ t.size := by rcases snug with snug | snug <;> omega
  have capacity : subWord e.size wordSize = .ok (e.size - wordSize) :=
    subWord_of_le (by simp only [wordSize]; omega)
  have fits : min (e.size - wordSize) n ≤ t.size - wordSize := by
    simp only [wordSize] at new_large ⊢
    omega
  obtain ⟨m', copied, frame, same⟩ :=
    copyRange_live shows₁.sound live_e live_t (Nat.min_le_left ..) fits
  have shows₂ := shows₁.write live_t frame
  have change₂ := change₁.trans live₁ (shows₁.sound.write live_t frame)
  have fills₂ : ∀ x, filled x → (a₁.withArena ⟨m', a₁.lists, a₁.starts⟩).hardened = true :=
    fun x must => change₂.hardened.trans (fills x must)
  obtain ⟨pre, post, split⟩ := List.append_of_mem live_e.1
  obtain ⟨arena, freed, shows₃, change₃⟩ := deallocate_live fills₂ shows₂ split live_e.2
  have apart : t.block ≠ e.block := (change₁.fresh t rfl e live (Option.not_mem_none e)).symm
  have stays : t ∉ some e := by
    rintro ⟨⟩
    exact apart rfl
  refine ⟨pre, post, _, split, ?_, shows₃,
    ⟨change₂.drop live live₁ change₃, size, hsize, snug⟩, ?_, fun here => absurd here apart⟩
  · unfold move
    rw [Action.outcome_bind, placed, Outcome.bind_ok, Action.outcome_bind]
    refine (congrArg (Outcome.bind · _) (outcome_editArena_of_ok ?_)).trans rfl
    show (subWord e.size wordSize >>= _) = _
    rw [capacity, ok_bind]
    show (a₁.memory.copyRange _ _ _ >>= _) = _
    rw [copied]
    exact freed
  · intro j hj hn
    have both : j < min (e.size - wordSize) n := Nat.lt_min.mpr ⟨hj, hn⟩
    calc (a₁.withArena arena).memory.byte (payloadOf t.block + j)
        = m'.byte (payloadOf t.block + j) :=
          change₃.kept t live_t stays _ (Extent.span_payload (Nat.lt_of_lt_of_le both fits))
      _ = a₁.memory.byte (payloadOf e.block + j) := same j both
      _ = a.memory.byte (payloadOf e.block + j) :=
          change₁.kept e live (Option.not_mem_none e) _ (Extent.span_payload hj)

/-- A block for which no new one is allocated is not moved. -/
theorem move_of_refused {block old : Nat} {error : Refusal}
    (refused : (allocateBlock size).outcome a = .refused error b) :
    (move block old size n).outcome a = .refused error b := by
  unfold move
  rw [Action.outcome_bind, refused, Outcome.bind_refused]

/-- If allocating the new one stops, so does the move. -/
theorem move_of_fault {block old : Nat} {stop : Fault}
    (stops : (allocateBlock size).outcome a = .fault stop) :
    (move block old size n).outcome a = .fault stop := by
  unfold move
  rw [Action.outcome_bind, stops]
  rfl

/-- A block is moved, or there is no room and the allocator is as it was, or a
hardened heap stops. -/
theorem move_or_stops (fills : ∀ x, filled x → a.hardened = true) (shows : a.Shows o filled)
    (live : Live o.extents e) (hsize : blockSizeFor n = .ok size) :
    (∃ error, Exhausted error ∧ o.move e.block size = .error error ∧
      (move e.block e.size size n).outcome a = .refused error a) ∨
    (∃ e' a' o', o.move e.block size = .ok (payloadOf e'.block, o') ∧
      (move e.block e.size size n).outcome a = .ok (payloadOf e'.block) a' ∧ a'.Shows o' filled ∧
      Carried a a' o.extents e e' n filled) ∨
    ∃ x, Stopped a o size x filled ∧
      (move e.block e.size size n).outcome a = .fault (.dirtyBlock x.block) := by
  obtain ⟨-, large, units⟩ := of_blockSizeFor hsize
  unfold Outline.move
  rcases allocateBlock_or_stops fills shows large units with ⟨error, full, planned, refused⟩ |
    ⟨t, a₁, o₁, planned, placed, shows₁, change₁, snug⟩ | ⟨x, stopped, stops⟩
  · exact .inl ⟨error, full, by rw [planned]; rfl, move_of_refused refused⟩
  · right
    left
    obtain ⟨pre, post, a', split, moved, shows', carried⟩ :=
      move_allocated fills live hsize placed shows₁ change₁ snug
    refine ⟨t, a', o₁.release ⟨pre, e, post⟩, ?_, moved, shows', carried⟩
    rw [planned, ok_bind]
    dsimp only
    rw [shows₁.spotAt split]
    rfl
  · exact .inr (.inr ⟨x, stopped, move_of_fault stops⟩)

/-- A block that can be neither cut nor stretched is moved. -/
theorem resize_moves (shows : a.Shows o filled) (live : Live o.extents e) (small : ¬ size ≤ e.size)
    (stays : (stretch e.block size).outcome a = .ok false a) :
    (resize e.block size n).outcome a = (move e.block e.size size n).outcome a := by
  obtain ⟨prev, header⟩ := shows.sound.header live.1
  unfold resize
  simp only [Action.outcome_bind, Action.outcome_inspect, header, lift_ok, Outcome.ofExcept_ok,
    Outcome.bind_ok, Extent.header, if_neg small, stays]
  rfl

/-- A block is resized where it is, or moved, or the allocator is as it was and there is no room, or
a hardened heap stops when the block is to be moved. -/
theorem resize_or_stops (fills : ∀ x, filled x → a.hardened = true) (shows : a.Shows o filled)
    (split : o.extents = pre ++ e :: post) (taken : e.allocated = true)
    (hsize : blockSizeFor n = .ok size) :
    (∃ error, Exhausted error ∧ o.resize ⟨pre, e, post⟩ size = .error error ∧
      (resize e.block size n).outcome a = .refused error a) ∨
    (∃ e' a' o', o.resize ⟨pre, e, post⟩ size = .ok (payloadOf e'.block, o') ∧
      (resize e.block size n).outcome a = .ok (payloadOf e'.block) a' ∧ a'.Shows o' filled ∧
      Carried a a' o.extents e e' n filled) ∨
    ∃ x, e.size < size ∧ o.stretch ⟨pre, e, post⟩ size = .ok none ∧ Stopped a o size x filled ∧
      (resize e.block size n).outcome a = .fault (.dirtyBlock x.block) := by
  have live : Live o.extents e := ⟨by simp [split], taken⟩
  obtain ⟨prev, header⟩ := shows.sound.header live.1
  unfold Outline.resize
  by_cases fits : size ≤ e.size
  · right
    left
    obtain ⟨e', a', edited, same, shows', carried⟩ := shrink_live fills shows split taken hsize fits
    refine ⟨e', a', _, by rw [if_pos fits, same]; rfl, ?_, shows', carried⟩
    unfold resize
    simp only [Action.outcome_bind, Action.outcome_inspect, header, lift_ok, Outcome.ofExcept_ok,
      Outcome.bind_ok, Extent.header, if_pos fits, Action.outcome_note, edited, same]
    rfl
  · rw [if_neg fits]
    rcases stretch_cases fills shows split taken hsize with ⟨error, full, planned, refused⟩ |
      ⟨planned, stays⟩ | ⟨e', a', o', planned, grown, same, shows', carried⟩
    · left
      refine ⟨error, full, by rw [planned]; rfl, ?_⟩
      unfold resize
      simp only [Action.outcome_bind, Action.outcome_inspect, header, lift_ok, Outcome.ofExcept_ok,
        Outcome.bind_ok, Extent.header, if_neg fits, refused, Outcome.bind_refused]
    · rw [resize_moves shows live fits stays, planned]
      rcases move_or_stops fills shows live hsize with refused | moved | ⟨x, stopped, stops⟩
      · exact .inl refused
      · exact .inr (.inl moved)
      · exact .inr (.inr ⟨x, Nat.not_le.mp fits, rfl, stopped, stops⟩)
    · right
      left
      refine ⟨e', a', o', by rw [planned, same]; rfl, ?_, shows', carried⟩
      unfold resize
      simp only [Action.outcome_bind, Action.outcome_inspect, header, lift_ok, Outcome.ofExcept_ok,
        Outcome.bind_ok, Extent.header, if_neg fits, grown, same]
      rfl

/-- To resize a live payload is to resize its block. -/
theorem realloc_eq (sound : a.Sound es shelves filled) (live : Live es e) (pos : n ≠ 0)
    (hsize : blockSizeFor n = .ok size) :
    (realloc (some (payloadOf e.block)) n).outcome a = ((resize e.block size n).outcome a).bind
      fun q b => (verify.outcome b).bind fun _ c => .ok (some q) c := by
  unfold realloc
  simp only [if_neg pos, Action.outcome_bind, sound.requireReady, Outcome.bind_ok,
    locate_live sound live, outcome_lift, hsize, Except.mapError, Outcome.ofExcept_ok,
    Action.outcome_pure]

/-- **A live payload is resized as in the outline, or the allocator is as it was and there is no
room,** or a hardened heap stops when the payload is to be moved. -/
theorem realloc_or_stops (fills : ∀ x, filled x → a.hardened = true) (shows : a.Shows o filled)
    (split : o.extents = pre ++ e :: post) (taken : e.allocated = true) (pos : n ≠ 0) :
    (∃ error, Exhausted error ∧ o.realloc (some (payloadOf e.block)) n = .error error ∧
      (realloc (some (payloadOf e.block)) n).outcome a = .refused error a) ∨
    (∃ e' a' o', o.realloc (some (payloadOf e.block)) n = .ok (some (payloadOf e'.block), o') ∧
      (realloc (some (payloadOf e.block)) n).outcome a = .ok (some (payloadOf e'.block)) a' ∧
      a'.Shows o' filled ∧ Carried a a' o.extents e e' n filled) ∨
    ∃ x size, blockSizeFor n = .ok size ∧ e.size < size ∧ o.stretch ⟨pre, e, post⟩ size = .ok none ∧
      Stopped a o size x filled ∧
      (realloc (some (payloadOf e.block)) n).outcome a = .fault (.dirtyBlock x.block) := by
  have live : Live o.extents e := ⟨by simp [split], taken⟩
  unfold Outline.realloc
  simp only [if_neg pos, shows.locate_live split taken, ok_bind]
  rcases blockSizeFor_cases n with ⟨size, hsize, -⟩ | overflow
  · rw [hsize, ok_bind, realloc_eq shows.sound live pos hsize]
    rcases resize_or_stops fills shows split taken hsize with ⟨error, full, planned, refused⟩ |
      ⟨e', a', o', planned, resized, shows', carried⟩ | ⟨x, less, planned, stopped, stops⟩
    · left
      exact ⟨error, full, by rw [planned]; rfl, by rw [refused, Outcome.bind_refused]⟩
    · right
      left
      refine ⟨e', a', o', by rw [planned]; rfl, ?_, shows', carried⟩
      rw [resized, Outcome.bind_ok, shows'.sound.verify]
      rfl
    · right
      right
      exact ⟨x, size, rfl, less, planned, stopped, by rw [stops]; rfl⟩
  · left
    refine ⟨.sizeOverflow, .inl rfl, by rw [overflow]; rfl, ?_⟩
    unfold realloc
    simp only [if_neg pos, Action.outcome_bind, shows.sound.requireReady, Outcome.bind_ok,
      locate_live shows.sound live, outcome_lift, overflow]
    rfl

/-- A live payload is resized as in the outline, or the allocator is as it was and there is no
room. -/
theorem realloc_shows (shows : a.Shows o) (live : Live o.extents e) (pos : n ≠ 0) :
    (∃ error, Exhausted error ∧ o.realloc (some (payloadOf e.block)) n = .error error ∧
      (realloc (some (payloadOf e.block)) n).outcome a = .refused error a) ∨
    ∃ e' a' o', o.realloc (some (payloadOf e.block)) n = .ok (some (payloadOf e'.block), o') ∧
      (realloc (some (payloadOf e.block)) n).outcome a = .ok (some (payloadOf e'.block)) a' ∧
      a'.Shows o' ∧ Carried a a' o.extents e e' n := by
  obtain ⟨pre, post, split⟩ := List.append_of_mem live.1
  rcases realloc_or_stops (fun _ hard => hard) shows split live.2 pos with
    refused | ⟨e', a', o', planned, answered, shows', carried⟩ | ⟨x, size, -, -, -, stopped, -⟩
  · exact .inl refused
  · rw [← carried.hardened] at shows' carried
    exact .inr ⟨e', a', o', planned, answered, shows', carried⟩
  · exact absurd stopped.hard stopped.spoiled

/-- **A live payload is resized, or the allocator is as it was and there is no room.** -/
theorem realloc_cases (sound : a.Sound es shelves) (live : Live es e) (pos : n ≠ 0) :
    (∃ error, Exhausted error ∧
      (realloc (some (payloadOf e.block)) n).outcome a = .refused error a) ∨
    ∃ e' a', (realloc (some (payloadOf e.block)) n).outcome a
        = .ok (some (payloadOf e'.block)) a' ∧ Carried a a' es e e' n := by
  rcases realloc_shows sound.shows live pos with ⟨error, full, -, refused⟩ |
    ⟨e', a', -, -, answered, -, carried⟩
  · exact .inl ⟨error, full, refused⟩
  · exact .inr ⟨e', a', answered, carried⟩

end Resizing

/-- A reallocation to no bytes takes the payload back, as in the outline. -/
theorem realloc_zero_shows (shows : a.Shows o) (live : Live o.extents e) :
    ∃ a' o', o.realloc (some (payloadOf e.block)) 0 = .ok (none, o') ∧
      (realloc (some (payloadOf e.block)) 0).outcome a = .ok none a' ∧ a'.Shows o' ∧
      Change a a' o.extents (some e) none := by
  obtain ⟨a', o', planned, freed, shows', change⟩ := free_shows shows live
  refine ⟨a', o', ?_, ?_, shows', change⟩
  · unfold Outline.realloc
    simp only [if_true, planned, ok_bind]
    rfl
  · unfold realloc
    simp only [if_true, Action.outcome_bind, freed, Outcome.bind_ok, Action.outcome_pure]

/-- A reallocation to no bytes takes the payload back. -/
theorem realloc_zero_live (sound : a.Sound es shelves) (live : Live es e) :
    ∃ a', (realloc (some (payloadOf e.block)) 0).outcome a = .ok none a' ∧
      Change a a' es (some e) none := by
  obtain ⟨a', -, -, freed, -, change⟩ := realloc_zero_shows sound.shows live
  exact ⟨a', freed, change⟩

/-- A pointer that does not pass is not resized, to whatever size. -/
theorem realloc_of_refused {error : Refusal} (ready : a.ready = true)
    (refused : a.validate p = .error (.refused error)) (n : Nat) :
    (realloc (some p) n).outcome a = .refused error a := by
  unfold realloc
  by_cases zero : n = 0
  · simp only [if_pos zero, Action.outcome_bind, free_of_refused ready refused,
      Outcome.bind_refused]
  · simp only [if_neg zero, Action.outcome_bind, requireReady_of_ready ready, Outcome.bind_ok,
      locate_of_refused refused, Outcome.bind_refused]

/-- A pointer to no live payload is not resized, to whatever size. -/
theorem realloc_dead (sound : a.Sound es shelves) (dead : ∀ e, Live es e → payloadOf e.block ≠ p)
    (n : Nat) :
    ∃ error, Denied p error ∧ (realloc (some p) n).outcome a = .refused error a := by
  obtain ⟨error, denied, refused⟩ := validate_dead sound dead
  exact ⟨error, denied, realloc_of_refused sound.ready refused n⟩

/-! ## Starting over -/

/-- A heap is given a size that has room for what it holds, unless no word can be that size. -/
theorem setUpSize_cases (n : Nat) :
    (∃ size, setUpSize n = .ok size ∧ n ≤ size ∧ size % alignment = 0 ∧ heapOverhead ≤ size ∧
      (size = heapOverhead ∨ heapOverhead + minBlockSize ≤ size)) ∨
    setUpSize n = .error .sizeOverflow := by
  unfold setUpSize
  rcases wholeUnits_cases n with ⟨units, hunits, large, whole⟩ | overflow
  · left
    rw [hunits, ok_bind]
    simp only [alignment, minBlockSize, heapOverhead] at large whole ⊢
    by_cases small : 16 < max units 16 ∧ max units 16 - 16 < 32
    · exact ⟨_, if_pos small, by omega, by omega, by omega, by omega⟩
    · exact ⟨_, if_neg small, by omega, by omega, by omega, by omega⟩
  · right
    rw [overflow]
    rfl

/-- A heap is given the size that it has. -/
theorem setUpSize_of_fits {n : Nat} (small : n < wordBound) (units : n % alignment = 0)
    (large : heapOverhead ≤ n) (room : n = heapOverhead ∨ heapOverhead + minBlockSize ≤ n) :
    setUpSize n = .ok n := by
  unfold setUpSize
  rw [wholeUnits_of_whole units small, ok_bind]
  simp only [heapOverhead, minBlockSize] at large room ⊢
  rw [if_neg (by omega), Nat.max_eq_left large]
  rfl

/-- An empty heap is written where it fits. -/
theorem layOut_ok (high : a.high = a.memory.size) (size : a.memory.size = n)
    (units : n % alignment = 0) (large : heapOverhead ≤ n)
    (room : n = heapOverhead ∨ heapOverhead + minBlockSize ≤ n) :
    ∃ a', (layOut n).outcome a = .ok () a' ∧
      a'.Shows ⟨⟨blank n, blankShelves n⟩, a.terms, .empty⟩ ∧ a'.config = a.config := by
  have bounded := a.high_lt
  obtain ⟨m', lists', hformat, same, tiled⟩ :=
    format_ok (fun _ (hard : a.hardened = true) => hard) size
      (by rw [← high]; exact bounded) large units room
  have step : Arena.format a.hardened a.arena.memory n
      = .ok (n - heapOverhead, ⟨m', lists', .empty⟩) :=
    hformat
  have high' : (a.withArena ⟨m', lists', .empty⟩).markReady.high = n :=
    (high_withArena same).trans (high.trans size)
  have sound : (a.withArena ⟨m', lists', .empty⟩).markReady.Sound (blank n) (blankShelves n) := by
    refine ⟨rfl, ?_, ?_⟩
    · rw [high']
      exact (same.trans size).symm
    · rw [high']
      exact ⟨tiled, marks_empty fun x => not_live_blank⟩
  refine ⟨_, ?_, ⟨sound, terms_withArena same, rfl⟩, rfl⟩
  unfold layOut
  rw [Action.outcome_bind]
  apply (congrArg (Outcome.bind · _) (outcome_onArena_of_ok step)).trans
  rw [Outcome.bind_ok, Action.outcome_bind, Action.outcome_modify, Outcome.bind_ok,
    Action.outcome_bind, Action.outcome_note, Outcome.bind_ok, sound.verify]

/-- **An allocator is set up with an empty heap, or there is no room and it is as it was, but for
its blocks.** -/
theorem init_cases (truthful : a.high = a.memory.size) :
    (∃ error, Exhausted error ∧ a.terms.init = .error error ∧
      init.outcome a = .refused error a.reset) ∨
    ∃ a' o', a.terms.init = .ok o' ∧ init.outcome a = .ok () a' ∧ a'.Shows o' ∧
      a'.config = a.config ∧ ∀ x, ¬ Live o'.extents x := by
  have old : a.reset.source.size = a.memory.size := by
    rw [← truthful, high, Source.high, Source.low, Nat.zero_add]
    rfl
  have still : a.reset.high = a.reset.memory.size := truthful
  have told : a.terms.size = a.memory.size := rfl
  unfold init Terms.init
  simp only [Action.outcome_bind, Action.outcome_modify, Outcome.bind_ok, Action.outcome_read,
    outcome_lift, old, told]
  rcases setUpSize_cases a.memory.size with ⟨size, hsize, fits, units, large, room⟩ | overflow
  · rw [hsize]
    simp only [Except.mapError, Outcome.ofExcept_ok, Outcome.bind_ok, ok_bind]
    by_cases short : a.memory.size < size
    · simp only [if_pos short, Action.outcome_bind]
      cases accepted : a.reset.source.accepts (size - a.memory.size) with
      | false =>
        left
        refine ⟨_, .inr ⟨_, rfl⟩, ?_, by rw [outcome_grow_of_refuses accepted]; rfl⟩
        rw [terms_grow_of_refuses (a := a) accepted]
        rfl
      | true =>
        right
        obtain ⟨high, -⟩ := high_grown still accepted
        have grown : (a.reset.grown (size - a.memory.size)).memory.size = size := by
          apply (size_extend ..).trans
          show a.memory.size + (size - a.memory.size) = size
          omega
        have truthful' : (a.reset.grown (size - a.memory.size)).high
            = (a.reset.grown (size - a.memory.size)).memory.size := by
          rw [high, grown, still]
          show a.memory.size + (size - a.memory.size) = size
          omega
        obtain ⟨a', answered, shows', config⟩ := layOut_ok truthful' grown units large room
        refine ⟨a', _, ?_, ?_, shows', config, fun x => not_live_blank⟩
        · rw [terms_grow_of_accepts (a := a) accepted]
          rfl
        · rw [outcome_grow_of_accepts accepted, Outcome.bind_ok]
          exact answered
    · right
      obtain ⟨a', answered, shows', config⟩ :=
        layOut_ok still (Nat.le_antisymm fits (Nat.not_lt.mp short)) units large room
      refine ⟨a', _, ?_, ?_, shows', config, fun x => not_live_blank⟩
      · rw [if_neg short]
        rfl
      · rw [if_neg short]
        exact answered
  · left
    exact ⟨.sizeOverflow, .inl rfl, by rw [overflow]; rfl, by rw [overflow]; rfl⟩

/-- The terms of a sound allocator have room for an empty heap. -/
theorem Sound.terms_init (sound : a.Sound es shelves) :
    a.terms.init = .ok ⟨⟨blank a.memory.size, blankShelves a.memory.size⟩, a.terms, .empty⟩ := by
  have start : 8 ≤ a.high - 8 := sound.arena.tiles.le
  have units : (a.high - 8) % 16 = 8 := sound.arena.tiles.stop_mod
  have room : a.high = heapOverhead ∨ heapOverhead + minBlockSize ≤ a.high := by
    simp only [heapOverhead, minBlockSize]
    cases es with
    | nil =>
      have bare : 8 = a.high - 8 := sound.arena.tiles
      omega
    | cons e es =>
      obtain ⟨first, -, large, -, stop, -⟩ := sound.bounds (e := e) List.mem_cons_self
      omega
  have hsize : setUpSize a.terms.size = .ok a.memory.size := by
    show setUpSize a.memory.size = _
    rw [← sound.size]
    exact setUpSize_of_fits a.high_lt (by simp only [alignment]; omega)
      (by simp only [heapOverhead]; omega) room
  unfold Terms.init
  rw [hsize, ok_bind]
  exact if_neg (Nat.lt_irrefl a.memory.size)

/-- A sound allocator can always be set up again. -/
theorem Sound.init (sound : a.Sound es shelves) :
    ∃ a' o', a.terms.init = .ok o' ∧ Allocator.init.outcome a = .ok () a' ∧ a'.Shows o' ∧
      a'.config = a.config ∧ ∀ x, ¬ Live o'.extents x := by
  rcases init_cases sound.size with ⟨error, -, planned, -⟩ | answered
  · rw [sound.terms_init] at planned
    cases planned
  · exact answered

end Allocator

end TaggedHeap
