import TaggedHeap.Proofs.Lockstep

/-!
# Initialisation from any source

A source may hold any number of bytes, and they may say anything: those of an earlier heap, half of
a heap, or none at all.  `init_from_any_source` says what becomes of it.

* `heapSizeFor` is the size that the heap is given, and `outcome_init` says what an initialisation
  does.  It only fails where the source refuses to grow up to that size (`init_iff`).
* `Fresh` describes an allocator after it succeeded.  That a second initialisation then changes
  nothing needs a look at the bytes: `Memory.Stamp` are the writes that do the same when they are
  done again, and setting up a heap is one of them (`stamp_blankMemory`).
* `Barred` describes an allocator after it failed.  It stays so through any number of further
  requests (`Onward.of_barred`), since the source was not touched and refuses again.
-/

namespace TaggedHeap

open Memory

/-! ## Writing the same again -/

namespace Memory

variable {f g : Memory → Memory}

/-- A change of memories writes certain bytes at certain offsets, whatever was there, and nothing
else. -/
def Stamp (f : Memory → Memory) : Prop :=
  ∃ ink : Nat → Option UInt8, ∀ m, (f m).size = m.size ∧
    ∀ i < m.size, (f m).byte i = (ink i).getD (m.byte i)

/-- To write a byte is a stamp. -/
theorem stamp_setByte (i : Nat) (b : UInt8) : Stamp fun m => m.setByte i b := by
  refine ⟨fun j => if j = i then some b else none, fun m => ⟨size_setByte .., ?_⟩⟩
  intro j inside
  rw [byte_setByte]
  dsimp only
  by_cases here : j = i
  · subst here
    rw [if_pos ⟨rfl, inside⟩, if_pos rfl, Option.getD_some]
  · rw [if_neg fun h => here h.1, if_neg here, Option.getD_none]

/-- Nothing is written. -/
theorem stamp_id : Stamp fun m => m := ⟨fun _ => none, fun _ => ⟨rfl, fun _ _ => rfl⟩⟩

/-- Of two stamps, the later one is on top. -/
theorem Stamp.comp (second : Stamp g) (first : Stamp f) : Stamp fun m => g (f m) := by
  obtain ⟨below, hf⟩ := first
  obtain ⟨above, hg⟩ := second
  refine ⟨fun i => (above i).or (below i), fun m => ⟨(hg _).1.trans (hf m).1, ?_⟩⟩
  intro i inside
  rw [(hg (f m)).2 i (by rw [(hf m).1]; exact inside), (hf m).2 i inside]
  dsimp only
  cases above i <;> rfl

/-- To write a number is a stamp. -/
theorem stamp_putLittleEndian (i count value : Nat) :
    Stamp fun m => m.putLittleEndian i count value := by
  induction count generalizing i value with
  | zero => exact stamp_id
  | succ count ih => exact (ih (i + 1) (value / 256)).comp (stamp_setByte i _)

/-- To write a word is a stamp. -/
theorem stamp_putWord (i value : Nat) : Stamp fun m => m.putWord i value :=
  stamp_putLittleEndian i wordSize value

/-- To fill a range is a stamp. -/
theorem stamp_fill (i count : Nat) (b : UInt8) : Stamp fun m => m.fill i b count := by
  induction count generalizing i with
  | zero => exact stamp_id
  | succ count ih => exact (ih (i + 1)).comp (stamp_setByte i b)

/-- **A stamp that is used twice leaves what it leaves when it is used once.** -/
theorem Stamp.again (stamp : Stamp f) (m : Memory) : f (f m) = f m := by
  obtain ⟨ink, hf⟩ := stamp
  have size : (f (f m)).size = (f m).size := (hf (f m)).1
  refine ext_byte size fun i => ?_
  by_cases inside : i < m.size
  · rw [(hf (f m)).2 i (by rw [(hf m).1]; exact inside), (hf m).2 i inside]
    cases ink i <;> rfl
  · have outside : (f m).size ≤ i := by rw [(hf m).1]; omega
    rw [byte_of_size_le outside, byte_of_size_le (by rw [size]; exact outside)]

end Memory

/-! ## The bytes of an empty heap -/

/-- The words of a free block, and the pattern on a hardened heap, written over a memory. -/
def freeTags (hardened : Bool) (block size : Nat) (prevAllocated : Bool) (m : Memory) : Memory :=
  let tag := (Header.free size prevAllocated).encode
  let m := (m.putWord block tag).putWord (block + size - wordSize) tag
  if hardened then m.fill (poisonStart block) poison (poisonCount block size) else m

/-- The bytes of an empty heap of `high` bytes, written over a memory. -/
def blankMemory (hardened : Bool) (high : Nat) (m : Memory) : Memory :=
  let m := m.putWord 0 0
  if high = heapOverhead then m.putWord firstBlock (Header.epilogue true).encode
  else
    let m := freeTags hardened firstBlock (high - heapOverhead) true m
    let m := m.putWord (firstBlock + (high - heapOverhead)) (Header.epilogue false).encode
    (m.putWord (nextSlot firstBlock) 0).putWord (prevSlot firstBlock) 0

/-- The lists of an empty heap of `high` bytes. -/
def blankLists (high : Nat) : FreeLists :=
  if high = heapOverhead then .empty
  else FreeLists.empty.setHead (SizeClass.of (high - heapOverhead)) (some firstBlock)

section Format

variable {m : Memory} {high block size : Nat}

/-- To write the words of a free block is a stamp. -/
theorem stamp_freeTags (hardened : Bool) (block size : Nat) (prevAllocated : Bool) :
    Stamp (freeTags hardened block size prevAllocated) := by
  unfold freeTags
  have tags :=
    (stamp_putWord (block + size - wordSize) (Header.free size prevAllocated).encode).comp
      (stamp_putWord block (Header.free size prevAllocated).encode)
  cases hardened with
  | false =>
    simp only [Bool.false_eq_true, if_false]
    exact tags
  | true =>
    simp only [if_true]
    exact (stamp_fill ..).comp tags

/-- To write an empty heap is a stamp. -/
theorem stamp_blankMemory (hardened : Bool) (high : Nat) : Stamp (blankMemory hardened high) := by
  unfold blankMemory
  by_cases bare : high = heapOverhead
  · simp only [if_pos bare]
    exact (stamp_putWord ..).comp (stamp_putWord ..)
  · simp only [if_neg bare]
    have tags := (stamp_freeTags hardened firstBlock (high - heapOverhead) true).comp
      (stamp_putWord 0 0)
    have ended := (stamp_putWord (firstBlock + (high - heapOverhead))
      (Header.epilogue false).encode).comp tags
    exact (stamp_putWord ..).comp ((stamp_putWord ..).comp ended)

/-- A free block is written word by word. -/
theorem writeFree_eq (hardened prevAllocated : Bool) (room : minBlockSize ≤ size)
    (units : size % alignment = 0) (aligned : block % alignment = firstBlock)
    (inside : block + size ≤ m.size) :
    m.writeFree hardened block size prevAllocated =
      .ok (freeTags hardened block size prevAllocated m) := by
  have large : 32 ≤ size := room
  unfold Memory.writeFree freeTags
  rw [require_hardened fun _ => decide_eq_true room, ok_bind]
  dsimp only
  rw [putHeader_of_le (by simp only [wordSize]; omega) units, ok_bind,
    subWord_of_le (by simp only [wordSize]; omega), ok_bind,
    writeWord_of_le (by rw [size_putWord]; simp only [wordSize]; omega), ok_bind]
  cases hardened with
  | false => simp only [Bool.false_eq_true, if_false, pure_eq_ok]
  | true =>
    simp only [if_true, Memory.writePoison, requireAligned_of_mod true aligned, ok_bind]
    refine fillRange_of_le ?_
    rw [size_putWord, size_putWord]
    simp only [poisonStart, poisonCount, payloadOf, wordSize]
    omega

/-- The only block of a list has no neighbours. -/
theorem linkIn_none (m : Memory) (b : Nat) :
    m.linkIn b none = (m.putWord (nextSlot b) 0).putWord (prevSlot b) 0 := rfl

/-- **What an empty heap is written with does not depend on what was there.** -/
theorem format_eq (hardened : Bool) (size : m.size = high) (bounded : m.size < wordBound)
    (large : heapOverhead ≤ high) (units : high % alignment = 0)
    (room : high = heapOverhead ∨ heapOverhead + minBlockSize ≤ high) :
    Arena.format hardened m high =
      .ok (high - heapOverhead, ⟨blankMemory hardened high m, blankLists high, .empty⟩) := by
  simp only [heapOverhead, minBlockSize, alignment] at large units room
  have padding : m.writeWord 0 0 = .ok (m.putWord 0 0) :=
    writeWord_of_le (by simp only [wordSize]; omega)
  have size₁ : (m.putWord 0 0).size = high := (size_putWord ..).trans size
  have sub : subWord high heapOverhead = .ok (high - heapOverhead) :=
    subWord_of_le (by simp only [heapOverhead]; omega)
  unfold Arena.format blankMemory blankLists
  rw [padding, ok_bind, sub, ok_bind]
  dsimp only
  generalize m.putWord 0 0 = m₁ at size₁ ⊢
  by_cases bare : high = heapOverhead
  · rw [if_pos bare, if_pos bare, if_pos (by rw [bare, Nat.sub_self]),
      putHeader_of_le (by simp only [firstBlock, wordSize]; omega) rfl]
    rfl
  simp only [heapOverhead] at bare
  rw [if_neg (by simp only [heapOverhead]; omega), if_neg bare, if_neg bare]
  obtain ⟨e, free, start, size_eq⟩ : ∃ x : Extent, x.allocated = false ∧ x.block = firstBlock ∧
      x.size = high - heapOverhead := ⟨⟨firstBlock, high - heapOverhead, false⟩, rfl, rfl, rfl⟩
  have regular : e.Regular := ⟨by simp only [size_eq, heapOverhead, minBlockSize]; omega,
    by simp only [size_eq, heapOverhead, alignment]; omega⟩
  have aligned : e.block % alignment = firstBlock := by rw [start]; rfl
  have stop : e.block + e.size = high - 8 := by
    simp only [start, size_eq, firstBlock, heapOverhead]
    omega
  rw [← start, ← size_eq]
  -- The block is written, and can be listed once the epilogue is there.
  have written := writeFree_eq (m := m₁) hardened true regular.room regular.units aligned (by omega)
  obtain ⟨m₂, hwrite, vacant, frame₂, -⟩ := writeFree_ok (m := m₁)
    (fun _ (hard : hardened = true) => hard) true free regular
    (show e.block + e.size ≤ m₁.size by omega) (by omega) fun _ => aligned
  obtain rfl : freeTags hardened e.block e.size true m₁ = m₂ :=
    Except.ok.inj (written.symm.trans hwrite)
  have size₂ := frame₂.size
  generalize freeTags hardened e.block e.size true m₁ = m₂ at hwrite vacant size₂ ⊢
  have ended : m₂.putHeader hardened (e.block + e.size) (.epilogue false)
      = .ok (m₂.putWord (e.block + e.size) (Header.epilogue false).encode) :=
    putHeader_of_le (by simp only [wordSize]; omega) rfl
  have size₃ : (m₂.putWord (e.block + e.size) (Header.epilogue false).encode).size = m₂.size :=
    size_putWord ..
  have vacant₃ : Vacant (fun _ => hardened = true)
      (m₂.putWord (e.block + e.size) (Header.epilogue false).encode) e true :=
    vacant.congr fun j hj _ => byte_putWord_of_disjoint _ (.inl hj.2)
  obtain ⟨listable, class_size⟩ := vacant₃.tagged.listable free regular
    (show e.block + e.size ≤ _ by omega) (by omega) aligned
  have inserted := ((Shelving.empty _).threaded hardened).insert_eq (listable.linkable hardened)
    (congrArg SizeClass.of class_size) fun x hx => absurd hx List.not_mem_nil
  have alone : (Shelves.empty (SizeClass.of e.size)).head? = none := rfl
  rw [hwrite, ok_bind, ended, ok_bind, inserted, ok_bind, alone, linkIn_none, pure_eq_ok]

end Format

/-! ## Sizes -/

/-- The size that a heap over `old` bytes is given: whole units with room for padding and epilogue,
but not those that would leave room for half a block between them. -/
def heapSizeFor (old : Nat) : Nat :=
  let whole := max ((old + 15) / 16 * 16) 16
  if whole = 32 then 48 else whole

/-- A heap is given a size that it can have and that is no smaller. -/
theorem heapSizeFor_spec (old : Nat) : old ≤ heapSizeFor old ∧ heapSizeFor old % alignment = 0 ∧
    heapOverhead ≤ heapSizeFor old ∧
    (heapSizeFor old = heapOverhead ∨ heapOverhead + minBlockSize ≤ heapSizeFor old) := by
  unfold heapSizeFor
  simp only [alignment, heapOverhead, minBlockSize]
  split <;> omega

/-- A heap is given the size that it has. -/
theorem heapSizeFor_of_tiles {es : List Extent} {high : Nat}
    (tiles : Contiguous firstBlock es (high - wordSize)) : heapSizeFor high = high := by
  have units : (high - 8) % 16 = 8 := tiles.stop_mod
  have room : high = 16 ∨ 48 ≤ high := by
    cases es with
    | nil =>
      have bare : 8 = high - 8 := tiles
      omega
    | cons e es =>
      have first := tiles.bounds (e := e) List.mem_cons_self
      have start := first.start
      have stop := first.stop
      have large := first.room
      simp only [firstBlock, wordSize, minBlockSize] at start stop large
      omega
  unfold heapSizeFor
  dsimp only
  split <;> omega

namespace Allocator

variable {a b : Allocator} {es : List Extent} {shelves : Shelves} {n old : Nat} {r : Request}
  {history : History}

/-- The size is found, if it is a word. -/
theorem setUpSize_eq (bounded : old + 15 < wordBound) : setUpSize old = .ok (heapSizeFor old) := by
  have units : wholeUnits old = .ok ((old + 15) / 16 * 16) := if_pos bounded
  unfold setUpSize heapSizeFor
  rw [units, ok_bind]
  simp only [heapOverhead, minBlockSize]
  by_cases half : max ((old + 15) / 16 * 16) 16 = 32
  · rw [if_pos (by omega), if_pos half]
    rfl
  · rw [if_neg (by omega), if_neg half]
    rfl

/-! ## Setting up a heap -/

/-- An allocator with an empty heap of `n` bytes written over its memory. -/
def laidOut (a : Allocator) (n : Nat) : Allocator :=
  (a.withArena ⟨blankMemory a.hardened n a.memory, blankLists n, .empty⟩).markReady

/-- To forget everything and write the same heap again is to do nothing. -/
theorem laidOut_again (a : Allocator) (n : Nat) : (a.laidOut n).reset.laidOut n = a.laidOut n := by
  have again : blankMemory a.hardened n (blankMemory a.hardened n a.memory)
      = blankMemory a.hardened n a.memory := (stamp_blankMemory a.hardened n).again a.memory
  show ({ a with
    source := { a.source with
      memory := blankMemory a.hardened n (blankMemory a.hardened n a.memory) }
    lists := blankLists n
    starts := StartSet.empty
    ready := true } : Allocator) = _
  rw [again]
  rfl

/-- An empty heap is laid out where it fits. -/
theorem layOut_eq (high : a.high = a.memory.size) (size : a.memory.size = n)
    (units : n % alignment = 0) (large : heapOverhead ≤ n)
    (room : n = heapOverhead ∨ heapOverhead + minBlockSize ≤ n) :
    (layOut n).outcome a = .ok () (a.laidOut n) ∧
      (a.laidOut n).Sound (blank n) (blankShelves n) := by
  have bounded : a.memory.size < wordBound := by
    rw [← high]
    exact a.high_lt
  obtain ⟨a', answered, shows', -⟩ := layOut_ok high size units large room
  have step : Arena.format a.hardened a.arena.memory n = _ :=
    format_eq a.hardened size bounded large units room
  have verified : verify.outcome (a.laidOut n) = .ok () a' := by
    rw [← answered]
    have laid : (onArena fun hardened arena => Arena.format hardened arena.memory n).outcome a
        = .ok (n - heapOverhead)
            (a.withArena ⟨blankMemory a.hardened n a.memory, blankLists n, .empty⟩) :=
      outcome_onArena_of_ok step
    unfold layOut
    rw [Action.outcome_bind, laid]
    rfl
  have same : a' = a.laidOut n := by
    unfold verify at verified
    rw [Action.outcome_inspect] at verified
    revert verified
    generalize (if (a.laidOut n).hardened then _ else Except.ok () : Except Failure Unit) = result
    intro verified
    rcases result with (_ | _) | _ <;> cases verified
    rfl
  rw [← same]
  exact ⟨answered, shows'.sound⟩

/-- **An initialisation lays out a heap, unless the source has to grow and does not.** -/
theorem outcome_init (truthful : a.source.Truthful) (bounded : a.memory.size + 15 < wordBound) :
    init.outcome a =
      if heapSizeFor a.memory.size = a.memory.size then
        (layOut (heapSizeFor a.memory.size)).outcome a.reset
      else if a.source.accepts (heapSizeFor a.memory.size - a.memory.size) then
        (layOut (heapSizeFor a.memory.size)).outcome
          (a.reset.grown (heapSizeFor a.memory.size - a.memory.size))
      else .refused (.outOfMemory (heapSizeFor a.memory.size - a.memory.size)) a.reset := by
  have old : a.reset.source.size = a.memory.size := truthful
  have grows := (heapSizeFor_spec a.memory.size).1
  unfold init
  simp only [Action.outcome_bind, Action.outcome_modify, Outcome.bind_ok, Action.outcome_read,
    outcome_lift, old, setUpSize_eq bounded, Except.mapError, Outcome.ofExcept_ok]
  by_cases fits : heapSizeFor a.memory.size = a.memory.size
  · rw [if_pos fits, if_neg (by omega)]
  · rw [if_neg fits, if_pos (by omega)]
    cases accepted : a.source.accepts (heapSizeFor a.memory.size - a.memory.size) with
    | true =>
      have accepted' : a.reset.source.accepts _ = true := accepted
      rw [Action.outcome_bind, outcome_grow_of_accepts accepted', Outcome.bind_ok]
      rfl
    | false =>
      have refused : a.reset.source.accepts _ = false := accepted
      rw [Action.outcome_bind, outcome_grow_of_refuses refused, Outcome.bind_refused]
      rfl

/-! ## After a success -/

/-- An allocator has an empty heap of `size` bytes. -/
structure Fresh (a : Allocator) (size : Nat) : Prop where
  /-- The heap is as large as its source's memory. -/
  sizes : a.high = size ∧ a.memory.size = size
  /-- An audit finds no allocated block, and one free block if there is room for it. -/
  audit : a.audit = .ok ⟨size, 0, 0, if size = heapOverhead then 0 else 1, size - heapOverhead,
    size - heapOverhead⟩
  /-- Every request with a pointer is refused because of it. -/
  requests : ∀ (r : Request) p, r.pointer = some p →
    ∃ error, Denied p error ∧ r.serve.outcome a = .ok (.error error) a
  /-- No pointer has bytes that may be used. -/
  usable : ∀ p, ∃ error, Denied p error ∧ (usable p).outcome a = .refused error a
  /-- No pointer has bytes that may be looked at. -/
  payloads : ∀ p, ∃ error, Denied p error ∧ (payloadLength p).outcome a = .refused error a
  /-- Another initialisation succeeds and does nothing. -/
  again : Allocator.init.outcome a = .ok () a

/-- The figures of an empty heap. -/
theorem ofExtents_blank (high : Nat) : Stats.ofExtents high (blank high) =
    ⟨high, 0, 0, if high = heapOverhead then 0 else 1, high - heapOverhead,
      high - heapOverhead⟩ := by
  unfold blank
  by_cases bare : high = heapOverhead
  · rw [if_pos bare, if_pos bare, bare]
    rfl
  · rw [if_neg bare, if_neg bare]
    simp [Stats.ofExtents, List.partition_eq_filter_filter, bytesOf, largestOf]

/-- A heap that was laid out over all of a memory is an empty one. -/
theorem fresh_laidOut (high : a.high = a.memory.size) (size : a.memory.size = heapSizeFor old) :
    (layOut (heapSizeFor old)).outcome a = .ok () (a.laidOut (heapSizeFor old)) ∧
      (a.laidOut (heapSizeFor old)).Fresh (heapSizeFor old) := by
  obtain ⟨-, units, large, room⟩ := heapSizeFor_spec old
  obtain ⟨laid, sound⟩ := layOut_eq high size units large room
  have dead : ∀ p e, Live (blank (heapSizeFor old)) e → payloadOf e.block ≠ p := fun p e live =>
    absurd live not_live_blank
  have still : (a.laidOut (heapSizeFor old)).memory.size = heapSizeFor old := by
    rw [← size]
    exact ((stamp_blankMemory ..).choose_spec a.memory).1
  have ends : (a.laidOut (heapSizeFor old)).high = heapSizeFor old := sound.size.trans still
  refine ⟨laid, ⟨ends, still⟩, ?_, fun r p named => served_dead sound named (dead p),
    fun p => usable_dead sound (dead p), fun p => payloadLength_dead sound (dead p), ?_⟩
  · rw [sound.audit, ends, ofExtents_blank]
  · have kept : heapSizeFor (heapSizeFor old) = heapSizeFor old := by
      have tiles := sound.arena.tiles
      rw [ends] at tiles
      exact heapSizeFor_of_tiles tiles
    have truthful : (a.laidOut (heapSizeFor old)).source.Truthful :=
      (Nat.zero_add _).symm.trans sound.size
    have bounded : heapSizeFor old < wordBound := by
      rw [← ends]
      exact high_lt _
    have small : heapSizeFor old + 15 < wordBound := by
      simp only [alignment, wordBound] at units bounded ⊢
      omega
    rw [outcome_init truthful (by rw [still]; exact small), still, if_pos kept, kept]
    have laid_again := (layOut_eq (a := (a.laidOut (heapSizeFor old)).reset) (n := heapSizeFor old)
      sound.size still units large room).1
    rwa [laidOut_again] at laid_again

/-! ## After a failure -/

/-- An allocator refuses everything but another attempt at an initialisation. -/
structure Barred (a : Allocator) : Prop where
  /-- Every request is refused for want of an initialisation. -/
  requests : ∀ r : Request, r ≠ .init → r ≠ .free none →
    r.serve.outcome a = .ok (.error .uninitialized) a
  /-- To take back nothing is no request. -/
  idle : (Request.free none).serve.outcome a = .ok (.ok .done) a
  /-- No pointer has bytes that may be used. -/
  usable : ∀ p, (usable p).outcome a = .refused .uninitialized a
  /-- No pointer has bytes that may be looked at. -/
  payloads : ∀ p, (payloadLength p).outcome a = .refused .uninitialized a
  /-- There is nothing to check. -/
  check : check.outcome a = .refused .uninitialized a
  /-- There are no free blocks. -/
  freeBlocks : a.freeBlocks = .ok 0

/-- Without an initialisation, an allocator is barred. -/
theorem barred_of_unready (unready : a.ready = false) : a.Barred := by
  have refused := requireReady_of_unready unready
  have usable_refused : ∀ p, (Allocator.usable p).outcome a = .refused .uninitialized a := by
    intro p
    unfold Allocator.usable
    rw [Action.outcome_bind, refused, Outcome.bind_refused]
  refine { requests := fun r not_init not_idle => serve_of_unready unready not_init not_idle,
           idle := rfl, usable := usable_refused, payloads := ?_, check := ?_, freeBlocks := ?_ }
  · intro p
    unfold payloadLength
    rw [Action.outcome_bind, usable_refused, Outcome.bind_refused]
  · unfold Allocator.check Allocator.audit
    rw [Action.outcome_inspect, unready]
    rfl
  · unfold Allocator.freeBlocks
    rw [unready]
    rfl

/-- `b` is reached from `a` by the requests of a history, which were answered as it says. -/
inductive Onward (a : Allocator) : History → Allocator → Prop
  /-- Nothing was asked for yet. -/
  | here : Onward a [] a
  /-- A request is answered. -/
  | next {history : History} {b c : Allocator} {r : Request} {answer : Except Refusal Answer}
      (run : Onward a history b) (answered : r.serve.outcome b = .ok answer c) :
      Onward a (history ++ [(r, answer)]) c

/-- **An allocator without an initialisation stays as it is,** whatever is asked of it, as long as
its source refuses. -/
theorem Onward.of_barred {error : Refusal} (run : Onward a history b) (barred : a.Barred)
    (refuses : Allocator.init.outcome a = .refused error a) : b = a := by
  induction run with
  | here => rfl
  | @next history b c r answer run answered ih =>
    subst ih
    by_cases is_init : r = .init
    · subst is_init
      have refused : Request.init.perform.outcome b = .refused error b := by
        show (Allocator.init >>= fun _ => pure Answer.done : Action Allocator Answer).outcome b = _
        rw [Action.outcome_bind, refuses, Outcome.bind_refused]
      rw [serve_of_refused refused] at answered
      cases answered
      rfl
    by_cases is_idle : r = .free none
    · subst is_idle
      rw [barred.idle] at answered
      cases answered
      rfl
    · rw [barred.requests r is_init is_idle] at answered
      cases answered
      rfl

/-! ## Any source -/

/-- An initialisation needs no growth, or gets what it needs. -/
def Initialisable (a : Allocator) : Prop :=
  heapSizeFor a.memory.size = a.memory.size ∨
    a.source.accepts (heapSizeFor a.memory.size - a.memory.size) = true

/-- A heap is laid out over all of the memory, if it is laid out at all. -/
theorem init_succeeds (truthful : a.source.Truthful) (bounded : a.memory.size + 15 < wordBound)
    (possible : a.Initialisable) :
    ∃ b, init.outcome a = .ok () b ∧ b.Fresh (heapSizeFor a.memory.size) := by
  have grows := (heapSizeFor_spec a.memory.size).1
  have high : a.reset.high = a.reset.memory.size := (Nat.zero_add _).trans truthful
  rw [outcome_init truthful bounded]
  by_cases fits : heapSizeFor a.memory.size = a.memory.size
  · rw [if_pos fits]
    exact ⟨_, fresh_laidOut (a := a.reset) high fits.symm⟩
  · have accepted := possible.resolve_left fits
    obtain ⟨grown, -⟩ := high_grown high (show a.reset.source.accepts _ = true from accepted)
    have size : (a.reset.grown (heapSizeFor a.memory.size - a.memory.size)).memory.size
        = a.memory.size + (heapSizeFor a.memory.size - a.memory.size) := size_extend ..
    rw [if_neg fits, if_pos accepted]
    refine ⟨_, fresh_laidOut ?_ (size.trans (by omega))⟩
    rw [grown, size, high]
    rfl

/-- If the source refuses to grow, then so is the initialisation, and only the blocks are gone. -/
theorem init_fails (truthful : a.source.Truthful) (bounded : a.memory.size + 15 < wordBound)
    (impossible : ¬ a.Initialisable) : init.outcome a
      = .refused (.outOfMemory (heapSizeFor a.memory.size - a.memory.size)) a.reset := by
  rw [outcome_init truthful bounded, if_neg fun fits => impossible (.inl fits),
    if_neg fun accepted => impossible (.inr accepted)]

/-- **An initialisation succeeds if it can.** -/
theorem init_iff (truthful : a.source.Truthful) (bounded : a.memory.size + 15 < wordBound) :
    (∃ b, init.outcome a = .ok () b) ↔ a.Initialisable := by
  constructor
  · rintro ⟨b, answered⟩
    by_contra impossible
    rw [init_fails truthful bounded impossible] at answered
    cases answered
  · intro possible
    obtain ⟨b, answered, -⟩ := init_succeeds truthful bounded possible
    exact ⟨b, answered⟩

/-- A heap that passes an audit has the size that it would be given. -/
theorem heapSizeFor_of_audit {stats : Stats} (passes : a.audit = .ok stats) :
    a.high = a.memory.size ∧ heapSizeFor a.memory.size = a.memory.size := by
  obtain ⟨es, shelves, sound, -⟩ := sound_of_audit passes
  refine ⟨sound.size, ?_⟩
  rw [← sound.size]
  exact heapSizeFor_of_tiles sound.arena.tiles

/-- **A heap can be set up over any source,** whatever it holds and whatever the allocator was
before.  It succeeds exactly if the source has a size that a heap can have, or grows to the next
one.  Then the heap is empty, and it takes no further initialisation.  If the source refuses, it is
not touched, and from then on nothing is served.  A heap that passes an audit is set up again where
it is. -/
theorem init_from_any_source (truthful : a.source.Truthful)
    (bounded : a.memory.size ≤ wordBound - 16) :
    ((∃ b, init.outcome a = .ok () b) ↔ heapSizeFor a.memory.size = a.memory.size ∨
      a.source.accepts (heapSizeFor a.memory.size - a.memory.size) = true) ∧
    (∀ b, init.outcome a = .ok () b → b.Fresh (heapSizeFor a.memory.size)) ∧
    ((¬ ∃ b, init.outcome a = .ok () b) →
      init.outcome a
        = .refused (.outOfMemory (heapSizeFor a.memory.size - a.memory.size)) a.reset ∧
      a.reset.source = a.source ∧
      ∀ history b, Onward a.reset history b → b = a.reset ∧ b.Barred) ∧
    ∀ stats, a.audit = .ok stats → ∃ b, init.outcome a = .ok () b ∧ b.high = a.high := by
  have small : a.memory.size + 15 < wordBound := by
    simp only [wordBound] at bounded ⊢
    omega
  have iff := init_iff truthful small
  refine ⟨iff, ?_, ?_, ?_⟩
  · intro b answered
    obtain ⟨c, answered', fresh⟩ := init_succeeds truthful small (iff.mp ⟨b, answered⟩)
    rw [answered] at answered'
    cases answered'
    exact fresh
  · intro failed
    have refused := init_fails truthful small fun possible => failed (iff.mpr possible)
    refine ⟨refused, rfl, ?_⟩
    intro history b run
    have barred := barred_of_unready (a := a.reset) rfl
    obtain rfl := run.of_barred barred (show init.outcome a.reset = _ from refused)
    exact ⟨rfl, barred⟩
  · intro stats passes
    obtain ⟨high, fits⟩ := heapSizeFor_of_audit passes
    obtain ⟨b, answered, fresh⟩ := init_succeeds truthful small (.inl fits)
    exact ⟨b, answered, fresh.sizes.1.trans (fits.trans high.symm)⟩

/-- A buffer that holds twenty stale bytes. -/
def leftover (limit : Nat) : Allocator :=
  .create ⟨.buffer, limit, (Memory.empty.extend 20).fill 0 0xff 20, 0⟩ default

/-- Twenty bytes are made forty-eight where there is room for them, and else nothing is served. -/
theorem init_from_any_source_of_leftover :
    (leftover 64).source.Truthful ∧ (leftover 64).memory.size ≤ wordBound - 16 ∧
    (leftover 40).source.Truthful ∧ (leftover 40).memory.size ≤ wordBound - 16 ∧
    (∃ b, init.outcome (leftover 64) = .ok () b ∧ b.Fresh 48) ∧
    init.outcome (leftover 40) = .refused (.outOfMemory 28) (leftover 40).reset := by
  have size : ∀ limit, (leftover limit).memory.size = 20 := fun limit => by
    show ((Memory.empty.extend 20).fill 0 0xff 20).size = 20
    rw [size_fill, size_extend]
    rfl
  have truthful : ∀ limit, (leftover limit).source.Truthful := fun limit => by
    show (((leftover limit).memory.size + 0 : Int) % wordBound).toNat = (leftover limit).memory.size
    rw [size]
    rfl
  have bounded : ∀ limit, (leftover limit).memory.size ≤ wordBound - 16 := fun limit => by
    rw [size]
    decide
  have target : heapSizeFor 20 = 48 := rfl
  refine ⟨truthful _, bounded _, truthful _, bounded _, ?_, ?_⟩
  · obtain ⟨iff, fresh, -⟩ := init_from_any_source (truthful 64) (bounded 64)
    rw [size, target] at iff fresh
    obtain ⟨b, answered⟩ := iff.mpr (.inr (by
      rw [Source.accepts, show (leftover 64).source.memory.size = 20 from size 64]
      rfl))
    exact ⟨b, answered, fresh b answered⟩
  · obtain ⟨iff, -, refused, -⟩ := init_from_any_source (truthful 40) (bounded 40)
    rw [size, target] at iff refused
    refine (refused ?_).1
    rw [iff, Source.accepts, show (leftover 40).source.memory.size = 20 from size 40]
    decide

end Allocator

end TaggedHeap
