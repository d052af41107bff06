import TaggedHeap.Allocator.Payload
import TaggedHeap.Proofs.Audited
import TaggedHeap.Proofs.Sound

/-!
# Audits end in a verdict, whatever they are asked about

An audit is made for heaps that are broken, so it has to cope with any bytes, any list heads and any
start set.  `Arena.audit` counts in natural numbers and ends because something gets smaller, which
says little about a machine that has words and loops.  So the audit is written down once more as a
machine runs it, `Arena.auditWithin`:

* every sum and every difference is one of words, and a run stops if there is none;
* both loops are given a number of rounds, and a run stops when there are none left;
* the figures are counted along the way;
* three tests are made that `Arena.audit` leaves out because no bytes fail them: that a size is
  whole units, that a payload is aligned, and that the blocks add up to the heap.

`walkWithin_eq`, `crossOffWithin_eq` and `auditWithin_eq` say that the two are the same once there
is a round for each byte of the memory.  `Verdict` is the other half: an audit has figures, or it
names something that is corrupt, and never stops.  What that rests on is the order of the tests.  A
word is only read where a test before it has shown that there is one, and a link is only followed
from a block that is yet to be crossed off, so each round of either loop leaves less to do.
-/

namespace TaggedHeap

open Memory

variable {α β γ ε : Type}

/-! ## An audit as a machine runs it -/

namespace Stats

/-- The figures with one more block counted. -/
def count (stats : Stats) (e : Extent) : Except Fault Stats := do
  if e.allocated then
    let allocatedBlocks ← addWord stats.allocatedBlocks 1
    let allocatedBytes ← addWord stats.allocatedBytes e.size
    return { stats with allocatedBlocks, allocatedBytes }
  else
    let freeBlocks ← addWord stats.freeBlocks 1
    let freeBytes ← addWord stats.freeBytes e.size
    return { stats with freeBlocks, freeBytes, largestFree := max stats.largestFree e.size }

end Stats

namespace Arena

/-- `Arena.expectFooter` in words, for a block behind which `next` starts. -/
def expectFooterWithin (m : Memory) (block raw next : Nat) (prevAllocated : Bool) :
    Except Failure Unit := do
  if (Header.decode raw).allocated then return ()
  expect prevAllocated block .adjacentFree
  let footer ← m.readWord (← subWord next wordSize)
  expect (footer == raw) block .footerMismatch

/-- `Arena.walk` in words and with a bound on its rounds.  It carries the figures of the blocks that
it has met, and which of them are free. -/
def walkWithin (m : Memory) (starts : StartSet) (epilogue : Nat) :
    (fuel block : Nat) → (prevAllocated : Bool) → Stats → (free : List Nat) →
      Except Failure (Stats × List Nat)
  | 0, _, _, _, _ => .error (.stopped .endless)
  | fuel + 1, block, prevAllocated, stats, free => do
    let raw ← m.readWord block
    let h := Header.decode raw
    expect (!Header.reserved raw) block .reservedBits
    expect (h.prevAllocated == prevAllocated) block .wrongPredecessor
    if block = epilogue then
      expect (h.size == 0 && h.allocated) block .badEpilogue
      return (stats, free)
    else
      expect (h.size != 0) block .zeroSize
      require (h.size % alignment == 0) .violated
      expect (minBlockSize ≤ h.size) block .undersized
      let left ← subWord epilogue block
      expect (h.size ≤ left) block .pastEpilogue
      let payload ← addWord block wordSize
      require (payload % alignment == 0) .violated
      expect (h.allocated == starts.contains block) block .startMismatch
      let next ← addWord block h.size
      expectFooterWithin m block raw next prevAllocated
      let stats ← stats.count ⟨block, h.size, h.allocated⟩
      let free := if h.allocated then free else free ++ [block]
      walkWithin m starts epilogue fuel next h.allocated stats free

/-- `Arena.crossOff` in words and with a bound on its rounds. -/
def crossOffWithin (hardened : Bool) (m : Memory) (c : SizeClass) :
    (fuel : Nat) → (prev cursor : Option Nat) → (unlisted : List Nat) →
      Except Failure (List Nat)
  | _, _, none, unlisted => .ok unlisted
  | 0, _, some _, _ => .error (.stopped .endless)
  | fuel + 1, prev, some block, unlisted =>
    if block ∈ unlisted then do
      m.requireLinks block
      let own ← FreeLists.classOfBlock hardened m block
      expect (own == c) block .wrongClass
      let payload ← addWord block wordSize
      let back ← m.link hardened block (← addWord payload wordSize)
      expect (back == prev) block .brokenBackLink
      let next ← m.link hardened block payload
      crossOffWithin hardened m c fuel (some block) next (unlisted.erase block)
    else corrupt block .strayEntry

/-- `Arena.crossOffAll` in words and with a bound on the rounds for each list. -/
def crossOffAllWithin (hardened : Bool) (fuel : Nat) (m : Memory) (lists : FreeLists) :
    List SizeClass → List Nat → Except Failure (List Nat)
  | [], unlisted => .ok unlisted
  | c :: classes, unlisted => do
    let left ← crossOffWithin hardened m c fuel none (lists.head c) unlisted
    crossOffAllWithin hardened fuel m lists classes left

/-- `Arena.audit` in words, no loop of which takes more than `fuel` rounds. -/
def auditWithin (hardened : Bool) (fuel : Nat) (arena : Arena) (high : Nat) :
    Except Failure Stats := do
  expect (heapOverhead ≤ high && high % alignment == 0 && arena.memory.size == high) high
    .raggedSize
  let epilogue ← subWord high wordSize
  let (stats, free) ←
    walkWithin arena.memory arena.starts epilogue fuel firstBlock true ⟨high, 0, 0, 0, 0, 0⟩ []
  expect (arena.starts.size == stats.allocatedBlocks) 0 .phantomStart
  let total ← addWord (← addWord (← addWord wordSize stats.allocatedBytes) stats.freeBytes) wordSize
  require (total == high) .violated
  let left ← crossOffAllWithin hardened fuel arena.memory arena.lists SizeClass.all free
  match left with
  | [] => return stats
  | block :: _ => corrupt block .unlisted

end Arena

/-! ## Figures along the way -/

section Figures

variable {es xs ys : List Extent} {e : Extent} {a c : Nat}

/-- Blocks have the bytes of the first ones and of the last ones. -/
theorem bytesOf_append : bytesOf (xs ++ ys) = bytesOf xs + bytesOf ys := by
  induction xs with
  | nil => exact (Nat.zero_add _).symm
  | cons x xs ih => rw [List.cons_append, bytesOf, bytesOf, ih, Nat.add_assoc]

/-- The largest of some blocks is among the first ones or among the last ones. -/
theorem largestOf_append : largestOf (xs ++ ys) = max (largestOf xs) (largestOf ys) := by
  induction xs with
  | nil => exact (Nat.max_eq_right (Nat.zero_le _)).symm
  | cons x xs ih => rw [List.cons_append, largestOf, largestOf, ih, Nat.max_assoc]

/-- Contiguous blocks have all the bytes between their ends. -/
theorem Contiguous.bytes (tiles : Contiguous a es c) : a + bytesOf es = c := by
  induction es generalizing a with
  | nil => exact tiles
  | cons e es ih =>
    obtain ⟨rfl, -, rest⟩ := tiles
    rw [bytesOf, ← Nat.add_assoc]
    exact ih rest

/-- Each of some contiguous blocks takes its share of the bytes. -/
theorem Contiguous.length (tiles : Contiguous a es c) : a + minBlockSize * es.length ≤ c := by
  induction es generalizing a with
  | nil => exact Nat.le_of_eq tiles
  | cons e es ih =>
    obtain ⟨rfl, regular, rest⟩ := tiles
    have room := regular.room
    have behind := ih rest
    simp only [Extent.stop, minBlockSize, List.length_cons] at room behind ⊢
    omega

/-- Blocks have the bytes of the allocated ones and of the free ones. -/
theorem bytesOf_partition : bytesOf (es.filter (·.allocated)) +
    bytesOf (es.filter (not ∘ fun x => x.allocated)) = bytesOf es := by
  induction es with
  | nil => rfl
  | cons e es ih =>
    rw [bytesOf, ← ih]
    cases taken : e.allocated <;> simp [taken, bytesOf] <;> omega

/-- What the figures of contiguous blocks add up to. -/
theorem Contiguous.figures (tiles : Contiguous a es c) (high : Nat) :
    (Stats.ofExtents high es).allocatedBlocks + (Stats.ofExtents high es).freeBlocks = es.length ∧
      a + (Stats.ofExtents high es).allocatedBytes + (Stats.ofExtents high es).freeBytes = c := by
  have bytes := tiles.bytes
  rw [← bytesOf_partition] at bytes
  simp only [Stats.ofExtents, List.partition_eq_filter_filter]
  refine ⟨?_, by omega⟩
  exact (List.length_eq_length_filter_add _).symm

/-- The figures of one more block. -/
theorem count_ofExtents (tiles : Contiguous a (es ++ [e]) c) (bounded : c < wordBound)
    (high : Nat) : (Stats.ofExtents high es).count e = .ok (Stats.ofExtents high (es ++ [e])) := by
  have shares := tiles.length
  obtain ⟨blocks, bytes⟩ := tiles.figures high
  rw [List.length_append] at shares blocks
  simp only [Stats.ofExtents, List.partition_eq_filter_filter, List.filter_append, bytesOf_append,
    largestOf_append, List.length_append, minBlockSize] at shares blocks bytes ⊢
  unfold Stats.count
  cases taken : e.allocated with
  | true =>
    simp only [taken, List.filter_cons_of_pos, List.filter_nil, Function.comp_apply, Bool.not_true,
      Bool.false_eq_true, not_false_eq_true, List.filter_cons_of_neg, bytesOf, largestOf,
      List.length_cons, List.length_nil, if_true] at blocks bytes shares ⊢
    rw [addWord_of_lt (by omega), ok_bind, addWord_of_lt (by omega), ok_bind]
    simp
  | false =>
    simp only [taken, List.filter_cons_of_pos, List.filter_nil, Function.comp_apply, Bool.not_false,
      Bool.false_eq_true, not_false_eq_true, List.filter_cons_of_neg, bytesOf, largestOf,
      List.length_cons, List.length_nil, if_false] at blocks bytes shares ⊢
    rw [addWord_of_lt (by omega), ok_bind, addWord_of_lt (by omega), ok_bind]
    simp

end Figures

/-! ## The same audit -/

/-- Two computations that start in the same way are the same if they go on in the same way. -/
theorem bind_map_congr {x : Except ε α} {f : α → Except ε γ} {g : α → Except ε β} {h : β → γ}
    (same : ∀ a, x = .ok a → f a = (g a).map h) : (x >>= f) = (x >>= g).map h := by
  cases x with
  | error e => rfl
  | ok a => exact same a rfl

section Walk

variable {m : Memory} {starts : StartSet} {epilogue block high fuel raw next : Nat} {prev : Bool}
  {met : List Extent}

/-- A footer is looked for in the same place, if the block behind it starts at a word. -/
theorem expectFooterWithin_eq (size : next = block + (Header.decode raw).size)
    (behind : wordSize ≤ next) :
    Arena.expectFooterWithin m block raw next prev = Arena.expectFooter m block raw prev := by
  unfold Arena.expectFooterWithin Arena.expectFooter
  rw [subWord_of_le behind, size]
  rfl

/-- **A walk in words takes the same way,** and has the figures and the free blocks of all that it
met.  `met` is what it met so far. -/
theorem walkWithin_eq (tiles : Contiguous firstBlock met block) (ahead : block ≤ epilogue)
    (bounded : epilogue < wordBound) (enough : epilogue - block < fuel) :
    Arena.walkWithin m starts epilogue fuel block prev (Stats.ofExtents high met)
        (freeBlocksOf met) =
      (Arena.walk m starts epilogue block prev).map fun es =>
        (Stats.ofExtents high (met ++ es), freeBlocksOf (met ++ es)) := by
  induction fuel generalizing block prev met with
  | zero => exact absurd enough (Nat.not_lt_zero _)
  | succ fuel ih =>
    have start : 8 ≤ block := tiles.le
    have aligned : block % 16 = 8 := tiles.stop_mod
    rw [Arena.walkWithin, Arena.walk]
    refine bind_map_congr fun raw _ => ?_
    refine bind_map_congr fun _ _ => ?_
    refine bind_map_congr fun _ _ => ?_
    by_cases here : block = epilogue
    · rw [if_pos here, if_pos here]
      refine bind_map_congr fun _ _ => ?_
      simp only [pure_eq_ok, Except.map, List.append_nil]
    rw [if_neg here, if_neg here]
    by_cases zero : (Header.decode raw).size = 0
    · rw [dif_pos (by rw [zero]; decide), if_pos zero, zero]
      rfl
    have units : ((Header.decode raw).size % alignment == 0) = true :=
      beq_iff_eq.mpr (Header.size_decode_mod raw)
    rw [expect_of (bne_iff_ne.mpr zero), ok_bind, require_of units, lift_ok, ok_bind]
    by_cases small : (Header.decode raw).size < minBlockSize
    · rw [dif_pos small, if_neg zero, Arena.expect, decide_eq_false (Nat.not_le.mpr small)]
      rfl
    rw [dif_neg small, expect_of (decide_eq_true (Nat.not_lt.mp small)), ok_bind,
      subWord_of_le ahead, lift_ok, ok_bind]
    by_cases past : epilogue - block < (Header.decode raw).size
    · rw [dif_pos past, Arena.expect, decide_eq_false (Nat.not_le.mpr past)]
      rfl
    have room : 32 ≤ (Header.decode raw).size := Nat.not_lt.mp small
    have inside : block + (Header.decode raw).size ≤ epilogue := by omega
    have payload : ((block + wordSize) % alignment == 0) = true := by
      simp only [wordSize, alignment, beq_iff_eq]
      omega
    rw [dif_neg past, expect_of (decide_eq_true (Nat.not_lt.mp past)), ok_bind,
      addWord_of_lt (by simp only [wordSize]; omega), lift_ok, ok_bind, require_of payload, lift_ok,
      ok_bind]
    refine bind_map_congr fun _ _ => ?_
    rw [addWord_of_lt (by omega), lift_ok, ok_bind,
      expectFooterWithin_eq rfl (by simp only [wordSize]; omega)]
    refine bind_map_congr fun _ _ => ?_
    -- The block that was met joins those met before, and all that follows is the walk behind it.
    have longer : Contiguous firstBlock
        (met ++ [⟨block, (Header.decode raw).size, (Header.decode raw).allocated⟩])
        (block + (Header.decode raw).size) :=
      contiguous_append.mpr ⟨block, tiles, rfl,
        ⟨Nat.not_lt.mp small, Header.size_decode_mod raw⟩, rfl⟩
    have free : (if (Header.decode raw).allocated then freeBlocksOf met
        else freeBlocksOf met ++ [block]) = freeBlocksOf
          (met ++ [⟨block, (Header.decode raw).size, (Header.decode raw).allocated⟩]) := by
      cases (Header.decode raw).allocated <;> simp [freeBlocksOf]
    rw [count_ofExtents longer (by omega) high, lift_ok, ok_bind, free,
      ih longer inside (by omega)]
    cases Arena.walk m starts epilogue (block + (Header.decode raw).size)
        (Header.decode raw).allocated with
    | error e => rfl
    | ok es =>
      simp only [Except.map, List.append_assoc, pure_eq_ok, ok_bind]
      rfl

end Walk

section CrossOff

variable {hardened : Bool} {m : Memory} {lists : FreeLists} {c : SizeClass} {fuel : Nat}
  {prev cursor : Option Nat} {unlisted : List Nat} {classes : List SizeClass}

/-- Words that are links lie below the end of the memory, so their offsets are words. -/
theorem Listable.slots {b : Nat} (hb : Listable m b) (bounded : m.size < wordBound) :
    addWord b wordSize = .ok (nextSlot b) ∧ addWord (nextSlot b) wordSize = .ok (prevSlot b) := by
  have inside : b + 32 ≤ m.size := hb.inside
  constructor <;> refine addWord_of_lt ?_ <;>
    simp only [nextSlot, payloadOf, wordSize] <;> omega

/-- **A list is followed in words in the same way,** if there is a round for each block that is yet
unlisted, and one more. -/
theorem crossOffWithin_eq (bounded : m.size < wordBound)
    (listable : ∀ b ∈ unlisted, Listable m b) (enough : unlisted.length < fuel) :
    Arena.crossOffWithin hardened m c fuel prev cursor unlisted =
      Arena.crossOff hardened m c prev cursor unlisted := by
  induction fuel generalizing prev cursor unlisted with
  | zero => exact absurd enough (Nat.not_lt_zero _)
  | succ fuel ih =>
    rw [Arena.crossOff.eq_def]
    cases cursor with
    | none => rfl
    | some b =>
      rw [Arena.crossOffWithin]
      by_cases listed : b ∈ unlisted
      · obtain ⟨next_slot, prev_slot⟩ := (listable b listed).slots bounded
        have fewer := List.length_erase_of_mem listed
        have some_left := List.length_pos_of_mem listed
        simp only [if_pos listed, dif_pos listed, next_slot, prev_slot, lift_ok, ok_bind]
        refine bind_congr fun _ => bind_congr fun _ => bind_congr fun _ => bind_congr fun _ =>
          bind_congr fun _ => bind_congr fun next => ?_
        exact ih (fun x hx => listable x (List.mem_of_mem_erase hx)) (by omega)
      · simp only [if_neg listed, dif_neg listed]

/-- All lists are followed in words in the same way. -/
theorem crossOffAllWithin_eq (bounded : m.size < wordBound)
    (listable : ∀ b ∈ unlisted, Listable m b) (enough : unlisted.length < fuel) :
    Arena.crossOffAllWithin hardened fuel m lists classes unlisted =
      Arena.crossOffAll hardened m lists classes unlisted := by
  induction classes generalizing unlisted with
  | nil => rfl
  | cons c classes ih =>
    rw [Arena.crossOffAllWithin, Arena.crossOffAll, crossOffWithin_eq bounded listable enough]
    cases crossed : Arena.crossOff hardened m c none (lists.head c) unlisted with
    | error e => rfl
    | ok left =>
      obtain ⟨l, -, -, -, perm⟩ := crossOff_sound listable crossed
      have fewer := perm.length_eq
      rw [List.length_append] at fewer
      exact ih (fun b hb => listable b (perm.mem_iff.mpr (List.mem_append_right _ hb))) (by omega)

end CrossOff

section Audit

variable {hardened : Bool} {arena : Arena} {high fuel : Nat} {es : List Extent}

/-- What a walk through all of a memory has found out about its free blocks. -/
theorem Walked.unlisted {m : Memory} {starts : StartSet}
    (walked : Walked m starts (high - wordSize) firstBlock true es) (size : m.size = high)
    (bounded : high < wordBound) :
    (∀ b ∈ freeBlocksOf es, Listable m b) ∧ (freeBlocksOf es).length ≤ high := by
  constructor
  · intro b hb
    obtain ⟨e, he, free, rfl⟩ := mem_freeBlocksOf.mp hb
    exact (walked.listable (by rw [size]; exact bounded) he free).1
  · have shares := walked.tiles.length
    have free : (freeBlocksOf es).length ≤ es.length := by
      rw [freeBlocksOf, List.length_map]
      exact List.length_filter_le ..
    simp only [firstBlock, minBlockSize, wordSize] at shares
    omega

/-- **An audit in words is the audit,** if it may take a round for each byte, and one more. -/
theorem auditWithin_eq (bounded : high < wordBound) (enough : arena.memory.size < fuel) :
    arena.auditWithin hardened fuel high = arena.audit hardened high := by
  unfold Arena.auditWithin Arena.audit
  by_cases whole :
      (heapOverhead ≤ high && high % alignment == 0 && arena.memory.size == high) = true
  swap
  · rw [Arena.expect, Bool.eq_false_iff.mpr whole]
    rfl
  obtain ⟨⟨large, units⟩, size⟩ : (16 ≤ high ∧ high % 16 = 0) ∧ arena.memory.size = high := by
    simpa only [heapOverhead, alignment, Bool.and_eq_true, decide_eq_true_eq, beq_iff_eq]
      using whole
  have room : wordSize ≤ high := by simp only [wordSize]; omega
  have walk : Arena.walkWithin arena.memory arena.starts (high - wordSize) fuel firstBlock true
      ⟨high, 0, 0, 0, 0, 0⟩ [] =
        (Arena.walk arena.memory arena.starts (high - wordSize) firstBlock true).map fun es =>
          (Stats.ofExtents high es, freeBlocksOf es) :=
    walkWithin_eq (show Contiguous firstBlock [] firstBlock from rfl)
      (by simp only [firstBlock, wordSize]; omega) (by omega) (by omega)
  rw [expect_of whole, ok_bind, ok_bind, subWord_of_le room, lift_ok, ok_bind, walk]
  cases found : Arena.walk arena.memory arena.starts (high - wordSize) firstBlock true with
  | error e => rfl
  | ok es =>
    have walked := walk_sound found
    obtain ⟨listable, few⟩ := walked.unlisted size bounded
    obtain ⟨-, bytes⟩ := walked.tiles.figures high
    simp only [firstBlock, wordSize] at bytes
    have whole_again : ((wordSize + (Stats.ofExtents high es).allocatedBytes +
        (Stats.ofExtents high es).freeBytes + wordSize) == high) = true := by
      simp only [wordSize, beq_iff_eq]
      omega
    have taken : (Stats.ofExtents high es).allocatedBlocks = (es.filter (·.allocated)).length := by
      simp only [Stats.ofExtents, List.partition_eq_filter_filter]
    simp only [Except.map, ok_bind]
    rw [taken, addWord_of_lt (by simp only [wordSize]; omega), lift_ok, ok_bind,
      addWord_of_lt (by simp only [wordSize]; omega), lift_ok, ok_bind,
      addWord_of_lt (by simp only [wordSize]; omega), lift_ok, ok_bind, require_of whole_again,
      lift_ok, ok_bind,
      crossOffAllWithin_eq (by omega) listable (by omega)]
    simp only [List.partition_eq_filter_filter]
    rfl

end Audit

/-! ## Verdicts -/

/-- A computation of an audit has a value, or names something that is corrupt. -/
def Verdict (x : Except Failure α) : Prop :=
  (∃ a, x = .ok a) ∨ ∃ offset cause, x = .error (.refused (.corruptHeap offset cause))

/-- To have a value is a verdict. -/
theorem verdict_ok (a : α) : Verdict (.ok a : Except Failure α) := .inl ⟨a, rfl⟩

/-- To find something wrong is a verdict. -/
theorem verdict_corrupt (offset : Nat) (cause : Corruption) :
    Verdict (Arena.corrupt offset cause : Except Failure α) := .inr ⟨offset, cause, rfl⟩

/-- A demand of an audit is a verdict, met or not. -/
theorem verdict_expect (condition : Bool) (offset : Nat) (cause : Corruption) :
    Verdict (Arena.expect condition offset cause) := by
  cases condition with
  | true => exact verdict_ok ()
  | false => exact verdict_corrupt offset cause

/-- A computation in two parts is a verdict if the first one is, and the second one where it is
reached. -/
theorem Verdict.bind {x : Except Failure α} {f : α → Except Failure β} (first : Verdict x)
    (second : ∀ a, x = .ok a → Verdict (f a)) : Verdict (x >>= f) := by
  rcases first with ⟨a, rfl⟩ | ⟨offset, cause, rfl⟩
  · exact second a rfl
  · exact .inr ⟨offset, cause, rfl⟩

section Verdict

variable {hardened : Bool} {arena : Arena} {m : Memory} {starts : StartSet} {lists : FreeLists}
  {epilogue block raw high : Nat} {prev : Bool} {c : SizeClass} {unlisted : List Nat}
  {classes : List SizeClass}

/-- The footer of a block that ends inside the memory is there to be read. -/
theorem verdict_expectFooter (start : 8 ≤ block)
    (inside : block + (Header.decode raw).size ≤ m.size) :
    Verdict (Arena.expectFooter m block raw prev) := by
  unfold Arena.expectFooter
  dsimp only
  split
  next => exact verdict_ok ()
  next =>
    have read : m.readWord (block + (Header.decode raw).size - wordSize) = .ok _ :=
      readWord_of_le (by simp only [wordSize]; omega)
    refine (verdict_expect ..).bind fun _ _ => ?_
    rw [read, lift_ok, ok_bind]
    exact verdict_expect ..

/-- **A walk ends in a verdict.**  The induction is on what is left of the way: wherever the walk
goes on, it is nearer to the epilogue and not past it, so the next header is there to be read. -/
theorem verdict_walk (start : 8 ≤ block) (ahead : block ≤ epilogue)
    (inside : epilogue + 8 ≤ m.size) : Verdict (Arena.walk m starts epilogue block prev) := by
  induction left : epilogue - block using Nat.strong_induction_on generalizing block prev with
  | _ left ih =>
    subst left
    rw [Arena.walk, readWord_of_le (by simp only [wordSize]; omega), lift_ok, ok_bind]
    refine (verdict_expect ..).bind fun _ _ => (verdict_expect ..).bind fun _ _ => ?_
    split
    next => exact (verdict_expect ..).bind fun _ _ => verdict_ok []
    next =>
      split
      next => exact verdict_corrupt ..
      next room =>
        split
        next => exact verdict_corrupt ..
        next fits =>
          have room : 32 ≤ (Header.decode (m.word block)).size := Nat.not_lt.mp room
          refine (verdict_expect ..).bind fun _ _ =>
            (verdict_expectFooter start (by omega)).bind fun _ _ => ?_
          exact (ih _ (by omega) (by omega) (by omega) rfl).bind fun rest _ => verdict_ok _

/-- The links of a block that can be linked are there to be read, whatever they say. -/
theorem Linkable.link_ok {b slot : Nat} (hb : Linkable hardened m b) (hs : FrontWord b slot) :
    ∃ target, m.link hardened b slot = .ok target := by
  rw [Memory.link, hb.requireLinkable, ok_bind, readWord_of_le (hb.inside_of_frontWord hs)]
  exact ⟨_, rfl⟩

/-- **Following a list ends in a verdict,** wherever its links lead: a block is only looked into
after it was found among those that are yet unlisted. -/
theorem verdict_crossOff {prev cursor : Option Nat}
    (listable : ∀ b ∈ unlisted, Listable m b) :
    Verdict (Arena.crossOff hardened m c prev cursor unlisted) := by
  induction prev, cursor, unlisted using Arena.crossOff.induct with
  | case1 prev unlisted =>
    rw [Arena.crossOff.eq_def]
    exact verdict_ok unlisted
  | case2 prev unlisted b listed ih =>
    have hb := (listable b listed).linkable hardened
    obtain ⟨back, hback⟩ := hb.link_ok .prev
    obtain ⟨next, hnext⟩ := hb.link_ok .next
    rw [Arena.crossOff.eq_def]
    simp only [dif_pos listed, hb.requireLinks, hb.classOfBlock, Memory.prevLink, hback,
      Memory.nextLink, hnext, lift_ok, ok_bind]
    exact (verdict_expect ..).bind fun _ _ => (verdict_expect ..).bind fun _ _ =>
      ih next fun x hx => listable x (List.mem_of_mem_erase hx)
  | case3 prev unlisted b stray =>
    rw [Arena.crossOff.eq_def]
    simp only [dif_neg stray]
    exact verdict_corrupt ..

/-- Following all lists ends in a verdict. -/
theorem verdict_crossOffAll (listable : ∀ b ∈ unlisted, Listable m b) :
    Verdict (Arena.crossOffAll hardened m lists classes unlisted) := by
  induction classes generalizing unlisted with
  | nil => exact verdict_ok unlisted
  | cons c classes ih =>
    refine (verdict_crossOff listable).bind fun left crossed => ?_
    obtain ⟨l, -, -, -, perm⟩ := crossOff_sound listable crossed
    exact ih fun b hb => listable b (perm.mem_iff.mpr (List.mem_append_right _ hb))

/-- **An audit ends in a verdict,** whatever the memory, the heads and the start set are. -/
theorem verdict_audit (hardened : Bool) (arena : Arena) (bounded : high < wordBound) :
    Verdict (arena.audit hardened high) := by
  unfold Arena.audit
  refine (verdict_expect ..).bind fun _ whole => ?_
  obtain ⟨⟨large, -⟩, size⟩ : (16 ≤ high ∧ high % 16 = 0) ∧ arena.memory.size = high := by
    simpa only [expect_eq_ok_iff, heapOverhead, alignment, Bool.and_eq_true, decide_eq_true_eq,
      beq_iff_eq] using whole
  refine (verdict_walk (Nat.le_refl 8) (by simp only [wordSize]; omega)
    (by simp only [wordSize]; omega)).bind fun es found => ?_
  obtain ⟨listable, -⟩ := (walk_sound found).unlisted size bounded
  simp only [List.partition_eq_filter_filter]
  refine (verdict_expect ..).bind fun _ _ => (verdict_crossOffAll listable).bind fun left _ => ?_
  cases left with
  | nil => exact verdict_ok _
  | cons block _ => exact verdict_corrupt block .unlisted

end Verdict

namespace Allocator

/-- **An initialised allocator can be checked whatever its bytes, its list heads and its start set
are.**  The check has figures or names something that is corrupt, and changes nothing; and a machine
that makes it never leaves its words or its memory, and takes no more rounds in either of its loops
than the memory has bytes, and one. -/
theorem check_total (a : Allocator) (ready : a.ready = true) :
    ((∃ stats, check.outcome a = .ok stats a) ∨
      ∃ offset cause, check.outcome a = .refused (.corruptHeap offset cause) a) ∧
    ∀ fuel, a.memory.size < fuel → a.arena.auditWithin a.hardened fuel a.high = a.audit := by
  have audit : a.audit = a.arena.audit a.hardened a.high := if_pos ready
  constructor
  · rw [check, Action.outcome_inspect, audit]
    rcases verdict_audit a.hardened a.arena a.high_lt with
      ⟨stats, h⟩ | ⟨offset, cause, h⟩
    · exact .inl ⟨stats, by rw [h]; rfl⟩
    · exact .inr ⟨offset, cause, by rw [h]; rfl⟩
  · intro fuel enough
    rw [audit]
    exact auditWithin_eq a.high_lt enough

/-- A hardened allocator whose one free block is linked to itself, and with a list that starts far
outside of the memory. -/
def tangled : Allocator where
  source := ⟨.buffer, 64,
    ((((Memory.empty.extend 48).putWord 8 34).putWord 32 34).putWord 16 8).putWord 40 1, 0⟩
  lists := (FreeLists.empty.setHead (.of 32) (some 8)).setHead (.of 256) (some 0xfffffffffffffff8)
  starts := .empty
  config := ⟨4096, .bestFit, true⟩
  ready := true

/-- Tangled lists are checked. -/
theorem check_total_of_tangled : tangled.ready = true ∧
    ((∃ stats, check.outcome tangled = .ok stats tangled) ∨
      ∃ offset cause, check.outcome tangled = .refused (.corruptHeap offset cause) tangled) ∧
    ∀ fuel, tangled.memory.size < fuel →
      tangled.arena.auditWithin tangled.hardened fuel tangled.high = tangled.audit :=
  ⟨rfl, check_total tangled rfl⟩

example :
    tangled.arena.auditWithin true 49 48 = .error (.refused (.corruptHeap 8 .strayEntry)) := by
  decide +kernel

end Allocator

end TaggedHeap
