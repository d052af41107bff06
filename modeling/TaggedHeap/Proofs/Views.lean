import TaggedHeap.Proofs.Effects
import TaggedHeap.Proofs.Totality

/-!
# Payloads of a heap that nobody vouches for

A payload's length is read from the word before it, and that word is in memory that a stray write
may have spoiled.  Here nothing is assumed of the bytes of a heap, of its free lists or of its start
set, only that the source tells the size of its memory and that there is room for an epilogue.
Still no pointer makes a heap without self-checks stop, and what a pointer gives access to lies
between the padding and the epilogue.

* `Viewable` says where the bytes lie that a pointer gives access to.
* `usable_cases` is about their number, and `payloadLength_of_viewable` says that they are all
  there.
* `views_in_bounds` puts these together.
-/

namespace TaggedHeap

open Memory

namespace Allocator

variable {a : Allocator} {p u : Nat}

/-- The `u` bytes from `p` on are what a block has behind its header if it starts before `p`, where
the start set knows one, and ends before the epilogue does. -/
structure Viewable (a : Allocator) (p u : Nat) : Prop where
  /-- They start with a unit. -/
  aligned : p % alignment = 0
  /-- They come behind the header of the first block. -/
  first : payloadOf firstBlock ≤ p
  /-- The start set knows the block. -/
  known : a.starts.contains (p - wordSize) = true
  /-- There are as many as in the smallest block. -/
  large : minBlockSize - wordSize ≤ u
  /-- With the header they are whole units. -/
  units : u % alignment = wordSize
  /-- They end before the epilogue. -/
  stop : p + u ≤ a.high - wordSize

/-- A pointer to no block has no bytes, and any other one has those that its header says. -/
theorem usable_cases (ready : a.ready = true) (plain : a.hardened = false)
    (room : wordSize ≤ a.high) (inside : a.high ≤ a.memory.size) (p : Nat) :
    (∃ error, Denied p error ∧ (usable p).outcome a = .refused error a) ∨
    ∃ u, a.Viewable p u ∧ (usable p).outcome a = .ok u a := by
  rcases validate_cases room inside p with ⟨error, denied, refused⟩ |
    ⟨h, header, aligned, first, large, units, stop, known, accepts⟩
  · exact .inl ⟨error, denied, usable_of_refused ready refused⟩
  · simp only [alignment, payloadOf, firstBlock, minBlockSize, wordSize]
      at aligned first large units
    have length : subWord h.size wordSize = .ok (h.size - wordSize) :=
      subWord_of_le (by simp only [wordSize]; omega)
    refine .inr ⟨h.size - wordSize, ⟨aligned, first, known, ?_, ?_, ?_⟩, ?_⟩
    · exact Nat.sub_le_sub_right large _
    · simp only [alignment, wordSize]
      omega
    · simp only [wordSize]
      omega
    · unfold usable locate
      simp only [Action.outcome_bind, requireReady_of_ready ready, Outcome.bind_ok,
        Action.outcome_attempt, Action.outcome_inspect, accepts plain, Outcome.ofExcept_ok,
        Action.outcome_pure, header, lift_ok, ok_bind]
      show Outcome.ofExcept a (liftM (subWord h.size wordSize)) = _
      rw [length]
      rfl

/-- The bytes that a pointer gives access to are in the memory. -/
theorem Viewable.inBounds (view : a.Viewable p u) (inside : a.high ≤ a.memory.size) :
    p + u ≤ a.memory.size := by
  have stop := view.stop
  have large := view.large
  simp only [wordSize, minBlockSize] at stop large
  omega

/-- So a pointer gives access to as many bytes as it is said to. -/
theorem payloadLength_of_viewable (view : a.Viewable p u) (inside : a.high ≤ a.memory.size)
    (length : (usable p).outcome a = .ok u a) : (payloadLength p).outcome a = .ok u a := by
  unfold payloadLength
  simp only [Action.outcome_bind, length, Outcome.bind_ok, Action.outcome_inspect,
    inBounds_of_le (view.inBounds inside)]
  rfl

/-- **Whatever the bytes, the lists and the start set of a heap without self-checks are, no pointer
makes it stop.**  Either it is refused, or it gives access to bytes that start with a unit behind
the padding, that are whole units together with the header before them, which the start set knows,
and that end before the epilogue.  A write that does not stay among them is not made. -/
theorem views_in_bounds (ready : a.ready = true) (plain : a.hardened = false)
    (size : a.high = a.memory.size) (room : heapOverhead ≤ a.memory.size) (p : Nat) :
    (∃ error, Denied p error ∧ (usable p).outcome a = .refused error a ∧
      (payloadLength p).outcome a = .refused error a ∧
      ∀ start bytes, (Command.writePayload start bytes p).outcome a = .refused error a) ∨
    ∃ u, a.Viewable p u ∧ (usable p).outcome a = .ok u a ∧ (payloadLength p).outcome a = .ok u a ∧
      ∀ start bytes,
        (u < start + bytes.size →
          (Command.writePayload start bytes p).outcome a = .ok .outOfRange a) ∧
        (start + bytes.size ≤ u →
          ∃ m', (Command.writePayload start bytes p).outcome a
              = .ok (.number u) (a.withArena ⟨m', a.lists, a.starts⟩) ∧
            a.memory.EqOff m' (Span p (p + u))) := by
  have inside : a.high ≤ a.memory.size := size.le
  have room : wordSize ≤ a.high := by
    rw [size]
    exact Nat.le_trans (by decide) room
  rcases usable_cases ready plain room inside p with ⟨error, denied, refused⟩ | ⟨u, view, length⟩
  · have unread := payloadLength_of_refused refused
    refine .inl ⟨error, denied, refused, unread, fun start bytes => ?_⟩
    unfold Command.writePayload
    rw [Action.outcome_bind, unread, Outcome.bind_refused]
  · have read := payloadLength_of_viewable view inside length
    refine .inr ⟨u, view, length, read, fun start bytes => ?_⟩
    obtain ⟨outside, written⟩ := writePayload_of_length (view.inBounds inside) read start bytes
    exact ⟨outside, fun fits => ⟨_, written fits⟩⟩

/-- A heap of 64 bytes, all of them garbage but for one word that looks like a header.  One list
starts at a byte that is not there, and the start set knows two blocks, one of them outside of the
memory. -/
def garbled : Allocator where
  source := ⟨.buffer, 64, ((Memory.empty.extend 64).fill 0 0xa5 64).putWord 8 49, 0⟩
  lists := FreeLists.empty.setHead (.of 48) (some 12345)
  starts := (StartSet.empty.insert 8).insert 1000
  config := ⟨0, .bestFit, false⟩
  ready := true

/-- An audit of it fails. -/
theorem audit_garbled : garbled.audit = .error (.refused (.corruptHeap 8 .wrongPredecessor)) := by
  have small : garbled.arena.memory.size < 65 := by decide +kernel
  show garbled.arena.audit garbled.hardened garbled.high = _
  rw [← auditWithin_eq (high_lt _) small]
  decide +kernel

/-- All that the garbled heap gives access to lies in it, although an audit fails, and at the end of
the address space there is nothing. -/
theorem views_in_bounds_of_garbled :
    (∃ error, garbled.audit = .error error) ∧
    (∃ u, garbled.Viewable 16 u ∧ (payloadLength 16).outcome garbled = .ok u garbled) ∧
    ∃ error, Denied (wordBound - alignment) error ∧
      (payloadLength (wordBound - alignment)).outcome garbled = .refused error garbled := by
  have high : garbled.high = garbled.memory.size := by decide +kernel
  have room : heapOverhead ≤ garbled.memory.size := by decide +kernel
  refine ⟨⟨_, audit_garbled⟩, ?_, ?_⟩
  · have served : ((payloadLength 16).outcome garbled).hasValue = true := by decide +kernel
    rcases views_in_bounds rfl rfl high room 16 with
      ⟨error, -, -, refused, -⟩ | ⟨u, view, -, length, -⟩
    · rw [refused] at served
      cases served
    · exact ⟨u, view, length⟩
  · rcases views_in_bounds rfl rfl high room (wordBound - alignment) with
      ⟨error, denied, -, refused, -⟩ |
      ⟨u, view, -⟩
    · exact ⟨error, denied, refused⟩
    · have stop := view.stop
      rw [show garbled.high = 64 by decide +kernel] at stop
      simp only [wordBound, alignment, wordSize] at stop
      omega

end Allocator

end TaggedHeap
