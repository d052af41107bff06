import TaggedHeap.Proofs.Runs

/-!
# Where live payloads lie, and how large they are

`live_spaced` says of any moment of any run that the live blocks lie apart from each other, between
the padding and the epilogue, and that no block has more to spare than it must: what a block has
beyond the size for what was last asked for is one unit at most, which is too little to be a block.
-/

namespace TaggedHeap

open Allocator

/-- **At any moment of any run, live payloads are aligned, lie inside the heap and apart from each
other, and have room for what was last asked for and at most one unit more.** -/
theorem live_spaced {a b : Allocator} {history : History} (truthful : a.source.Truthful)
    (run : Reaches a history b) :
    (∀ p n, asked history p = some n → ∃ length size, (usable p).outcome b = .ok length b ∧
      blockSizeFor n = .ok size ∧ p % alignment = 0 ∧ firstBlock ≤ p - wordSize ∧
      p + length ≤ b.source.size - wordSize ∧ n ≤ length ∧
      (length + wordSize = size ∨ length + wordSize = size + alignment)) ∧
    ∀ p q length length', (asked history p).isSome → (asked history q).isSome → p ≠ q →
      (usable p).outcome b = .ok length b → (usable q).outcome b = .ok length' b →
      p + length ≤ q - wordSize ∨ q + length' ≤ p - wordSize := by
  obtain ⟨es, shelves, sound, names⟩ := run.tracked truthful
  have block_of : ∀ p, (asked history p).isSome → ∃ e, Live es e ∧ payloadOf e.block = p := by
    intro p known
    obtain ⟨n, hn⟩ := Option.isSome_iff_exists.mp known
    exact names.live p n hn
  constructor
  · intro p n hn
    obtain ⟨e, live, rfl⟩ := names.live p n hn
    obtain ⟨_, hn', size, hsize, snug⟩ := names.known e live
    rw [hn] at hn'
    cases hn'
    obtain ⟨start, start_mod, -, -, stop, -⟩ := sound.bounds live.1
    obtain ⟨large, room, -⟩ := of_blockSizeFor hsize
    have top : b.source.size = b.high := (Nat.zero_add _).symm
    refine ⟨e.size - wordSize, size, usable_live sound live, hsize, ?_⟩
    simp only [payloadOf, wordSize, alignment, firstBlock, minBlockSize] at large room snug ⊢
    refine ⟨?_, ?_, ?_, ?_, ?_⟩ <;> omega
  · intro p q length length' hp hq hne usable_p usable_q
    obtain ⟨e, live, rfl⟩ := block_of p hp
    obtain ⟨x, live', rfl⟩ := block_of q hq
    rw [usable_live sound live] at usable_p
    rw [usable_live sound live'] at usable_q
    cases usable_p
    cases usable_q
    have room := (sound.bounds live.1).2.2.1
    have room' := (sound.bounds live'.1).2.2.1
    simp only [payloadOf, wordSize]
    rcases sound.apart live.1 live'.1 with rfl | before | after
    · exact absurd rfl hne
    · left
      omega
    · right
      omega

set_option maxRecDepth 1000 in
/-- Two payloads are live, and the first one ends before the header of the second. -/
theorem live_spaced_of_two_blocks :
    ∃ b length, Reaches (.create (.buffer 80) { chunk := 0 })
        [(.alloc 1, .ok (.payload (some 16))), (.alloc 20, .ok (.payload (some 48)))] b ∧
      (usable 48).outcome b = .ok length b ∧ 20 ≤ length ∧
        48 + length ≤ b.source.size - wordSize := by
  have truthful : (Source.buffer 80).Truthful :=
    Source.truthful_make (rfl : Source.make .buffer 80 = .ok (.buffer 80))
  have started : Reaches (.create (.buffer 80) { chunk := 0 }) [] _ := .start rfl
  have first : Reaches _ [(.alloc 1, .ok (.payload (some 16)))] _ := started.next rfl
  have run : Reaches _
      [(.alloc 1, .ok (.payload (some 16))), (.alloc 20, .ok (.payload (some 48)))] _ :=
    first.next rfl
  obtain ⟨length, -, usable_ok, -, -, -, inside, room, -⟩ :=
    (live_spaced truthful run).1 48 20 rfl
  exact ⟨_, length, run, usable_ok, room, inside⟩

end TaggedHeap
