import TaggedHeap.Proofs.Supply

/-!
# Zeros are bytes that were handed out and then set to zero

A request for `n` elements of `size` bytes is one for the product of both, and it ends as that one
ends: with the same payload or with none, with the same refusal, or with the same fault.  It differs
in one thing.  All that may be used of a new payload is set to zero, which is more than was asked
for where its block has some bytes to spare.

* `Zeroed b p c` says what this does to a heap `b`: the last byte that is touched is the one in
  front of the next block, and everything that the heap is made of stays.
* `Sound.zeroed` says that it is what happens to any live payload.
* `calloc_exact` puts this behind an allocation, on every heap that passes an audit.

Only a product that no word can hold is refused at once.  There is no such bound on the factors.
-/

namespace TaggedHeap

open Memory

namespace Allocator

/-- `c` is `b`, but that all of the live payload `p` is zero. -/
structure Zeroed (b : Allocator) (p : Nat) (c : Allocator) : Prop where
  /-- Nothing but bytes of the memory differs. -/
  rest : c = b.withArena ⟨c.memory, b.lists, b.starts⟩
  /-- There are as many bytes as before. -/
  size : c.memory.size = b.memory.size
  /-- The payload reaches to the end of its block, and may be used up to there before and
  afterwards.  These bytes are zero, and no others are touched. -/
  bytes : ∃ e ∈ b.taken, payloadOf e.block = p ∧ p + (e.size - wordSize) = e.stop ∧
    (usable p).outcome b = .ok (e.size - wordSize) b ∧
    (usable p).outcome c = .ok (e.size - wordSize) c ∧
    ∀ j, c.memory.byte j = if p ≤ j ∧ j < e.stop then 0 else b.memory.byte j
  /-- An audit finds nothing wrong, and the same figures. -/
  audit : ∃ stats, b.audit = .ok stats ∧ c.audit = .ok stats
  /-- The heap consists of the same blocks. -/
  layout : c.layout = b.layout
  /-- Their headers stay, also that of the next block. -/
  headers : ∀ x ∈ b.layout, c.memory.header x.block = b.memory.header x.block
  /-- So does the one behind the last block. -/
  epilogue : c.memory.header (b.high - wordSize) = b.memory.header (b.high - wordSize)
  /-- Of other blocks every byte stays, so payloads of allocated ones, and links and footers of free
  ones. -/
  others : ∀ x ∈ b.layout, payloadOf x.block ≠ p →
    ∀ j, Span x.block x.stop j → c.memory.byte j = b.memory.byte j

variable {a b : Allocator} {es : List Extent} {shelves : Shelves} {e x : Extent} {stats : Stats}
  {m' : Memory} {n p : Nat} {filled : Extent → Prop}

/-! ## Setting a payload to zero -/

/-- What is written into a payload does not reach the header of a block. -/
theorem Sound.header_write (sound : a.Sound es shelves filled) (live : Live es e) (hx : x ∈ es)
    (frame : a.memory.EqOff m' (Span (payloadOf e.block) e.stop)) :
    m'.header x.block = a.memory.header x.block := by
  obtain ⟨-, -, room, -⟩ := sound.bounds hx
  apply frame.header
  intro j low high span
  simp only [payloadOf, wordSize, Extent.stop] at low high span
  rcases sound.apart live.1 hx with rfl | before | behind <;> omega

/-- Nor does it reach any byte of another block. -/
theorem Sound.byte_write (sound : a.Sound es shelves filled) (live : Live es e) (hx : x ∈ es)
    (other : payloadOf x.block ≠ payloadOf e.block)
    (frame : a.memory.EqOff m' (Span (payloadOf e.block) e.stop)) {j : Nat}
    (hj : Span x.block x.stop j) : m'.byte j = a.memory.byte j := by
  apply frame.byte
  intro span
  simp only [payloadOf, wordSize, Extent.stop] at hj span
  rcases sound.apart live.1 hx with rfl | before | behind
  · exact other rfl
  · omega
  · omega

/-- Nor the header behind the last block. -/
theorem Sound.epilogue_write (sound : a.Sound es shelves filled) (live : Live es e)
    (frame : a.memory.EqOff m' (Span (payloadOf e.block) e.stop)) :
    m'.header (a.high - wordSize) = a.memory.header (a.high - wordSize) := by
  obtain ⟨-, -, -, -, stop, -⟩ := sound.bounds live.1
  apply frame.header
  intro j low high span
  simp only [wordSize, Extent.stop] at low span
  omega

/-- **All of a live payload is set to zero, and nothing else is touched.** -/
theorem Sound.zeroed (sound : a.Sound es shelves filled) (live : Live es e) :
    ∃ c, (editMemory (zeroFill (payloadOf e.block))).outcome a = .ok () c ∧
      Zeroed a (payloadOf e.block) c := by
  obtain ⟨m', written, frame, zeros⟩ := zeroFill_live sound live
  obtain ⟨-, -, large, -⟩ := sound.bounds live.1
  have sound' := sound.write_sound live frame
  have high : (a.withArena ⟨m', a.lists, a.starts⟩).high = a.high := high_withArena frame.size
  refine ⟨_, outcome_editMemory_of_ok written,
    { rest := rfl
      size := frame.size
      bytes :=
        ⟨e, sound.mem_taken.mpr live, rfl, ?_, usable_live sound live, usable_live sound' live, ?_⟩
      audit := ⟨_, sound.audit, ?_⟩
      layout := sound'.layout.trans sound.layout.symm
      headers := fun x hx => sound.header_write live (sound.layout ▸ hx) frame
      epilogue := sound.epilogue_write live frame
      others := fun x hx other j hj => sound.byte_write live (sound.layout ▸ hx) other frame hj }⟩
  · exact e.payload_stop (by simp only [wordSize]; omega)
  · intro j
    split
    next inside => exact zeros j inside
    next outside => exact frame.byte j outside
  · rw [sound'.audit, high]

/-! ## Handing out zeros -/

/-- A payload that was handed out is that of a live block. -/
theorem alloc_live (passes : a.audit = .ok stats)
    (answered : (alloc n).outcome a = .ok (some p) b) :
    ∃ es shelves e, b.Sound es shelves (fun _ => False) ∧ Live es e ∧ payloadOf e.block = p := by
  obtain ⟨es, shelves, sound, -⟩ := sound_of_audit passes
  have pos : n ≠ 0 := by
    rintro rfl
    rw [alloc_zero sound] at answered
    cases answered
  obtain ⟨e, same, supplied⟩ := alloc_supplies passes pos answered
  obtain ⟨stats', passes'⟩ := supplied.passes
  obtain ⟨es', shelves', sound', -⟩ := sound_of_audit passes'
  have mem : e ∈ b.taken := supplied.taken.mem_iff.mpr List.mem_cons_self
  exact ⟨es', shelves', e, sound', sound'.mem_taken.mp mem, (Option.some.inj same).symm⟩

/-- **A request for zeros ends as a request for as many bytes, and then sets what was handed out to
zero.** This holds of every heap that passes an audit, and of all factors.

* If no word can hold the product, it is refused, and the heap stays as it is.
* If the other request hands out a payload, so does this one, and all that may be used of it is
  zero.
* In every other case both end alike. -/
theorem calloc_exact (passes : a.audit = .ok stats) (n size : Nat) :
    (wordBound ≤ n * size → (calloc n size).outcome a = .refused .sizeOverflow a) ∧
    (n * size < wordBound →
      match (alloc (n * size)).outcome a with
      | .ok (some p) b => ∃ c, (calloc n size).outcome a = .ok (some p) c ∧ Zeroed b p c
      | .ok none b => (calloc n size).outcome a = .ok none b
      | .refused error b => (calloc n size).outcome a = .refused error b
      | .fault stop => (calloc n size).outcome a = .fault stop) := by
  obtain ⟨es, shelves, sound, -⟩ := sound_of_audit passes
  refine ⟨calloc_overflow sound, fun small => ?_⟩
  rw [calloc_eq sound small]
  cases answered : (alloc (n * size)).outcome a with
  | refused error b => rfl
  | fault stop => rfl
  | ok q b =>
    cases q with
    | none => rfl
    | some p =>
      obtain ⟨es', shelves', e, sound', live, rfl⟩ := alloc_live passes answered
      obtain ⟨c, filled, zeroed⟩ := sound'.zeroed live
      refine ⟨c, ?_, zeroed⟩
      show ((editMemory (zeroFill _)).outcome b).bind _ = _
      rw [filled, Outcome.bind_ok]

set_option maxRecDepth 4000 in
/-- Eight bytes are handed out in a block that has room for forty, the last of which held a footer,
and all of these are set to zero.  A hardened heap stops as it does without zeros, and a product
that is no word is refused. -/
theorem calloc_exact_of_one_block :
    (∃ b c, (alloc (2 * 4)).outcome (spare false) = .ok (some 16) b ∧
      (calloc 2 4).outcome (spare false) = .ok (some 16) c ∧ Zeroed b 16 c) ∧
    (calloc 2 4).outcome (spare true) = .fault (.dirtyBlock 8) ∧
    (calloc 4294967296 4294967296).outcome (spare true) = .refused .sizeOverflow (spare true) := by
  refine ⟨?_, ?_, (calloc_exact (audit_spare true) _ _).1 (by decide)⟩
  · obtain ⟨b, handed⟩ : ∃ b, (alloc (2 * 4)).outcome (spare false) = .ok (some 16) b := ⟨_, rfl⟩
    have zeroed := (calloc_exact (audit_spare false) 2 4).2 (by decide)
    rw [handed] at zeroed
    obtain ⟨c, answered, zeroed⟩ := zeroed
    exact ⟨b, c, handed, answered, zeroed⟩
  · have stops := (calloc_exact (audit_spare true) 2 4).2 (by decide)
    rwa [show (alloc (2 * 4)).outcome (spare true) = .fault (.dirtyBlock 8) from rfl] at stops

end Allocator

end TaggedHeap
