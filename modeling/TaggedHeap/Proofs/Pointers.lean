import TaggedHeap.Proofs.Placement

/-!
# Pointers of a sound allocator

A pointer is accepted if it is the payload of a live block, and refused otherwise, whatever the
bytes around it are: a forged header gets past the tests of its bits, but the start set does not
know its block.

* `validate_live` and `validate_dead` are the two halves of this, and `locate_live` and
  `locate_of_refused` what the requests make of them.  `validate_cases` needs no sound heap.
* `usable_live` and `payloadLength_live` say how much of a live payload may be used.
* `Sound.write` is about a write into a live payload: it changes what that payload holds and nothing
  else.  In an outline it does not show at all (`Shows.write`).
-/

namespace TaggedHeap

open Memory

/-- The reasons why a pointer is refused. -/
def Denied (p : Nat) (error : Refusal) : Prop := error = .invalidPointer p ∨ error = .doubleFree p

namespace Allocator

variable {a : Allocator} {es : List Extent} {shelves : Shelves} {e x : Extent} {p : Nat}
  {filled : Extent → Prop}

/-! ## Validation -/

/-- Where a header says a size that a block there can have, a pointer to what is behind it stands or
falls with what the header says of its block, and with the start set. -/
theorem validate_of_head {h : Header} {block : Nat} (first : firstBlock ≤ block)
    (aligned : block % alignment = firstBlock) (head : a.memory.word block = h.encode)
    (units : h.size % alignment = 0) (room : minBlockSize ≤ h.size)
    (stop : block + h.size + wordSize ≤ a.high) (inside : a.high ≤ a.memory.size) :
    a.validate (payloadOf block) =
      if !h.allocated then .error (.refused (.doubleFree (payloadOf block)))
      else if !a.starts.contains block then .error (.refused (.invalidPointer (payloadOf block)))
      else if a.hardened then do
        let next ← a.memory.header (block + h.size)
        require next.prevAllocated .violated
        return block
      else .ok block := by
  simp only [firstBlock, alignment, minBlockSize, wordSize] at first aligned room stop
  have epilogue : subWord a.high wordSize = .ok (a.high - wordSize) :=
    subWord_of_le (by simp only [wordSize]; omega)
  have start : ¬ (payloadOf block % alignment ≠ 0 ∨ payloadOf block < payloadOf firstBlock) := by
    simp only [payloadOf, wordSize, alignment, firstBlock]
    omega
  have same : payloadOf block - wordSize = block := Nat.add_sub_cancel ..
  have before : ¬ a.high - wordSize ≤ block := by
    simp only [wordSize]
    omega
  have read : a.memory.readWord block = .ok h.encode :=
    (readWord_of_le (by simp only [wordSize]; omega)).trans (congrArg _ head)
  have clear : ¬ Header.reserved h.encode = true := by
    rw [Header.reserved_encode units]
    exact Bool.false_ne_true
  have fits : ¬ (h.size < minBlockSize ∨ a.high - wordSize - block < h.size) := by
    simp only [minBlockSize, wordSize]
    omega
  unfold validate
  simp only [epilogue, lift_ok, ok_bind, if_neg start, same, if_neg before, read, if_neg clear,
    Header.decode_encode units, if_neg fits]
  rfl

/-- **The payload of a live block is taken for what it is.** -/
theorem validate_live (sound : a.Sound es shelves filled) (live : Live es e) :
    a.validate (payloadOf e.block) = .ok e.block := by
  obtain ⟨pre, post, rfl⟩ := List.append_of_mem live.1
  obtain ⟨around, regular, tagged⟩ := sound.arena.toTiled.open_taken live.2
  obtain ⟨start, start_mod, -, -, stop, inside⟩ := around.gap
  have taken : (e.header (lastAllocated true pre)).allocated = true := live.2
  have known : a.starts.contains e.block = true :=
    (sound.arena.marks e.block start_mod).mpr ⟨e, live, rfl⟩
  rw [validate_of_head start start_mod tagged.head regular.units regular.room stop inside, taken,
    known]
  simp only [Bool.not_true, Bool.false_eq_true, if_false]
  split
  · have behind : a.memory.header (e.block + (e.header (lastAllocated true pre)).size) = _ :=
      around.header_behind
    rw [behind]
    rfl
  · rfl

/-- **A pointer is refused, or there is a header before it whose block the start set knows and which
ends before the epilogue does,** whatever the bytes of the heap are.  Without self-checks nothing
else is asked for. -/
theorem validate_cases (room : wordSize ≤ a.high) (inside : a.high ≤ a.memory.size) (p : Nat) :
    (∃ error, Denied p error ∧ a.validate p = .error (.refused error)) ∨
    ∃ h, a.memory.header (p - wordSize) = .ok h ∧ p % alignment = 0 ∧ payloadOf firstBlock ≤ p ∧
      minBlockSize ≤ h.size ∧ h.size % alignment = 0 ∧ p + h.size ≤ a.high ∧
      a.starts.contains (p - wordSize) = true ∧
      (a.hardened = false → a.validate p = .ok (p - wordSize)) := by
  have epilogue : subWord a.high wordSize = .ok (a.high - wordSize) := subWord_of_le room
  unfold validate
  simp only [epilogue, lift_ok, ok_bind]
  split
  · exact .inl ⟨_, .inl rfl, rfl⟩
  next aligned =>
  split
  · exact .inl ⟨_, .inl rfl, rfl⟩
  next before =>
  obtain ⟨units, large⟩ : p % 16 = 0 ∧ 16 ≤ p := by simpa using aligned
  simp only [wordSize] at before
  have there : p - wordSize + wordSize ≤ a.memory.size := by
    simp only [wordSize]
    omega
  simp only [readWord_of_le there, lift_ok, ok_bind]
  split
  · exact .inl ⟨_, .inl rfl, rfl⟩
  split
  · exact .inl ⟨_, .inl rfl, rfl⟩
  next fits =>
  split
  · exact .inl ⟨_, .inr rfl, rfl⟩
  split
  · exact .inl ⟨_, .inl rfl, rfl⟩
  next known =>
  rw [not_or, Nat.not_lt, Nat.not_lt] at fits
  refine .inr ⟨_, header_of_le there, units, large, fits.1, Header.size_decode_mod _, ?_,
    by simpa using known, fun plain => ?_⟩
  · have reach := fits.2
    simp only [wordSize] at reach ⊢
    omega
  · rw [if_neg (by rw [plain]; exact Bool.false_ne_true)]
    rfl

/-- **A pointer to no live payload is refused.** -/
theorem validate_dead (sound : a.Sound es shelves filled)
    (dead : ∀ e, Live es e → payloadOf e.block ≠ p) :
    ∃ error, Denied p error ∧ a.validate p = .error (.refused error) := by
  have start : 8 ≤ a.high - 8 := sound.arena.tiles.le
  have room : wordSize ≤ a.high := by
    simp only [wordSize]
    omega
  rcases validate_cases room sound.arena.inside p with denied |
    ⟨h, -, units, large, -, -, -, known, -⟩
  · exact denied
  -- whatever the header says, the start set has the last word
  · simp only [alignment, payloadOf, firstBlock, wordSize] at units large
    have start_mod : (p - wordSize) % alignment = firstBlock := by
      simp only [wordSize, alignment, firstBlock]
      omega
    obtain ⟨e, live, start⟩ := (sound.arena.marks _ start_mod).mp known
    refine absurd ?_ (dead e live)
    rw [start]
    simp only [payloadOf, wordSize]
    omega

/-- The block of a live payload is found. -/
theorem locate_live (sound : a.Sound es shelves filled) (live : Live es e) :
    (locate (payloadOf e.block)).outcome a = .ok e.block a := by
  unfold locate
  rw [Action.outcome_bind, Action.outcome_attempt, Action.outcome_inspect,
    validate_live sound live]
  rfl

/-- A pointer that does not pass is refused, and the allocator is as it was. -/
theorem locate_of_refused {error : Refusal} (refused : a.validate p = .error (.refused error)) :
    (locate p).outcome a = .refused error a := by
  unfold locate
  rw [Action.outcome_bind, Action.outcome_attempt, Action.outcome_inspect, refused]
  rfl

section Locate

variable {o : Outline} {pre post : List Extent}

/-- The block of a live payload is found in the outline, too. -/
theorem Shows.locate_live (shows : a.Shows o filled) (split : o.extents = pre ++ e :: post)
    (taken : e.allocated = true) : o.locate (payloadOf e.block) = .ok ⟨pre, e, post⟩ := by
  have block : payloadOf e.block - wordSize = e.block := Nat.add_sub_cancel ..
  unfold Outline.locate
  rw [block, shows.spotAt split]
  exact if_pos ⟨taken, rfl⟩

end Locate

/-! ## The length of a payload -/

/-- All bytes of a live block but the header may be used. -/
theorem usable_live (sound : a.Sound es shelves filled) (live : Live es e) :
    (usable (payloadOf e.block)).outcome a = .ok (e.size - wordSize) a := by
  obtain ⟨-, -, room, -⟩ := sound.bounds live.1
  obtain ⟨prev, header⟩ := sound.header live.1
  have length : subWord e.size wordSize = .ok (e.size - wordSize) :=
    subWord_of_le (by simp only [wordSize]; omega)
  unfold usable
  simp only [Action.outcome_bind, sound.requireReady, locate_live sound live, Outcome.bind_ok,
    Action.outcome_inspect, header, lift_ok, ok_bind]
  show Outcome.ofExcept a (liftM (subWord e.size wordSize)) = _
  rw [length]
  rfl

/-- A pointer that does not pass has no length. -/
theorem usable_of_refused {error : Refusal} (ready : a.ready = true)
    (refused : a.validate p = .error (.refused error)) :
    (usable p).outcome a = .refused error a := by
  unfold usable
  rw [Action.outcome_bind, requireReady_of_ready ready, Outcome.bind_ok, Action.outcome_bind,
    locate_of_refused refused, Outcome.bind_refused]

/-- A pointer to no live payload has no length. -/
theorem usable_dead (sound : a.Sound es shelves filled)
    (dead : ∀ e, Live es e → payloadOf e.block ≠ p) :
    ∃ error, Denied p error ∧ (usable p).outcome a = .refused error a := by
  obtain ⟨error, denied, refused⟩ := validate_dead sound dead
  exact ⟨error, denied, usable_of_refused sound.ready refused⟩

/-- All bytes of a live payload are there. -/
theorem payloadLength_live (sound : a.Sound es shelves filled) (live : Live es e) :
    (payloadLength (payloadOf e.block)).outcome a = .ok (e.size - wordSize) a := by
  obtain ⟨-, -, room, -, stop, inside⟩ := sound.bounds live.1
  have bytes : a.memory.inBounds (payloadOf e.block) (e.size - wordSize) = .ok () :=
    inBounds_of_le (by simp only [payloadOf, wordSize]; omega)
  unfold payloadLength
  simp only [Action.outcome_bind, usable_live sound live, Outcome.bind_ok, Action.outcome_inspect,
    bytes]
  rfl

/-- A pointer without a length has no bytes. -/
theorem payloadLength_of_refused {error : Refusal}
    (refused : (usable p).outcome a = .refused error a) :
    (payloadLength p).outcome a = .refused error a := by
  unfold payloadLength
  rw [Action.outcome_bind, refused, Outcome.bind_refused]

/-- A pointer to no live payload has no bytes. -/
theorem payloadLength_dead (sound : a.Sound es shelves filled)
    (dead : ∀ e, Live es e → payloadOf e.block ≠ p) :
    ∃ error, Denied p error ∧ (payloadLength p).outcome a = .refused error a := by
  obtain ⟨error, denied, refused⟩ := usable_dead sound dead
  exact ⟨error, denied, payloadLength_of_refused refused⟩

/-! ## Writing -/

/-- A step on the memory that goes through replaces it. -/
theorem outcome_editMemory_of_ok {step : Memory → Except Fault Memory} {m' : Memory}
    (h : step a.memory = .ok m') :
    (editMemory step).outcome a = .ok () (a.withArena ⟨m', a.lists, a.starts⟩) := by
  unfold editMemory
  apply outcome_editArena_of_ok
  show (step a.memory >>= _) = _
  rw [h]
  rfl

/-- Bytes of a payload are copied to the start of another one, if both have that many. -/
theorem copyRange_live {t : Extent} {count : Nat} (sound : a.Sound es shelves filled)
    (source : Live es e) (target : Live es t) (few : count ≤ e.size - wordSize)
    (room : count ≤ t.size - wordSize) :
    ∃ m', a.memory.copyRange (payloadOf e.block) (payloadOf t.block) count = .ok m' ∧
      a.memory.EqOff m' (Span (payloadOf t.block) t.stop) ∧
      ∀ j, j < count → m'.byte (payloadOf t.block + j) = a.memory.byte (payloadOf e.block + j) := by
  obtain ⟨-, -, source_large, -, source_stop, inside⟩ := sound.bounds source.1
  obtain ⟨-, -, target_large, -, target_stop, -⟩ := sound.bounds target.1
  simp only [wordSize] at few room
  have from_inside : payloadOf e.block + count ≤ a.memory.size := by
    simp only [payloadOf, wordSize]
    omega
  have to_inside : payloadOf t.block + count ≤ a.memory.size := by
    simp only [payloadOf, wordSize]
    omega
  have length : (a.memory.slice (payloadOf e.block) count).size = count := size_slice from_inside
  have fits := to_inside
  rw [← length] at fits
  refine ⟨_, copyRange_of_le from_inside to_inside, (eqOff_paste fits).mono ?_,
    ?_⟩
  · intro j hj
    rw [length] at hj
    simp only [payloadOf, wordSize, Extent.stop] at hj ⊢
    omega
  · intro j hj
    rw [byte_paste fits, length, if_pos ⟨Nat.le_add_right .., Nat.add_lt_add_left hj _⟩,
      Nat.add_sub_cancel_left, byte_slice from_inside hj]

/-- What is written into a live payload leaves an allocator sound. -/
theorem Sound.write_sound {m' : Memory} (sound : a.Sound es shelves filled) (live : Live es e)
    (frame : a.memory.EqOff m' (Span (payloadOf e.block) e.stop)) :
    (a.withArena ⟨m', a.lists, a.starts⟩).Sound es shelves filled := by
  have tiled : Tiled filled m' a.lists a.high es shelves := by
    obtain ⟨pre, post, rfl⟩ := List.append_of_mem live.1
    exact sound.arena.toTiled.write_payload live.2 frame
  exact sound_withArena sound.ready sound.size frame.size ⟨tiled, sound.arena.marks⟩

/-- What is written into a live payload does not show. -/
theorem Shows.write {o : Outline} {m' : Memory} (shows : a.Shows o filled) (live : Live o.extents e)
    (frame : a.memory.EqOff m' (Span (payloadOf e.block) e.stop)) :
    (a.withArena ⟨m', a.lists, a.starts⟩).Shows o filled :=
  ⟨shows.sound.write_sound live frame, (terms_withArena frame.size).trans shows.terms, shows.starts⟩

/-- **What is written into one live payload changes nothing else.** -/
theorem Sound.write {m' : Memory} (sound : a.Sound es shelves filled) (live : Live es e)
    (frame : a.memory.EqOff m' (Span (payloadOf e.block) e.stop)) :
    Change a (a.withArena ⟨m', a.lists, a.starts⟩) es (some e) (some e) filled := by
  refine { sound := ⟨es, shelves, sound.write_sound live frame, ?_⟩, fresh := ?_, config := rfl,
           kept := ?_ }
  · intro x
    simp only [Option.mem_def, Option.some.injEq]
    by_cases he : e = x
    · simpa [← he] using live
    · simp [he]
  · rintro _ ⟨⟩ x hx hne same
    exact hne (congrArg some (sound.arena.tiles.block_inj hx.1 live.1 same).symm)
  · intro x hx hne j hj
    have room := (sound.bounds live.1).2.2.1
    apply frame.byte j
    intro hspan
    rcases sound.apart live.1 hx.1 with rfl | before | after
    · exact hne rfl
    · simp only [payloadOf, wordSize, Extent.stop] at hj hspan
      omega
    · simp only [payloadOf, wordSize, Extent.stop] at hj hspan
      omega

end Allocator

end TaggedHeap
