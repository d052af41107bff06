import TaggedHeap.Proofs.Scarcity
import TaggedHeap.Proofs.Turns
import TaggedHeap.Trace.Replay

/-!
# Watched payloads

What a replayer does with one payload: it gets it from the allocator, fills it, looks at it, resizes
it and gives it back.  `Intact a v` says that the payload `v` is live in `a` and holds its byte.
Then whoever looks at it finds nothing wrong (`Intact.verify`), and a turn of somebody else keeps it
so (`Turn.intact`).

* `watch_live` fills a payload that was just handed out.
* `allocate_ends` and `reallocate_ends` are the two ways to get one, and `release_ends` gives one
  back.  Neither of them stops, and a refusal says that there is no size for so many bytes.  Each is
  a turn on the one payload that it is about, and what is watched afterwards is intact.
-/

namespace TaggedHeap

open Memory

/-- A requirement that is met is passed. -/
theorem outcome_require {σ : Type} {condition : Bool} {fault : Fault} (h : condition = true)
    (s : σ) : (liftM (require condition fault) : Action σ Unit).outcome s = .ok () s := by
  rw [require_of h]
  rfl

namespace Allocator

variable {a a' b : Allocator} {es : List Extent} {shelves : Shelves} {e : Extent} {n count : Nat}
  {v : Watched} {fill : UInt8} {fault : Fault} {mine mine' rest : List Nat}

/-! ## Intact payloads -/

/-- A watched payload is live, has room for the bytes that were asked for, and these
hold its byte. -/
def Intact (a : Allocator) (v : Watched) : Prop :=
  ∃ e ∈ a.taken, payloadOf e.block = v.payload ∧ v.size + wordSize ≤ e.size ∧
    ∀ j, j < v.size → a.memory.byte (v.payload + j) = v.fill

/-- **A turn of somebody else leaves a payload intact.** -/
theorem Turn.intact (turn : Turn a a' mine mine') (perm : (mine ++ rest).Perm a.payloads)
    (other : v.payload ∈ rest) (intact : a.Intact v) : a'.Intact v := by
  obtain ⟨e, he, start, room, filled⟩ := intact
  rw [← start] at other filled
  obtain ⟨he', same⟩ := turn.spared rest perm e he other
  refine ⟨e, he', start, room, fun j hj => ?_⟩
  rw [← start, same, filled j hj]
  exact Extent.span_payload (by omega)

/-- A correct heap has figures. -/
theorem Correct.check (correct : a.Correct) : ∃ stats, Allocator.check.outcome a = .ok stats a := by
  obtain ⟨stats, passes⟩ := correct.passes
  refine ⟨stats, ?_⟩
  unfold Allocator.check
  rw [Action.outcome_inspect, passes]
  rfl

/-- A live payload that holds a byte passes for one that does. -/
theorem requireFilled_live (sound : a.Sound es shelves) (live : Live es e)
    (few : count + wordSize ≤ e.size)
    (filled : ∀ j, j < count → a.memory.byte (payloadOf e.block + j) = fill) :
    (requireFilled (payloadOf e.block) fill count fault).outcome a = .ok () a := by
  obtain ⟨-, -, -, -, stop, inside⟩ := sound.bounds live.1
  simp only [wordSize] at few
  have there : payloadOf e.block + count ≤ a.memory.size := by
    simp only [payloadOf, wordSize]
    omega
  have holds : a.memory.holds (payloadOf e.block) fill count = true := by
    rw [holds_iff]
    intro j hj hj'
    have here := filled (j - payloadOf e.block) (by omega)
    rwa [Nat.add_sub_of_le hj] at here
  have enough : decide (count ≤ e.size - wordSize) = true :=
    decide_eq_true (by simp only [wordSize]; omega)
  unfold requireFilled
  rw [Action.outcome_bind, payloadLength_live sound live, Outcome.bind_ok, Action.outcome_inspect,
    require_of enough, rangeHolds_of_le there, holds]
  rfl

/-- **What is intact is found to be so.** -/
theorem Intact.verify (correct : a.Correct) (intact : a.Intact v) :
    v.verify.outcome a = .ok () a := by
  obtain ⟨es, shelves, sound⟩ := correct_iff.mp correct
  obtain ⟨e, he, start, room, filled⟩ := intact
  unfold Watched.verify
  rw [← start] at filled ⊢
  exact requireFilled_live sound (sound.mem_taken.mp he) room filled

/-! ## Filling -/

/-- **A payload with enough room is found good, and filled.** -/
theorem watch_live (sound : a.Sound es shelves) (live : Live es e) (room : n + wordSize ≤ e.size)
    (fill : UInt8) :
    ∃ a', (Watched.watch (payloadOf e.block) n fill).outcome a
        = .ok ⟨payloadOf e.block, n, fill⟩ a' ∧
      Change a a' es (some e) (some e) ∧ a'.Intact ⟨payloadOf e.block, n, fill⟩ := by
  obtain ⟨start, start_mod, large, units, stop, inside⟩ := sound.bounds live.1
  have word := a.high_lt
  simp only [wordSize] at room
  have aligned : (payloadOf e.block % alignment == 0) = true := by
    simp only [payloadOf, wordSize, alignment, beq_iff_eq]
    omega
  have enough : decide (n ≤ e.size - wordSize) = true :=
    decide_eq_true (by simp only [wordSize]; omega)
  have reach : payloadOf e.block + (e.size - wordSize) = e.stop :=
    e.payload_stop (by simp only [wordSize]; omega)
  have sum : addWord (payloadOf e.block) (e.size - wordSize) = .ok e.stop := by
    rw [addWord_of_lt (by rw [reach]; simp only [Extent.stop]; omega), reach]
  have on_heap : decide (e.stop ≤ a.high) = true :=
    decide_eq_true (by simp only [Extent.stop]; omega)
  have bytes : a.memory.inBounds (payloadOf e.block) (e.size - wordSize) = .ok () :=
    inBounds_of_le (by rw [reach]; simp only [Extent.stop]; omega)
  have there : payloadOf e.block + n ≤ a.memory.size := by
    simp only [payloadOf, wordSize]
    omega
  have frame := (eqOff_fill fill there).mono fun j hj => show Span (payloadOf e.block) e.stop j by
    simp only [payloadOf, wordSize, Extent.stop] at hj ⊢
    omega
  have filled : (fillPayload (payloadOf e.block) fill n).outcome a = _ :=
    outcome_editMemory_of_ok (fillRange_of_le there)
  have sound' := sound.write_sound live frame
  refine ⟨a.withArena ⟨a.memory.fill (payloadOf e.block) fill n, a.lists, a.starts⟩, ?_,
    sound.write live frame, e, sound'.mem_taken.mpr live, rfl, by simp only [wordSize]; omega,
    fun j (hj : j < n) => ?_⟩
  · unfold Watched.watch
    simp only [Action.outcome_bind, outcome_require aligned, usable_live sound live,
      outcome_require enough, Action.outcome_inspect, sum, lift_ok, ok_bind, require_of on_heap,
        bytes,
      Outcome.ofExcept_ok, Outcome.bind_ok, filled]
    rfl
  · exact (byte_fill fill there _).trans
      (if_pos ⟨Nat.le_add_right .., Nat.add_lt_add_left hj _⟩)

/-! ## Getting and giving back -/

/-- What may become of a payload that a replayer asks for, when it had those in `mine`: it has
another one or none, which is intact, or there is no size for so many bytes and all is as it was. -/
inductive Settled (a : Allocator) (mine : List Nat) (n : Nat) :
    Outcome Allocator (Option Watched) → Prop
  /-- A payload is watched, or none. -/
  | kept {a' : Allocator} {live : Option Watched} (few : n ≤ largestRequest)
      (turn : Turn a a' mine (live.toList.map (·.payload))) (intact : ∀ v ∈ live, a'.Intact v) :
      Settled a mine n (.ok live a')
  /-- There is no size. -/
  | refused (large : largestRequest < n) : Settled a mine n (.refused .sizeOverflow a)

/-- A payload that was handed out and filled is watched. -/
theorem Handed.settled {gone : Option Extent} (sound : a.Sound es shelves)
    (live : ∀ e ∈ gone, Live es e) (few : n ≤ largestRequest) (handed : Handed a a' es gone e n)
    (fill : UInt8) :
    ∃ b, (Watched.watch (payloadOf e.block) n fill).outcome a'
        = .ok ⟨payloadOf e.block, n, fill⟩ b ∧
      Settled a (payloadsOf gone) n (.ok (some ⟨payloadOf e.block, n, fill⟩) b) := by
  obtain ⟨es', shelves', sound', live'⟩ := handed.sound
  obtain ⟨b, watched, change, intact⟩ :=
    watch_live sound' ((live' e).mpr (.inl rfl)) handed.snug.room fill
  refine ⟨b, watched, .kept few ((handed.toChange.trans live' change).turn sound live) ?_⟩
  rintro _ ⟨⟩
  exact intact

/-- **A replayer that asks for a payload gets one, or none.** -/
theorem allocate_ends (correct : a.Correct) (chunk : a.config.chunk ≤ largestChunk) (n : Nat)
    (fill : UInt8) : Settled a [] n ((Replayer.allocate n fill).outcome a) := by
  obtain ⟨es, shelves, sound⟩ := correct_iff.mp correct
  have nothing : n ≤ largestRequest → Settled a [] n (.ok none a) := fun few =>
    .kept few (.refl correct []) fun v hv => absurd hv (Option.not_mem_none v)
  unfold Replayer.allocate
  rw [Action.outcome_bind, Action.outcome_attempt]
  by_cases zero : n = 0
  · subst zero
    rw [alloc_zero sound]
    exact nothing (Nat.zero_le _)
  · rcases alloc_ends sound chunk zero with ⟨large, refused⟩ | ⟨few, k, refused⟩ |
      ⟨few, e, a', answered, handed⟩
    · rw [refused]
      exact .refused large
    · rw [refused]
      exact nothing few
    · obtain ⟨b, watched, settled⟩ :=
        handed.settled sound (fun x hx => absurd hx (Option.not_mem_none x)) few fill
      rw [answered]
      dsimp only [Outcome.bind_ok]
      rw [Action.outcome_bind, watched]
      exact settled

/-- **A replayer that resizes a payload still has it, or another one, or none.** -/
theorem reallocate_ends (correct : a.Correct) (chunk : a.config.chunk ≤ largestChunk)
    (intact : a.Intact v) (n : Nat) :
    Settled a [v.payload] n ((Replayer.reallocate v n).outcome a) := by
  obtain ⟨es, shelves, sound⟩ := correct_iff.mp correct
  have verified := intact.verify correct
  obtain ⟨e, he, start, room, filled⟩ := id intact
  have live := sound.mem_taken.mp he
  have gone : ∀ x ∈ some e, Live es x := by
    rintro _ ⟨⟩
    exact live
  unfold Replayer.reallocate
  rw [Action.outcome_bind, verified, Outcome.bind_ok, Action.outcome_bind, Action.outcome_attempt,
    ← start]
  by_cases zero : n = 0
  · subst zero
    obtain ⟨a', dropped, change⟩ := realloc_zero_live sound live
    rw [dropped]
    exact .kept (Nat.zero_le _) (change.turn sound gone) fun v hv =>
      absurd hv (Option.not_mem_none v)
  · rcases realloc_ends sound chunk live zero with ⟨large, refused⟩ | ⟨few, k, refused⟩ |
      ⟨few, e', a', answered, carried⟩
    · rw [refused]
      exact .refused large
    · rw [refused]
      dsimp only [Outcome.bind_ok]
      rw [Action.outcome_bind, verified]
      refine .kept few (start ▸ .refl correct [v.payload]) ?_
      rintro _ ⟨⟩
      exact intact
    · obtain ⟨es', shelves', sound', live'⟩ := carried.sound
      obtain ⟨b, watched, settled⟩ := carried.toHanded.settled sound gone few v.fill
      have new_room := carried.snug.room
      have held : (requireFilled (payloadOf e'.block) v.fill (min v.size n)
          (.contentsLost (payloadOf e.block))).outcome a' = .ok () a' := by
        refine requireFilled_live sound' ((live' e').mpr (.inl rfl)) ?_ fun j hj => ?_
        · simp only [wordSize] at new_room ⊢
          omega
        · simp only [wordSize] at room
          rw [carried.held j (by simp only [wordSize]; omega) (by omega), start]
          exact filled j (by omega)
      rw [answered]
      dsimp only [Outcome.bind_ok]
      rw [Action.outcome_bind, held, Outcome.bind_ok, Action.outcome_bind, watched]
      exact settled

/-- **A replayer that gives a payload back finds it intact and is rid of it.** -/
theorem release_ends (correct : a.Correct) (intact : a.Intact v) :
    ∃ a', v.verify.outcome a = .ok () a ∧ (free (some v.payload)).outcome a = .ok () a' ∧
      Turn a a' [v.payload] [] := by
  obtain ⟨es, shelves, sound⟩ := correct_iff.mp correct
  have verified := intact.verify correct
  obtain ⟨e, he, start, -, -⟩ := intact
  have live := sound.mem_taken.mp he
  obtain ⟨a', freed, change⟩ := free_live sound live
  rw [← start]
  refine ⟨a', verified, freed, change.turn sound ?_⟩
  rintro _ ⟨⟩
  exact live

end Allocator

end TaggedHeap
