import TaggedHeap.Proofs.Atomicity
import TaggedHeap.Proofs.Coalescing
import TaggedHeap.Proofs.Relics

/-!
# Payloads that are taken back twice

A pointer to a payload that was taken back stays around, and a caller may hand it in again at any
time.  The block may not be there any more by then, for it may have been merged with any of its
neighbours.

* `Quiet` is a step on a heap that hands nothing out.
* `Returned` says that the payload of a block was taken back, and `Returned.quiet` that this stays
  so.
* `Returned.denied` says that a pointer to it is refused by every request that takes one.
* `double_free_recognised` puts these together.
-/

namespace TaggedHeap

open Memory

namespace Allocator

variable {a b c : Allocator} {es : List Extent} {shelves : Shelves} {e : Extent} {block p : Nat}
  {filled : Extent → Prop}

/-! ## Steps that hand nothing out -/

/-- What may happen to a heap while nothing is handed out. -/
inductive Quiet (a b : Allocator) : Prop
  /-- A payload, or none, is taken back. -/
  | freed {q : Option Nat} (answered : (free q).outcome a = .ok () b) : Quiet a b
  /-- A caller writes into a payload. -/
  | written {q start : Nat} {bytes : ByteArray} {answer : Answer}
      (answered : (Command.writePayload start bytes q).outcome a = .ok answer b) : Quiet a b
  /-- A request is refused, other than for an empty heap. -/
  | refused {r : Request} {error : Refusal} (later : r ≠ .init)
      (answered : r.perform.outcome a = .refused error b) : Quiet a b
  /-- A caller is not told a length. -/
  | untold {q : Nat} {error : Refusal} (answered : (usable q).outcome a = .refused error b) :
      Quiet a b
  /-- A caller is not shown a payload. -/
  | unseen {q : Nat} {error : Refusal} (answered : (payloadLength q).outcome a = .refused error b) :
      Quiet a b

/-! ## Blocks that were taken back -/

/-- On a sound heap with or without self-checks, a block is not live, and if there are none, a
header is left of it. -/
def Returned (hardened : Bool) (a : Allocator) (block : Nat) : Prop :=
  ∃ es shelves, a.Sound es shelves (fun _ => False) ∧ a.hardened = hardened ∧
    (∀ e, Live es e → e.block ≠ block) ∧ (hardened = false → Stale a.memory es block)

/-- A live payload is taken back, and if the heap makes no self-checks, relics stay, and there is
one more. -/
theorem free_leaves (fills : ∀ x, filled x → a.hardened = true) (sound : a.Sound es shelves filled)
    (live : Live es e) :
    ∃ b es' shelves', (free (some (payloadOf e.block))).outcome a = .ok () b ∧
      b.Sound es' shelves' filled ∧ b.hardened = a.hardened ∧
      (∀ x, Live es' x ↔ Live es x ∧ x ≠ e) ∧
      (a.hardened = false → Stale b.memory es' e.block ∧
        ∀ c, Stale a.memory es c → Stale b.memory es' c) := by
  cases plain : a.hardened with
  | false =>
    obtain ⟨b, es', shelves', freed, sound', config, live', new, old⟩ :=
      free_stale fills plain sound live
    exact ⟨b, es', shelves', freed, sound', (congrArg Config.hardened config).trans plain, live',
      fun _ => ⟨new, old⟩⟩
  | true =>
    obtain ⟨b, es', shelves', freed, sound', config, -, live'⟩ := free_takes fills sound live
    exact ⟨b, es', shelves', freed, sound', (congrArg Config.hardened config).trans plain, live',
      nofun⟩

/-- A payload that is taken back was. -/
theorem returned_of_free (sound : a.Sound es shelves fun _ => False) (live : Live es e) :
    ∃ b, (free (some (payloadOf e.block))).outcome a = .ok () b ∧
      Returned a.hardened b e.block := by
  obtain ⟨b, es', shelves', freed, sound', hardened, live', stale⟩ :=
    free_leaves (fun _ h => h.elim) sound live
  refine ⟨b, freed, es', shelves', sound', hardened, fun x hx same => ?_,
    fun plain => (stale plain).1⟩
  obtain ⟨live_x, other⟩ := (live' x).mp hx
  exact other (sound.arena.tiles.block_inj live_x.1 live.1 same)

namespace Returned

variable {hardened : Bool} {q : Nat}

/-- It still was when another one is. -/
theorem free {q : Option Nat} (returned : Returned hardened a block)
    (answered : (free q).outcome a = .ok () b) : Returned hardened b block := by
  cases q with
  | none =>
    cases answered
    exact returned
  | some q =>
    obtain ⟨es, shelves, sound, rfl, dead, stale⟩ := returned
    rcases live_or_dead es q with ⟨e, live, rfl⟩ | nowhere
    · obtain ⟨b', es', shelves', freed, sound', hardened, live', stale'⟩ :=
        free_leaves (fun _ h => h.elim) sound live
      rw [answered] at freed
      cases freed
      exact ⟨es', shelves', sound', hardened, fun x hx => dead x ((live' x).mp hx).1,
        fun plain => (stale' plain).2 _ (stale plain)⟩
    · obtain ⟨error, -, refused⟩ := free_dead sound nowhere
      rw [answered] at refused
      cases refused

/-- It still was when a caller writes into a payload. -/
theorem write {start : Nat} {bytes : ByteArray} {answer : Answer}
    (returned : Returned hardened a block)
    (answered : (Command.writePayload start bytes q).outcome a = .ok answer b) :
    Returned hardened b block := by
  have unchanged := returned
  obtain ⟨es, shelves, sound, setting, dead, stale⟩ := returned
  rcases live_or_dead es q with ⟨e, live, rfl⟩ | nowhere
  · obtain ⟨outside, written⟩ := writePayload_live sound live start bytes
    by_cases long : e.size - wordSize < start + bytes.size
    · rw [outside long] at answered
      cases answered
      exact unchanged
    · obtain ⟨ended, frame⟩ := written (Nat.not_lt.mp long)
      rw [ended] at answered
      cases answered
      exact ⟨es, shelves, sound.write_sound live frame, setting, dead,
        fun plain => sound.write_stale live frame (stale plain)⟩
  · obtain ⟨error, -, refused⟩ := payloadLength_dead sound nowhere
    unfold Command.writePayload at answered
    rw [Action.outcome_bind, refused] at answered
    cases answered

/-- **What was taken back stays so while nothing is handed out.** -/
theorem quiet (returned : Returned hardened a block) (step : Quiet a b) :
    Returned hardened b block := by
  cases step with
  | freed answered => exact returned.free answered
  | written answered => exact returned.write answered
  | refused later answered =>
    obtain rfl := atomic_perform later _ _ _ answered
    exact returned
  | untold answered =>
    obtain rfl := atomic_usable _ _ _ _ answered
    exact returned
  | unseen answered =>
    obtain rfl := atomic_payloadLength _ _ _ _ answered
    exact returned

/-- It stays so after any number of such steps. -/
theorem run (returned : Returned hardened a block) (steps : Relation.ReflTransGen Quiet a b) :
    Returned hardened b block := by
  induction steps with
  | refl => exact returned
  | tail _ step ih => exact ih.quiet step

/-- A pointer to it is no payload's, and where the header is left, it is told from other such
pointers. -/
theorem validate (returned : Returned hardened a block) :
    ∃ error, Denied (payloadOf block) error ∧
      (hardened = false → error = .doubleFree (payloadOf block)) ∧
      a.validate (payloadOf block) = .error (.refused error) := by
  obtain ⟨es, shelves, sound, -, dead, stale⟩ := returned
  cases hardened with
  | false => exact ⟨_, .inr rfl, fun _ => rfl, sound.validate_stale (stale rfl)⟩
  | true =>
    have nowhere : ∀ e, Live es e → payloadOf e.block ≠ payloadOf block :=
      fun e live same => dead e live (Nat.add_right_cancel same)
    obtain ⟨error, denied, refused⟩ := validate_dead sound nowhere
    exact ⟨error, denied, nofun, refused⟩

/-- An allocator that something was given back to was initialised. -/
theorem ready (returned : Returned hardened a block) : a.ready = true := by
  obtain ⟨es, shelves, sound, -⟩ := returned
  exact sound.ready

end Returned

/-- **A payload that was taken back is not taken for a live one** by any request that is given it,
whatever else is taken back in the meantime, and whichever blocks its own is merged with.  If the
heap makes no self-checks, every request tells that it was taken back before. -/
theorem double_free_recognised {stats : Stats} (passes : a.audit = .ok stats)
    (live : p ∈ a.payloads) : ∃ b, (free (some p)).outcome a = .ok () b ∧
    ∀ c, Relation.ReflTransGen Quiet b c →
      ∃ error, Denied p error ∧ (a.hardened = false → error = .doubleFree p) ∧
        (free (some p)).outcome c = .refused error c ∧
        (usable p).outcome c = .refused error c ∧
        (payloadLength p).outcome c = .refused error c ∧
        ∀ n, (realloc (some p) n).outcome c = .refused error c := by
  obtain ⟨es, shelves, sound, -⟩ := sound_of_audit passes
  obtain ⟨e, live_e, rfl⟩ := sound.mem_payloads.mp live
  obtain ⟨b, freed, returned⟩ := returned_of_free sound live_e
  refine ⟨b, freed, fun c steps => ?_⟩
  have returned := returned.run steps
  obtain ⟨error, denied, told, refused⟩ := returned.validate
  have untold := usable_of_refused returned.ready refused
  exact ⟨error, denied, told, free_of_refused returned.ready refused, untold,
    payloadLength_of_refused untold, realloc_of_refused returned.ready refused⟩

set_option maxRecDepth 2000 in
/-- The second one of two payloads is taken back, and then the first one, so that the header between
them is inside of a free block.  Another pointer is refused, and so is the one that
was taken back. -/
theorem double_free_recognised_of_merged :
    ∃ a b c, Reaches (.create (.buffer 80) { chunk := 0 })
        [(.alloc 1, .ok (.payload (some 16))), (.alloc 1, .ok (.payload (some 48)))] a ∧
      (free (some 48)).outcome a = .ok () b ∧ Relation.ReflTransGen Quiet b c ∧
      (free (some 48)).outcome c = .refused (.doubleFree 48) c ∧
      (realloc (some 48) 0).outcome c = .refused (.doubleFree 48) c := by
  obtain ⟨a, b, c, run, freed, steps⟩ : ∃ a b c, Reaches (.create (.buffer 80) { chunk := 0 })
      [(.alloc 1, .ok (.payload (some 16))), (.alloc 1, .ok (.payload (some 48)))] a ∧
      (free (some 48)).outcome a = .ok () b ∧ Relation.ReflTransGen Quiet b c := by
    have started : Reaches (.create (.buffer 80) { chunk := 0 }) [] _ := .start rfl
    have once : Reaches _ [(.alloc 1, .ok (.payload (some 16)))] _ := started.next rfl
    have merges {a b : Allocator} : (free (some 16)).outcome a = .ok () b → Quiet a b := .freed
    have odd {a b : Allocator} :
        (usable 17).outcome a = .refused (.invalidPointer 17) b → Quiet a b := .untold
    exact ⟨_, _, _, once.next rfl, rfl, (Relation.ReflTransGen.single (merges rfl)).tail (odd rfl)⟩
  have truthful : (Source.buffer 80).Truthful :=
    Source.truthful_make (rfl : Source.make .buffer 80 = .ok (.buffer 80))
  obtain ⟨es, shelves, sound, names⟩ := run.tracked truthful
  have live := sound.mem_payloads.mpr (names.live 48 1 rfl)
  obtain ⟨b', freed', all⟩ := double_free_recognised sound.audit live
  rw [freed] at freed'
  cases freed'
  obtain ⟨error, -, told, denied, -, -, denied'⟩ := all c steps
  obtain rfl := told (congrArg Config.hardened (run.config truthful))
  exact ⟨a, b, c, run, freed, steps, denied, denied' 0⟩

end Allocator

end TaggedHeap
