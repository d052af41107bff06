import Mathlib.Algebra.GroupWithZero.Nat
import Mathlib.Logic.Relation
import TaggedHeap.Proofs.Replays

/-!
# Replays on a shared heap

Any number of replayers and other clients use one heap, one operation at a time and in any order.

* `Shared` is a heap with its clients, and `Shared.Step` what one of them does.  Replayers may join
  at any time.  The other clients are taken together: each of them operates on payloads that are
  among `others`, and nothing that they do to those is ruled out.
* `Shared.InOrder` is the invariant.  Every live payload belongs to one client, and the replayers
  are right about theirs.  `InOrder.step` is its step, by cases of who acts, and `InOrder.steps` the
  run.
* `replays_succeed` reads off what a replayer can see at any moment of any run.  It goes on to
  replays that have a heap to themselves, and set it up first.

A hardened heap has to be correct for that, and it is not enough that it passes an audit
(`replay_on_spoiled_heap_stops`).
-/

namespace TaggedHeap

open Allocator

/-- A heap that several clients share. -/
structure Shared where
  /-- The heap. -/
  heap : Allocator
  /-- The clients that replay traces. -/
  replayers : List Replayer
  /-- The payloads of the other clients. -/
  others : List Nat

namespace Shared

variable {w w' : Shared} {heap heap' : Allocator} {replayers before after : List Replayer}
  {r r' : Replayer} {others rest : List Nat}

/-! ## Steps -/

/-- What one client does, and nobody else at the same time. -/
inductive Step : Shared → Shared → Prop
  /-- A new replayer joins. -/
  | joins {heap : Allocator} {replayers : List Replayer} {others : List Nat} :
      Step ⟨heap, replayers, others⟩ ⟨heap, .new :: replayers, others⟩
  /-- A replayer performs an operation. -/
  | performs {heap heap' : Allocator} {before after : List Replayer} {r r' : Replayer}
      {others : List Nat} {operation : Operation}
      (ended : (Replayer.step operation).outcome (r, heap) = .ok () (r', heap')) :
      Step ⟨heap, before ++ r :: after, others⟩ ⟨heap', before ++ r' :: after, others⟩
  /-- A replayer is refused an operation, and goes on. -/
  | refused {heap heap' : Allocator} {before after : List Replayer} {r r' : Replayer}
      {others : List Nat} {operation : Operation} {error : Refusal}
      (ended : (Replayer.step operation).outcome (r, heap) = .refused error (r', heap')) :
      Step ⟨heap, before ++ r :: after, others⟩ ⟨heap', before ++ r' :: after, others⟩
  /-- Another client asks for something, but not for an empty heap, and names only what is its
  own. -/
  | serves {heap heap' : Allocator} {replayers : List Replayer} {others : List Nat}
      {request : Request} {answer : Except Refusal Answer} (later : request ≠ .init)
      (own : ∀ p ∈ request.pointer, p ∈ others)
      (served : request.serve.outcome heap = .ok answer heap') :
      Step ⟨heap, replayers, others⟩ ⟨heap', replayers, request.settle answer others⟩

/-- Any number of steps. -/
abbrev Steps : Shared → Shared → Prop := Relation.ReflTransGen Step

/-- A correct heap with new replayers, on which all that is live belongs to other clients. -/
structure Opens (w : Shared) : Prop where
  /-- The heap is correct. -/
  correct : w.heap.Correct
  /-- It can be told to grow by so many bytes. -/
  chunk : w.heap.config.chunk ≤ largestChunk
  /-- The replayers have performed nothing yet. -/
  fresh : ∀ r ∈ w.replayers, r = .new
  /-- The other clients have all that is live. -/
  owned : w.others.Perm w.heap.payloads

/-! ## The invariant -/

/-- All payloads that belong to somebody. -/
def owned (w : Shared) : List Nat := w.replayers.flatMap Replayer.payloads ++ w.others

/-- Every live payload belongs to one client, and what replayers watch is intact. -/
structure InOrder (w : Shared) : Prop where
  /-- The heap is correct. -/
  correct : w.heap.Correct
  /-- It can be told to grow by so many bytes. -/
  chunk : w.heap.config.chunk ≤ largestChunk
  /-- What belongs to somebody is what is live. -/
  owned : w.owned.Perm w.heap.payloads
  /-- What replayers watch is intact. -/
  intact : ∀ r ∈ w.replayers, ∀ v ∈ r.watched, w.heap.Intact v

/-- What belongs to a replayer and what does not. -/
theorem owned_middle (heap : Allocator) (before after : List Replayer) (r : Replayer)
    (others : List Nat) :
    (owned ⟨heap, before ++ r :: after, others⟩).Perm
      (r.payloads ++ ((before ++ after).flatMap Replayer.payloads ++ others)) := by
  rw [← List.append_assoc]
  exact (List.perm_middle.flatMap_right Replayer.payloads).append_right others

/-- Where all is in order, each replayer knows. -/
theorem InOrder.knows (order : InOrder ⟨heap, before ++ r :: after, others⟩) :
    r.Knows heap ((before ++ after).flatMap Replayer.payloads ++ others) where
  correct := order.correct
  chunk := order.chunk
  owned := (owned_middle heap before after r others).symm.trans order.owned
  intact := order.intact r (by simp)

/-- **Where each replayer but one is right about the heap, and that one takes its turn and knows,
all is in order again.** -/
theorem InOrder.turn (order : InOrder ⟨heap, before ++ r :: after, others⟩)
    (turn : Turn heap heap' r.payloads r'.payloads)
    (knows : r'.Knows heap' ((before ++ after).flatMap Replayer.payloads ++ others)) :
    InOrder ⟨heap', before ++ r' :: after, others⟩ where
  correct := knows.correct
  chunk := knows.chunk
  owned := (owned_middle heap' before after r' others).trans knows.owned
  intact s hs v hv := by
    have hs : s = r' ∨ s ∈ before ++ after := by
      simp only [List.mem_append, List.mem_cons] at hs ⊢
      tauto
    rcases hs with rfl | hs
    · exact knows.intact v hv
    · have theirs : v.payload ∈ (before ++ after).flatMap Replayer.payloads :=
        List.mem_flatMap.mpr ⟨s, hs, List.mem_map_of_mem hv⟩
      refine turn.intact order.knows.owned (List.mem_append_left _ theirs) (order.intact s ?_ v hv)
      simp only [List.mem_append, List.mem_cons] at hs ⊢
      tauto

/-- **Where another client takes its turn, all is in order again.** -/
theorem InOrder.turn_of_other {others' : List Nat} (order : InOrder ⟨heap, replayers, others⟩)
    (turn : Turn heap heap' others others') : InOrder ⟨heap', replayers, others'⟩ := by
  have owned : (others ++ replayers.flatMap Replayer.payloads).Perm heap.payloads :=
    List.perm_append_comm.trans order.owned
  refine ⟨turn.correct, ?_, List.perm_append_comm.trans (turn.owned _ owned), fun r hr v hv => ?_⟩
  · show heap'.config.chunk ≤ largestChunk
    rw [turn.config]
    exact order.chunk
  · have theirs : v.payload ∈ replayers.flatMap Replayer.payloads :=
      List.mem_flatMap.mpr ⟨r, hr, List.mem_map_of_mem hv⟩
    exact turn.intact owned theirs (order.intact r hr v hv)

/-- **Every step leaves all in order.** -/
theorem InOrder.step (order : w.InOrder) (step : Step w w') : w'.InOrder := by
  cases step with
  | joins =>
    refine ⟨order.correct, order.chunk, order.owned, fun r hr => ?_⟩
    rcases List.mem_cons.mp hr with rfl | hr
    · exact fun v hv => absurd hv List.not_mem_nil
    · exact order.intact r hr
  | @performs heap heap' before after r r' others operation ended =>
    have ends := order.knows.step operation
    rw [ended] at ends
    cases ends with
    | ok passed knows turn => exact order.turn turn knows
  | @refused heap heap' before after r r' others operation error ended =>
    have ends := order.knows.step operation
    rw [ended] at ends
    cases ends with
    | refused holds => exact order
  | serves later own served =>
    obtain ⟨es, shelves, sound⟩ := correct_iff.mp order.correct
    exact order.turn_of_other ((Reaches.effect sound served).turn sound later own)

/-- **Any number of steps leaves all in order.** -/
theorem InOrder.steps (order : w.InOrder) (steps : Steps w w') : w'.InOrder := by
  induction steps with
  | refl => exact order
  | tail _ step ih => exact ih.step step

/-- At the beginning all is in order. -/
theorem Opens.inOrder (opens : w.Opens) : w.InOrder := by
  have nothing : w.replayers.flatMap Replayer.payloads = [] :=
    List.flatMap_eq_nil_iff.mpr fun r hr => by
      rw [opens.fresh r hr]
      rfl
  refine ⟨opens.correct, opens.chunk, ?_, fun r hr v hv => ?_⟩
  · rw [Shared.owned, nothing]
    exact opens.owned
  · rw [opens.fresh r hr] at hv
    exact absurd hv List.not_mem_nil

/-- Replayers and others together have as many payloads as an audit counts. -/
theorem InOrder.count (order : w.InOrder) : ∃ stats, w.heap.audit = .ok stats ∧
    (w.replayers.map Replayer.live).sum + w.others.length = stats.allocatedBlocks := by
  obtain ⟨stats, passes⟩ := order.correct.passes
  refine ⟨stats, passes, ?_⟩
  have live : Replayer.live = fun r => r.payloads.length := funext Replayer.live_eq
  rw [← length_payloads passes, ← order.owned.length_eq, Shared.owned, List.length_append,
    List.length_flatMap, live]

end Shared

/-! ## Replays that have a heap to themselves -/

namespace Trace

variable {a : Allocator} {t : Trace}

/-- A trace is replayed on a correct heap. -/
theorem replay_ok (correct : a.Correct) (chunk : a.config.chunk ≤ largestChunk)
    (small : ∀ operation ∈ t, ¬ operation.TooLarge) : ∃ b, t.replay.outcome a = .ok () b := by
  obtain ⟨r, b, performed, knows⟩ := (Replayer.knows_new correct chunk).stepAll small
  refine ⟨b, ?_⟩
  unfold replay Replayer.alone
  rw [Action.outcome_withFirst, Action.outcome_bind, performed, Outcome.bind_ok, knows.finish]

/-- A heap of the standard source is set up. -/
theorem init_standard (hardened : Bool) :
    ∃ a, Allocator.init.outcome (.create .standard { hardened }) = .ok () a ∧ a.Correct ∧
      a.config = { hardened } := by
  have truthful : Source.standard.Truthful := rfl
  have high : (create .standard { hardened }).high = (create .standard { hardened }).memory.size :=
    (Nat.zero_add _).trans truthful
  rcases init_cases high with ⟨error, -, planned, -⟩ | ⟨a, o, -, answered, shows, config, -⟩
  · have terms :
        (create .standard { hardened }).terms = ⟨.reservation, 33554432, 0, 4096, .bestFit⟩ :=
      rfl
    have room : (Terms.mk .reservation 33554432 0 4096 .bestFit).init
        = .ok ⟨⟨blank 16, blankShelves 16⟩, ⟨.reservation, 33554432, 16, 4096, .bestFit⟩,
            .empty⟩ := rfl
    rw [terms, room] at planned
    cases planned
  · exact ⟨a, answered, correct_iff.mpr ⟨_, _, shows.sound⟩, config⟩

/-- A trace is replayed on a heap of the standard source. -/
theorem replayAlone_ok (hardened : Bool) (small : ∀ operation ∈ t, ¬ operation.TooLarge) :
    ∃ b, t.replayAlone hardened = .ok () b := by
  obtain ⟨a, answered, correct, config⟩ := init_standard hardened
  have chunk : a.config.chunk ≤ largestChunk := by
    rw [config]
    exact (by decide : defaultChunk ≤ largestChunk)
  obtain ⟨b, replayed⟩ := replay_ok correct chunk small
  refine ⟨b, ?_⟩
  unfold replayAlone replayAfresh
  rw [Action.outcome_bind, Action.outcome_orStop, answered, Outcome.bind_ok, Action.outcome_orStop,
    replayed]

end Trace

/-! ## Replays succeed -/

/-- **On a correct heap, however its clients take turns, no replay ever stops.**  A replayer is
refused only an operation on something live for which there is no size, and that changes nothing.
At any moment each replayer finds all that it watches intact, every client is served, and what the
clients have is what an audit counts.  So a trace with sizes for all that it asks for is replayed to
its end, on a heap that is there and on one that is set up for it. -/
theorem replays_succeed :
    (∀ w₀ w : Shared, w₀.Opens → Shared.Steps w₀ w →
      (∀ r ∈ w.replayers, ∀ operation,
        (r.Refuses operation → (Replayer.step operation).outcome (r, w.heap)
          = .refused .sizeOverflow (r, w.heap)) ∧
        (¬ r.Refuses operation →
          ∃ r' heap, (Replayer.step operation).outcome (r, w.heap) = .ok () (r', heap))) ∧
      (∀ r ∈ w.replayers, Replayer.finish.outcome (r, w.heap) = .ok () (r, w.heap)) ∧
      (∀ request : Request, request ≠ .init → (∀ p ∈ request.pointer, p ∈ w.others) →
        ∃ answer heap, request.serve.outcome w.heap = .ok answer heap) ∧
      ∃ stats, w.heap.audit = .ok stats ∧
        (w.replayers.map Replayer.live).sum + w.others.length = stats.allocatedBlocks) ∧
    ∀ t : Trace, (∀ operation ∈ t, ¬ operation.TooLarge) →
      (∀ a : Allocator, a.Correct → a.config.chunk ≤ largestChunk →
        ∃ b, t.replay.outcome a = .ok () b) ∧
      ∀ hardened, ∃ b, t.replayAlone hardened = .ok () b := by
  refine ⟨fun w₀ w opens steps => ?_, fun t small =>
    ⟨fun a correct chunk => Trace.replay_ok correct chunk small,
      fun hardened => Trace.replayAlone_ok hardened small⟩⟩
  have order := opens.inOrder.steps steps
  have knows : ∀ r ∈ w.replayers, ∃ rest, r.Knows w.heap rest := by
    intro r hr
    obtain ⟨before, after, split⟩ := List.append_of_mem hr
    obtain ⟨heap, replayers, others⟩ := w
    obtain rfl : replayers = before ++ r :: after := split
    exact ⟨_, order.knows⟩
  refine ⟨fun r hr operation => ?_, fun r hr => ?_, fun request _ _ => ?_, order.count⟩
  · obtain ⟨rest, knows⟩ := knows r hr
    have ends := knows.step operation
    generalize (Replayer.step operation).outcome (r, w.heap) = result at ends
    cases ends with
    | ok passed knows' turn => exact ⟨fun refuses => absurd refuses passed, fun _ => ⟨_, _, rfl⟩⟩
    | refused holds => exact ⟨fun _ => rfl, fun passed => absurd holds passed⟩
  · obtain ⟨rest, knows⟩ := knows r hr
    exact knows.finish
  · obtain ⟨es, shelves, sound⟩ := correct_iff.mp order.correct
    obtain ⟨answer, heap, served, -⟩ := serve_effect sound request
    exact ⟨answer, heap, served⟩

/-- Of two new replayers on a new heap, the first one allocates, and then both are in order; and a
trace is replayed on a heap of its own, with self-checks. -/
theorem replays_succeed_of_two_replayers :
    (∃ w₀ w : Shared, w₀.Opens ∧ Shared.Steps w₀ w ∧ w.replayers.length = 2 ∧
      (∀ r ∈ w.replayers, Replayer.finish.outcome (r, w.heap) = .ok () (r, w.heap)) ∧
      ∃ stats, w.heap.audit = .ok stats ∧
        (w.replayers.map Replayer.live).sum + w.others.length = stats.allocatedBlocks) ∧
    ∃ b, Trace.replayAlone true [.alloc 8, .realloc 0 100, .free 0] = .ok () b := by
  constructor
  · have truthful : (Source.buffer 80).Truthful :=
      Source.truthful_make (rfl : Source.make .buffer 80 = .ok (.buffer 80))
    have started : Reaches (.create (.buffer 80) { chunk := 0 }) [] _ := .start rfl
    obtain ⟨es, shelves, sound, names⟩ := started.tracked truthful
    have nothing : Allocator.payloads _ = [] := List.eq_nil_iff_forall_not_mem.mpr fun p hp => by
      obtain ⟨e, live, -⟩ := sound.mem_payloads.mp hp
      obtain ⟨n, known, -⟩ := names.known e live
      cases known
    have opens : Shared.Opens ⟨_, [.new, .new], []⟩ :=
      ⟨correct_iff.mpr ⟨es, shelves, sound⟩, Nat.zero_le _, by simp, nothing ▸ .refl []⟩
    have allowed : ¬ Replayer.new.Refuses (.alloc 8) := by
      rintro ⟨⟨_, ⟨⟩, large⟩, -⟩
      exact absurd large (by decide)
    obtain ⟨steps_ok, -⟩ := replays_succeed.1 _ _ opens .refl
    obtain ⟨r, heap, ended⟩ := (steps_ok .new (by simp) (.alloc 8)).2 allowed
    have step : Shared.Step _ ⟨heap, [] ++ r :: [.new], []⟩ := .performs ended
    obtain ⟨-, finished, -, count⟩ := replays_succeed.1 _ _ opens (.single step)
    exact ⟨_, _, opens, .single step, rfl, finished, count⟩
  · have small :
        ∀ operation ∈ ([.alloc 8, .realloc 0 100, .free 0] : Trace), ¬ operation.TooLarge := by
      intro operation mem
      simp only [List.mem_cons, List.not_mem_nil, or_false] at mem
      rcases mem with rfl | rfl | rfl <;> rintro ⟨_, ⟨⟩, large⟩ <;> exact absurd large (by decide)
    exact (replays_succeed.2 _ small).2 true

/-- It is not enough that a heap passes an audit.  On a hardened heap the free block of which was
written into, the first allocation of a new replayer stops. -/
theorem replay_on_spoiled_heap_stops :
    ¬ ∀ (w : Shared) stats, w.heap.audit = .ok stats → w.heap.config.chunk ≤ largestChunk →
      (∀ r ∈ w.replayers, r = .new) → w.others.Perm w.heap.payloads →
      ∀ r ∈ w.replayers, ∀ operation, ¬ r.Refuses operation →
        ∃ r' heap, (Replayer.step operation).outcome (r, w.heap) = .ok () (r', heap) := by
  intro claim
  have nothing : (spare true).payloads = [] :=
    List.eq_nil_of_length_eq_zero (length_payloads (audit_spare true))
  have allowed : ¬ Replayer.new.Refuses (.alloc 8) := by
    rintro ⟨⟨_, ⟨⟩, large⟩, -⟩
    exact absurd large (by decide)
  obtain ⟨r, heap, ended⟩ : ∃ r' heap,
      (Replayer.step (.alloc 8)).outcome (.new, spare true) = .ok () (r', heap) :=
    claim ⟨spare true, [.new], []⟩ _ (audit_spare true) (Nat.zero_le _) (by simp)
      (nothing ▸ .refl []) .new (by simp) (.alloc 8) allowed
  have stops :
      ((Replayer.step (.alloc 8)).outcome (Replayer.new, spare true)).hasValue = false := by
    decide +kernel
  rw [ended] at stops
  cases stops

end TaggedHeap
