import TaggedHeap.Proofs.Runs

/-!
# Acceptance by an audit is invariant

`audit_invariant` is what an audit is good for.  A heap that passes one, wherever its bytes are
from, serves every request without a fault, and passes an audit again afterwards.  Since an
initialisation that succeeds leaves a heap that passes, so do all heaps that a run can reach.

Both halves go through `Allocator.Sound`: an audit finds out that the heap is sound, a request keeps
it so, and a sound heap passes.  The audit says nothing of the pattern in free blocks, so that the
first half is about allocators without self-checks.
-/

namespace TaggedHeap

open Allocator

/-- **A heap that passes an audit serves every request and passes an audit again; and so does every
heap that is reached from an initialisation.** -/
theorem audit_invariant :
    (∀ a : Allocator, a.hardened = false → (∃ stats, a.audit = .ok stats) →
      ∀ r : Request, ∃ answer b, r.serve.outcome a = .ok answer b ∧ ∃ stats, b.audit = .ok stats) ∧
    ∀ (a b : Allocator) (history : History), a.source.Truthful → Reaches a history b →
      (∃ stats, b.audit = .ok stats) ∧
        ∀ r : Request, ∃ answer c, r.serve.outcome b = .ok answer c := by
  constructor
  · intro a plain accepted r
    obtain ⟨es, shelves, sound⟩ := (audit_eq_ok_iff plain).mp accepted
    obtain ⟨answer, b, answered, effect⟩ := serve_effect sound r
    obtain ⟨⟨es', shelves', sound'⟩, -⟩ := effect.sound sound
    exact ⟨answer, b, answered, _, sound'.audit⟩
  · intro a b history truthful run
    obtain ⟨es, shelves, sound, -⟩ := run.tracked truthful
    refine ⟨⟨_, sound.audit⟩, ?_⟩
    intro r
    obtain ⟨answer, c, answered, -⟩ := serve_effect sound r
    exact ⟨answer, c, answered⟩

/-- A heap with one live block passes an audit, and goes on to do so. -/
theorem audit_invariant_of_one_block :
    ∃ b, Reaches (.create (.buffer 80) { chunk := 0 }) [(.alloc 1, .ok (.payload (some 16)))] b ∧
      (∃ stats, b.audit = .ok stats) ∧
      ∀ r : Request, ∃ answer c, r.serve.outcome b = .ok answer c ∧
        ∃ stats, c.audit = .ok stats := by
  have truthful : (Source.buffer 80).Truthful :=
    Source.truthful_make (rfl : Source.make .buffer 80 = .ok (.buffer 80))
  have started : Reaches (.create (.buffer 80) { chunk := 0 }) [] _ := .start rfl
  have run : Reaches _ [(.alloc 1, .ok (.payload (some 16)))] _ := started.next rfl
  obtain ⟨accepted, -⟩ :=
    audit_invariant.2 (.create (.buffer 80) { chunk := 0 }) _ _ truthful run
  exact ⟨_, run, accepted, fun r => audit_invariant.1 _ rfl accepted r⟩

end TaggedHeap
