import TaggedHeap.Proofs.Runs

/-!
# Pointers are accepted exactly when they are live

`accepted_iff_live` says of any moment of any run which pointers the requests accept: those that the
history handed out and did not take back.  What the caller wrote into live payloads does not matter,
nor how many bytes a reallocation asks for: the pointer is looked at first.
-/

namespace TaggedHeap

open Allocator

/-- **At any moment of any run, a pointer is accepted if it is live, and otherwise refused by name,
and then the allocator is as it was.** -/
theorem accepted_iff_live {a b : Allocator} {history : History} (truthful : a.source.Truthful)
    (run : Reaches a history b) (p : Nat) :
    ((asked history p).isSome →
      (∃ length, (usable p).outcome b = .ok length b) ∧
      (∃ length, (payloadLength p).outcome b = .ok length b) ∧
      (∃ c, (free (some p)).outcome b = .ok () c) ∧
      ∀ n, (∃ q c, (realloc (some p) n).outcome b = .ok q c) ∨
        ∃ error, Exhausted error ∧ (realloc (some p) n).outcome b = .refused error b) ∧
    (asked history p = none →
      (∃ error, Denied p error ∧ (usable p).outcome b = .refused error b) ∧
      (∃ error, Denied p error ∧ (payloadLength p).outcome b = .refused error b) ∧
      (∃ error, Denied p error ∧ (free (some p)).outcome b = .refused error b) ∧
      ∀ n, ∃ error, Denied p error ∧ (realloc (some p) n).outcome b = .refused error b) := by
  obtain ⟨es, shelves, sound, names⟩ := run.tracked truthful
  constructor
  · intro known
    obtain ⟨n, hn⟩ := Option.isSome_iff_exists.mp known
    obtain ⟨e, live, rfl⟩ := names.live p n hn
    obtain ⟨c, freed, -⟩ := free_live sound live
    refine ⟨⟨_, usable_live sound live⟩, ⟨_, payloadLength_live sound live⟩, ⟨c, freed⟩, ?_⟩
    intro n
    by_cases zero : n = 0
    · obtain ⟨c, dropped, -⟩ := realloc_zero_live sound live
      exact .inl ⟨none, c, by rw [zero, dropped]⟩
    · rcases realloc_cases sound live zero with refused | ⟨e', c, answered, -⟩
      · exact .inr refused
      · exact .inl ⟨_, c, answered⟩
  · intro unknown
    have dead : ∀ e, Live es e → payloadOf e.block ≠ p := by
      rintro e live rfl
      obtain ⟨n, hn, -⟩ := names.known e live
      rw [unknown] at hn
      cases hn
    exact ⟨usable_dead sound dead, payloadLength_dead sound dead, free_dead sound dead,
      realloc_dead sound dead⟩

/-- One payload is live and the next one is not: the first is accepted, and the second is refused
even if it is to be resized to no bytes. -/
theorem accepted_iff_live_of_one_block :
    ∃ b, Reaches (.create (.buffer 80) { chunk := 0 }) [(.alloc 1, .ok (.payload (some 16)))] b ∧
      (∃ c, (free (some 16)).outcome b = .ok () c) ∧
      ∃ error, Denied 48 error ∧ (realloc (some 48) 0).outcome b = .refused error b := by
  have truthful : (Source.buffer 80).Truthful :=
    Source.truthful_make (rfl : Source.make .buffer 80 = .ok (.buffer 80))
  have started : Reaches (.create (.buffer 80) { chunk := 0 }) [] _ := .start rfl
  have run : Reaches _ [(.alloc 1, .ok (.payload (some 16)))] _ := started.next rfl
  obtain ⟨-, -, freed, -⟩ := (accepted_iff_live truthful run 16).1 rfl
  obtain ⟨-, -, -, refused⟩ := (accepted_iff_live truthful run 48).2 rfl
  exact ⟨_, run, freed, refused 0⟩

end TaggedHeap
