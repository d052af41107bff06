import Mathlib.Data.List.ReduceOption
import TaggedHeap.Proofs.Watching

/-!
# Replayers

A replayer looks at its own payloads only.  What it sees there is right for as long as everyone else
keeps to theirs, and the only thing that it can be refused is a size that no word can be.

* `Replayer.Knows r a rest`: the replayer `r` is right about the heap `a`.  What it watches is live
  and intact, and together with the payloads `rest`, which are not its own, that is all that is
  live.
* `Knows.step` is one operation, `Knows.finish` the releases that a replay ends with, and
  `Knows.stepAll` a whole trace.
* `Replayer.Ends` is how each of these ends: the replayer knows what there is then, or it was
  refused.
-/

namespace TaggedHeap

open Allocator

/-- Whether there is no size for what an operation asks for. -/
def Operation.TooLarge (operation : Operation) : Prop := ∃ n ∈ operation.size?, largestRequest < n

namespace Replayer

variable {r r' : Replayer} {a a' : Allocator} {v : Watched} {index : Nat} {rest : List Nat}
  {operation : Operation} {t : Trace}

/-! ## What a replayer watches -/

/-- What a replayer watches. -/
def watched (r : Replayer) : List Watched := r.entries.toList.reduceOption

/-- The payloads that a replayer watches. -/
def payloads (r : Replayer) : List Nat := r.watched.map (·.payload)

/-- As many allocations are live as are watched. -/
theorem live_eq (r : Replayer) : r.live = r.payloads.length := by
  rw [live, payloads, watched, List.length_map, List.reduceOption_length_eq, ← Array.countP_toList,
    List.countP_eq_length_filter]

/-- What is recorded next is watched besides. -/
theorem watched_push (r : Replayer) (live : Option Watched) :
    (r.push live).watched = r.watched ++ live.toList := by
  unfold watched push
  rw [Array.toList_push, List.reduceOption_append, List.reduceOption_singleton]

/-- What becomes of a live allocation takes its place. -/
theorem watched_put (found : r.get? index = some v) :
    ∃ others, r.watched.Perm (v :: others) ∧
      ∀ live, (r.put index live).watched.Perm (live.toList ++ others) := by
  have here : r.entries.toList[index]? = some (some v) := by
    rw [Array.getElem?_toList]
    exact Option.join_eq_some_iff.mp found
  obtain ⟨inside, here⟩ := List.getElem?_eq_some_iff.mp here
  have replaced : ∀ live : Option Watched,
      (r.entries.toList.take index ++ live :: r.entries.toList.drop (index + 1)).reduceOption.Perm
        (live.toList ++ (r.entries.toList.take index ++
          r.entries.toList.drop (index + 1)).reduceOption) := by
    intro live
    rw [← List.reduceOption_singleton, ← List.reduceOption_append]
    exact List.perm_middle.filterMap _
  refine ⟨(r.entries.toList.take index ++ r.entries.toList.drop (index + 1)).reduceOption, ?_,
    fun live => ?_⟩
  · have whole := replaced (some v)
    rw [← here, List.getElem_cons_drop, List.take_append_drop, here] at whole
    exact whole
  · have changed : (r.put index live).entries.toList
        = r.entries.toList.take index ++ live :: r.entries.toList.drop (index + 1) := by
      unfold put
      rw [Array.toList_setIfInBounds, List.set_eq_take_append_cons_drop, if_pos inside]
    rw [watched, changed]
    exact replaced live

/-! ## What a replayer knows -/

/-- A replayer is right about a heap in which the others have the payloads `rest`. -/
structure Knows (r : Replayer) (a : Allocator) (rest : List Nat) : Prop where
  /-- The heap is correct. -/
  correct : a.Correct
  /-- It grows by words. -/
  chunk : a.config.chunk ≤ largestChunk
  /-- What is live is what the replayer watches and what the others have. -/
  owned : (r.payloads ++ rest).Perm a.payloads
  /-- What the replayer watches is intact. -/
  intact : ∀ v ∈ r.watched, a.Intact v

/-- A replayer that watches `new` after a turn in which it gave up `old` is right about the heap. -/
theorem Knows.turn {others : List Watched} (knows : r.Knows a rest) (old new : List Watched)
    (turn : Turn a a' (old.map (·.payload)) (new.map (·.payload)))
    (before : r.watched.Perm (old ++ others)) (afterwards : r'.watched.Perm (new ++ others))
    (intact : ∀ v ∈ new, a'.Intact v) : r'.Knows a' rest ∧ Turn a a' r.payloads r'.payloads := by
  have before_payloads := before.map (·.payload)
  have afterwards_payloads := afterwards.map (·.payload)
  rw [List.map_append] at before_payloads afterwards_payloads
  have whole : Turn a a' r.payloads r'.payloads :=
    (turn.frame _).perm before_payloads afterwards_payloads.symm
  refine ⟨⟨turn.correct, ?_, whole.owned rest knows.owned, fun v hv => ?_⟩, whole⟩
  · rw [turn.config]
    exact knows.chunk
  · rcases List.mem_append.mp (afterwards.mem_iff.mp hv) with hv | hv
    · exact intact v hv
    · have owned := (before_payloads.symm.append_right rest).trans knows.owned
      rw [List.append_assoc] at owned
      refine turn.intact owned (List.mem_append_left _ (List.mem_map_of_mem hv)) ?_
      exact knows.intact v (before.mem_iff.mpr (List.mem_append_right _ hv))

/-! ## One operation -/

/-- Whether a replayer is refused an operation: it is one on a live allocation, if on any, and there
is no size for what it asks for. -/
def Refuses (r : Replayer) (operation : Operation) : Prop :=
  operation.TooLarge ∧ ∀ i ∈ operation.index?, (r.get? i).isSome

/-- How an action of a replayer ends that is right about a heap, if it is refused
on some condition. -/
inductive Ends (r : Replayer) (a : Allocator) (rest : List Nat) (condition : Prop) :
    Outcome (Replayer × Allocator) Unit → Prop
  /-- It ends, and the replayer is right about the heap. -/
  | ok {r' : Replayer} {a' : Allocator} (passed : ¬ condition) (knows : r'.Knows a' rest)
      (turn : Turn a a' r.payloads r'.payloads) : Ends r a rest condition (.ok () (r', a'))
  /-- It is refused, and all is as it was. -/
  | refused (holds : condition) : Ends r a rest condition (.refused .sizeOverflow (r, a))

/-- What a replayer gets for `old` is recorded, unless it is refused. -/
theorem Knows.record {others : List Watched} {n : Nat} {condition : Prop}
    {x : Action Allocator (Option Watched)} (knows : r.Knows a rest) (old : List Watched)
    (f : Option Watched → Replayer → Replayer)
    (settled : Settled a (old.map (·.payload)) n (x.outcome a))
    (large : condition ↔ largestRequest < n) (before : r.watched.Perm (old ++ others))
    (afterwards : ∀ live, (f live r).watched.Perm (live.toList ++ others)) :
    Ends r a rest condition ((do
      let live ← act x
      Replayer.record (f live) : Replay Unit).outcome (r, a)) := by
  rw [Action.outcome_bind, act, Action.outcome_onSecond]
  generalize x.outcome a = result at settled
  cases settled with
  | kept few turn intact =>
    obtain ⟨knows', turn'⟩ := knows.turn _ _ turn before (afterwards _) fun v hv =>
      intact v (Option.mem_toList.mp hv)
    exact .ok (fun holds => Nat.not_lt.mpr few (large.mp holds)) knows' turn'
  | refused large' => exact .refused (large.mpr large')

/-- **A replayer that knows performs an operation and knows,** or is refused. -/
theorem Knows.perform (knows : r.Knows a rest) (operation : Operation) :
    Ends r a rest (r.Refuses operation) ((Replayer.perform operation).outcome (r, a)) := by
  have nothing : ¬ r.Refuses operation → Ends r a rest (r.Refuses operation) (.ok () (r, a)) :=
    fun passed => .ok passed knows (.refl knows.correct _)
  cases operation with
  | alloc size =>
    have refuses : r.Refuses (.alloc size) ↔ largestRequest < size := by
      simp [Refuses, Operation.TooLarge, Operation.size?, Operation.index?]
    unfold Replayer.perform
    rw [Action.outcome_bind]
    show Ends r a rest _ (Outcome.bind (.ok (patternByte r.entries.size) (r, a)) _)
    rw [Outcome.bind_ok]
    refine knows.record [] push
      (allocate_ends knows.correct knows.chunk size (patternByte r.entries.size)) refuses (.refl _)
      fun live => ?_
    rw [watched_push]
    exact List.perm_append_comm
  | free index =>
    have passed : ¬ r.Refuses (.free index) := by
      simp [Refuses, Operation.TooLarge, Operation.size?]
    unfold Replayer.perform
    rw [Action.outcome_bind]
    show Ends r a rest _ (Outcome.bind (.ok (r.get? index) (r, a)) _)
    rw [Outcome.bind_ok]
    cases found : r.get? index with
    | none => exact nothing passed
    | some live =>
      obtain ⟨others, before, afterwards⟩ := watched_put found
      have mem : live ∈ r.watched := before.mem_iff.mpr List.mem_cons_self
      obtain ⟨a', verified, freed, turn⟩ := release_ends knows.correct (knows.intact live mem)
      obtain ⟨knows', turn'⟩ := knows.turn [live] [] turn before (afterwards none)
        fun _ hv => absurd hv List.not_mem_nil
      dsimp only
      rw [Action.outcome_bind]
      show Ends r a rest _ (Outcome.bind (.ok () (r.put index none, a)) _)
      rw [Outcome.bind_ok, Action.outcome_bind, act, Action.outcome_onSecond, verified]
      dsimp only [Outcome.bind_ok]
      rw [act, Action.outcome_onSecond, freed]
      exact .ok passed knows' turn'
  | realloc index size =>
    unfold Replayer.perform
    rw [Action.outcome_bind]
    show Ends r a rest _ (Outcome.bind (.ok (r.get? index) (r, a)) _)
    rw [Outcome.bind_ok]
    cases found : r.get? index with
    | none =>
      apply nothing
      rintro ⟨-, live⟩
      have dead := live index rfl
      rw [found] at dead
      cases dead
    | some live =>
      have refuses : r.Refuses (.realloc index size) ↔ largestRequest < size := by
        simp [Refuses, Operation.TooLarge, Operation.size?, Operation.index?, found]
      obtain ⟨others, before, afterwards⟩ := watched_put found
      have mem : live ∈ r.watched := before.mem_iff.mpr List.mem_cons_self
      exact knows.record [live] (put index)
        (reallocate_ends knows.correct knows.chunk (knows.intact live mem) size) refuses before
        afterwards

/-- **A replayer that knows makes a step and knows,** or is refused. -/
theorem Knows.step (knows : r.Knows a rest) (operation : Operation) :
    Ends r a rest (r.Refuses operation) ((Replayer.step operation).outcome (r, a)) := by
  have ends := knows.perform operation
  unfold Replayer.step
  rw [Action.outcome_bind]
  generalize (Replayer.perform operation).outcome (r, a) = result at ends
  cases ends with
  | refused holds => exact .refused holds
  | @ok r' a' passed knows' turn =>
    have ticked : r'.tick.Knows a' rest :=
      ⟨knows'.correct, knows'.chunk, knows'.owned, knows'.intact⟩
    have done : Ends r a rest (r.Refuses operation) (.ok () (r'.tick, a')) := .ok passed ticked turn
    obtain ⟨stats, checked⟩ := knows'.correct.check
    rw [Outcome.bind_ok, Action.outcome_bind]
    show Ends r a rest _ (Outcome.bind (.ok () (r'.tick, a')) _)
    rw [Outcome.bind_ok, Action.outcome_bind]
    show Ends r a rest _ (Outcome.bind (.ok r'.tick.performed (r'.tick, a')) _)
    rw [Outcome.bind_ok]
    split
    · rw [Action.outcome_bind, act, Action.outcome_onSecond, checked]
      exact done
    · exact done

/-! ## Whole traces -/

/-- All that is watched is found intact. -/
theorem verifyAll_intact {entries : List (Option Watched)} (correct : a.Correct)
    (intact : ∀ v ∈ entries.reduceOption, a.Intact v) :
    (verifyAll entries).outcome a = .ok () a := by
  induction entries with
  | nil => rfl
  | cons entry entries ih =>
    cases entry with
    | none => exact ih intact
    | some live =>
      rw [List.reduceOption_cons_of_some] at intact
      rw [verifyAll, Action.outcome_bind, (intact live List.mem_cons_self).verify correct,
        Outcome.bind_ok, ih fun v hv => intact v (List.mem_cons_of_mem _ hv)]

/-- **A replayer that knows finds everything in order at the end.** -/
theorem Knows.finish (knows : r.Knows a rest) : Replayer.finish.outcome (r, a) = .ok () (r, a) := by
  obtain ⟨stats, checked⟩ := knows.correct.check
  have verified : (verifyAll r.entries.toList).outcome a = .ok () a :=
    verifyAll_intact knows.correct knows.intact
  unfold Replayer.finish
  rw [Action.outcome_bind]
  show Outcome.bind (.ok r.entries (r, a)) _ = _
  rw [Outcome.bind_ok, Action.outcome_bind, act, Action.outcome_onSecond, verified]
  dsimp only [Outcome.bind_ok]
  rw [Action.outcome_bind, act, Action.outcome_onSecond, checked]
  rfl

/-- **A replayer that knows performs a trace and knows,** if there are sizes for all that it asks
for. -/
theorem Knows.stepAll (knows : r.Knows a rest) (small : ∀ operation ∈ t, ¬ operation.TooLarge) :
    ∃ r' a', (stepAll t).outcome (r, a) = .ok () (r', a') ∧ r'.Knows a' rest := by
  induction t generalizing r a with
  | nil => exact ⟨r, a, rfl, knows⟩
  | cons operation t ih =>
    have ends := knows.step operation
    rw [Replayer.stepAll, Action.outcome_bind]
    generalize (Replayer.step operation).outcome (r, a) = result at ends
    cases ends with
    | refused holds => exact absurd holds.1 (small operation List.mem_cons_self)
    | ok passed knows' turn => exact ih knows' fun op hop => small op (List.mem_cons_of_mem _ hop)

/-- A new replayer knows, since it watches nothing. -/
theorem knows_new (correct : a.Correct) (chunk : a.config.chunk ≤ largestChunk) :
    Replayer.new.Knows a a.payloads :=
  ⟨correct, chunk, .refl _, fun _ hv => absurd hv List.not_mem_nil⟩

end Replayer

end TaggedHeap
