import TaggedHeap.Proofs.Requests

/-!
# Why there is no room

A request for room is refused for one of two reasons: no word can be the size that it takes, or the
source does not grow.  Which of the two it is depends on nothing but the number of bytes, as long as
the heap does not grow by more than a word at a time: no more than `largestRequest` has a size.

* `Scarce` says of a computation that if it is refused, then by the source.  `Scarce.bind` composes
  it.
* `Outline.alloc_scarce` and `Outline.realloc_scarce` go through the steps of the two requests.
* `alloc_ends` and `realloc_ends` say how the two requests end.
-/

namespace TaggedHeap

/-! ## Refusals by the source -/

section Scarce

variable {α β : Type} {x : Except Refusal α} {f : α → Except Refusal β}

/-- If a computation is refused, then because the source does not grow. -/
def Scarce (x : Except Refusal α) : Prop := ∀ error, x = .error error → ∃ n, error = .outOfMemory n

/-- What has a value is not refused. -/
theorem scarce_ok (a : α) : Scarce (.ok a) := by
  intro error h
  cases h

/-- What the source refuses in two parts it refuses in one of them. -/
theorem Scarce.bind (first : Scarce x) (next : ∀ a, x = .ok a → Scarce (f a)) :
    Scarce (x >>= f) := by
  intro error h
  cases hx : x with
  | ok a =>
    rw [hx] at h
    exact next a hx error h
  | error error' =>
    rw [hx] at h
    cases h
    exact first error hx

end Scarce

/-- To grow is refused by the source. -/
theorem Terms.grow_scarce (t : Terms) (n : Nat) : Scarce (t.grow n) := by
  unfold Terms.grow
  split
  · exact scarce_ok _
  · intro error h
    cases h
    exact ⟨n, rfl⟩

/-- By how much to grow can be said. -/
theorem Terms.growth_of_le {t : Terms} {missing : Nat} (chunk : t.chunk ≤ largestChunk)
    (few : missing ≤ largestChunk) : ∃ growth, t.growth missing = .ok growth :=
  let ⟨growth, computed, _⟩ := wholeUnits_of_le (Nat.max_le.mpr ⟨few, chunk⟩)
  ⟨growth, computed⟩

namespace Outline

variable {o : Outline} {n p size : Nat} {s : Spot}

/-- A gap at the end is refused by the source. -/
theorem openEnd_scarce (chunk : o.chunk ≤ largestChunk) (few : size ≤ largestChunk) :
    Scarce (o.openEnd size) := by
  unfold Outline.openEnd
  obtain ⟨growth, computed⟩ := Terms.growth_of_le (t := o.toTerms) chunk
    ((Nat.sub_le size _).trans few)
  dsimp only
  rw [computed, ok_bind]
  exact (o.toTerms.grow_scarce growth).bind fun _ _ => scarce_ok _

/-- A gap is refused by the source. -/
theorem openSpace_scarce (chunk : o.chunk ≤ largestChunk) (few : size ≤ largestChunk) :
    Scarce (o.openSpace size) := by
  unfold Outline.openSpace
  split
  · exact scarce_ok _
  · exact openEnd_scarce chunk few

/-- A block is refused by the source. -/
theorem allocateBlock_scarce (chunk : o.chunk ≤ largestChunk) (few : size ≤ largestChunk) :
    Scarce (o.allocateBlock size) :=
  (openSpace_scarce chunk few).bind fun _ _ => scarce_ok _

/-- A payload is refused by the source, if a block can have room for it. -/
theorem alloc_scarce (chunk : o.chunk ≤ largestChunk) (few : n ≤ largestRequest) :
    Scarce (o.alloc n) := by
  unfold Outline.alloc
  split
  · exact scarce_ok _
  · obtain ⟨size, hsize, small⟩ := blockSizeFor_of_le few
    rw [hsize, ok_bind]
    exact (allocateBlock_scarce chunk small).bind fun _ _ => scarce_ok _

/-- To make a block larger where it is, is not refused: it does not matter if the source does. -/
theorem stretch_scarce (chunk : o.chunk ≤ largestChunk) (few : size ≤ largestChunk) :
    Scarce (o.stretch s size) := by
  unfold Outline.stretch
  dsimp only
  split
  · exact scarce_ok _
  split
  · exact scarce_ok _
  obtain ⟨growth, computed⟩ := Terms.growth_of_le (t := o.toTerms) chunk
    ((Nat.sub_le size _).trans few)
  rw [computed, ok_bind]
  split <;> exact scarce_ok _

/-- A new size is refused by the source. -/
theorem resize_scarce (chunk : o.chunk ≤ largestChunk) (few : size ≤ largestChunk) :
    Scarce (o.resize s size) := by
  unfold Outline.resize
  split
  · exact scarce_ok _
  refine (stretch_scarce chunk few).bind fun result _ => ?_
  cases result with
  | some o' => exact scarce_ok _
  | none => exact (allocateBlock_scarce chunk few).bind fun _ _ => scarce_ok _

/-- A new size of a payload that is found is refused by the source, if a block can have
room for it. -/
theorem realloc_scarce (chunk : o.chunk ≤ largestChunk) (few : n ≤ largestRequest)
    (found : o.locate p = .ok s) : Scarce (o.realloc (some p) n) := by
  unfold Outline.realloc
  dsimp only
  split
  · have freed : o.free (some p) = .ok (o.release s) := by
      show (o.locate p >>= _) = _
      rw [found]
      rfl
    rw [freed, ok_bind]
    exact scarce_ok _
  · obtain ⟨size, hsize, small⟩ := blockSizeFor_of_le few
    rw [found, ok_bind, hsize, ok_bind]
    exact (resize_scarce chunk small).bind fun _ _ => scarce_ok _

end Outline

/-! ## How requests for room end -/

namespace Allocator

variable {a : Allocator} {es : List Extent} {shelves : Shelves} {e : Extent} {n : Nat}

/-- **A payload is handed out, or the source does not grow, or there is no size for it,** and which
of the last two it can be is said by the number of bytes. -/
theorem alloc_ends (sound : a.Sound es shelves) (chunk : a.config.chunk ≤ largestChunk)
    (pos : n ≠ 0) :
    (largestRequest < n ∧ (alloc n).outcome a = .refused .sizeOverflow a) ∨
    (n ≤ largestRequest ∧ ∃ k, (alloc n).outcome a = .refused (.outOfMemory k) a) ∨
    n ≤ largestRequest ∧ ∃ e a', (alloc n).outcome a = .ok (some (payloadOf e.block)) a' ∧
      Handed a a' es none e n := by
  rcases alloc_cases sound.shows pos with ⟨error, -, planned, refused⟩ |
    ⟨e, a', o', -, answered, -, handed⟩
  · by_cases few : n ≤ largestRequest
    · obtain ⟨k, rfl⟩ := Outline.alloc_scarce chunk few error planned
      exact .inr (.inl ⟨few, k, refused⟩)
    · left
      have large := Nat.not_le.mp few
      unfold Outline.alloc at planned
      rw [if_neg pos, blockSizeFor_of_gt large] at planned
      cases planned
      exact ⟨large, refused⟩
  · obtain ⟨size, hsize, -⟩ := handed.snug
    exact .inr (.inr ⟨le_of_blockSizeFor hsize, e, a', answered, handed⟩)

/-- **A payload is resized, or the source does not grow, or there is no size for it.** -/
theorem realloc_ends (sound : a.Sound es shelves) (chunk : a.config.chunk ≤ largestChunk)
    (live : Live es e) (pos : n ≠ 0) :
    (largestRequest < n ∧
      (realloc (some (payloadOf e.block)) n).outcome a = .refused .sizeOverflow a) ∨
    (n ≤ largestRequest ∧ ∃ k,
      (realloc (some (payloadOf e.block)) n).outcome a = .refused (.outOfMemory k) a) ∨
    n ≤ largestRequest ∧ ∃ e' a', (realloc (some (payloadOf e.block)) n).outcome a
      = .ok (some (payloadOf e'.block)) a' ∧ Carried a a' es e e' n := by
  have shows := sound.shows
  obtain ⟨pre, post, split⟩ := List.append_of_mem live.1
  have found := shows.locate_live split live.2
  rcases realloc_shows shows live pos with ⟨error, -, planned, refused⟩ |
    ⟨e', a', o', -, answered, -, carried⟩
  · by_cases few : n ≤ largestRequest
    · obtain ⟨k, rfl⟩ := Outline.realloc_scarce chunk few found error planned
      exact .inr (.inl ⟨few, k, refused⟩)
    · left
      have large := Nat.not_le.mp few
      unfold Outline.realloc at planned
      dsimp only at planned
      rw [if_neg pos, found, ok_bind, blockSizeFor_of_gt large] at planned
      cases planned
      exact ⟨large, refused⟩
  · obtain ⟨size, hsize, -⟩ := carried.snug
    exact .inr (.inr ⟨le_of_blockSizeFor hsize, e', a', answered, carried⟩)

end Allocator

end TaggedHeap
