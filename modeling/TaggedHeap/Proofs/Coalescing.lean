import TaggedHeap.Proofs.Correct
import TaggedHeap.Proofs.NormalForm
import TaggedHeap.Proofs.Runs

/-!
# Coalescing is canonical

What becomes free is merged with its free neighbours at once.  So of all that was ever allocated and
freed, nothing is left in the layout of a heap but its size and its live blocks.

* `passes_normal` says so of every heap that passes an audit, and `layout_of_taken` what follows for
  two of them.
* `freeAll_live` takes back any payloads, one after the other, and says which are live then.  It
  does not say in which order they were taken back, because that does not matter (`freeAll_perm`).
* `freeAll_empties` takes all of them back, and `Sound.alloc_at_start` hands out again what the heap
  has room for then.
* `alloc_free_live` takes back what was just handed out, and `alloc_free_layout` compares the
  layouts.

An audit does not look at the pattern, and what is taken back does not depend on it.  But a hardened
heap stops when it comes to hand out a block where it is missing.  `Filled` says of which blocks
that cannot be: of those that hold it, and of those that are yet to come.
-/

namespace TaggedHeap

open Memory

/-! ## Outlines -/

/-- A source that grew holds no less. -/
theorem Terms.size_grow {t t' : Terms} {n : Nat} (h : t.grow n = .ok t') : t.size ≤ t'.size := by
  unfold Terms.grow at h
  split at h
  · cases h
    exact Nat.le_add_right ..
  · cases h

namespace Outline

variable {o o' : Outline} {n p size : Nat} {payload : Option Nat} {gap : Gap} {terms : Terms}

/-- Taking a payload back does not touch the source. -/
theorem toTerms_free (h : o.free (some p) = .ok o') : o'.toTerms = o.toTerms := by
  unfold Outline.free at h
  obtain ⟨s, -, h⟩ := bind_eq_ok_iff.mp h
  cases h
  rfl

/-- Wherever a gap is opened, the source holds no less. -/
theorem size_openSpace (h : o.openSpace size = .ok (gap, terms)) : o.size ≤ terms.size := by
  unfold Outline.openSpace at h
  split at h
  · cases h
    exact Nat.le_refl _
  · unfold Outline.openEnd at h
    obtain ⟨growth, -, h⟩ := bind_eq_ok_iff.mp h
    obtain ⟨grown, hgrow, h⟩ := bind_eq_ok_iff.mp h
    cases h
    exact Terms.size_grow hgrow

/-- Handing out a payload does not make the source smaller. -/
theorem size_alloc (h : o.alloc n = .ok (payload, o')) : o.size ≤ o'.size := by
  unfold Outline.alloc at h
  split at h
  · cases h
    exact Nat.le_refl _
  · obtain ⟨size, -, h⟩ := bind_eq_ok_iff.mp h
    obtain ⟨⟨q, o₁⟩, placed, h⟩ := bind_eq_ok_iff.mp h
    cases h
    unfold Outline.allocateBlock at placed
    obtain ⟨⟨gap, terms⟩, opened, placed⟩ := bind_eq_ok_iff.mp placed
    cases placed
    exact size_openSpace opened

end Outline

namespace Allocator

variable {a b : Allocator} {es : List Extent} {shelves : Shelves} {e : Extent} {stats : Stats}
  {o : Outline} {n size : Nat} {ps : List Nat} {filled filled' : Extent → Prop}

/-! ## Normal forms -/

/-- **A heap that passes an audit is in normal form:** its free blocks are the maximal gaps between
its allocated ones, and nothing else goes into its layout. -/
theorem passes_normal (passes : a.audit = .ok stats) :
    a.layout = withGaps firstBlock a.taken (a.high - wordSize) ∧
      ∀ s t, (∃ e ∈ a.layout, e.allocated = false ∧ e.block = s ∧ e.stop = t) ↔
        MaximalGap a.taken firstBlock (a.high - wordSize) s t := by
  obtain ⟨es, shelves, sound, -⟩ := sound_of_audit passes
  rw [taken, sound.layout]
  exact ⟨sound.arena.tiles.eq_withGaps sound.arena.coalesced,
    fun s t => sound.arena.tiles.mem_iff_maximalGap sound.arena.coalesced⟩

/-- **Two heaps that end at one offset and have the same allocated blocks have the same layout,** if
both pass an audit. -/
theorem layout_of_taken {stats' : Stats} (passes : a.audit = .ok stats)
    (passes' : b.audit = .ok stats') (high : b.high = a.high)
    (same : ∀ e, e ∈ b.taken ↔ e ∈ a.taken) : b.layout = a.layout := by
  obtain ⟨es, shelves, sound, -⟩ := sound_of_audit passes
  obtain ⟨es', shelves', sound', -⟩ := sound_of_audit passes'
  have taken_eq : b.taken = a.taken := by
    rw [taken, taken, sound.layout, sound'.layout] at same ⊢
    simp only [List.mem_filter] at same
    exact sound'.arena.tiles.taken_eq sound.arena.tiles same
  rw [(passes_normal passes').1, (passes_normal passes).1, high, taken_eq]

/-- Heaps that end at one offset and have the same live blocks have the same layout. -/
theorem Sound.layout_eq {es' : List Extent} {shelves' : Shelves}
    (sound : a.Sound es shelves filled) (sound' : b.Sound es' shelves' filled')
    (high : b.high = a.high) (live : ∀ x, Live es' x ↔ Live es x) :
    b.layout = a.layout := by
  rw [sound.layout, sound'.layout, sound.arena.tiles.eq_withGaps sound.arena.coalesced,
    sound'.arena.tiles.eq_withGaps sound'.arena.coalesced, high,
    sound'.arena.tiles.taken_eq sound.arena.tiles live]

/-- A heap without live blocks is an empty one. -/
theorem Sound.layout_blank (sound : a.Sound es shelves filled) (dead : ∀ x, ¬ Live es x) :
    a.layout = blank a.high := by
  have start : firstBlock ≤ a.high - wordSize := sound.arena.tiles.le
  have none_taken : es.filter (·.allocated) = [] := by
    apply List.filter_eq_nil_iff.mpr
    exact fun x hx taken => dead x ⟨hx, taken⟩
  rw [sound.layout, sound.arena.tiles.eq_withGaps sound.arena.coalesced, none_taken, withGaps]
  simp only [firstBlock, wordSize] at start ⊢
  unfold blank
  by_cases bare : a.high = heapOverhead
  · rw [if_pos bare, bare]
    rfl
  · simp only [heapOverhead] at bare ⊢
    rw [if_neg bare, gapBetween_of_lt (by omega)]
    congr 2

/-! ## The pattern -/

/-- A block of a hardened heap that holds the pattern if it is free, or is none of the heap's
blocks. -/
def Filled (a : Allocator) (x : Extent) : Prop :=
  a.hardened = true ∧ (x ∈ a.layout → x.allocated = false → Poisoned a.memory x)

/-- Only a hardened heap fills its free blocks. -/
theorem hardened_of_filled (x : Extent) (h : a.Filled x) : a.hardened = true := h.1

/-- What passes an audit is sound, with the pattern where it is. -/
theorem sound_filled (passes : a.audit = .ok stats) :
    ∃ es shelves, a.Sound es shelves a.Filled := by
  obtain ⟨es, shelves, sound, -⟩ := sound_of_audit passes
  refine ⟨es, shelves, sound.refill fun e he free filled => filled.2 ?_ free⟩
  rwa [sound.layout]

/-! ## Taking back -/

/-- A live payload is taken back, and of the heap only its block changes. -/
theorem free_takes (fills : ∀ x, filled x → a.hardened = true) (sound : a.Sound es shelves filled)
    (live : Live es e) :
    ∃ b es' shelves', (free (some (payloadOf e.block))).outcome a = .ok () b ∧
      b.Sound es' shelves' filled ∧ b.config = a.config ∧ b.high = a.high ∧
      ∀ x, Live es' x ↔ Live es x ∧ x ≠ e := by
  obtain ⟨b, o', planned, freed, shows', change⟩ := free_shows_of_fills fills sound.shows live
  refine ⟨b, _, _, freed, shows'.sound, change.config, ?_, ?_⟩
  · rw [shows'.high, congrArg Terms.size (Outline.toTerms_free planned)]
    exact sound.size.symm
  · intro x
    rw [change.live shows' x]
    simp [eq_comm]

/-- Takes payloads back, one after the other. -/
def freeAll : List Nat → Action Allocator Unit
  | [] => return ()
  | p :: ps => do
    free (some p)
    freeAll ps

/-- **Live payloads are taken back, one after the other,** and the others stay.  The induction is on
the payloads; that they are different is what keeps the later ones live. -/
theorem freeAll_live (fills : ∀ x, filled x → a.hardened = true)
    (sound : a.Sound es shelves filled) (nodup : ps.Nodup)
    (live : ∀ p ∈ ps, ∃ e, Live es e ∧ payloadOf e.block = p) :
    ∃ b es' shelves', (freeAll ps).outcome a = .ok () b ∧ b.Sound es' shelves' filled ∧
      b.config = a.config ∧ b.high = a.high ∧
      ∀ x, Live es' x ↔ Live es x ∧ payloadOf x.block ∉ ps := by
  induction ps generalizing a es shelves with
  | nil =>
    refine ⟨a, es, shelves, rfl, sound, rfl, rfl, fun x => ?_⟩
    simp only [List.not_mem_nil, not_false_eq_true, and_true]
  | cons p ps ih =>
    obtain ⟨fresh, nodup_rest⟩ := List.nodup_cons.mp nodup
    obtain ⟨e, live_e, rfl⟩ := live p List.mem_cons_self
    obtain ⟨b, es', shelves', freed, sound', config, high, live'⟩ := free_takes fills sound live_e
    have fills' : ∀ x, filled x → b.hardened = true := fun x must =>
      (congrArg Config.hardened config).trans (fills x must)
    have live_rest : ∀ q ∈ ps, ∃ x, Live es' x ∧ payloadOf x.block = q := by
      intro q hq
      obtain ⟨x, hx, rfl⟩ := live q (List.mem_cons_of_mem _ hq)
      refine ⟨x, (live' x).mpr ⟨hx, ?_⟩, rfl⟩
      rintro rfl
      exact fresh hq
    obtain ⟨c, es'', shelves'', freed_rest, sound'', config', high', live''⟩ :=
      ih fills' sound' nodup_rest live_rest
    refine ⟨c, es'', shelves'', ?_, sound'', config'.trans config, high'.trans high, fun x => ?_⟩
    · rw [freeAll, Action.outcome_bind, freed, Outcome.bind_ok, freed_rest]
    · have same : Live es x → (x ≠ e ↔ payloadOf x.block ≠ payloadOf e.block) := by
        intro hx
        refine not_congr ⟨fun h => by rw [h], fun h => ?_⟩
        exact sound.arena.tiles.block_inj hx.1 live_e.1 (Nat.add_right_cancel h)
      rw [live'' x, live' x, List.mem_cons, not_or, and_assoc]
      exact and_congr_right fun hx => and_congr_left fun _ => same hx

/-- **In which order payloads are taken back does not matter.** -/
theorem freeAll_perm {qs : List Nat} (passes : a.audit = .ok stats) (nodup : ps.Nodup)
    (perm : ps.Perm qs) (live : ∀ p ∈ ps, p ∈ a.payloads) :
    ∃ b c, (freeAll ps).outcome a = .ok () b ∧ (freeAll qs).outcome a = .ok () c ∧
      b.layout = c.layout ∧ ∃ figures, b.audit = .ok figures ∧ c.audit = .ok figures := by
  obtain ⟨es, shelves, sound⟩ := sound_filled passes
  have live_ps := fun p hp => sound.mem_payloads.mp (live p hp)
  have live_qs := fun p hp => live_ps p (perm.mem_iff.mpr hp)
  obtain ⟨b, es₁, shelves₁, freed₁, sound₁, -, high₁, live₁⟩ :=
    freeAll_live hardened_of_filled sound nodup live_ps
  obtain ⟨c, es₂, shelves₂, freed₂, sound₂, -, high₂, live₂⟩ :=
    freeAll_live hardened_of_filled sound (perm.nodup_iff.mp nodup) live_qs
  have layout : b.layout = c.layout := sound₂.layout_eq sound₁ (high₁.trans high₂.symm) fun x => by
    rw [live₁, live₂, perm.mem_iff]
  refine ⟨b, c, freed₁, freed₂, layout, _, sound₁.audit, ?_⟩
  rw [sound₂.audit, high₁, high₂, ← sound₁.layout, layout, sound₂.layout]

/-- The block that an empty heap consists of is none of a heap in which anything is live. -/
theorem Sound.not_mem_of_blank {l : Extent} (sound : a.Sound es shelves filled) (live : Live es l)
    (he : e ∈ blank a.high) : e ∉ es := by
  intro mem
  obtain ⟨start, -, room, -, stop, -⟩ := sound.bounds live.1
  unfold blank at he
  split at he
  · cases he
  · obtain rfl := List.mem_singleton.mp he
    rcases sound.apart mem live.1 with rfl | before | behind
    · cases live.2
    · simp only [firstBlock, heapOverhead] at before
      omega
    · simp only [firstBlock] at behind
      omega

/-- **When all payloads are taken back, the heap is empty.**  Unless nothing was live, what is free
then is filled with the pattern, whatever it held before. -/
theorem freeAll_empties (passes : a.audit = .ok stats) (nodup : ps.Nodup)
    (all : ∀ p, p ∈ ps ↔ p ∈ a.payloads) :
    ∃ b, (freeAll ps).outcome a = .ok () b ∧ b.high = a.high ∧ b.layout = blank a.high ∧
      (a.Correct ∨ ps ≠ [] → ∃ shelves, b.Sound (blank b.high) shelves) := by
  obtain ⟨es, shelves, sound⟩ := sound_filled passes
  obtain ⟨b, es', shelves', freed, sound', config, high, live'⟩ :=
    freeAll_live hardened_of_filled sound nodup fun p hp => sound.mem_payloads.mp ((all p).mp hp)
  have dead : ∀ x, ¬ Live es' x := fun x hx => by
    obtain ⟨live_x, kept⟩ := (live' x).mp hx
    exact kept ((all _).mpr (sound.mem_payloads.mpr ⟨x, live_x, rfl⟩))
  have empty := sound'.layout_blank dead
  refine ⟨b, freed, high, by rw [empty, high], fun filled => ⟨shelves', ?_⟩⟩
  obtain rfl : es' = blank b.high := sound'.layout.symm.trans empty
  refine sound'.refill fun e he free hard => sound'.arena.poisoned e he free ⟨?_, fun mem _ => ?_⟩
  · rw [← hard]
    exact (congrArg Config.hardened config).symm
  rcases filled with correct | some_live
  · exact correct.unspoiled ((congrArg Config.hardened config).symm.trans hard) e mem free
  · obtain ⟨p, hp⟩ := List.exists_mem_of_ne_nil ps some_live
    obtain ⟨l, live_l, -⟩ := sound.mem_payloads.mp ((all p).mp hp)
    rw [high] at he
    rw [sound.layout] at mem
    exact absurd mem (sound.not_mem_of_blank live_l he)

/-! ## Handing out -/

/-- **An allocation that a free block is large enough for is served from one,** and the heap does
not grow. -/
theorem Sound.alloc_fits (sound : a.Sound es shelves) (pos : n ≠ 0)
    (hsize : blockSizeFor n = .ok size) (he : e ∈ es) (free : e.allocated = false)
    (fits : size ≤ e.size) :
    ∃ x ∈ es, x.allocated = false ∧
      ∃ b, (alloc n).outcome a = .ok (some (payloadOf x.block)) b ∧ b.high = a.high := by
  obtain ⟨x, hx, free_x, -, pre, post, opened⟩ := sound.shows.openSpace_found he free fits
  refine ⟨x, hx, free_x, ?_⟩
  rcases alloc_opened (fun _ hard => hard) sound.shows pos hsize opened with
    ⟨b, answered, shows'⟩ | ⟨y, -, -, -, hard, spoiled, -⟩
  · exact ⟨b, answered, shows'.high.trans sound.size.symm⟩
  · exact absurd hard spoiled

/-- What was handed out is taken back.  Then the live blocks are those that were, and the heap is as
large as it was, or as large as it became. -/
theorem alloc_free_live {p : Nat} (fills : ∀ x, filled x → a.hardened = true)
    (sound : a.Sound es shelves filled) (pos : n ≠ 0)
    (answered : (alloc n).outcome a = .ok (some p) b) :
    ∃ c es' shelves', (free (some p)).outcome b = .ok () c ∧ c.Sound es' shelves' filled ∧
      c.high = b.high ∧ a.high ≤ b.high ∧ ∀ x, Live es' x ↔ Live es x := by
  rcases alloc_or_stops fills sound.shows pos with ⟨error, -, -, refused⟩ |
    ⟨e, b', o', planned, answered', shows', handed⟩ | ⟨x, -, -, -, stops⟩
  · rw [answered] at refused
    cases refused
  · rw [answered] at answered'
    cases answered'
    have live' := handed.live shows'
    have live_e : Live o'.extents e := (live' e).mpr (.inl rfl)
    have fills' : ∀ x, filled x → b.hardened = true := fun x must =>
      handed.hardened.trans (fills x must)
    obtain ⟨c, es'', shelves'', freed, sound'', -, high, live''⟩ :=
      free_takes fills' shows'.sound live_e
    refine ⟨c, es'', shelves'', freed, sound'', high, ?_, fun x => ?_⟩
    · rw [shows'.high, sound.size]
      exact Outline.size_alloc planned
    · have old : Live es x → x ≠ e := fun hx same =>
        handed.fresh e rfl x hx (Option.not_mem_none x) (by rw [same])
      rw [live'' x, live' x]
      constructor
      · rintro ⟨hx | ⟨hx, -⟩, ne⟩
        · exact absurd (Option.some.inj hx).symm ne
        · exact hx
      · exact fun hx => ⟨.inr ⟨hx, Option.not_mem_none x⟩, old hx⟩
  · rw [answered] at stops
    cases stops

/-- The payload at the start of a heap. -/
theorem payloadOf_of_mem_blank {high : Nat} (he : e ∈ blank high) : payloadOf e.block = 16 := by
  unfold blank at he
  split at he
  · cases he
  · rw [List.mem_singleton.mp he]
    rfl

/-- **An empty heap serves at its start whatever it has room for.** -/
theorem Sound.alloc_at_start (sound : a.Sound (blank a.high) shelves) (pos : n ≠ 0)
    (hsize : blockSizeFor n = .ok size) (fits : size ≤ a.high - heapOverhead) :
    ∃ b, (alloc n).outcome a = .ok (some 16) b ∧ b.high = a.high := by
  obtain ⟨-, large, -⟩ := of_blockSizeFor hsize
  have whole : (⟨firstBlock, a.high - heapOverhead, false⟩ : Extent) ∈ blank a.high := by
    rw [blank, if_neg (by simp only [minBlockSize, heapOverhead] at large fits ⊢; omega)]
    exact List.mem_singleton_self _
  obtain ⟨x, hx, -, b, answered, high⟩ := sound.alloc_fits pos hsize whole rfl fits
  rw [payloadOf_of_mem_blank hx] at answered
  exact ⟨b, answered, high⟩

/-- **What is handed out and taken back leaves the layout that was,** with what the heap grew by at
its end. -/
theorem alloc_free_layout {p : Nat} (passes : a.audit = .ok stats) (pos : n ≠ 0)
    (answered : (alloc n).outcome a = .ok (some p) b) :
    ∃ c, (free (some p)).outcome b = .ok () c ∧ c.high = b.high ∧
      (b.high = a.high → c.layout = a.layout) ∧
      (b.high ≠ a.high → a.high < b.high ∧
        c.layout = enlarged (a.high - wordSize) (b.high - a.high) a.layout) := by
  obtain ⟨es, shelves, sound⟩ := sound_filled passes
  obtain ⟨c, es', shelves', freed, sound', high, more, live'⟩ :=
    alloc_free_live hardened_of_filled sound pos answered
  refine ⟨c, freed, high, fun still => sound.layout_eq sound' (high.trans still) live', ?_⟩
  intro grew
  have start : firstBlock ≤ a.high - wordSize := sound.arena.tiles.le
  simp only [firstBlock, wordSize] at start
  refine ⟨by omega, ?_⟩
  rw [sound'.layout, sound.layout, sound'.arena.tiles.eq_withGaps sound'.arena.coalesced,
    sound'.arena.tiles.taken_eq sound.arena.tiles live', high,
    ← withGaps_widen sound.arena.tiles sound.arena.coalesced (by omega)]
  congr 1
  simp only [wordSize]
  omega

/-! ## Coalescing is canonical -/

/-- **What is free is what the live blocks leave, and that is all that a heap remembers.**  A heap
that passes an audit has a free block in each maximal gap between its allocated blocks and nowhere
else, so that two of one size and with the same allocated blocks have the same layout.  Any of its
payloads can be taken back in any order, and the layout and the figures are the same.  When all of
them are taken back, the heap is one free block, and what it has room for is served at its start,
unless nothing was live and the heap is not correct.  And what is handed out and taken back again
leaves the layout that was, with what the heap grew by at its end. -/
theorem coalescing_canonical (passes : a.audit = .ok stats) :
    (∀ s t, (∃ e ∈ a.layout, e.allocated = false ∧ e.block = s ∧ e.stop = t) ↔
      MaximalGap a.taken firstBlock (a.high - wordSize) s t) ∧
    (∀ (b : Allocator) stats', b.audit = .ok stats' → b.high = a.high →
      (∀ e, e ∈ b.taken ↔ e ∈ a.taken) → b.layout = a.layout) ∧
    (∀ ps qs : List Nat, ps.Nodup → ps.Perm qs → (∀ p ∈ ps, p ∈ a.payloads) →
      ∃ b c, (freeAll ps).outcome a = .ok () b ∧ (freeAll qs).outcome a = .ok () c ∧
        b.layout = c.layout ∧ ∃ figures, b.audit = .ok figures ∧ c.audit = .ok figures) ∧
    (∀ ps : List Nat, ps.Nodup → (∀ p, p ∈ ps ↔ p ∈ a.payloads) →
      ∃ b, (freeAll ps).outcome a = .ok () b ∧ b.high = a.high ∧ b.layout = blank a.high ∧
        (a.Correct ∨ ps ≠ [] → ∀ n size, n ≠ 0 → blockSizeFor n = .ok size →
          size ≤ a.high - heapOverhead →
            ∃ c, (alloc n).outcome b = .ok (some 16) c ∧ c.high = a.high)) ∧
    ∀ n p b, n ≠ 0 → (alloc n).outcome a = .ok (some p) b →
      ∃ c, (free (some p)).outcome b = .ok () c ∧ c.high = b.high ∧
        (b.high = a.high → c.layout = a.layout) ∧
        (b.high ≠ a.high → a.high < b.high ∧
          c.layout = enlarged (a.high - wordSize) (b.high - a.high) a.layout) := by
  refine ⟨(passes_normal passes).2,
    fun b stats' passes' high same => layout_of_taken passes passes' high same,
    fun ps qs nodup perm live => freeAll_perm passes nodup perm live, ?_,
    fun n p b pos answered => alloc_free_layout passes pos answered⟩
  intro ps nodup all
  obtain ⟨b, freed, high, empty, serves⟩ := freeAll_empties passes nodup all
  refine ⟨b, freed, high, empty, fun filled n size pos hsize fits => ?_⟩
  obtain ⟨shelves, sound⟩ := serves filled
  rw [← high] at fits ⊢
  exact sound.alloc_at_start pos hsize fits

set_option maxRecDepth 2000 in
/-- Two payloads are taken back in both orders, and a third one is handed out and taken back. -/
theorem coalescing_canonical_of_two_blocks :
    ∃ a, Reaches (.create (.buffer 128) { chunk := 0 })
        [(.alloc 1, .ok (.payload (some 16))), (.alloc 1, .ok (.payload (some 48)))] a ∧
      (∃ stats, a.audit = .ok stats) ∧
      (∃ b c, (freeAll [16, 48]).outcome a = .ok () b ∧ (freeAll [48, 16]).outcome a = .ok () c ∧
        b.layout = c.layout) ∧
      ∃ b c, (alloc 1).outcome a = .ok (some 80) b ∧ (free (some 80)).outcome b = .ok () c ∧
        c.high = b.high := by
  have truthful : (Source.buffer 128).Truthful :=
    Source.truthful_make (rfl : Source.make .buffer 128 = .ok (.buffer 128))
  have started : Reaches (.create (.buffer 128) { chunk := 0 }) [] _ := .start rfl
  have once : Reaches _ [(.alloc 1, .ok (.payload (some 16)))] _ := started.next rfl
  have run : Reaches _ [(.alloc 1, .ok (.payload (some 16))), (.alloc 1, .ok (.payload (some 48)))]
      _ := once.next rfl
  obtain ⟨es, shelves, sound, names⟩ := run.tracked truthful
  obtain ⟨-, -, orders, -, again⟩ := coalescing_canonical sound.audit
  refine ⟨_, run, ⟨_, sound.audit⟩, ?_, ?_⟩
  · obtain ⟨b, c, freed, freed', same, -⟩ := orders [16, 48] [48, 16] (by decide) (.swap ..) (by
      intro p hp
      rw [sound.mem_payloads]
      rcases List.mem_pair.mp hp with rfl | rfl
      · exact names.live 16 1 rfl
      · exact names.live 48 1 rfl)
    exact ⟨b, c, freed, freed', same⟩
  · obtain ⟨c, freed, high, -⟩ := again 1 80 _ (by decide) rfl
    exact ⟨_, c, rfl, freed, high⟩

/-- Not every allocation that an empty heap has room for is served at its start.  One for no bytes
has no payload at all, and a hardened heap stops when its free block does not hold the pattern,
which no audit looks at. -/
theorem alloc_at_start_fails :
    (¬ ∀ (a : Allocator) stats, a.hardened = false → a.audit = .ok stats →
      stats.allocatedBlocks = 0 →
      ∀ n size, blockSizeFor n = .ok size → size ≤ a.high - heapOverhead →
        ∃ c, (alloc n).outcome a = .ok (some 16) c) ∧
    ¬ ∀ (a : Allocator) stats, a.audit = .ok stats → stats.allocatedBlocks = 0 →
      ∀ n size, n ≠ 0 → blockSizeFor n = .ok size → size ≤ a.high - heapOverhead →
        ∃ c, (alloc n).outcome a = .ok (some 16) c := by
  have fits : ∀ hardened, 32 ≤ (spare hardened).high - heapOverhead := by decide +kernel
  constructor
  · intro claim
    obtain ⟨c, served⟩ := claim (spare false) _ rfl (audit_spare false) rfl 0 32 rfl (fits false)
    have nothing : ∀ a : Allocator, a.ready = true → (alloc 0).outcome a = .ok none a := by
      intro a ready
      unfold alloc requireReady
      rw [Action.outcome_bind, Action.outcome_inspect, if_pos ready]
      rfl
    rw [nothing _ rfl] at served
    cases served
  · intro claim
    obtain ⟨c, served⟩ :=
      claim (spare true) _ (audit_spare true) rfl 8 32 (by decide) rfl (fits true)
    have stops : ((alloc 8).outcome (spare true)).hasValue = false := by decide +kernel
    rw [served] at stops
    cases stops

end Allocator

end TaggedHeap
