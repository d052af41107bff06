import TaggedHeap.Proofs.Resizing

/-!
# Reallocations where an allocation succeeds

A live payload that cannot be resized where it is is moved, and that needs no more than an
allocation.  So where an allocation of some bytes succeeds, a reallocation to as many does, too, but
for one case, which `Overreaches` describes: a block at the end of the heap is stretched by growing
before it is moved, and when it cannot be said by how much to grow, that is taken for a failure of
the whole request.  A growth that the source refuses is not.

* `Outline.stretch_overflows` is about a block at the end of the heap when no growth can be planned.
* `realloc_overreaches` is the failure, and `realloc_succeeds` says that there is no other.
* `realloc_where_alloc` puts these together, and `realloc_where_alloc_fails` shows that the case
  occurs.
-/

namespace TaggedHeap

open Memory

namespace Outline

variable {o : Outline} {pre post : List Extent} {e : Extent} {f size : Nat} {error : Refusal}

/-- A block at the end of the heap is not stretched if it cannot be said by how much to grow. -/
theorem stretch_overflows (next : ∀ y ∈ post.head?, y.allocated = true) (short : e.size + f < size)
    (last : e.stop + f = o.size - wordSize)
    (overflow : o.growth (size - (e.size + f)) = .error error) :
    o.stretch ⟨pre, e, gapBetween e.stop (e.stop + f) ++ post⟩ size = .error error := by
  obtain ⟨shelves', joined, length⟩ := Spot.joinNext_gap pre e f o.shelves next
  unfold Outline.stretch
  simp only [joined, length]
  rw [if_neg (Nat.not_le.mpr short), if_neg (not_not.mpr last), overflow]
  rfl

end Outline

namespace Allocator

variable {a b : Allocator} {es pre post : List Extent} {shelves : Shelves} {e : Extent}
  {stats : Stats} {q : Option Nat} {f n p size : Nat}

/-- The block of the payload `p` is too small for `n` bytes, and so is it together with what is free
behind it, which ends where the heap does.  By how much the heap would have to grow there is no word
for, since it is told to grow by a chunk at least. -/
def Overreaches (a : Allocator) (p n : Nat) : Prop :=
  largestChunk < a.config.chunk ∧ ∃ pre e f size,
    a.layout = pre ++ e :: gapBetween e.stop (e.stop + f) ∧ payloadOf e.block = p ∧
      e.stop + f = a.high - wordSize ∧ n ≠ 0 ∧ blockSizeFor n = .ok size ∧ e.size + f < size

/-- **A block that would have to grow by more than a word is not moved:** the reallocation is
refused. -/
theorem realloc_overreaches (passes : a.audit = .ok stats) (hp : p ∈ a.payloads)
    (excess : a.Overreaches p n) : (realloc (some p) n).outcome a = .refused .sizeOverflow a := by
  obtain ⟨chunk, pre, e, f, size, layout, rfl, last, pos, hsize, short⟩ := excess
  obtain ⟨es, shelves, sound⟩ := sound_filled passes
  obtain ⟨x, live, same⟩ := sound.mem_payloads.mp hp
  have split : es = pre ++ e :: (gapBetween e.stop (e.stop + f) ++ []) := by
    rw [← sound.layout, layout, List.append_nil]
  have mem : e ∈ es := by simp [split]
  obtain rfl : x = e := sound.arena.tiles.block_inj live.1 mem (Nat.add_right_cancel same)
  have overflow : a.terms.growth (size - (x.size + f)) = .error .sizeOverflow :=
    wholeUnits_of_gt (Nat.lt_of_lt_of_le chunk (Nat.le_max_right ..))
  rw [sound.size] at last
  have stretch : Outline.stretch ⟨⟨es, shelves⟩, a.terms, a.starts⟩
      ⟨pre, x, gapBetween x.stop (x.stop + f) ++ []⟩ size = .error .sizeOverflow :=
    Outline.stretch_overflows (fun y hy => by cases hy) short last overflow
  have planned : Outline.realloc ⟨⟨es, shelves⟩, a.terms, a.starts⟩ (some (payloadOf x.block)) n
      = .error .sizeOverflow := by
    unfold Outline.realloc Outline.resize
    simp only [if_neg pos, sound.shows.locate_live split live.2, ok_bind, hsize,
      if_neg (show ¬ size ≤ x.size by omega), stretch]
    rfl
  rcases realloc_or_stops hardened_of_filled sound.shows split live.2 pos with
    ⟨error, -, planned', refused⟩ | ⟨e', a', o', planned', -⟩ | ⟨y, size', hsize', -, stays, -⟩
  · rw [planned] at planned'
    cases planned'
    exact refused
  · rw [planned] at planned'
    cases planned'
  · rw [hsize] at hsize'
    cases hsize'
    rw [stretch] at stays
    cases stays

/-- An allocation that succeeds is for bytes that there is a size of a block for. -/
theorem blockSizeFor_of_alloc (passes : a.audit = .ok stats) (pos : n ≠ 0)
    (answered : (alloc n).outcome a = .ok q b) : ∃ size, blockSizeFor n = .ok size := by
  obtain ⟨es, shelves, sound⟩ := sound_filled passes
  rcases alloc_or_stops hardened_of_filled sound.shows pos with ⟨error, -, -, refused⟩ |
    ⟨t, b', o', -, -, -, handed⟩ | ⟨x, size, hsize, -⟩
  · rw [answered] at refused
    cases refused
  · obtain ⟨size, hsize, -⟩ := handed.snug
    exact ⟨size, hsize⟩
  · exact ⟨size, hsize⟩

/-- What ends as an allocation that succeeds does so, too. -/
theorem EndsAlike.succeeds {reallocation : Outcome Allocator (Option Nat)}
    (alike : EndsAlike a p (.ok q b) reallocation) : ∃ q' c, reallocation = .ok q' c := by
  cases reallocation with
  | ok q' c => exact ⟨q', c, rfl⟩
  | refused error c => exact alike.elim
  | fault stop => exact alike.elim

/-- A block is moved when it cannot be said by how much the heap would have to grow, unless it
overreaches. -/
theorem endsAlike_of_overflow (sound : a.Sound es shelves a.Filled)
    (split : es = pre ++ e :: (gapBetween e.stop (e.stop + f) ++ post)) (taken : e.allocated = true)
    (next : ∀ y ∈ post.head?, y.allocated = true) (pos : n ≠ 0) (hsize : blockSizeFor n = .ok size)
    (short : e.size + f < size)
    (overflow : wholeUnits (max (size - (e.size + f)) a.config.chunk) = .error .sizeOverflow)
    (fits : ¬ a.Overreaches (payloadOf e.block) n) :
    EndsAlike a (payloadOf e.block) ((alloc n).outcome a)
      ((realloc (some (payloadOf e.block)) n).outcome a) := by
  have chunk : largestChunk < a.config.chunk := by
    by_contra small
    obtain ⟨size', hsize', few⟩ := blockSizeFor_of_le (le_of_blockSizeFor hsize)
    obtain rfl : size = size' := Except.ok.inj (hsize.symm.trans hsize')
    obtain ⟨inc, units, -⟩ :=
      wholeUnits_of_le (Nat.max_le.mpr ⟨(Nat.sub_le ..).trans few, Nat.not_lt.mp small⟩)
    rw [overflow] at units
    cases units
  have inner : e.stop + f ≠ a.high - wordSize := by
    intro last
    obtain rfl := sound.nil_of_last split last
    exact fits ⟨chunk, pre, e, f, size, by rw [sound.layout, split, List.append_nil], rfl, last,
      pos, hsize, short⟩
  obtain ⟨-, -, stays, -⟩ :=
    @Outline.stretch_spec ⟨⟨es, shelves⟩, a.terms, a.starts⟩ pre post e f size next
  rw [sound.size] at inner
  exact realloc_moves hardened_of_filled sound.shows split taken pos hsize
    (Nat.lt_of_le_of_lt (Nat.le_add_right ..) short) (stays short inner)

/-- **In every other case a reallocation succeeds where an allocation does.**  The cases are those
of how the block is resized: not at all, where it is, or by a move. -/
theorem realloc_succeeds (passes : a.audit = .ok stats) (hp : p ∈ a.payloads)
    (answered : (alloc n).outcome a = .ok q b) (fits : ¬ a.Overreaches p n) :
    ∃ q' c, (realloc (some p) n).outcome a = .ok q' c := by
  obtain ⟨es, shelves, sound⟩ := sound_filled passes
  obtain ⟨e, live, rfl⟩ := sound.mem_payloads.mp hp
  by_cases pos : n = 0
  · subst pos
    obtain ⟨c, -, -, freed, -⟩ := free_takes hardened_of_filled sound live
    refine ⟨none, c, ?_⟩
    unfold realloc
    simp only [if_true, Action.outcome_bind, freed, Outcome.bind_ok, Action.outcome_pure]
  obtain ⟨size, hsize⟩ := blockSizeFor_of_alloc passes pos answered
  obtain ⟨pre, f, post, split, next⟩ := sound.split_behind live.1
  by_cases cut : size ≤ e.size
  · obtain ⟨c, done, -⟩ := inPlace_cut sound split live.2 next pos hsize cut
    exact ⟨_, c, done⟩
  by_cases stretched : size ≤ e.size + f
  · obtain ⟨c, done, -⟩ :=
      inPlace_stretched sound split live.2 next pos hsize (Nat.not_le.mp cut) stretched
    exact ⟨_, c, done⟩
  have short := Nat.not_le.mp stretched
  rcases wholeUnits_cases (max (size - (e.size + f)) a.config.chunk) with ⟨inc, units, -⟩ | overflow
  · by_cases grows : e.stop + f = a.high - wordSize ∧ a.source.accepts inc = true
    · obtain ⟨c, done, -⟩ := inPlace_grown sound split live.2 next pos hsize short units grows
      exact ⟨_, c, done⟩
    · have moved := endsAlike_of_stuck sound split live.2 next pos hsize short units grows
      rw [answered] at moved
      exact moved.succeeds
  · have moved := endsAlike_of_overflow sound split live.2 next pos hsize short overflow fits
    rw [answered] at moved
    exact moved.succeeds

/-- Where a block would have to grow by more than a word, an allocation that succeeds takes a free
block. -/
theorem alloc_of_overreaches (passes : a.audit = .ok stats) (excess : a.Overreaches p n)
    (answered : (alloc n).outcome a = .ok q b) :
    b.high = a.high ∧ ∃ x size, blockSizeFor n = .ok size ∧ a.Suits size x ∧
      q = some (payloadOf x.block) := by
  obtain ⟨chunk, -, -, -, size, -, -, -, pos, hsize, -⟩ := excess
  by_cases suits : ∃ x, a.Suits size x
  · obtain ⟨x, hx, ⟨b', answered', high⟩ | ⟨-, -, stops⟩⟩ := alloc_found passes pos hsize suits
    · rw [answered] at answered'
      cases answered'
      exact ⟨high, x, size, hsize, hx, rfl⟩
    · rw [answered] at stops
      cases stops
  · obtain ⟨-, s, t, -, -, -, -, overflow, -⟩ := alloc_grown passes pos hsize (not_exists.mp suits)
    have refused := overflow (wholeUnits_of_gt (Nat.lt_of_lt_of_le chunk (Nat.le_max_right ..)))
    rw [answered] at refused
    cases refused

/-- **Where an allocation succeeds, a reallocation of a live payload to as many bytes does,** in
every heap that passes an audit, unless its block overreaches.  Then it is refused, though the
allocation takes a free block, which the payload could have been moved to. -/
theorem realloc_where_alloc (passes : a.audit = .ok stats) (hp : p ∈ a.payloads)
    (answered : (alloc n).outcome a = .ok q b) :
    (¬ a.Overreaches p n → ∃ q' c, (realloc (some p) n).outcome a = .ok q' c) ∧
    (a.Overreaches p n →
      (realloc (some p) n).outcome a = .refused .sizeOverflow a ∧ b.high = a.high ∧
      ∃ x size, blockSizeFor n = .ok size ∧ a.Suits size x ∧ q = some (payloadOf x.block)) :=
  ⟨realloc_succeeds passes hp answered,
    fun excess =>
      ⟨realloc_overreaches passes hp excess, alloc_of_overreaches passes excess answered⟩⟩

/-- There is a heap of a free block of 48 bytes and an allocated one of 32, which ends where the
heap does and overreaches when it is to be made larger. -/
theorem exists_overreaching : ∃ a, (∃ stats, a.audit = .ok stats) ∧ 64 ∈ a.payloads ∧
    a.Overreaches 64 40 ∧ ∃ b, (alloc 40).outcome a = .ok (some 16) b := by
  have truthful : ((Source.buffer 128).extend 96).Truthful :=
    (Source.truthful_make (rfl : Source.make .buffer 128 = .ok (.buffer 128))).grow 96
  obtain ⟨a, run, shows⟩ := exists_reaches [.alloc 40, .alloc 8, .free (some 16)] truthful
    (rfl : (Allocator.create ((Source.buffer 128).extend 96)
      { chunk := wordBound - 1 }).terms.init = .ok _) (by decide +kernel)
  have config := run.config truthful
  have layout : a.layout = [⟨8, 48, false⟩, ⟨56, 32, true⟩] :=
    shows.sound.layout.trans (by decide +kernel)
  have high : a.high = 96 := shows.high.trans (by decide +kernel)
  have large : largestChunk < a.config.chunk := by
    rw [congrArg Config.chunk config]
    decide
  refine ⟨a, ⟨_, shows.sound.audit⟩, by simp [payloads, taken, layout], ?_, ?_⟩
  · exact ⟨large, [⟨8, 48, false⟩], ⟨56, 32, true⟩, 0, 48, layout, rfl, by rw [high]; rfl,
      by decide, rfl, by decide⟩
  · have only (y : Extent) (suits : a.Suits 48 y) : y = ⟨8, 48, false⟩ := by
      obtain ⟨mem, free, -⟩ := suits
      rw [layout] at mem
      simp only [List.mem_cons, List.not_mem_nil, or_false] at mem
      rcases mem with rfl | rfl
      · rfl
      · cases free
    obtain ⟨b, answered, -⟩ := alloc_found_only shows.sound.audit (congrArg Config.hardened config)
      (show 40 ≠ 0 by decide) rfl ⟨by simp [layout], rfl, by decide⟩ only
    exact ⟨b, answered⟩

set_option maxRecDepth 2000 in
/-- A payload that was handed out is made larger, and one that overreaches is not. -/
theorem realloc_where_alloc_of_two_heaps :
    (∃ a, Reaches (.create (.buffer 128) { chunk := 0 }) [(.alloc 1, .ok (.payload (some 16)))] a ∧
      ∃ q b, (realloc (some 16) 40).outcome a = .ok q b) ∧
    ∃ a, (∃ b, (alloc 40).outcome a = .ok (some 16) b) ∧
      (realloc (some 64) 40).outcome a = .refused .sizeOverflow a := by
  constructor
  · have truthful : (Source.buffer 128).Truthful :=
      Source.truthful_make (rfl : Source.make .buffer 128 = .ok (.buffer 128))
    have started : Reaches (.create (.buffer 128) { chunk := 0 }) [] _ := .start rfl
    obtain ⟨a, run, chunk, b, served⟩ : ∃ a, Reaches (.create (.buffer 128) { chunk := 0 })
        [(.alloc 1, .ok (.payload (some 16)))] a ∧ a.config.chunk = 0 ∧
        ∃ b, (alloc 40).outcome a = .ok (some 48) b := ⟨_, started.next rfl, rfl, _, rfl⟩
    obtain ⟨es, shelves, sound, names⟩ := run.tracked truthful
    have live : 16 ∈ a.payloads := sound.mem_payloads.mpr (names.live 16 1 rfl)
    obtain ⟨moved, -⟩ := realloc_where_alloc sound.audit live served
    exact ⟨a, run, moved fun excess => absurd excess.1 (by rw [chunk]; decide)⟩
  · obtain ⟨a, ⟨stats, passes⟩, live, excess, b, served⟩ := exists_overreaching
    obtain ⟨-, refused⟩ := realloc_where_alloc passes live served
    exact ⟨a, ⟨b, served⟩, (refused excess).1⟩

/-- That an allocation succeeds does not always mean that a reallocation does. -/
theorem realloc_where_alloc_fails :
    ¬ ∀ (a : Allocator) stats p n q b, a.audit = .ok stats → p ∈ a.payloads →
      (alloc n).outcome a = .ok q b → ∃ q' c, (realloc (some p) n).outcome a = .ok q' c := by
  intro claim
  obtain ⟨a, ⟨stats, passes⟩, live, excess, b, served⟩ := exists_overreaching
  obtain ⟨q', c, resized⟩ := claim a stats 64 40 (some 16) b passes live served
  rw [realloc_overreaches passes live excess] at resized
  cases resized

end Allocator

end TaggedHeap
