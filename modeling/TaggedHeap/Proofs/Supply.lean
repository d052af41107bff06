import TaggedHeap.Proofs.BestFit
import TaggedHeap.Proofs.Coalescing
import TaggedHeap.Proofs.Contents
import TaggedHeap.Proofs.Cuts

/-!
# When an allocation grows the heap, and by how much

The heap grows when none of its free blocks is large enough, and then by what is missing at its end,
or by a chunk if that is more.

* `Shows.openSpace_grown` says which gap the outline opens in the second case.
* `alloc_found` and `alloc_grown` say what either case comes to.  On a hardened heap there is one
  more end, since it stops at a free block that somebody wrote to.
* `alloc_exact` says how an allocation ends on every heap that passes an audit.

`Supplied` is what every success comes to: there is one more allocated block, and nothing becomes of
the others.
-/

namespace TaggedHeap

open Memory

namespace Allocator

variable {a b : Allocator} {es : List Extent} {shelves : Shelves} {e x : Extent} {stats : Stats}
  {o : Outline} {n s size : Nat} {filled filled' : Extent → Prop} {pre : List Extent}

/-! ## Which gap is opened -/

/-- **Where none is, the end of the heap is opened,** if the source grows. -/
theorem Shows.openSpace_grown (shows : a.Shows o filled) (none_suits : ∀ x, ¬ a.Suits size x)
    (layout : o.extents = pre ++ gapBetween s (o.size - wordSize)) (ordered : s ≤ o.size - wordSize)
    (last : ∀ x ∈ pre.getLast?, x.allocated = true) :
    ∃ shelves', o.openSpace size = (do
        let growth ← o.growth (size - (o.size - wordSize - s))
        let terms ← o.grow growth
        return (⟨pre, s, o.size - wordSize + growth, [], shelves'⟩, terms)) := by
  have nothing : o.find size = none := by
    cases found : o.find size with
    | none => rfl
    | some block =>
      obtain ⟨x, hx, free, fits, -⟩ := shows.of_find found
      exact absurd ⟨by rwa [shows.sound.layout], free, fits⟩ (none_suits x)
  obtain ⟨shelves', joined⟩ : ∃ shelves', Gap.joinPrev
      ⟨pre ++ gapBetween s (o.size - wordSize), o.size - wordSize, o.size - wordSize, [], o.shelves⟩
        = ⟨pre, s, o.size - wordSize, [], shelves'⟩ := Gap.joinPrev_gap last ordered
  refine ⟨shelves', ?_⟩
  unfold Outline.openSpace Outline.openEnd
  rw [nothing, Option.bind_none, layout]
  dsimp only
  rw [joined]
  rfl

/-! ## Where the block comes from -/

/-- A block at which a hardened heap stops is a free one without the pattern. -/
theorem dirty_of_not_filled (hard : a.hardened = true) (spoiled : ¬ a.Filled x) :
    x ∈ a.layout ∧ ¬ Poisoned a.memory x := by
  by_contra clean
  refine spoiled ⟨hard, fun mem _ => ?_⟩
  by_contra dirty
  exact clean ⟨mem, dirty⟩

/-- Two free blocks with the same offsets are one. -/
theorem free_ext {y : Extent} (start : x.block = y.block) (stop : x.stop = y.stop)
    (free : x.allocated = false) (free' : y.allocated = false) : x = y := by
  obtain ⟨block, length, allocated⟩ := x
  obtain ⟨block', length', allocated'⟩ := y
  simp only [Extent.stop] at start stop free free'
  subst start free free'
  rw [Nat.add_left_cancel stop]

/-- **Where a free block is large enough, an allocation takes one and the heap does not grow,**
unless a hardened heap finds that one written to. -/
theorem alloc_found (passes : a.audit = .ok stats) (pos : n ≠ 0) (hsize : blockSizeFor n = .ok size)
    (suits : ∃ x, a.Suits size x) :
    ∃ x, a.Suits size x ∧
      ((∃ b, (alloc n).outcome a = .ok (some (payloadOf x.block)) b ∧ b.high = a.high) ∨
        a.hardened = true ∧ ¬ Poisoned a.memory x ∧
          (alloc n).outcome a = .fault (.dirtyBlock x.block)) := by
  obtain ⟨es, shelves, sound⟩ := sound_filled passes
  obtain ⟨y, mem, free_y, fits_y⟩ := suits
  obtain ⟨x, hx, free, fits, pre, post, opened⟩ :=
    sound.shows.openSpace_found (by rwa [← sound.layout]) free_y fits_y
  refine ⟨x, ⟨by rwa [sound.layout], free, fits⟩, ?_⟩
  rcases alloc_opened hardened_of_filled sound.shows pos hsize opened with ⟨b, answered, shows'⟩ |
    ⟨z, start, stop, free_z, hard, spoiled, stops⟩
  · exact .inl ⟨b, answered, shows'.high.trans sound.size.symm⟩
  · obtain rfl : z = x := free_ext start stop free_z free
    exact .inr ⟨hard, (dirty_of_not_filled hard spoiled).2, stops⟩

/-- Without self-checks, the only free block that is large enough is the one that is taken. -/
theorem alloc_found_only (passes : a.audit = .ok stats) (soft : a.hardened = false)
    (pos : n ≠ 0) (hsize : blockSizeFor n = .ok size) (suits : a.Suits size x)
    (only : ∀ y, a.Suits size y → y = x) :
    ∃ b, (alloc n).outcome a = .ok (some (payloadOf x.block)) b ∧ b.high = a.high := by
  obtain ⟨y, suits_y, served | ⟨hard, -⟩⟩ := alloc_found passes pos hsize ⟨x, suits⟩
  · rwa [only y suits_y] at served
  · rw [soft] at hard
    cases hard

/-- **Where none is, the heap grows by what is missing at its end,** and the block is allocated
where the free space at the end started. -/
theorem alloc_grown (passes : a.audit = .ok stats) (pos : n ≠ 0) (hsize : blockSizeFor n = .ok size)
    (none_suits : ∀ x, ¬ a.Suits size x) :
    ∃ pre s t, a.layout = pre ++ gapBetween s (s + t) ∧ (∀ x ∈ pre.getLast?, x.allocated = true) ∧
      s + t = a.high - wordSize ∧ t < size ∧
      (wholeUnits (max (size - t) a.config.chunk) = .error .sizeOverflow →
        (alloc n).outcome a = .refused .sizeOverflow a) ∧
      ∀ inc, wholeUnits (max (size - t) a.config.chunk) = .ok inc →
        if a.source.accepts inc then
          ∃ b, (alloc n).outcome a = .ok (some (payloadOf s)) b ∧ b.high = a.high + inc ∧
            b.layout = pre ++ cutInto s (t + inc) size
        else (alloc n).outcome a = .refused (.outOfMemory inc) a := by
  obtain ⟨es, shelves, sound⟩ := sound_filled passes
  obtain ⟨-, large, -⟩ := of_blockSizeFor hsize
  obtain ⟨pre, s, layout, ordered, last⟩ := sound.arena.tiles.end_gap sound.arena.coalesced
  obtain ⟨t, reach⟩ : ∃ t, s + t = a.high - wordSize := Nat.le.dest ordered
  have room : a.high - wordSize - s = t := by omega
  have small : t < size := by
    by_contra fits
    have some_room : s < a.high - wordSize := by
      simp only [minBlockSize] at large
      omega
    refine none_suits ⟨s, t, false⟩ ⟨?_, rfl, Nat.not_lt.mp fits⟩
    rw [sound.layout, layout, gapBetween_of_lt some_room, room]
    exact List.mem_append_right _ List.mem_cons_self
  refine ⟨pre, s, t, by rw [sound.layout, reach, layout], last, reach, small, ?_⟩
  have shows := sound.shows
  rw [sound.size] at layout ordered room
  obtain ⟨shelves', opened⟩ := shows.openSpace_grown none_suits layout ordered last
  have opened : Outline.openSpace ⟨⟨es, shelves⟩, a.terms, a.starts⟩ size
      = (wholeUnits (max (size - t) a.config.chunk) >>= fun inc => a.terms.grow inc >>= fun terms =>
        .ok (⟨pre, s, a.memory.size - wordSize + inc, [], shelves'⟩, terms)) := by
    rw [← room]
    exact opened
  refine ⟨fun overflow => ?_, fun inc units => ?_⟩
  · rw [overflow] at opened
    exact alloc_refused hardened_of_filled shows pos hsize opened
  rw [units, ok_bind] at opened
  cases accepted : a.source.accepts inc with
  | false =>
    rw [terms_grow_of_refuses accepted] at opened
    exact alloc_refused hardened_of_filled shows pos hsize opened
  | true =>
    rw [terms_grow_of_accepts accepted, ok_bind] at opened
    have grown : (a.grown inc).memory.size = a.memory.size + inc := size_extend ..
    have reached : a.memory.size - wordSize + inc - s = t + inc := by
      rw [← room]
      omega
    rw [if_pos rfl]
    rcases alloc_opened hardened_of_filled shows pos hsize opened with ⟨b, answered, shows'⟩ |
      ⟨y, start, stop, free, hard, spoiled, -⟩
    · refine ⟨b, answered, ?_, ?_⟩
      · rw [sound.size, ← grown]
        exact shows'.high
      · rw [shows'.sound.layout, Gap.extents_cut fun y hy => by cases hy]
        rw [reached, List.append_nil]
    · -- The block that came about is none of those that were, so nobody can have written to it.
      obtain ⟨mem, -⟩ := dirty_of_not_filled hard spoiled
      refine absurd ⟨mem, free, ?_⟩ (none_suits y)
      have enough := le_of_wholeUnits units
      simp only [Extent.stop] at start stop
      omega

/-! ## What a success comes to -/

/-- `b` came from `a` by allocating the block `e`, and nothing became of the blocks that were
allocated before. -/
structure Supplied (a b : Allocator) (e : Extent) : Prop where
  /-- The heap passes an audit. -/
  passes : ∃ stats, b.audit = .ok stats
  /-- There is one more allocated block. -/
  taken : b.taken.Perm (e :: a.taken)
  /-- The payloads of the others hold what they held. -/
  kept : ∀ x ∈ a.taken, b.memory.bytesAt (payloadOf x.block) (x.size - wordSize)
    = a.memory.bytesAt (payloadOf x.block) (x.size - wordSize)

/-- An allocated block is named once. -/
theorem Sound.nodup_taken (sound : a.Sound es shelves filled) : a.taken.Nodup := by
  rw [Allocator.taken, sound.layout]
  exact (List.Nodup.of_map _ sound.arena.tiles.nodup).filter _

/-- A change after which one block more is live. -/
theorem Change.supplied (sound : a.Sound es shelves filled)
    (change : Change a b es none (some e) filled') : Supplied a b e := by
  obtain ⟨es', shelves', sound', live'⟩ := change.sound
  have fresh : e ∉ a.taken := fun mem =>
    change.fresh e rfl e (sound.mem_taken.mp mem) (Option.not_mem_none e) rfl
  refine ⟨⟨_, sound'.audit⟩, ?_, fun x hx => ?_⟩
  · refine (List.perm_ext_iff_of_nodup sound'.nodup_taken
      (List.nodup_cons.mpr ⟨fresh, sound.nodup_taken⟩)).mpr fun x => ?_
    rw [sound'.mem_taken, live' x, List.mem_cons, sound.mem_taken]
    simp [eq_comm]
  · have live := sound.mem_taken.mp hx
    exact bytesAt_congr fun j hj =>
      change.kept x live (Option.not_mem_none x) _ (Extent.span_payload hj)

/-- **A payload that was handed out is that of one block more.** -/
theorem alloc_supplies {q : Option Nat} (passes : a.audit = .ok stats) (pos : n ≠ 0)
    (answered : (alloc n).outcome a = .ok q b) :
    ∃ e, q = some (payloadOf e.block) ∧ Supplied a b e := by
  obtain ⟨es, shelves, sound⟩ := sound_filled passes
  rcases alloc_or_stops hardened_of_filled sound.shows pos with ⟨error, -, -, refused⟩ |
    ⟨e, b', o', -, answered', -, handed⟩ | ⟨x, -, -, -, stops⟩
  · rw [answered] at refused
    cases refused
  · rw [answered] at answered'
    cases answered'
    exact ⟨e, rfl, handed.supplied sound⟩
  · rw [answered] at stops
    cases stops

/-! ## How an allocation ends -/

/-- **An allocation grows the heap exactly when it has to, and by exactly what it has to.**  This
holds of every heap that passes an audit.

* If some free block is large enough, one such block is taken and the size of the heap stays, unless
  the heap is hardened and somebody wrote to the block, where it stops.
* If none is, with `t` the bytes that are free at the end, where `s` is the offset that they start
  at, the heap grows by what is missing there, or by a chunk if that is more, in whole units.  The
  block is allocated at `s`, and what is left over at the end is free if it can be a block.  It is
  refused if there is no such number of units, or the source does not have so many bytes.
* After any success there is one more allocated block, and all others are as they were. -/
theorem alloc_exact (passes : a.audit = .ok stats) (pos : n ≠ 0)
    (hsize : blockSizeFor n = .ok size) :
    ((∃ x, a.Suits size x) → ∃ x, a.Suits size x ∧
      ((∃ b, (alloc n).outcome a = .ok (some (payloadOf x.block)) b ∧ b.high = a.high) ∨
        a.hardened = true ∧ ¬ Poisoned a.memory x ∧
          (alloc n).outcome a = .fault (.dirtyBlock x.block))) ∧
    ((∀ x, ¬ a.Suits size x) →
      ∃ pre s t, a.layout = pre ++ gapBetween s (s + t) ∧ (∀ x ∈ pre.getLast?, x.allocated = true) ∧
        s + t = a.high - wordSize ∧ t < size ∧
        (wholeUnits (max (size - t) a.config.chunk) = .error .sizeOverflow →
          (alloc n).outcome a = .refused .sizeOverflow a) ∧
        ∀ inc, wholeUnits (max (size - t) a.config.chunk) = .ok inc →
          if a.source.accepts inc then
            ∃ b, (alloc n).outcome a = .ok (some (payloadOf s)) b ∧ b.high = a.high + inc ∧
              b.layout = pre ++ cutInto s (t + inc) size
          else (alloc n).outcome a = .refused (.outOfMemory inc) a) ∧
    ∀ q b, (alloc n).outcome a = .ok q b → ∃ e, q = some (payloadOf e.block) ∧ Supplied a b e :=
  ⟨alloc_found passes pos hsize, alloc_grown passes pos hsize,
    fun _ _ answered => alloc_supplies passes pos answered⟩

/-- There is a heap that ends in a free block of 48 bytes and grows by at least 80.  Its source
accepts that, but not 112. -/
theorem exists_trailing : ∃ a : Allocator, (∃ stats, a.audit = .ok stats) ∧
    a.layout = [⟨8, 32, true⟩, ⟨40, 48, false⟩] ∧ a.high = 96 ∧ a.hardened = false ∧
    a.config.chunk = 80 ∧ a.source.accepts 80 = true ∧ a.source.accepts 112 = false := by
  have truthful : (Source.buffer 192).Truthful :=
    Source.truthful_make (rfl : Source.make .buffer 192 = .ok (.buffer 192))
  obtain ⟨a, run, shows⟩ := exists_reaches [.alloc 1] truthful
    (rfl : (Allocator.create (.buffer 192) { chunk := 80 }).terms.init = .ok _) (by decide +kernel)
  have config := run.config truthful
  have accepts (n : Nat) : a.source.accepts n = a.terms.accepts n := rfl
  refine ⟨a, ⟨_, shows.sound.audit⟩, shows.sound.layout.trans (by decide +kernel),
    shows.high.trans (by decide +kernel), congrArg Config.hardened config,
    congrArg Config.chunk config, ?_, ?_⟩
  · rw [accepts, shows.terms]
    decide +kernel
  · rw [accepts, shows.terms]
    decide +kernel

/-- What fits into the free block at the end is allocated there.  For what does not fit, the heap
grows by a chunk, which is more than what is missing, and the block is allocated at the same place.
When the source has not enough, the heap stays as it is. -/
theorem alloc_exact_of_trailing :
    ∃ a : Allocator, a.layout = [⟨8, 32, true⟩, ⟨40, 48, false⟩] ∧ a.high = 96 ∧
      (∃ b e, (alloc 1).outcome a = .ok (some 48) b ∧ b.high = 96 ∧ Supplied a b e) ∧
      (∃ b e, (alloc 60).outcome a = .ok (some 48) b ∧ b.high = 176 ∧
        b.layout = [⟨8, 32, true⟩, ⟨40, 80, true⟩, ⟨120, 48, false⟩] ∧ Supplied a b e) ∧
      (alloc 140).outcome a = .refused (.outOfMemory 112) a := by
  obtain ⟨a, ⟨stats, passes⟩, layout, high, soft, chunk, accepts, refuses⟩ := exists_trailing
  have none_suits {size : Nat} (large : 48 < size) (x : Extent) : ¬ a.Suits size x := by
    rintro ⟨mem, free, fits⟩
    rw [layout] at mem
    simp only [List.mem_cons, List.not_mem_nil, or_false] at mem
    rcases mem with rfl | rfl
    · cases free
    · exact absurd fits (Nat.not_le.mpr large)
  have at_end {pre : List Extent} {s t : Nat} (split : a.layout = pre ++ gapBetween s (s + t))
      (last : ∀ x ∈ pre.getLast?, x.allocated = true) (reach : s + t = a.high - wordSize) :
      pre = [⟨8, 32, true⟩] ∧ s = 40 ∧ t = 48 := by
    have reach : s + t = 88 := by rw [reach, high, wordSize]
    have whole : a.layout = [⟨8, 32, true⟩] ++ gapBetween 40 88 := layout
    rw [reach, whole] at split
    obtain ⟨rfl, rfl⟩ := end_gap_unique split (by decide) (by omega) (by rintro _ ⟨⟩; rfl) last
    exact ⟨rfl, rfl, by omega⟩
  refine ⟨a, layout, high, ?_, ?_, ?_⟩
  · obtain ⟨found, -, supplies⟩ :=
      alloc_exact passes (show 1 ≠ 0 by decide) (show blockSizeFor 1 = .ok 32 from rfl)
    obtain ⟨x, ⟨mem, free, -⟩, served⟩ :=
      found ⟨⟨40, 48, false⟩, by simp [layout], rfl, by decide⟩
    obtain rfl : x = ⟨40, 48, false⟩ := by
      rw [layout] at mem
      simp only [List.mem_cons, List.not_mem_nil, or_false] at mem
      rcases mem with rfl | rfl
      · cases free
      · rfl
    rcases served with ⟨b, answered, same⟩ | ⟨hard, -⟩
    · obtain ⟨e, -, supplied⟩ := supplies _ b answered
      exact ⟨b, e, answered, same.trans high, supplied⟩
    · rw [soft] at hard
      cases hard
  · obtain ⟨-, grown, supplies⟩ :=
      alloc_exact passes (show 60 ≠ 0 by decide) (show blockSizeFor 60 = .ok 80 from rfl)
    obtain ⟨pre, s, t, split, last, reach, -, -, grows⟩ := grown (none_suits (by decide))
    obtain ⟨rfl, rfl, rfl⟩ := at_end split last reach
    have served := grows 80 (by rw [chunk]; rfl)
    rw [if_pos accepts] at served
    obtain ⟨b, answered, same, layout'⟩ := served
    obtain ⟨e, -, supplied⟩ := supplies _ b answered
    exact ⟨b, e, answered, by rw [same, high], layout', supplied⟩
  · obtain ⟨-, grown, -⟩ :=
      alloc_exact passes (show 140 ≠ 0 by decide) (show blockSizeFor 140 = .ok 160 from rfl)
    obtain ⟨pre, s, t, split, last, reach, -, -, grows⟩ := grown (none_suits (by decide))
    obtain ⟨rfl, rfl, rfl⟩ := at_end split last reach
    have refused := grows 112 (by rw [chunk]; rfl)
    rwa [refuses, if_neg Bool.false_ne_true] at refused

/-- A free block that is large enough does not always mean that an allocation succeeds: a hardened
heap stops when the block does not hold the pattern, which no audit looks at. -/
theorem alloc_at_suiting_block_fails :
    ¬ ∀ (a : Allocator) stats, a.audit = .ok stats → ∀ n size, n ≠ 0 → blockSizeFor n = .ok size →
      (∃ x, a.Suits size x) → ∃ p b, (alloc n).outcome a = .ok (some p) b ∧ b.high = a.high := by
  intro claim
  have layout : (spare true).layout = [⟨8, 48, false⟩] := by decide +kernel
  have whole : (spare true).Suits 32 ⟨8, 48, false⟩ :=
    ⟨by rw [layout]; exact List.mem_singleton_self _, rfl, by decide⟩
  obtain ⟨p, b, served, -⟩ :=
    claim (spare true) _ (audit_spare true) 8 32 (by decide) rfl ⟨_, whole⟩
  have stops : ((alloc 8).outcome (spare true)).hasValue = false := by decide +kernel
  rw [served] at stops
  cases stops

end Allocator

end TaggedHeap
