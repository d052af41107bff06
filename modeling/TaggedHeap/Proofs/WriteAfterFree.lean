import TaggedHeap.Proofs.BestFit
import TaggedHeap.Proofs.Runs

/-!
# Writes to free blocks

A hardened heap holds a pattern in its free blocks, between the links and the footer, and looks for
it before it hands one of them out.  So a caller who goes on to write to what was taken back is
found out when the block is used again, and not before.

* `Spoilt` says that bytes were changed inside of free blocks, and nowhere else.
* `Sound.spoil`: such a heap is sound but for the pattern, and consists of the same blocks.
* `alloc_of_find`: an allocation gets the block that the search finds, or stops because of what was
  written there.  What was written to other blocks does not matter, since taking a block writes only
  links.
* `write_after_free_found` puts these together for every run.
-/

namespace TaggedHeap

open Memory

variable {a b c j : Nat} {es : List Extent} {x y : Extent} {m m' : Memory}

/-! ## Inside of free blocks -/

/-- A byte of a free block between its links and its footer. -/
def Extent.Interior (x : Extent) (j : Nat) : Prop :=
  Span (poisonStart x.block) (x.stop - wordSize) j

/-- Such a byte belongs to no other block. -/
theorem Contiguous.owner_of_interior (tiles : Contiguous a es c) (hx : x ∈ es) (hy : y ∈ es)
    (inner : x.Interior j) (hj : Span y.block y.stop j) : y = x := by
  simp only [Extent.Interior, poisonStart, payloadOf, Extent.stop, wordSize] at inner hj
  rcases tiles.apart hy hx with same | before | after
  · exact same
  · simp only [Extent.stop] at before
    omega
  · simp only [Extent.stop] at after
    omega

/-- It is no part of a link. -/
theorem Contiguous.not_link_of_interior (tiles : Contiguous a es c) (hx : x ∈ es)
    (inner : x.Interior j) : ¬ FreeLinkByte es j := by
  rintro ⟨y, hy, -, link⟩
  have room : 32 ≤ y.size := (tiles.bounds hy).room
  have owner := tiles.owner_of_interior hx hy inner (by simp only [Extent.stop]; omega)
  subst owner
  simp only [Extent.Interior, poisonStart, payloadOf, wordSize] at inner
  omega

/-- It is no part of a tag. -/
theorem Contiguous.not_tag_of_interior (tiles : Contiguous a es c) (hx : x ∈ es) (hy : y ∈ es)
    (inner : x.Interior j) : ¬ y.TagByte j := by
  intro tag
  have room : 32 ≤ y.size := (tiles.bounds hy).room
  have own : Span y.block y.stop j := by
    simp only [Extent.TagByte, Extent.stop, wordSize] at tag ⊢
    omega
  have owner := tiles.owner_of_interior hx hy inner own
  subst owner
  simp only [Extent.TagByte, Extent.Interior, poisonStart, payloadOf, Extent.stop, wordSize]
    at tag inner
  omega

/-- Where only links are written, the pattern of a block stays, and does not come about. -/
theorem Contiguous.poisoned_iff (tiles : Contiguous a es c) (hx : x ∈ es)
    (frame : m.EqOff m' (FreeLinkByte es)) : Poisoned m' x ↔ Poisoned m x := by
  have same : ∀ j, x.Interior j → m'.byte j = m.byte j := fun j inner =>
    frame.byte j (tiles.not_link_of_interior hx inner)
  exact ⟨fun all j inner => (same j inner).symm.trans (all j inner),
    fun all j inner => (same j inner).trans (all j inner)⟩

namespace Allocator

variable {a b : Allocator} {shelves : Shelves} {filled : Extent → Prop} {o : Outline}
  {n size block : Nat} {S : Nat → Prop}

/-! ## Heaps that were written to -/

/-- The bytes in `S`, all of them inside of free blocks of a heap, were overwritten with others than
those of the pattern, and `m` is what the memory is then. -/
structure Spoilt (a : Allocator) (S : Nat → Prop) (m : Memory) : Prop where
  /-- They are inside of free blocks. -/
  inner : ∀ j, S j → ∃ x ∈ a.layout, x.allocated = false ∧ x.Interior j
  /-- All others are as they were. -/
  frame : a.memory.EqOff m S
  /-- They are not those of the pattern. -/
  value : ∀ j, S j → m.byte j ≠ poison

/-- **A heap with other bytes inside of its free blocks consists of the same blocks,** but nothing
is known of the pattern. -/
theorem Sound.spoil (sound : a.Sound es shelves filled) (spoilt : Spoilt a S m) :
    (a.withArena ⟨m, a.lists, a.starts⟩).Sound es shelves fun _ => False := by
  have tiles := sound.arena.tiles
  have inner : ∀ j, S j → ∃ x ∈ es, x.Interior j := by
    intro j hj
    obtain ⟨x, hx, -, inner⟩ := spoilt.inner j hj
    exact ⟨x, by rwa [sound.layout] at hx, inner⟩
  have tags : ∀ y ∈ es ++ [.epilogue (a.high - wordSize)], ∀ j, y.TagByte j →
      m.byte j = a.memory.byte j := by
    intro y hy j tag
    refine spoilt.frame.byte j fun hj => ?_
    obtain ⟨x, hx, inner⟩ := inner j hj
    rcases List.mem_append.mp hy with hy | hy
    · exact tiles.not_tag_of_interior hx hy inner tag
    · obtain rfl := List.mem_singleton.mp hy
      obtain ⟨-, -, -, -, stop, -⟩ := sound.bounds hx
      simp only [Extent.TagByte, Extent.epilogue, Extent.Interior, poisonStart, payloadOf,
        Extent.stop, wordSize, Bool.true_eq_false, false_and, or_false] at tag inner
      omega
  have room :
      ∀ y ∈ es ++ [.epilogue (a.high - wordSize)], wordSize ≤ y.size ∨ y.allocated = true := by
    intro y hy
    rcases List.mem_append.mp hy with hy | hy
    · have room := (tiles.bounds hy).room
      exact .inl (Nat.le_trans (by decide) room)
    · exact .inr (by rw [List.mem_singleton.mp hy]; rfl)
  have size := spoilt.frame.size
  have stocked : Stocked m a.lists es shelves := by
    refine sound.arena.toStocked.congr size.ge fun y hy _ j hj => spoilt.frame.byte j fun hS => ?_
    obtain ⟨x, hx, inner⟩ := inner j hS
    have room : 32 ≤ y.size := (tiles.bounds hy).room
    have owner := tiles.owner_of_interior hx hy inner (by simp only [Extent.stop]; omega)
    subst owner
    simp only [Extent.Interior, poisonStart, payloadOf, wordSize] at inner
    omega
  refine sound_withArena sound.ready sound.size size ⟨?_, sound.arena.marks⟩
  exact {
    toStocked := stocked
    inside := size ▸ sound.arena.inside
    bounded := size ▸ sound.arena.bounded
    tiles := tiles
    tagged := sound.arena.tagged.congr room tags
    poisoned := fun _ _ _ => False.elim
    coalesced := sound.arena.coalesced }

/-- It holds the pattern in those free blocks that were not written to. -/
theorem Spoilt.poisoned_iff (spoilt : Spoilt a S m) (poisoned : Poisoned a.memory x) :
    Poisoned m x ↔ ∀ j, S j → ¬ x.Interior j := by
  constructor
  · intro all j hj inner
    exact spoilt.value j hj (all j inner)
  · intro off j inner
    rw [spoilt.frame.byte j fun hj => off j hj inner]
    exact poisoned j inner

/-! ## Handing out what was written to -/

/-- **An allocation gets the block that the search finds,** or stops because somebody wrote to that
one. -/
theorem alloc_of_find (hard : a.hardened = true) (shows : a.Shows o fun _ => False) (pos : n ≠ 0)
    (hsize : blockSizeFor n = .ok size) (found : o.find size = some block) :
    ∃ x ∈ o.extents, x.allocated = false ∧ size ≤ x.size ∧ x.block = block ∧
      (Poisoned a.memory x → ∃ b, (alloc n).outcome a = .ok (some (payloadOf x.block)) b) ∧
      (¬ Poisoned a.memory x → (alloc n).outcome a = .fault (.dirtyBlock x.block)) := by
  obtain ⟨-, large, units⟩ := of_blockSizeFor hsize
  obtain ⟨x, pre, post, a', rfl, split, fits, -, taken, opened, frame⟩ :=
    takeBlock_found shows large found
  have hx : x ∈ o.extents := by simp [split]
  have pattern := shows.sound.arena.tiles.poisoned_iff hx frame
  have hardened : a'.hardened = true := (congrArg Config.hardened opened.config).trans hard
  obtain ⟨-, aligned, -, -, stop, inside⟩ := opened.around.gap
  refine ⟨x, hx, opened.vacant.free, fits, rfl, ?_⟩
  rw [alloc_eq shows.sound pos hsize, allocateBlock, Action.outcome_bind, taken, Outcome.bind_ok,
    ← pattern]
  rcases opened.vacant.requirePoison_cases a'.hardened (by omega) aligned with
    ⟨accepted, poisoned⟩ | ⟨-, dirty, stops⟩
  · refine ⟨fun _ => ?_, fun dirty => absurd (poisoned hardened) dirty⟩
    obtain ⟨x', b, answered, start, shows', -⟩ :=
      opened.allocate (fun _ h => h.elim) shows.sound.arena.marks large units fits accepted
    rw [start] at answered
    exact ⟨b, by rw [answered, Outcome.bind_ok, shows'.sound.verify, Outcome.bind_ok]⟩
  · refine ⟨fun poisoned => absurd poisoned dirty, fun _ => ?_⟩
    rw [opened.dirty fits stops]
    rfl

/-- **What is written to a free block of a hardened heap is found when the block is to be handed
out, and only then.**  After any run, whatever bytes are changed inside of free blocks, an
allocation that a free block is large enough for searches as if they were not changed.  It stops if
any of them is inside of the block that it finds, and says which block this is.  Otherwise it
answers the payload that it would have answered. -/
theorem write_after_free_found {a₀ : Allocator} {history : History} (truthful : a₀.source.Truthful)
    (hard : a₀.hardened = true) (run : Reaches a₀ history a) (spoilt : Spoilt a S m) (pos : n ≠ 0)
    (hsize : blockSizeFor n = .ok size) (suits : ∃ x, a.Suits size x) :
    ∃ x, a.Suits size x ∧
      a.lists.findBlock a.hardened a.memory a.config.fit size = .ok (some x.block) ∧
      a.lists.findBlock a.hardened m a.config.fit size = .ok (some x.block) ∧
      (∃ b, (alloc n).outcome a = .ok (some (payloadOf x.block)) b) ∧
      ((∃ j, S j ∧ x.Interior j) →
        (alloc n).outcome (a.withArena ⟨m, a.lists, a.starts⟩) = .fault (.dirtyBlock x.block) ∧
        (Fault.dirtyBlock x.block).message?
          = some ("free " ++ blockName x.block ++ " was written to after it was freed")) ∧
      ((∀ j, S j → ¬ x.Interior j) →
        ∃ b, (alloc n).outcome (a.withArena ⟨m, a.lists, a.starts⟩)
          = .ok (some (payloadOf x.block)) b) := by
  obtain ⟨es, shelves, sound, -⟩ := run.tracked truthful
  have hard : a.hardened = true := (congrArg Config.hardened (run.config truthful)).trans hard
  obtain ⟨-, large, -⟩ := of_blockSizeFor hsize
  obtain ⟨y, mem, free_y, fits_y⟩ := suits
  rw [sound.layout] at mem
  -- both heaps show one outline, and neither is known to hold the pattern
  have shows : a.Shows ⟨⟨es, shelves⟩, a.terms, a.starts⟩ fun _ => False :=
    (sound.refill fun _ _ _ => False.elim).shows
  have shows' : (a.withArena ⟨m, a.lists, a.starts⟩).Shows ⟨⟨es, shelves⟩, a.terms, a.starts⟩
      fun _ => False :=
    ⟨sound.spoil spoilt, terms_withArena spoilt.frame.size, rfl⟩
  obtain ⟨block, found⟩ := Option.isSome_iff_exists.mp (shows.find_isSome mem free_y fits_y)
  obtain ⟨x, hx, free, fits, rfl, served, -⟩ := alloc_of_find hard shows pos hsize found
  have hard' : (a.withArena ⟨m, a.lists, a.starts⟩).hardened = true := hard
  obtain ⟨x', hx', -, -, same, served', stops⟩ := alloc_of_find hard' shows' pos hsize found
  obtain rfl : x' = x := sound.arena.tiles.block_inj hx' hx same
  have poisoned : Poisoned a.memory x' := sound.arena.poisoned x' hx free hard
  have clean : Poisoned m x' ↔ _ := spoilt.poisoned_iff poisoned
  refine ⟨x', ⟨by rwa [sound.layout], free, fits⟩, ?_, ?_, served poisoned, ?_, ?_⟩
  · rw [shows.findBlock_eq large, found]
  · rw [← found]
    exact shows'.findBlock_eq large
  · rintro ⟨j, hj, inner⟩
    exact ⟨stops fun all => clean.mp all j hj inner, rfl⟩
  · exact fun off => served' (clean.mpr off)

/-- Of two free blocks the smaller one is written to.  What fits into it stops the heap, and what
fits only into the other one is served. -/
theorem write_after_free_found_of_two_blocks :
    ∃ a, Reaches (.create (.buffer 160) { chunk := 144, hardened := true })
        [(.alloc 30, .ok (.payload (some 16))), (.alloc 1, .ok (.payload (some 64))),
          (.free (some 16), .ok .done)] a ∧
      (alloc 8).outcome (a.withArena ⟨a.memory.setByte 40 0, a.lists, a.starts⟩)
        = .fault (.dirtyBlock 8) ∧
      ∃ b, (alloc 50).outcome (a.withArena ⟨a.memory.setByte 40 0, a.lists, a.starts⟩)
        = .ok (some 96) b := by
  have truthful : (Source.buffer 160).Truthful :=
    Source.truthful_make (rfl : Source.make .buffer 160 = .ok (.buffer 160))
  rcases init_cases (a := .create (.buffer 160) { chunk := 144, hardened := true })
    ((Nat.zero_add _).trans truthful) with
    ⟨error, -, refused, -⟩ | ⟨a₀, o, planned, answered, shows, -⟩
  · cases refused
  cases planned
  -- the run is followed on the outline, where it can be computed
  obtain ⟨a₁, first⟩ := served_live (r := .alloc 30) shows nofun
  obtain ⟨a₂, second⟩ := served_live (r := .alloc 1) first.shows nofun
  obtain ⟨a₃, third⟩ := served_live (r := .free (some 16)) second.shows (by
    rintro _ ⟨⟩
    exact ⟨⟨8, 48, true⟩, ⟨by decide +kernel, rfl⟩, rfl⟩)
  have run : Reaches _ [(.alloc 30, .ok (.payload (some 16))), (.alloc 1, .ok (.payload (some 64))),
      (.free (some 16), .ok .done)] a₃ :=
    (((Reaches.start answered).next first.answered).next second.answered).next third.answered
  have layout : a₃.layout = [⟨8, 48, false⟩, ⟨56, 32, true⟩, ⟨88, 64, false⟩] :=
    third.shows.sound.layout.trans (by decide +kernel)
  have size : a₃.memory.size = 160 := by
    rw [← third.shows.sound.size, third.shows.high]
    decide +kernel
  have spoilt : Spoilt a₃ (· = 40) (a₃.memory.setByte 40 0) := by
    refine ⟨?_, ⟨size_setByte .., fun j hj => ?_⟩, ?_⟩
    · rintro _ rfl
      exact ⟨⟨8, 48, false⟩, by simp [layout], rfl, by simp only [Extent.Interior]; decide⟩
    · rw [byte_setByte, if_neg fun same => hj same.1]
    · rintro _ rfl
      rw [byte_setByte, if_pos ⟨rfl, by rw [size]; decide⟩]
      decide
  refine ⟨a₃, run, ?_, ?_⟩
  · obtain ⟨x, ⟨mem, -⟩, found, -, -, stops, -⟩ :=
      write_after_free_found truthful rfl run spoilt (by decide) (rfl : blockSizeFor 8 = .ok 32)
        ⟨⟨8, 48, false⟩, by simp [layout], rfl, by decide⟩
    have start : x.block = 8 := by
      rw [third.shows.findBlock_eq (by decide)] at found
      exact Option.some.inj ((Except.ok.inj found).symm.trans (by decide +kernel))
    rw [layout] at mem
    obtain rfl : x = ⟨8, 48, false⟩ := by
      simp only [List.mem_cons, List.not_mem_nil, or_false] at mem
      rcases mem with rfl | rfl | rfl
      · rfl
      · cases start
      · cases start
    exact (stops ⟨40, rfl, by simp only [Extent.Interior]; decide⟩).1
  · obtain ⟨x, ⟨mem, free, fits⟩, -, -, -, -, served⟩ :=
      write_after_free_found truthful rfl run spoilt (by decide) (rfl : blockSizeFor 50 = .ok 64)
        ⟨⟨88, 64, false⟩, by simp [layout], rfl, by decide⟩
    rw [layout] at mem
    obtain rfl : x = ⟨88, 64, false⟩ := by
      simp only [List.mem_cons, List.not_mem_nil, or_false] at mem
      rcases mem with rfl | rfl | rfl
      · exact absurd fits (by decide)
      · cases free
      · rfl
    exact served (by rintro _ rfl; simp only [Extent.Interior]; decide)

end Allocator

end TaggedHeap
