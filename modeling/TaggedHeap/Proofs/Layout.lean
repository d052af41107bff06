import Mathlib.Data.List.Chain
import TaggedHeap.Proofs.Shelves
import TaggedHeap.Proofs.Starts

/-!
# Layouts

A layout is what a memory and its lists look like when all their parts fit together.  There are two
forms of it.

* `Tiled filled m lists high es shelves`: the extents `es` fill the heap up to its epilogue, the
  memory has their tags, no two free ones touch, and the shelves hold exactly the free ones.
* `Around filled m lists high pre lo hi post mark shelves`: the same, but for a gap `[lo, hi)`
  between `pre` and `post` of which nothing is said.  The header behind the gap says `mark` of what
  lies before it.

Every step of the arena starts by opening a gap and ends by closing it.  In between it may write in
the gap what it likes (`Around.write`), widen it over a free neighbour, or change the mark.  What
both forms say of the lists is in `Stocked`.

`filled` says which blocks have to hold the pattern while they are free.  No step needs it but the
one that hands a block out, and a hardened heap fills what it frees, so all that is ever assumed of
`filled` is that it asks for nothing where there are no self-checks.
-/

namespace TaggedHeap

open Memory

/-! ## Free blocks -/

/-- No two extents next to each other are both free. -/
abbrev Coalesced (es : List Extent) : Prop :=
  es.IsChain fun x y => x.allocated = true ∨ y.allocated = true

/-- The shelves hold the free ones of some extents, each in the class of its size. -/
def Filed (shelves : Shelves) (es : List Extent) : Prop :=
  ∀ c b, b ∈ shelves c ↔
    ∃ e ∈ es, e.allocated = false ∧ e.block = b ∧ SizeClass.of e.size = c

/-- A free block holds the pattern of a hardened heap. -/
def Poisoned (m : Memory) (e : Extent) : Prop :=
  ∀ j, Span (poisonStart e.block) (e.stop - wordSize) j → m.byte j = poison

/-- A byte belongs to the links of a free one of some extents. -/
def FreeLinkByte (es : List Extent) (j : Nat) : Prop :=
  ∃ e ∈ es, e.allocated = false ∧ LinkByte e.block j

/-- The memory has a free block where an extent says, behind a block in the state `prev`. -/
structure Vacant (filled : Extent → Prop) (m : Memory) (e : Extent) (prev : Bool) : Prop where
  /-- The extent is a free one. -/
  free : e.allocated = false
  /-- It is whole units long and has room for links. -/
  regular : e.Regular
  /-- Its header and its footer are there. -/
  tagged : e.Tagged m prev
  /-- So is its pattern, where there has to be one. -/
  poisoned : filled e → Poisoned m e

section Free

variable {filled : Extent → Prop} {m m' : Memory} {shelves : Shelves} {c : SizeClass} {prev : Bool}
  {es es' xs ys pre post : List Extent} {e x : Extent}

/-- What lies before the end of a list of extents is allocated if its last member is. -/
theorem lastAllocated_iff :
    lastAllocated true es = true ↔ ∀ x ∈ es.getLast?, x.allocated = true := by
  rcases List.eq_nil_or_concat es with rfl | ⟨xs, x, rfl⟩
  · simp
  · simp [lastAllocated]

/-- Around a free extent there have to be allocated ones. -/
theorem coalesced_middle_free (free : e.allocated = false) :
    Coalesced (pre ++ e :: post) ↔
      (Coalesced pre ∧ Coalesced post) ∧ (∀ x ∈ pre.getLast?, x.allocated = true) ∧
        ∀ y ∈ post.head?, y.allocated = true := by
  rw [Coalesced, List.isChain_append, List.isChain_cons]
  simp only [free, List.head?_cons, Option.mem_some_iff, forall_eq', or_false,
    Bool.false_eq_true, false_or]
  tauto

/-- The shelves do not depend on what is allocated. -/
theorem Filed.congr (h : Filed shelves es)
    (same : ∀ x, x.allocated = false → (x ∈ es' ↔ x ∈ es)) : Filed shelves es' := by
  intro c b
  rw [h c b]
  constructor <;> rintro ⟨x, hx, free, hb⟩
  · exact ⟨x, (same x free).mpr hx, free, hb⟩
  · exact ⟨x, (same x free).mp hx, free, hb⟩

/-- A free extent is added by putting its block on the shelf of its class. -/
theorem Filed.push (h : Filed shelves (pre ++ post)) (free : e.allocated = false)
    (hc : SizeClass.of e.size = c) : Filed (shelves.push c e.block) (pre ++ e :: post) := by
  intro d b
  rw [Shelves.mem_push, h d b]
  constructor
  · rintro (⟨rfl, rfl⟩ | ⟨x, hx, hfree, hb, hd⟩)
    · exact ⟨e, by simp, free, rfl, hc⟩
    · exact ⟨x, List.mem_append.mpr ((List.mem_append.mp hx).imp_right (List.mem_cons_of_mem _)),
        hfree, hb, hd⟩
  · rintro ⟨x, hx, hfree, rfl, rfl⟩
    rw [List.mem_append, List.mem_cons] at hx
    rcases hx with hx | rfl | hx
    · exact .inr ⟨x, List.mem_append_left _ hx, hfree, rfl, rfl⟩
    · exact .inl ⟨hc, rfl⟩
    · exact .inr ⟨x, List.mem_append_right _ hx, hfree, rfl, rfl⟩

/-- A free extent is taken out by taking its block off its shelf. -/
theorem Filed.drop (h : Filed shelves (pre ++ e :: post)) (hc : SizeClass.of e.size = c)
    (nodup : (shelves c).Nodup) (other : ∀ x ∈ pre ++ post, x.block ≠ e.block) :
    Filed (shelves.drop c e.block) (pre ++ post) := by
  intro d b
  rw [Shelves.mem_drop nodup, h d b]
  constructor
  · rintro ⟨⟨x, hx, hfree, rfl, rfl⟩, hne⟩
    rw [List.mem_append, List.mem_cons] at hx
    rcases hx with hx | rfl | hx
    · exact ⟨x, List.mem_append_left _ hx, hfree, rfl, rfl⟩
    · exact absurd ⟨hc, rfl⟩ hne
    · exact ⟨x, List.mem_append_right _ hx, hfree, rfl, rfl⟩
  · rintro ⟨x, hx, hfree, rfl, rfl⟩
    refine ⟨⟨x, ?_, hfree, rfl, rfl⟩, fun hxe => other x hx hxe.2⟩
    exact List.mem_append.mpr ((List.mem_append.mp hx).imp_right (List.mem_cons_of_mem _))

/-- The bytes of links on the shelves are those of the links of free blocks. -/
theorem Filed.linkByte (h : Filed shelves es) {j : Nat} (hj : shelves.LinkByte j) :
    FreeLinkByte es j := by
  obtain ⟨c, b, hb, hj⟩ := hj
  obtain ⟨e, he, free, rfl, -⟩ := (h c b).mp hb
  exact ⟨e, he, free, hj⟩

/-- The links of some free blocks are links of more of them. -/
theorem FreeLinkByte.mono {j : Nat} (hj : FreeLinkByte es j) (sub : ∀ x ∈ es, x ∈ es') :
    FreeLinkByte es' j := by
  obtain ⟨e, he, free, hj⟩ := hj
  exact ⟨e, sub e he, free, hj⟩

/-- A pattern is read from its bytes. -/
theorem Poisoned.congr (h : Poisoned m e)
    (same : ∀ j, Span (poisonStart e.block) (e.stop - wordSize) j → m'.byte j = m.byte j) :
    Poisoned m' e :=
  fun j hj => (same j hj).trans (h j hj)

/-- A vacant block stays one while its tags and its pattern do. -/
theorem Vacant.congr (h : Vacant filled m e prev)
    (same : ∀ j, Span e.block e.stop j → ¬ LinkByte e.block j → m'.byte j = m.byte j) :
    Vacant filled m' e prev := by
  have room : 32 ≤ e.size := h.regular.room
  refine { h with tagged := h.tagged.congr (.inl (by simp only [wordSize]; omega)) ?_,
                  poisoned := fun must => (h.poisoned must).congr ?_ }
  · intro j hj
    simp only [Extent.TagByte, Extent.stop, wordSize] at hj
    exact same j (by simp only [Extent.stop]; omega) (by omega)
  · intro j hj
    simp only [poisonStart, payloadOf, Extent.stop, wordSize] at hj
    exact same j (by simp only [Extent.stop]; omega) (by omega)

/-- A free block can be listed. -/
theorem Extent.Tagged.listable (tagged : e.Tagged m prev)
    (free : e.allocated = false) (regular : e.Regular) (inside : e.stop ≤ m.size)
    (bounded : m.size < wordBound) (aligned : e.block % alignment = firstBlock) :
    Listable m e.block ∧ sizeAt m e.block = e.size := by
  have room : 32 ≤ e.size := regular.room
  have decode := tagged.decode regular.units
  have size : sizeAt m e.block = e.size := by
    rw [sizeAt, decode]
    rfl
  simp only [firstBlock, Extent.stop, alignment] at inside aligned
  refine ⟨⟨by omega, by omega, by simp only [minBlockSize]; omega, ?_, ?_, ?_⟩, size⟩
  · rw [decode]
    exact free
  · rw [size]
    exact regular.room
  · simp only [payloadOf, wordSize, alignment]
    omega

end Free

/-! ## The two forms -/

/-- The lists are shelves, and these hold the free ones of some extents. -/
structure Stocked (m : Memory) (lists : FreeLists) (es : List Extent)
    (shelves : Shelves) : Prop where
  /-- The lists are the shelves. -/
  shelving : Shelving m lists shelves
  /-- The shelves hold the free extents. -/
  filed : Filed shelves es

/-- A memory that is a heap up to `high`, but for a gap between `lo` and `hi`. -/
structure Laid (filled : Extent → Prop) (m : Memory) (high : Nat) (pre : List Extent) (lo hi : Nat)
    (post : List Extent) (mark : Bool) : Prop where
  /-- The heap lies inside the memory. -/
  inside : high ≤ m.size
  /-- Every offset is a word. -/
  bounded : m.size < wordBound
  /-- Extents reach from the padding to the gap. -/
  before : Contiguous firstBlock pre lo
  /-- Extents reach from the gap to the epilogue. -/
  after : Contiguous hi post (high - wordSize)
  /-- The gap does not end before it starts. -/
  ordered : lo ≤ hi
  /-- The gap ends where a block can start. -/
  aligned : hi % alignment = firstBlock
  /-- The tags before the gap are there. -/
  front : Tagged m true pre
  /-- So are those behind it, the first of which says `mark` of what lies before it. -/
  back : Tagged m mark (post ++ [.epilogue (high - wordSize)])
  /-- The free extents hold their pattern, where they have to. -/
  poisoned : ∀ e ∈ pre ++ post, e.allocated = false → filled e → Poisoned m e
  /-- No two free ones before the gap touch. -/
  left : Coalesced pre
  /-- No two free ones behind the gap touch. -/
  right : Coalesced post

/-- A heap up to `high` of which nothing is said between `lo` and `hi`. -/
structure Around (filled : Extent → Prop) (m : Memory) (lists : FreeLists) (high : Nat)
    (pre : List Extent) (lo hi : Nat) (post : List Extent) (mark : Bool) (shelves : Shelves) : Prop
    extends Laid filled m high pre lo hi post mark,
      Stocked m lists (pre ++ post) shelves

/-- A heap up to `high` that consists of the extents `es`. -/
structure Tiled (filled : Extent → Prop) (m : Memory) (lists : FreeLists) (high : Nat)
    (es : List Extent) (shelves : Shelves) : Prop extends Stocked m lists es shelves where
  /-- The heap lies inside the memory. -/
  inside : high ≤ m.size
  /-- Every offset is a word. -/
  bounded : m.size < wordBound
  /-- The extents reach from the padding to the epilogue. -/
  tiles : Contiguous firstBlock es (high - wordSize)
  /-- Their tags are there, and so is the epilogue. -/
  tagged : Tagged m true (es ++ [.epilogue (high - wordSize)])
  /-- The free ones hold their pattern, where they have to. -/
  poisoned : ∀ e ∈ es, e.allocated = false → filled e → Poisoned m e
  /-- No two free ones touch. -/
  coalesced : Coalesced es

/-- An arena up to `high` that consists of the extents `es`: its memory and its lists are tiled, and
its start set names the live blocks. -/
structure Arena.Sound (filled : Extent → Prop) (arena : Arena) (high : Nat) (es : List Extent)
    (shelves : Shelves) : Prop
    extends Tiled filled arena.memory arena.lists high es shelves where
  /-- The start set names the live blocks. -/
  marks : Marks arena.starts es

/-! ## Where things lie -/

section Geometry

variable {filled : Extent → Prop} {m m' : Memory} {high lo hi : Nat} {pre post : List Extent}
  {mark : Bool} {e x y : Extent} {j : Nat}

/-- Where an extent outside the gap lies. -/
theorem Laid.outside (h : Laid filled m high pre lo hi post mark) (hx : x ∈ pre ++ post) :
    8 ≤ x.block ∧ x.block + x.size + 8 ≤ high ∧ 32 ≤ x.size ∧ x.size % 16 = 0 ∧
      x.block % 16 = 8 ∧ (x.block + x.size ≤ lo ∨ hi ≤ x.block) := by
  have ordered := h.ordered
  have aligned : hi % 16 = 8 := h.aligned
  have start : 8 ≤ lo := h.before.le
  have stop : hi ≤ high - 8 := h.after.le
  rcases List.mem_append.mp hx with hx | hx
  · obtain ⟨h₁, h₂, h₃, h₄, h₅⟩ := h.before.bounds hx
    simp only [firstBlock, minBlockSize, alignment] at h₁ h₂ h₃ h₄ h₅
    omega
  · obtain ⟨h₁, h₂, h₃, h₄, h₅⟩ := h.after.bounds hx
    simp only [wordSize, minBlockSize, alignment] at h₁ h₂ h₃ h₄ h₅
    omega

/-- The gap lies between the padding and the epilogue. -/
theorem Laid.gap (h : Laid filled m high pre lo hi post mark) :
    8 ≤ lo ∧ lo % 16 = 8 ∧ lo ≤ hi ∧ hi % 16 = 8 ∧ hi + 8 ≤ high ∧ high ≤ m.size := by
  have start : 8 ≤ lo := h.before.le
  have stop : hi ≤ high - 8 := h.after.le
  have units : lo % 16 = 8 := h.before.stop_mod
  have aligned : hi % 16 = 8 := h.aligned
  have ordered := h.ordered
  have inside := h.inside
  omega

/-- Two extents outside the gap are the same or do not touch each other's bytes. -/
theorem Laid.apart (h : Laid filled m high pre lo hi post mark) (hx : x ∈ pre ++ post)
    (hy : y ∈ pre ++ post) :
    x = y ∨ x.block + x.size ≤ y.block ∨ y.block + y.size ≤ x.block := by
  have ordered := h.ordered
  rcases List.mem_append.mp hx with hx | hx <;> rcases List.mem_append.mp hy with hy | hy
  · exact h.before.apart hx hy
  · have stop := (h.before.bounds hx).stop
    have start := (h.after.bounds hy).start
    omega
  · have start := (h.after.bounds hx).start
    have stop := (h.before.bounds hy).stop
    omega
  · exact h.after.apart hx hy

/-- A byte belongs to one extent at most. -/
theorem Laid.owner (h : Laid filled m high pre lo hi post mark) (hx : x ∈ pre ++ post)
    (hy : y ∈ pre ++ post) (hjx : Span x.block x.stop j) (hjy : Span y.block y.stop j) : x = y := by
  simp only [Extent.stop] at hjx hjy
  rcases h.apart hx hy with same | before | behind
  · exact same
  · omega
  · omega

/-- A byte of a link outside the gap belongs to the middle of a free block there, and to nothing
else. -/
theorem Laid.link_apart (h : Laid filled m high pre lo hi post mark)
    (hj : FreeLinkByte (pre ++ post) j) (hx : x ∈ pre ++ post) :
    (j < x.block ∨ x.block + x.size ≤ j) ∨
      x.allocated = false ∧ x.block + 8 ≤ j ∧ j < x.block + 24 ∧
        x.block + 32 ≤ x.block + x.size := by
  obtain ⟨e, he, free, hj⟩ := hj
  obtain ⟨-, -, room, -⟩ := h.outside he
  rcases h.apart he hx with rfl | before | after
  · exact .inr ⟨free, by omega, by omega, by omega⟩
  · exact .inl (.inl (by omega))
  · exact .inl (.inr (by omega))

end Geometry

/-! ## Payloads -/

/-- Two memories have the same size, and the same bytes in the payloads of the live ones of some
extents. -/
structure SamePayloads (es : List Extent) (m m' : Memory) : Prop where
  /-- No byte came or went. -/
  size : m'.size = m.size
  /-- What a payload holds is as it was. -/
  byte : ∀ e, Live es e → ∀ j, Span (payloadOf e.block) e.stop j → m'.byte j = m.byte j

section Payloads

variable {m m' m'' : Memory} {es es' : List Extent} {P : Nat → Prop}

/-- Payloads are the same as they are. -/
theorem SamePayloads.refl (es : List Extent) (m : Memory) : SamePayloads es m m :=
  ⟨rfl, fun _ _ _ _ => rfl⟩

/-- Payloads are the same after two steps if they are after each. -/
theorem SamePayloads.trans (h : SamePayloads es m m') (h' : SamePayloads es m' m'') :
    SamePayloads es m m'' :=
  ⟨h'.size.trans h.size, fun e he j hj => (h'.byte e he j hj).trans (h.byte e he j hj)⟩

/-- Payloads that are the same are so for fewer extents. -/
theorem SamePayloads.mono (h : SamePayloads es m m') (sub : ∀ x, Live es' x → Live es x) :
    SamePayloads es' m m' :=
  ⟨h.size, fun e he => h.byte e (sub e he)⟩

/-- A step that writes to no payload leaves payloads as they are. -/
theorem Memory.EqOff.samePayloads (h : m.EqOff m' P)
    (off : ∀ e, Live es e → ∀ j, Span (payloadOf e.block) e.stop j → ¬ P j) :
    SamePayloads es m m' :=
  ⟨h.size, fun e he j hj => h.byte j (off e he j hj)⟩

end Payloads

/-! ## Writing around and inside the gap -/

section Writing

variable {filled : Extent → Prop} {m m' : Memory} {lists : FreeLists} {high lo hi : Nat}
  {pre post : List Extent} {mark mark' : Bool} {shelves : Shelves} {e x y : Extent} {j : Nat}
  {P : Nat → Prop}

/-- A layout is read from the tags and the patterns outside the gap. -/
theorem Laid.congr (h : Laid filled m high pre lo hi post mark) (inside : high ≤ m'.size)
    (bounded : m'.size < wordBound)
    (same : ∀ j, (j < lo ∨ hi ≤ j) → j < high →
      (∀ x ∈ pre ++ post, Span x.block x.stop j → x.TagByte j ∨
        x.allocated = false ∧ Span (poisonStart x.block) (x.stop - wordSize) j) →
      m'.byte j = m.byte j) :
    Laid filled m' high pre lo hi post mark := by
  have own : ∀ x ∈ pre ++ post, ∀ j, Span x.block x.stop j → (x.TagByte j ∨
      x.allocated = false ∧ Span (poisonStart x.block) (x.stop - wordSize) j) →
      m'.byte j = m.byte j := by
    intro x hx j hspan hj
    have off := h.outside hx
    refine same j ?_ ?_ ?_
    · simp only [Extent.stop] at hspan
      omega
    · simp only [Extent.stop] at hspan
      omega
    · intro y hy hjy
      obtain rfl := h.owner hx hy hspan hjy
      exact hj
  have tags : ∀ x ∈ pre ++ post, ∀ j, x.TagByte j → m'.byte j = m.byte j := by
    intro x hx j hj
    obtain ⟨-, -, room, -⟩ := h.outside hx
    apply own x hx j ?_ (.inl hj)
    simp only [Extent.TagByte, Extent.stop, wordSize] at hj ⊢
    omega
  have room : ∀ x ∈ pre ++ post, wordSize ≤ x.size ∨ x.allocated = true := fun x hx => by
    obtain ⟨-, -, room, -⟩ := h.outside hx
    exact .inl (by simp only [wordSize]; omega)
  have poison : ∀ x ∈ pre ++ post, x.allocated = false →
      ∀ j, Span (poisonStart x.block) (x.stop - wordSize) j → m'.byte j = m.byte j := by
    intro x hx free j hj
    apply own x hx j ?_ (.inr ⟨free, hj⟩)
    simp only [poisonStart, payloadOf, Extent.stop, wordSize] at hj ⊢
    omega
  have epilogue : ∀ j, high - 8 ≤ j → j < high → m'.byte j = m.byte j := by
    intro j hj hj'
    have := h.gap
    apply same j (by omega) hj'
    intro y hy hjy
    obtain ⟨-, stop, -⟩ := h.outside hy
    simp only [Extent.stop] at hjy
    omega
  have inside_epilogue := h.gap
  refine { h with inside, bounded, front := ?_, back := ?_, poisoned := ?_ }
  · exact h.front.congr (fun x hx => room x (List.mem_append_left _ hx))
      fun x hx => tags x (List.mem_append_left _ hx)
  · refine h.back.congr (?_) ?_
    · intro x hx
      rcases List.mem_append.mp hx with hx | hx
      · exact room x (List.mem_append_right _ hx)
      · exact .inr (by rw [List.mem_singleton.mp hx]; rfl)
    · intro x hx j hj
      rcases List.mem_append.mp hx with hx | hx
      · exact tags x (List.mem_append_right _ hx) j hj
      · obtain rfl := List.mem_singleton.mp hx
        refine epilogue j ?_ ?_ <;>
          simp only [Extent.TagByte, Extent.epilogue, wordSize, Bool.true_eq_false, false_and,
            or_false] at hj <;> omega
  · intro x hx free must
    exact (h.poisoned x hx free must).congr (poison x hx free)

/-- In the gap anything may be written. -/
theorem Laid.write (h : Laid filled m high pre lo hi post mark)
    (frame : m.EqOff m' (Span lo hi)) : Laid filled m' high pre lo hi post mark := by
  refine h.congr ?_ ?_ fun j hj _ _ => frame.byte j (by omega)
  · rw [frame.size]
    exact h.inside
  · rw [frame.size]
    exact h.bounded

/-- What is written in the gap reaches no payload outside of it. -/
theorem Laid.samePayloads_of_write (h : Laid filled m high pre lo hi post mark)
    (frame : m.EqOff m' (Span lo hi)) : SamePayloads (pre ++ post) m m' := by
  apply frame.samePayloads
  intro e he j hj
  have := h.outside he.1
  simp only [payloadOf, Extent.stop, wordSize] at hj
  omega

/-- Links may be written. -/
theorem Laid.links (h : Laid filled m high pre lo hi post mark)
    (frame : m.EqOff m' (FreeLinkByte (pre ++ post))) :
    Laid filled m' high pre lo hi post mark := by
  refine h.congr ?_ ?_ fun j _ _ hj => frame.byte j ?_
  · rw [frame.size]
    exact h.inside
  · rw [frame.size]
    exact h.bounded
  · intro hlink
    obtain ⟨e, he, free, hlink⟩ := hlink
    have room := (h.outside he).2.2.1
    have hspan : Span e.block e.stop j := by
      simp only [Extent.stop]
      omega
    have hj := hj e he hspan
    simp only [Extent.TagByte, poisonStart, payloadOf, Extent.stop, wordSize] at hj
    omega

/-- Links belong to no payload. -/
theorem Laid.samePayloads_of_links (h : Laid filled m high pre lo hi post mark)
    (frame : m.EqOff m' (FreeLinkByte (pre ++ post))) : SamePayloads (pre ++ post) m m' := by
  apply frame.samePayloads
  intro e he j hj hlink
  simp only [payloadOf, Extent.stop, wordSize] at hj
  rcases h.link_apart hlink he.1 with apart | ⟨free, -⟩
  · omega
  · rw [he.2] at free
    cases free

/-- Links outside the gap are not in it. -/
theorem Laid.not_link_of_gap (h : Laid filled m high pre lo hi post mark)
    (hj : Span lo hi j) : ¬ FreeLinkByte (pre ++ post) j := by
  rintro ⟨e, he, free, hlink⟩
  have := h.outside he
  omega

/-- The lists are read from the headers and links of the free blocks. -/
theorem Stocked.congr {es : List Extent} (h : Stocked m lists es shelves)
    (size : m.size ≤ m'.size)
    (same : ∀ x ∈ es, x.allocated = false → ∀ j, Span x.block (x.block + 24) j →
      m'.byte j = m.byte j) : Stocked m' lists es shelves where
  shelving := h.shelving.congr size fun c b hb j hj => by
    obtain ⟨x, hx, free, rfl, -⟩ := (h.filed c b).mp hb
    exact same x hx free j hj
  filed := h.filed

/-- In the gap anything may be written. -/
theorem Around.write (h : Around filled m lists high pre lo hi post mark shelves)
    (frame : m.EqOff m' (Span lo hi)) :
    Around filled m' lists high pre lo hi post mark shelves where
  toLaid := h.toLaid.write frame
  toStocked := h.toStocked.congr (Nat.le_of_eq frame.size.symm) fun x hx _ j hj => by
    have := h.outside hx
    exact frame.byte j (by omega)

end Writing

end TaggedHeap
