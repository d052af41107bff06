import TaggedHeap.FreeLists
import TaggedHeap.Proofs.Access
import TaggedHeap.Proofs.Tiling

/-!
# Threads through the free blocks

The twelve free lists are heads outside the heap and links inside of it.  What they stand for is a
plain list of offsets for each class, here called shelves; `Threaded` says that heads and links
spell out given shelves, and that what stands on them are blocks whose links can be used.

* `Linked m prev l next` is one stretch of a list: its members' links name their neighbours, and
  `prev` and `next` are what lies before and behind it.  Stretches split (`linked_append`), survive
  writes elsewhere (`Linked.congr`), and can be tied to another neighbour at either end
  (`Linked.reprev`, `Linked.renext`).
* `header_of_links` and `links_of_links`: what stays when links are written, for both steps below.
* `Threaded.insert`: a block that is put in a list comes to stand at the front of its shelf.
* `Threaded.remove`: a block that is taken out is erased from its shelf, wherever it stood.

Nothing here asks where the blocks lie, beyond that none of them reaches into the links of another.
-/

namespace TaggedHeap

open Memory

/-! ## Blocks that can be linked -/

/-- The size in a block's header. -/
def sizeAt (m : Memory) (block : Nat) : Nat := (Header.decode (m.word block)).size

/-- The bytes from one offset on have room for a smallest block that leaves the other's alone. -/
abbrev Apart (x y : Nat) : Prop := x + 32 ≤ y ∨ y + 32 ≤ x

/-- The bytes of a block's two links. -/
abbrev LinkByte (block j : Nat) : Prop := block + 8 ≤ j ∧ j < block + 24

/-- A block whose links can be used: a free one with room for them. -/
structure Linkable (hardened : Bool) (m : Memory) (block : Nat) : Prop where
  /-- No link to it looks like none. -/
  pos : block ≠ 0
  /-- A link to it is a word. -/
  isWord : block < wordBound
  /-- Its links lie inside the memory. -/
  inside : block + 24 ≤ m.size
  /-- Its header says that it is free. -/
  free : (Header.decode (m.word block)).allocated = false
  /-- Its header says that it has room for links. -/
  room : minBlockSize ≤ sizeAt m block
  /-- Its payload is aligned, if anyone looks. -/
  aligned : hardened = true → payloadOf block % alignment = 0

/-- The words at the front of a free block: its header and its two links. -/
inductive FrontWord (block : Nat) : Nat → Prop where
  /-- The header. -/
  | header : FrontWord block block
  /-- The link to the next block. -/
  | next : FrontWord block (nextSlot block)
  /-- The link to the previous one. -/
  | prev : FrontWord block (prevSlot block)

/-- Leaving each other alone goes both ways. -/
theorem Apart.symm {x y : Nat} (h : Apart x y) : Apart y x := Or.symm h

/-- No word at the front of a block lies in one of another. -/
theorem Apart.words {x y i j : Nat} (h : Apart x y) (hi : FrontWord x i) (hj : FrontWord y j) :
    i + wordSize ≤ j ∨ j + wordSize ≤ i := by
  cases hi <;> cases hj <;> simp only [nextSlot, prevSlot, payloadOf, wordSize] <;> omega

/-- The links of a block lie apart from the header of any other, and from its own. -/
theorem not_linkByte_of_head {x y j : Nat} (h : x = y ∨ Apart x y) (hj : Span x (x + 8) j) :
    ¬ LinkByte y j := by
  omega

/-- The links of a block lie apart from header and links of any other. -/
theorem not_linkByte_of_apart {x y j : Nat} (h : Apart x y) (hj : Span x (x + 24) j) :
    ¬ LinkByte y j := by
  omega

section Linkable

variable {hardened : Bool} {m m' : Memory} {block : Nat} {target : Option Nat}

/-- Whether a block can be linked depends on its header alone. -/
theorem Linkable.congr (h : Linkable hardened m block) (size : m.size ≤ m'.size)
    (word : m'.word block = m.word block) : Linkable hardened m' block where
  pos := h.pos
  isWord := h.isWord
  inside := Nat.le_trans h.inside size
  free := by
    rw [word]
    exact h.free
  room := by
    rw [sizeAt, word]
    exact h.room
  aligned := h.aligned

/-- The words at the front of a block that can be linked lie inside the memory. -/
theorem Linkable.inside_of_frontWord (h : Linkable hardened m block) {i : Nat}
    (hi : FrontWord block i) : i + wordSize ≤ m.size := by
  have inside := h.inside
  cases hi <;> simp only [nextSlot, prevSlot, payloadOf, wordSize] <;> omega

/-- The header of a block that can be linked is read. -/
theorem Linkable.header (h : Linkable hardened m block) :
    m.header block = .ok (Header.decode (m.word block)) :=
  header_of_le (h.inside_of_frontWord .header)

/-- A block that can be linked has links. -/
theorem Linkable.requireLinks (h : Linkable hardened m block) : m.requireLinks block = .ok () := by
  rw [Memory.requireLinks, h.header, ok_bind]
  exact require_of (by rw [h.free]; rfl)

/-- The links of a block that can be linked may be used. -/
theorem Linkable.requireLinkable (h : Linkable hardened m block) :
    m.requireLinkable hardened block = .ok () := by
  rw [Memory.requireLinkable]
  split
  next hard =>
    rw [h.header, ok_bind, require_of (by rw [h.free]; rfl), ok_bind, requireAligned]
    exact require_hardened fun _ => beq_iff_eq.mpr (h.aligned hard)
  next => rfl

/-- The class of a block that can be linked goes by its size. -/
theorem Linkable.classOfBlock (h : Linkable hardened m block) :
    FreeLists.classOfBlock hardened m block = .ok (SizeClass.of (sizeAt m block)) := by
  rw [FreeLists.classOfBlock, h.header, ok_bind, ← sizeAt,
    require_hardened fun _ => decide_eq_true h.room]
  rfl

/-- The link to the next block is written. -/
theorem Linkable.putNextLink (h : Linkable hardened m block) :
    m.putNextLink hardened block target = .ok (m.putWord (nextSlot block) (target.getD 0)) := by
  rw [Memory.putNextLink, Memory.putLink, h.requireLinkable, ok_bind]
  exact writeWord_of_le (h.inside_of_frontWord .next)

/-- The link to the previous block is written. -/
theorem Linkable.putPrevLink (h : Linkable hardened m block) :
    m.putPrevLink hardened block target = .ok (m.putWord (prevSlot block) (target.getD 0)) := by
  rw [Memory.putPrevLink, Memory.putLink, h.requireLinkable, ok_bind]
  exact writeWord_of_le (h.inside_of_frontWord .prev)

/-- A link that names a block, or none, is read as what it names. -/
theorem Linkable.link (h : Linkable hardened m block) {slot : Nat} (hs : FrontWord block slot)
    (word : m.word slot = target.getD 0) (pos : ∀ x ∈ target, x ≠ 0) :
    Memory.link hardened m block slot = .ok target := by
  rw [Memory.link, h.requireLinkable, ok_bind, readWord_of_le (h.inside_of_frontWord hs), ok_bind,
    word]
  cases target with
  | none => rfl
  | some x => simp [pos x rfl]

/-- The link to the next block is read. -/
theorem Linkable.nextLink (h : Linkable hardened m block)
    (word : m.word (nextSlot block) = target.getD 0) (pos : ∀ x ∈ target, x ≠ 0) :
    m.nextLink hardened block = .ok target :=
  h.link .next word pos

/-- The link to the previous block is read. -/
theorem Linkable.prevLink (h : Linkable hardened m block)
    (word : m.word (prevSlot block) = target.getD 0) (pos : ∀ x ∈ target, x ≠ 0) :
    m.prevLink hardened block = .ok target :=
  h.link .prev word pos

end Linkable

/-! ## Stretches of a list -/

/-- The links of some blocks name each other in order.  Before them comes `prev` and behind them
`next`. -/
def Linked (m : Memory) : (prev : Option Nat) → List Nat → (next : Option Nat) → Prop
  | _, [], _ => True
  | prev, b :: rest, next =>
    m.word (nextSlot b) = (rest.head?.or next).getD 0 ∧ m.word (prevSlot b) = prev.getD 0 ∧
      Linked m (some b) rest next

section Linked

variable {m m' : Memory} {prev next prev' next' : Option Nat} {b : Nat} {l xs ys : List Nat}

/-- A stretch in two parts. -/
theorem linked_append :
    Linked m prev (xs ++ ys) next ↔
      Linked m prev xs (ys.head?.or next) ∧ Linked m (xs.getLast?.or prev) ys next := by
  induction xs generalizing prev with
  | nil => simp [Linked]
  | cons x xs ih =>
    cases xs with
    | nil => simp [Linked, and_assoc]
    | cons y xs =>
      have hlast : (x :: y :: xs).getLast?.or prev = (y :: xs).getLast?.or (some x) := by
        simp [List.getLast?_cons]
      rw [hlast]
      simp only [List.cons_append, Linked, List.head?_cons, Option.some_or, and_assoc] at ih ⊢
      rw [ih]

/-- A stretch is read from the links of its members. -/
theorem Linked.congr (h : Linked m prev l next)
    (same : ∀ x ∈ l, m'.word (nextSlot x) = m.word (nextSlot x) ∧
      m'.word (prevSlot x) = m.word (prevSlot x)) : Linked m' prev l next := by
  induction l generalizing prev with
  | nil => trivial
  | cons b rest ih =>
    obtain ⟨hnext, hprev, hrest⟩ := h
    obtain ⟨same_next, same_prev⟩ := same b List.mem_cons_self
    exact ⟨same_next.trans hnext, same_prev.trans hprev,
      ih hrest fun x hx => same x (List.mem_cons_of_mem _ hx)⟩

/-- A stretch is tied to another block before it. -/
theorem Linked.reprev (h : Linked m prev l next)
    (first : ∀ b ∈ l.head?, m'.word (nextSlot b) = m.word (nextSlot b) ∧
      m'.word (prevSlot b) = prev'.getD 0)
    (same : ∀ x ∈ l.tail, m'.word (nextSlot x) = m.word (nextSlot x) ∧
      m'.word (prevSlot x) = m.word (prevSlot x)) : Linked m' prev' l next := by
  cases l with
  | nil => trivial
  | cons b rest =>
    obtain ⟨hnext, -, hrest⟩ := h
    obtain ⟨same_next, new_prev⟩ := first b rfl
    exact ⟨same_next.trans hnext, new_prev, hrest.congr same⟩

/-- A stretch is tied to another block behind it. -/
theorem Linked.renext (h : Linked m prev l next)
    (last : ∀ b ∈ l.getLast?, m'.word (nextSlot b) = next'.getD 0 ∧
      m'.word (prevSlot b) = m.word (prevSlot b))
    (same : ∀ x ∈ l.dropLast, m'.word (nextSlot x) = m.word (nextSlot x) ∧
      m'.word (prevSlot x) = m.word (prevSlot x)) : Linked m' prev l next' := by
  rcases List.eq_nil_or_concat l with rfl | ⟨xs, b, rfl⟩
  · trivial
  · simp only [List.concat_eq_append, List.getLast?_append, List.getLast?_singleton,
      Option.some_or, Option.mem_def, Option.some.injEq, forall_eq', List.dropLast_concat]
      at h last same ⊢
    obtain ⟨hxs, -, hprev, -⟩ := linked_append.mp h
    refine linked_append.mpr ⟨?_, ?_, last.2.trans hprev, trivial⟩
    · exact hxs.congr same
    · exact last.1

end Linked

/-! ## Shelves -/

/-- The blocks of each list, in order. -/
abbrev Shelves : Type := SizeClass → List Nat

namespace Shelves

/-- Replaces one shelf. -/
def set (shelves : Shelves) (c : SizeClass) (blocks : List Nat) : Shelves :=
  fun d => if d = c then blocks else shelves d

/-- Puts a block in front of a shelf. -/
def push (shelves : Shelves) (c : SizeClass) (block : Nat) : Shelves :=
  shelves.set c (block :: shelves c)

/-- Takes a block off a shelf. -/
def drop (shelves : Shelves) (c : SizeClass) (block : Nat) : Shelves :=
  shelves.set c ((shelves c).erase block)

/-- No blocks on any shelf. -/
def empty : Shelves := fun _ => []

@[simp] theorem set_self (shelves : Shelves) (c : SizeClass) (blocks : List Nat) :
    shelves.set c blocks c = blocks := if_pos rfl

theorem set_of_ne (shelves : Shelves) {c d : SizeClass} (blocks : List Nat) (h : d ≠ c) :
    shelves.set c blocks d = shelves d := if_neg h

/-- What holds of the new shelf and of all the others holds of every shelf. -/
theorem forall_set {P : SizeClass → List Nat → Prop} {shelves : Shelves} {c : SizeClass}
    {blocks : List Nat} (own : P c blocks) (other : ∀ d, d ≠ c → P d (shelves d)) (d : SizeClass) :
    P d (shelves.set c blocks d) := by
  by_cases h : d = c
  · subst h
    rw [set_self]
    exact own
  · rw [set_of_ne _ _ h]
    exact other d h

/-- What stands on the shelves after a block was put on one. -/
theorem mem_push {shelves : Shelves} {c d : SizeClass} {block b : Nat} :
    b ∈ shelves.push c block d ↔ d = c ∧ b = block ∨ b ∈ shelves d := by
  by_cases h : d = c
  · subst h
    simp [push]
  · simp [push, set_of_ne _ _ h, h]

/-- What holds of any two blocks on the shelves, and of a new one and each of them, holds of any two
after the new one was put on a shelf. -/
theorem pairwise_push {R : Nat → Nat → Prop} {shelves : Shelves} {c : SizeClass} {block : Nat}
    (old : ∀ d d' x y, x ∈ shelves d → y ∈ shelves d' → x ≠ y → R x y)
    (symm : ∀ x y, R x y → R y x) (new : ∀ d, ∀ x ∈ shelves d, R block x) (d d' : SizeClass)
    (x y : Nat) (hx : x ∈ shelves.push c block d) (hy : y ∈ shelves.push c block d') (hne : x ≠ y) :
    R x y := by
  rcases mem_push.mp hx with ⟨-, rfl⟩ | hx' <;> rcases mem_push.mp hy with ⟨-, rfl⟩ | hy'
  · exact absurd rfl hne
  · exact new d' y hy'
  · exact symm _ _ (new d x hx')
  · exact old d d' x y hx' hy' hne

/-- What stands on the shelves after a block was taken off one. -/
theorem mem_drop {shelves : Shelves} {c d : SizeClass} {block b : Nat}
    (nodup : (shelves c).Nodup) :
    b ∈ shelves.drop c block d ↔ b ∈ shelves d ∧ ¬ (d = c ∧ b = block) := by
  by_cases h : d = c
  · subst h
    simp [drop, nodup.mem_erase_iff, and_comm]
  · simp [drop, set_of_ne _ _ h, h]

end Shelves

/-- Heads and links spell out the shelves, and what stands on them can be linked: no block twice,
each in the class of its size, and no two of them in each other's way. -/
structure Threaded (hardened : Bool) (m : Memory) (lists : FreeLists) (shelves : Shelves) :
    Prop where
  /-- Each head is the first block of its shelf. -/
  heads : ∀ c, lists.head c = (shelves c).head?
  /-- The links name the neighbours. -/
  linked : ∀ c, Linked m none (shelves c) none
  /-- Every block can be linked. -/
  linkable : ∀ c, ∀ b ∈ shelves c, Linkable hardened m b
  /-- Every block stands in the class of its size. -/
  sorted : ∀ c, ∀ b ∈ shelves c, SizeClass.of (sizeAt m b) = c
  /-- No block stands twice on a shelf. -/
  nodup : ∀ c, (shelves c).Nodup
  /-- No block reaches into the links of another. -/
  apart : ∀ c d x y, x ∈ shelves c → y ∈ shelves d → x ≠ y → Apart x y

/-- The first block of a shelf does not stand on it again. -/
theorem not_mem_head?_of_mem_tail {l : List Nat} {x : Nat} (nodup : l.Nodup) (hx : x ∈ l.tail) :
    x ∉ l.head? := by
  cases l with
  | nil => cases hx
  | cons y l =>
    rintro ⟨⟩
    exact (List.nodup_cons.mp nodup).1 hx

/-- The last block of a shelf does not stand on it before. -/
theorem not_mem_getLast?_of_mem_dropLast {l : List Nat} {x : Nat} (nodup : l.Nodup)
    (hx : x ∈ l.dropLast) : x ∉ l.getLast? := by
  rcases List.eq_nil_or_concat l with rfl | ⟨l, y, rfl⟩
  · cases hx
  · simp only [List.concat_eq_append, List.dropLast_concat, List.getLast?_append,
      List.getLast?_singleton, Option.some_or, Option.mem_def, Option.some.injEq] at hx nodup ⊢
    rintro rfl
    exact (List.nodup_append.mp nodup).2.2 y hx y (List.mem_singleton.mpr rfl) rfl

/-! ## Writing links -/

/-- The bytes of the links of some blocks. -/
def LinksOf (P : Nat → Prop) (j : Nat) : Prop := ∃ y, P y ∧ LinkByte y j

section Links

variable {m m' : Memory} {P : Nat → Prop} {x y j : Nat}

/-- The bytes of the link to the next block are among those of a block's links. -/
theorem LinksOf.next (hy : P y) (hj : Span (nextSlot y) (nextSlot y + wordSize) j) :
    LinksOf P j := by
  simp only [nextSlot, payloadOf, wordSize] at hj
  exact ⟨y, hy, by omega⟩

/-- So are those of the link to the previous one. -/
theorem LinksOf.prev (hy : P y) (hj : Span (prevSlot y) (prevSlot y + wordSize) j) :
    LinksOf P j := by
  simp only [prevSlot, payloadOf, wordSize] at hj
  exact ⟨y, hy, by omega⟩

/-- The header of a block stays when links are written, be they its own. -/
theorem header_of_links (frame : m.EqOff m' (LinksOf P)) (apart : ∀ y, P y → x ≠ y → Apart x y) :
    m'.word x = m.word x := by
  apply frame.word
  rintro j hj hj' ⟨y, hy, hlink⟩
  exact not_linkByte_of_head ((Classical.em (x = y)).imp_right (apart y hy)) ⟨hj, hj'⟩ hlink

/-- The links of a block stay when those of others are written. -/
theorem links_of_links (frame : m.EqOff m' (LinksOf P)) (apart : ∀ y, P y → Apart x y) :
    m'.word (nextSlot x) = m.word (nextSlot x) ∧ m'.word (prevSlot x) = m.word (prevSlot x) := by
  have off : ∀ j, Span x (x + 24) j → ¬ LinksOf P j := by
    rintro j hj ⟨y, hy, hlink⟩
    exact not_linkByte_of_apart (apart y hy) hj hlink
  simp only [nextSlot, prevSlot, payloadOf, wordSize]
  constructor <;> refine frame.word fun j hj hj' => off j ?_ <;>
    simp only [wordSize] at hj' <;> omega

end Links

/-! ## Tying links -/

/-- Writes one link of a block, if there is a block. -/
def Memory.tie (m : Memory) (slot : Nat → Nat) (block target : Option Nat) : Memory :=
  match block with
  | some b => m.putWord (slot b) (target.getD 0)
  | none => m

section Tie

variable {hardened : Bool} {m m' : Memory} {slot : Nat → Nat} {b : Nat}
  {block target : Option Nat}

/-- Tying a link touches that link. -/
theorem eqOff_tie (m : Memory) (slot : Nat → Nat) (block target : Option Nat) :
    m.EqOff (m.tie slot block target)
      (fun j => ∃ b ∈ block, Span (slot b) (slot b + wordSize) j) := by
  cases block with
  | none => exact .refl ..
  | some b => exact (eqOff_putWord m (slot b) _).mono fun j hj => ⟨b, rfl, hj⟩

@[simp] theorem size_tie (m : Memory) (slot : Nat → Nat) (block target : Option Nat) :
    (m.tie slot block target).size = m.size :=
  (eqOff_tie m slot block target).size

/-- A tied link is read back. -/
theorem word_tie (slot : Nat → Nat) (hb : b ∈ block) (inside : slot b + wordSize ≤ m.size)
    (isWord : target.getD 0 < wordBound) :
    (m.tie slot block target).word (slot b) = target.getD 0 := by
  cases hb
  exact word_putWord inside isWord

/-- A word apart from the link that is tied is as it was. -/
theorem word_tie_of_disjoint {i : Nat}
    (off : ∀ b ∈ block, i + wordSize ≤ slot b ∨ slot b + wordSize ≤ i) :
    (m.tie slot block target).word i = m.word i := by
  apply (eqOff_tie m slot block target).word
  intro j hj hj'
  rintro ⟨b, hb, hspan⟩
  have := off b hb
  omega

/-- Tying a link away from a block's header keeps the block one that can be linked. -/
theorem Linkable.tie (h : Linkable hardened m b)
    (off : ∀ x ∈ block, b + wordSize ≤ slot x ∨ slot x + wordSize ≤ b) :
    Linkable hardened (m.tie slot block target) b :=
  h.congr (Nat.le_of_eq (size_tie ..).symm) (word_tie_of_disjoint off)

end Tie

/-! ## Neighbours -/

section Neighbour

variable {hardened : Bool} {m : Memory} {b : Nat}

/-- A neighbour that a block can have in a list: another one, that can be linked and is not in the
block's way. -/
structure Neighbour (hardened : Bool) (m : Memory) (b x : Nat) : Prop where
  /-- It can be linked. -/
  linkable : Linkable hardened m x
  /-- It is not in the block's way. -/
  apart : Apart b x

/-- The value of a link to a neighbour is a word. -/
theorem Neighbour.getD_lt {target : Option Nat} (h : ∀ x ∈ target, Neighbour hardened m b x) :
    target.getD 0 < wordBound := by
  cases target with
  | none => exact Nat.two_pow_pos 64
  | some x => exact (h x rfl).linkable.isWord

end Neighbour

/-! ## Putting a block in a list -/

section Insert

variable {hardened : Bool} {m : Memory} {lists : FreeLists} {shelves : Shelves} {b : Nat}
  {c : SizeClass} {first : Option Nat}

/-- The memory after a block was put before the first one of its list. -/
def Memory.linkIn (m : Memory) (b : Nat) (first : Option Nat) : Memory :=
  ((m.putWord (nextSlot b) (first.getD 0)).putWord (prevSlot b) 0).tie prevSlot first (some b)

/-- What `linkIn` writes: the links of the block and of the first one. -/
theorem eqOff_linkIn (m : Memory) (b : Nat) (first : Option Nat) :
    m.EqOff (m.linkIn b first) (LinksOf fun y => y = b ∨ y ∈ first) := by
  refine ((EqOff.mono (eqOff_putWord ..) ?_).trans (EqOff.mono (eqOff_putWord ..) ?_)).trans
    (EqOff.mono (eqOff_tie ..) ?_)
  · exact fun j hj => .next (.inl rfl) hj
  · exact fun j hj => .prev (.inl rfl) hj
  · rintro j ⟨f, hf, hj⟩
    exact .prev (.inr hf) hj

/-- Putting a block that can be linked in a list goes through. -/
theorem Threaded.insert_eq (h : Threaded hardened m lists shelves) (hb : Linkable hardened m b)
    (hc : SizeClass.of (sizeAt m b) = c) (apart : ∀ x ∈ shelves c, Apart b x) :
    lists.insert hardened m b
      = .ok (lists.setHead c (some b), m.linkIn b (shelves c).head?) := by
  have hb₁ : Linkable hardened (m.putWord (nextSlot b) ((shelves c).head?.getD 0)) b :=
    hb.congr (Nat.le_of_eq (size_putWord ..).symm)
      (word_putWord_of_disjoint _ (.inl (Nat.le_refl _)))
  rw [FreeLists.insert, hb.requireLinks, ok_bind, hb.classOfBlock, ok_bind, hc, h.heads]
  dsimp only
  rw [hb.putNextLink, ok_bind, hb₁.putPrevLink, ok_bind, linkIn]
  cases hfirst : (shelves c).head? with
  | none => rfl
  | some f =>
    have hf := List.mem_of_head? hfirst
    have hapart := apart f hf
    have hf₂ : Linkable hardened ((m.putWord (nextSlot b) f).putWord (prevSlot b) 0) f := by
      apply (h.linkable _ f hf).congr (by simp)
      rw [word_putWord_of_disjoint _ (hapart.symm.words .header .prev),
        word_putWord_of_disjoint _ (hapart.symm.words .header .next)]
    simp only [Option.getD_some, Option.getD_none] at hf₂ ⊢
    rw [hf₂.requireLinks, ok_bind, hf₂.putPrevLink]
    rfl

/-- The block's links, and the first one's link to it, are as they were written. -/
theorem word_linkIn (hb : Linkable hardened m b) (hfirst : ∀ f ∈ first, Neighbour hardened m b f) :
    (m.linkIn b first).word (nextSlot b) = first.getD 0 ∧ (m.linkIn b first).word (prevSlot b) = 0 ∧
      ∀ f ∈ first, (m.linkIn b first).word (nextSlot f) = m.word (nextSlot f) ∧
        (m.linkIn b first).word (prevSlot f) = b := by
  unfold linkIn
  refine ⟨?_, ?_, ?_⟩
  · rw [word_tie_of_disjoint fun f hf => (hfirst f hf).apart.words .next .prev,
      word_putWord_of_disjoint _ (.inl (Nat.le_refl _))]
    exact word_putWord (hb.inside_of_frontWord .next) (Neighbour.getD_lt hfirst)
  · rw [word_tie_of_disjoint fun f hf => (hfirst f hf).apart.words .prev .prev]
    refine word_putWord ?_ (Nat.two_pow_pos 64)
    rw [size_putWord]
    exact hb.inside_of_frontWord .prev
  · rintro f rfl
    have hf := (hfirst f rfl).apart.symm
    constructor
    · rw [word_tie_of_disjoint fun g hg => .inl (Option.some.inj hg ▸ Nat.le_refl _),
        word_putWord_of_disjoint _ (hf.words .next .prev),
        word_putWord_of_disjoint _ (hf.words .next .next)]
    · refine word_tie prevSlot rfl ?_ hb.isWord
      rw [size_putWord, size_putWord]
      exact (hfirst f rfl).linkable.inside_of_frontWord .prev

/-- Putting a block in a list leaves its header and those of all listed blocks. -/
theorem Threaded.header_linkIn (h : Threaded hardened m lists shelves)
    (apart : ∀ d, ∀ x ∈ shelves d, Apart b x) {d : SizeClass} {x : Nat}
    (hx : x ∈ shelves.push c b d) : (m.linkIn b (shelves c).head?).word x = m.word x := by
  have apart' := Shelves.pairwise_push h.apart (fun _ _ => Apart.symm) apart (c := c)
  apply header_of_links (eqOff_linkIn ..)
  rintro y (rfl | hy)
  · exact apart' d c x y hx (Shelves.mem_push.mpr (.inl ⟨rfl, rfl⟩))
  · exact apart' d c x y hx (Shelves.mem_push.mpr (.inr (List.mem_of_head? hy)))

/-- Putting a block in a list leaves the links of all listed blocks but the first of that list. -/
theorem Threaded.links_linkIn (h : Threaded hardened m lists shelves)
    (apart : ∀ d, ∀ x ∈ shelves d, Apart b x) {d : SizeClass} {x : Nat} (hx : x ∈ shelves d)
    (not_first : x ∉ (shelves c).head?) :
    (m.linkIn b (shelves c).head?).word (nextSlot x) = m.word (nextSlot x) ∧
      (m.linkIn b (shelves c).head?).word (prevSlot x) = m.word (prevSlot x) := by
  apply links_of_links (eqOff_linkIn ..)
  rintro y (rfl | hy)
  · exact (apart d x hx).symm
  · apply h.apart d c x y hx (List.mem_of_head? hy)
    rintro rfl
    exact not_first hy

/-- **A block that is put in a list comes to stand at the front of its shelf.**  All other blocks
keep their places. -/
theorem Threaded.insert (h : Threaded hardened m lists shelves) (hb : Linkable hardened m b)
    (hc : SizeClass.of (sizeAt m b) = c) (apart : ∀ d, ∀ x ∈ shelves d, Apart b x) :
    Threaded hardened (m.linkIn b (shelves c).head?) (lists.setHead c (some b))
      (shelves.push c b) := by
  have frame := eqOff_linkIn m b (shelves c).head?
  have first_mem : ∀ f ∈ (shelves c).head?, f ∈ shelves c := fun f hf => List.mem_of_head? hf
  have fresh : b ∉ shelves c := fun hd => by
    have := apart c b hd
    omega
  obtain ⟨next_b, prev_b, at_first⟩ := word_linkIn hb fun f hf =>
    ⟨h.linkable c f (first_mem f hf), apart c f (first_mem f hf)⟩
  refine { heads := ?_, linked := ?_, linkable := ?_, sorted := ?_, nodup := ?_,
           apart := Shelves.pairwise_push h.apart (fun _ _ => Apart.symm) apart }
  · refine Shelves.forall_set (P := fun d l => (lists.setHead c (some b)).head d = l.head?) ?_ ?_
    · rw [FreeLists.head_setHead, if_pos rfl, List.head?_cons]
    · intro d hd
      rw [FreeLists.head_setHead, if_neg (Ne.symm hd), h.heads]
  · refine Shelves.forall_set
      (P := fun _ l => Linked (m.linkIn b (shelves c).head?) none l none) ?_ ?_
    · refine ⟨by rw [Option.or_none, next_b], prev_b, (h.linked c).reprev at_first ?_⟩
      intro x hx
      exact h.links_linkIn apart (List.mem_of_mem_tail hx)
        (not_mem_head?_of_mem_tail (h.nodup c) hx)
    · intro d hd
      apply (h.linked d).congr
      intro x hx
      refine h.links_linkIn apart hx fun hx' => hd ?_
      rw [← h.sorted d x hx, h.sorted c x (first_mem x hx')]
  · intro d x hx
    have header := h.header_linkIn apart hx
    rcases Shelves.mem_push.mp hx with ⟨-, rfl⟩ | hx'
    · exact hb.congr (Nat.le_of_eq frame.size.symm) header
    · exact (h.linkable d x hx').congr (Nat.le_of_eq frame.size.symm) header
  · intro d x hx
    rw [sizeAt, h.header_linkIn apart hx]
    rcases Shelves.mem_push.mp hx with ⟨rfl, rfl⟩ | hx'
    · exact hc
    · exact h.sorted d x hx'
  · refine Shelves.forall_set (P := fun _ l => l.Nodup) ?_ fun d _ => h.nodup d
    exact List.nodup_cons.mpr ⟨fresh, h.nodup c⟩

end Insert

/-! ## Taking a block out of its list -/

section Remove

variable {hardened : Bool} {m : Memory} {lists : FreeLists} {shelves : Shelves} {b : Nat}
  {c : SizeClass} {prev next : Option Nat} {xs ys : List Nat}

/-- The memory after a block was taken out from between its neighbours. -/
def Memory.linkOut (m : Memory) (b : Nat) (prev next : Option Nat) : Memory :=
  (((m.tie nextSlot prev next).tie prevSlot next prev).putWord (nextSlot b) 0).putWord
    (prevSlot b) 0

/-- The heads after a block was taken out from between its neighbours. -/
def FreeLists.linkOut (lists : FreeLists) (c : SizeClass) (prev next : Option Nat) : FreeLists :=
  match prev with
  | some _ => lists
  | none => lists.setHead c next

/-- What `linkOut` writes: the links of the block and of its neighbours. -/
theorem eqOff_linkOut (m : Memory) (b : Nat) (prev next : Option Nat) :
    m.EqOff (m.linkOut b prev next) (LinksOf fun y => y = b ∨ y ∈ prev ∨ y ∈ next) := by
  refine (((EqOff.mono (eqOff_tie ..) ?_).trans (EqOff.mono (eqOff_tie ..) ?_)).trans
    (EqOff.mono (eqOff_putWord ..) ?_)).trans (EqOff.mono (eqOff_putWord ..) ?_)
  · rintro j ⟨p, hp, hj⟩
    exact .next (.inr (.inl hp)) hj
  · rintro j ⟨n, hn, hj⟩
    exact .prev (.inr (.inr hn)) hj
  · exact fun j hj => .next (.inl rfl) hj
  · exact fun j hj => .prev (.inl rfl) hj

/-- The neighbours' links that named the block name each other, and their other links stay. -/
theorem word_linkOut (hprev : ∀ x ∈ prev, Neighbour hardened m b x)
    (hnext : ∀ x ∈ next, Neighbour hardened m b x)
    (between : ∀ x ∈ prev, ∀ y ∈ next, Apart x y) :
    (∀ x ∈ prev, (m.linkOut b prev next).word (nextSlot x) = next.getD 0 ∧
      (m.linkOut b prev next).word (prevSlot x) = m.word (prevSlot x)) ∧
    ∀ x ∈ next, (m.linkOut b prev next).word (nextSlot x) = m.word (nextSlot x) ∧
      (m.linkOut b prev next).word (prevSlot x) = prev.getD 0 := by
  have value_prev := Neighbour.getD_lt hprev
  have value_next := Neighbour.getD_lt hnext
  unfold linkOut
  constructor
  · rintro x rfl
    have hx := (hprev x rfl).apart.symm
    have far : ∀ y ∈ next, Apart x y := between x rfl
    constructor
    · rw [word_putWord_of_disjoint _ (hx.words .next .prev),
        word_putWord_of_disjoint _ (hx.words .next .next),
        word_tie_of_disjoint fun y hy => (far y hy).words .next .prev]
      exact word_tie nextSlot rfl ((hprev x rfl).linkable.inside_of_frontWord .next) value_next
    · rw [word_putWord_of_disjoint _ (hx.words .prev .prev),
        word_putWord_of_disjoint _ (hx.words .prev .next),
        word_tie_of_disjoint fun y hy => (far y hy).words .prev .prev,
        word_tie_of_disjoint fun y hy => .inr (Option.some.inj hy ▸ Nat.le_refl _)]
  · rintro x rfl
    have hx := (hnext x rfl).apart.symm
    have far : ∀ y ∈ prev, Apart x y := fun y hy => (between y hy x rfl).symm
    constructor
    · rw [word_putWord_of_disjoint _ (hx.words .next .prev),
        word_putWord_of_disjoint _ (hx.words .next .next),
        word_tie_of_disjoint fun y hy => .inl (Option.some.inj hy ▸ Nat.le_refl _),
        word_tie_of_disjoint fun y hy => (far y hy).words .next .next]
    · rw [word_putWord_of_disjoint _ (hx.words .prev .prev),
        word_putWord_of_disjoint _ (hx.words .prev .next)]
      refine word_tie prevSlot rfl ?_ value_prev
      rw [size_tie]
      exact (hnext x rfl).linkable.inside_of_frontWord .prev

/-- Taking a block out of its list goes through, when its links name its neighbours and the head
of its list names it if nothing is before it. -/
theorem remove_eq (hb : Linkable hardened m b) (hc : SizeClass.of (sizeAt m b) = c)
    (hprev : ∀ x ∈ prev, Neighbour hardened m b x) (hnext : ∀ x ∈ next, Neighbour hardened m b x)
    (between : ∀ x ∈ prev, ∀ y ∈ next, Apart x y) (word_prev : m.word (prevSlot b) = prev.getD 0)
    (word_next : m.word (nextSlot b) = next.getD 0) (head : prev = none → lists.head c = some b) :
    lists.remove hardened m b = .ok (lists.linkOut c prev next, m.linkOut b prev next) := by
  have hb₁ : Linkable hardened (m.tie nextSlot prev next) b :=
    hb.tie fun x hx => (hprev x hx).apart.words .header .next
  have hb₂ : Linkable hardened ((m.tie nextSlot prev next).tie prevSlot next prev) b :=
    hb₁.tie fun x hx => (hnext x hx).apart.words .header .prev
  have hb₃ : Linkable hardened
      (((m.tie nextSlot prev next).tie prevSlot next prev).putWord (nextSlot b) 0) b :=
    hb₂.congr (Nat.le_of_eq (size_putWord ..).symm)
      (word_putWord_of_disjoint _ (.inl (Nat.le_refl _)))
  have hnext₁ : ∀ x ∈ next, Linkable hardened (m.tie nextSlot prev next) x := fun x hx =>
    (hnext x hx).linkable.tie fun y hy => (between y hy x hx).symm.words .header .next
  have finish : (do
      let m ← Memory.putNextLink hardened ((m.tie nextSlot prev next).tie prevSlot next prev) b none
      let m ← Memory.putPrevLink hardened m b none
      return (lists.linkOut c prev next, m) : Except Fault (FreeLists × Memory))
        = .ok (lists.linkOut c prev next, m.linkOut b prev next) := by
    rw [hb₂.putNextLink, ok_bind, Option.getD_none, hb₃.putPrevLink, ok_bind]
    rfl
  rw [FreeLists.remove, hb.requireLinks, ok_bind,
    hb.nextLink word_next fun x hx => (hnext x hx).linkable.pos, ok_bind,
    hb.prevLink word_prev fun x hx => (hprev x hx).linkable.pos, ok_bind]
  cases prev with
  | none =>
    simp only [hb.classOfBlock, hc, head rfl, ok_bind, pure_eq_ok, beq_self_eq_true, Bool.or_true,
      require_true]
    cases next with
    | none => exact finish
    | some n =>
      have hn : Linkable hardened m n := hnext₁ n rfl
      simp only [hn.requireLinks, hn.putPrevLink, ok_bind]
      exact finish
  | some p =>
    have hp := (hprev p rfl).linkable
    simp only [hp.requireLinks, hp.putNextLink, ok_bind, pure_eq_ok]
    cases next with
    | none => exact finish
    | some n =>
      have hn : Linkable hardened (m.putWord (nextSlot p) n) n := hnext₁ n rfl
      simp only [Option.getD_some, hn.requireLinks, hn.putPrevLink, ok_bind]
      exact finish

/-- The heads after a block was taken out are the first ones of the shelves without it. -/
theorem head_linkOut (heads : lists.head c = (xs ++ b :: ys).head?) :
    (lists.linkOut c xs.getLast? ys.head?).head c = (xs ++ ys).head? := by
  rcases List.eq_nil_or_concat xs with rfl | ⟨front, last, rfl⟩
  · rw [List.getLast?_nil, FreeLists.linkOut, FreeLists.head_setHead, if_pos rfl, List.nil_append]
  · rw [List.concat_eq_append, List.getLast?_append, List.getLast?_singleton, Option.some_or,
      FreeLists.linkOut, heads]
    simp

/-- The heads of the other lists stay when a block is taken out. -/
theorem head_linkOut_of_ne {d : SizeClass} (hd : d ≠ c) :
    (lists.linkOut c prev next).head d = lists.head d := by
  cases prev with
  | some p => rfl
  | none => rw [FreeLists.linkOut, FreeLists.head_setHead, if_neg (Ne.symm hd)]

/-- A block on its shelf, with what stands before and behind it. -/
structure Shelves.Between (shelves : Shelves) (c : SizeClass) (xs : List Nat) (b : Nat)
    (ys : List Nat) : Prop where
  /-- The shelf. -/
  split : shelves c = xs ++ b :: ys
  /-- No block stands twice on it. -/
  nodup : (xs ++ b :: ys).Nodup

section Between

variable {x y : Nat}

/-- The block stands on the shelf. -/
theorem Shelves.Between.mem (h : shelves.Between c xs b ys) : b ∈ shelves c := by
  simp [h.split]

/-- What stands before and behind the block are others. -/
theorem Shelves.Between.mem_of_mem (h : shelves.Between c xs b ys) (hx : x ∈ xs ∨ x ∈ ys) :
    x ∈ shelves c ∧ x ≠ b := by
  obtain ⟨-, nodup, disjoint⟩ := List.nodup_append.mp h.nodup
  rw [h.split]
  rcases hx with hx | hx
  · exact ⟨List.mem_append_left _ hx, disjoint x hx b List.mem_cons_self⟩
  · refine ⟨List.mem_append_right _ (List.mem_cons_of_mem _ hx), ?_⟩
    rintro rfl
    exact (List.nodup_cons.mp nodup).1 hx

/-- What stands before the block does not stand behind it. -/
theorem Shelves.Between.ne (h : shelves.Between c xs b ys) (hx : x ∈ xs) (hy : y ∈ ys) : x ≠ y :=
  (List.nodup_append.mp h.nodup).2.2 x hx y (List.mem_cons_of_mem _ hy)

/-- The shelf without the block. -/
theorem Shelves.Between.erase (h : shelves.Between c xs b ys) :
    (shelves c).erase b = xs ++ ys := by
  have not_before : b ∉ xs := fun hb => (h.mem_of_mem (.inl hb)).2 rfl
  rw [h.split, List.erase_append_right _ not_before, List.erase_cons_head]

/-- The block's neighbours stand on the shelf. -/
theorem Shelves.Between.neighbour_mem (h : shelves.Between c xs b ys)
    (hx : x ∈ xs.getLast? ∨ x ∈ ys.head?) : x ∈ shelves c ∧ x ≠ b :=
  h.mem_of_mem (hx.imp List.mem_of_getLast? List.mem_of_head?)

/-- A block on the shelves can be taken out from between its neighbours: they can be linked and are
not in its way. -/
theorem Threaded.neighbour (h : Threaded hardened m lists shelves) (hb : shelves.Between c xs b ys)
    (hx : x ∈ xs.getLast? ∨ x ∈ ys.head?) : Neighbour hardened m b x := by
  obtain ⟨mem, hne⟩ := hb.neighbour_mem hx
  exact ⟨h.linkable c x mem, h.apart c c b x hb.mem mem (Ne.symm hne)⟩

/-- A block's neighbours are not in each other's way. -/
theorem Threaded.neighbours_apart (h : Threaded hardened m lists shelves)
    (hb : shelves.Between c xs b ys) (hx : x ∈ xs.getLast?) (hy : y ∈ ys.head?) : Apart x y :=
  h.apart c c x y (hb.neighbour_mem (.inl hx)).1 (hb.neighbour_mem (.inr hy)).1
    (hb.ne (List.mem_of_getLast? hx) (List.mem_of_head? hy))

/-- Taking a block out of its list goes through. -/
theorem Threaded.remove_eq (h : Threaded hardened m lists shelves)
    (hb : shelves.Between c xs b ys) :
    lists.remove hardened m b
      = .ok (lists.linkOut c xs.getLast? ys.head?, m.linkOut b xs.getLast? ys.head?) := by
  obtain ⟨-, word_next, word_prev, -⟩ := linked_append.mp (hb.split ▸ h.linked c)
  rw [Option.or_none] at word_next word_prev
  refine TaggedHeap.remove_eq (h.linkable c b hb.mem) (h.sorted c b hb.mem)
    (fun x hx => h.neighbour hb (.inl hx)) (fun x hx => h.neighbour hb (.inr hx))
    (fun x hx y hy => h.neighbours_apart hb hx hy) word_prev word_next ?_
  intro hxs
  rw [List.getLast?_eq_none_iff] at hxs
  rw [h.heads, hb.split, hxs]
  rfl

/-- Taking a block out leaves all headers of listed blocks. -/
theorem Threaded.header_linkOut (h : Threaded hardened m lists shelves)
    (hb : shelves.Between c xs b ys) {d : SizeClass} (hx : x ∈ shelves d) :
    (m.linkOut b xs.getLast? ys.head?).word x = m.word x := by
  apply header_of_links (eqOff_linkOut ..)
  rintro y (rfl | hy)
  · exact h.apart d c x y hx hb.mem
  · exact h.apart d c x y hx (hb.neighbour_mem hy).1

/-- Taking a block out leaves the links of all listed blocks but its neighbours. -/
theorem Threaded.links_linkOut (h : Threaded hardened m lists shelves)
    (hb : shelves.Between c xs b ys) {d : SizeClass} (hx : x ∈ shelves d) (hne : x ≠ b)
    (not_prev : x ∉ xs.getLast?) (not_next : x ∉ ys.head?) :
    (m.linkOut b xs.getLast? ys.head?).word (nextSlot x) = m.word (nextSlot x) ∧
      (m.linkOut b xs.getLast? ys.head?).word (prevSlot x) = m.word (prevSlot x) := by
  apply links_of_links (eqOff_linkOut ..)
  rintro y (rfl | hy)
  · exact h.apart d c x y hx hb.mem hne
  · apply h.apart d c x y hx (hb.neighbour_mem hy).1
    rintro rfl
    exact hy.elim not_prev not_next

/-- The links of a shelf from which a block was taken name the neighbours without it. -/
theorem Threaded.linked_linkOut (h : Threaded hardened m lists shelves)
    (hb : shelves.Between c xs b ys) :
    Linked (m.linkOut b xs.getLast? ys.head?) none (xs ++ ys) none := by
  obtain ⟨linked_xs, -, -, linked_ys⟩ := linked_append.mp (hb.split ▸ h.linked c)
  obtain ⟨at_prev, at_next⟩ := word_linkOut (fun x hx => h.neighbour hb (.inl hx))
    (fun x hx => h.neighbour hb (.inr hx)) (fun x hx y hy => h.neighbours_apart hb hx hy)
  obtain ⟨nodup_xs, nodup_bys, -⟩ := List.nodup_append.mp hb.nodup
  rw [linked_append, Option.or_none, Option.or_none]
  constructor
  · apply linked_xs.renext at_prev
    intro x hx
    have before : x ∈ xs := (List.dropLast_sublist xs).mem hx
    obtain ⟨mem, hne⟩ := hb.mem_of_mem (.inl before)
    refine h.links_linkOut hb mem hne (not_mem_getLast?_of_mem_dropLast nodup_xs hx) fun hy => ?_
    exact hb.ne before (List.mem_of_head? hy) rfl
  · apply linked_ys.reprev at_next
    intro x hx
    have behind : x ∈ ys := List.mem_of_mem_tail hx
    obtain ⟨mem, hne⟩ := hb.mem_of_mem (.inr behind)
    refine h.links_linkOut hb mem hne (fun hy => ?_)
      (not_mem_head?_of_mem_tail (List.nodup_cons.mp nodup_bys).2 hx)
    exact hb.ne (List.mem_of_getLast? hy) behind rfl

/-- **A block that is taken out of its list is erased from its shelf,** wherever it stood.  All
other blocks keep their order. -/
theorem Threaded.remove (h : Threaded hardened m lists shelves) (hb : shelves.Between c xs b ys) :
    Threaded hardened (m.linkOut b xs.getLast? ys.head?)
      (lists.linkOut c xs.getLast? ys.head?) (shelves.drop c b) := by
  have mem_drop : ∀ d, ∀ x ∈ shelves.drop c b d, x ∈ shelves d := fun d x hx =>
    ((Shelves.mem_drop (h.nodup c)).mp hx).1
  refine { heads := ?_, linked := ?_, linkable := ?_, sorted := ?_,
           nodup := ?_, apart := ?_ }
  · refine Shelves.forall_set
      (P := fun d l => (lists.linkOut c xs.getLast? ys.head?).head d = l.head?) ?_ ?_
    · rw [hb.erase]
      exact head_linkOut ((h.heads c).trans (congrArg List.head? hb.split))
    · intro d hd
      rw [head_linkOut_of_ne hd, h.heads]
  · refine Shelves.forall_set
      (P := fun _ l => Linked (m.linkOut b xs.getLast? ys.head?) none l none) ?_ ?_
    · rw [hb.erase]
      exact h.linked_linkOut hb
    · intro d hd
      apply (h.linked d).congr
      intro x hx
      have foreign : ∀ y ∈ shelves c, x ≠ y := by
        rintro y hy rfl
        exact hd (by rw [← h.sorted d x hx, h.sorted c x hy])
      exact h.links_linkOut hb hx (foreign b hb.mem)
        (fun hy => foreign x (hb.neighbour_mem (.inl hy)).1 rfl)
        fun hy => foreign x (hb.neighbour_mem (.inr hy)).1 rfl
  · intro d x hx
    apply (h.linkable d x (mem_drop d x hx)).congr (Nat.le_of_eq (eqOff_linkOut ..).size.symm)
    exact h.header_linkOut hb (mem_drop d x hx)
  · intro d x hx
    rw [sizeAt, h.header_linkOut hb (mem_drop d x hx)]
    exact h.sorted d x (mem_drop d x hx)
  · exact Shelves.forall_set (P := fun _ l => l.Nodup) ((h.nodup c).erase b) fun d _ => h.nodup d
  · intro d d' x y hx hy hne
    exact h.apart d d' x y (mem_drop d x hx) (mem_drop d' y hy) hne

end Between

end Remove

end TaggedHeap
