import TaggedHeap.Proofs.Linking

/-!
# Free lists are lists

The free blocks of a heap lie inside of it and their payloads are aligned.  So their links can be
used on a hardened heap and on any other, and what is said of threads holds of both: `Shelving` is
`Threaded` with blocks that can be listed in this sense.

* `Shelving.threaded` and `Threaded.shelving` go from one to the other.
* `Shelving.insert`: a block that is put in a list comes to stand at the front of its shelf.
* `Shelving.remove`: a block that is taken out is erased from its shelf, wherever it stood.

`Shelving.insert_ok` and `Shelving.remove_ok` add that the steps go through and that they wrote
nothing but links.
-/

namespace TaggedHeap

open Memory

/-! ## Blocks that can be listed -/

/-- A block that the free lists can take: a free one with room for its links. -/
structure Listable (m : Memory) (block : Nat) : Prop where
  /-- No link to it looks like none. -/
  pos : block ≠ 0
  /-- A link to it is a word. -/
  isWord : block < wordBound
  /-- Its links lie inside the memory. -/
  inside : block + minBlockSize ≤ m.size
  /-- Its header says that it is free. -/
  free : (Header.decode (m.word block)).allocated = false
  /-- Its header says that it has room for links. -/
  room : minBlockSize ≤ sizeAt m block
  /-- Its payload is aligned. -/
  aligned : payloadOf block % alignment = 0

section Listable

variable {m m' : Memory} {block : Nat}

/-- Whether a block can be listed depends on its header alone. -/
theorem Listable.congr (h : Listable m block) (size : m.size ≤ m'.size)
    (word : m'.word block = m.word block) : Listable m' block where
  pos := h.pos
  isWord := h.isWord
  inside := Nat.le_trans h.inside size
  free := by
    rw [word]
    exact h.free
  room := by
    rw [sizeAt, word]
    exact h.room
  aligned := h.aligned

/-- The links of a block that can be listed can be used. -/
theorem Listable.linkable (h : Listable m block) (hardened : Bool) :
    Linkable hardened m block where
  pos := h.pos
  isWord := h.isWord
  inside := Nat.le_trans (Nat.add_le_add_left (by decide) block) h.inside
  free := h.free
  room := h.room
  aligned := fun _ => h.aligned

end Listable

/-! ## Shelves of a heap -/

/-- Heads and links spell out the shelves, and what stands on them can be listed: no block twice,
each in the class of its size, and no two of them in each other's way. -/
structure Shelving (m : Memory) (lists : FreeLists) (shelves : Shelves) :
    Prop where
  /-- Each head is the first block of its shelf. -/
  heads : ∀ c, lists.head c = (shelves c).head?
  /-- The links name the neighbours. -/
  linked : ∀ c, Linked m none (shelves c) none
  /-- Every block can be listed. -/
  listable : ∀ c, ∀ b ∈ shelves c, Listable m b
  /-- Every block stands in the class of its size. -/
  sorted : ∀ c, ∀ b ∈ shelves c, SizeClass.of (sizeAt m b) = c
  /-- No block stands twice on a shelf. -/
  nodup : ∀ c, (shelves c).Nodup
  /-- No block reaches into the links of another. -/
  apart : ∀ c d x y, x ∈ shelves c → y ∈ shelves d → x ≠ y → Apart x y

section Shelving

variable {hardened : Bool} {m m' : Memory} {lists : FreeLists} {shelves : Shelves} {b : Nat}
  {c : SizeClass} {xs ys : List Nat}

/-- Empty lists are empty shelves. -/
theorem Shelving.empty (m : Memory) :
    Shelving m FreeLists.empty Shelves.empty where
  heads c := FreeLists.head_empty c
  linked _ := trivial
  listable _ _ hb := absurd hb List.not_mem_nil
  sorted _ _ hb := absurd hb List.not_mem_nil
  nodup _ := .nil
  apart _ _ _ _ hx := absurd hx List.not_mem_nil

/-- Lists are read from the headers and links of their blocks. -/
theorem Shelving.congr (h : Shelving m lists shelves) (size : m.size ≤ m'.size)
    (same : ∀ c, ∀ b ∈ shelves c, ∀ j, Span b (b + 24) j → m'.byte j = m.byte j) :
    Shelving m' lists shelves := by
  have head : ∀ c, ∀ b ∈ shelves c, m'.word b = m.word b := fun c b hb =>
    word_congr fun j hj hj' => same c b hb j
      ⟨hj, by simp only [wordSize] at hj'; omega⟩
  refine { h with linked := fun c => (h.linked c).congr ?_,
                  listable := fun c b hb => (h.listable c b hb).congr size (head c b hb),
                  sorted := ?_ }
  · intro b hb
    constructor <;> refine word_congr fun j hj hj' => same c b hb j ⟨?_, ?_⟩ <;>
      simp only [nextSlot, prevSlot, payloadOf, wordSize] at hj hj' ⊢ <;> omega
  · intro c b hb
    rw [sizeAt, head c b hb]
    exact h.sorted c b hb

/-- Shelves of blocks that can be listed are threaded, be the heap hardened or not. -/
theorem Shelving.threaded (h : Shelving m lists shelves) (hardened : Bool) :
    Threaded hardened m lists shelves where
  heads := h.heads
  linked := h.linked
  linkable := fun c b hb => (h.listable c b hb).linkable hardened
  sorted := h.sorted
  nodup := h.nodup
  apart := h.apart

/-- Threads through blocks that can be listed are shelves of them. -/
theorem Threaded.shelving (h : Threaded hardened m lists shelves)
    (listable : ∀ c, ∀ b ∈ shelves c, Listable m b) : Shelving m lists shelves where
  heads := h.heads
  linked := h.linked
  listable := listable
  sorted := h.sorted
  nodup := h.nodup
  apart := h.apart

/-- **A block that is put in a list comes to stand at the front of its shelf.**  All other blocks
keep their places. -/
theorem Shelving.insert (h : Shelving m lists shelves) (hb : Listable m b)
    (hc : SizeClass.of (sizeAt m b) = c) (apart : ∀ d, ∀ x ∈ shelves d, Apart b x) :
    Shelving (m.linkIn b (shelves c).head?) (lists.setHead c (some b))
      (shelves.push c b) := by
  have threaded := h.threaded true
  refine (threaded.insert (hb.linkable true) hc apart).shelving fun d x hx => ?_
  have old : Listable m x := by
    rcases Shelves.mem_push.mp hx with ⟨-, rfl⟩ | hx
    · exact hb
    · exact h.listable d x hx
  exact old.congr (Nat.le_of_eq (eqOff_linkIn ..).size.symm) (threaded.header_linkIn apart hx)

/-- **A block that is taken out of its list is erased from its shelf,** wherever it stood.  All
other blocks keep their order. -/
theorem Shelving.remove (h : Shelving m lists shelves) (hb : shelves.Between c xs b ys) :
    Shelving (m.linkOut b xs.getLast? ys.head?)
      (lists.linkOut c xs.getLast? ys.head?) (shelves.drop c b) := by
  have threaded := h.threaded true
  refine (threaded.remove hb).shelving fun d x hx => ?_
  have hx := ((Shelves.mem_drop (h.nodup c)).mp hx).1
  exact (h.listable d x hx).congr (Nat.le_of_eq (eqOff_linkOut ..).size.symm)
    (threaded.header_linkOut hb hx)

end Shelving

/-! ## What a step on the lists leaves alone -/

section Steps

variable {hardened : Bool} {m : Memory} {lists : FreeLists} {shelves : Shelves} {b : Nat}
  {c : SizeClass}

/-- The bytes of the links of what stands on the shelves. -/
def Shelves.LinkByte (shelves : Shelves) (j : Nat) : Prop :=
  ∃ c, ∃ x ∈ shelves c, TaggedHeap.LinkByte x j

/-- Putting a block in its list goes through, and writes nothing but its links and those of listed
blocks. -/
theorem Shelving.insert_ok (hardened : Bool) (h : Shelving m lists shelves) (hb : Listable m b)
    (hc : SizeClass.of (sizeAt m b) = c) (apart : ∀ d, ∀ x ∈ shelves d, Apart b x) :
    ∃ lists' m', lists.insert hardened m b = .ok (lists', m') ∧
      Shelving m' lists' (shelves.push c b) ∧
      m.EqOff m' (fun j => LinkByte b j ∨ shelves.LinkByte j) := by
  refine ⟨_, _, (h.threaded hardened).insert_eq (hb.linkable hardened) hc (apart c),
    h.insert hb hc apart, (eqOff_linkIn ..).mono ?_⟩
  rintro j ⟨y, rfl | hy, hj⟩
  · exact .inl hj
  · exact .inr ⟨c, y, List.mem_of_head? hy, hj⟩

/-- Taking a block out of its list goes through, and writes nothing but links of listed blocks. -/
theorem Shelving.remove_ok (hardened : Bool) (h : Shelving m lists shelves) (hb : b ∈ shelves c) :
    ∃ lists' m', lists.remove hardened m b = .ok (lists', m') ∧
      Shelving m' lists' (shelves.drop c b) ∧ m.EqOff m' shelves.LinkByte := by
  obtain ⟨xs, ys, split⟩ := List.append_of_mem hb
  have between : shelves.Between c xs b ys := ⟨split, split ▸ h.nodup c⟩
  refine ⟨_, _, (h.threaded hardened).remove_eq between, h.remove between,
    (eqOff_linkOut ..).mono ?_⟩
  rintro j ⟨y, rfl | hy, hj⟩
  · exact ⟨c, y, hb, hj⟩
  · exact ⟨c, y, (between.neighbour_mem hy).1, hj⟩

end Steps

end TaggedHeap
