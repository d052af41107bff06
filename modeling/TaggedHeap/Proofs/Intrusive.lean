import Mathlib.Algebra.BigOperators.Fin
import TaggedHeap.Proofs.Search

/-!
# Intrusive lists refine ordinary ones

A list that lives in the blocks it lists can be spoilt by a write to any of them.  Here the lists
are put beside twelve ordinary ones, one for each class, and nothing is asked of the heap around
them: not that its blocks are tiled, nor that it is in any state the allocator could have brought
about.

* `Represents` is the relation: heads and links spell out the ordinary lists, next links from the
  front and previous links back, over free blocks that have no byte in common.
* `Represents.insert` and `Represents.remove`: a step on the intrusive lists is the step on the
  ordinary ones, leaves a represented state behind, and writes to no byte but the links of the block
  and of those next to it.
* `Threaded.count_eq`: counting follows the links, by induction along them, and comes to the
  lengths.

`Represents.refines_lists` puts these together.
-/

namespace TaggedHeap

open Memory

/-! ## Counting -/

section Count

variable {hardened : Bool} {m : Memory} {lists : FreeLists} {shelves : Shelves} {fuel : Nat}
  {prev : Option Nat} {l : List Nat}

/-- Counting the members of a stretch by following its links comes to its length. -/
theorem countFrom_eq (linked : Linked m prev l none) (linkable : ∀ x ∈ l, Linkable hardened m x)
    (enough : l.length ≤ fuel) : FreeLists.countFrom hardened m fuel l.head? = .ok l.length := by
  induction l generalizing prev fuel with
  | nil => cases fuel <;> rfl
  | cons b rest ih =>
    obtain ⟨word_next, -, linked_rest⟩ := linked
    cases fuel with
    | zero => cases enough
    | succ fuel =>
      have hb := linkable b List.mem_cons_self
      have linkable_rest : ∀ x ∈ rest, Linkable hardened m x := fun x hx =>
        linkable x (List.mem_cons_of_mem _ hx)
      have next_pos : ∀ x ∈ rest.head?, x ≠ 0 := fun x hx =>
        (linkable_rest x (List.mem_of_head? hx)).pos
      rw [Option.or_none] at word_next
      rw [List.head?_cons, FreeLists.countFrom, hb.requireLinks, ok_bind,
        hb.nextLink word_next next_pos, ok_bind,
        ih linked_rest linkable_rest (Nat.le_of_succ_le_succ enough)]
      rfl

/-- Counting what is in the lists of some classes comes to the lengths of their shelves. -/
theorem Threaded.countAmong_eq (h : Threaded hardened m lists shelves) (classes : List SizeClass) :
    lists.countAmong hardened m classes = .ok (classes.map fun c => (shelves c).length).sum := by
  induction classes with
  | nil => rfl
  | cons c classes ih =>
    have enough : (shelves c).length ≤ FreeLists.walkBound m := Nat.le_succ_of_le (h.length_le c)
    rw [FreeLists.countAmong, h.heads, countFrom_eq (h.linked c) (h.linkable c) enough, ok_bind, ih]
    rfl

/-- **Counting all listed blocks goes through** and comes to the lengths of all shelves. -/
theorem Threaded.count_eq (h : Threaded hardened m lists shelves) :
    lists.count hardened m = .ok (∑ c, (shelves c).length) := by
  rw [FreeLists.count, h.countAmong_eq, Fin.sum_univ_def]
  rfl

end Count

/-! ## Representation -/

/-- Two blocks have no byte in common, going by their headers. -/
def NoOverlap (m : Memory) (x y : Nat) : Prop := x + sizeAt m x ≤ y ∨ y + sizeAt m y ≤ x

/-- One of two blocks stands right behind the other in a list. -/
def Beside (l : List Nat) (x y : Nat) : Prop := [x, y] <:+: l ∨ [y, x] <:+: l

/-- Heads and links of a memory represent twelve ordinary lists of blocks. -/
structure Represents (hardened : Bool) (m : Memory) (lists : FreeLists) (shelves : Shelves) :
    Prop where
  /-- Each head is the first block of its list. -/
  heads : ∀ c, lists.head c = (shelves c).head?
  /-- The next links spell out the list, and the previous links mirror them. -/
  linked : ∀ c, Linked m none (shelves c) none
  /-- Every listed block is free, of 32 bytes at least, and its links can be used. -/
  linkable : ∀ c, ∀ b ∈ shelves c, Linkable hardened m b
  /-- Every listed block is in the list of the class of its size, and so in no other one. -/
  sorted : ∀ c, ∀ b ∈ shelves c, SizeClass.of (sizeAt m b) = c
  /-- No block is listed twice. -/
  nodup : ∀ c, (shelves c).Nodup
  /-- No two listed blocks have a byte in common. -/
  disjoint : ∀ c d x y, x ∈ shelves c → y ∈ shelves d → x ≠ y → NoOverlap m x y

section Represents

variable {hardened : Bool} {m m' : Memory} {lists : FreeLists} {shelves : Shelves} {b x y : Nat}
  {c : SizeClass} {l xs ys : List Nat}

/-- Having no byte in common goes both ways. -/
theorem NoOverlap.symm (h : NoOverlap m x y) : NoOverlap m y x := Or.symm h

/-- Whether blocks have bytes in common depends on their headers alone. -/
theorem NoOverlap.congr (h : NoOverlap m x y) (hx : m'.word x = m.word x)
    (hy : m'.word y = m.word y) : NoOverlap m' x y := by
  rw [NoOverlap, sizeAt, sizeAt, hx, hy]
  exact h

/-- Blocks of 32 bytes at least that have no byte in common leave room for each other's links. -/
theorem NoOverlap.apart (h : NoOverlap m x y) (hx : Linkable hardened m x)
    (hy : Linkable hardened m y) : Apart x y := by
  have room_x : 32 ≤ sizeAt m x := hx.room
  have room_y : 32 ≤ sizeAt m y := hy.room
  exact h.imp (by omega) (by omega)

/-- The first block of a list comes to stand beside one that is put in front of it. -/
theorem beside_of_head? (h : y ∈ l.head?) : Beside (b :: l) b y := by
  obtain ⟨rest, rfl⟩ := List.head?_eq_some_iff.mp h
  exact .inl ⟨[], rest, rfl⟩

/-- The last block before one and the first one behind it stand beside it. -/
theorem beside_of_between (h : y ∈ xs.getLast? ∨ y ∈ ys.head?) :
    Beside (xs ++ b :: ys) b y := by
  rcases h with h | h
  · obtain ⟨front, rfl⟩ := List.getLast?_eq_some_iff.mp h
    exact .inr ⟨front, ys, by simp⟩
  · obtain ⟨rest, rfl⟩ := List.head?_eq_some_iff.mp h
    exact .inl ⟨xs, rest, by simp⟩

/-- Lists that are represented are threaded. -/
theorem Represents.threaded (h : Represents hardened m lists shelves) :
    Threaded hardened m lists shelves where
  heads := h.heads
  linked := h.linked
  linkable := h.linkable
  sorted := h.sorted
  nodup := h.nodup
  apart := fun c d x y hx hy hne =>
    (h.disjoint c d x y hx hy hne).apart (h.linkable c x hx) (h.linkable d y hy)

/-- Threads through blocks that have no byte in common represent lists. -/
theorem Threaded.represents (h : Threaded hardened m lists shelves)
    (disjoint : ∀ c d x y, x ∈ shelves c → y ∈ shelves d → x ≠ y → NoOverlap m x y) :
    Represents hardened m lists shelves where
  heads := h.heads
  linked := h.linked
  linkable := h.linkable
  sorted := h.sorted
  nodup := h.nodup
  disjoint := disjoint

/-- **Putting a free block in its list puts it in front of the ordinary one,** and writes to no byte
but its links and those of the block that was first. -/
theorem Represents.insert (h : Represents hardened m lists shelves) (hb : Linkable hardened m b)
    (hc : SizeClass.of (sizeAt m b) = c) (fresh : ∀ d, ∀ x ∈ shelves d, NoOverlap m b x) :
    ∃ lists' m', lists.insert hardened m b = .ok (lists', m') ∧
      Represents hardened m' lists' (shelves.push c b) ∧
      m.EqOff m' (LinksOf fun y => y = b ∨ Beside (b :: shelves c) b y) := by
  have threaded := h.threaded
  have apart : ∀ d, ∀ x ∈ shelves d, Apart b x := fun d x hx =>
    (fresh d x hx).apart hb (h.linkable d x hx)
  refine ⟨_, _, threaded.insert_eq hb hc (apart c), ?_, (eqOff_linkIn ..).mono ?_⟩
  · refine (threaded.insert hb hc apart).represents fun d d' x y hx hy hne => ?_
    have old := Shelves.pairwise_push h.disjoint (fun _ _ => .symm) fresh d d' x y hx hy hne
    exact old.congr (threaded.header_linkIn apart hx) (threaded.header_linkIn apart hy)
  · rintro j ⟨y, hy, hj⟩
    exact ⟨y, hy.imp_right beside_of_head?, hj⟩

/-- **Taking a block out of its list erases it from the ordinary one,** wherever it stands, and
writes to no byte but its links and those of the blocks beside it. -/
theorem Represents.remove (h : Represents hardened m lists shelves) (hb : b ∈ shelves c) :
    ∃ lists' m', lists.remove hardened m b = .ok (lists', m') ∧
      Represents hardened m' lists' (shelves.drop c b) ∧
      m.EqOff m' (LinksOf fun y => y = b ∨ Beside (shelves c) b y) := by
  have threaded := h.threaded
  obtain ⟨xs, ys, split⟩ := List.append_of_mem hb
  have between : shelves.Between c xs b ys := ⟨split, split ▸ h.nodup c⟩
  refine ⟨_, _, threaded.remove_eq between, ?_, (eqOff_linkOut ..).mono ?_⟩
  · refine (threaded.remove between).represents fun d d' x y hx hy hne => ?_
    have hx := ((Shelves.mem_drop (h.nodup c)).mp hx).1
    have hy := ((Shelves.mem_drop (h.nodup c)).mp hy).1
    exact (h.disjoint d d' x y hx hy hne).congr (threaded.header_linkOut between hx)
      (threaded.header_linkOut between hy)
  · rintro j ⟨y, hy, hj⟩
    refine ⟨y, hy.imp_right fun hy => ?_, hj⟩
    rw [split]
    exact beside_of_between hy

/-- Three free blocks of 48 bytes, whose links list the outer two. -/
def outerTwo : Memory :=
  (((((Memory.empty.extend 160).putWord 8 48).putWord 56 48).putWord 104 48).putWord
    (nextSlot 104) 8).putWord (prevSlot 8) 104

/-- The head of their list. -/
def outerLists : FreeLists := FreeLists.empty.setHead (.of 48) (some 104)

/-- The list of the outer two, the last one first. -/
def outerShelves : Shelves := Shelves.empty.set (.of 48) [104, 8]

/-- Each of the three blocks has 48 bytes, and its links can be used. -/
theorem linkable_outerTwo (hx : x ∈ [8, 56, 104]) :
    Linkable true outerTwo x ∧ sizeAt outerTwo x = 48 := by
  have header : ∀ x ∈ [8, 56, 104], outerTwo.word x = 48 := by decide +kernel
  have size : sizeAt outerTwo x = 48 := by
    rw [sizeAt, header x hx]
    rfl
  have place : ∀ x ∈ [8, 56, 104], x ≠ 0 ∧ x < wordBound ∧ x + 24 ≤ 160 ∧
      payloadOf x % alignment = 0 := by decide
  obtain ⟨pos, isWord, inside, aligned⟩ := place x hx
  have whole : outerTwo.size = 160 := by decide +kernel
  exact ⟨⟨pos, isWord, whole ▸ inside, by rw [header x hx]; rfl, by rw [size]; decide,
    fun _ => aligned⟩, size⟩

/-- No two of the three blocks have a byte in common. -/
theorem noOverlap_outerTwo (hx : x ∈ [8, 56, 104]) (hy : y ∈ [8, 56, 104]) (hne : x ≠ y) :
    NoOverlap outerTwo x y := by
  rw [NoOverlap, (linkable_outerTwo hx).2, (linkable_outerTwo hy).2]
  simp only [List.mem_cons, List.not_mem_nil, or_false] at hx hy
  omega

/-- What is listed is one of the three blocks, but not the middle one. -/
theorem mem_outerShelves :
    ∀ c, ∀ x ∈ outerShelves c, c = .of 48 ∧ x ∈ [8, 56, 104] ∧ x ≠ 56 := by
  decide

/-- The links of the three blocks represent the list of the outer two. -/
theorem represents_outerTwo :
    Represents true outerTwo outerLists outerShelves where
  heads := by decide
  linked := by
    refine Shelves.forall_set (P := fun _ l => Linked outerTwo none l none) ?_ fun _ _ => trivial
    simp only [Linked]
    decide +kernel
  linkable c x hx := (linkable_outerTwo (mem_outerShelves c x hx).2.1).1
  sorted c x hx := by
    obtain ⟨rfl, hx, -⟩ := mem_outerShelves c x hx
    rw [(linkable_outerTwo hx).2]
  nodup := by decide
  disjoint c d x y hx hy :=
    noOverlap_outerTwo (mem_outerShelves c x hx).2.1 (mem_outerShelves d y hy).2.1

/-- **The intrusive lists refine twelve ordinary ones.**  Where heads and links represent lists of
free blocks,

* inserting a free block that has no byte in common with a listed one puts it in front of the list
  of its class,
* removing a listed block erases it from its list, wherever it stands, and
* counting comes to the length of all lists together.

None of these faults.  The lists of the other classes stay as they are, the state is represented
again, and no byte changes but in links of the block and of those beside it. -/
theorem Represents.refines_lists (h : Represents hardened m lists shelves) :
    (∀ b, Linkable hardened m b → (∀ d, ∀ x ∈ shelves d, NoOverlap m b x) →
      ∃ lists' m', lists.insert hardened m b = .ok (lists', m') ∧
        Represents hardened m' lists' (shelves.push (SizeClass.of (sizeAt m b)) b) ∧
        m.EqOff m' (LinksOf fun y =>
          y = b ∨ Beside (b :: shelves (SizeClass.of (sizeAt m b))) b y)) ∧
    (∀ c, ∀ b ∈ shelves c,
      ∃ lists' m', lists.remove hardened m b = .ok (lists', m') ∧
        Represents hardened m' lists' (shelves.drop c b) ∧
        m.EqOff m' (LinksOf fun y => y = b ∨ Beside (shelves c) b y)) ∧
    lists.count hardened m = .ok (∑ c, (shelves c).length) :=
  ⟨fun _ hb fresh => h.insert hb rfl fresh, fun _ _ hb => h.remove hb, h.threaded.count_eq⟩

/-- In a heap of three blocks, of which two are listed, the third is put in front of them, the
second one of the list is taken out, and they are counted. -/
theorem refines_lists_of_three_blocks :
    (∃ lists m, outerLists.insert true outerTwo 56 = .ok (lists, m) ∧
      Represents true m lists (outerShelves.push (.of 48) 56)) ∧
    (∃ lists m, outerLists.remove true outerTwo 8 = .ok (lists, m) ∧
      Represents true m lists (outerShelves.drop (.of 48) 8)) ∧
    outerLists.count true outerTwo = .ok 2 := by
  obtain ⟨insert, remove, count⟩ := represents_outerTwo.refines_lists
  have middle : 56 ∈ [8, 56, 104] := by decide
  obtain ⟨linkable, size⟩ := linkable_outerTwo middle
  refine ⟨?_, ?_, count⟩
  · have fresh : ∀ c, ∀ x ∈ outerShelves c, NoOverlap outerTwo 56 x := fun c x hx =>
      noOverlap_outerTwo middle (mem_outerShelves c x hx).2.1 (mem_outerShelves c x hx).2.2.symm
    obtain ⟨lists, m, inserted, again, -⟩ := insert 56 linkable fresh
    rw [size] at again
    exact ⟨lists, m, inserted, again⟩
  · obtain ⟨lists, m, removed, again, -⟩ := remove (.of 48) 8 (by decide)
    exact ⟨lists, m, removed, again⟩

end Represents

end TaggedHeap
