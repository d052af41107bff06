import Mathlib.Data.List.Perm.Lattice
import TaggedHeap.Proofs.Layout

/-!
# What an audit accepts

An audit is a program that looks for the first thing that is wrong.  Here it is compared with the
layouts of the other modules, which say what is right.

* `walk_sound` and `walk_complete`: a walk that ends well has met extents that are contiguous, whose
  tags are there and of which no two free ones touch; and every such list of extents is met.
* `crossOff_sound` and `crossOff_complete`: a list that is followed to its end is linked, and every
  linked list is followed to its end.
* `audit_sound` and `audit_complete` put them together: **an audit succeeds exactly on arenas that
  are `Sound`,** and its figures are those of the extents.

The two differ in how they say that every free block is listed once.  An audit crosses off what it
meets, so its half of the statement is that one list is a permutation of another.
-/

namespace TaggedHeap

open Memory

variable {α β ε : Type}

/-! ## Computations that succeeded -/

/-- A computation that may stop has the same value among those that may be refused. -/
theorem lift_eq_ok_iff {x : Except Fault α} {a : α} :
    (liftM x : Except Failure α) = .ok a ↔ x = .ok a := by
  cases x with
  | error e =>
    constructor <;> intro h <;> cases h
  | ok b =>
    constructor <;> intro h <;> cases h <;> rfl

/-- A computation that succeeds does so among those that may be refused. -/
theorem lift_ok (a : α) : (liftM (Except.ok a : Except Fault α) : Except Failure α) = .ok a := rfl

/-- A demand of an audit is met if it does not refuse. -/
theorem expect_eq_ok_iff {condition : Bool} {offset : Nat} {cause : Corruption} {u : Unit} :
    Arena.expect condition offset cause = .ok u ↔ condition = true := by
  cases condition with
  | true => exact ⟨fun _ => rfl, fun _ => rfl⟩
  | false =>
    constructor <;> intro h <;> cases h

/-- A demand that is met lets the audit pass. -/
theorem expect_of {condition : Bool} {offset : Nat} {cause : Corruption} (h : condition = true) :
    Arena.expect condition offset cause = .ok () := expect_eq_ok_iff.mpr h

/-- Finding something wrong is no success. -/
theorem corrupt_ne_ok {offset : Nat} {cause : Corruption} {a : α} :
    Arena.corrupt offset cause ≠ .ok a := by
  intro h
  cases h

/-! ## The walk -/

section Walk

variable {m : Memory} {starts : StartSet} {epilogue block raw : Nat} {prev : Bool}
  {es : List Extent} {e : Extent}

/-- What a walk that ends well has found out about the extents that it met. -/
structure Walked (m : Memory) (starts : StartSet) (epilogue block : Nat) (prev : Bool)
    (es : List Extent) : Prop where
  /-- The epilogue lies inside the memory. -/
  inside : epilogue + wordSize ≤ m.size
  /-- The extents lie side by side. -/
  tiles : Contiguous block es epilogue
  /-- Their tags are there, and so is the epilogue. -/
  tagged : Tagged m prev (es ++ [.epilogue epilogue])
  /-- No two free ones touch. -/
  coalesced : Coalesced es
  /-- Nor does the first one touch a free one before it. -/
  first : prev = false → ∀ e ∈ es.head?, e.allocated = true
  /-- The start set agrees about each of them. -/
  agree : ∀ e ∈ es, starts.contains e.block = e.allocated

/-- A word without reserved bits is that of the extent and the mark that it stands for. -/
theorem encode_header (block : Nat) (reserved : Header.reserved raw = false)
    (mark : (Header.decode raw).prevAllocated = prev) :
    raw = ((⟨block, (Header.decode raw).size, (Header.decode raw).allocated⟩ : Extent).header
      prev).encode := by
  rw [Extent.header, ← mark]
  exact (Header.encode_decode reserved).symm

/-- A block passes the test of free blocks if it is allocated, or has a footer and does not touch a
free block before it. -/
theorem expectFooter_eq_ok_iff {u : Unit} :
    Arena.expectFooter m block raw prev = .ok u ↔
      ((Header.decode raw).allocated = false → prev = true ∧
        m.readWord (block + (Header.decode raw).size - wordSize) = .ok raw) := by
  unfold Arena.expectFooter
  cases taken : (Header.decode raw).allocated with
  | true => simp [taken]
  | false =>
    simp only [taken, Bool.false_eq_true, if_false, forall_const]
    rw [bind_eq_ok_iff]
    simp only [expect_eq_ok_iff, bind_eq_ok_iff, lift_eq_ok_iff, beq_iff_eq]
    constructor
    · rintro ⟨-, last, footer, hread, rfl⟩
      exact ⟨last, hread⟩
    · rintro ⟨last, hread⟩
      exact ⟨(), last, raw, hread, rfl⟩

/-- A walk that ends well either ends here or has met a block, from the end of which it goes on. -/
theorem walk_cases (h : Arena.walk m starts epilogue block prev = .ok es) :
    (block = epilogue ∧ es = [] ∧ block + wordSize ≤ m.size ∧
      (Extent.epilogue block).Tagged m prev) ∨
    ∃ e rest, es = e :: rest ∧ e.block = block ∧ e.Regular ∧ e.Tagged m prev ∧
      (e.allocated = false → prev = true) ∧ starts.contains e.block = e.allocated ∧
      Arena.walk m starts epilogue e.stop e.allocated = .ok rest := by
  rw [Arena.walk] at h
  simp only [bind_eq_ok_iff, lift_eq_ok_iff, expect_eq_ok_iff, beq_iff_eq, Bool.not_eq_true'] at h
  obtain ⟨raw, hread, -, reserved, -, mark, h⟩ := h
  obtain ⟨inside, word⟩ := readWord_eq_ok_iff.mp hread
  have encode := encode_header block reserved mark
  split at h
  next here =>
    simp only [bind_eq_ok_iff, expect_eq_ok_iff, Bool.and_eq_true, beq_iff_eq] at h
    obtain ⟨-, ⟨size, taken⟩, h⟩ := h
    rw [size, taken] at encode
    cases h
    exact .inl ⟨here, rfl, inside, word.trans encode, fun free => by cases free⟩
  next =>
    split at h
    next => exact absurd h corrupt_ne_ok
    next room =>
      split at h
      next => exact absurd h corrupt_ne_ok
      next fits =>
        simp only [bind_eq_ok_iff, expect_eq_ok_iff, expectFooter_eq_ok_iff, beq_iff_eq] at h
        obtain ⟨-, agree, -, footer, rest, hrest, h⟩ := h
        cases h
        refine .inr ⟨_, rest, rfl, rfl, ⟨Nat.not_lt.mp room, Header.size_decode_mod raw⟩,
          ⟨word.trans encode, ?_⟩, fun free => (footer free).1, agree.symm, hrest⟩
        intro free
        exact (readWord_eq_ok_iff.mp (footer free).2).2.trans encode

/-- **A walk that ends well has met a heap.** -/
theorem walk_sound (h : Arena.walk m starts epilogue block prev = .ok es) :
    Walked m starts epilogue block prev es := by
  induction es generalizing block prev with
  | nil =>
    rcases walk_cases h with ⟨rfl, -, inside, tagged⟩ | ⟨e, rest, met, -⟩
    · refine ⟨inside, rfl, ⟨tagged, trivial⟩, .nil, ?_, ?_⟩
      · intro _ e he
        cases he
      · intro e he
        cases he
    · cases met
  | cons e es ih =>
    rcases walk_cases h with ⟨-, met, -⟩ | ⟨_, _, met, rfl, regular, tagged, last, agree, hrest⟩
    · cases met
    cases met
    have walked := ih hrest
    refine ⟨walked.inside, ⟨rfl, regular, walked.tiles⟩, ⟨tagged, walked.tagged⟩,
      List.isChain_cons.mpr ⟨?_, walked.coalesced⟩, ?_, ?_⟩
    · intro y hy
      cases taken : e.allocated with
      | true => exact .inl rfl
      | false => exact .inr (walked.first taken y hy)
    · intro free x hx
      cases hx
      by_contra not_taken
      rw [last (Bool.not_eq_true _ ▸ not_taken)] at free
      cases free
    · intro x hx
      rcases List.mem_cons.mp hx with rfl | hx
      · exact agree
      · exact walked.agree x hx

/-- The tests that a walk makes of every header pass. -/
theorem header_passes {e : Extent} {k : Except Failure (List Extent)} (tagged : e.Tagged m prev)
    (units : e.size % alignment = 0) :
    (do
      Arena.expect (!Header.reserved (m.word e.block)) e.block .reservedBits
      Arena.expect ((Header.decode (m.word e.block)).prevAllocated == prev) e.block
        .wrongPredecessor
      k) = k := by
  have reserved : (!Header.reserved (m.word e.block)) = true := by
    rw [tagged.head, Header.reserved_encode units]
    rfl
  have mark : ((Header.decode (m.word e.block)).prevAllocated == prev) = true := by
    rw [tagged.decode units]
    exact beq_self_eq_true prev
  rw [expect_of reserved, ok_bind, expect_of mark, ok_bind]

/-- **A heap is walked through from one end to the other.** -/
theorem walk_complete (h : Walked m starts epilogue block prev es) :
    Arena.walk m starts epilogue block prev = .ok es := by
  induction es generalizing block prev with
  | nil =>
    obtain rfl : block = epilogue := h.tiles
    have tagged : (Extent.epilogue block).Tagged m prev := h.tagged.1
    rw [Arena.walk, readWord_of_le h.inside, lift_ok, ok_bind]
    dsimp only
    apply (header_passes (e := Extent.epilogue block) tagged rfl).trans
    have ends : ((Header.decode (m.word block)).size == 0 &&
        (Header.decode (m.word block)).allocated) = true := by
      rw [show m.word block = m.word (Extent.epilogue block).block from rfl, tagged.decode rfl]
      rfl
    rw [if_pos rfl, expect_of ends]
    rfl
  | cons e es ih =>
    obtain ⟨rfl, regular, tiles⟩ := h.tiles
    obtain ⟨tagged, tagged_rest⟩ := h.tagged
    have room : 32 ≤ e.size := regular.room
    have le : e.block + e.size ≤ epilogue := tiles.le
    have epilogue_inside : epilogue + 8 ≤ m.size := h.inside
    have decode := tagged.decode regular.units
    have rest : Arena.walk m starts epilogue (e.block + e.size) e.allocated = .ok es := by
      obtain ⟨seam, coalesced⟩ := List.isChain_cons.mp h.coalesced
      refine ih ⟨h.inside, tiles, tagged_rest, coalesced, ?_, fun x hx =>
        h.agree x (List.mem_cons_of_mem _ hx)⟩
      intro free y hy
      exact (seam y hy).resolve_left (by rw [free]; exact Bool.false_ne_true)
    have agrees : (e.allocated == starts.contains e.block) = true := by
      rw [h.agree e List.mem_cons_self]
      exact beq_self_eq_true _
    have footer : Arena.expectFooter m e.block (m.word e.block) prev = .ok () := by
      rw [expectFooter_eq_ok_iff, decode]
      intro free
      constructor
      · by_contra last
        have first := h.first (Bool.not_eq_true _ ▸ last) e rfl
        rw [show e.allocated = false from free] at first
        cases first
      · have inside : e.stop - wordSize + wordSize ≤ m.size := by
          simp only [Extent.stop, wordSize]
          omega
        show m.readWord (e.stop - wordSize) = _
        rw [readWord_of_le inside, tagged.foot free, ← tagged.head]
    rw [Arena.walk, readWord_of_le (by simp only [wordSize]; omega), lift_ok, ok_bind]
    dsimp only
    apply (header_passes tagged regular.units).trans
    rw [if_neg (by omega), decode, Extent.header]
    dsimp only
    rw [dif_neg (by simp only [minBlockSize]; omega), dif_neg (by omega), expect_of agrees, ok_bind,
      footer, ok_bind, rest]
    rfl

end Walk

/-! ## The lists -/

section CrossOff

variable {hardened : Bool} {m : Memory} {lists : FreeLists} {shelves : Shelves} {c : SizeClass}
  {b : Nat} {prev cursor target : Option Nat} {l unlisted left rest : List Nat}
  {classes : List SizeClass}

/-- What a link of a block names is what its word says, read as a block or none. -/
theorem Linkable.word_of_link (hb : Linkable hardened m b) {slot : Nat}
    (h : Memory.link hardened m b slot = .ok target) : m.word slot = target.getD 0 := by
  rw [Memory.link, hb.requireLinkable, ok_bind, bind_eq_ok_iff] at h
  obtain ⟨w, hread, h⟩ := h
  obtain ⟨-, rfl⟩ := readWord_eq_ok_iff.mp hread
  rw [pure_eq_ok, Except.ok.injEq] at h
  subst h
  split
  next zero => rw [zero]; rfl
  next => rfl

/-- **A list that is followed to its end is linked,** and its blocks were crossed off. -/
theorem crossOff_sound (listable : ∀ b ∈ unlisted, Listable m b)
    (h : Arena.crossOff hardened m c prev cursor unlisted = .ok left) :
    ∃ l, cursor = l.head? ∧ Linked m prev l none ∧
      (∀ b ∈ l, SizeClass.of (sizeAt m b) = c) ∧ unlisted.Perm (l ++ left) := by
  induction prev, cursor, unlisted using Arena.crossOff.induct with
  | case1 prev unlisted =>
    rw [Arena.crossOff.eq_def] at h
    cases h
    exact ⟨[], rfl, trivial, fun b hb => absurd hb List.not_mem_nil, .refl _⟩
  | case2 prev unlisted b listed ih =>
    have hb := (listable b listed).linkable hardened
    rw [Arena.crossOff.eq_def] at h
    simp only [dif_pos listed, hb.requireLinks, hb.classOfBlock, lift_ok, ok_bind] at h
    simp only [bind_eq_ok_iff, lift_eq_ok_iff, expect_eq_ok_iff, beq_iff_eq] at h
    obtain ⟨-, class_eq, back, hback, -, rfl, next, hnext, h⟩ := h
    obtain ⟨l, rfl, linked, sorted, perm⟩ :=
      ih next (fun x hx => listable x (List.mem_of_mem_erase hx)) h
    refine ⟨b :: l, rfl, ⟨?_, hb.word_of_link hback, linked⟩, ?_, ?_⟩
    · rw [Option.or_none]
      exact hb.word_of_link hnext
    · intro x hx
      rcases List.mem_cons.mp hx with rfl | hx
      · exact class_eq
      · exact sorted x hx
    · exact (List.perm_cons_erase listed).trans (perm.cons b)
  | case3 prev unlisted b stray =>
    rw [Arena.crossOff.eq_def] at h
    simp only [dif_neg stray] at h
    exact absurd h corrupt_ne_ok

/-- **A linked list is followed to its end** if its blocks are among those that are yet unlisted. -/
theorem crossOff_complete (linked : Linked m prev l none)
    (listable : ∀ b ∈ l, Listable m b) (pos : ∀ b ∈ prev, b ≠ 0)
    (sorted : ∀ b ∈ l, SizeClass.of (sizeAt m b) = c) (perm : unlisted.Perm (l ++ rest)) :
    ∃ left, Arena.crossOff hardened m c prev l.head? unlisted = .ok left ∧ left.Perm rest := by
  induction l generalizing prev unlisted with
  | nil =>
    refine ⟨unlisted, ?_, perm⟩
    rw [List.head?_nil, Arena.crossOff.eq_def]
    rfl
  | cons b l ih =>
    obtain ⟨word_next, word_prev, linked_rest⟩ := linked
    have hb := (listable b List.mem_cons_self).linkable hardened
    have listable_rest : ∀ x ∈ l, Listable m x := fun x hx =>
      listable x (List.mem_cons_of_mem _ hx)
    have listed : b ∈ unlisted := perm.mem_iff.mpr List.mem_cons_self
    have perm_rest : (unlisted.erase b).Perm (l ++ rest) := by
      have erased := perm.erase b
      rwa [List.cons_append, List.erase_cons_head] at erased
    obtain ⟨left, hrest, perm_left⟩ := ih linked_rest listable_rest
      (fun x hx => by cases hx; exact hb.pos)
      (fun x hx => sorted x (List.mem_cons_of_mem _ hx)) perm_rest
    have next_pos : ∀ x ∈ l.head?, x ≠ 0 := fun x hx =>
      (listable_rest x (List.mem_of_head? hx)).pos
    rw [Option.or_none] at word_next
    have class_eq : (SizeClass.of (sizeAt m b) == c) = true :=
      beq_iff_eq.mpr (sorted b List.mem_cons_self)
    refine ⟨left, ?_, perm_left⟩
    rw [List.head?_cons, Arena.crossOff.eq_def]
    simp only [dif_pos listed, hb.requireLinks, hb.classOfBlock, hb.prevLink word_prev pos,
      hb.nextLink word_next next_pos, lift_ok, ok_bind, expect_of class_eq,
      expect_of (beq_self_eq_true prev)]
    exact hrest

/-- The lists of some classes that are followed to their ends are shelves. -/
theorem crossOffAll_sound (nodup : classes.Nodup)
    (listable : ∀ b ∈ unlisted, Listable m b)
    (h : Arena.crossOffAll hardened m lists classes unlisted = .ok left) :
    ∃ shelves : Shelves, (∀ c ∈ classes, lists.head c = (shelves c).head? ∧
        Linked m none (shelves c) none ∧ ∀ b ∈ shelves c, SizeClass.of (sizeAt m b) = c) ∧
      unlisted.Perm (classes.flatMap shelves ++ left) := by
  induction classes generalizing unlisted with
  | nil =>
    cases h
    exact ⟨.empty, fun c hc => absurd hc List.not_mem_nil, .refl _⟩
  | cons c classes ih =>
    obtain ⟨fresh, nodup_rest⟩ := List.nodup_cons.mp nodup
    rw [Arena.crossOffAll, bind_eq_ok_iff] at h
    obtain ⟨kept, hfirst, hrest⟩ := h
    obtain ⟨l, head, linked, sorted, perm⟩ := crossOff_sound listable hfirst
    obtain ⟨shelves, spec, perm_rest⟩ := ih nodup_rest
      (fun b hb => listable b (perm.mem_iff.mpr (List.mem_append_right _ hb))) hrest
    have other : ∀ d ∈ classes, shelves.set c l d = shelves d := by
      intro d hd
      apply Shelves.set_of_ne _ _
      rintro rfl
      exact fresh hd
    refine ⟨shelves.set c l, ?_, ?_⟩
    · intro d hd
      rcases List.mem_cons.mp hd with rfl | hd
      · rw [Shelves.set_self]
        exact ⟨head, linked, sorted⟩
      · rw [other d hd]
        exact spec d hd
    · rw [List.flatMap_cons, Shelves.set_self, List.append_assoc,
        List.flatMap_congr fun d hd => other d hd]
      exact perm.trans (perm_rest.append_left l)

/-- Shelves are followed to their ends, class by class. -/
theorem crossOffAll_complete (h : Shelving m lists shelves)
    (perm : unlisted.Perm (classes.flatMap shelves ++ rest)) :
    ∃ left, Arena.crossOffAll hardened m lists classes unlisted = .ok left ∧ left.Perm rest := by
  induction classes generalizing unlisted with
  | nil => exact ⟨unlisted, rfl, perm⟩
  | cons c classes ih =>
    rw [List.flatMap_cons, List.append_assoc] at perm
    obtain ⟨kept, hfirst, perm_kept⟩ := crossOff_complete (h.linked c) (h.listable c)
      (fun b hb => by cases hb) (h.sorted c) perm
    obtain ⟨left, hrest, perm_left⟩ := ih perm_kept
    refine ⟨left, ?_, perm_left⟩
    rw [Arena.crossOffAll, h.heads, hfirst, ok_bind]
    exact hrest

end CrossOff

/-! ## The whole audit -/

section Audit

variable {hardened : Bool} {filled : Extent → Prop} {arena : Arena} {m : Memory}
  {high b stop : Nat} {stats : Stats} {es : List Extent} {e x : Extent} {shelves : Shelves}
  {prev : Bool}

/-- Every extent of a tagged list is tagged. -/
theorem Tagged.of_mem (h : Tagged m prev es) (he : e ∈ es) : ∃ prev', e.Tagged m prev' := by
  obtain ⟨pre, post, rfl⟩ := List.append_of_mem he
  exact ⟨_, (tagged_middle.mp h).2.1⟩

/-- The blocks of the free ones of some extents. -/
def freeBlocksOf (es : List Extent) : List Nat :=
  (es.filter fun e => !e.allocated).map (·.block)

/-- A block is among those of the free extents if one of these starts there. -/
theorem mem_freeBlocksOf : b ∈ freeBlocksOf es ↔ ∃ e ∈ es, e.allocated = false ∧ e.block = b := by
  simp only [freeBlocksOf, List.mem_map, List.mem_filter, Bool.not_eq_true', and_assoc]

/-- Free blocks side by side start at different offsets. -/
theorem Contiguous.nodup_freeBlocksOf (tiles : Contiguous firstBlock es stop) :
    (freeBlocksOf es).Nodup :=
  tiles.nodup.sublist (List.filter_sublist.map _)

/-- Every free block that a walk has met can be listed. -/
theorem Walked.listable {starts : StartSet} {epilogue : Nat}
    (h : Walked m starts epilogue firstBlock true es) (bounded : m.size < wordBound) (he : e ∈ es)
    (free : e.allocated = false) :
    Listable m e.block ∧ sizeAt m e.block = e.size := by
  obtain ⟨start, stop, room, units, aligned⟩ := h.tiles.bounds he
  obtain ⟨prev, tagged⟩ := h.tagged.of_mem (List.mem_append_left _ he)
  have inside := h.inside
  exact tagged.listable free ⟨room, units⟩ (by simp only [Extent.stop]; omega) bounded aligned

/-- A block stands on some shelf if it is one of the free ones that were crossed off. -/
theorem mem_shelves_iff (perm : (freeBlocksOf es).Perm (SizeClass.all.flatMap shelves)) :
    (∃ c, b ∈ shelves c) ↔ ∃ e ∈ es, e.allocated = false ∧ e.block = b := by
  rw [← mem_freeBlocksOf, perm.mem_iff, List.mem_flatMap]
  exact ⟨fun ⟨c, hb⟩ => ⟨c, List.mem_finRange c, hb⟩, fun ⟨c, _, hb⟩ => ⟨c, hb⟩⟩

/-- Lists that were followed to their ends are shelves, if the free blocks that a walk has met were
crossed off one by one. -/
theorem Walked.shelving {starts : StartSet} {epilogue : Nat} {lists : FreeLists}
    (walked : Walked m starts epilogue firstBlock true es) (bounded : m.size < wordBound)
    (spec : ∀ c, lists.head c = (shelves c).head? ∧ Linked m none (shelves c) none ∧
      ∀ b ∈ shelves c, SizeClass.of (sizeAt m b) = c)
    (perm : (freeBlocksOf es).Perm (SizeClass.all.flatMap shelves)) :
    Shelving m lists shelves where
  heads c := (spec c).1
  linked c := (spec c).2.1
  listable c b hb := by
    obtain ⟨e, he, free, rfl⟩ := (mem_shelves_iff perm).mp ⟨c, hb⟩
    exact (walked.listable bounded he free).1
  sorted c := (spec c).2.2
  nodup c := by
    have flat := perm.nodup_iff.mp walked.tiles.nodup_freeBlocksOf
    exact (List.nodup_flatMap.mp flat).1 c (List.mem_finRange c)
  apart c d x y hx hy ne := by
    obtain ⟨e, he, -, rfl⟩ := (mem_shelves_iff perm).mp ⟨c, hx⟩
    obtain ⟨f, hf, -, rfl⟩ := (mem_shelves_iff perm).mp ⟨d, hy⟩
    have room_e : 32 ≤ e.size := (walked.tiles.bounds he).room
    have room_f : 32 ≤ f.size := (walked.tiles.bounds hf).room
    rcases walked.tiles.apart he hf with rfl | before | behind
    · exact absurd rfl ne
    · simp only [Extent.stop] at before
      omega
    · simp only [Extent.stop] at behind
      omega

/-- Each free block that a walk has met stands on the shelf of its class. -/
theorem Walked.filed {starts : StartSet} {epilogue : Nat}
    (walked : Walked m starts epilogue firstBlock true es) (bounded : m.size < wordBound)
    (sorted : ∀ c, ∀ b ∈ shelves c, SizeClass.of (sizeAt m b) = c)
    (perm : (freeBlocksOf es).Perm (SizeClass.all.flatMap shelves)) : Filed shelves es := by
  intro c b
  constructor
  · intro hb
    obtain ⟨e, he, free, rfl⟩ := (mem_shelves_iff perm).mp ⟨c, hb⟩
    refine ⟨e, he, free, rfl, ?_⟩
    rw [← (walked.listable bounded he free).2]
    exact sorted c _ hb
  · rintro ⟨e, he, free, rfl, rfl⟩
    obtain ⟨d, hd⟩ := (mem_shelves_iff perm).mpr ⟨e, he, free, rfl⟩
    have there := sorted d _ hd
    rw [(walked.listable bounded he free).2] at there
    rwa [there]

/-- **What passes an audit is sound,** and the figures are those of its extents. -/
theorem audit_sound (bounded : high < wordBound) (h : arena.audit hardened high = .ok stats) :
    arena.memory.size = high ∧ ∃ es shelves, arena.Sound (fun _ => False) high es shelves ∧
      stats = Stats.ofExtents high es := by
  unfold Arena.audit at h
  simp only [bind_eq_ok_iff, expect_eq_ok_iff, Bool.and_eq_true, decide_eq_true_eq, beq_iff_eq,
    List.partition_eq_filter_filter] at h
  obtain ⟨-, ⟨⟨large, units⟩, size⟩, es, hwalk, -, count, left, hcross, h⟩ := h
  have walked := walk_sound hwalk
  obtain rfl : left = [] := by
    cases left with
    | nil => rfl
    | cons b left => exact absurd h corrupt_ne_ok
  have bounded' : arena.memory.size < wordBound := by omega
  have hcross : Arena.crossOffAll hardened arena.memory arena.lists SizeClass.all
      (freeBlocksOf es) = .ok [] := hcross
  have listable : ∀ b ∈ freeBlocksOf es, Listable arena.memory b := by
    intro b hb
    obtain ⟨e, he, free, rfl⟩ := mem_freeBlocksOf.mp hb
    exact (walked.listable bounded' he free).1
  obtain ⟨shelves, spec, perm⟩ := crossOffAll_sound (List.nodup_finRange _) listable hcross
  rw [List.append_nil] at perm
  have spec := fun c => spec c (List.mem_finRange c)
  refine ⟨size, es, shelves, ?_, ?_⟩
  · exact {
      shelving := walked.shelving bounded' spec perm
      filed := walked.filed bounded' (fun c => (spec c).2.2) perm
      inside := Nat.le_of_eq size.symm
      bounded := bounded'
      tiles := walked.tiles
      tagged := walked.tagged
      poisoned := fun _ _ _ must => must.elim
      coalesced := walked.coalesced
      marks := marks_of_size walked.tiles walked.agree count }
  · cases h
    rfl

/-- The blocks on the shelves are the free ones. -/
theorem Tiled.perm_shelves {lists : FreeLists} (h : Tiled filled m lists high es shelves) :
    (freeBlocksOf es).Perm (SizeClass.all.flatMap shelves) := by
  have nodup : (SizeClass.all.flatMap shelves).Nodup := by
    refine List.nodup_flatMap.mpr ⟨fun c _ => h.shelving.nodup c,
      (List.nodup_finRange _).imp fun {c d} ne b hb hb' => ne ?_⟩
    rw [← h.shelving.sorted c b hb, h.shelving.sorted d b hb']
  apply (List.perm_ext_iff_of_nodup h.tiles.nodup_freeBlocksOf nodup).mpr
  intro b
  rw [mem_freeBlocksOf, List.mem_flatMap]
  constructor
  · rintro ⟨e, he, free, rfl⟩
    exact ⟨_, List.mem_finRange _, (h.filed _ _).mpr ⟨e, he, free, rfl, rfl⟩⟩
  · rintro ⟨c, -, hb⟩
    obtain ⟨e, he, free, rfl, -⟩ := (h.filed c b).mp hb
    exact ⟨e, he, free, rfl⟩

/-- What was walked through passes an audit, if the start set names the live blocks and the lists
hold the free ones. -/
theorem Walked.audit
    (walked : Walked arena.memory arena.starts (high - wordSize) firstBlock true es)
    (marks : Marks arena.starts es) (shelving : Shelving arena.memory arena.lists shelves)
    (perm : (freeBlocksOf es).Perm (SizeClass.all.flatMap shelves))
    (size : arena.memory.size = high) :
    arena.audit hardened high = .ok (Stats.ofExtents high es) := by
  have start : 8 ≤ high - 8 := walked.tiles.le
  have units : (high - 8) % 16 = 8 := walked.tiles.stop_mod
  have whole : (heapOverhead ≤ high && high % alignment == 0 && arena.memory.size == high)
      = true := by
    simp only [heapOverhead, alignment, size, beq_self_eq_true, Bool.and_true, Bool.and_eq_true,
      decide_eq_true_eq, beq_iff_eq]
    omega
  have count : (arena.starts.size == (es.filter (·.allocated)).length) = true :=
    beq_iff_eq.mpr (marks.size walked.tiles)
  obtain ⟨left, hcross, perm_left⟩ := crossOffAll_complete shelving
    (show (freeBlocksOf es).Perm (SizeClass.all.flatMap shelves ++ []) by
      rw [List.append_nil]
      exact perm)
  obtain rfl := perm_left.eq_nil
  have hcross : Arena.crossOffAll hardened arena.memory arena.lists SizeClass.all
      (List.map (fun x => x.block) (List.filter (not ∘ fun x => x.allocated) es)) = .ok [] := hcross
  unfold Arena.audit
  rw [expect_of whole, ok_bind, walk_complete walked, ok_bind]
  simp only [List.partition_eq_filter_filter]
  rw [expect_of count, ok_bind, hcross, ok_bind]
  rfl

/-- A walk through what is sound tells its extents. -/
theorem Arena.Sound.walked (sound : arena.Sound filled high es shelves) :
    Walked arena.memory arena.starts (high - wordSize) firstBlock true es where
  inside := by
    have start : 8 ≤ high - 8 := sound.tiles.le
    have inside := sound.inside
    simp only [wordSize]
    omega
  tiles := sound.tiles
  tagged := sound.tagged
  coalesced := sound.coalesced
  first last := by cases last
  agree _ he := sound.marks.agree sound.tiles he

/-- **What is sound passes an audit,** if it ends where its memory does. -/
theorem audit_complete (sound : arena.Sound filled high es shelves)
    (size : arena.memory.size = high) :
    arena.audit hardened high = .ok (Stats.ofExtents high es) :=
  sound.walked.audit sound.marks sound.shelving sound.perm_shelves size

end Audit

end TaggedHeap
