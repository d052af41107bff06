import TaggedHeap.Audit
import TaggedHeap.Proofs.Access

/-!
# Blocks side by side, and the words that say so

A heap is a list of extents, one behind the other, and the memory says so in its headers and
footers.  The two halves of this are kept apart.

* `Contiguous start es stop` is about the extents alone: they fill `[start, stop)` without a gap,
  and each of them is whole units long and has room for a free block.
* `Tagged m prev es` is about the memory: each extent's header is the right word, mark about its
  predecessor included, and so is the footer of each free one.  `prev` is the state of what lies
  before the first of them.

The epilogue is an extent of no bytes (`Extent.epilogue`), so that every block has a next one.
Both predicates split along a list (`contiguous_append`, `tagged_append`), and `Tagged.congr` moves
the second one to a memory that has the same tags.  `Contiguous.bounds` and `Contiguous.apart` are
what the arithmetic about disjoint ranges starts from.
-/

namespace TaggedHeap

/-! ## The header word -/

namespace Header

/-- A header is read back from its word. -/
theorem decode_encode {h : Header} (hs : h.size % alignment = 0) : decode h.encode = h := by
  obtain ⟨size, allocated, prevAllocated⟩ := h
  simp only [alignment] at hs
  have hunits : size = 16 * (size / 16) := by omega
  cases allocated <;> cases prevAllocated <;>
    simp only [decode, encode, Bool.toNat_true, Bool.toNat_false, alignment, mk.injEq,
      beq_iff_eq, beq_eq_false_iff_ne] <;> omega

/-- A header's word leaves the reserved bits clear. -/
theorem reserved_encode {h : Header} (hs : h.size % alignment = 0) : reserved h.encode = false := by
  obtain ⟨size, allocated, prevAllocated⟩ := h
  simp only [alignment] at hs
  cases allocated <;> cases prevAllocated <;>
    simp only [reserved, encode, Bool.toNat_true, Bool.toNat_false, bne_eq_false_iff_eq] <;> omega

/-- A word with clear reserved bits is the word of the header that it stands for. -/
theorem encode_decode {w : Nat} (h : reserved w = false) : (decode w).encode = w := by
  simp only [reserved, bne_eq_false_iff_eq] at h
  simp only [decode, encode, alignment]
  rcases Nat.mod_two_eq_zero_or_one w with h0 | h0 <;>
    rcases Nat.mod_two_eq_zero_or_one (w / 2) with h1 | h1 <;>
    simp only [h0, h1] <;> simp <;> omega

/-- The size of any header that is read is whole units. -/
theorem size_decode_mod (w : Nat) : (decode w).size % alignment = 0 :=
  Nat.mul_mod_left ..

/-- The word of a header whose size is whole units of a word is a word. -/
theorem encode_lt {h : Header} (hs : h.size % alignment = 0) (hlt : h.size < wordBound) :
    h.encode < wordBound := by
  obtain ⟨size, allocated, prevAllocated⟩ := h
  simp only [alignment, wordBound] at hs hlt ⊢
  cases allocated <;> cases prevAllocated <;>
    simp only [encode, Bool.toNat_true, Bool.toNat_false] <;> omega

end Header

/-- A header is written where there is room for it, is read back, and touches nothing else. -/
theorem Memory.putHeader_ok (hardened : Bool) (m : Memory) (block : Nat) (h : Header)
    (inside : block + wordSize ≤ m.size) (units : h.size % alignment = 0)
    (small : h.size < wordBound) :
    ∃ m', m.putHeader hardened block h = .ok m' ∧ m'.word block = h.encode ∧
      m.EqOff m' (Memory.Span block (block + wordSize)) :=
  ⟨_, Memory.putHeader_of_le inside units,
    Memory.word_putWord inside (Header.encode_lt units small), Memory.eqOff_putWord ..⟩

/-! ## Extents -/

namespace Extent

/-- One past an extent's last byte. -/
abbrev stop (e : Extent) : Nat := e.block + e.size

/-- The header that an extent has behind a block in the given state. -/
def header (e : Extent) (prevAllocated : Bool) : Header := ⟨e.size, e.allocated, prevAllocated⟩

/-- The extent that ends a heap, at the given offset. -/
def epilogue (block : Nat) : Extent := ⟨block, 0, true⟩

/-- An extent is whole units long and has room for a free block. -/
structure Regular (e : Extent) : Prop where
  /-- There is room for header, links and footer. -/
  room : minBlockSize ≤ e.size
  /-- The size is whole units. -/
  units : e.size % alignment = 0

/-- The memory has the header of an extent and, if it is free, the footer. -/
structure Tagged (e : Extent) (m : Memory) (prevAllocated : Bool) : Prop where
  /-- The header is there. -/
  head : m.word e.block = (e.header prevAllocated).encode
  /-- The footer is there. -/
  foot : e.allocated = false → m.word (e.stop - wordSize) = (e.header prevAllocated).encode

/-- The bytes of an extent's tags. -/
def TagByte (e : Extent) (j : Nat) : Prop :=
  Memory.Span e.block (e.block + wordSize) j ∨
    e.allocated = false ∧ Memory.Span (e.stop - wordSize) e.stop j

/-- Tags are read from their bytes. -/
theorem Tagged.congr {e : Extent} {m m' : Memory} {prev : Bool} (h : e.Tagged m prev)
    (room : wordSize ≤ e.size ∨ e.allocated = true)
    (same : ∀ j, e.TagByte j → m'.byte j = m.byte j) : e.Tagged m' prev where
  head := by
    rw [← h.head]
    exact Memory.word_congr fun j hj hj' => same j (.inl ⟨hj, hj'⟩)
  foot free := by
    rw [← h.foot free]
    refine Memory.word_congr fun j hj hj' => same j (.inr ⟨free, hj, ?_⟩)
    rcases room with room | taken
    · simp only [stop] at hj hj' ⊢
      omega
    · rw [free] at taken
      cases taken

/-- A byte of a payload, counted from its start, lies in it. -/
theorem span_payload {e : Extent} {j : Nat} (h : j < e.size - wordSize) :
    Memory.Span (payloadOf e.block) e.stop (payloadOf e.block + j) := by
  simp only [Memory.Span, payloadOf, stop, wordSize] at h ⊢
  omega

/-- A payload reaches to the end of its block. -/
theorem payload_stop {e : Extent} (room : wordSize ≤ e.size) :
    payloadOf e.block + (e.size - wordSize) = e.stop := by
  simp only [payloadOf, stop, wordSize] at room ⊢
  omega

/-- The header that a tagged extent's first word stands for. -/
theorem Tagged.decode {e : Extent} {m : Memory} {prev : Bool} (h : e.Tagged m prev)
    (units : e.size % alignment = 0) : Header.decode (m.word e.block) = e.header prev := by
  rw [h.head]
  exact Header.decode_encode units

end Extent

/-! ## Contiguous extents -/

/-- The extents fill `[start, stop)`, one behind the other. -/
def Contiguous : (start : Nat) → List Extent → (stop : Nat) → Prop
  | start, [], stop => start = stop
  | start, e :: es, stop => e.block = start ∧ e.Regular ∧ Contiguous e.stop es stop

section Contiguous

variable {a b c : Nat} {e x y : Extent} {es xs ys pre post : List Extent}

/-- Extents fill a range in two parts. -/
theorem contiguous_append :
    Contiguous a (xs ++ ys) c ↔ ∃ b, Contiguous a xs b ∧ Contiguous b ys c := by
  induction xs generalizing a with
  | nil => simp [Contiguous]
  | cons x xs ih =>
    simp only [List.cons_append, Contiguous, ih]
    constructor
    · rintro ⟨hx, hr, b, hxs, hys⟩
      exact ⟨b, ⟨hx, hr, hxs⟩, hys⟩
    · rintro ⟨b, ⟨hx, hr, hxs⟩, hys⟩
      exact ⟨hx, hr, b, hxs, hys⟩

/-- What lies before an extent ends where it starts, and what lies behind starts where it ends. -/
theorem contiguous_middle :
    Contiguous a (pre ++ e :: post) c ↔
      Contiguous a pre e.block ∧ e.Regular ∧ Contiguous e.stop post c := by
  rw [contiguous_append]
  constructor
  · rintro ⟨b, hpre, rfl, hr, hpost⟩
    exact ⟨hpre, hr, hpost⟩
  · rintro ⟨hpre, hr, hpost⟩
    exact ⟨e.block, hpre, rfl, hr, hpost⟩

/-- Contiguous extents do not go backwards. -/
theorem Contiguous.le (h : Contiguous a es c) : a ≤ c := by
  induction es generalizing a with
  | nil => exact Nat.le_of_eq h
  | cons e es ih =>
    obtain ⟨rfl, -, hes⟩ := h
    exact Nat.le_trans (Nat.le_add_right ..) (ih hes)

/-- Where an extent of contiguous ones lies. -/
structure Extent.Within (e : Extent) (a c : Nat) : Prop where
  /-- Not before the first one. -/
  start : a ≤ e.block
  /-- Not beyond the last one. -/
  stop : e.block + e.size ≤ c
  /-- It has room for a free block. -/
  room : minBlockSize ≤ e.size
  /-- Its size is whole units. -/
  units : e.size % alignment = 0
  /-- It starts whole units behind the first one. -/
  aligned : e.block % alignment = a % alignment

/-- An extent of contiguous ones lies between their ends. -/
theorem Contiguous.bounds (h : Contiguous a es c) (he : e ∈ es) : e.Within a c := by
  obtain ⟨pre, post, rfl⟩ := List.append_of_mem he
  obtain ⟨hpre, hr, hpost⟩ := contiguous_middle.mp h
  refine ⟨hpre.le, hpost.le, hr.room, hr.units, ?_⟩
  clear h he hpost
  induction pre generalizing a with
  | nil => exact congrArg (· % alignment) hpre.symm
  | cons x pre ih =>
    obtain ⟨rfl, hx, hrest⟩ := hpre
    have hunits := hx.units
    rw [ih hrest]
    simp only [Extent.stop, alignment] at hunits ⊢
    omega

/-- Contiguous extents end whole units behind their start. -/
theorem Contiguous.stop_mod (h : Contiguous a es c) : c % alignment = a % alignment := by
  rcases List.eq_nil_or_concat es with rfl | ⟨xs, x, rfl⟩
  · exact congrArg (· % alignment) (Eq.symm h)
  · have hx := h.bounds (e := x) (by simp)
    have hstop : x.stop = c := by
      rw [List.concat_eq_append] at h
      exact (contiguous_middle.mp h).2.2
    have hunits := hx.units
    have haligned := hx.aligned
    simp only [Extent.stop, alignment] at hstop hunits haligned ⊢
    omega

/-- Two of some contiguous extents are the same or do not touch each other's bytes. -/
theorem Contiguous.apart (h : Contiguous a es c) (hx : x ∈ es) (hy : y ∈ es) :
    x = y ∨ x.stop ≤ y.block ∨ y.stop ≤ x.block := by
  induction es generalizing a with
  | nil => cases hx
  | cons e es ih =>
    obtain ⟨rfl, -, hes⟩ := h
    rcases List.mem_cons.mp hx with hxe | hx <;> rcases List.mem_cons.mp hy with hye | hy
    · exact .inl (hxe.trans hye.symm)
    · exact .inr (.inl (hxe ▸ (hes.bounds hy).start))
    · exact .inr (.inr (hye ▸ (hes.bounds hx).start))
    · exact ih hes hx hy

/-- Of contiguous extents, at most one starts at an offset. -/
theorem Contiguous.block_inj (h : Contiguous a es c) (hx : x ∈ es) (hy : y ∈ es)
    (hxy : x.block = y.block) : x = y := by
  have rx := (h.bounds hx).room
  have ry := (h.bounds hy).room
  rcases h.apart hx hy with rfl | before | after
  · rfl
  · simp only [Extent.stop, minBlockSize] at before rx
    omega
  · simp only [Extent.stop, minBlockSize] at after ry
    omega

/-- Contiguous extents start at different offsets. -/
theorem Contiguous.nodup (h : Contiguous a es c) : (es.map (·.block)).Nodup := by
  induction es generalizing a with
  | nil => exact .nil
  | cons e es ih =>
    obtain ⟨rfl, hr, hes⟩ := h
    rw [List.map_cons, List.nodup_cons]
    refine ⟨?_, ih hes⟩
    intro hmem
    obtain ⟨y, hy, hye⟩ := List.mem_map.mp hmem
    have start := (hes.bounds hy).start
    have room := hr.room
    simp only [Extent.stop, minBlockSize] at start room
    omega

end Contiguous

/-! ## Tags -/

/-- The state of what lies before the end of some extents, when `prev` is that of what lies before
them. -/
def lastAllocated (prev : Bool) : List Extent → Bool
  | [] => prev
  | e :: es => lastAllocated e.allocated es

@[simp] theorem lastAllocated_nil (prev : Bool) : lastAllocated prev [] = prev := rfl

@[simp] theorem lastAllocated_append_cons (prev : Bool) (pre post : List Extent) (e : Extent) :
    lastAllocated prev (pre ++ e :: post) = lastAllocated e.allocated post := by
  induction pre generalizing prev with
  | nil => rfl
  | cons x pre ih => exact ih x.allocated

/-- The memory has the tags of some extents, the first of which lies behind a block in the state
`prev`. -/
def Tagged (m : Memory) : (prev : Bool) → List Extent → Prop
  | _, [] => True
  | prev, e :: es => e.Tagged m prev ∧ Tagged m e.allocated es

section Tagged

variable {m m' : Memory} {prev : Bool} {e : Extent} {es xs ys pre post : List Extent}

/-- Tags are there in two parts. -/
theorem tagged_append :
    Tagged m prev (xs ++ ys) ↔ Tagged m prev xs ∧ Tagged m (lastAllocated prev xs) ys := by
  induction xs generalizing prev with
  | nil => simp [Tagged]
  | cons x xs ih =>
    simp only [List.cons_append, Tagged, lastAllocated, ih, and_assoc]

/-- Tags around an extent, its own, and those behind it. -/
theorem tagged_middle :
    Tagged m prev (pre ++ e :: post) ↔
      Tagged m prev pre ∧ e.Tagged m (lastAllocated prev pre) ∧ Tagged m e.allocated post := by
  rw [tagged_append]
  rfl

/-- Tags are read from their bytes. -/
theorem Tagged.congr (h : Tagged m prev es)
    (room : ∀ e ∈ es, wordSize ≤ e.size ∨ e.allocated = true)
    (same : ∀ e ∈ es, ∀ j, e.TagByte j → m'.byte j = m.byte j) : Tagged m' prev es := by
  induction es generalizing prev with
  | nil => trivial
  | cons e es ih =>
    have he := List.mem_cons_self (a := e) (l := es)
    exact ⟨h.1.congr (room e he) (same e he), ih h.2
      (fun x hx => room x (List.mem_cons_of_mem _ hx))
      (fun x hx => same x (List.mem_cons_of_mem _ hx))⟩

end Tagged

end TaggedHeap
