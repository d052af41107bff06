import Mathlib.Order.Bounds.Basic
import TaggedHeap.Proofs.Contents

/-!
# Byte strings with a cap

What a heap asks of its source is little: to grow by some bytes, to tell its size, and to let the
bytes be read and written.  A `Backing` answers these questions in some way, and `Backing.sights` is
all that can be seen of one while it is used.

Three ways are compared here.

* `Backing.capped` is the one that the others are measured by: a list of bytes with a cap, which
  grows by zeros if the new length is a word and not above the cap.
* `Backing.source` is what the sources of both kinds do, whose memory grows with them.
* `Backing.mapping` never touches a byte to grow: all bytes that there will ever be lie in one
  mapping, zeroed when it is made, and a break in it moves.

`Backing.Follows` is a simulation between two backings, one rule for each question, and
`Follows.sights` is its run: what is seen is the same.  `follows_source` and `follows_mapping` are
the two simulations.
-/

namespace TaggedHeap

open Memory

/-! ## Backings -/

/-- A way to keep the bytes of a heap. -/
structure Backing (σ : Type) where
  /-- Asks for `n` more bytes.  Answers the size before, and what is kept afterwards. -/
  grow : σ → Nat → Except Refusal Nat × σ
  /-- Replaces the byte at an offset, if there is one. -/
  write : σ → Nat → UInt8 → σ
  /-- The size that is told. -/
  size : σ → Nat
  /-- The bytes that can be read. -/
  bytes : σ → List UInt8

/-- One use of a backing. -/
inductive Use where
  /-- It is asked for `n` more bytes. -/
  | grow (n : Nat)
  /-- A byte is replaced. -/
  | write (i : Nat) (b : UInt8)

/-- What is seen of a backing after a use. -/
structure Sight where
  /-- The answer, if it was asked to grow. -/
  answer : Option (Except Refusal Nat)
  /-- The size that it tells. -/
  size : Nat
  /-- Its bytes. -/
  bytes : List UInt8

namespace Backing

variable {σ τ : Type}

/-- Uses a backing once. -/
def use (backing : Backing σ) (s : σ) : Use → Option (Except Refusal Nat) × σ
  | .grow n => (some (backing.grow s n).1, (backing.grow s n).2)
  | .write i b => (none, backing.write s i b)

/-- What is seen of a backing while it is used, after each use. -/
def sights (backing : Backing σ) : σ → List Use → List Sight
  | _, [] => []
  | s, u :: uses =>
    let (answer, s) := backing.use s u
    ⟨answer, backing.size s, backing.bytes s⟩ :: backing.sights s uses

/-- The growths that a backing grants while it is used. -/
def grants (backing : Backing σ) : σ → List Use → List Nat
  | _, [] => []
  | s, .grow n :: uses =>
    (if (backing.grow s n).1.isOk then [n] else []) ++ backing.grants (backing.grow s n).2 uses
  | s, .write i b :: uses => backing.grants (backing.write s i b) uses

/-- One backing does what another one does from related states on, as long as the growths that the
other one grants are `fine`. -/
structure Follows (backing : Backing σ) (other : Backing τ) (related : σ → τ → Prop)
    (fine : Nat → Prop) : Prop where
  /-- They answer alike when they are asked to grow. -/
  grow : ∀ {s t n}, related s t → ((other.grow t n).1.isOk = true → fine n) →
    (backing.grow s n).1 = (other.grow t n).1 ∧ related (backing.grow s n).2 (other.grow t n).2
  /-- They stay related when a byte is replaced. -/
  write : ∀ {s t}, related s t → ∀ i b, related (backing.write s i b) (other.write t i b)
  /-- They tell the same size. -/
  size : ∀ {s t}, related s t → backing.size s = other.size t
  /-- They have the same bytes. -/
  bytes : ∀ {s t}, related s t → backing.bytes s = other.bytes t

/-- **Backings of which one follows the other look the same, however they are used.** -/
theorem Follows.sights {backing : Backing σ} {other : Backing τ} {related : σ → τ → Prop}
    {fine : Nat → Prop} (follows : backing.Follows other related fine) {s : σ} {t : τ}
    {uses : List Use} (start : related s t) (granted : ∀ n ∈ other.grants t uses, fine n) :
    backing.sights s uses = other.sights t uses := by
  induction uses generalizing s t with
  | nil => rfl
  | cons u uses ih =>
    have step : ((backing.use s u).1 = (other.use t u).1 ∧
          related (backing.use s u).2 (other.use t u).2) ∧
        ∀ n ∈ other.grants (other.use t u).2 uses, fine n := by
      cases u with
      | grow n =>
        have here : (other.grow t n).1.isOk = true → fine n := fun ok =>
          granted n (List.mem_append_left _ (by rw [if_pos ok]; exact List.mem_singleton_self n))
        obtain ⟨answer, next⟩ := follows.grow start here
        exact ⟨⟨congrArg some answer, next⟩, fun k hk => granted k (List.mem_append_right _ hk)⟩
      | write i b => exact ⟨⟨rfl, follows.write start i b⟩, granted⟩
    obtain ⟨⟨answer, next⟩, later⟩ := step
    simp only [Backing.sights, answer, follows.size next, follows.bytes next, ih next later]

end Backing

/-! ## Byte strings -/

/-- A byte string that is never longer than its cap, nor than a word can tell. -/
structure CappedBytes where
  /-- The most bytes that it may have. -/
  cap : Nat
  /-- The bytes. -/
  bytes : List UInt8
  /-- The bytes are no more than the cap allows. -/
  capped : bytes.length ≤ cap
  /-- A word can tell how many there are. -/
  word : bytes.length < wordBound

namespace CappedBytes

variable {t : CappedBytes} {n : Nat}

/-- A byte string without bytes. -/
def empty (cap : Nat) : CappedBytes := ⟨cap, [], Nat.zero_le _, by decide⟩

/-- Whether `n` more bytes are allowed. -/
def Allows (t : CappedBytes) (n : Nat) : Prop :=
  t.bytes.length + n < wordBound ∧ t.bytes.length + n ≤ t.cap

instance : Decidable (t.Allows n) := inferInstanceAs (Decidable (_ ∧ _))

/-- Appends `n` zeros. -/
def extend (t : CappedBytes) (n : Nat) (allowed : t.Allows n) : CappedBytes where
  cap := t.cap
  bytes := t.bytes ++ List.replicate n 0
  capped := by simpa using allowed.2
  word := by simpa using allowed.1

/-- Appends `n` zeros if they are allowed, and answers the length before.  Else nothing changes. -/
def grow (t : CappedBytes) (n : Nat) : Except Refusal Nat × CappedBytes :=
  if allowed : t.Allows n then (.ok t.bytes.length, t.extend n allowed)
  else (.error (.outOfMemory n), t)

/-- Replaces a byte. -/
def write (t : CappedBytes) (i : Nat) (b : UInt8) : CappedBytes where
  cap := t.cap
  bytes := t.bytes.set i b
  capped := by simpa using t.capped
  word := by simpa using t.word

@[simp] theorem grow_of_allowed (allowed : t.Allows n) :
    t.grow n = (.ok t.bytes.length, t.extend n allowed) := dif_pos allowed

@[simp] theorem grow_of_not_allowed (refused : ¬ t.Allows n) :
    t.grow n = (.error (.outOfMemory n), t) := dif_neg refused

end CappedBytes

/-- A backing that is a byte string. -/
def Backing.capped : Backing CappedBytes where
  grow := CappedBytes.grow
  write := CappedBytes.write
  size t := t.bytes.length
  bytes := CappedBytes.bytes

/-! ## Sources -/

namespace Memory

/-- All bytes of a memory. -/
def contents (m : Memory) : List UInt8 := m.bytesAt 0 m.size

@[simp] theorem length_contents (m : Memory) : m.contents.length = m.size := length_bytesAt ..

/-- A memory is extended by zeros. -/
theorem contents_extend (m : Memory) (n : Nat) :
    (m.extend n).contents = m.contents ++ List.replicate n 0 := by
  refine List.ext_getElem (by simp) fun j hj _ => ?_
  simp only [contents, getElem_bytesAt, byte_extend, List.getElem_append, length_bytesAt,
    List.getElem_replicate, Nat.zero_add]
  split
  · rfl
  next outside => exact byte_of_size_le (Nat.not_lt.mp outside)

/-- A byte is replaced where it is. -/
theorem contents_setByte (m : Memory) (i : Nat) (b : UInt8) :
    (m.setByte i b).contents = m.contents.set i b := by
  refine List.ext_getElem (by simp) fun j hj _ => ?_
  have inside : j < m.size := by simpa using hj
  simp only [contents, getElem_bytesAt, byte_setByte, List.getElem_set, Nat.zero_add]
  by_cases here : i = j
  · rw [if_pos ⟨here.symm, here ▸ inside⟩, if_pos here]
  · rw [if_neg fun h => here h.1.symm, if_neg here]

end Memory

namespace Source

/-- A reservation of `room` bytes, once it was made. -/
def reserved (room : Nat) : Source := ⟨.reservation, room, .empty, 0⟩

/-- Replaces the byte at an offset, if there is one. -/
def write (s : Source) (i : Nat) (b : UInt8) : Source :=
  { s with memory := s.memory.setByte i b }

/-- A reservation has room for whole pages: as few as will do, and at least one. -/
theorem isLeast_wholePages (limit : Nat) :
    IsLeast {room | max limit 1 ≤ room ∧ pageSize ∣ room} (wholePages limit) := by
  unfold wholePages
  refine ⟨⟨?_, Nat.dvd_mul_left ..⟩, ?_⟩
  · simp only [pageSize]
    omega
  · rintro room ⟨enough, pages, rfl⟩
    simp only [pageSize] at enough ⊢
    omega

/-- Which reservations can be made: those of whole pages, up to a bound. -/
theorem reserve_eq_ok_iff {limit : Nat} {s : Source} :
    reserve limit = .ok s ↔ limit < reservationRoom ∧ s = reserved (wholePages limit) := by
  unfold reserve
  split
  next small => simp [small, reserved, eq_comm]
  next large => simp [large]

/-- A source whose size is a word tells it, unless that is made to drift. -/
theorem truthful_of_lt {s : Source} (drift : s.drift = 0) (word : s.memory.size < wordBound) :
    s.Truthful := by
  simp only [Truthful, size, drift, Int.add_zero]
  norm_cast
  exact Nat.mod_eq_of_lt word

/-- A source keeps a byte string: it has the same cap and the same bytes, and tells its size. -/
structure Keeps (s : Source) (t : CappedBytes) : Prop where
  /-- The caps are the same. -/
  cap : s.cap = t.cap
  /-- The bytes are the same. -/
  contents : s.memory.contents = t.bytes
  /-- The size is told as it is. -/
  drift : s.drift = 0

namespace Keeps

variable {s : Source} {t : CappedBytes} {n : Nat}

/-- The number of bytes is the length of the string. -/
theorem memory_size (keeps : s.Keeps t) : s.memory.size = t.bytes.length := by
  rw [← keeps.contents, length_contents]

/-- The size that is told is the length of the string. -/
theorem size_eq (keeps : s.Keeps t) : s.size = t.bytes.length := by
  have word : s.memory.size < wordBound := keeps.memory_size ▸ t.word
  exact (truthful_of_lt keeps.drift word).trans keeps.memory_size

/-- Where there is room, a source accepts what the string allows. -/
theorem accepts_iff (keeps : s.Keeps t) (room : t.Allows n → s.hasRoom n = true) :
    s.accepts n = true ↔ t.Allows n := by
  simp only [Source.accepts, Bool.and_eq_true, decide_eq_true_eq, keeps.memory_size, keeps.cap]
  exact ⟨fun h => h.1, fun h => ⟨h, room h⟩⟩

/-- A source and the string that it keeps grow alike. -/
theorem grow (keeps : s.Keeps t) (room : t.Allows n → s.hasRoom n = true) :
    (s.grow n).1 = (t.grow n).1 ∧ (s.grow n).2.Keeps (t.grow n).2 := by
  by_cases allowed : t.Allows n
  · rw [Source.grow, if_pos ((keeps.accepts_iff room).mpr allowed),
      CappedBytes.grow_of_allowed allowed]
    refine ⟨congrArg _ keeps.memory_size, keeps.cap, ?_, keeps.drift⟩
    exact (contents_extend ..).trans (congrArg (· ++ _) keeps.contents)
  · rw [Source.grow, if_neg (mt (keeps.accepts_iff room).mp allowed),
      CappedBytes.grow_of_not_allowed allowed]
    exact ⟨rfl, keeps⟩

/-- A byte is replaced in both. -/
theorem write (keeps : s.Keeps t) (i : Nat) (b : UInt8) : (s.write i b).Keeps (t.write i b) where
  cap := keeps.cap
  contents := (contents_setByte ..).trans (congrArg (List.set · i b) keeps.contents)
  drift := keeps.drift

end Keeps

@[simp] theorem kind_grow (s : Source) (n : Nat) : (s.grow n).2.kind = s.kind := by
  unfold grow
  split <;> rfl

@[simp] theorem cap_grow (s : Source) (n : Nat) : (s.grow n).2.cap = s.cap := by
  unfold grow
  split <;> rfl

end Source

/-- A backing that is a source of a heap. -/
def Backing.source : Backing Source where
  grow := Source.grow
  write := Source.write
  size := Source.size
  bytes s := s.memory.contents

/-- A buffer with the given cap finds room for each of some growths that the cap allows. -/
def Source.Spares (cap : Nat) (growths : List Nat) : Prop :=
  ∀ n ∈ growths, n ≤ cap → n < bufferRoom

/-- A buffer with a small cap finds room for all growths. -/
theorem Source.spares_of_lt {cap : Nat} (small : cap < bufferRoom) (growths : List Nat) :
    Spares cap growths := fun _ _ le => Nat.lt_of_le_of_lt le small

/-- There is room for the growths of two lists if there is for those of each. -/
theorem Source.spares_append {cap : Nat} {growths growths' : List Nat} :
    Spares cap (growths ++ growths') ↔ Spares cap growths ∧ Spares cap growths' :=
  List.forall_mem_append

/-- **A source of either kind is a byte string with its own cap,** as long as a buffer finds room
for the growths that are granted. -/
theorem Backing.follows_source (kind : SourceKind) (cap : Nat) :
    source.Follows capped (fun s t => s.Keeps t ∧ s.kind = kind ∧ s.cap = cap)
      fun n => n ≤ cap → kind = .reservation ∨ n < bufferRoom where
  grow := by
    rintro s t n ⟨keeps, rfl, rfl⟩ fine
    have room : t.Allows n → s.hasRoom n = true := by
      intro allowed
      have granted : (capped.grow t n).1.isOk = true := by
        change (t.grow n).1.isOk = true
        rw [CappedBytes.grow_of_allowed allowed]
        rfl
      have le : n ≤ s.cap := keeps.cap ▸ Nat.le_of_add_left_le allowed.2
      simpa [Source.hasRoom] using fine granted le
    obtain ⟨answer, next⟩ := keeps.grow room
    exact ⟨answer, next, s.kind_grow n, s.cap_grow n⟩
  write := fun ⟨keeps, kinds, caps⟩ i b => ⟨keeps.write i b, kinds, caps⟩
  size := fun ⟨keeps, _⟩ => keeps.size_eq
  bytes := fun ⟨keeps, _⟩ => keeps.contents

/-- An empty source keeps the empty string. -/
theorem Source.keeps_empty (kind : SourceKind) (cap : Nat) :
    Keeps ⟨kind, cap, .empty, 0⟩ (.empty cap) := ⟨rfl, rfl, rfl⟩

/-- A buffer looks like a byte string. -/
theorem Source.sights_buffer {limit : Nat} {uses : List Use}
    (spares : Spares limit (Backing.capped.grants (.empty limit) uses)) :
    Backing.source.sights (.buffer limit) uses = Backing.capped.sights (.empty limit) uses :=
  (Backing.follows_source .buffer limit).sights ⟨keeps_empty .buffer limit, rfl, rfl⟩
    fun n granted le => .inr (spares n granted le)

/-- A reservation looks like a byte string. -/
theorem Source.sights_reserved (room : Nat) (uses : List Use) :
    Backing.source.sights (.reserved room) uses = Backing.capped.sights (.empty room) uses :=
  (Backing.follows_source .reservation room).sights ⟨keeps_empty .reservation room, rfl, rfl⟩
    fun _ _ _ => .inl rfl

/-! ## Mappings -/

/-- A heap in one mapping: the bytes before the break are in use. -/
structure Mapping where
  /-- The number of bytes that are mapped. -/
  reserved : Nat
  /-- All bytes that are mapped. -/
  mapped : Vector UInt8 reserved
  /-- The break. -/
  brk : Nat
  /-- The break is in the mapping. -/
  inside : brk ≤ reserved
  /-- A word can tell the break. -/
  word : brk < wordBound
  /-- What is not yet in use is zero. -/
  blank : mapped.toList.drop brk = List.replicate (reserved - brk) 0

namespace Mapping

/-- A mapping of which nothing is in use: fresh pages are zero. -/
def fresh (reserved : Nat) : Mapping where
  reserved
  mapped := Vector.replicate reserved 0
  brk := 0
  inside := Nat.zero_le _
  word := by decide
  blank := by simp

/-- Maps whole pages with room for `limit` bytes, if their size is a word. -/
def reserve (limit : Nat) : Except Refusal Mapping :=
  if max limit 1 + (pageSize - 1) < wordBound then .ok (fresh (Source.wholePages limit))
  else .error (.mapFailed limit)

/-- The bytes in use. -/
def memory (m : Mapping) : List UInt8 := m.mapped.toList.take m.brk

/-- Whether the break can move by `n` bytes. -/
def Allows (m : Mapping) (n : Nat) : Prop := m.brk + n < wordBound ∧ m.brk + n ≤ m.reserved

instance {m : Mapping} {n : Nat} : Decidable (m.Allows n) := inferInstanceAs (Decidable (_ ∧ _))

/-- Moves the break by `n` bytes. -/
def advance (m : Mapping) (n : Nat) (allowed : m.Allows n) : Mapping where
  reserved := m.reserved
  mapped := m.mapped
  brk := m.brk + n
  inside := allowed.2
  word := allowed.1
  blank := by
    rw [← List.drop_drop, m.blank, List.drop_replicate, Nat.sub_sub]

/-- Moves the break by `n` bytes if it can, and answers where it was. -/
def grow (m : Mapping) (n : Nat) : Except Refusal Nat × Mapping :=
  if allowed : m.Allows n then (.ok m.brk, m.advance n allowed) else (.error (.outOfMemory n), m)

/-- Replaces a byte before the break. -/
def write (m : Mapping) (i : Nat) (b : UInt8) : Mapping :=
  if used : i < m.brk then
    { m with
      mapped := m.mapped.set i b (Nat.lt_of_lt_of_le used m.inside)
      blank := by
        rw [Vector.toList_set, List.drop_set_of_lt used]
        exact m.blank }
  else m

/-- A mapping keeps a byte string: it is as large as the cap, and the bytes in use
are the string. -/
structure Keeps (m : Mapping) (t : CappedBytes) : Prop where
  /-- The mapping is as large as the cap. -/
  cap : m.reserved = t.cap
  /-- The bytes in use are the string. -/
  memory : m.memory = t.bytes

variable {m : Mapping} {t : CappedBytes} {n : Nat}

@[simp] theorem length_memory (m : Mapping) : m.memory.length = m.brk := by
  simp [Mapping.memory, m.inside]

/-- The bytes that come into use are zero. -/
theorem memory_advance (allowed : m.Allows n) :
    (m.advance n allowed).memory = m.memory ++ List.replicate n 0 := by
  have fits : n ≤ m.reserved - m.brk := Nat.le_sub_of_add_le' allowed.2
  calc (m.advance n allowed).memory
      = m.memory ++ (m.mapped.toList.drop m.brk).take n := List.take_add
    _ = m.memory ++ List.replicate n 0 := by
      rw [m.blank, List.take_replicate, Nat.min_eq_left fits]

/-- A byte in use is replaced, and no other. -/
theorem memory_write (m : Mapping) (i : Nat) (b : UInt8) :
    (m.write i b).memory = m.memory.set i b := by
  unfold write
  split
  · simp only [Mapping.memory, Vector.toList_set, List.take_set]
  next unused =>
    rw [List.set_eq_of_length_le]
    simpa using unused

@[simp] theorem reserved_write (m : Mapping) (i : Nat) (b : UInt8) :
    (m.write i b).reserved = m.reserved := by
  unfold write
  split <;> rfl

namespace Keeps

/-- The break is where the string ends. -/
theorem brk_eq (keeps : m.Keeps t) : m.brk = t.bytes.length := by
  rw [← keeps.memory, length_memory]

/-- The break can move if the string may grow. -/
theorem allows_iff (keeps : m.Keeps t) : m.Allows n ↔ t.Allows n := by
  rw [Mapping.Allows, CappedBytes.Allows, keeps.brk_eq, keeps.cap]

/-- A mapping and the string that it keeps grow alike. -/
theorem grow (keeps : m.Keeps t) (n : Nat) :
    (m.grow n).1 = (t.grow n).1 ∧ (m.grow n).2.Keeps (t.grow n).2 := by
  by_cases allowed : t.Allows n
  · have may : m.Allows n := keeps.allows_iff.mpr allowed
    rw [Mapping.grow, dif_pos may, CappedBytes.grow_of_allowed allowed]
    refine ⟨congrArg _ keeps.brk_eq, keeps.cap, ?_⟩
    exact (memory_advance may).trans (congrArg (· ++ _) keeps.memory)
  · rw [Mapping.grow, dif_neg (mt keeps.allows_iff.mp allowed),
      CappedBytes.grow_of_not_allowed allowed]
    exact ⟨rfl, keeps⟩

/-- A byte is replaced in both. -/
theorem write (keeps : m.Keeps t) (i : Nat) (b : UInt8) : (m.write i b).Keeps (t.write i b) where
  cap := (m.reserved_write i b).trans keeps.cap
  memory := (m.memory_write i b).trans (congrArg (List.set · i b) keeps.memory)

end Keeps

end Mapping

/-- A backing that is a break in a mapping. -/
def Backing.mapping : Backing Mapping where
  grow := Mapping.grow
  write := Mapping.write
  size := Mapping.brk
  bytes := Mapping.memory

/-- **A break in a mapping is a byte string with the size of the mapping as its cap.** -/
theorem Backing.follows_mapping : mapping.Follows capped Mapping.Keeps fun _ => True where
  grow := fun keeps _ => keeps.grow _
  write := fun keeps => keeps.write
  size := fun keeps => keeps.brk_eq
  bytes := fun keeps => keeps.memory

/-- A mapping of which nothing is in use keeps the empty string. -/
theorem Mapping.keeps_fresh (room : Nat) : (fresh room).Keeps (.empty room) := ⟨rfl, rfl⟩

/-- A mapping looks like a byte string. -/
theorem Mapping.sights_fresh (room : Nat) (uses : List Use) :
    Backing.mapping.sights (.fresh room) uses = Backing.capped.sights (.empty room) uses :=
  Backing.follows_mapping.sights (keeps_fresh room) fun _ _ => trivial

/-- Which mappings are made: those of whole pages whose size is a word. -/
theorem Mapping.reserve_eq_ok_iff {limit : Nat} {m : Mapping} :
    reserve limit = .ok m ↔
      max limit 1 + (pageSize - 1) < wordBound ∧ m = fresh (Source.wholePages limit) := by
  unfold reserve
  split
  next small => simp only [small, true_and, Except.ok.injEq, eq_comm]
  next large => simp only [large, false_and, reduceCtorEq]

end TaggedHeap
