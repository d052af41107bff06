import TaggedHeap.Allocator.Request
import TaggedHeap.Allocator.Setup
import TaggedHeap.Proofs.Audited
import TaggedHeap.Proofs.Outline

/-!
# Sound allocators

An allocator is sound when it is initialised, its source tells the size of its memory, and its arena
is sound up to there.  On a heap without self-checks that is just what an audit finds
(`audit_eq_ok_iff`), so every statement about sound allocators is one about accepted ones.  On a
hardened heap the free blocks have to hold the pattern besides.  Where that is too much to ask,
`filled` says of which it is asked, and of none if it is only known that an audit passes
(`sound_of_audit`).

`Shows a o` says that besides its bytes a sound allocator is the outline `o`.  Every step is shown
to do to the outline what the step of that name does there.

What a request does to a sound allocator is described by `Change a a' es gone new`: `a'` is sound
again, of the blocks that were live in `es` only `gone` is no longer, only `new` came, and the
payloads of all others hold what they held.  `Change.trans` and `Change.drop` compose two of them.
-/

namespace TaggedHeap

open Memory

variable {σ α β : Type}

/-! ## Ends of actions -/

@[simp] theorem Outcome.bind_ok (a : α) (s : σ) (f : α → σ → Outcome σ β) :
    (Outcome.ok a s).bind f = f a s := rfl

@[simp] theorem Outcome.bind_refused (error : Refusal) (s : σ) (f : α → σ → Outcome σ β) :
    (Outcome.refused error s : Outcome σ α).bind f = .refused error s := rfl

@[simp] theorem Outcome.ofExcept_ok (a : α) (s : σ) : Outcome.ofExcept s (.ok a) = .ok a s := rfl

/-- Whether an action ended with a value. -/
def Outcome.hasValue : Outcome σ α → Bool
  | .ok .. => true
  | .refused .. | .fault _ => false

/-- A computation that may be refused, as an action. -/
theorem outcome_lift (x : Except Refusal α) (s : σ) :
    (liftM x : Action σ α).outcome s = .ofExcept s (x.mapError .refused) := rfl

namespace Allocator

variable {a a' a'' : Allocator} {es : List Extent} {shelves : Shelves} {gone new : Option Extent}
  {e x : Extent} {n : Nat} {filled filled' : Extent → Prop}

/-! ## Soundness -/

/-- An allocator that is initialised and whose heap, all of its source's memory, consists of the
extents `es`.  If nothing else is asked for, all free blocks of a hardened one hold the pattern. -/
structure Sound (a : Allocator) (es : List Extent) (shelves : Shelves)
    (filled : Extent → Prop := fun _ => a.hardened = true) : Prop where
  /-- An initialisation has succeeded. -/
  ready : a.ready = true
  /-- The source tells the size of its memory. -/
  size : a.high = a.memory.size
  /-- The blocks of the heap fit together. -/
  arena : a.arena.Sound filled a.high es shelves

/-- A size that is reported is a word. -/
theorem high_lt (a : Allocator) : a.high < wordBound := by
  have bound : (0 : Int) < wordBound := by decide
  have small := Int.emod_lt_of_pos (a.source.memory.size + a.source.drift) bound
  have natural := Int.emod_nonneg (a.source.memory.size + a.source.drift) (Int.ne_of_gt bound)
  unfold high Source.high Source.low Source.size
  omega

/-- **A sound allocator passes an audit.** -/
theorem Sound.audit (sound : a.Sound es shelves filled) :
    a.audit = .ok (Stats.ofExtents a.high es) := by
  unfold Allocator.audit
  rw [if_pos sound.ready]
  exact audit_complete sound.arena sound.size.symm

/-- An allocator that passes an audit is sound, but that nothing is known of the pattern. -/
theorem sound_of_audit {stats : Stats} (h : a.audit = .ok stats) :
    ∃ es shelves, a.Sound es shelves (fun _ => False) ∧ stats = Stats.ofExtents a.high es := by
  unfold Allocator.audit at h
  split at h
  next ready =>
    obtain ⟨size, es, shelves, sound, figures⟩ := audit_sound a.high_lt h
    exact ⟨es, shelves, ⟨ready, size.symm, sound⟩, figures⟩
  next => cases h

/-- Which free blocks hold the pattern can be said anew. -/
theorem Sound.refill (sound : a.Sound es shelves filled)
    (full : ∀ e ∈ es, e.allocated = false → filled' e → Poisoned a.memory e) :
    a.Sound es shelves filled' :=
  { sound with arena := { sound.arena with poisoned := full } }

/-- **Without self-checks, the allocators that pass an audit are the sound ones.** -/
theorem audit_eq_ok_iff (plain : a.hardened = false) :
    (∃ stats, a.audit = .ok stats) ↔ ∃ es shelves, a.Sound es shelves :=
  ⟨fun ⟨_, h⟩ => by
    obtain ⟨es, shelves, sound, -⟩ := sound_of_audit h
    exact ⟨es, shelves, sound.refill fun _ _ _ hard => absurd hard (Bool.eq_false_iff.mp plain)⟩,
  fun ⟨_, _, h⟩ => ⟨_, h.audit⟩⟩

/-- Where the blocks of a heap lie. -/
theorem Sound.bounds (sound : a.Sound es shelves filled) (he : e ∈ es) :
    8 ≤ e.block ∧ e.block % 16 = 8 ∧ 32 ≤ e.size ∧ e.size % 16 = 0 ∧
      e.block + e.size + 8 ≤ a.high ∧ a.high ≤ a.memory.size := by
  obtain ⟨start, stop, room, units, aligned⟩ := sound.arena.tiles.bounds he
  have inside : a.high ≤ a.memory.size := sound.arena.inside
  simp only [firstBlock, wordSize, minBlockSize, alignment] at start stop room units aligned
  exact ⟨start, aligned, room, units, by omega, inside⟩

/-- Two blocks of a heap are the same or do not touch each other's bytes. -/
theorem Sound.apart (sound : a.Sound es shelves filled) (he : e ∈ es) (hx : x ∈ es) :
    e = x ∨ e.block + e.size ≤ x.block ∨ x.block + x.size ≤ e.block :=
  sound.arena.tiles.apart he hx

/-- The header of an allocated block is where it should be. -/
theorem Sound.header (sound : a.Sound es shelves filled) (he : e ∈ es) :
    ∃ prev, a.memory.header e.block = .ok (e.header prev) := by
  obtain ⟨-, -, room, units, stop, inside⟩ := sound.bounds he
  obtain ⟨prev, tagged⟩ := sound.arena.tagged.of_mem (List.mem_append_left _ he)
  have read : a.memory.header e.block = .ok (Header.decode (a.memory.word e.block)) :=
    header_of_le (by simp only [wordSize]; omega)
  exact ⟨prev, read.trans (congrArg _ (tagged.decode units))⟩

/-- The audit that a hardened allocator ends a request with passes. -/
theorem Sound.verify (sound : a.Sound es shelves filled) :
    Allocator.verify.outcome a = .ok () a := by
  unfold Allocator.verify
  rw [Action.outcome_inspect, sound.audit]
  cases a.hardened <;> rfl

/-- An initialised allocator goes on. -/
theorem requireReady_of_ready (ready : a.ready = true) :
    Allocator.requireReady.outcome a = .ok () a := by
  unfold Allocator.requireReady
  rw [Action.outcome_inspect, if_pos ready]
  rfl

/-- So does a sound one. -/
theorem Sound.requireReady (sound : a.Sound es shelves filled) :
    Allocator.requireReady.outcome a = .ok () a :=
  requireReady_of_ready sound.ready

/-! ## Outlines -/

/-- What an allocator goes by besides its heap. -/
def terms (a : Allocator) : Terms :=
  ⟨a.source.kind, a.source.cap, a.memory.size, a.config.chunk, a.config.fit⟩

/-- A sound allocator, which is an outline but for its bytes. -/
structure Shows (a : Allocator) (o : Outline)
    (filled : Extent → Prop := fun _ => a.hardened = true) : Prop where
  /-- Its blocks and shelves are those of the outline. -/
  sound : a.Sound o.extents o.shelves filled
  /-- It goes by the terms of the outline. -/
  terms : a.terms = o.toTerms
  /-- Its start set is that of the outline. -/
  starts : a.starts = o.starts

/-- Every sound allocator shows an outline. -/
theorem Sound.shows (sound : a.Sound es shelves filled) :
    a.Shows ⟨⟨es, shelves⟩, a.terms, a.starts⟩ filled :=
  ⟨sound, rfl, rfl⟩

/-- The extents of a sound allocator are those that a walk meets, so there is one list
of them only. -/
theorem Sound.extents_unique {es' : List Extent} {shelves' : Shelves}
    (sound : a.Sound es shelves filled) (sound' : a.Sound es' shelves' filled') : es = es' :=
  Except.ok.inj ((walk_complete sound.arena.walked).symm.trans
    (walk_complete sound'.arena.walked))

section Shows

variable {o : Outline}

/-- The heap of an outline ends where the source does. -/
theorem Shows.high (shows : a.Shows o filled) : a.high = o.size :=
  shows.sound.size.trans (congrArg Terms.size shows.terms)

/-- A block is found in the outline where it starts. -/
theorem Shows.spotAt {pre post : List Extent} (shows : a.Shows o filled)
    (split : o.extents = pre ++ e :: post) :
    TaggedHeap.spotAt e.block o.extents = some ⟨pre, e, post⟩ := by
  have tiles := shows.sound.arena.tiles
  rw [split] at tiles ⊢
  exact tiles.spotAt

/-- The outline tells the sizes of its blocks. -/
theorem Shows.sizeOf (shows : a.Shows o filled) (he : e ∈ o.extents) :
    o.sizeOf e.block = e.size := by
  obtain ⟨pre, post, split⟩ := List.append_of_mem he
  rw [Outline.sizeOf, shows.spotAt split]
  rfl

end Shows

/-! ## Changes -/

/-- `a'` came from `a` by a step after which the live block `gone`, if there is one, is no longer
live, and `new`, if there is one, is.  All other blocks that are live in `es` stay so and hold what
they held. -/
structure Change (a a' : Allocator) (es : List Extent) (gone new : Option Extent)
    (filled : Extent → Prop := fun _ => a'.hardened = true) : Prop where
  /-- The allocator is sound again. -/
  sound : ∃ es' shelves', a'.Sound es' shelves' filled ∧
    ∀ x, Live es' x ↔ x ∈ new ∨ Live es x ∧ x ∉ gone
  /-- The new block is none of those that stay. -/
  fresh : ∀ e ∈ new, ∀ x, Live es x → x ∉ gone → x.block ≠ e.block
  /-- The settings stay. -/
  config : a'.config = a.config
  /-- The payloads of the other blocks hold what they held. -/
  kept : ∀ x, Live es x → x ∉ gone → ∀ j, Span (payloadOf x.block) x.stop j →
    a'.memory.byte j = a.memory.byte j

/-- A change does not switch self-checks on or off. -/
theorem Change.hardened (change : Change a a' es gone new filled) : a'.hardened = a.hardened :=
  congrArg Config.hardened change.config

/-- What a change leaves live is what is live in the outline that shows afterwards. -/
theorem Change.live {o' : Outline} (change : Change a a' es gone new filled)
    (shows' : a'.Shows o' filled') :
    ∀ x, Live o'.extents x ↔ x ∈ new ∨ Live es x ∧ x ∉ gone := by
  obtain ⟨es', shelves', sound', live'⟩ := change.sound
  rw [shows'.sound.extents_unique sound']
  exact live'

/-- A block that came by one step and was replaced by the next one. -/
theorem Change.trans {es' : List Extent} (h : Change a a' es gone (some e) filled)
    (live' : ∀ x, Live es' x ↔ x ∈ some e ∨ Live es x ∧ x ∉ gone)
    (h' : Change a' a'' es' (some e) new filled') : Change a a'' es gone new filled' := by
  obtain ⟨es'', shelves'', sound'', live''⟩ := h'.sound
  have old_ne : ∀ x, Live es x → x ∉ gone → x ∉ some e := by
    rintro x hx stays ⟨⟩
    exact h.fresh e rfl e hx stays rfl
  have stays' : ∀ x, Live es x → x ∉ gone → Live es' x := fun x hx stays =>
    (live' x).mpr (.inr ⟨hx, stays⟩)
  refine { sound := ⟨es'', shelves'', sound'', ?_⟩, fresh := ?_,
           config := h'.config.trans h.config, kept := ?_ }
  · intro x
    rw [live'' x, live' x]
    constructor
    · rintro (hx | ⟨hx | hx, hne⟩)
      · exact .inl hx
      · exact absurd hx hne
      · exact .inr hx
    · rintro (hx | hx)
      · exact .inl hx
      · exact .inr ⟨.inr hx, old_ne x hx.1 hx.2⟩
  · intro y hy x hx stays
    exact h'.fresh y hy x (stays' x hx stays) (old_ne x hx stays)
  · intro x hx stays j hj
    exact (h'.kept x (stays' x hx stays) (old_ne x hx stays) j hj).trans (h.kept x hx stays j hj)

/-- A block that came by one step stays while an older one goes by the next one. -/
theorem Change.drop {es' : List Extent} {old : Extent} (h : Change a a' es none new filled)
    (live : Live es old)
    (live' : ∀ x, Live es' x ↔ x ∈ new ∨ Live es x ∧ x ∉ none)
    (h' : Change a' a'' es' (some old) none filled') : Change a a'' es (some old) new filled' := by
  obtain ⟨es'', shelves'', sound'', live''⟩ := h'.sound
  have stays' : ∀ x, Live es x → Live es' x := fun x hx =>
    (live' x).mpr (.inr ⟨hx, Option.not_mem_none x⟩)
  have new_ne : ∀ x ∈ new, x ∉ some old := by
    rintro _ hx ⟨⟩
    exact h.fresh old hx old live (Option.not_mem_none old) rfl
  refine { sound := ⟨es'', shelves'', sound'', ?_⟩, fresh := ?_,
           config := h'.config.trans h.config, kept := ?_ }
  · intro x
    rw [live'' x, live' x]
    constructor
    · rintro (hx | ⟨hx | hx, hne⟩)
      · exact absurd hx (Option.not_mem_none x)
      · exact .inl hx
      · exact .inr ⟨hx.1, hne⟩
    · rintro (hx | hx)
      · exact .inr ⟨.inl hx, new_ne x hx⟩
      · exact .inr ⟨.inr ⟨hx.1, Option.not_mem_none x⟩, hx.2⟩
  · intro y hy x hx _
    exact h.fresh y hy x hx (Option.not_mem_none x)
  · intro x hx stays j hj
    exact (h'.kept x (stays' x hx) stays j hj).trans (h.kept x hx (Option.not_mem_none x) j hj)

/-! ## Steps on the arena -/

/-- A step on the arena that goes through replaces it. -/
theorem outcome_onArena_of_ok {step : Bool → Arena → Except Fault (α × Arena)} {value : α}
    {arena : Arena} (h : step a.hardened a.arena = .ok (value, arena)) :
    (onArena step).outcome a = .ok value (a.withArena arena) := by
  rw [outcome_onArena, h]

/-- A step without an answer that goes through replaces the arena. -/
theorem outcome_editArena_of_ok {step : Bool → Arena → Except Fault Arena} {arena : Arena}
    (h : step a.hardened a.arena = .ok arena) :
    (editArena step).outcome a = .ok () (a.withArena arena) := by
  unfold editArena
  apply outcome_onArena_of_ok
  rw [h]
  rfl

/-- The heap ends where it did, if the memory has the size that it had. -/
theorem high_withArena {arena : Arena} (size : arena.memory.size = a.memory.size) :
    (a.withArena arena).high = a.high := by
  show 0 + ((arena.memory.size + a.source.drift) % wordBound).toNat = _
  rw [size]
  rfl

/-- The terms are what they were, if the memory has the size that it had. -/
theorem terms_withArena {arena : Arena} (size : arena.memory.size = a.memory.size) :
    (a.withArena arena).terms = a.terms := by
  show (⟨_, _, arena.memory.size, _, _⟩ : Terms) = _
  rw [size]
  rfl

/-- An allocator is sound if the arena that was put in it is. -/
theorem sound_withArena {arena : Arena} (ready : a.ready = true) (high : a.high = a.memory.size)
    (size : arena.memory.size = a.memory.size) (sound : arena.Sound filled a.high es shelves) :
    (a.withArena arena).Sound es shelves filled where
  ready := ready
  size := by
    rw [high_withArena size, high]
    exact size.symm
  arena := by
    rw [high_withArena size]
    exact sound

/-! ## Room -/

/-- A request was refused because there is no room for what was asked for. -/
def Exhausted (error : Refusal) : Prop := error = .sizeOverflow ∨ ∃ n, error = .outOfMemory n

end Allocator

/-- A source that tells the size of its memory does so after it grew. -/
theorem Source.size_extend {s : Source} {n : Nat} (truthful : s.size = s.memory.size)
    (fits : s.memory.size + n < wordBound) : (s.extend n).size = s.memory.size + n := by
  have grown : (s.extend n).size = ((s.memory.size + n + s.drift) % wordBound).toNat := by
    show (((s.memory.extend n).size + s.drift) % wordBound).toNat = _
    rw [Memory.size_extend, Int.natCast_add]
  have told : ((s.memory.size + s.drift) % wordBound).toNat = s.memory.size := truthful
  rw [grown]
  unfold wordBound at *
  omega

namespace Allocator

variable {a : Allocator} {es : List Extent} {shelves : Shelves} {n : Nat} {filled : Extent → Prop}

/-- An allocator whose source holds `n` more bytes. -/
def grown (a : Allocator) (n : Nat) : Allocator := { a with source := a.source.extend n }

/-- A source that accepts a growth grows. -/
theorem outcome_grow_of_accepts (h : a.source.accepts n = true) :
    (grow n).outcome a = .ok a.memory.size (a.grown n) := by
  rw [outcome_grow, if_pos h]
  rfl

/-- A source that does not accept a growth stays as it is. -/
theorem outcome_grow_of_refuses (h : a.source.accepts n = false) :
    (grow n).outcome a = .refused (.outOfMemory n) a := by
  rw [outcome_grow, h]
  rfl

/-- The source of an allocator grows as its terms do, -/
theorem terms_grow_of_accepts (h : a.source.accepts n = true) :
    a.terms.grow n = .ok (a.grown n).terms := by
  have size : (a.grown n).memory.size = a.memory.size + n := size_extend ..
  have terms : (a.grown n).terms = { a.terms with size := a.terms.size + n } := by
    unfold terms
    rw [size]
    rfl
  rw [terms]
  exact if_pos h

/-- and is refused to as they are. -/
theorem terms_grow_of_refuses (h : a.source.accepts n = false) :
    a.terms.grow n = .error (.outOfMemory n) :=
  if_neg (Bool.not_eq_true _ ▸ h)

/-- The size of a heap after it grew. -/
theorem high_grown (truthful : a.high = a.memory.size) (h : a.source.accepts n = true) :
    (a.grown n).high = a.high + n ∧ a.memory.size + n < wordBound := by
  simp only [Source.accepts, Bool.and_eq_true, decide_eq_true_eq] at h
  have source : a.source.size = a.memory.size := by
    rw [← truthful, high, Source.high, Source.low, Nat.zero_add]
  refine ⟨?_, h.1.1⟩
  rw [truthful]
  show 0 + (a.source.extend n).size = a.source.memory.size + n
  rw [Nat.zero_add]
  exact Source.size_extend source h.1.1

/-- **A heap that grew is the heap that it was, with more memory behind it.** -/
theorem Sound.grown (sound : a.Sound es shelves filled) (accepted : a.source.accepts n = true) :
    (a.grown n).high = a.high + n ∧ (a.grown n).high = (a.grown n).memory.size ∧
      Tiled filled (a.grown n).memory a.lists a.high es shelves := by
  obtain ⟨high, bounded⟩ := high_grown sound.size accepted
  refine ⟨high, ?_, sound.arena.toTiled.extend bounded⟩
  rw [high, sound.size]
  exact (size_extend ..).symm

end Allocator

end TaggedHeap
