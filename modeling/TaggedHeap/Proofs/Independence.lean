import TaggedHeap.Proofs.Lockstep

/-!
# What payloads hold does not matter

All that an allocator knows of its heap it has written into the heap itself, between the payloads.
`payloads_never_steer` says that it does not mistake the one for the other: two allocators without
self-checks that `Agree` on what is metadata, whatever else their bytes are, answer alike, agree
again afterwards, and do so along sessions in which callers write whatever they like.

What is metadata is said by the offsets of words.  That this is enough, and no more than there is,
is `Agree.shows` and `Shows.agree`: allocators agree if they show one outline.
-/

namespace TaggedHeap

open Memory

/-! ## Agreement -/

namespace Allocator

/-- The blocks of an allocator as a walk meets them, or none if it does not get through. -/
def blocks (a : Allocator) : List Extent :=
  match Arena.walk a.memory a.starts (a.high - wordSize) firstBlock true with
  | .ok es => es
  | .error _ => []

/-- A pointer is the payload of an allocated block. -/
def HasPayload (a : Allocator) (p : Nat) : Prop :=
  ∃ e, Live a.blocks e ∧ payloadOf e.block = p

/-- Two allocators agree on all that is not the content of a payload, and not the inside of a free
block between its links and its last word. -/
structure Agree (a b : Allocator) : Prop where
  /-- Both are set up, or neither is. -/
  ready : b.ready = a.ready
  /-- Their sources are of one kind. -/
  kind : b.source.kind = a.source.kind
  /-- Their sources have one limit. -/
  cap : b.source.cap = a.source.cap
  /-- They have the same settings. -/
  config : b.config = a.config
  /-- Their heaps are of one size. -/
  high : b.high = a.high
  /-- Their lists have the same heads. -/
  lists : b.lists = a.lists
  /-- The same blocks are known to be allocated. -/
  starts : b.starts = a.starts
  /-- All headers are the same. -/
  headers : ∀ e ∈ a.blocks, b.memory.word e.block = a.memory.word e.block
  /-- The epilogues are the same. -/
  epilogue : b.memory.word (a.high - wordSize) = a.memory.word (a.high - wordSize)
  /-- The last words of free blocks are the same. -/
  footers : ∀ e ∈ a.blocks, e.allocated = false →
    b.memory.word (e.stop - wordSize) = a.memory.word (e.stop - wordSize)
  /-- The links of free blocks are the same. -/
  links : ∀ e ∈ a.blocks, e.allocated = false →
    b.memory.word (nextSlot e.block) = a.memory.word (nextSlot e.block) ∧
      b.memory.word (prevSlot e.block) = a.memory.word (prevSlot e.block)

end Allocator

section Words

variable {m m' : Memory} {start stop : Nat} {prev prev' next : Option Nat} {mark mark' : Bool}
  {e : Extent} {es es' : List Extent} {l l' : List Nat} {b : Nat}

/-- Extents that are tagged in two memories have the same tags there. -/
theorem Tagged.words_eq (tagged : Tagged m mark es) (tagged' : Tagged m' mark es) (he : e ∈ es) :
    m'.word e.block = m.word e.block ∧
      (e.allocated = false → m'.word (e.stop - wordSize) = m.word (e.stop - wordSize)) := by
  obtain ⟨pre, post, rfl⟩ := List.append_of_mem he
  obtain ⟨-, here, -⟩ := tagged_middle.mp tagged
  obtain ⟨-, here', -⟩ := tagged_middle.mp tagged'
  exact ⟨here'.head.trans here.head.symm, fun free => (here'.foot free).trans (here.foot free).symm⟩

/-- Blocks that are linked in two memories have the same links there. -/
theorem Linked.words_eq (linked : Linked m prev l next) (linked' : Linked m' prev l next)
    (hb : b ∈ l) :
    m'.word (nextSlot b) = m.word (nextSlot b) ∧ m'.word (prevSlot b) = m.word (prevSlot b) := by
  induction l generalizing prev with
  | nil => cases hb
  | cons x rest ih =>
    obtain ⟨word_next, word_prev, rest_linked⟩ := linked
    obtain ⟨word_next', word_prev', rest_linked'⟩ := linked'
    rcases List.mem_cons.mp hb with rfl | hb
    · exact ⟨word_next'.trans word_next.symm, word_prev'.trans word_prev.symm⟩
    · exact ih rest_linked rest_linked' hb

/-- The headers tell the extents. -/
theorem Tagged.extents_eq (tiles : Contiguous start es stop) (tiles' : Contiguous start es' stop)
    (tagged : Tagged m mark es) (tagged' : Tagged m' mark' es')
    (same : ∀ e ∈ es, m'.word e.block = m.word e.block) : es' = es := by
  induction es generalizing start mark mark' es' with
  | nil =>
    obtain rfl : start = stop := tiles
    cases es' with
    | nil => rfl
    | cons x es' =>
      obtain ⟨first, -, room, -⟩ := tiles'.bounds (e := x) List.mem_cons_self
      have inside := (tiles'.bounds (e := x) List.mem_cons_self).stop
      simp only [minBlockSize] at room
      omega
  | cons e es ih =>
    obtain ⟨rfl, regular, rest⟩ := tiles
    cases es' with
    | nil =>
      obtain rfl : e.block = stop := tiles'
      have behind := rest.le
      have room := regular.room
      simp only [Extent.stop, minBlockSize] at behind room
      omega
    | cons e' es' =>
      obtain ⟨here, regular', rest'⟩ := tiles'
      obtain ⟨tag, tagged_rest⟩ := tagged
      obtain ⟨tag', tagged_rest'⟩ := tagged'
      have read : e'.header mark' = e.header mark := by
        rw [← tag.decode regular.units, ← tag'.decode regular'.units, here,
          same e List.mem_cons_self]
      obtain rfl : e' = e := by
        cases e
        cases e'
        simp only [Extent.header, Header.mk.injEq] at read here
        rw [here, read.1, read.2.1]
      rw [ih rest rest' tagged_rest tagged_rest' fun x hx => same x (List.mem_cons_of_mem _ hx)]

/-- The first block and the links tell the list. -/
theorem Linked.list_eq (linked : Linked m prev l none) (linked' : Linked m' prev' l' none)
    (pos : ∀ x ∈ l, x ≠ 0) (pos' : ∀ x ∈ l', x ≠ 0) (first : l'.head? = l.head?)
    (same : ∀ x ∈ l, m'.word (nextSlot x) = m.word (nextSlot x)) : l' = l := by
  induction l generalizing prev prev' l' with
  | nil => exact List.head?_eq_none_iff.mp first
  | cons b rest ih =>
    obtain ⟨rest', rfl⟩ := List.head?_eq_some_iff.mp first
    obtain ⟨word_next, -, linked_rest⟩ := linked
    obtain ⟨word_next', -, linked_rest'⟩ := linked'
    have pos_rest : ∀ x ∈ rest, x ≠ 0 := fun x hx => pos x (List.mem_cons_of_mem _ hx)
    have pos_rest' : ∀ x ∈ rest', x ≠ 0 := fun x hx => pos' x (List.mem_cons_of_mem _ hx)
    have next_eq : rest'.head?.getD 0 = rest.head?.getD 0 := by
      have step := same b List.mem_cons_self
      rwa [word_next, word_next', Option.or_none, Option.or_none] at step
    -- a link is zero only if there is no next block
    have head_eq : rest'.head? = rest.head? := by
      cases h : rest.head? with
      | none =>
        cases h' : rest'.head? with
        | none => rfl
        | some x =>
          rw [h, h'] at next_eq
          exact absurd next_eq (pos_rest' x (List.mem_of_head? h'))
      | some y =>
        cases h' : rest'.head? with
        | none =>
          rw [h, h'] at next_eq
          exact absurd next_eq.symm (pos_rest y (List.mem_of_head? h))
        | some x =>
          rw [h, h'] at next_eq
          exact congrArg some next_eq
    rw [ih linked_rest linked_rest' pos_rest pos_rest' head_eq
      fun x hx => same x (List.mem_cons_of_mem _ hx)]

end Words

/-- Lists are known by their heads. -/
theorem FreeLists.ext_head {lists lists' : FreeLists} (same : ∀ c, lists.head c = lists'.head c) :
    lists = lists' := by
  cases lists
  cases lists'
  congr 1
  ext i hi : 1
  exact same ⟨i, hi⟩

namespace Allocator

variable {a a' b b' : Allocator} {o : Outline} {es : List Extent} {shelves : Shelves} {p : Nat}
  {r : Request}

/-- A walk through a sound allocator meets its extents. -/
theorem Sound.blocks_eq (sound : a.Sound es shelves) : a.blocks = es := by
  have walked : Arena.walk a.memory a.starts (a.high - wordSize) firstBlock true = .ok es :=
    walk_complete sound.arena.walked
  rw [blocks, walked]

/-- **Allocators that show one outline agree.** -/
theorem Shows.agree (shows : a.Shows o) (shows' : b.Shows o) (config : b.config = a.config) :
    a.Agree b := by
  have high : b.high = a.high := shows'.high.trans shows.high.symm
  have terms : b.terms = a.terms := shows'.terms.trans shows.terms.symm
  have arena' : b.arena.Sound (fun _ => b.hardened = true) a.high o.extents o.shelves :=
    high ▸ shows'.sound.arena
  have tagged := shows.sound.arena.tagged
  have tagged' := arena'.tagged
  have shelving := shows.sound.arena.shelving
  have shelving' := arena'.shelving
  refine { ready := shows'.sound.ready.trans shows.sound.ready.symm,
           kind := congrArg Terms.kind terms, cap := congrArg Terms.cap terms, config := config,
           high := high, lists := ?_, starts := shows'.starts.trans shows.starts.symm,
           headers := ?_, epilogue := ?_, footers := ?_, links := ?_ }
  · exact FreeLists.ext_head fun c => (shelving'.heads c).trans (shelving.heads c).symm
  · rw [shows.sound.blocks_eq]
    intro e he
    exact (tagged.words_eq tagged' (List.mem_append_left _ he)).1
  · exact (tagged.words_eq tagged' (e := .epilogue (a.high - wordSize)) (by simp)).1
  · rw [shows.sound.blocks_eq]
    intro e he
    exact (tagged.words_eq tagged' (List.mem_append_left _ he)).2
  · rw [shows.sound.blocks_eq]
    intro e he free
    have listed : e.block ∈ o.shelves (SizeClass.of e.size) :=
      (shows.sound.arena.filed _ _).mpr ⟨e, he, free, rfl, rfl⟩
    exact (shelving.linked _).words_eq (shelving'.linked _) listed

/-- **Sound allocators that agree show one outline.** -/
theorem Agree.shows (agree : a.Agree b) (shows : a.Shows o) (sound' : b.Sound es shelves) :
    b.Shows o := by
  have blocks : a.blocks = o.extents := shows.sound.blocks_eq
  have tiles' : Contiguous firstBlock es (a.high - wordSize) := agree.high ▸ sound'.arena.tiles
  have shelving := shows.sound.arena.shelving
  have shelving' := sound'.arena.shelving
  obtain rfl : es = o.extents :=
    Tagged.extents_eq shows.sound.arena.tiles tiles' (tagged_append.mp shows.sound.arena.tagged).1
      (tagged_append.mp sound'.arena.tagged).1 (blocks ▸ agree.headers)
  obtain rfl : shelves = o.shelves := by
    funext c
    refine Linked.list_eq (shelving.linked c) (shelving'.linked c)
      (fun x hx => (shelving.listable c x hx).pos)
      (fun x hx => (shelving'.listable c x hx).pos) ?_ ?_
    · exact (shelving'.heads c).symm.trans
        ((congrArg (·.head c) agree.lists).trans (shelving.heads c))
    · intro x hx
      obtain ⟨e, he, free, rfl, -⟩ := (shows.sound.arena.filed c x).mp hx
      exact (agree.links e (blocks ▸ he) free).1
  have size : b.memory.size = a.memory.size := by
    rw [← sound'.size, agree.high, shows.sound.size]
  have terms : b.terms = a.terms := by
    unfold terms
    rw [agree.kind, agree.cap, size, agree.config]
  exact ⟨sound', terms.trans shows.terms, agree.starts.trans shows.starts⟩

end Allocator

/-! ## Writes -/

/-- Whether bytes of a payload are to be written. -/
def Request.writes : Request → Bool
  | write _ _ _ => true
  | _ => false

section Writes

variable {s : Sketch} {o : Outline} {r : Request}

/-- A write leaves an outline as it is. -/
theorem Outline.serve_write (p start : Nat) (bytes : ByteArray) :
    (o.serve (.write p start bytes)).2 = o := by
  have answered : o.perform (.write p start bytes) = (o.locate p >>= fun s =>
      if s.extent.size - wordSize < start + bytes.size then .ok (.outOfRange, o)
      else .ok (.number (s.extent.size - wordSize), o)) := rfl
  unfold Outline.serve
  rw [answered]
  cases o.locate p with
  | error error => rfl
  | ok s =>
    rw [ok_bind]
    split <;> rename_i h <;> split at h <;> cases h <;> rfl

/-- A write leaves a sketch as it is. -/
theorem Sketch.serve_write (writes : r.writes = true) : (s.serve r).2 = s := by
  cases r with
  | write p start bytes =>
    cases s with
    | blank terms => rfl
    | drawn o => exact congrArg Sketch.drawn (Outline.serve_write p start bytes)
  | _ => cases writes

/-- A sketch of an allocator that is set up stays one. -/
theorem Sketch.watchAll_drawn (o : Outline) (requests : List Request) :
    ∃ o', ((Sketch.drawn o).watchAll requests).2 = .drawn o' := by
  induction requests generalizing o with
  | nil => exact ⟨o, rfl⟩
  | cons r rest ih => exact ih (o.serve r).2

/-- Without the writes of a session, everything else that is seen is the same. -/
theorem Sketch.watchAll_filter (s : Sketch) (requests : List Request) :
    s.watchAll (requests.filter (!·.writes))
      = ((s.watchAll requests).1.filter (!·.1.writes), (s.watchAll requests).2) := by
  induction requests generalizing s with
  | nil => rfl
  | cons r rest ih =>
    cases writes : r.writes with
    | true =>
      have stays : (s.serve r).2 = s := Sketch.serve_write writes
      simp only [Sketch.watchAll, List.filter_cons, writes, stays, ih, Bool.not_true,
        Bool.false_eq_true, if_false]
    | false =>
      simp only [Sketch.watchAll, List.filter_cons, writes, ih, Bool.not_false, if_true]

end Writes

/-- What is alike stays so without the writes. -/
theorem Log.Alike.filter_writes {l l' : Log} (h : l.Alike l') :
    Log.Alike (l.filter (!·.1.writes)) (l'.filter (!·.1.writes)) :=
  List.rel_filter (fun _ _ same => by dsimp only; rw [same.1]) h

/-! ## Independence -/

namespace Allocator

variable {a b : Allocator} {o : Outline} {p : Nat} {r : Request}

/-- Two allocators that show one outline serve a request alike if its pointer is live. -/
theorem Shows.serve_agree (shows : a.Shows o) (shows' : b.Shows o) (config : b.config = a.config)
    (live : ∀ p ∈ r.pointer, ∃ e, Live o.extents e ∧ payloadOf e.block = p) :
    ∃ answer a' b', r.serve.outcome a = .ok answer a' ∧ r.serve.outcome b = .ok answer b' ∧
      a'.Agree b' ∧ (∃ stats, a'.audit = .ok stats) ∧ ∃ stats, b'.audit = .ok stats := by
  obtain ⟨a', served⟩ := served_live shows live
  obtain ⟨b', served'⟩ := served_live shows' live
  have config' : b'.config = a'.config := by
    rw [(served.effect.sound shows.sound).2, (served'.effect.sound shows'.sound).2, config]
  exact ⟨_, a', b', served.answered, served'.answered, served.shows.agree served'.shows config',
    ⟨_, served.shows.sound.audit⟩, _, served'.shows.sound.audit⟩

/-- Two allocators that show one outline go through two sessions alike that differ
only in writes. -/
theorem Shows.session_agree (shows : a.Shows o) (shows' : b.Shows o) (config : b.config = a.config)
    {requests requests' : List Request}
    (same : requests.filter (!·.writes) = requests'.filter (!·.writes)) :
    ∃ log log' a' b', (Request.watchAll requests).outcome a = .ok log a' ∧
      (Request.watchAll requests').outcome b = .ok log' b' ∧
      Log.Alike (log.filter (!·.1.writes)) (log'.filter (!·.1.writes)) ∧
      a'.Agree b' ∧ (∃ stats, a'.audit = .ok stats) ∧ ∃ stats, b'.audit = .ok stats := by
  have fits : a.Fits (.drawn o) := shows
  have fits' : b.Fits (.drawn o) := shows'
  obtain ⟨log, a', watched, alike, fits_a, config_a⟩ := fits.watchAll requests
  obtain ⟨log', b', watched', alike', fits_b, config_b⟩ := fits'.watchAll requests'
  have planned := Sketch.watchAll_filter (.drawn o) requests
  rw [same, Sketch.watchAll_filter] at planned
  obtain ⟨seen_eq, last_eq⟩ := Prod.mk.inj planned
  obtain ⟨o', drawn⟩ := Sketch.watchAll_drawn o requests
  have shows_a : a'.Shows o' := by
    rw [drawn] at fits_a
    exact fits_a
  have shows_b : b'.Shows o' := by
    rw [last_eq, drawn] at fits_b
    exact fits_b
  refine ⟨log, log', a', b', watched, watched', ?_,
    shows_a.agree shows_b (by rw [config_a, config_b, config]),
    ⟨_, shows_a.sound.audit⟩, _, shows_b.sound.audit⟩
  refine (alike.filter_writes).trans ?_
  rw [← seen_eq]
  exact alike'.filter_writes.symm

end Allocator

open Allocator

/-- **Two allocators without self-checks that pass an audit and agree, agree on everything that is
asked of them,** and go on to do so, whatever is written into their payloads. -/
theorem payloads_never_steer {a b : Allocator} (plain : a.hardened = false)
    (accepted : ∃ stats, a.audit = .ok stats) (accepted' : ∃ stats, b.audit = .ok stats)
    (agree : a.Agree b) :
    a.audit = b.audit ∧
    (∀ p, a.HasPayload p →
      ∃ n, (usable p).outcome a = .ok n a ∧ (usable p).outcome b = .ok n b) ∧
    (∀ r : Request, (∀ p ∈ r.pointer, a.HasPayload p) →
      ∃ answer a' b', r.serve.outcome a = .ok answer a' ∧ r.serve.outcome b = .ok answer b' ∧
        a'.Agree b' ∧ (∃ stats, a'.audit = .ok stats) ∧ ∃ stats, b'.audit = .ok stats) ∧
    (∀ p, ¬ a.HasPayload p →
      (∃ error error', Denied p error ∧ Denied p error' ∧
        (usable p).outcome a = .refused error a ∧ (usable p).outcome b = .refused error' b) ∧
      ∀ r : Request, r.pointer = some p →
        ∃ error error', Denied p error ∧ Denied p error' ∧
          r.serve.outcome a = .ok (.error error) a ∧ r.serve.outcome b = .ok (.error error') b) ∧
    ∀ requests requests' : List Request,
      requests.filter (!·.writes) = requests'.filter (!·.writes) →
      ∃ log log' a' b', (Request.watchAll requests).outcome a = .ok log a' ∧
        (Request.watchAll requests').outcome b = .ok log' b' ∧
        Log.Alike (log.filter (!·.1.writes)) (log'.filter (!·.1.writes)) ∧
        a'.Agree b' ∧ (∃ stats, a'.audit = .ok stats) ∧ ∃ stats, b'.audit = .ok stats := by
  have plain' : b.hardened = false := (congrArg Config.hardened agree.config).trans plain
  obtain ⟨es, shelves, sound⟩ := (audit_eq_ok_iff plain).mp accepted
  obtain ⟨es', shelves', sound'⟩ := (audit_eq_ok_iff plain').mp accepted'
  have shows := sound.shows
  have shows' := agree.shows shows sound'
  have known : ∀ p, a.HasPayload p ↔ ∃ e, Live es e ∧ payloadOf e.block = p := fun p => by
    rw [HasPayload, sound.blocks_eq]
  refine ⟨?_, ?_, ?_, ?_, fun requests requests' => shows.session_agree shows' agree.config⟩
  · rw [shows.sound.audit, shows'.sound.audit, agree.high]
  · intro p live
    obtain ⟨e, live_e, rfl⟩ := (known p).mp live
    exact ⟨_, usable_live shows.sound live_e, usable_live shows'.sound live_e⟩
  · intro r live
    exact shows.serve_agree shows' agree.config fun p hp => (known p).mp (live p hp)
  · intro p unknown
    have dead : ∀ e, Live es e → payloadOf e.block ≠ p := fun e live same =>
      unknown ((known p).mpr ⟨e, live, same⟩)
    constructor
    · obtain ⟨error, denied, refused⟩ := usable_dead shows.sound dead
      obtain ⟨error', denied', refused'⟩ := usable_dead shows'.sound dead
      exact ⟨error, error', denied, denied', refused, refused'⟩
    · intro r named
      obtain ⟨error, denied, refused⟩ := served_dead shows.sound named dead
      obtain ⟨error', denied', refused'⟩ := served_dead shows'.sound named dead
      exact ⟨error, error', denied, denied', refused, refused'⟩

/-- One of two heaps with one live block had a byte written into it.  They answer alike. -/
theorem payloads_never_steer_of_one_block :
    ∃ a b : Allocator, a.memory.byte 16 ≠ b.memory.byte 16 ∧ a.Agree b ∧
      (∃ stats, a.audit = .ok stats) ∧ (∃ stats, b.audit = .ok stats) ∧
      ∃ answer a' b', (Request.alloc 100).serve.outcome a = .ok answer a' ∧
        (Request.alloc 100).serve.outcome b = .ok answer b' ∧ a'.Agree b' := by
  have truthful : (Source.buffer 80).Truthful :=
    Source.truthful_make (rfl : Source.make .buffer 80 = .ok (.buffer 80))
  have started : Reaches (.create (.buffer 80) { chunk := 0 }) [] _ := .start rfl
  obtain ⟨a, run⟩ : ∃ a, Reaches (.create (.buffer 80) { chunk := 0 })
      [(.alloc 1, .ok (.payload (some 16)))] a := ⟨_, started.next rfl⟩
  obtain ⟨es, shelves, sound, names⟩ := run.tracked truthful
  obtain ⟨e, live, start⟩ := names.live 16 1 rfl
  obtain ⟨-, -, room, -, stop, inside⟩ := sound.bounds live.1
  have there : payloadOf e.block + 1 ≤ a.memory.size := by
    simp only [payloadOf, wordSize]
    omega
  have frame : a.memory.EqOff (a.memory.paste (payloadOf e.block) ⟨#[a.memory.byte 16 + 1]⟩)
      (Span (payloadOf e.block) e.stop) := (eqOff_paste there).mono fun j hj => by
    have one : j < payloadOf e.block + 1 := hj.2
    simp only [payloadOf, wordSize, Extent.stop] at hj one ⊢
    omega
  have shows' := sound.shows.write live frame
  have agree := sound.shows.agree shows' rfl
  have plain : a.hardened = false := congrArg Config.hardened (run.config truthful)
  obtain ⟨-, -, served, -⟩ :=
    payloads_never_steer plain ⟨_, sound.audit⟩ ⟨_, shows'.sound.audit⟩ agree
  obtain ⟨answer, a', b', answered, answered', agree', -⟩ :=
    served (.alloc 100) fun p hp => by cases hp
  refine ⟨a, _, ?_, agree, ⟨_, sound.audit⟩, ⟨_, shows'.sound.audit⟩, answer, a', b', answered,
    answered', agree'⟩
  show a.memory.byte 16 ≠ (a.memory.paste (payloadOf e.block) ⟨#[a.memory.byte 16 + 1]⟩).byte 16
  rw [byte_paste there, start, if_pos ⟨Nat.le_refl 16, Nat.lt_succ_self 16⟩]
  show a.memory.byte 16 ≠ a.memory.byte 16 + 1
  grind

end TaggedHeap
