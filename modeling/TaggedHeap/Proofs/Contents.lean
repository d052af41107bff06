import TaggedHeap.Proofs.Runs

/-!
# What payloads hold

To its callers a heap is a map from live payloads to bytes.

* `Allocator.contents` is that map, as a caller can read it: for each pointer that is accepted, the
  bytes that may be used.
* `Contents.Step` says what a request may do to such a map.  It knows nothing of blocks: a write
  changes the bytes that it names, zeros come as zeros, a resized payload starts with what it held,
  and what a request is not about stays.
* `contents_refine` says that the heap does what the map does: along every run, and at each of its
  moments, whatever is asked for next.

The link between the two is `Change`: `Change.contents_other` says that it leaves the map alone, but
for the block that went and the one that came.
-/

namespace TaggedHeap

open Memory

/-! ## Bytes in a row -/

/-- The `count` bytes from an offset on. -/
def Memory.bytesAt (m : Memory) (i count : Nat) : List UInt8 :=
  (List.range count).map fun j => m.byte (i + j)

section Bytes

variable {m m' : Memory} {i i' count n start : Nat} {bytes : ByteArray}

@[simp] theorem length_bytesAt (m : Memory) (i count : Nat) :
    (m.bytesAt i count).length = count := by
  simp [bytesAt]

@[simp] theorem getElem_bytesAt {j : Nat} (h : j < (m.bytesAt i count).length) :
    (m.bytesAt i count)[j] = m.byte (i + j) := by
  simp [bytesAt]

/-- Bytes in a row are the same if each of them is. -/
theorem bytesAt_congr (same : ∀ j, j < count → m'.byte (i' + j) = m.byte (i + j)) :
    m'.bytesAt i' count = m.bytesAt i count := by
  apply List.ext_getElem (by simp)
  intro j hj _
  rw [getElem_bytesAt, getElem_bytesAt]
  exact same j (by simpa using hj)

/-- The first bytes of a row. -/
theorem take_bytesAt (m : Memory) (i count n : Nat) :
    (m.bytesAt i count).take n = m.bytesAt i (min n count) := by
  simp only [bytesAt, List.take_range, ← List.map_take]

/-- A shorter row is the start of a longer one. -/
theorem bytesAt_prefix (h : n ≤ count) : m.bytesAt i n <+: m.bytesAt i count := by
  refine ⟨(m.bytesAt i count).drop n, ?_⟩
  have first : m.bytesAt i n = (m.bytesAt i count).take n := by
    rw [take_bytesAt, Nat.min_eq_left h]
  rw [first]
  exact List.take_append_drop ..

/-- A row of zeros. -/
theorem bytesAt_zero (zero : ∀ j, j < count → m.byte (i + j) = 0) :
    m.bytesAt i count = List.replicate count 0 := by
  apply List.ext_getElem (by simp)
  intro j hj _
  rw [getElem_bytesAt, List.getElem_replicate]
  exact zero j (by simpa using hj)

/-- What is pasted into a row replaces the bytes there. -/
theorem bytesAt_paste (inside : i + start + bytes.size ≤ m.size)
    (fits : start + bytes.size ≤ count) :
    (m.paste (i + start) bytes).bytesAt i count
      = (m.bytesAt i count).take start ++ bytes.data.toList
        ++ (m.bytesAt i count).drop (start + bytes.size) := by
  have width : bytes.data.toList.length = bytes.size := rfl
  have before : ((m.bytesAt i count).take start).length = start := by
    rw [List.length_take, length_bytesAt]
    omega
  refine List.ext_getElem ?_ fun j hj _ => ?_
  · simp only [length_bytesAt, List.length_append, List.length_take, List.length_drop, width]
    omega
  rw [length_bytesAt] at hj
  rw [getElem_bytesAt, byte_paste inside]
  rcases Nat.lt_or_ge j start with first | behind
  · rw [if_neg (by omega),
      List.getElem_append_left (by simp only [List.length_append, before]; omega),
      List.getElem_append_left (by rw [before]; exact first), List.getElem_take, getElem_bytesAt]
  · rcases Nat.lt_or_ge j (start + bytes.size) with new | last
    · have here : i + j - (i + start) = j - start := by omega
      have there : j - start < bytes.size := by omega
      rw [if_pos (by omega), List.getElem_append_left (by
          simp only [List.length_append, before, width]; omega),
        List.getElem_append_right (by rw [before]; exact behind), here]
      simp only [before, byte, there, dif_pos]
      rfl
    · rw [if_neg (by omega), List.getElem_append_right (by
          simp only [List.length_append, before, width]; omega),
        List.getElem_drop, getElem_bytesAt]
      simp only [List.length_append, before, width]
      congr 2
      omega

end Bytes

/-! ## The map -/

/-- For each live payload, its bytes. -/
abbrev Contents : Type := Nat → Option (List UInt8)

/-- What the payloads of a heap hold, as a caller can read them. -/
def Allocator.contents (a : Allocator) : Contents := fun p =>
  match (Allocator.payloadLength p).outcome a with
  | .ok length _ => some (a.memory.bytesAt p length)
  | _ => none

namespace Contents

variable {c c' : Contents} {history : History} {r : Request} {answer : Except Refusal Answer}

/-- What a request may make of the contents of a heap. -/
inductive Step (c : Contents) : Request → Except Refusal Answer → Contents → Prop
  /-- A refusal changes nothing. -/
  | refused {r : Request} {error : Refusal} : Step c r (.error error) c
  /-- An initialisation leaves nothing. -/
  | started : Step c .init (.ok .done) fun _ => none
  /-- No payload is handed out for no bytes. -/
  | empty {r : Request} (wanted : r.fresh = some 0) : Step c r (.ok (.payload none)) c
  /-- A payload that was not live is handed out, with room for what was asked for, and zeroed if
  that was asked for. -/
  | handed {r : Request} {n p : Nat} {bytes : List UInt8} (wanted : r.fresh = some n)
      (unused : c p = none) (room : n ≤ bytes.length)
      (zero : r.zeroed = true → bytes = List.replicate bytes.length 0) :
      Step c r (.ok (.payload (some p))) (Function.update c p (some bytes))
  /-- A payload is resized, here or elsewhere, and starts with what it held. -/
  | carried {p q n : Nat} {old bytes : List UInt8} (pos : n ≠ 0) (live : c p = some old)
      (unused : q = p ∨ c q = none) (room : n ≤ bytes.length) (kept : old.take n <+: bytes) :
      Step c (.realloc (some p) n) (.ok (.payload (some q)))
        (Function.update (Function.update c p none) q (some bytes))
  /-- A payload that is resized to no bytes is taken back. -/
  | dropped {p : Nat} {old : List UInt8} (live : c p = some old) :
      Step c (.realloc (some p) 0) (.ok (.payload none)) (Function.update c p none)
  /-- A payload is taken back. -/
  | freed {p : Nat} {old : List UInt8} (live : c p = some old) :
      Step c (.free (some p)) (.ok .done) (Function.update c p none)
  /-- No payload may be taken back at any time. -/
  | idle : Step c (.free none) (.ok .done) c
  /-- What would go beyond a payload is not written. -/
  | outside {p start : Nat} {bytes : ByteArray} {old : List UInt8} (live : c p = some old)
      (long : old.length < start + bytes.size) :
      Step c (.write p start bytes) (.ok .outOfRange) c
  /-- Bytes are written over those that were there. -/
  | written {p start : Nat} {bytes : ByteArray} {old : List UInt8} (live : c p = some old)
      (fits : start + bytes.size ≤ old.length) :
      Step c (.write p start bytes) (.ok (.number old.length)) (Function.update c p
        (some (old.take start ++ bytes.data.toList ++ old.drop (start + bytes.size))))

/-- **What a request does not name stays as it is.** -/
theorem Step.frame {p : Nat} (step : Step c r answer c') (not_init : r ≠ .init)
    (other : p ∉ r.pointer) (live : (c p).isSome) : c' p = c p := by
  have used {q : Nat} (unused : c q = none) : p ≠ q := by
    rintro rfl
    rw [unused] at live
    cases live
  have named {q : Nat} (pointer : r.pointer = some q) : p ≠ q := by
    rintro rfl
    exact other pointer
  cases step with
  | refused | empty _ | idle | outside _ _ => rfl
  | started => exact absurd rfl not_init
  | handed _ unused _ _ => exact Function.update_of_ne (used unused) ..
  | @carried p' q _ _ _ _ _ unused _ _ =>
    have apart : p ≠ q := unused.elim (fun same => same ▸ named rfl) used
    rw [Function.update_of_ne apart, Function.update_of_ne (named rfl)]
  | dropped _ | freed _ | written _ _ => exact Function.update_of_ne (named rfl) ..

/-- What the contents may be after a history. -/
inductive After : History → Contents → Prop
  /-- At the start there are none. -/
  | start : After [] fun _ => none
  /-- Each request makes a step. -/
  | next {history : History} {c c' : Contents} {r : Request} {answer : Except Refusal Answer}
      (after : After history c) (step : Step c r answer c') : After (history ++ [(r, answer)]) c'

end Contents

namespace Allocator

variable {a a' b : Allocator} {es es' : List Extent} {shelves : Shelves} {e e' x : Extent}
  {gone new : Option Extent} {n p : Nat} {r : Request} {answer : Except Refusal Answer}

/-! ## Reading the map -/

/-- What a live payload holds. -/
theorem contents_live (sound : a.Sound es shelves) (live : Live es e) :
    a.contents (payloadOf e.block)
      = some (a.memory.bytesAt (payloadOf e.block) (e.size - wordSize)) := by
  rw [contents, payloadLength_live sound live]

/-- Another pointer holds nothing. -/
theorem contents_dead (sound : a.Sound es shelves)
    (dead : ∀ e, Live es e → payloadOf e.block ≠ p) : a.contents p = none := by
  obtain ⟨error, -, refused⟩ := payloadLength_dead sound dead
  rw [contents, refused]

/-- Without live blocks there are no contents. -/
theorem contents_empty (sound : a.Sound es shelves) (empty : ∀ x, ¬ Live es x) :
    a.contents = fun _ => none := by
  funext p
  exact contents_dead sound fun x hx => absurd hx (empty x)

/-- The payloads that hold something are those that a ledger names. -/
theorem isSome_contents {ledger : Ledger} (sound : a.Sound es shelves)
    (names : ledger.Names (Live es)) (p : Nat) : (a.contents p).isSome = (ledger p).isSome := by
  rcases live_or_dead es p with ⟨e, live, rfl⟩ | dead
  · obtain ⟨n, hn, -⟩ := names.known e live
    rw [contents_live sound live, hn]
    rfl
  · rw [contents_dead sound dead]
    cases h : ledger p with
    | none => rfl
    | some n =>
      obtain ⟨e, live, same⟩ := names.live p n h
      exact absurd same (dead e live)

/-! ## Changes -/

/-- A payload of a block that a change is not about holds what it held. -/
theorem Change.contents_other (sound : a.Sound es shelves) (change : Change a a' es gone new)
    (not_gone : ∀ e ∈ gone, p ≠ payloadOf e.block) (not_new : ∀ e ∈ new, p ≠ payloadOf e.block) :
    a'.contents p = a.contents p := by
  obtain ⟨es', shelves', sound', live'⟩ := change.sound
  rcases live_or_dead es p with ⟨e, live, rfl⟩ | dead
  · have stays : e ∉ gone := fun h => not_gone e h rfl
    rw [contents_live sound live, contents_live sound' ((live' e).mpr (.inr ⟨live, stays⟩)),
      bytesAt_congr fun j hj => change.kept e live stays _ (Extent.span_payload hj)]
  · rw [contents_dead sound dead, contents_dead sound' fun x hx => ?_]
    rcases (live' x).mp hx with hx | ⟨hx, -⟩
    · exact (not_new x hx).symm
    · exact dead x hx

/-- The payload of the new block is live. -/
theorem Change.contents_new (change : Change a a' es gone (some e)) :
    a'.contents (payloadOf e.block)
      = some (a'.memory.bytesAt (payloadOf e.block) (e.size - wordSize)) := by
  obtain ⟨es', shelves', sound', live'⟩ := change.sound
  exact contents_live sound' ((live' e).mpr (.inl rfl))

/-- The payload of the block that went is not. -/
theorem Change.contents_gone (sound : a.Sound es shelves) (live : Live es e)
    (change : Change a a' es (some e) new)
    (not_new : ∀ x ∈ new, payloadOf x.block ≠ payloadOf e.block) :
    a'.contents (payloadOf e.block) = none := by
  obtain ⟨es', shelves', sound', live'⟩ := change.sound
  apply contents_dead sound'
  intro x hx same
  rcases (live' x).mp hx with hx | ⟨hx, stays⟩
  · exact not_new x hx same
  · obtain rfl := sound.arena.tiles.block_inj hx.1 live.1 (Nat.add_right_cancel same)
    exact stays rfl

/-- The new block was not live before. -/
theorem Change.unused (sound : a.Sound es shelves) (change : Change a a' es gone (some e))
    (other : ∀ x ∈ gone, payloadOf e.block ≠ payloadOf x.block) :
    a.contents (payloadOf e.block) = none :=
  contents_dead sound fun x hx same =>
    change.fresh e rfl x hx (fun h => other x h same.symm) (Nat.add_right_cancel same)

/-- A new block is a new entry. -/
theorem Change.contents_enter (sound : a.Sound es shelves) (change : Change a a' es none (some e)) :
    a'.contents = Function.update a.contents (payloadOf e.block)
      (some (a'.memory.bytesAt (payloadOf e.block) (e.size - wordSize))) := by
  funext p
  by_cases hp : p = payloadOf e.block
  · rw [hp, Function.update_self, change.contents_new]
  · rw [Function.update_of_ne hp]
    apply change.contents_other sound (fun x hx => absurd hx (Option.not_mem_none x))
    rintro _ ⟨⟩
    exact hp

/-- A block that went is an entry less. -/
theorem Change.contents_erase (sound : a.Sound es shelves) (live : Live es e)
    (change : Change a a' es (some e) none) :
    a'.contents = Function.update a.contents (payloadOf e.block) none := by
  funext p
  by_cases hp : p = payloadOf e.block
  · rw [hp, Function.update_self]
    exact change.contents_gone sound live fun x hx => absurd hx (Option.not_mem_none x)
  · rw [Function.update_of_ne hp]
    refine change.contents_other sound ?_ fun x hx => absurd hx (Option.not_mem_none x)
    rintro _ ⟨⟩
    exact hp

/-- A block that replaced another one is an entry in the place of that one's. -/
theorem Change.contents_replace (sound : a.Sound es shelves) (live : Live es e)
    (change : Change a a' es (some e) (some e')) :
    a'.contents = Function.update (Function.update a.contents (payloadOf e.block) none)
      (payloadOf e'.block)
      (some (a'.memory.bytesAt (payloadOf e'.block) (e'.size - wordSize))) := by
  funext p
  by_cases hp' : p = payloadOf e'.block
  · rw [hp', Function.update_self, change.contents_new]
  · rw [Function.update_of_ne hp']
    by_cases hp : p = payloadOf e.block
    · rw [hp, Function.update_self]
      rw [hp] at hp'
      apply change.contents_gone sound live
      rintro _ ⟨⟩
      exact Ne.symm hp'
    · rw [Function.update_of_ne hp]
      refine change.contents_other sound ?_ ?_
      · rintro _ ⟨⟩
        exact hp
      · rintro _ ⟨⟩
        exact hp'

/-! ## Refinement -/

/-- **What a request does to a heap, it does to its contents.** -/
theorem Effect.contents_step (sound : a.Sound es shelves) (effect : Effect a es r answer a') :
    Contents.Step a.contents r answer a'.contents := by
  cases effect with
  | refused => exact .refused
  | started sound' config empty =>
    rw [contents_empty sound' empty]
    exact .started
  | empty wanted => exact .empty wanted
  | @handed _ n e _ wanted handed zero =>
    have room := handed.snug.room
    simp only [wordSize] at room
    rw [handed.contents_enter sound]
    refine .handed wanted ?_ ?_ ?_
    · exact handed.unused sound fun x hx => absurd hx (Option.not_mem_none x)
    · rw [length_bytesAt, wordSize]
      omega
    · intro zeroed
      rw [length_bytesAt]
      exact bytesAt_zero fun j hj => zero zeroed _ (Extent.span_payload hj)
  | @carried n e e' _ live pos carried =>
    have room := carried.snug.room
    have room' : n ≤ e'.size - wordSize := by
      simp only [wordSize] at room ⊢
      omega
    rw [carried.contents_replace sound live]
    refine .carried pos (contents_live sound live) ?_ ?_ ?_
    · by_cases same : payloadOf e'.block = payloadOf e.block
      · exact .inl same
      · refine .inr (carried.unused sound ?_)
        rintro _ ⟨⟩
        exact same
    · rw [length_bytesAt]
      exact room'
    · have held : a'.memory.bytesAt (payloadOf e'.block) (min n (e.size - wordSize))
          = a.memory.bytesAt (payloadOf e.block) (min n (e.size - wordSize)) :=
        bytesAt_congr fun j hj =>
          carried.held j (Nat.lt_of_lt_of_le hj (Nat.min_le_right ..))
            (Nat.lt_of_lt_of_le hj (Nat.min_le_left ..))
      rw [take_bytesAt, ← held]
      exact bytesAt_prefix ((Nat.min_le_left ..).trans room')
  | dropped live change =>
    rw [change.contents_erase sound live]
    exact .dropped (contents_live sound live)
  | freed live change =>
    rw [change.contents_erase sound live]
    exact .freed (contents_live sound live)
  | idle => exact .idle
  | outside live long => exact .outside (contents_live sound live) (by simpa using long)
  | @written e start bytes _ live fits memory change =>
    obtain ⟨-, -, -, -, stop, inside⟩ := sound.bounds live.1
    simp only [wordSize] at fits
    have there : payloadOf e.block + start + bytes.size ≤ a.memory.size := by
      simp only [payloadOf, wordSize]
      omega
    have step : Contents.Step a.contents (.write (payloadOf e.block) start bytes) _ _ :=
      .written (contents_live sound live) (by rw [length_bytesAt]; exact fits)
    rw [length_bytesAt] at step
    rw [change.contents_replace sound live, Function.update_idem, memory, bytesAt_paste there fits]
    exact step

end Allocator

/-! ## Runs -/

open Allocator

/-- After any run, the contents are what the requests made of them. -/
theorem Reaches.contents_after {a b : Allocator} {history : History} (truthful : a.source.Truthful)
    (run : Reaches a history b) : Contents.After history b.contents := by
  induction run with
  | start answered =>
    obtain ⟨es, shelves, sound, -, empty⟩ := start_sound truthful answered
    rw [contents_empty sound empty]
    exact .start
  | next run answered ih =>
    obtain ⟨es, shelves, sound, -⟩ := run.tracked truthful
    exact ih.next ((effect sound answered).contents_step sound)

/-- **Along every run, the contents of the heap are what the requests made of them; and whatever is
asked for next, it makes of them what it should.** -/
theorem contents_refine {a b : Allocator} {history : History} (truthful : a.source.Truthful)
    (run : Reaches a history b) :
    Contents.After history b.contents ∧
      (∀ p, (b.contents p).isSome = (asked history p).isSome) ∧
      ∀ r : Request, ∃ answer c, r.serve.outcome b = .ok answer c ∧
        Contents.Step b.contents r answer c.contents := by
  obtain ⟨es, shelves, sound, names⟩ := run.tracked truthful
  refine ⟨run.contents_after truthful, isSome_contents sound names, ?_⟩
  intro r
  obtain ⟨answer, c, answered, effect⟩ := serve_effect sound r
  exact ⟨answer, c, answered, effect.contents_step sound⟩

/-- Two payloads are live.  One of them is written to, or resized, and moved for that.  The heap
does to its contents what the map does, and the other payload holds what it held. -/
theorem contents_refine_of_two_blocks :
    ∃ b, Reaches (.create (.buffer 256) { chunk := 0 })
        [(.calloc 3 1, .ok (.payload (some 16))), (.alloc 20, .ok (.payload (some 48)))] b ∧
      Contents.After [(.calloc 3 1, .ok (.payload (some 16))),
        (.alloc 20, .ok (.payload (some 48)))] b.contents ∧
      (b.contents 48).isSome ∧
      (∃ answer c, (Request.write 16 1 ⟨#[7]⟩).serve.outcome b = .ok answer c ∧
        Contents.Step b.contents (.write 16 1 ⟨#[7]⟩) answer c.contents ∧
        c.contents 48 = b.contents 48) ∧
      ∃ c, (Request.realloc (some 16) 100).serve.outcome b = .ok (.ok (.payload (some 80))) c ∧
        Contents.Step b.contents (.realloc (some 16) 100) (.ok (.payload (some 80))) c.contents ∧
        c.contents 48 = b.contents 48 := by
  have truthful : (Source.buffer 256).Truthful :=
    Source.truthful_make (rfl : Source.make .buffer 256 = .ok (.buffer 256))
  obtain ⟨b, run, shows⟩ := exists_reaches [.calloc 3 1, .alloc 20] truthful
    (rfl : (Allocator.create (.buffer 256) { chunk := 0 }).terms.init = .ok _) (by decide +kernel)
  have run : Reaches _
      [(.calloc 3 1, .ok (.payload (some 16))), (.alloc 20, .ok (.payload (some 48)))] b := run
  obtain ⟨after, same, step⟩ := contents_refine truthful run
  have live : (b.contents 48).isSome := (same 48).trans rfl
  refine ⟨b, run, after, live, ?_, ?_⟩
  · obtain ⟨answer, c, answered, stepped⟩ := step (.write 16 1 ⟨#[7]⟩)
    exact ⟨answer, c, answered, stepped, stepped.frame nofun (by decide) live⟩
  · obtain ⟨answer, c, answered, stepped⟩ := step (.realloc (some 16) 100)
    obtain ⟨c', moved⟩ := served_live (r := .realloc (some 16) 100) shows
      (by rintro _ ⟨⟩; exact ⟨⟨8, 32, true⟩, ⟨by decide +kernel, rfl⟩, rfl⟩)
    have answered' : (Request.realloc (some 16) 100).serve.outcome b
        = .ok (.ok (.payload (some 80))) c' := moved.answered
    rw [answered] at answered'
    cases answered'
    exact ⟨c, answered, stepped, stepped.frame nofun (by decide) live⟩

end TaggedHeap
