import TaggedHeap.Proofs.Requests
import TaggedHeap.Session.Play

/-!
# What requests do

* `Request` is what a caller can ask for, and `Request.serve` what comes of it, a refusal included.
  `Outline.serve` says what comes of it without the bytes of the heap.
* `Effect a es r answer a'` lists what a request can do to a sound allocator, one constructor for
  each way to end.
* `served_live` says that every request is answered as the outline answers it, and leaves an
  allocator that shows the outline's next, if its pointer, where it names one, is live.  With any
  other pointer it is refused, which is `served_dead`.

So `serve_effect` holds of any request: it ends, and has one of the effects.
-/

namespace TaggedHeap

open Memory

/-! ## Requests -/

/-- What a caller can ask of an allocator. -/
inductive Request where
  /-- An empty heap. -/
  | init
  /-- A payload with room for `n` bytes. -/
  | alloc (n : Nat)
  /-- A payload of `n` elements of `size` bytes, all zero. -/
  | calloc (n size : Nat)
  /-- That a payload, or none, be resized to `n` bytes. -/
  | realloc (payload : Option Nat) (n : Nat)
  /-- That a payload, or none, be taken back. -/
  | free (payload : Option Nat)
  /-- That bytes be written into a payload, from `start` on. -/
  | write (payload start : Nat) (bytes : ByteArray)

namespace Request

/-- Does what was asked for. -/
def perform : Request → Action Allocator Answer
  | init => do
    Allocator.init
    return .done
  | alloc n => return .payload (← Allocator.alloc n)
  | calloc n size => return .payload (← Allocator.calloc n size)
  | realloc payload n => return .payload (← Allocator.realloc payload n)
  | free payload => do
    Allocator.free payload
    return .done
  | write payload start bytes => Command.writePayload start bytes payload

/-- Does what was asked for, and answers a refusal as well. -/
def serve (r : Request) : Action Allocator (Except Refusal Answer) := r.perform.attempt

/-- For how many bytes a new payload is asked for, if one is. -/
def fresh : Request → Option Nat
  | alloc n => some n
  | calloc n size => some (n * size)
  | realloc none n => some n
  | _ => none

/-- Whether the bytes of a new payload have to be zero. -/
def zeroed : Request → Bool
  | calloc _ _ => true
  | _ => false

/-- The pointer that a request names, if it names one. -/
def pointer : Request → Option Nat
  | realloc payload _ => payload
  | free payload => payload
  | write payload _ _ => some payload
  | _ => none

end Request

namespace Outline

/-- Does what was asked for. -/
def perform (o : Outline) : Request → Except Refusal (Answer × Outline)
  | .init => return (.done, ← o.toTerms.init)
  | .alloc n => do
    let (payload, o) ← o.alloc n
    return (.payload payload, o)
  | .calloc n size => do
    let (payload, o) ← o.calloc n size
    return (.payload payload, o)
  | .realloc payload n => do
    let (payload, o) ← o.realloc payload n
    return (.payload payload, o)
  | .free payload => return (.done, ← o.free payload)
  | .write payload start bytes => do
    let s ← o.locate payload
    if s.extent.size - wordSize < start + bytes.size then return (.outOfRange, o)
    return (.number (s.extent.size - wordSize), o)

/-- Does what was asked for, and answers a refusal as well, which changes nothing. -/
def serve (o : Outline) (r : Request) : Except Refusal Answer × Outline :=
  match o.perform r with
  | .ok (answer, o) => (.ok answer, o)
  | .error error => (.error error, o)

end Outline

namespace Allocator

variable {a a' : Allocator} {es : List Extent} {shelves : Shelves} {e x : Extent} {n p : Nat}
  {r : Request} {o o' : Outline}

/-! ## What a request can do -/

/-- What a request `r` to the allocator `a`, with the extents `es`, can be answered with and make of
it. -/
inductive Effect (a : Allocator) (es : List Extent) :
    Request → Except Refusal Answer → Allocator → Prop
  /-- A refusal leaves the allocator as it was. -/
  | refused {r : Request} {error : Refusal} : Effect a es r (.error error) a
  /-- An initialisation leaves no block live. -/
  | started {a' : Allocator} {es' : List Extent} {shelves' : Shelves}
      (sound : a'.Sound es' shelves') (config : a'.config = a.config) (empty : ∀ x, ¬ Live es' x) :
      Effect a es .init (.ok .done) a'
  /-- No payload is handed out for no bytes. -/
  | empty {r : Request} (wanted : r.fresh = some 0) : Effect a es r (.ok (.payload none)) a
  /-- A new payload is handed out, zeroed if that was asked for. -/
  | handed {r : Request} {n : Nat} {e : Extent} {a' : Allocator} (wanted : r.fresh = some n)
      (handed : Handed a a' es none e n)
      (zero : r.zeroed = true → ∀ j, Span (payloadOf e.block) e.stop j → a'.memory.byte j = 0) :
      Effect a es r (.ok (.payload (some (payloadOf e.block)))) a'
  /-- A payload is resized. -/
  | carried {n : Nat} {e e' : Extent} {a' : Allocator} (live : Live es e) (pos : n ≠ 0)
      (carried : Carried a a' es e e' n) :
      Effect a es (.realloc (some (payloadOf e.block)) n)
        (.ok (.payload (some (payloadOf e'.block)))) a'
  /-- A payload that is resized to no bytes is taken back. -/
  | dropped {e : Extent} {a' : Allocator} (live : Live es e)
      (change : Change a a' es (some e) none) :
      Effect a es (.realloc (some (payloadOf e.block)) 0) (.ok (.payload none)) a'
  /-- A payload is taken back. -/
  | freed {e : Extent} {a' : Allocator} (live : Live es e) (change : Change a a' es (some e) none) :
      Effect a es (.free (some (payloadOf e.block))) (.ok .done) a'
  /-- No payload may be taken back at any time. -/
  | idle : Effect a es (.free none) (.ok .done) a
  /-- What would go beyond a payload is not written. -/
  | outside {e : Extent} {start : Nat} {bytes : ByteArray} (live : Live es e)
      (long : e.size - wordSize < start + bytes.size) :
      Effect a es (.write (payloadOf e.block) start bytes) (.ok .outOfRange) a
  /-- Bytes are written into a payload. -/
  | written {e : Extent} {start : Nat} {bytes : ByteArray} {a' : Allocator} (live : Live es e)
      (fits : start + bytes.size ≤ e.size - wordSize)
      (memory : a'.memory = a.memory.paste (payloadOf e.block + start) bytes)
      (change : Change a a' es (some e) (some e)) :
      Effect a es (.write (payloadOf e.block) start bytes) (.ok (.number (e.size - wordSize))) a'

/-- A pointer is the payload of a live block or of none. -/
theorem live_or_dead (es : List Extent) (p : Nat) :
    (∃ e, Live es e ∧ payloadOf e.block = p) ∨ ∀ e, Live es e → payloadOf e.block ≠ p := by
  by_cases h : ∃ e, Live es e ∧ payloadOf e.block = p
  · exact .inl h
  · exact .inr fun e live same => h ⟨e, live, same⟩

/-- A request `r` was served as the outline `o` serves it: with that answer, so that the outline's
next shows, and with one of its effects. -/
structure Served (a : Allocator) (o : Outline) (r : Request) (a' : Allocator) : Prop where
  /-- The answer is the outline's. -/
  answered : r.serve.outcome a = .ok (o.serve r).1 a'
  /-- The outline's next shows. -/
  shows : a'.Shows (o.serve r).2
  /-- The request had its effect. -/
  effect : Effect a o.extents r (o.serve r).1 a'

/-- A request that is refused is answered with that. -/
theorem serve_of_refused {error : Refusal} (h : r.perform.outcome a = .refused error a) :
    r.serve.outcome a = .ok (.error error) a := by
  unfold Request.serve
  rw [Action.outcome_attempt, h]

/-- A request that ends with an answer is answered with that. -/
theorem serve_of_ok {answer : Answer} (h : r.perform.outcome a = .ok answer a') :
    r.serve.outcome a = .ok (.ok answer) a' := by
  unfold Request.serve
  rw [Action.outcome_attempt, h]

/-- A request is served if it ends with the answer of the outline. -/
theorem Served.of_ok {answer : Answer} (planned : o.perform r = .ok (answer, o'))
    (answered : r.perform.outcome a = .ok answer a') (shows' : a'.Shows o')
    (effect : Effect a o.extents r (.ok answer) a') : Served a o r a' := by
  have served : o.serve r = (.ok answer, o') := by
    unfold Outline.serve
    rw [planned]
  exact ⟨by rw [served]; exact serve_of_ok answered, by rw [served]; exact shows',
    by rw [served]; exact effect⟩

/-- A request is served if it is refused as by the outline. -/
theorem Served.of_refused {error : Refusal} (shows : a.Shows o)
    (planned : o.perform r = .error error) (refused : r.perform.outcome a = .refused error a) :
    Served a o r a := by
  have served : o.serve r = (.error error, o) := by
    unfold Outline.serve
    rw [planned]
  exact ⟨by rw [served]; exact serve_of_refused refused, by rw [served]; exact shows,
    by rw [served]; exact .refused⟩

/-- A request that ends with a value, of which the answer is made. -/
theorem perform_of_ok {α : Type} {x : Action Allocator α} {f : α → Answer} {value : α}
    (h : x.outcome a = .ok value a') :
    (x >>= fun value => return f value : Action Allocator Answer).outcome a
      = .ok (f value) a' := by
  rw [Action.outcome_bind, h]
  rfl

/-- A request that is refused before there is a value. -/
theorem perform_of_refused {α : Type} {x : Action Allocator α} {f : α → Answer} {error : Refusal}
    (h : x.outcome a = .refused error a) :
    (x >>= fun value => return f value : Action Allocator Answer).outcome a
      = .refused error a := by
  rw [Action.outcome_bind, h]
  rfl

/-! ## Requests without a pointer -/

/-- An empty heap is set up. -/
theorem init_served (shows : a.Shows o) : ∃ a', Served a o .init a' := by
  obtain ⟨a', o', planned, answered, shows', config, empty⟩ := shows.sound.init
  refine ⟨a', .of_ok ?_ (perform_of_ok answered) shows' (.started shows'.sound config empty)⟩
  show (o.toTerms.init >>= _) = _
  rw [← shows.terms, planned]
  rfl

/-- A new payload of `n` bytes is handed out, or not. -/
theorem alloc_served (shows : a.Shows o) (wanted : r.fresh = some n) (plain : r.zeroed = false)
    (perform : r.perform = do return .payload (← alloc n))
    (outlined : o.perform r = do
      let (payload, o) ← o.alloc n
      return (.payload payload, o)) :
    ∃ a', Served a o r a' := by
  by_cases zero : n = 0
  · subst zero
    refine ⟨a, .of_ok ?_ ?_ shows (.empty wanted)⟩
    · rw [outlined]
      rfl
    · rw [perform]
      exact perform_of_ok (alloc_zero shows.sound)
  · rcases alloc_cases shows zero with ⟨error, -, planned, refused⟩ |
      ⟨e, a', o', planned, answered, shows', handed⟩
    · have outlined : o.perform r = .error error := by
        rw [outlined, planned]
        rfl
      refine ⟨a, .of_refused shows outlined ?_⟩
      rw [perform]
      exact perform_of_refused refused
    · refine ⟨a', .of_ok ?_ ?_ shows' (.handed wanted handed ?_)⟩
      · rw [outlined, planned]
        rfl
      · rw [perform]
        exact perform_of_ok answered
      · intro zeroed
        rw [plain] at zeroed
        cases zeroed

/-- A new payload of zeros is handed out, or not. -/
theorem calloc_served (shows : a.Shows o) (n size : Nat) :
    ∃ a', Served a o (.calloc n size) a' := by
  have outlined : ∀ {x : Except Refusal (Option Nat × Outline)}, o.calloc n size = x →
      o.perform (.calloc n size) = do
        let (payload, o) ← x
        return (.payload payload, o) := by
    rintro x rfl
    rfl
  by_cases overflow : wordBound ≤ n * size
  · exact ⟨a, .of_refused shows (outlined (if_pos overflow))
      (perform_of_refused (calloc_overflow shows.sound overflow))⟩
  · by_cases zero : n * size = 0
    · have planned : o.calloc n size = .ok (none, o) := by
        unfold Outline.calloc
        rw [if_neg overflow, zero]
        rfl
      exact ⟨a, .of_ok (outlined planned) (perform_of_ok (calloc_zero shows.sound zero)) shows
        (.empty (congrArg some zero))⟩
    · rcases calloc_cases shows (Nat.not_le.mp overflow) zero with ⟨error, -, planned, refused⟩ |
        ⟨e, a', o', planned, answered, shows', handed, zeros⟩
      · exact ⟨a, .of_refused shows (outlined planned) (perform_of_refused refused)⟩
      · exact ⟨a', .of_ok (outlined planned) (perform_of_ok answered) shows'
          (.handed rfl handed fun _ => zeros)⟩

/-! ## Requests with a live pointer -/

/-- A live payload is resized, or not. -/
theorem realloc_served (shows : a.Shows o) (live : Live o.extents e) (n : Nat) :
    ∃ a', Served a o (.realloc (some (payloadOf e.block)) n) a' := by
  have outlined : ∀ {x : Except Refusal (Option Nat × Outline)},
      o.realloc (some (payloadOf e.block)) n = x →
      o.perform (.realloc (some (payloadOf e.block)) n) = do
        let (payload, o) ← x
        return (.payload payload, o) := by
    rintro x rfl
    rfl
  by_cases zero : n = 0
  · subst zero
    obtain ⟨a', o', planned, answered, shows', change⟩ := realloc_zero_shows shows live
    exact ⟨a', .of_ok (outlined planned) (perform_of_ok answered) shows' (.dropped live change)⟩
  · rcases realloc_shows shows live zero with ⟨error, -, planned, refused⟩ |
      ⟨e', a', o', planned, answered, shows', carried⟩
    · exact ⟨a, .of_refused shows (outlined planned) (perform_of_refused refused)⟩
    · exact ⟨a', .of_ok (outlined planned) (perform_of_ok answered) shows'
        (.carried live zero carried)⟩

/-- A live payload is taken back. -/
theorem free_served (shows : a.Shows o) (live : Live o.extents e) :
    ∃ a', Served a o (.free (some (payloadOf e.block))) a' := by
  obtain ⟨a', o', planned, answered, shows', change⟩ := free_shows shows live
  refine ⟨a', .of_ok ?_ (perform_of_ok answered) shows' (.freed live change)⟩
  show (o.free (some (payloadOf e.block)) >>= _) = _
  rw [planned]
  rfl

/-- What does not fit into the bytes that a pointer gives access to is not written, and what is
written changes none but them. -/
theorem writePayload_of_length {length : Nat} (inside : p + length ≤ a.memory.size)
    (known : (payloadLength p).outcome a = .ok length a) (start : Nat) (bytes : ByteArray) :
    (length < start + bytes.size →
      (Command.writePayload start bytes p).outcome a = .ok .outOfRange a) ∧
    (start + bytes.size ≤ length →
      (Command.writePayload start bytes p).outcome a
        = .ok (.number length) (a.withArena ⟨a.memory.paste (p + start) bytes, a.lists, a.starts⟩) ∧
      a.memory.EqOff (a.memory.paste (p + start) bytes) (Span p (p + length))) := by
  unfold Command.writePayload
  simp only [Action.outcome_bind, known, Outcome.bind_ok]
  refine ⟨fun long => by rw [if_pos long]; rfl, fun fits => ?_⟩
  have there : p + start + bytes.size ≤ a.memory.size := by omega
  refine ⟨?_, (eqOff_paste there).mono fun j hj => ?_⟩
  · rw [if_neg (Nat.not_lt.mpr fits)]
    unfold writeBytes
    rw [Action.outcome_bind, outcome_editMemory_of_ok (pasteRange_of_le there)]
    rfl
  · simp only [Span] at hj ⊢
    omega

/-- Bytes are written into a live payload if they fit, and not beyond it. -/
theorem writePayload_live {filled : Extent → Prop} (sound : a.Sound es shelves filled)
    (live : Live es e) (start : Nat) (bytes : ByteArray) :
    (e.size - wordSize < start + bytes.size →
      (Command.writePayload start bytes (payloadOf e.block)).outcome a = .ok .outOfRange a) ∧
    (start + bytes.size ≤ e.size - wordSize →
      (Command.writePayload start bytes (payloadOf e.block)).outcome a
        = .ok (.number (e.size - wordSize))
            (a.withArena ⟨a.memory.paste (payloadOf e.block + start) bytes, a.lists, a.starts⟩) ∧
      a.memory.EqOff (a.memory.paste (payloadOf e.block + start) bytes)
        (Span (payloadOf e.block) e.stop)) := by
  obtain ⟨-, -, room, -, stop, inside⟩ := sound.bounds live.1
  have all : payloadOf e.block + (e.size - wordSize) = e.stop := by
    simp only [payloadOf, wordSize, Extent.stop]
    omega
  rw [← all]
  refine writePayload_of_length ?_ (payloadLength_live sound live) start bytes
  rw [all, Extent.stop]
  omega

/-- Bytes are written into a live payload, or not. -/
theorem write_served (shows : a.Shows o) (live : Live o.extents e) (start : Nat)
    (bytes : ByteArray) : ∃ a', Served a o (.write (payloadOf e.block) start bytes) a' := by
  obtain ⟨pre, post, split⟩ := List.append_of_mem live.1
  have outlined : o.perform (.write (payloadOf e.block) start bytes)
      = if e.size - wordSize < start + bytes.size then .ok (.outOfRange, o)
        else .ok (.number (e.size - wordSize), o) := by
    show (o.locate (payloadOf e.block) >>= _) = _
    rw [shows.locate_live split live.2]
    rfl
  obtain ⟨outside, written⟩ := writePayload_live shows.sound live start bytes
  by_cases long : e.size - wordSize < start + bytes.size
  · exact ⟨a, .of_ok (outlined.trans (if_pos long)) (outside long) shows (.outside live long)⟩
  · obtain ⟨answered, frame⟩ := written (Nat.not_lt.mp long)
    exact ⟨_, .of_ok (outlined.trans (if_neg long)) answered (shows.write live frame)
      (.written live (Nat.not_lt.mp long) rfl (shows.sound.write live frame))⟩

/-! ## All requests -/

/-- **A request is served as by the outline,** if its pointer is live where it names one. -/
theorem served_live (shows : a.Shows o)
    (live : ∀ p ∈ r.pointer, ∃ e, Live o.extents e ∧ payloadOf e.block = p) :
    ∃ a', Served a o r a' := by
  cases r with
  | init => exact init_served shows
  | alloc n => exact alloc_served shows rfl rfl rfl rfl
  | calloc n size => exact calloc_served shows n size
  | realloc payload n =>
    cases payload with
    | none => exact alloc_served shows rfl rfl rfl rfl
    | some p =>
      obtain ⟨e, live_e, rfl⟩ := live p rfl
      exact realloc_served shows live_e n
  | free payload =>
    cases payload with
    | none => exact ⟨a, .of_ok rfl (perform_of_ok rfl) shows .idle⟩
    | some p =>
      obtain ⟨e, live_e, rfl⟩ := live p rfl
      exact free_served shows live_e
  | write p start bytes =>
    obtain ⟨e, live_e, rfl⟩ := live p rfl
    exact write_served shows live_e start bytes

/-- **A request is refused if its pointer is not live.** -/
theorem served_dead (sound : a.Sound es shelves) (named : r.pointer = some p)
    (dead : ∀ e, Live es e → payloadOf e.block ≠ p) :
    ∃ error, Denied p error ∧ r.serve.outcome a = .ok (.error error) a := by
  cases r with
  | init => cases named
  | alloc n => cases named
  | calloc n size => cases named
  | realloc payload n =>
    obtain rfl : payload = some p := named
    obtain ⟨error, denied, refused⟩ := realloc_dead sound dead n
    exact ⟨error, denied, serve_of_refused (perform_of_refused refused)⟩
  | free payload =>
    obtain rfl : payload = some p := named
    obtain ⟨error, denied, refused⟩ := free_dead sound dead
    exact ⟨error, denied, serve_of_refused (perform_of_refused refused)⟩
  | write q start bytes =>
    obtain rfl : q = p := Option.some.inj named
    obtain ⟨error, denied, refused⟩ := payloadLength_dead sound dead
    refine ⟨error, denied, serve_of_refused ?_⟩
    simp only [Request.perform, Command.writePayload, Action.outcome_bind, refused,
      Outcome.bind_refused]

/-- The outline refuses such a request as well. -/
theorem serve_outline_dead (named : r.pointer = some p)
    (dead : ∀ e, Live o.extents e → payloadOf e.block ≠ p) :
    o.serve r = (.error (.invalidPointer p), o) := by
  have refused : o.perform r = .error (.invalidPointer p) := by
    have located := Outline.locate_dead dead
    cases r with
    | init => cases named
    | alloc n => cases named
    | calloc n size => cases named
    | realloc payload n =>
      obtain rfl : payload = some p := named
      show (o.realloc (some p) n >>= _) = _
      by_cases zero : n = 0
      · simp only [Outline.realloc, Outline.free, if_pos zero, located]
        rfl
      · simp only [Outline.realloc, if_neg zero, located]
        rfl
    | free payload =>
      obtain rfl : payload = some p := named
      show (o.free (some p) >>= _) = _
      simp only [Outline.free, located]
      rfl
    | write q start bytes =>
      obtain rfl : q = p := Option.some.inj named
      show (o.locate q >>= _) = _
      rw [located]
      rfl
  unfold Outline.serve
  rw [refused]

/-- The pointer of a request is live if there is one, or it is not. -/
theorem pointer_cases (es : List Extent) (r : Request) :
    (∀ p ∈ r.pointer, ∃ e, Live es e ∧ payloadOf e.block = p) ∨
      ∃ p, r.pointer = some p ∧ ∀ e, Live es e → payloadOf e.block ≠ p := by
  cases named : r.pointer with
  | none => exact .inl fun p hp => by cases hp
  | some p =>
    rcases live_or_dead es p with live | dead
    · left
      rintro _ ⟨⟩
      exact live
    · exact .inr ⟨p, rfl, dead⟩

/-- **Every request to a sound allocator ends, and has its effect.** -/
theorem serve_effect (sound : a.Sound es shelves) (r : Request) :
    ∃ answer a', r.serve.outcome a = .ok answer a' ∧ Effect a es r answer a' := by
  rcases pointer_cases es r with live | ⟨p, named, dead⟩
  · obtain ⟨a', served⟩ := served_live sound.shows live
    exact ⟨_, a', served.answered, served.effect⟩
  · obtain ⟨error, -, refused⟩ := served_dead sound named dead
    exact ⟨_, a, refused, .refused⟩

end Allocator

end TaggedHeap
