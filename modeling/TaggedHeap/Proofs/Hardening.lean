import TaggedHeap.Proofs.Contents
import TaggedHeap.Proofs.Lockstep

/-!
# Self-checks do not show

An allocator that makes self-checks fills what is freed with a pattern, and stops if anything is not
as it should be.  `hardening_unseen` says that nobody can tell: it never stops, and along every
session it is seen to do what the allocator without self-checks does.

Bytes of payloads are compared as far as callers can know them.  `Shadow` is a caller's own record
of these: what was written, and what was handed out as zeros.  `Effect.holds` says of one request
that the record stays true, whoever serves it.
-/

namespace TaggedHeap

open Memory

/-! ## What is known of payloads -/

/-- For each live payload what is known of its bytes. -/
abbrev Shadow : Type := Nat → Option (List (Option UInt8))

namespace Shadow

/-- What is known of a payload that was resized to `length` bytes and came from `old`, of which `n`
are sure to stay if it was moved. -/
def resized (old : List (Option UInt8)) (moved : Bool) (n length : Nat) : List (Option UInt8) :=
  let kept := (if moved then old.take n else old).take length
  kept ++ List.replicate (length - kept.length) none

/-- What is known of a payload after bytes were written into it. -/
def patched (old : List (Option UInt8)) (start : Nat) (bytes : ByteArray) : List (Option UInt8) :=
  old.take start ++ bytes.data.toList.map some ++ old.drop (start + bytes.size)

/-- What is known after a request was answered, and `length` bytes of the payload that was handed
out may be used. -/
def record (shadow : Shadow) (r : Request) (answer : Except Refusal Answer) (length : Nat) :
    Shadow :=
  match r, answer with
  | .init, .ok _ => fun _ => none
  | .alloc _, .ok (.payload (some p)) =>
    Function.update shadow p (some (List.replicate length none))
  | .calloc _ _, .ok (.payload (some p)) =>
    Function.update shadow p (some (List.replicate length (some 0)))
  | .realloc none _, .ok (.payload (some p)) =>
    Function.update shadow p (some (List.replicate length none))
  | .realloc (some p) n, .ok (.payload (some q)) =>
    Function.update (Function.update shadow p none) q
      (some (resized ((shadow p).getD []) (q != p) n length))
  | .realloc (some p) _, .ok (.payload none) => Function.update shadow p none
  | .free (some p), .ok _ => Function.update shadow p none
  | .write p start bytes, .ok (.number _) =>
    Function.update shadow p ((shadow p).map fun old => patched old start bytes)
  | _, _ => shadow

/-- What is known after a session. -/
def recordAll (shadow : Shadow) (log : Log) : Shadow :=
  log.foldl (fun shadow entry => shadow.record entry.1 entry.2.answer (entry.2.usable.getD 0))
    shadow

/-- What is known after a session if nothing was before. -/
def ofLog (log : Log) : Shadow := recordAll (fun _ => none) log

/-- Bytes are as many as there should be, and those that are known. -/
structure Covers (known : List (Option UInt8)) (held : List UInt8) : Prop where
  /-- There are as many. -/
  length : held.length = known.length
  /-- Those that are known are held. -/
  byte : ∀ (j : Nat) (v : UInt8), known[j]? = some (some v) → held[j]? = some v

/-- The payloads of a heap are those that a shadow names, and hold what it says. -/
structure Holds (shadow : Shadow) (c : Contents) : Prop where
  /-- The same payloads are live. -/
  live : ∀ p, (shadow p).isSome = (c p).isSome
  /-- They hold what is known. -/
  covers : ∀ p known held, shadow p = some known → c p = some held → Covers known held

section Covers

variable {shadow : Shadow} {c : Contents} {known : List (Option UInt8)} {held : List UInt8}
  {p start : Nat} {bytes : ByteArray}

/-- Of no payload is anything known. -/
theorem holds_empty : Holds (fun _ => none) fun _ => none where
  live _ := rfl
  covers _ _ _ h := by cases h

/-- A payload is entered. -/
theorem Holds.enter (holds : shadow.Holds c) (covers : Covers known held) :
    Holds (Function.update shadow p (some known)) (Function.update c p (some held)) where
  live q := by
    by_cases hq : q = p
    · rw [hq, Function.update_self, Function.update_self]
      rfl
    · rw [Function.update_of_ne hq, Function.update_of_ne hq, holds.live]
  covers q known' held' hknown hheld := by
    by_cases hq : q = p
    · rw [hq, Function.update_self] at hknown hheld
      cases hknown
      cases hheld
      exact covers
    · rw [Function.update_of_ne hq] at hknown hheld
      exact holds.covers q known' held' hknown hheld

/-- A payload is struck out. -/
theorem Holds.erase (holds : shadow.Holds c) :
    Holds (Function.update shadow p none) (Function.update c p none) where
  live q := by
    by_cases hq : q = p
    · rw [hq, Function.update_self, Function.update_self]
      rfl
    · rw [Function.update_of_ne hq, Function.update_of_ne hq, holds.live]
  covers q known' held' hknown hheld := by
    by_cases hq : q = p
    · rw [hq, Function.update_self] at hknown
      cases hknown
    · rw [Function.update_of_ne hq] at hknown hheld
      exact holds.covers q known' held' hknown hheld

/-- What a live payload holds covers what is known of it. -/
theorem Holds.of_live (holds : shadow.Holds c) (live : c p = some held) :
    ∃ known, shadow p = some known ∧ Covers known held := by
  have named := holds.live p
  rw [live] at named
  obtain ⟨known, hknown⟩ := Option.isSome_iff_exists.mp named
  exact ⟨known, hknown, holds.covers p known held hknown live⟩

/-- Nothing need be known. -/
theorem covers_unknown (held : List UInt8) : Covers (List.replicate held.length none) held where
  length := by simp
  byte j v h := by
    rw [List.getElem?_replicate] at h
    split at h <;> cases h

/-- Zeros are known to be zeros. -/
theorem covers_zeros (n : Nat) : Covers (List.replicate n (some 0)) (List.replicate n 0) where
  length := by simp
  byte j v h := by
    rw [List.getElem?_replicate] at h ⊢
    split at h
    next inside =>
      cases h
      exact if_pos inside
    next => cases h

/-- What was written is known. -/
theorem Covers.patched (covers : Covers known held) (fits : start + bytes.size ≤ held.length) :
    Covers (patched known start bytes)
      (held.take start ++ bytes.data.toList ++ held.drop (start + bytes.size)) := by
  have length := covers.length
  have width : bytes.data.toList.length = bytes.size := rfl
  constructor
  · simp only [Shadow.patched, List.length_append, List.length_take, List.length_drop,
      List.length_map]
    omega
  · intro j v h
    have old := covers.byte j v
    unfold Shadow.patched at h
    grind

/-- What was known of a payload is known of it after it was resized, as far as it is
sure to stay. -/
theorem Covers.resized (moved : Bool) (n : Nat) (new : List UInt8) (covers : Covers known held)
    (same : ∀ (j : Nat) (v : UInt8), held[j]? = some v → j < new.length →
      (moved = true → j < n) → new[j]? = some v) :
    Covers (resized known moved n new.length) new := by
  constructor
  · simp only [Shadow.resized, List.length_append, List.length_take, List.length_replicate]
    omega
  · intro j v h
    have old := covers.byte j v
    have kept := same j v
    unfold Shadow.resized at h
    cases moved <;> grind

end Covers

section Records

variable {shadow : Shadow} {r : Request} {n p length : Nat}

/-- A refusal is not recorded. -/
theorem record_error (shadow : Shadow) (r : Request) (error : Refusal) (length : Nat) :
    shadow.record r (.error error) length = shadow := by
  cases r with
  | realloc payload n => cases payload <;> rfl
  | free payload => cases payload <;> rfl
  | _ => rfl

/-- Nothing new is known if no payload was handed out. -/
theorem record_fresh_none (wanted : r.fresh = some n) :
    shadow.record r (.ok (.payload none)) length = shadow := by
  cases r with
  | alloc n => rfl
  | calloc n size => rfl
  | realloc payload n =>
    cases payload with
    | none => rfl
    | some q => cases wanted
  | init => cases wanted
  | free payload => cases wanted
  | write payload start bytes => cases wanted

/-- Of a new payload it is known that it is zero, if that was asked for. -/
theorem record_fresh (wanted : r.fresh = some n) :
    shadow.record r (.ok (.payload (some p))) length
      = Function.update shadow p
          (some (List.replicate length (if r.zeroed then some 0 else none))) := by
  cases r with
  | alloc n => rfl
  | calloc n size => rfl
  | realloc payload n =>
    cases payload with
    | none => rfl
    | some q => cases wanted
  | init => cases wanted
  | free payload => cases wanted
  | write payload start bytes => cases wanted

/-- What is seen alike is recorded alike. -/
theorem record_alike {answer answer' : Except Refusal Answer} (alike : Alike answer answer') :
    shadow.record r answer length = shadow.record r answer' length := by
  cases alike with
  | same => rfl
  | denied => rw [record_error, record_error]

/-- Sessions that are seen alike leave the same known. -/
theorem recordAll_alike {log log' : Log} (alike : log.Alike log') (shadow : Shadow) :
    shadow.recordAll log = shadow.recordAll log' := by
  induction alike generalizing shadow with
  | nil => rfl
  | @cons entry entry' _ _ first _ ih =>
    obtain ⟨same, answer, usable, -, -⟩ := first
    have next : shadow.record entry.1 entry.2.answer (entry.2.usable.getD 0)
        = shadow.record entry'.1 entry'.2.answer (entry'.2.usable.getD 0) := by
      rw [same, usable, record_alike answer]
    unfold recordAll at ih ⊢
    rw [List.foldl_cons, List.foldl_cons, next, ih]

end Records

end Shadow

/-- A byte in a row. -/
theorem getElem?_bytesAt {m : Memory} {i count j : Nat} :
    (m.bytesAt i count)[j]? = if j < count then some (m.byte (i + j)) else none := by
  split
  next inside =>
    rw [List.getElem?_eq_getElem (by rw [length_bytesAt]; exact inside), getElem_bytesAt]
  next outside =>
    rw [List.getElem?_eq_none (by rw [length_bytesAt]; exact Nat.not_lt.mp outside)]

namespace Allocator

variable {a a' : Allocator} {s : Sketch} {es : List Extent} {shelves : Shelves} {e e' : Extent}
  {r : Request} {answer : Except Refusal Answer} {shadow : Shadow} {n length : Nat} {log : Log}

/-! ## One request -/

/-- What is known of a payload that was resized covers what it holds. -/
theorem Carried.covers {known : List (Option UInt8)} (carried : Carried a a' es e e' n)
    (covers : Shadow.Covers known (a.memory.bytesAt (payloadOf e.block) (e.size - wordSize))) :
    Shadow.Covers
      (Shadow.resized known (payloadOf e'.block != payloadOf e.block) n (e'.size - wordSize))
      (a'.memory.bytesAt (payloadOf e'.block) (e'.size - wordSize)) := by
  have resized := covers.resized (payloadOf e'.block != payloadOf e.block) n
    (a'.memory.bytesAt (payloadOf e'.block) (e'.size - wordSize)) ?_
  · rwa [length_bytesAt] at resized
  intro j v held inside few
  rw [length_bytesAt] at inside
  rw [getElem?_bytesAt] at held ⊢
  split at held
  next before =>
    cases held
    rw [if_pos inside]
    by_cases moved : payloadOf e'.block = payloadOf e.block
    · rw [moved, carried.still (Nat.add_right_cancel moved) j before inside]
    · rw [carried.held j before (few (bne_iff_ne.mpr moved))]
  next => cases held

/-- **The record of what is known stays true.** -/
theorem Effect.holds (sound : a.Sound es shelves) (effect : Effect a es r answer a')
    (holds : shadow.Holds a.contents)
    (measured : ∀ p, answer = .ok (.payload (some p)) → (usable p).outcome a' = .ok length a') :
    (shadow.record r answer length).Holds a'.contents := by
  -- the length that is recorded is that of the block that came
  have exact_length : ∀ {gone : Option Extent} {e : Extent}, Change a a' es gone (some e) →
      (usable (payloadOf e.block)).outcome a' = .ok length a' → length = e.size - wordSize := by
    intro gone e change told
    obtain ⟨es', shelves', sound', live'⟩ := change.sound
    rw [usable_live sound' ((live' e).mpr (.inl rfl))] at told
    cases told
    rfl
  cases effect with
  | refused =>
    rw [Shadow.record_error]
    exact holds
  | started sound' config empty =>
    rw [contents_empty sound' empty]
    exact Shadow.holds_empty
  | empty wanted =>
    rw [Shadow.record_fresh_none wanted]
    exact holds
  | @handed _ _ e _ wanted handed zero =>
    obtain rfl := exact_length handed.toChange (measured _ rfl)
    rw [Shadow.record_fresh wanted, handed.contents_enter sound]
    apply holds.enter
    cases zeroed : r.zeroed with
    | true =>
      rw [bytesAt_zero fun j hj => zero zeroed _ (Extent.span_payload hj)]
      exact Shadow.covers_zeros _
    | false =>
      have unknown := Shadow.covers_unknown
        (a'.memory.bytesAt (payloadOf e.block) (e.size - wordSize))
      rwa [length_bytesAt] at unknown
  | @carried n e e' _ live pos carried =>
    obtain rfl := exact_length carried.toChange (measured _ rfl)
    obtain ⟨known, hknown, covers⟩ := holds.of_live (contents_live sound live)
    rw [carried.contents_replace sound live]
    refine holds.erase.enter ?_
    rw [hknown]
    exact carried.covers covers
  | dropped live change =>
    rw [change.contents_erase sound live]
    exact holds.erase
  | freed live change =>
    rw [change.contents_erase sound live]
    exact holds.erase
  | idle => exact holds
  | outside live long => exact holds
  | @written e start bytes _ live fits memory change =>
    obtain ⟨-, -, -, -, stop, inside⟩ := sound.bounds live.1
    obtain ⟨known, hknown, covers⟩ := holds.of_live (contents_live sound live)
    have there : payloadOf e.block + start + bytes.size ≤ a.memory.size := by
      simp only [payloadOf, wordSize] at fits ⊢
      omega
    rw [change.contents_replace sound live, Function.update_idem, memory, bytesAt_paste there fits]
    show Shadow.Holds (Function.update shadow _ ((shadow _).map _)) _
    rw [hknown]
    exact holds.enter (covers.patched (by rw [length_bytesAt]; exact fits))

/-- Without an initialisation there are no contents. -/
theorem contents_unready (unready : a.ready = false) : a.contents = fun _ => none := by
  funext p
  have refused : (payloadLength p).outcome a = .refused .uninitialized a := by
    simp only [payloadLength, usable, Action.outcome_bind, requireReady_of_unready unready,
      Outcome.bind_refused]
  rw [contents, refused]

/-- After an attempt at an initialisation nothing is known, but nothing was. -/
theorem init_holds (unready : a.ready = false) (truthful : a.high = a.memory.size)
    (holds : shadow.Holds a.contents)
    (answered : Request.init.serve.outcome a = .ok answer a') :
    (shadow.record .init answer length).Holds a'.contents := by
  unfold Request.serve at answered
  rw [Action.outcome_attempt] at answered
  rcases init_cases truthful with ⟨error, -, -, refused⟩ | ⟨b, o, -, done, shows, -, empty⟩
  · have performed : Request.init.perform.outcome a = .refused error a.reset :=
      (Action.outcome_bind ..).trans (by rw [refused, Outcome.bind_refused])
    rw [performed] at answered
    cases answered
    rw [contents_unready (a := a.reset) rfl, ← contents_unready unready]
    exact holds
  · rw [show Request.init.perform.outcome a = .ok .done b from perform_of_ok done] at answered
    cases answered
    rw [contents_empty shows.sound empty]
    exact Shadow.holds_empty

/-- What is known stays true, whatever is asked for and whether the allocator is set up or not. -/
theorem Fits.holds (fits : a.Fits s) (holds : shadow.Holds a.contents)
    (answered : r.serve.outcome a = .ok answer a')
    (measured : ∀ p, answer = .ok (.payload (some p)) →
      (Allocator.usable p).outcome a' = .ok length a') :
    (shadow.record r answer length).Holds a'.contents := by
  cases s with
  | blank terms =>
    obtain ⟨unready, truthful, -⟩ := fits
    by_cases is_init : r = .init
    · subst is_init
      exact init_holds unready truthful holds answered
    · by_cases idle : r = .free none
      · subst idle
        cases answered
        exact holds
      · rw [serve_of_unready unready is_init idle] at answered
        cases answered
        rw [Shadow.record_error]
        exact holds
  | drawn o =>
    have shows : a.Shows o := fits
    exact (Reaches.effect shows.sound answered).holds shows.sound holds measured

/-- **What is known stays true along a session.** -/
theorem Fits.holds_all {requests : List Request} (fits : a.Fits s) (holds : shadow.Holds a.contents)
    (watched : (Request.watchAll requests).outcome a = .ok log a') :
    (shadow.recordAll log).Holds a'.contents := by
  induction requests generalizing a s shadow log with
  | nil =>
    cases watched
    exact holds
  | cons r rest ih =>
    obtain ⟨answer, a₁, answered, seen, alike, fits₁, -⟩ := fits.watch r
    obtain ⟨log₂, a₂, watched₂, -⟩ := fits₁.watchAll rest
    have measured : ∀ p, answer = .ok (.payload (some p)) →
        (Allocator.usable p).outcome a₁ = .ok (((s.serve r).2.sight answer).usable.getD 0) a₁ := by
      rintro p rfl
      exact fits.usable answered alike.answer fits₁
    have whole : (Request.watchAll (r :: rest)).outcome a
        = .ok ((r, (s.serve r).2.sight answer) :: log₂) a₂ := by
      unfold Request.watchAll
      simp only [Action.outcome_bind, seen, Outcome.bind_ok, watched₂, Action.outcome_pure]
    rw [watched] at whole
    cases whole
    have last := ih fits₁ (fits.holds holds answered measured) watched₂
    exact last

/-! ## Two allocators -/

variable {b : Allocator}

/-- Two allocators that fit one sketch tell alike how many bytes of a payload may be used. -/
theorem Fits.usable_alike (fits : a.Fits s) (fits' : b.Fits s) (p : Nat) :
    ∃ answer answer', (Allocator.usable p).attempt.outcome a = .ok answer a ∧
      (Allocator.usable p).attempt.outcome b = .ok answer' b ∧ Alike answer answer' := by
  simp only [Action.outcome_attempt]
  cases s with
  | blank terms =>
    have refused : ∀ {a : Allocator}, a.ready = false →
        (Allocator.usable p).outcome a = .refused .uninitialized a := by
      intro a unready
      unfold Allocator.usable
      rw [Action.outcome_bind, requireReady_of_unready unready, Outcome.bind_refused]
    rw [refused fits.1, refused fits'.1]
    exact ⟨_, _, rfl, rfl, .same _⟩
  | drawn o =>
    have shows : a.Shows o := fits
    have shows' : b.Shows o := fits'
    rcases live_or_dead o.extents p with ⟨e, live, rfl⟩ | dead
    · rw [usable_live shows.sound live, usable_live shows'.sound live]
      exact ⟨_, _, rfl, rfl, .same _⟩
    · obtain ⟨error, denied, refused⟩ := usable_dead shows.sound dead
      obtain ⟨error', denied', refused'⟩ := usable_dead shows'.sound dead
      rw [refused, refused']
      exact ⟨_, _, rfl, rfl, .denied denied denied'⟩

end Allocator

open Allocator

/-- **Along every session with any source, an allocator that makes self-checks does not stop, and is
seen to do what one without them does.**  That includes what its payloads hold, as far as the caller
wrote it or asked for zeros.  As this is said of all sessions, it holds after each
request of one. -/
theorem hardening_unseen (source : Source) (truthful : source.Truthful) (chunk : Nat)
    (fit : FitPolicy) (requests : List Request) :
    ∃ log log' a b,
      (Request.watchAll requests).outcome (.create source ⟨chunk, fit, false⟩) = .ok log a ∧
      (Request.watchAll requests).outcome (.create source ⟨chunk, fit, true⟩) = .ok log' b ∧
      log.Alike log' ∧ a.ready = b.ready ∧
      (b.ready = true → ∃ stats, a.audit = .ok stats ∧ b.audit = .ok stats) ∧
      (∀ p, ∃ answer answer', (usable p).attempt.outcome a = .ok answer a ∧
        (usable p).attempt.outcome b = .ok answer' b ∧ Alike answer answer') ∧
      (Shadow.ofLog log).Holds a.contents ∧ (Shadow.ofLog log).Holds b.contents := by
  have created : ∀ hardened, (Allocator.create source ⟨chunk, fit, hardened⟩).Fits
      (.blank ⟨source.kind, source.cap, source.memory.size, chunk, fit⟩) := fun hardened =>
    ⟨rfl, (Nat.zero_add _).trans truthful, rfl⟩
  have empty : ∀ hardened, Shadow.Holds (fun _ => none)
      (Allocator.create source ⟨chunk, fit, hardened⟩).contents := fun hardened => by
    rw [contents_unready rfl]
    exact Shadow.holds_empty
  obtain ⟨log, a, watched, alike, fits, -⟩ := (created false).watchAll requests
  obtain ⟨log', b, watched', alike', fits', -⟩ := (created true).watchAll requests
  have same : log.Alike log' := alike.trans alike'.symm
  refine ⟨log, log', a, b, watched, watched', same, ?_, ?_, fits.usable_alike fits', ?_, ?_⟩
  · exact fits.ready.trans fits'.ready.symm
  · intro ready
    obtain ⟨stats, audited⟩ := fits'.audit_of_ready ready
    exact ⟨stats, fits.audit.trans (fits'.audit.symm.trans audited), audited⟩
  · exact (created false).holds_all (empty false) watched
  · rw [Shadow.ofLog, Shadow.recordAll_alike same]
    exact (created true).holds_all (empty true) watched'

/-- A payload of zeros is handed out, written into, resized and taken back twice. -/
theorem hardening_unseen_of_buffer :
    ∃ log log' a b,
      (Request.watchAll [.init, .calloc 3 1, .write 16 1 ⟨#[7]⟩, .realloc (some 16) 50,
        .free (some 16), .free (some 16)]).outcome
          (.create (.buffer 400) ⟨0, .bestFit, false⟩) = .ok log a ∧
      (Request.watchAll [.init, .calloc 3 1, .write 16 1 ⟨#[7]⟩, .realloc (some 16) 50,
        .free (some 16), .free (some 16)]).outcome
          (.create (.buffer 400) ⟨0, .bestFit, true⟩) = .ok log' b ∧
      log.Alike log' ∧ (Shadow.ofLog log).Holds a.contents ∧
      (Shadow.ofLog log).Holds b.contents := by
  have truthful : (Source.buffer 400).Truthful :=
    Source.truthful_make (rfl : Source.make .buffer 400 = .ok (.buffer 400))
  obtain ⟨log, log', a, b, watched, watched', alike, -, -, -, holds, holds'⟩ :=
    hardening_unseen (.buffer 400) truthful 0 .bestFit [.init, .calloc 3 1, .write 16 1 ⟨#[7]⟩,
      .realloc (some 16) 50, .free (some 16), .free (some 16)]
  exact ⟨log, log', a, b, watched, watched', alike, holds, holds'⟩

end TaggedHeap
