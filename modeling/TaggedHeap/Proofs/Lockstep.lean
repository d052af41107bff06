import Mathlib.Data.List.Forall2
import TaggedHeap.Proofs.Runs

/-!
# Allocators in lockstep

Allocators that differ in the bytes of their heaps, or in whether they make self-checks, go through
requests side by side: what is seen of one is seen of the other.

* `Sighting` is what is seen of an allocator after a request, and `Request.watchAll` serves requests
  and notes what is seen after each.
* `Sketch` is what there is to an allocator, set up or not, besides its bytes, and `Sketch.watchAll`
  says what will be seen of one.
* `Fits.watch` is the step: what is seen of an allocator that fits a sketch is what the sketch says,
  and it fits the sketch that comes next.  `Fits.watchAll` is the run.

The reason why a pointer is refused may depend on bytes, so answers are only `Alike`.
-/

namespace TaggedHeap

/-! ## Answers -/

/-- Two answers are the same, or both refuse one pointer, for whichever reason. -/
inductive Alike {α : Type} : Except Refusal α → Except Refusal α → Prop
  /-- They are the same. -/
  | same (x : Except Refusal α) : Alike x x
  /-- They refuse one pointer. -/
  | denied {p : Nat} {error error' : Refusal} (denied : Denied p error)
      (denied' : Denied p error') : Alike (.error error) (.error error')

section Alike

variable {α : Type} {x y z : Except Refusal α} {p q : Nat} {error : Refusal}

/-- A reason to refuse a pointer names it. -/
theorem Denied.unique (h : Denied p error) (h' : Denied q error) : p = q := by
  rcases h with rfl | rfl <;> rcases h' with h' | h' <;> cases h' <;> rfl

theorem Alike.symm (h : Alike x y) : Alike y x := by
  cases h with
  | same => exact .same x
  | denied denied denied' => exact .denied denied' denied

theorem Alike.trans (h : Alike x y) (h' : Alike y z) : Alike x z := by
  cases h with
  | same => exact h'
  | denied denied denied' =>
    cases h' with
    | same => exact .denied denied denied'
    | denied denied₂ denied₂' =>
      obtain rfl := denied'.unique denied₂
      exact .denied denied denied₂'

end Alike

/-! ## Sightings -/

/-- What is seen of an allocator after a request. -/
structure Sighting where
  /-- What the request was answered with. -/
  answer : Except Refusal Answer
  /-- How many bytes of a payload that was handed out may be used. -/
  usable : Option Nat
  /-- The size of the heap. -/
  size : Nat
  /-- What an audit says. -/
  stats : Except Refusal Stats

/-- Two sightings are the same, but for why a pointer was refused. -/
structure Sighting.Alike (x y : Sighting) : Prop where
  /-- The answers are alike. -/
  answer : TaggedHeap.Alike x.answer y.answer
  /-- As many bytes may be used. -/
  usable : x.usable = y.usable
  /-- The heaps are of one size. -/
  size : x.size = y.size
  /-- The audits say the same. -/
  stats : x.stats = y.stats

theorem Sighting.Alike.symm {x y : Sighting} (h : x.Alike y) : y.Alike x :=
  ⟨h.answer.symm, h.usable.symm, h.size.symm, h.stats.symm⟩

theorem Sighting.Alike.trans {x y z : Sighting} (h : x.Alike y) (h' : y.Alike z) : x.Alike z :=
  ⟨h.answer.trans h'.answer, h.usable.trans h'.usable, h.size.trans h'.size,
    h.stats.trans h'.stats⟩

/-- The requests of a session, and what was seen after each. -/
abbrev Log : Type := List (Request × Sighting)

/-- Two logs are of the same requests, and alike. -/
def Log.Alike : Log → Log → Prop := List.Forall₂ fun x y => x.1 = y.1 ∧ x.2.Alike y.2

section Logs

variable {l l' l'' : Log}

theorem Log.Alike.symm (h : l.Alike l') : l'.Alike l :=
  List.Forall₂.flip (h.imp fun _ _ h => ⟨h.1.symm, h.2.symm⟩)

theorem Log.Alike.trans (h : l.Alike l') (h' : l'.Alike l'') : l.Alike l'' := by
  induction h generalizing l'' with
  | nil => exact h'
  | cons first _ ih =>
    cases h' with
    | cons first' rest' => exact .cons ⟨first.1.trans first'.1, first.2.trans first'.2⟩ (ih rest')

end Logs

namespace Request

/-- How many bytes of a payload may be used, if an answer hands one out. -/
def measure : Except Refusal Answer → Action Allocator (Option Nat)
  | .ok (.payload (some p)) => do return some (← Allocator.usable p)
  | _ => return none

/-- Does what was asked for, and notes what is seen then. -/
def watch (r : Request) : Action Allocator Sighting := do
  let answer ← r.serve
  let usable ← measure answer
  let size ← .read (·.high)
  let stats ← Allocator.check.attempt
  return ⟨answer, usable, size, stats⟩

/-- Does all that was asked for, and notes what is seen after each request. -/
def watchAll : List Request → Action Allocator Log
  | [] => return []
  | r :: rest => do
    let seen ← r.watch
    let log ← watchAll rest
    return (r, seen) :: log

end Request

/-! ## Sketches -/

/-- What there is to an allocator besides the bytes of its heap. -/
inductive Sketch where
  /-- It is not set up. -/
  | blank (terms : Terms)
  /-- It is. -/
  | drawn (outline : Outline)

namespace Sketch

/-- An attempt at an initialisation. -/
def start (terms : Terms) : Except Refusal Answer × Sketch :=
  match terms.init with
  | .ok o => (.ok .done, .drawn o)
  | .error error => (.error error, .blank terms)

/-- Does what was asked for. -/
def serve : Sketch → Request → Except Refusal Answer × Sketch
  | .blank terms, .init => start terms
  | .blank terms, .free none => (.ok .done, .blank terms)
  | .blank terms, _ => (.error .uninitialized, .blank terms)
  | .drawn o, r => ((o.serve r).1, .drawn (o.serve r).2)

/-- Whether the allocator is set up. -/
def isDrawn : Sketch → Bool
  | .blank _ => false
  | .drawn _ => true

/-- How many bytes of a payload may be used. -/
def usable (s : Sketch) (p : Nat) : Nat :=
  match s with
  | .blank _ => 0
  | .drawn o => o.sizeOf (p - wordSize) - wordSize

/-- The size of the heap. -/
def size : Sketch → Nat
  | .blank terms => terms.size
  | .drawn o => o.size

/-- What an audit says. -/
def stats : Sketch → Except Refusal Stats
  | .blank _ => .error .uninitialized
  | .drawn o => .ok (.ofExtents o.size o.extents)

/-- What will be seen after an answer. -/
def sight (s : Sketch) (answer : Except Refusal Answer) : Sighting :=
  { answer
    usable := match answer with
      | .ok (.payload (some p)) => some (s.usable p)
      | _ => none
    size := s.size
    stats := s.stats }

/-- Does all that was asked for. -/
def watchAll : Sketch → List Request → Log × Sketch
  | s, [] => ([], s)
  | s, r :: rest =>
    let (answer, s) := s.serve r
    let (log, last) := s.watchAll rest
    ((r, s.sight answer) :: log, last)

end Sketch

namespace Allocator

variable {a a' : Allocator} {s : Sketch} {o o' : Outline} {es : List Extent} {r : Request} {p : Nat}
  {answer : Except Refusal Answer}

/-- An allocator is what a sketch says, but for the bytes of its heap. -/
def Fits (a : Allocator) : Sketch → Prop
  | .blank terms => a.ready = false ∧ a.high = a.memory.size ∧ a.terms = terms
  | .drawn o => a.Shows o

/-! ## Before an initialisation -/

/-- Without an initialisation, nothing goes on. -/
theorem requireReady_of_unready (unready : a.ready = false) :
    requireReady.outcome a = .refused .uninitialized a := by
  unfold requireReady
  rw [Action.outcome_inspect, unready]
  rfl

/-- Without an initialisation, a request is refused, but for another attempt at one, and taking back
no payload. -/
theorem serve_of_unready (unready : a.ready = false) (not_init : r ≠ .init)
    (not_idle : r ≠ .free none) : r.serve.outcome a = .ok (.error .uninitialized) a := by
  have refused := requireReady_of_unready unready
  have allocRefused : ∀ n, (alloc n).outcome a = .refused .uninitialized a := by
    intro n
    unfold alloc
    rw [Action.outcome_bind, refused, Outcome.bind_refused]
  have freeRefused : ∀ p, (free (some p)).outcome a = .refused .uninitialized a := by
    intro p
    unfold free
    rw [Action.outcome_bind, refused, Outcome.bind_refused]
  cases r with
  | init => exact absurd rfl not_init
  | alloc n => exact serve_of_refused (perform_of_refused (allocRefused n))
  | calloc n size =>
    refine serve_of_refused (perform_of_refused ?_)
    unfold calloc
    rw [Action.outcome_bind, refused, Outcome.bind_refused]
  | realloc payload n =>
    refine serve_of_refused (perform_of_refused ?_)
    cases payload with
    | none => exact allocRefused n
    | some p =>
      unfold realloc
      by_cases zero : n = 0
      · simp only [if_pos zero, Action.outcome_bind, freeRefused, Outcome.bind_refused]
      · simp only [if_neg zero, Action.outcome_bind, refused, Outcome.bind_refused]
  | free payload =>
    cases payload with
    | none => exact absurd rfl not_idle
    | some p => exact serve_of_refused (perform_of_refused (freeRefused p))
  | write p start bytes =>
    refine serve_of_refused ?_
    simp only [Request.perform, Command.writePayload, payloadLength, usable, Action.outcome_bind,
      refused, Outcome.bind_refused]

/-- An attempt at an initialisation does what it does to the terms. -/
theorem init_of_unready (truthful : a.high = a.memory.size) :
    ∃ a', Request.init.serve.outcome a = .ok (Sketch.start a.terms).1 a' ∧
      a'.Fits (Sketch.start a.terms).2 ∧ a'.config = a.config := by
  unfold Sketch.start
  rcases init_cases truthful with ⟨error, -, planned, refused⟩ |
    ⟨a', o', planned, answered, shows', config, -⟩
  · have performed : Request.init.perform.outcome a = .refused error a.reset := by
      show (Allocator.init >>= fun _ => _ : Action Allocator Answer).outcome a = _
      rw [Action.outcome_bind, refused, Outcome.bind_refused]
    rw [planned]
    refine ⟨a.reset, ?_, ⟨rfl, truthful, rfl⟩, rfl⟩
    unfold Request.serve
    rw [Action.outcome_attempt, performed]
  · rw [planned]
    exact ⟨a', serve_of_ok (perform_of_ok answered), shows', config⟩

/-! ## One request -/

/-- **An allocator that fits a sketch answers as the sketch does,** and fits the one that comes
next. -/
theorem Fits.serve (fits : a.Fits s) (r : Request) :
    ∃ answer a', r.serve.outcome a = .ok answer a' ∧ Alike answer (s.serve r).1 ∧
      a'.Fits (s.serve r).2 ∧ a'.config = a.config := by
  cases s with
  | blank terms =>
    obtain ⟨unready, truthful, rfl⟩ := fits
    by_cases not_init : r = .init
    · subst not_init
      obtain ⟨a', answered, fits'⟩ := init_of_unready truthful
      exact ⟨_, a', answered, .same _, fits'⟩
    · by_cases idle : r = .free none
      · subst idle
        exact ⟨_, a, serve_of_ok (perform_of_ok rfl), .same _, ⟨unready, truthful, rfl⟩, rfl⟩
      · have stays : (Sketch.blank a.terms).serve r = (.error .uninitialized, .blank a.terms) := by
          cases r with
          | init => exact absurd rfl not_init
          | free payload =>
            cases payload with
            | none => exact absurd rfl idle
            | some p => rfl
          | _ => rfl
        rw [stays]
        exact ⟨_, a, serve_of_unready unready not_init idle, .same _, ⟨unready, truthful, rfl⟩, rfl⟩
  | drawn o =>
    have shows : a.Shows o := fits
    rcases pointer_cases o.extents r with live | ⟨p, named, dead⟩
    · obtain ⟨a', served⟩ := served_live shows live
      exact ⟨_, a', served.answered, .same _, served.shows, (served.effect.sound shows.sound).2⟩
    · obtain ⟨error, denied, refused⟩ := served_dead shows.sound named dead
      refine ⟨_, a, refused, ?_, ?_, rfl⟩
      · rw [Sketch.serve, serve_outline_dead named dead]
        exact .denied denied (.inl rfl)
      · rw [Sketch.serve, serve_outline_dead named dead]
        exact shows

/-- The size of the heap is in the sketch. -/
theorem Fits.high (fits : a.Fits s) : a.high = s.size := by
  cases s with
  | blank terms =>
    obtain ⟨-, truthful, rfl⟩ := fits
    exact truthful
  | drawn o =>
    have shows : a.Shows o := fits
    exact shows.high

/-- Whether the allocator is set up is in the sketch. -/
theorem Fits.ready (fits : a.Fits s) : a.ready = s.isDrawn := by
  cases s with
  | blank terms => exact fits.1
  | drawn o =>
    have shows : a.Shows o := fits
    exact shows.sound.ready

/-- What an audit says is in the sketch. -/
theorem Fits.audit (fits : a.Fits s) : a.audit = s.stats.mapError .refused := by
  cases s with
  | blank terms =>
    unfold Allocator.audit
    rw [fits.1]
    rfl
  | drawn o =>
    have shows : a.Shows o := fits
    rw [shows.sound.audit, shows.high]
    rfl

/-- An allocator that is set up passes an audit. -/
theorem Fits.audit_of_ready (fits : a.Fits s) (ready : a.ready = true) :
    ∃ stats, a.audit = .ok stats := by
  cases s with
  | blank terms => exact absurd ready (by rw [fits.1]; exact Bool.false_ne_true)
  | drawn o =>
    have shows : a.Shows o := fits
    exact ⟨_, shows.sound.audit⟩

/-- An audit leaves the allocator as it is. -/
theorem Fits.check (fits : a.Fits s) : check.attempt.outcome a = .ok s.stats a := by
  unfold Allocator.check
  rw [Action.outcome_attempt, Action.outcome_inspect, fits.audit]
  cases s.stats <;> rfl

/-- A payload that was handed out is live. -/
theorem Effect.payload_live (effect : Effect a es r (.ok (.payload (some p))) a')
    (shows' : a'.Shows o') : ∃ e, Live o'.extents e ∧ payloadOf e.block = p := by
  cases effect with
  | @handed _ _ e _ wanted handed zero => exact ⟨e, (handed.live shows' e).mpr (.inl rfl), rfl⟩
  | @carried _ _ e' _ live pos carried => exact ⟨e', (carried.live shows' e').mpr (.inl rfl), rfl⟩

/-- Before an initialisation, no payload is handed out. -/
theorem Sketch.not_alike_blank {terms : Terms} :
    ¬ Alike (.ok (.payload (some p))) ((Sketch.blank terms).serve r).1 := by
  intro alike
  generalize said : ((Sketch.blank terms).serve r).1 = answer at alike
  cases alike
  cases r with
  | init =>
    have said : (Sketch.start terms).1 = _ := said
    unfold Sketch.start at said
    cases planned : terms.init <;> rw [planned] at said <;> cases said
  | free payload => cases payload <;> cases said
  | _ => cases said

/-- A payload that was handed out has as many bytes as the sketch says. -/
theorem Fits.usable (fits : a.Fits s)
    (answered : r.serve.outcome a = .ok (.ok (.payload (some p))) a')
    (alike : Alike (.ok (.payload (some p))) (s.serve r).1) (fits' : a'.Fits (s.serve r).2) :
    (Allocator.usable p).outcome a' = .ok ((s.serve r).2.usable p) a' := by
  cases s with
  | blank terms => exact absurd alike Sketch.not_alike_blank
  | drawn o =>
    have shows : a.Shows o := fits
    have shows' : a'.Shows (o.serve r).2 := fits'
    obtain ⟨e, live, rfl⟩ := (Reaches.effect shows.sound answered).payload_live shows'
    have block : payloadOf e.block - wordSize = e.block := Nat.add_sub_cancel ..
    rw [usable_live shows'.sound live, Sketch.serve, Sketch.usable, block, shows'.sizeOf live.1]

/-- What a sketch says is seen depends on the answer in that much only. -/
theorem Sketch.sight_alike {answer' : Except Refusal Answer} (h : Alike answer answer') :
    (s.sight answer).Alike (s.sight answer') := by
  refine ⟨h, ?_, rfl, rfl⟩
  cases h with
  | same => rfl
  | denied => rfl

/-- **What is seen of an allocator that fits a sketch is what the sketch says.** -/
theorem Fits.watch (fits : a.Fits s) (r : Request) :
    ∃ answer a', r.serve.outcome a = .ok answer a' ∧
      r.watch.outcome a = .ok ((s.serve r).2.sight answer) a' ∧
      ((s.serve r).2.sight answer).Alike ((s.serve r).2.sight (s.serve r).1) ∧
      a'.Fits (s.serve r).2 ∧ a'.config = a.config := by
  obtain ⟨answer, a', answered, alike, fits', config⟩ := fits.serve r
  refine ⟨answer, a', answered, ?_, Sketch.sight_alike alike, fits', config⟩
  have measured : (Request.measure answer).outcome a'
      = .ok ((s.serve r).2.sight answer).usable a' := by
    unfold Request.measure Sketch.sight
    split
    next p =>
      rw [Action.outcome_bind, fits.usable answered alike fits']
      rfl
    next => rfl
  unfold Request.watch
  rw [Action.outcome_bind, answered, Outcome.bind_ok, Action.outcome_bind, measured,
    Outcome.bind_ok, Action.outcome_bind, Action.outcome_read, Outcome.bind_ok,
    Action.outcome_bind, fits'.check, Outcome.bind_ok, fits'.high]
  rfl

/-! ## Many requests -/

/-- **What is seen of an allocator along a session is what the sketch says.** -/
theorem Fits.watchAll (fits : a.Fits s) (requests : List Request) :
    ∃ log a', (Request.watchAll requests).outcome a = .ok log a' ∧
      log.Alike (s.watchAll requests).1 ∧ a'.Fits (s.watchAll requests).2 ∧
      a'.config = a.config := by
  induction requests generalizing a s with
  | nil => exact ⟨[], a, rfl, .nil, fits, rfl⟩
  | cons r rest ih =>
    obtain ⟨answer, a₁, -, watched, alike, fits₁, config₁⟩ := fits.watch r
    obtain ⟨log, a₂, watched₂, alike₂, fits₂, config₂⟩ := ih fits₁
    refine ⟨(r, (s.serve r).2.sight answer) :: log, a₂, ?_, .cons ⟨rfl, alike⟩ alike₂, fits₂,
      config₂.trans config₁⟩
    unfold Request.watchAll
    simp only [Action.outcome_bind, watched, Outcome.bind_ok, watched₂, Action.outcome_pure]

end Allocator

end TaggedHeap
