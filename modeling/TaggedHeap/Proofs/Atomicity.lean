import TaggedHeap.Allocator.Request
import TaggedHeap.Proofs.Runs

/-!
# Refused requests change nothing

Requests that may be refused do so before they touch anything.  `refusals_atomic` says so of every
state that an allocator can be in, whatever its bytes are: if a request ends with a refusal, the
allocator is the one that it was.

Three properties of actions carry this, and none of them is about heaps.

* `Action.Atomic`: if the action is refused, the state is as it was.
* `Action.Still`: if the action ends with a value, the state is as it was.
* `Action.Firm`: the action is not refused.

An action in two parts is atomic if the second one is firm (`Atomic.then_firm`), or if the first one
is still and the second one atomic (`Atomic.after_still`).  A request is all of the first kind from
where it changes the heap on: what comes behind a step on the arena may only stop.  The one place
where neither rule is enough is growing a block where it is, since that may fail and be followed by
a move; `stretch_false` says that then it was still.
-/

namespace TaggedHeap

variable {σ α β : Type}

namespace Action

/-! ## Actions in two parts -/

/-- An action in two parts has a value if both parts have one. -/
theorem outcome_bind_eq_ok {x : Action σ α} {f : α → Action σ β} {s s'' : σ} {b : β} :
    (x >>= f).outcome s = .ok b s'' ↔
      ∃ a s', x.outcome s = .ok a s' ∧ (f a).outcome s' = .ok b s'' := by
  rw [outcome_bind]
  cases x.outcome s with
  | ok a s' => simp [Outcome.bind]
  | refused error s' => simp [Outcome.bind]
  | fault stop => simp [Outcome.bind]

/-- An action in two parts is refused if its first part is, or its second one after that. -/
theorem outcome_bind_eq_refused {x : Action σ α} {f : α → Action σ β} {s s'' : σ}
    {error : Refusal} :
    (x >>= f).outcome s = .refused error s'' ↔
      x.outcome s = .refused error s'' ∨
        ∃ a s', x.outcome s = .ok a s' ∧ (f a).outcome s' = .refused error s'' := by
  rw [outcome_bind]
  cases x.outcome s with
  | ok a s' => simp [Outcome.bind]
  | refused error' s' => simp [Outcome.bind]
  | fault stop => simp [Outcome.bind]

/-- To look at the state ends with a value if what is looked at has one. -/
theorem outcome_inspect_eq_ok {f : σ → Except Failure α} {s s' : σ} {a : α} :
    (inspect f).outcome s = .ok a s' ↔ f s = .ok a ∧ s' = s := by
  rw [outcome_inspect]
  rcases f s with (error | stop) | b <;> simp [Outcome.ofExcept, eq_comm]

/-- It is refused if what is looked at is. -/
theorem outcome_inspect_eq_refused {f : σ → Except Failure α} {s s' : σ} {error : Refusal} :
    (inspect f).outcome s = .refused error s' ↔ f s = .error (.refused error) ∧ s' = s := by
  rw [outcome_inspect]
  rcases f s with (error | stop) | b <;> simp [Outcome.ofExcept, eq_comm]

/-! ## Atomic, still and firm actions -/

/-- Where the action is refused, it has changed nothing. -/
def Atomic (x : Action σ α) : Prop :=
  ∀ s error s', x.outcome s = .refused error s' → s' = s

/-- Where the action has a value, it has changed nothing. -/
def Still (x : Action σ α) : Prop := ∀ s a s', x.outcome s = .ok a s' → s' = s

/-- The action is never refused. -/
def Firm (x : Action σ α) : Prop := ∀ s error s', x.outcome s ≠ .refused error s'

section Rules

variable {x : Action σ α} {f : α → Action σ β}

/-- What is not refused is not refused after a change. -/
theorem Firm.atomic (firm : x.Firm) : x.Atomic := fun s error s' refused =>
  absurd refused (firm s error s')

/-- A part that cannot be refused may follow any change. -/
theorem Atomic.then_firm (atomic : x.Atomic) (firm : ∀ a, (f a).Firm) : (x >>= f).Atomic := by
  intro s error s'' refused
  rcases outcome_bind_eq_refused.mp refused with first | ⟨a, s', -, second⟩
  · exact atomic s error s'' first
  · exact absurd second (firm a s' error s'')

/-- Behind a part that changes nothing, a refusal is as good as before it. -/
theorem Atomic.after_still (atomic : x.Atomic) (still : x.Still) (next : ∀ a, (f a).Atomic) :
    (x >>= f).Atomic := by
  intro s error s'' refused
  rcases outcome_bind_eq_refused.mp refused with first | ⟨a, s', first, second⟩
  · exact atomic s error s'' first
  · exact (next a s' error s'' second).trans (still s a s' first)

/-- Two parts that cannot be refused. -/
theorem Firm.bind (firm : x.Firm) (next : ∀ a, (f a).Firm) : (x >>= f).Firm := by
  intro s error s'' refused
  rcases outcome_bind_eq_refused.mp refused with first | ⟨a, s', -, second⟩
  · exact firm s error s'' first
  · exact next a s' error s'' second

/-- Two parts that change nothing. -/
theorem Still.bind (still : x.Still) (next : ∀ a, (f a).Still) : (x >>= f).Still := by
  intro s b s'' answered
  obtain ⟨a, s', first, second⟩ := outcome_bind_eq_ok.mp answered
  exact (next a s' b s'' second).trans (still s a s' first)

end Rules

/-! ## Parts that actions are made of -/

/-- To end with a value is not to be refused. -/
theorem firm_pure (a : α) : (pure a : Action σ α).Firm := by
  intro s error s' refused
  cases refused

/-- To end with a value changes nothing. -/
theorem still_pure (a : α) : (pure a : Action σ α).Still := by
  intro s b s' answered
  cases answered
  rfl

/-- To write a record is not to be refused. -/
theorem firm_note (record : Record) : (note record : Action σ Unit).Firm := by
  intro s error s' refused
  cases refused

/-- To write a record changes nothing. -/
theorem still_note (record : Record) : (note record : Action σ Unit).Still := by
  intro s b s' answered
  cases answered
  rfl

/-- To look at the state changes nothing. -/
theorem still_inspect (f : σ → Except Failure α) : (inspect f).Still := fun _ _ _ answered =>
  (outcome_inspect_eq_ok.mp answered).2

/-- A refusal because of what the state is changes nothing. -/
theorem atomic_inspect (f : σ → Except Failure α) : (inspect f).Atomic := fun _ _ _ refused =>
  (outcome_inspect_eq_refused.mp refused).2

/-- To look at the state without an opinion on it is not to be refused. -/
theorem firm_inspect {f : σ → Except Failure α}
    (never : ∀ s error, f s ≠ .error (.refused error)) : (inspect f).Firm :=
  fun s error _ refused => never s error (outcome_inspect_eq_refused.mp refused).1

/-- A computation that may only stop does not refuse. -/
theorem lift_ne_refused (x : Except Fault α) (error : Refusal) :
    (liftM x : Except Failure α) ≠ .error (.refused error) := by
  cases x with
  | ok a =>
    intro h
    cases h
  | error stop =>
    intro h
    cases h

/-- A refusal is no longer one once it was made a value. -/
theorem firm_attempt (x : Action σ α) : x.attempt.Firm := by
  intro s error s' refused
  rw [outcome_attempt] at refused
  cases h : x.outcome s <;> rw [h] at refused <;> cases refused

/-- A part that changes nothing either way does not do so either when its refusal is
made a value. -/
theorem still_attempt {x : Action σ α} (still : x.Still) (atomic : x.Atomic) :
    x.attempt.Still := by
  intro s a s' answered
  rw [outcome_attempt] at answered
  cases h : x.outcome s with
  | ok b t =>
    rw [h] at answered
    cases answered
    exact still s b s' h
  | refused error t =>
    rw [h] at answered
    cases answered
    exact atomic s error s' h
  | fault stop =>
    rw [h] at answered
    cases answered

end Action

namespace Allocator

open TaggedHeap.Action

/-! ## Parts of requests -/

/-- A step on the arena may stop, but is not refused. -/
theorem firm_onArena (step : Bool → Arena → Except Fault (α × Arena)) : (onArena step).Firm := by
  intro a error b refused
  rw [outcome_onArena] at refused
  split at refused <;> cases refused

/-- So is one without an answer. -/
theorem firm_editArena (step : Bool → Arena → Except Fault Arena) : (editArena step).Firm :=
  firm_onArena _

/-- The audit at the end of a request may stop it, but not refuse it. -/
theorem firm_verify : verify.Firm := by
  apply firm_inspect
  intro a error refused
  split at refused
  · split at refused <;> cases refused
  · cases refused

/-- A source that refuses to grow has not grown. -/
theorem atomic_grow (n : Nat) : (grow n).Atomic := by
  intro a error b refused
  rw [outcome_grow] at refused
  split at refused
  · cases refused
  · cases refused
    rfl

/-- Whether there was an initialisation is only looked at. -/
theorem still_requireReady : requireReady.Still := still_inspect _

/-- Pointers are only looked at. -/
theorem still_locate (p : Nat) : (locate p).Still := by
  refine (still_attempt (still_inspect _) (atomic_inspect _)).bind fun result => ?_
  cases result with
  | ok block => exact still_pure block
  | error error => exact (still_note _).bind fun _ => still_inspect _

/-- A pointer is rejected as it is looked at. -/
theorem atomic_locate (p : Nat) : (locate p).Atomic := by
  refine (firm_attempt _).atomic.after_still (still_attempt (still_inspect _) (atomic_inspect _))
    fun result => ?_
  cases result with
  | ok block => exact (firm_pure block).atomic
  | error error =>
    exact (firm_note _).atomic.after_still (still_note _) fun _ => atomic_inspect _

/-- By how much to grow is only computed. -/
theorem growthFor_still_atomic (missing : Nat) :
    (growthFor missing).Still ∧ (growthFor missing).Atomic := by
  have still : (Action.read (·.config.chunk) : Action Allocator Nat).Still := by
    intro a n b answered
    cases answered
    rfl
  have firm : (Action.read (·.config.chunk) : Action Allocator Nat).Firm := by
    intro a error b refused
    cases refused
  exact ⟨still.bind fun _ => still_inspect _,
    firm.atomic.after_still still fun _ => atomic_inspect _⟩

/-- **A heap that cannot grow is as it was.** -/
theorem atomic_blockFromGrowth (size : Nat) : (blockFromGrowth size).Atomic := by
  refine (atomic_inspect _).after_still (still_inspect _) fun stop => ?_
  obtain ⟨still, atomic⟩ := growthFor_still_atomic (size - stop.trailingSize)
  refine atomic.after_still still fun growth => ?_
  -- from here on the source has grown, and nothing is refused any more
  refine (atomic_grow growth).then_firm fun old => ?_
  refine (firm_inspect fun a error => lift_ne_refused _ error).bind fun _ => ?_
  exact (firm_note _).bind fun _ => firm_onArena _

/-- A block is not found, and not made, without a change. -/
theorem atomic_takeBlock (size : Nat) : (takeBlock size).Atomic := by
  refine (atomic_inspect _).after_still (still_inspect _) fun found => ?_
  cases found with
  | some block => exact ((firm_editArena _).bind fun _ => firm_pure block).atomic
  | none => exact atomic_blockFromGrowth size

/-- A block is not allocated without a change. -/
theorem atomic_allocateBlock (size : Nat) : (allocateBlock size).Atomic :=
  (atomic_takeBlock size).then_firm fun _ => firm_onArena _

/-- **A block that was not made larger where it is, is as it was,** even where the source was asked
to grow for it. -/
theorem stretch_false {a b : Allocator} {block size : Nat}
    (h : (stretch block size).outcome a = .ok false b) : b = a := by
  obtain ⟨room, a₁, looked, rest⟩ := outcome_bind_eq_ok.mp h
  obtain rfl := still_inspect _ a room a₁ looked
  split at rest
  · obtain ⟨_, _, _, ended⟩ := outcome_bind_eq_ok.mp rest
    cases ended
  obtain ⟨epilogue, a₂, looked', rest'⟩ := outcome_bind_eq_ok.mp rest
  obtain rfl := still_inspect _ a₁ epilogue a₂ looked'
  split at rest'
  · cases rest'
    rfl
  obtain ⟨growth, a₃, computed, tried⟩ := outcome_bind_eq_ok.mp rest'
  obtain rfl := (growthFor_still_atomic _).1 a₂ growth a₃ computed
  obtain ⟨result, a₄, attempted, told⟩ := outcome_bind_eq_ok.mp tried
  cases result with
  | error error =>
    rw [outcome_attempt] at attempted
    cases grown : (grow growth).outcome a₃ with
    | refused error' a₅ =>
      rw [grown] at attempted
      cases attempted
      obtain rfl := atomic_grow growth a₃ error a₄ grown
      cases told
      rfl
    | ok old a₅ =>
      rw [grown] at attempted
      cases attempted
    | fault stop =>
      rw [grown] at attempted
      cases attempted
  | ok old =>
    obtain ⟨_, _, _, edited⟩ := outcome_bind_eq_ok.mp told
    obtain ⟨_, _, _, ended⟩ := outcome_bind_eq_ok.mp edited
    cases ended

/-- A block is not made larger, nor found to be too small, with a refusal after a change. -/
theorem atomic_stretch (block size : Nat) : (stretch block size).Atomic := by
  refine (atomic_inspect _).after_still (still_inspect _) fun room => ?_
  split
  · exact ((firm_editArena _).bind fun _ => firm_pure true).atomic
  refine (atomic_inspect _).after_still (still_inspect _) fun epilogue => ?_
  split
  · exact (firm_pure false).atomic
  obtain ⟨still, atomic⟩ := growthFor_still_atomic (size - room.available)
  refine atomic.after_still still fun growth => ?_
  refine Firm.atomic ((firm_attempt _).bind fun result => ?_)
  cases result with
  | error error => exact (firm_note _).bind fun _ => firm_pure false
  | ok old =>
    exact (firm_note _).bind fun _ => (firm_editArena _).bind fun _ => firm_pure true

/-- A payload is not moved without a change. -/
theorem atomic_move (block old size n : Nat) : (move block old size n).Atomic :=
  (atomic_allocateBlock size).then_firm fun target =>
    (firm_editArena _).bind fun _ => (firm_note _).bind fun _ => firm_pure target

/-- **A block is not resized without a change:** what comes after the attempt to make it larger
where it is finds the heap as it was before that. -/
theorem atomic_resize (block size n : Nat) : (resize block size n).Atomic := by
  refine (atomic_inspect _).after_still (still_inspect _) fun old => ?_
  split
  · exact ((firm_note _).bind fun _ => (firm_editArena _).bind fun _ => firm_pure _).atomic
  intro a error b refused
  rcases outcome_bind_eq_refused.mp refused with first | ⟨grown, a', first, second⟩
  · exact atomic_stretch block size a error b first
  cases grown with
  | true =>
    rw [if_pos rfl] at second
    exact absurd second (((firm_note _).bind fun _ => firm_pure _) a' error b)
  | false =>
    obtain rfl := stretch_false first
    rw [if_neg Bool.false_ne_true] at second
    exact atomic_move block old.size size n a' error b second

/-! ## Requests -/

/-- A payload is not handed out without a change. -/
theorem atomic_alloc (n : Nat) : (alloc n).Atomic := by
  refine (atomic_inspect _).after_still still_requireReady fun _ => ?_
  split
  · exact (firm_pure none).atomic
  refine (atomic_inspect _).after_still (still_inspect _) fun size => ?_
  refine (atomic_allocateBlock size).then_firm fun payload => ?_
  exact (firm_note _).bind fun _ => firm_verify.bind fun _ => firm_pure _

/-- A payload is not taken back without a change. -/
theorem atomic_free (p : Option Nat) : (free p).Atomic := by
  cases p with
  | none => exact (firm_pure ()).atomic
  | some p =>
    refine (atomic_inspect _).after_still still_requireReady fun _ => ?_
    refine (atomic_locate p).then_firm fun block => ?_
    exact (firm_note _).bind fun _ => (firm_editArena _).bind fun _ => firm_verify

/-- Zeros are not handed out without a change. -/
theorem atomic_calloc (n size : Nat) : (calloc n size).Atomic := by
  refine (atomic_inspect _).after_still still_requireReady fun _ => ?_
  split
  on_goal 1 => refine (atomic_inspect _).after_still (still_inspect _) fun _ => ?_
  all_goals
    refine (atomic_alloc _).then_firm fun payload => ?_
    cases payload with
    | none => exact firm_pure none
    | some payload => exact (firm_editArena _).bind fun _ => firm_pure _

/-- A payload is not resized without a change. -/
theorem atomic_realloc (p : Option Nat) (n : Nat) : (realloc p n).Atomic := by
  cases p with
  | none => exact atomic_alloc n
  | some p =>
    unfold realloc
    dsimp only
    split
    · exact (atomic_free _).then_firm fun _ => firm_pure none
    refine (atomic_inspect _).after_still still_requireReady fun _ => ?_
    refine (atomic_locate p).after_still (still_locate p) fun block => ?_
    refine (atomic_inspect _).after_still (still_inspect _) fun size => ?_
    exact (atomic_resize block size n).then_firm fun _ => firm_verify.bind fun _ => firm_pure _

/-- A length is not told without a change. -/
theorem atomic_usable (p : Nat) : (usable p).Atomic := by
  refine (atomic_inspect _).after_still still_requireReady fun _ => ?_
  exact (atomic_locate p).after_still (still_locate p) fun _ => atomic_inspect _

/-- A length is only looked at. -/
theorem still_usable (p : Nat) : (usable p).Still :=
  still_requireReady.bind fun _ => (still_locate p).bind fun _ => still_inspect _

/-- The bytes of a payload are not shown without a change. -/
theorem atomic_payloadLength (p : Nat) : (payloadLength p).Atomic := by
  refine (atomic_usable p).after_still (still_usable p) fun _ => ?_
  exact (atomic_inspect _).after_still (still_inspect _) fun _ => (firm_pure _).atomic

/-- Bytes are not refused to be written after a change. -/
theorem atomic_writePayload (start : Nat) (bytes : ByteArray) (p : Nat) :
    (Command.writePayload start bytes p).Atomic := by
  refine (atomic_payloadLength p).then_firm fun length => ?_
  split
  · exact firm_pure _
  · exact Firm.bind (firm_editArena _ : (writeBytes (p + start) bytes).Firm) fun _ => firm_pure _

/-- **A request that is refused has changed nothing,** unless it was for an empty heap. -/
theorem atomic_perform {r : Request} (later : r ≠ .init) : r.perform.Atomic := by
  cases r with
  | init => exact absurd rfl later
  | alloc n => exact (atomic_alloc n).then_firm fun _ => firm_pure _
  | calloc n size => exact (atomic_calloc n size).then_firm fun _ => firm_pure _
  | realloc p n => exact (atomic_realloc p n).then_firm fun _ => firm_pure _
  | free p => exact (atomic_free p).then_firm fun _ => firm_pure _
  | write p start bytes => exact atomic_writePayload start bytes p

end Allocator

open Allocator

/-- **Whatever state an allocator is in, a request that it refuses leaves it as it was:** every
byte, the size, the heads of the lists, the start set, the settings, and whether
it is initialised. -/
theorem refusals_atomic :
    (∀ n, (alloc n).Atomic) ∧ (∀ n size, (calloc n size).Atomic) ∧
      (∀ p n, (realloc p n).Atomic) ∧ (∀ p, (free p).Atomic) ∧ (∀ p, (usable p).Atomic) ∧
      ∀ p, (payloadLength p).Atomic :=
  ⟨atomic_alloc, atomic_calloc, atomic_realloc, atomic_free, atomic_usable, atomic_payloadLength⟩

/-- A block at the end of a full heap can neither be made larger where it is nor be moved: the
source is asked for 80 bytes, then for 112, and after both refusals the heap is as it was. -/
theorem refusals_atomic_of_full_heap :
    ∃ a b, Reaches (.create (.buffer 80) { chunk := 0 }) [(.alloc 1, .ok (.payload (some 16)))] a ∧
      (realloc (some 16) 100).outcome a = .refused (.outOfMemory 112) b ∧ b = a := by
  have started : Reaches (.create (.buffer 80) { chunk := 0 }) [] _ := .start rfl
  have run : Reaches _ [(.alloc 1, .ok (.payload (some 16)))] _ := started.next rfl
  obtain ⟨-, -, realloc_atomic, -⟩ := refusals_atomic
  exact ⟨_, _, run, rfl, realloc_atomic (some 16) 100 _ (.outOfMemory 112) _ rfl⟩

end TaggedHeap
