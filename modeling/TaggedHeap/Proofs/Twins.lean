import TaggedHeap.Proofs.Atomicity
import TaggedHeap.Proofs.Backing

/-!
# Allocators over sources of different kinds

Two allocators are `Twins` if they are alike in all but the kinds of their sources: one has a
reservation, the other one a buffer with the same cap.  Nothing that an allocator does asks for the
kind, so twins answer alike and stay twins.

There is one thing that a buffer can do and a reservation cannot: find no room for a growth that its
cap would allow.  Where an allocator grows its heap, its log says by how much.  So what is shown
here is about runs whose logs are `Record.Spared`: the growths in them are some that a buffer has
room for.

* `Action.AlikeFrom` says that an action does the same from two related states, if its log is fine,
  and `Action.Blind` that it does from all of them.  `AlikeFrom.bind` and its like say how this goes
  through the ways to make actions.
* `alike_grow` is the one place where kinds matter.  Around it, `same_blockFromGrowth` and
  `same_stretch` look ahead in the log to know that there is room.
* All else that an allocator does is put together from these.
-/

namespace TaggedHeap

variable {σ τ α β : Type}

/-! ## Reports that are alike -/

/-- Two outcomes are the same but for their states, and these are related. -/
inductive Outcome.Alike (related : σ → σ → Prop) : Outcome σ α → Outcome σ α → Prop
  /-- Both have the same value. -/
  | ok (a : α) {s t : σ} (states : related s t) : Alike related (.ok a s) (.ok a t)
  /-- Both are the same refusal. -/
  | refused (error : Refusal) {s t : σ} (states : related s t) :
      Alike related (.refused error s) (.refused error t)
  /-- Both are the same fault. -/
  | fault (stop : Fault) : Alike related (.fault stop) (.fault stop)

/-- Two reports have the same log, and outcomes that are alike. -/
structure Report.Alike (related : σ → σ → Prop) (r r' : Report σ α) : Prop where
  /-- The logs are the same. -/
  log : r'.log = r.log
  /-- The outcomes are alike. -/
  outcome : r.outcome.Alike related r'.outcome

/-- Two pairs have the same first half, and second halves that are related. -/
def OnSecond (related : σ → σ → Prop) (p q : τ × σ) : Prop := p.1 = q.1 ∧ related p.2 q.2

namespace Action

/-! ## Actions in two parts -/

section Run

variable {x : Action σ α} {f : α → Action σ β} {s s' : σ} {log : List Record}

/-- Behind a value, the second part goes on with it. -/
theorem run_bind_ok {a : α} (first : x.run s = ⟨log, .ok a s'⟩) :
    (x >>= f).run s = ⟨log ++ ((f a).run s').log, ((f a).run s').outcome⟩ := by
  change x s = _ at first
  simp only [run, Bind.bind, Action.bind, first]

/-- Behind a refusal there is no second part. -/
theorem run_bind_refused {error : Refusal} (first : x.run s = ⟨log, .refused error s'⟩) :
    (x >>= f).run s = ⟨log, .refused error s'⟩ := by
  change x s = _ at first
  simp only [run, Bind.bind, Action.bind, first]

/-- Nor is there one behind a fault. -/
theorem run_bind_fault {stop : Fault} (first : x.run s = ⟨log, .fault stop⟩) :
    (x >>= f).run s = ⟨log, .fault stop⟩ := by
  change x s = _ at first
  simp only [run, Bind.bind, Action.bind, first]

/-- What the first part logs is logged. -/
theorem log_subset_bind (x : Action σ α) (f : α → Action σ β) (s : σ) :
    (x.run s).log ⊆ ((x >>= f).run s).log := by
  rcases first : x.run s with ⟨log, a | error | stop⟩
  · rw [run_bind_ok first]
    exact List.subset_append_left ..
  · rw [run_bind_refused first]
    exact List.Subset.refl _
  · rw [run_bind_fault first]
    exact List.Subset.refl _

/-- What the second part logs is logged. -/
theorem log_behind {a : α} {r : Record} (first : x.run s = ⟨log, .ok a s'⟩)
    (logged : r ∈ ((f a).run s').log) : r ∈ ((x >>= f).run s).log := by
  rw [run_bind_ok first]
  exact List.mem_append_right _ logged

/-- What is logged behind a look at the state is logged. -/
theorem log_behind_inspect {g : σ → Except Failure α} {a : α} {r : Record} (looked : g s = .ok a)
    (logged : r ∈ ((f a).run s).log) : r ∈ ((inspect g >>= f).run s).log := by
  refine log_behind (?_ : (inspect g).run s = ⟨[], .ok a s⟩) logged
  simp only [run, inspect, looked, Outcome.ofExcept]

end Run

/-! ## Actions that do the same from related states -/

/-- From two states, an action does the same, if what it logs from the first one is fine. -/
def AlikeFrom (related : σ → σ → Prop) (fine : Record → Prop) (x : Action σ α) (s t : σ) : Prop :=
  (∀ r ∈ (x.run s).log, fine r) → (x.run s).Alike related (x.run t)

/-- An action does the same from any two states that are related. -/
def Blind (related : σ → σ → Prop) (fine : Record → Prop) (x : Action σ α) : Prop :=
  ∀ s t, related s t → x.AlikeFrom related fine s t

section Rules

variable {related : σ → σ → Prop} {fine : Record → Prop} {x : Action σ α} {f : α → Action σ β}
  {s t : σ}

/-- Two parts do the same if each does, where the second one may use how the first one ended. -/
theorem AlikeFrom.bind (first : x.AlikeFrom related fine s t)
    (next : ∀ a s' t', x.outcome s = .ok a s' → related s' t' →
      (f a).AlikeFrom related fine s' t') :
    (x >>= f).AlikeFrom related fine s t := by
  intro logged
  have alike := first fun r hr => logged r (log_subset_bind x f s hr)
  rcases ran : x.run s with ⟨log, end₁⟩
  rcases ran' : x.run t with ⟨log', end₂⟩
  rw [ran, ran'] at alike
  obtain ⟨rfl, ends⟩ := alike
  cases ends with
  | ok a states =>
    rw [run_bind_ok ran] at logged ⊢
    rw [run_bind_ok ran']
    have second := next a _ _ (by rw [outcome, ran]) states
      fun r hr => logged r (List.mem_append_right _ hr)
    exact ⟨congrArg (_ ++ ·) second.log, second.outcome⟩
  | refused error states =>
    rw [run_bind_refused ran, run_bind_refused ran']
    exact ⟨rfl, .refused error states⟩
  | fault stop =>
    rw [run_bind_fault ran, run_bind_fault ran']
    exact ⟨rfl, .fault stop⟩

/-- Two parts that do the same from all related states. -/
theorem Blind.bind (first : x.Blind related fine) (next : ∀ a, (f a).Blind related fine) :
    (x >>= f).Blind related fine := fun s t states =>
  (first s t states).bind fun a s' t' _ states' => next a s' t' states'

theorem blind_pure (a : α) : (pure a : Action σ α).Blind related fine := fun _ _ states _ =>
  ⟨rfl, .ok a states⟩

theorem blind_note (record : Record) : (note record : Action σ Unit).Blind related fine :=
  fun _ _ states _ => ⟨rfl, .ok () states⟩

/-- To look at what is the same in related states. -/
theorem blind_inspect {f : σ → Except Failure α} (same : ∀ s t, related s t → f t = f s) :
    (inspect f).Blind related fine := by
  intro s t states _
  refine ⟨rfl, ?_⟩
  change (Outcome.ofExcept s (f s)).Alike related (Outcome.ofExcept t (f t))
  rw [same s t states]
  rcases f s with (error | stop) | a
  · exact .refused error states
  · exact .fault stop
  · exact .ok a states

theorem blind_ofExcept (x : Except Failure α) : (ofExcept x : Action σ α).Blind related fine :=
  blind_inspect fun _ _ _ => rfl

theorem blind_read {f : σ → α} (same : ∀ s t, related s t → f t = f s) :
    (read f).Blind related fine := by
  intro s t states _
  refine ⟨rfl, ?_⟩
  change (Outcome.ok (f s) s).Alike related (Outcome.ok (f t) t)
  rw [same s t states]
  exact .ok _ states

theorem blind_modify {f : σ → σ} (keeps : ∀ s t, related s t → related (f s) (f t)) :
    (modify f).Blind related fine := fun s t states _ => ⟨rfl, .ok () (keeps s t states)⟩

/-- An action that logs what another one does, and whose end only depends on the end of that. -/
theorem AlikeFrom.of_ends {σ' : Type} {related' : σ' → σ' → Prop} {y : Action σ' β} {s' t' : σ'}
    (alike : x.AlikeFrom related fine s t) (logs : (y.run s').log = (x.run s).log)
    (logs' : (y.run t').log = (x.run t).log)
    (ends : (x.outcome s).Alike related (x.outcome t) →
      (y.outcome s').Alike related' (y.outcome t')) :
    y.AlikeFrom related' fine s' t' := by
  intro logged
  rw [logs] at logged
  have both := alike logged
  exact ⟨by rw [logs, logs', both.log], ends both.outcome⟩

/-- A change of the state by a computation that may stop. -/
theorem blind_update {f : σ → Except Fault (α × σ)}
    (ends : ∀ s t, related s t → ((update f).outcome s).Alike related ((update f).outcome t)) :
    (update f).Blind related fine := by
  have logs : ∀ s, ((update f).run s).log = [] := by
    intro s
    simp only [run, update]
    split <;> rfl
  exact fun s t states _ => ⟨(logs t).trans (logs s).symm, ends s t states⟩

/-- A refusal that is made a value is the same value. -/
theorem AlikeFrom.attempt (alike : x.AlikeFrom related fine s t) :
    x.attempt.AlikeFrom related fine s t := by
  have logs : ∀ s, (x.attempt.run s).log = (x.run s).log := by
    intro s
    simp only [run, Action.attempt]
    rcases x s with ⟨log, _ | _ | _⟩ <;> rfl
  refine alike.of_ends (logs s) (logs t) fun ends => ?_
  rw [outcome_attempt, outcome_attempt]
  generalize x.outcome s = o, x.outcome t = o' at ends ⊢
  cases ends with
  | ok a states => exact .ok _ states
  | refused error states => exact .ok _ states
  | fault stop => exact .fault stop

theorem Blind.attempt (blind : x.Blind related fine) : x.attempt.Blind related fine :=
  fun s t states => (blind s t states).attempt

/-- A refusal that is made a fault is the same fault. -/
theorem Blind.orStop (blind : x.Blind related fine) (fault : Refusal → Fault) :
    (x.orStop fault).Blind related fine := by
  have logs : ∀ s, ((x.orStop fault).run s).log = (x.run s).log := by
    intro s
    simp only [run, Action.orStop]
    rcases x s with ⟨log, _ | _ | _⟩ <;> rfl
  intro s t states
  refine (blind s t states).of_ends (logs s) (logs t) fun ends => ?_
  rw [outcome_orStop, outcome_orStop]
  generalize x.outcome s = o, x.outcome t = o' at ends ⊢
  cases ends with
  | ok a states => exact .ok a states
  | refused error states => exact .fault _
  | fault stop => exact .fault stop

/-- An action on the second half of a pair. -/
theorem AlikeFrom.onSecond (alike : x.AlikeFrom related fine s t) (u : τ) :
    x.onSecond.AlikeFrom (OnSecond related) fine (u, s) (u, t) := by
  have logs : ∀ s, (x.onSecond.run (u, s)).log = (x.run s).log := by
    intro s
    simp only [run, Action.onSecond]
    rcases x s with ⟨log, _ | _ | _⟩ <;> rfl
  refine alike.of_ends (logs s) (logs t) fun ends => ?_
  rw [outcome_onSecond, outcome_onSecond]
  generalize x.outcome s = o, x.outcome t = o' at ends ⊢
  cases ends with
  | ok a states => exact .ok a ⟨rfl, states⟩
  | refused error states => exact .refused error ⟨rfl, states⟩
  | fault stop => exact .fault stop

theorem Blind.onSecond (blind : x.Blind related fine) :
    (x.onSecond : Action (τ × σ) α).Blind (OnSecond related) fine := by
  rintro ⟨u, s⟩ ⟨_, t⟩ ⟨rfl, states⟩
  exact (blind s t states).onSecond u

/-- An action on a pair whose first half is given. -/
theorem Blind.withFirst {x : Action (τ × σ) α} (blind : x.Blind (OnSecond related) fine) (u : τ) :
    (x.withFirst u).Blind related fine := by
  have logs : ∀ s, ((x.withFirst u).run s).log = (x.run (u, s)).log := by
    intro s
    simp only [run, Action.withFirst]
    rcases x (u, s) with ⟨log, _ | _ | _⟩ <;> rfl
  intro s t states
  refine (blind (u, s) (u, t) ⟨rfl, states⟩).of_ends (logs s) (logs t) fun ends => ?_
  rw [outcome_withFirst, outcome_withFirst]
  generalize x.outcome (u, s) = o, x.outcome (u, t) = o' at ends ⊢
  cases ends with
  | ok a states => exact .ok a states.2
  | refused error states => exact .refused error states.2
  | fault stop => exact .fault stop

end Rules

end Action

/-! ## Twins -/

/-- By how much the heap grew, where a record says that it did. -/
def Record.growth? : Record → Option Nat
  | grew n _ | grewAt n _ => some n
  | _ => none

/-- A buffer with the given cap finds room for what a record says the heap grew by. -/
def Record.Spared (cap : Nat) (record : Record) : Prop := Source.Spares cap record.growth?.toList

namespace Source

variable {s : Source} {n : Nat}

/-- The source as a buffer. -/
def toBuffer (s : Source) : Source := { s with kind := .buffer }

/-- What is accepted is not above the cap. -/
theorem le_cap_of_accepts (accepted : s.accepts n = true) : n ≤ s.cap := by
  simp only [accepts, Bool.and_eq_true, decide_eq_true_eq] at accepted
  omega

/-- A buffer that has room accepts what a reservation does. -/
theorem accepts_toBuffer (kind : s.kind = .reservation)
    (room : s.accepts n = true → n < bufferRoom) : s.toBuffer.accepts n = s.accepts n := by
  simp only [toBuffer, accepts, hasRoom, kind] at room ⊢
  grind

/-- A source that can still grow tells its size as it is. -/
theorem truthful_of_accepts (drift : s.drift = 0) (accepted : s.accepts n = true) : s.Truthful := by
  simp only [accepts, Bool.and_eq_true, decide_eq_true_eq] at accepted
  exact truthful_of_lt drift (by omega)

end Source

namespace Allocator

/-- The allocator with a buffer in the place of its source. -/
def withBuffer (a : Allocator) : Allocator := { a with source := a.source.toBuffer }

/-- Two allocators are alike in all but that one has a reservation and the other one a buffer.  Both
sources have the same cap, and tell their sizes as they are. -/
structure Twins (cap : Nat) (a b : Allocator) : Prop where
  /-- The one has a reservation. -/
  reservation : a.source.kind = .reservation
  /-- Its cap is the given one. -/
  cap : a.source.cap = cap
  /-- It tells its size as it is. -/
  drift : a.source.drift = 0
  /-- The other one has a buffer. -/
  buffer : b = a.withBuffer

open TaggedHeap.Action

variable {cap n : Nat} {a b : Allocator}

/-- What an allocator does is the same for a buffer, in runs whose logs are spared. -/
abbrev Same (cap : Nat) (x : Action Allocator α) : Prop := x.Blind (Twins cap) (Record.Spared cap)

/-- To look at what does not depend on the kind of the source. -/
theorem same_inspect {f : Allocator → Except Failure α} (same : ∀ a, f a.withBuffer = f a) :
    Same cap (.inspect f) := by
  refine blind_inspect ?_
  rintro a _ ⟨-, -, -, rfl⟩
  exact same a

/-- To read what does not depend on the kind of the source. -/
theorem same_read {f : Allocator → α} (same : ∀ a, f a.withBuffer = f a) :
    Same cap (.read f) := by
  refine blind_read ?_
  rintro a _ ⟨-, -, -, rfl⟩
  exact same a

/-- To change what does not depend on the kind of the source, and not the source itself. -/
theorem same_modify {f : Allocator → Allocator} (source : ∀ a, (f a).source = a.source)
    (same : ∀ a, f a.withBuffer = (f a).withBuffer) : Same cap (.modify f) := by
  refine blind_modify ?_
  rintro a _ ⟨kind, caps, drift, rfl⟩
  exact ⟨source a ▸ kind, source a ▸ caps, source a ▸ drift, same a⟩

/-- A step on the arena. -/
theorem same_onArena (step : Bool → Arena → Except Fault (α × Arena)) :
    Same cap (onArena step) := by
  refine blind_update ?_
  rintro a _ ⟨kind, caps, drift, rfl⟩
  change ((onArena step).outcome a).Alike _ ((onArena step).outcome a.withBuffer)
  rcases ran : step a.hardened a.arena with stop | ⟨value, arena⟩
  · have ran' : step a.withBuffer.hardened a.withBuffer.arena = .error stop := ran
    simp only [outcome_onArena, ran, ran']
    exact .fault stop
  · have ran' : step a.withBuffer.hardened a.withBuffer.arena = .ok (value, arena) := ran
    simp only [outcome_onArena, ran, ran']
    exact .ok value ⟨kind, caps, drift, rfl⟩

/-- A step on the arena without an answer. -/
theorem same_editArena (step : Bool → Arena → Except Fault Arena) : Same cap (editArena step) :=
  same_onArena _

/-- The bytes of the heap are changed. -/
theorem same_editMemory (step : Memory → Except Fault Memory) : Same cap (editMemory step) :=
  same_editArena _

/-! ## Growing -/

/-- **Twins grow alike,** where the buffer has room. -/
theorem alike_grow {fine : Record → Prop} (twins : Twins cap a b)
    (room : a.source.accepts n = true → n < bufferRoom) :
    (grow n).AlikeFrom (Twins cap) fine a b := by
  obtain ⟨kind, caps, drift, rfl⟩ := twins
  have logs : ∀ a, ((grow n).run a).log = [] := by
    intro a
    simp only [run, grow]
    split <;> rfl
  refine fun _ => ⟨(logs _).trans (logs _).symm, ?_⟩
  change ((grow n).outcome a).Alike _ ((grow n).outcome a.withBuffer)
  rw [outcome_grow, outcome_grow]
  change Outcome.Alike _ _ (if a.source.toBuffer.accepts n then
    .ok a.memory.size { a with source := a.source.toBuffer.extend n }
    else .refused (.outOfMemory n) a.withBuffer)
  rw [Source.accepts_toBuffer kind room]
  split
  · exact .ok _ ⟨kind, caps, drift, rfl⟩
  · exact .refused _ ⟨kind, caps, drift, rfl⟩

/-- There is room for a growth that is logged. -/
theorem alike_of_logged {x : Action Allocator α} (twins : Twins cap a b)
    (logged : a.source.accepts n = true → ∃ r ∈ (x.run a).log, r.growth? = some n)
    (alike : (a.source.accepts n = true → n < bufferRoom) →
      x.AlikeFrom (Twins cap) (Record.Spared cap) a b) :
    x.AlikeFrom (Twins cap) (Record.Spared cap) a b := by
  intro spared
  refine alike (fun accepted => ?_) spared
  obtain ⟨r, hr, growth⟩ := logged accepted
  exact spared r hr n (by rw [growth]; exact List.mem_singleton_self n)
    (twins.cap ▸ Source.le_cap_of_accepts accepted)

/-- The end of a heap is found one word before its size. -/
theorem epilogue_of_heapEnd {hardened : Bool} {m : Memory} {size : Nat} {stop : Arena.HeapEnd}
    (found : Arena.heapEnd hardened m size = .ok stop) : stop.epilogue + wordSize = size := by
  rw [Arena.heapEnd, bind_eq_ok_iff] at found
  obtain ⟨epilogue, start, rest⟩ := found
  have here : epilogue + wordSize = size := by
    unfold subWord at start
    split at start
    · cases start
      exact Nat.sub_add_cancel ‹_›
    · cases start
  rw [bind_eq_ok_iff] at rest
  obtain ⟨h, -, rest⟩ := rest
  split at rest
  · cases rest
    exact here
  · simp only [bind_eq_ok_iff] at rest
    obtain ⟨_, -, _, -, rest⟩ := rest
    cases rest
    exact here

theorem same_growthFor (missing : Nat) : Same cap (growthFor missing) :=
  (same_read fun _ => rfl).bind fun _ => blind_ofExcept _

/-- A source that accepts a growth grows. -/
theorem run_grow_of_accepts (accepted : a.source.accepts n = true) :
    (grow n).run a = ⟨[], .ok a.memory.size { a with source := a.source.extend n }⟩ := by
  simp only [run, grow, Source.grow, accepted, if_true]
  rfl

/-- A block is made by growing the heap.  Between the growth and its record, a hardened heap looks
whether the growth starts where the heap ended. -/
theorem same_blockFromGrowth (size : Nat) : Same cap (blockFromGrowth size) := by
  intro a b twins
  refine AlikeFrom.bind (same_inspect (fun _ => rfl) a b twins) fun stop a₁ b₁ looked twins₁ => ?_
  obtain ⟨found, rfl⟩ := outcome_inspect_eq_ok.mp looked
  refine AlikeFrom.bind (same_growthFor _ _ b₁ twins₁) fun growth a₂ b₂ grown twins₂ => ?_
  obtain rfl := (growthFor_still_atomic _).1 _ _ _ grown
  refine alike_of_logged (n := growth) twins₂ (fun accepted => ?_) fun room => ?_
  · have same : a₂.memory.size = stop.epilogue + wordSize := by
      rw [epilogue_of_heapEnd (lift_eq_ok_iff.mp found)]
      exact ((Nat.zero_add _).trans (Source.truthful_of_accepts twins₂.drift accepted)).symm
    refine ⟨.grew growth (a₂.memory.size + growth),
      log_behind (run_grow_of_accepts accepted) (log_behind_inspect (a := ()) ?_ ?_), rfl⟩
    · rw [same, beq_self_eq_true, Bool.or_true]
      rfl
    · exact log_subset_bind _ _ _ List.mem_cons_self
  · refine (alike_grow twins₂ room).bind fun old a' b' _ twins' => ?_
    refine AlikeFrom.bind (same_inspect (fun _ => rfl) a' b' twins') fun _ a'' b'' _ twins'' => ?_
    exact ((blind_note _).bind fun _ => same_onArena _) a'' b'' twins''

/-- A block is made larger where it is, or it turns out that it cannot be. -/
theorem same_stretch (block size : Nat) : Same cap (stretch block size) := by
  refine (same_inspect fun _ => rfl).bind fun room => ?_
  split
  · exact (same_editArena _).bind fun _ => blind_pure _
  refine (same_inspect fun _ => rfl).bind fun epilogue => ?_
  split
  · exact blind_pure _
  refine (same_growthFor _).bind fun growth => ?_
  intro a b twins
  refine alike_of_logged (n := growth) twins (fun accepted => ?_) fun spare => ?_
  · have grown : ((grow growth).attempt).run a
        = ⟨[], .ok (.ok a.memory.size) { a with source := a.source.extend growth }⟩ := by
      have ran := run_grow_of_accepts accepted
      simp only [run] at ran
      simp only [run, attempt, ran]
    exact ⟨.grewAt growth block, log_behind grown (log_subset_bind _ _ _ List.mem_cons_self), rfl⟩
  · refine (alike_grow twins spare).attempt.bind fun result a' b' _ twins' => ?_
    cases result with
    | ok old =>
      exact ((blind_note _).bind fun _ => (same_editArena _).bind fun _ => blind_pure _)
        a' b' twins'
    | error error => exact ((blind_note _).bind fun _ => blind_pure _) a' b' twins'

/-! ## Requests -/

theorem same_requireReady : Same cap requireReady := same_inspect fun _ => rfl

theorem same_verify : Same cap verify := same_inspect fun _ => rfl

theorem same_check : Same cap check := same_inspect fun _ => rfl

/-- The block of a payload is found, or the payload is rejected. -/
theorem same_locate (p : Nat) : Same cap (locate p) := by
  refine (same_inspect fun _ => rfl).attempt.bind fun result => ?_
  cases result with
  | ok block => exact blind_pure _
  | error error => exact (blind_note _).bind fun _ => blind_ofExcept _

theorem same_usable (p : Nat) : Same cap (usable p) :=
  same_requireReady.bind fun _ => (same_locate p).bind fun _ => same_inspect fun _ => rfl

theorem same_takeBlock (size : Nat) : Same cap (takeBlock size) := by
  refine (same_inspect fun _ => rfl).bind fun found => ?_
  cases found with
  | some block => exact (same_editArena _).bind fun _ => blind_pure _
  | none => exact same_blockFromGrowth size

theorem same_allocateBlock (size : Nat) : Same cap (allocateBlock size) :=
  (same_takeBlock size).bind fun _ => same_onArena _

theorem same_alloc (n : Nat) : Same cap (alloc n) := by
  refine same_requireReady.bind fun _ => ?_
  split
  · exact blind_pure _
  refine (blind_ofExcept _).bind fun size => ?_
  refine (same_allocateBlock size).bind fun payload => ?_
  exact (blind_note _).bind fun _ => same_verify.bind fun _ => blind_pure _

theorem same_free (p : Option Nat) : Same cap (free p) := by
  cases p with
  | none => exact blind_pure _
  | some p =>
    refine same_requireReady.bind fun _ => ?_
    refine (same_locate p).bind fun block => ?_
    exact (blind_note _).bind fun _ => (same_editArena _).bind fun _ => same_verify

theorem same_calloc (n size : Nat) : Same cap (calloc n size) := by
  refine same_requireReady.bind fun _ => ?_
  split
  on_goal 1 => refine (blind_ofExcept _).bind fun _ => ?_
  all_goals
    refine (same_alloc _).bind fun payload => ?_
    cases payload with
    | none => exact blind_pure _
    | some payload => exact (same_editMemory _).bind fun _ => blind_pure _

theorem same_move (block old size n : Nat) : Same cap (move block old size n) := by
  refine (same_allocateBlock size).bind fun target => ?_
  exact (same_editArena _).bind fun _ => (blind_note _).bind fun _ => blind_pure _

theorem same_resize (block size n : Nat) : Same cap (resize block size n) := by
  refine (same_inspect fun _ => rfl).bind fun old => ?_
  split
  · exact (blind_note _).bind fun _ => (same_editArena _).bind fun _ => blind_pure _
  refine (same_stretch block size).bind fun grown => ?_
  split
  · exact (blind_note _).bind fun _ => blind_pure _
  · exact same_move block old.size size n

theorem same_realloc (p : Option Nat) (n : Nat) : Same cap (realloc p n) := by
  cases p with
  | none => exact same_alloc n
  | some p =>
    unfold realloc
    dsimp only
    split
    · exact (same_free _).bind fun _ => blind_pure _
    refine same_requireReady.bind fun _ => ?_
    refine (same_locate p).bind fun block => ?_
    refine (blind_ofExcept _).bind fun size => ?_
    exact (same_resize block size n).bind fun _ => same_verify.bind fun _ => blind_pure _

theorem same_payloadLength (p : Nat) : Same cap (payloadLength p) :=
  (same_usable p).bind fun _ => (same_inspect fun _ => rfl).bind fun _ => blind_pure _

theorem same_requireFilled (p : Nat) (b : UInt8) (count : Nat) (stop : Fault) :
    Same cap (requireFilled p b count stop) :=
  (same_payloadLength p).bind fun _ => same_inspect fun _ => rfl

/-! ## Initialisation -/

/-- Setting up a heap asks for less than two blocks. -/
theorem setUpSize_le {size whole : Nat} (h : setUpSize size = .ok whole) : whole ≤ size + 48 := by
  rw [setUpSize, bind_eq_ok_iff] at h
  obtain ⟨units, rounded, h⟩ := h
  have near : units < size + 16 := lt_of_wholeUnits rounded
  dsimp only at h
  split at h <;> cases h <;> simp only [heapOverhead, minBlockSize] at * <;> omega

/-- A heap is set up. -/
theorem same_init : Same cap init := by
  have laidOut : ∀ size, Same cap (layOut size) := fun size =>
    (same_onArena _).bind fun _ => (same_modify (f := markReady) (fun _ => rfl) fun _ => rfl).bind
      fun _ => (blind_note _).bind fun _ => same_verify
  refine (same_modify (f := reset) (fun _ => rfl) fun _ => rfl).bind fun _ => ?_
  refine (same_read fun _ => rfl).bind fun old => ?_
  intro a b twins
  refine AlikeFrom.bind (blind_ofExcept _ a b twins) fun size a₁ b₁ rounded twins₁ => ?_
  have near : size ≤ old + 48 := by
    obtain ⟨found, -⟩ := outcome_inspect_eq_ok.mp rounded
    cases h : setUpSize old with
    | ok whole =>
      rw [h] at found
      cases found
      exact setUpSize_le h
    | error error =>
      rw [h] at found
      cases found
  split
  · refine AlikeFrom.bind (alike_grow twins₁ fun _ => ?_) fun _ a₂ b₂ _ twins₂ =>
      laidOut size a₂ b₂ twins₂
    simp only [bufferRoom]
    omega
  · exact laidOut size a₁ b₁ twins₁

end Allocator

end TaggedHeap
