import TaggedHeap.Record

/-!
# Actions and what they leave behind

An action reads a state and ends in one of three ways: with a value, with a refusal, or with a
fault.  The first two leave a state; after a fault nothing is promised any more, so there is none.
On its way an action may write records to a log, and those it wrote before a fault are still there.

Most statements about actions do not care for the log.  They are about `Action.outcome`, and for
each way to make an action there is a lemma that says what its outcome is; `outcome_bind` is the one
for actions that follow each other.
-/

namespace TaggedHeap

/-- How an action ends. -/
inductive Outcome (σ α : Type) where
  /-- With a value. -/
  | ok (value : α) (state : σ)
  /-- Refused. -/
  | refused (error : Refusal) (state : σ)
  /-- Stopped on its way. -/
  | fault (fault : Fault)

/-- Goes on from an end, if that is a value. -/
def Outcome.bind {σ α β : Type} (outcome : Outcome σ α) (f : α → σ → Outcome σ β) : Outcome σ β :=
  match outcome with
  | .ok a s => f a s
  | .refused error s => .refused error s
  | .fault stop => .fault stop

/-- The end that a failure from a state means. -/
def Outcome.ofExcept {σ α : Type} (s : σ) : Except Failure α → Outcome σ α
  | .ok a => .ok a s
  | .error (.refused error) => .refused error s
  | .error (.stopped stop) => .fault stop

/-- How an action ends and what it logged. -/
structure Report (σ α : Type) where
  /-- The records, in order. -/
  log : List Record
  /-- The end. -/
  outcome : Outcome σ α

/-- An action on states of type `σ` with values of type `α`. -/
def Action (σ α : Type) : Type := σ → Report σ α

namespace Action

variable {σ τ α β : Type}

/-- Runs an action from a state. -/
def run (x : Action σ α) (s : σ) : Report σ α := x s

/-- How an action ends from a state. -/
def outcome (x : Action σ α) (s : σ) : Outcome σ α := (x.run s).outcome

/-- Ends with a value at once. -/
protected def pure (a : α) : Action σ α := fun s => ⟨[], .ok a s⟩

/-- Goes on with the value of an action, if it has one. -/
protected def bind (x : Action σ α) (f : α → Action σ β) : Action σ β := fun s =>
  match x s with
  | ⟨log, .ok a s⟩ =>
    let ⟨log', outcome⟩ := f a s
    ⟨log ++ log', outcome⟩
  | ⟨log, .refused error s⟩ => ⟨log, .refused error s⟩
  | ⟨log, .fault fault⟩ => ⟨log, .fault fault⟩

instance : Monad (Action σ) where
  pure := Action.pure
  bind := Action.bind

/-- Writes a record. -/
def note (record : Record) : Action σ Unit := fun s => ⟨[record], .ok () s⟩

/-- Computes something from the state, which stays as it is. -/
def inspect (f : σ → Except Failure α) : Action σ α := fun s => ⟨[], .ofExcept s (f s)⟩

/-- Ends with what a computation that does not look at the state ends with. -/
def ofExcept (x : Except Failure α) : Action σ α := inspect fun _ => x

instance : MonadLift (Except Failure) (Action σ) where
  monadLift := ofExcept

/-- Refuses. -/
def refuse (error : Refusal) : Action σ α := ofExcept (.error (.refused error))

/-- Reads a part of the state. -/
def read (f : σ → α) : Action σ α := fun s => ⟨[], .ok (f s) s⟩

/-- Changes the state. -/
def modify (f : σ → σ) : Action σ Unit := fun s => ⟨[], .ok () (f s)⟩

/-- Changes the state by a computation that cannot be refused, but may stop. -/
def update (f : σ → Except Fault (α × σ)) : Action σ α := fun s =>
  match f s with
  | .ok (a, s) => ⟨[], .ok a s⟩
  | .error fault => ⟨[], .fault fault⟩

/-- Makes a refusal the value of an action. -/
def attempt (x : Action σ α) : Action σ (Except Refusal α) := fun s =>
  match x s with
  | ⟨log, .ok a s⟩ => ⟨log, .ok (.ok a) s⟩
  | ⟨log, .refused error s⟩ => ⟨log, .ok (.error error) s⟩
  | ⟨log, .fault fault⟩ => ⟨log, .fault fault⟩

/-- Makes a refusal a fault. -/
def orStop (x : Action σ α) (fault : Refusal → Fault) : Action σ α := fun s =>
  match x s with
  | ⟨log, .refused error _⟩ => ⟨log, .fault (fault error)⟩
  | report => report

/-- An action on a pair, as one on its second half only: the first is given, and dropped at the
end. -/
def withFirst (x : Action (τ × σ) α) (t : τ) : Action σ α := fun s =>
  match x (t, s) with
  | ⟨log, .ok a (_, s)⟩ => ⟨log, .ok a s⟩
  | ⟨log, .refused error (_, s)⟩ => ⟨log, .refused error s⟩
  | ⟨log, .fault fault⟩ => ⟨log, .fault fault⟩

/-- An action on the second half of a pair. -/
def onSecond (x : Action σ α) : Action (τ × σ) α := fun (t, s) =>
  match x s with
  | ⟨log, .ok a s⟩ => ⟨log, .ok a (t, s)⟩
  | ⟨log, .refused error s⟩ => ⟨log, .refused error (t, s)⟩
  | ⟨log, .fault fault⟩ => ⟨log, .fault fault⟩

/-! ## Outcomes -/

@[simp] theorem outcome_pure (a : α) (s : σ) : (pure a : Action σ α).outcome s = .ok a s := rfl

@[simp] theorem outcome_bind (x : Action σ α) (f : α → Action σ β) (s : σ) :
    (x >>= f).outcome s = (x.outcome s).bind fun a s => (f a).outcome s := by
  simp only [outcome, run, Bind.bind, Action.bind]
  rcases x s with ⟨log, _ | _ | _⟩ <;> rfl

@[simp] theorem outcome_note (record : Record) (s : σ) : (note record).outcome s = .ok () s := rfl

@[simp] theorem outcome_inspect (f : σ → Except Failure α) (s : σ) :
    (inspect f).outcome s = .ofExcept s (f s) := rfl

@[simp] theorem outcome_ofExcept (x : Except Failure α) (s : σ) :
    (ofExcept x).outcome s = .ofExcept s x := rfl

@[simp] theorem outcome_refuse (error : Refusal) (s : σ) :
    (refuse error : Action σ α).outcome s = .refused error s := rfl

@[simp] theorem outcome_read (f : σ → α) (s : σ) : (read f).outcome s = .ok (f s) s := rfl

@[simp] theorem outcome_modify (f : σ → σ) (s : σ) : (modify f).outcome s = .ok () (f s) := rfl

theorem outcome_update (f : σ → Except Fault (α × σ)) (s : σ) :
    (update f).outcome s =
      match f s with
      | .ok (a, s) => .ok a s
      | .error fault => .fault fault := by
  change (update f s).outcome = _
  unfold update
  split <;> rfl

theorem outcome_attempt (x : Action σ α) (s : σ) :
    x.attempt.outcome s =
      match x.outcome s with
      | .ok a s => .ok (.ok a) s
      | .refused error s => .ok (.error error) s
      | .fault fault => .fault fault := by
  simp only [outcome, run, attempt]
  rcases x s with ⟨log, _ | _ | _⟩ <;> rfl

theorem outcome_orStop (x : Action σ α) (fault : Refusal → Fault) (s : σ) :
    (x.orStop fault).outcome s =
      match x.outcome s with
      | .ok a s => .ok a s
      | .refused error _ => .fault (fault error)
      | .fault f => .fault f := by
  simp only [outcome, run, orStop]
  rcases x s with ⟨log, _ | _ | _⟩ <;> rfl

theorem outcome_withFirst (x : Action (τ × σ) α) (t : τ) (s : σ) :
    (x.withFirst t).outcome s =
      match x.outcome (t, s) with
      | .ok a (_, s) => .ok a s
      | .refused error (_, s) => .refused error s
      | .fault fault => .fault fault := by
  simp only [outcome, run, withFirst]
  rcases x (t, s) with ⟨log, _ | _ | _⟩ <;> rfl

theorem outcome_onSecond (x : Action σ α) (t : τ) (s : σ) :
    (x.onSecond : Action (τ × σ) α).outcome (t, s) =
      match x.outcome s with
      | .ok a s => .ok a (t, s)
      | .refused error s => .refused error (t, s)
      | .fault fault => .fault fault := by
  simp only [outcome, run, onSecond]
  rcases x s with ⟨log, _ | _ | _⟩ <;> rfl

end Action

end TaggedHeap
