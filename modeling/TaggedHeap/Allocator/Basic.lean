import TaggedHeap.Action
import TaggedHeap.Audit
import TaggedHeap.Config
import TaggedHeap.Source

/-!
# Allocators

An allocator is an arena over the memory of a heap source.  It has to be initialised first: until
then it refuses everything but giving back no pointer at all.

Here are its parts, and the two ways in which its heap changes: by steps on the arena, and by
growing.  `verify` is what a hardened allocator ends each request with.
-/

namespace TaggedHeap

/-- An allocator over one heap source. -/
structure Allocator where
  /-- Where the heap's memory comes from. -/
  source : Source
  /-- The free blocks by size. -/
  lists : FreeLists
  /-- The allocated blocks. -/
  starts : StartSet
  /-- How to behave. -/
  config : Config
  /-- Whether an initialisation has succeeded. -/
  ready : Bool
deriving DecidableEq

namespace Allocator

instance : Inhabited Allocator := ⟨⟨default, default, default, default, false⟩⟩

/-- An allocator that is yet to be initialised. -/
def create (source : Source) (config : Config) : Allocator :=
  ⟨source, .empty, .empty, config, false⟩

/-- The heap's bytes. -/
def memory (a : Allocator) : Memory := a.source.memory

/-- One past the heap's last byte, as far as its source tells. -/
def high (a : Allocator) : Nat := a.source.high

/-- Whether the allocator makes self-checks. -/
def hardened (a : Allocator) : Bool := a.config.hardened

/-- The heap as a memory divided into blocks. -/
def arena (a : Allocator) : Arena := ⟨a.source.memory, a.lists, a.starts⟩

/-- The allocator with its heap replaced. -/
def withArena (a : Allocator) (arena : Arena) : Allocator :=
  { a with
    source := { a.source with memory := arena.memory }
    lists := arena.lists
    starts := arena.starts }

/-- Changes the blocks of the heap by a step that is told whether the heap is hardened. -/
def onArena {α : Type} (step : Bool → Arena → Except Fault (α × Arena)) : Action Allocator α :=
  .update fun a =>
    let ⟨⟨kind, cap, memory, drift⟩, lists, starts, config, ready⟩ := a
    match step config.hardened ⟨memory, lists, starts⟩ with
    | .ok (value, ⟨memory, lists, starts⟩) =>
      .ok (value, ⟨⟨kind, cap, memory, drift⟩, lists, starts, config, ready⟩)
    | .error fault => .error fault

/-- Changes the blocks of the heap by a step that has no answer. -/
def editArena (step : Bool → Arena → Except Fault Arena) : Action Allocator Unit :=
  onArena fun hardened arena => return ((), ← step hardened arena)

/-- Extends the heap's memory by `n` bytes and answers what its size was. -/
def grow (n : Nat) : Action Allocator Nat := fun a =>
  let ⟨source, lists, starts, config, ready⟩ := a
  match source.grow n with
  | (.ok old, source) => ⟨[], .ok old ⟨source, lists, starts, config, ready⟩⟩
  | (.error error, source) => ⟨[], .refused error ⟨source, lists, starts, config, ready⟩⟩

@[simp] theorem arena_withArena (a : Allocator) (arena : Arena) :
    (a.withArena arena).arena = arena := rfl

@[simp] theorem withArena_arena (a : Allocator) : a.withArena a.arena = a := rfl

theorem outcome_onArena {α : Type} (step : Bool → Arena → Except Fault (α × Arena))
    (a : Allocator) :
    (onArena step).outcome a =
      match step a.hardened a.arena with
      | .ok (value, arena) => .ok value (a.withArena arena)
      | .error fault => .fault fault := by
  rw [onArena, Action.outcome_update]
  simp only [hardened, arena]
  rcases step a.config.hardened ⟨a.source.memory, a.lists, a.starts⟩ with _ | ⟨_, _⟩ <;> rfl

theorem outcome_grow (n : Nat) (a : Allocator) :
    (grow n).outcome a =
      if a.source.accepts n then
        .ok a.memory.size { a with source := a.source.extend n }
      else .refused (.outOfMemory n) a := by
  simp only [Action.outcome, Action.run, grow, Source.grow]
  by_cases h : a.source.accepts n = true
  · simp only [h, if_true]
    rfl
  · simp only [h]
    rfl

/-- Refuses unless an initialisation has succeeded. -/
def requireReady : Action Allocator Unit :=
  .inspect fun a => if a.ready then .ok () else .error (.refused .uninitialized)

/-- The figures of the heap, or what is wrong with it. -/
def audit (a : Allocator) : Except Failure Stats :=
  if a.ready then a.arena.audit a.hardened a.high else .error (.refused .uninitialized)

/-- Audits a hardened heap and stops if the audit fails. -/
def verify : Action Allocator Unit := .inspect fun a =>
  if a.hardened then
    match a.audit with
    | .ok _ => .ok ()
    | .error (.refused error) => .error (.stopped (.auditFailed error))
    | .error (.stopped fault) => .error (.stopped fault)
  else .ok ()

/-- The number of blocks in the free lists. -/
def freeBlocks (a : Allocator) : Except Fault Nat :=
  if a.ready then a.lists.count a.hardened a.memory else .ok 0

end Allocator

end TaggedHeap
