import TaggedHeap.Session.Command
import TaggedHeap.Trace.Replay

/-!
# Sessions

A session is a list of commands for one allocator and one replayer.  A refused command is a step
like any other, and the session goes on; a fault ends it.

Main definitions: `Command.perform` says what one command does, and `Session.play` what all of them
do.
-/

namespace TaggedHeap

open Replayer

namespace Command

/-- Performs an action on the payload that is named, if there is one. -/
def onPayload (results : Array (Option Nat)) (p : Pointer) (f : Nat → Action Allocator Answer) :
    Replay Answer :=
  match p.resolve results with
  | some payload => act (f payload)
  | none => return .noPayload

/-- Reads bytes of a payload. -/
def readPayload (start : Nat) (n : Option Nat) (payload : Nat) : Action Allocator Answer := do
  let length ← Allocator.payloadLength payload
  let first := min start length
  let stop := (n.map fun n => min (start + n) length).getD length
  let m ← .read (·.memory)
  return .bytes (Run.ofItems (fun i => m.byte (payload + first + i)) (stop - first))

/-- Sets the first bytes of a payload to one value. -/
def fillPayload (b : UInt8) (n : Option Nat) (payload : Nat) : Action Allocator Answer := do
  let length ← Allocator.payloadLength payload
  Allocator.fillPayload payload b ((n.map (min · length)).getD length)
  return .number length

/-- Writes bytes into a payload. -/
def writePayload (start : Nat) (bytes : ByteArray) (payload : Nat) : Action Allocator Answer := do
  let length ← Allocator.payloadLength payload
  if length < start + bytes.size then return .outOfRange
  Allocator.writeBytes (payload + start) bytes
  return .number length

/-- Writes bytes anywhere into the heap. -/
def pokeBytes (bytes : ByteArray) (offset : Nat) : Action Allocator Answer := do
  let size ← .read (·.memory.size)
  if size < offset + bytes.size then return .outOfRange
  Allocator.writeBytes offset bytes
  return .done

/-- Lets the source report a size that is off by `drift`. -/
def skewBy (drift : Int) (a : Allocator) : Allocator :=
  { a with source := { a.source with drift } }

/-- The words of a memory that are not zero, in runs.  A word that is cut short by the end counts as
if zeros followed. -/
def nonzeroWords (m : Memory) : List (Run Nat) :=
  (Run.ofItems (fun i => m.word (wordSize * i)) ((m.size + (wordSize - 1)) / wordSize)).filter
    (·.value != 0)

/-- The settings of an allocator. -/
def infoOf (a : Allocator) : Info :=
  ⟨a.ready, a.config.chunk, a.config.fit, a.source.low, a.high⟩

/-- Grows the source and makes a new allocator for it. -/
def reopenWith (growths : List Nat) (chunk : Nat) (fit : FitPolicy) : Action Allocator Answer :=
  .update fun a =>
    let ⟨source, _, _, config, _⟩ := a
    let (growths, source) := source.growAll growths
    .ok (.growths growths, .create source { config with chunk, fit })

/-- What can be observed after the operation with the given number. -/
def observe (index : Nat) : Replay Observation := do
  let live ← look (·.live)
  let stats ← act Allocator.check.attempt
  return ⟨index, live, stats⟩

/-- Replays a trace from the operation with the given number on, with an observation after every
`period` operations and after the last one.  An operation that is refused is the last one. -/
def replayObserved (period index : Nat) :
    Trace → Replay (List Observation × Option Refusal)
  | [] => return ([], none)
  | operation :: rest => do
    match ← (Replayer.step operation).attempt with
    | .error error => return ([← observe index], some error)
    | .ok () =>
      let due := (index + 1) % period = 0 ∨ rest.isEmpty
      let observations ← if due then (fun o => [o]) <$> observe index else pure []
      let (more, failed) ← replayObserved period (index + 1) rest
      return (observations ++ more, failed)

/-- Replays a trace. -/
def replayTrace (t : Trace) : ReplayMode → Replay Answer
  | .observed period => do
    let (observations, failed) ← replayObserved period 0 t
    return .observed observations failed
  | .whole => do
    act t.replay
    return .done
  | .unfailing => do
    act t.replayUnfailing
    return .done

/-- Performs a command, when the steps so far had the given results. -/
def perform (results : Array (Option Nat)) : Command → Replay Answer
  | init => do
    act Allocator.init
    return .done
  | alloc n => return .payload (← act (Allocator.alloc n))
  | calloc n size => return .payload (← act (Allocator.calloc n size))
  | realloc p n => return .payload (← act (Allocator.realloc (p.resolve results) n))
  | free p => do
    act (Allocator.free (p.resolve results))
    return .done
  | usable p => onPayload results p fun payload => return .number (← Allocator.usable payload)
  | read p start n => onPayload results p (readPayload start n)
  | fill p b n => onPayload results p (fillPayload b n)
  | write p start bytes => onPayload results p (writePayload start bytes)
  | poke p bytes => onPayload results p (pokeBytes bytes)
  | skew drift => do
    act (.modify (skewBy drift))
    return .number (← act (.read (·.high)))
  | check => return .stats (← act Allocator.check)
  | freeBlocks => return .number (← act (.inspect fun a => a.freeBlocks))
  | dump => return .words (← act (.read (nonzeroWords ·.memory)))
  | info => return .info (← act (.read infoOf))
  | reopen growths chunk fit => act (reopenWith growths chunk fit)
  | step text =>
    match Operation.parse text with
    | .error error => return .unreadable error
    | .ok operation => do
      Replayer.step operation
      return .number (← look (·.live))
  | replay text mode =>
    match Trace.parse text with
    | .error error => return .unreadable error
    | .ok t => replayTrace t mode
  | finish => do
    Replayer.finish
    return .done

end Command

namespace Session

/-- What comes of a command. -/
inductive Result where
  /-- An answer. -/
  | answer (answer : Answer)
  /-- A refusal. -/
  | refused (error : Refusal)
  /-- The end of the session. -/
  | fault (fault : Fault)

/-- The state of a heap between two commands. -/
structure Condition where
  /-- Its size, as its source reports it. -/
  size : Nat
  /-- Its figures, or what is wrong with it. -/
  stats : Except Failure Stats

/-- A step of a session: a command was performed. -/
structure Step where
  /-- What came of it. -/
  result : Result
  /-- What was logged. -/
  log : List Record
  /-- The heap afterwards, if the session goes on. -/
  condition : Option Condition

/-- The state of a heap. -/
def conditionOf (a : Allocator) : Condition := ⟨a.source.size, a.audit⟩

/-- Performs the commands of a session from a state on, when the steps so far had the given results.
`watched` says whether to look at the heap after each command. -/
def playFrom (watched : Bool) (results : Array (Option Nat)) (state : Replayer × Allocator) :
    List Command → List Step
  | [] => []
  | command :: rest =>
    match (command.perform results).run state with
    | ⟨log, .ok answer state⟩ =>
      let condition := if watched then some (conditionOf state.2) else none
      ⟨.answer answer, log, condition⟩ ::
        playFrom watched (results.push answer.payload?) state rest
    | ⟨log, .refused error state⟩ =>
      let condition := if watched then some (conditionOf state.2) else none
      ⟨.refused error, log, condition⟩ :: playFrom watched (results.push none) state rest
    | ⟨log, .fault fault⟩ => [⟨.fault fault, log, none⟩]

/-- Performs the commands of a session on a new allocator. -/
def play (watched : Bool) (source : Source) (config : Config) (commands : List Command) :
    List Step :=
  playFrom watched #[] (.new, .create source config) commands

end Session

end TaggedHeap
