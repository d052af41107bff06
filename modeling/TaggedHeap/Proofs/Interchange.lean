import TaggedHeap.Proofs.Backing
import TaggedHeap.Proofs.Twins
import TaggedHeap.Session.Play

/-!
# Sources can be interchanged

A session does not show what kind of source it runs on.  `sources_interchangeable` says so of any
session of `Straight` commands, which are all but the one that makes a source tell a wrong size: on
a buffer and on a reservation with the same cap, its steps have the same results, logs and figures,
and leave the same bytes.

The rules of `Twins` carry this from what an allocator does to what replayers and commands do, and
`Session.same_playFrom` from one command to all of them.  What is asked of the buffer is that it
finds room for the growths that the session on the reservation tells of, in its logs
(`Record.growth?`) and in its answers (`Growth.granted?`).
-/

namespace TaggedHeap

variable {α : Type}

open TaggedHeap.Action Allocator

/-! ## Replayers -/

namespace Replayer

variable {cap : Nat}

/-- What a replayer does to an allocator is the same for a buffer, in runs whose logs are spared. -/
abbrev Same (cap : Nat) (x : Replay α) : Prop :=
  x.Blind (OnSecond (Twins cap)) (Record.Spared cap)

theorem same_look (f : Replayer → α) : Same cap (look f) :=
  blind_read fun _ _ alike => congrArg f alike.1.symm

theorem same_record (f : Replayer → Replayer) : Same cap (record f) :=
  blind_modify fun _ _ alike => ⟨congrArg f alike.1, alike.2⟩

theorem same_verify (live : Watched) : Allocator.Same cap live.verify :=
  same_requireFilled _ _ _ _

theorem same_watch (p size : Nat) (fill : UInt8) :
    Allocator.Same cap (Watched.watch p size fill) := by
  refine (blind_ofExcept _).bind fun _ => ?_
  refine (same_usable p).bind fun _ => ?_
  refine (blind_ofExcept _).bind fun _ => ?_
  refine (same_inspect fun _ => rfl).bind fun _ => ?_
  exact (same_editMemory _).bind fun _ => blind_pure _

theorem same_allocate (size : Nat) (fill : UInt8) : Allocator.Same cap (allocate size fill) := by
  refine (same_alloc size).attempt.bind fun result => ?_
  rcases result with (error | payload)
  · cases error <;> first | exact blind_pure _ | exact blind_ofExcept _
  · cases payload with
    | none => exact (blind_ofExcept _).bind fun _ => blind_pure _
    | some payload => exact (same_watch payload size fill).bind fun _ => blind_pure _

theorem same_reallocate (live : Watched) (size : Nat) :
    Allocator.Same cap (reallocate live size) := by
  refine (same_verify live).bind fun _ => ?_
  refine (same_realloc _ size).attempt.bind fun result => ?_
  rcases result with (error | payload)
  · cases error <;> first
      | exact (same_verify live).bind fun _ => blind_pure _
      | exact blind_ofExcept _
  · cases payload with
    | none => exact blind_pure _
    | some payload =>
      refine (same_requireFilled _ _ _ _).bind fun _ => ?_
      exact (same_watch payload size live.fill).bind fun _ => blind_pure _

theorem same_perform (operation : Operation) : Same cap (perform operation) := by
  cases operation with
  | alloc size =>
    refine (same_look _).bind fun fill => ?_
    refine (same_allocate size fill).onSecond.bind fun live => ?_
    exact same_record _
  | free index =>
    refine (same_look _).bind fun entry => ?_
    cases entry with
    | none => exact blind_pure _
    | some live =>
      refine (same_record _).bind fun _ => ?_
      refine (same_verify live).onSecond.bind fun _ => ?_
      exact (same_free _).onSecond
  | realloc index size =>
    refine (same_look _).bind fun entry => ?_
    cases entry with
    | none => exact blind_pure _
    | some live =>
      refine (same_reallocate live size).onSecond.bind fun live => ?_
      exact same_record _

theorem same_step (operation : Operation) : Same cap (step operation) := by
  refine (same_perform operation).bind fun _ => ?_
  refine (same_record tick).bind fun _ => ?_
  refine (same_look _).bind fun performed => ?_
  split
  · exact same_check.onSecond.bind fun _ => blind_pure _
  · exact blind_pure _

theorem same_stepAll (t : Trace) : Same cap (stepAll t) := by
  induction t with
  | nil => exact blind_pure _
  | cons operation rest ih => exact (same_step operation).bind fun _ => ih

theorem same_verifyAll (entries : List (Option Watched)) :
    Allocator.Same cap (verifyAll entries) := by
  induction entries with
  | nil => exact blind_pure _
  | cons entry rest ih =>
    cases entry with
    | none => exact ih
    | some live => exact (same_verify live).bind fun _ => ih

theorem same_finish : Same cap finish := by
  refine (same_look _).bind fun entries => ?_
  refine (same_verifyAll _).onSecond.bind fun _ => ?_
  exact same_check.onSecond.bind fun _ => blind_pure _

end Replayer

/-! ## Sources that grow step by step -/

/-- By how much a source grew, as far as the sizes before and after tell. -/
def Growth.granted? (growth : Growth) : Option Nat :=
  match growth.result with
  | .ok old => some (growth.size - old)
  | .error _ => none

namespace Source

variable {s : Source} {cap n : Nat} {growths : List Nat}

/-- A source that accepts a growth tells by how much it grew. -/
theorem granted_tryGrow (drift : s.drift = 0) (accepted : s.accepts n = true) :
    (s.tryGrow n).1.granted? = some n := by
  have word : s.memory.size + n < wordBound := by
    simp only [accepts, Bool.and_eq_true, decide_eq_true_eq] at accepted
    exact accepted.1.1
  have grown : (s.extend n).size = s.memory.size + n :=
    size_extend (truthful_of_accepts drift accepted) word
  simp only [tryGrow, grow, accepted, if_true, Growth.report, Growth.granted?, grown]
  exact congrArg some (Nat.add_sub_cancel_left ..)

/-- A buffer with room for a growth does what a reservation does. -/
theorem tryGrow_toBuffer (kind : s.kind = .reservation) (drift : s.drift = 0)
    (spares : Spares s.cap (s.tryGrow n).1.granted?.toList) :
    s.toBuffer.tryGrow n = ((s.tryGrow n).1, (s.tryGrow n).2.toBuffer) := by
  have room : s.accepts n = true → n < bufferRoom := by
    intro accepted
    rw [granted_tryGrow drift accepted] at spares
    exact spares n (List.mem_singleton_self n) (le_cap_of_accepts accepted)
  simp only [tryGrow, grow, accepts_toBuffer kind room]
  split <;> rfl

/-- What a source is asked for, it does not change its kind, its cap and how it tells its size. -/
theorem plain_tryGrow (s : Source) (n : Nat) :
    (s.tryGrow n).2.kind = s.kind ∧ (s.tryGrow n).2.cap = s.cap ∧
      (s.tryGrow n).2.drift = s.drift := by
  simp only [tryGrow, grow]
  split <;> exact ⟨rfl, rfl, rfl⟩

/-- A buffer with room for all growths does what a reservation does. -/
theorem growAll_toBuffer (kind : s.kind = .reservation) (drift : s.drift = 0)
    (spares : Spares s.cap ((s.growAll growths).1.filterMap Growth.granted?)) :
    s.toBuffer.growAll growths = ((s.growAll growths).1, (s.growAll growths).2.toBuffer) ∧
      (s.growAll growths).2.kind = s.kind ∧ (s.growAll growths).2.cap = s.cap ∧
      (s.growAll growths).2.drift = s.drift := by
  induction growths generalizing s with
  | nil => exact ⟨rfl, rfl, rfl, rfl⟩
  | cons n rest ih =>
    obtain ⟨kinds, caps, drifts⟩ := s.plain_tryGrow n
    have first : Spares s.cap (s.tryGrow n).1.granted?.toList := by
      intro k hk
      refine spares k (List.mem_filterMap.mpr ⟨(s.tryGrow n).1, List.mem_cons_self, ?_⟩)
      exact Option.mem_toList.mp hk
    have later : Spares (s.tryGrow n).2.cap
        (((s.tryGrow n).2.growAll rest).1.filterMap Growth.granted?) := by
      intro k hk
      rw [caps]
      obtain ⟨growth, member, granted⟩ := List.mem_filterMap.mp hk
      exact spares k (List.mem_filterMap.mpr ⟨growth, List.mem_cons_of_mem _ member, granted⟩)
    obtain ⟨same, kinds', caps', drifts'⟩ := ih (kinds.trans kind) (drifts.trans drift) later
    refine ⟨?_, kinds'.trans kinds, caps'.trans caps, drifts'.trans drifts⟩
    simp only [growAll, tryGrow_toBuffer kind drift first, same]

end Source

/-! ## Commands -/

/-- A command that does not make a source tell a wrong size. -/
def Command.Straight : Command → Prop
  | .skew _ => False
  | _ => True

/-- The growths that an answer tells of. -/
def Answer.grown : Answer → List Nat
  | .growths told => told.filterMap Growth.granted?
  | _ => []

namespace Command

variable {cap : Nat} {results : Array (Option Nat)}

theorem same_onPayload (p : Pointer) {f : Nat → Action Allocator Answer}
    (same : ∀ payload, Allocator.Same cap (f payload)) :
    Replayer.Same cap (onPayload results p f) := by
  unfold onPayload
  cases p.resolve results with
  | some payload => exact (same payload).onSecond
  | none => exact blind_pure _

theorem same_readPayload (start : Nat) (n : Option Nat) (payload : Nat) :
    Allocator.Same cap (readPayload start n payload) :=
  (same_payloadLength payload).bind fun _ => (same_read fun _ => rfl).bind fun _ => blind_pure _

theorem same_fillPayload (b : UInt8) (n : Option Nat) (payload : Nat) :
    Allocator.Same cap (fillPayload b n payload) :=
  (same_payloadLength payload).bind fun _ => (same_editMemory _).bind fun _ => blind_pure _

theorem same_writePayload (start : Nat) (bytes : ByteArray) (payload : Nat) :
    Allocator.Same cap (writePayload start bytes payload) := by
  refine (same_payloadLength payload).bind fun length => ?_
  split
  · exact blind_pure _
  · exact (same_editMemory _).bind fun _ => blind_pure _

theorem same_pokeBytes (bytes : ByteArray) (offset : Nat) :
    Allocator.Same cap (pokeBytes bytes offset) := by
  refine (same_read fun _ => rfl).bind fun size => ?_
  split
  · exact blind_pure _
  · exact (same_editMemory _).bind fun _ => blind_pure _

theorem same_observe (index : Nat) : Replayer.Same cap (observe index) :=
  (Replayer.same_look _).bind fun _ => same_check.attempt.onSecond.bind fun _ => blind_pure _

theorem same_replayObserved (period index : Nat) (t : Trace) :
    Replayer.Same cap (replayObserved period index t) := by
  induction t generalizing index with
  | nil => exact blind_pure _
  | cons operation rest ih =>
    refine (Replayer.same_step operation).attempt.bind fun result => ?_
    cases result with
    | error error => exact (same_observe index).bind fun _ => blind_pure _
    | ok _ =>
      dsimp only
      split
      on_goal 1 => refine ((same_observe index).bind fun _ => blind_pure _).bind fun _ => ?_
      on_goal 2 => refine (blind_pure _).bind fun _ => ?_
      all_goals exact (ih (index + 1)).bind fun _ => blind_pure _

theorem same_replayTrace (t : Trace) (mode : ReplayMode) :
    Replayer.Same cap (replayTrace t mode) := by
  cases mode with
  | observed period => exact (same_replayObserved period 0 t).bind fun _ => blind_pure _
  | whole =>
    exact (((Replayer.same_stepAll t).bind fun _ => Replayer.same_finish).withFirst _).onSecond.bind
      fun _ => blind_pure _
  | unfailing =>
    exact ((((Replayer.same_stepAll t).orStop _).bind fun _ =>
      Replayer.same_finish.orStop _).withFirst _).onSecond.bind fun _ => blind_pure _

/-- A new allocator over a source that was grown is the same, if there was room. -/
theorem alike_reopen {a b : Allocator} (twins : Twins cap a b) {growths : List Nat} {chunk : Nat}
    {fit : FitPolicy}
    (spares : Source.Spares cap ((a.source.growAll growths).1.filterMap Growth.granted?)) :
    (reopenWith growths chunk fit).AlikeFrom (Twins cap) (Record.Spared cap) a b := by
  obtain ⟨kind, rfl, drift, rfl⟩ := twins
  obtain ⟨same, kinds, caps, drifts⟩ := Source.growAll_toBuffer kind drift spares
  have reopened : ∀ a : Allocator, (reopenWith growths chunk fit).run a
      = ⟨[], .ok (.growths (a.source.growAll growths).1)
          (.create (a.source.growAll growths).2 { a.config with chunk, fit })⟩ := fun _ => rfl
  intro _
  rw [reopened, reopened]
  change Report.Alike _ _ ⟨[], .ok (Answer.growths (a.source.toBuffer.growAll growths).1)
    (create (a.source.toBuffer.growAll growths).2 { a.config with chunk, fit })⟩
  rw [same]
  exact ⟨rfl, .ok _ ⟨kinds.trans kind, caps, drifts.trans drift, rfl⟩⟩

/-- **A command does the same for a buffer,** if the buffer has room for what the
answer tells of. -/
theorem alike_perform {s t : Replayer × Allocator} (command : Command) (straight : command.Straight)
    (twins : OnSecond (Twins cap) s t)
    (spares : ∀ answer s', (command.perform results).outcome s = .ok answer s' →
      Source.Spares cap answer.grown) :
    (command.perform results).AlikeFrom (OnSecond (Twins cap)) (Record.Spared cap) s t := by
  cases command with
  | init => exact (same_init.onSecond.bind fun _ => blind_pure _) s t twins
  | alloc n => exact ((same_alloc n).onSecond.bind fun _ => blind_pure _) s t twins
  | calloc n size => exact ((same_calloc n size).onSecond.bind fun _ => blind_pure _) s t twins
  | realloc p n => exact ((same_realloc _ n).onSecond.bind fun _ => blind_pure _) s t twins
  | free p => exact ((same_free _).onSecond.bind fun _ => blind_pure _) s t twins
  | usable p =>
    exact same_onPayload p (fun payload => (same_usable payload).bind fun _ => blind_pure _)
      s t twins
  | read p start n => exact same_onPayload p (same_readPayload start n) s t twins
  | fill p b n => exact same_onPayload p (same_fillPayload b n) s t twins
  | write p start bytes => exact same_onPayload p (same_writePayload start bytes) s t twins
  | poke p bytes => exact same_onPayload p (same_pokeBytes bytes) s t twins
  | skew drift => exact straight.elim
  | check => exact (same_check.onSecond.bind fun _ => blind_pure _) s t twins
  | freeBlocks =>
    exact ((same_inspect fun _ => rfl).onSecond.bind fun _ => blind_pure _) s t twins
  | dump => exact ((same_read fun _ => rfl).onSecond.bind fun _ => blind_pure _) s t twins
  | info => exact ((same_read fun _ => rfl).onSecond.bind fun _ => blind_pure _) s t twins
  | reopen growths chunk fit =>
    obtain ⟨replayer, a⟩ := s
    obtain ⟨_, b⟩ := t
    obtain ⟨rfl, twins⟩ := twins
    exact (alike_reopen twins (spares _ _ rfl)).onSecond replayer
  | step text =>
    unfold perform
    dsimp only
    cases Operation.parse text with
    | error error => exact blind_pure _ s t twins
    | ok operation =>
      exact ((Replayer.same_step operation).bind fun _ =>
        (Replayer.same_look _).bind fun _ => blind_pure _) s t twins
  | replay text mode =>
    unfold perform
    dsimp only
    cases Trace.parse text with
    | error error => exact blind_pure _ s t twins
    | ok trace => exact same_replayTrace trace mode s t twins
  | finish => exact (Replayer.same_finish.bind fun _ => blind_pure _) s t twins

end Command

/-! ## Sessions -/

namespace Session

/-- The growths that a result tells of. -/
def Result.grown : Result → List Nat
  | .answer told => told.grown
  | _ => []

/-- The growths that a step tells of, in its log and in its answer. -/
def Step.grown (step : Step) : List Nat := step.log.filterMap Record.growth? ++ step.result.grown

/-- The heap after each command, as far as a session comes. -/
def heapsFrom (results : Array (Option Nat)) (state : Replayer × Allocator) :
    List Command → List Memory
  | [] => []
  | command :: rest =>
    match (command.perform results).outcome state with
    | .ok answer state => state.2.memory :: heapsFrom (results.push answer.payload?) state rest
    | .refused _ state => state.2.memory :: heapsFrom (results.push none) state rest
    | .fault _ => []

/-- The heap after each command of a session on a new allocator. -/
def heaps (source : Source) (config : Config) (commands : List Command) : List Memory :=
  heapsFrom #[] (.new, .create source config) commands

/-- The growths that the steps of a session tell of. -/
def growths (steps : List Step) : List Nat := steps.flatMap Step.grown

variable {cap : Nat} {s t : Replayer × Allocator} {results : Array (Option Nat)}
  {commands : List Command}

/-- There is room for the growths of a session if there is for those of its first step and of the
others. -/
theorem spares_growths_cons {step : Step} {steps : List Step} :
    Source.Spares cap (growths (step :: steps)) ↔
      Source.Spares cap (step.log.filterMap Record.growth?) ∧
        Source.Spares cap step.result.grown ∧ Source.Spares cap (growths steps) := by
  rw [growths, List.flatMap_cons, Source.spares_append, Step.grown, Source.spares_append, and_assoc]
  rfl

/-- The heaps of twins are in the same state. -/
theorem conditionOf_eq {a b : Allocator} (twins : Twins cap a b) :
    conditionOf b = conditionOf a := by
  obtain ⟨-, -, -, rfl⟩ := twins
  rfl

/-- So are their bytes. -/
theorem memory_eq {a b : Allocator} (twins : Twins cap a b) : b.memory = a.memory := by
  obtain ⟨-, -, -, rfl⟩ := twins
  rfl

/-- **A session goes the same way for a buffer from twins on,** if the buffer has room for what its
steps tell of. -/
theorem same_playFrom (watched : Bool) (twins : OnSecond (Twins cap) s t)
    (straight : ∀ command ∈ commands, command.Straight)
    (spares : Source.Spares cap (growths (playFrom watched results s commands))) :
    playFrom watched results t commands = playFrom watched results s commands ∧
      heapsFrom results t commands = heapsFrom results s commands := by
  induction commands generalizing results s t with
  | nil => exact ⟨rfl, rfl⟩
  | cons command rest ih =>
    have straight' : ∀ c ∈ rest, c.Straight := fun c hc => straight c (List.mem_cons_of_mem _ hc)
    rcases ran : (command.perform results).run s with ⟨log, end₁⟩
    rcases ran' : (command.perform results).run t with ⟨log', end₂⟩
    simp only [playFrom, heapsFrom, Action.outcome, ran, ran'] at spares ⊢
    have own : Source.Spares cap (log.filterMap Record.growth?) ∧
        ∀ answer s', end₁ = .ok answer s' → Source.Spares cap answer.grown := by
      cases end₁ with
      | ok answer s' =>
        obtain ⟨logged, answered, -⟩ := spares_growths_cons.mp spares
        exact ⟨logged, fun _ _ h => by cases h; exact answered⟩
      | refused error s' => exact ⟨(spares_growths_cons.mp spares).1, fun _ _ h => by cases h⟩
      | fault stop => exact ⟨(spares_growths_cons.mp spares).1, fun _ _ h => by cases h⟩
    have alike := command.alike_perform (straight command List.mem_cons_self) twins
      (fun answer s' answered => own.2 answer s' (by rw [← answered, Action.outcome, ran]))
      fun r hr => by
        rw [ran] at hr
        intro n hn
        exact own.1 n (List.mem_filterMap.mpr ⟨r, hr, Option.mem_toList.mp hn⟩)
    rw [ran, ran'] at alike
    obtain ⟨rfl, ends⟩ := alike
    cases ends with
    | ok answer states =>
      obtain ⟨played, heaps⟩ := ih states straight' (spares_growths_cons.mp spares).2.2
      dsimp only
      rw [played, heaps, conditionOf_eq states.2, memory_eq states.2]
      exact ⟨rfl, rfl⟩
    | refused error states =>
      obtain ⟨played, heaps⟩ := ih states straight' (spares_growths_cons.mp spares).2.2
      dsimp only
      rw [played, heaps, conditionOf_eq states.2, memory_eq states.2]
      exact ⟨rfl, rfl⟩
    | fault stop => exact ⟨rfl, rfl⟩

end Session

/-- **Buffers and reservations can be interchanged.**

* A reservation has room for whole pages: as few as will do for its limit, and at least one.  So has
  a mapping, which is made wherever the size of these pages is a word.
* A buffer with any limit looks like a byte string with that cap, however it is used, as long as it
  finds room for what is granted.
* So does a reservation of any size, and so does a break that moves through a mapping of that size.
* Any session goes the same way on a buffer and on a reservation of the size that is its limit, if
  the buffer finds room for what the session says that it grew by: the steps have the same results,
  logs and figures, and leave the same bytes. -/
theorem sources_interchangeable :
    (∀ limit, IsLeast {room | max limit 1 ≤ room ∧ pageSize ∣ room} (Source.wholePages limit) ∧
      (∀ s, Source.reserve limit = .ok s ↔
        limit < reservationRoom ∧ s = .reserved (Source.wholePages limit)) ∧
      ∀ m, Mapping.reserve limit = .ok m ↔
        max limit 1 + (pageSize - 1) < wordBound ∧ m = .fresh (Source.wholePages limit)) ∧
    (∀ limit uses, Source.Spares limit (Backing.capped.grants (.empty limit) uses) →
      Backing.source.sights (.buffer limit) uses = Backing.capped.sights (.empty limit) uses) ∧
    (∀ room uses,
      Backing.source.sights (.reserved room) uses = Backing.capped.sights (.empty room) uses ∧
      Backing.mapping.sights (.fresh room) uses = Backing.capped.sights (.empty room) uses) ∧
    ∀ room watched config commands, (∀ command ∈ commands, command.Straight) →
      Source.Spares room (Session.growths (Session.play watched (.reserved room) config commands)) →
      Session.play watched (.buffer room) config commands
          = Session.play watched (.reserved room) config commands ∧
        Session.heaps (.buffer room) config commands
          = Session.heaps (.reserved room) config commands := by
  refine ⟨fun limit => ⟨Source.isLeast_wholePages limit, fun _ => Source.reserve_eq_ok_iff,
    fun _ => Mapping.reserve_eq_ok_iff⟩, fun _ _ => Source.sights_buffer,
    fun room uses => ⟨Source.sights_reserved room uses, Mapping.sights_fresh room uses⟩, ?_⟩
  intro room watched config commands straight spares
  have twins : Twins room (.create (.reserved room) config) (.create (.buffer room) config) :=
    ⟨rfl, rfl, rfl, rfl⟩
  exact Session.same_playFrom watched ⟨rfl, twins⟩ straight spares

/-- With a cap of 64 bytes, growing stops there on both, and a session meets the end of the heap at
the same request. -/
theorem sources_interchangeable_of_small_cap :
    Source.reserve 1 = .ok (.reserved 4096) ∧
      Backing.source.sights (.buffer 64) [.grow 16, .write 3 7, .grow 49]
          = Backing.capped.sights (.empty 64) [.grow 16, .write 3 7, .grow 49] ∧
      (Session.play true (.buffer 64) { chunk := 0 } [.init, .alloc 1, .alloc 100]
          = Session.play true (.reserved 64) { chunk := 0 } [.init, .alloc 1, .alloc 100]) ∧
      (Session.play true (.reserved 64) { chunk := 0 } [.init, .alloc 1, .alloc 100]).map (·.result)
          = [.answer .done, .answer (.payload (some 16)), .refused (.outOfMemory 112)] := by
  obtain ⟨pages, buffers, -, sessions⟩ := sources_interchangeable
  have small : 64 < bufferRoom := by decide
  refine ⟨((pages 1).2.1 _).mpr ⟨by decide, rfl⟩, buffers 64 _ (Source.spares_of_lt small _),
    ?_, rfl⟩
  refine (sessions 64 true _ _ ?_ (Source.spares_of_lt small _)).1
  intro command member
  simp only [List.mem_cons, List.not_mem_nil, or_false] at member
  rcases member with rfl | rfl | rfl <;> trivial

end TaggedHeap
