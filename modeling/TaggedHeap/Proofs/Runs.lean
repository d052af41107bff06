import Mathlib.Logic.Function.Basic
import TaggedHeap.Proofs.Effects

/-!
# Runs

A run starts with an initialisation that succeeds, and goes on with requests, whatever they are and
whatever comes of them.

* `Reaches a history b` is a run from `a` to `b` in which `history` was asked for and answered, and
  `asked history` is the ledger after it: the payloads that are live, with the bytes last asked for.
* `Reaches.tracked` is the invariant: after any run the allocator is sound, and its live blocks are
  those that were asked for.

* `exists_reaches` goes the other way: what an outline is asked for and answers, without any bytes,
  is a run of each allocator that it shows.

The step lemma for the invariant is `Effect.tracked`.
-/

namespace TaggedHeap

open Memory

/-! ## Truthful sources -/

/-- A source tells the size of its memory. -/
def Source.Truthful (s : Source) : Prop := s.size = s.memory.size

/-- A source that was just made tells its size. -/
theorem Source.truthful_make {kind : SourceKind} {limit : Nat} {s : Source}
    (made : Source.make kind limit = .ok s) : s.Truthful := by
  cases kind with
  | buffer =>
    cases made
    rfl
  | reservation =>
    unfold Source.make Source.reserve at made
    dsimp only at made
    split at made
    · cases made
      rfl
    · cases made

/-- A source that tells its size does so after it was asked to grow. -/
theorem Source.Truthful.grow {s : Source} (truthful : s.Truthful) (n : Nat) :
    (s.grow n).2.Truthful := by
  unfold Source.grow
  split
  next accepted =>
    simp only [Source.accepts, Bool.and_eq_true, decide_eq_true_eq] at accepted
    have told : (s.extend n).size = s.memory.size + n :=
      Source.size_extend truthful accepted.1.1
    exact told.trans (Memory.size_extend s.memory n).symm
  next => exact truthful

/-! ## Ledgers -/

/-- For each payload that is live, the bytes that were last asked for. -/
abbrev Ledger : Type := Nat → Option Nat

/-- The ledger after `n` bytes were asked for and a payload, or none, was handed out. -/
def Ledger.grant (ledger : Ledger) (n : Nat) : Option Nat → Ledger
  | some p => Function.update ledger p (some n)
  | none => ledger

/-- The ledger after a request was answered. -/
def Ledger.record (ledger : Ledger) : Request × Except Refusal Answer → Ledger
  | (.init, .ok _) => fun _ => none
  | (.alloc n, .ok (.payload p)) => ledger.grant n p
  | (.calloc n size, .ok (.payload p)) => ledger.grant (n * size) p
  | (.realloc none n, .ok (.payload p)) => ledger.grant n p
  | (.realloc (some q) n, .ok (.payload p)) => Ledger.grant (Function.update ledger q none) n p
  | (.free (some q), .ok _) => Function.update ledger q none
  | _ => ledger

/-- What was asked for in a run, and what came of it, in order. -/
abbrev History : Type := List (Request × Except Refusal Answer)

/-- The payloads that are live after a history, with the bytes that were last asked for.  They are
those that were handed out and not taken back, or moved away from, since the last initialisation. -/
def asked (history : History) : Ledger := history.foldl Ledger.record fun _ => none

@[simp] theorem asked_concat (history : History) (entry : Request × Except Refusal Answer) :
    asked (history ++ [entry]) = (asked history).record entry := by
  simp [asked]

/-- A request for a new payload is recorded under the bytes that it asked for. -/
theorem Ledger.record_fresh {ledger : Ledger} {r : Request} {n : Nat} {p : Option Nat}
    (wanted : r.fresh = some n) : ledger.record (r, .ok (.payload p)) = ledger.grant n p := by
  cases r with
  | alloc n => cases wanted; rfl
  | calloc n size => cases wanted; rfl
  | realloc payload n =>
    cases payload with
    | none => cases wanted; rfl
    | some q => cases wanted
  | init => cases wanted
  | free payload => cases wanted
  | write payload start bytes => cases wanted

/-- A refusal is not recorded. -/
theorem Ledger.record_error (ledger : Ledger) (r : Request) (error : Refusal) :
    ledger.record (r, .error error) = ledger := by
  cases r with
  | realloc payload n => cases payload <;> rfl
  | free payload => cases payload <;> rfl
  | _ => rfl

/-- The blocks of which `P` holds are those that a ledger names, and have the sizes that it says. -/
structure Ledger.Names (ledger : Ledger) (P : Extent → Prop) : Prop where
  /-- Each block is in the ledger, and has the size for what was asked for. -/
  known : ∀ e, P e → ∃ n, ledger (payloadOf e.block) = some n ∧ e.Snug n
  /-- Each payload in the ledger is that of a block. -/
  live : ∀ p n, ledger p = some n → ∃ e, P e ∧ payloadOf e.block = p

section Names

variable {ledger : Ledger} {P Q : Extent → Prop} {e : Extent} {n p : Nat}

/-- The empty ledger names no block. -/
theorem Ledger.names_none (empty : ∀ e, ¬ P e) : Ledger.Names (fun _ => none) P where
  known e he := absurd he (empty e)
  live p n h := by cases h

/-- What a ledger names is said of the blocks, however they are described. -/
theorem Ledger.Names.congr (names : ledger.Names P) (same : ∀ x, Q x ↔ P x) : ledger.Names Q where
  known e he := names.known e ((same e).mp he)
  live p n h := by
    obtain ⟨e, he, start⟩ := names.live p n h
    exact ⟨e, (same e).mpr he, start⟩

/-- A block is struck out. -/
theorem Ledger.Names.erase (names : ledger.Names P)
    (other : ∀ x, P x → x ≠ e → x.block ≠ e.block) :
    Ledger.Names (Function.update ledger (payloadOf e.block) none) fun x => P x ∧ x ≠ e where
  known x hx := by
    obtain ⟨n, hn, snug⟩ := names.known x hx.1
    refine ⟨n, ?_, snug⟩
    rw [Function.update_of_ne, hn]
    intro same
    exact other x hx.1 hx.2 (Nat.add_right_cancel same)
  live p n h := by
    by_cases hp : p = payloadOf e.block
    · rw [hp, Function.update_self] at h
      cases h
    · rw [Function.update_of_ne hp] at h
      obtain ⟨x, hx, rfl⟩ := names.live p n h
      refine ⟨x, ⟨hx, ?_⟩, rfl⟩
      rintro rfl
      exact hp rfl

/-- A block is entered. -/
theorem Ledger.Names.enter (names : ledger.Names P) (other : ∀ x, P x → x.block ≠ e.block)
    (snug : e.Snug n) :
    Ledger.Names (Function.update ledger (payloadOf e.block) (some n)) fun x => x = e ∨ P x where
  known x hx := by
    rcases hx with rfl | hx
    · exact ⟨n, Function.update_self .., snug⟩
    · obtain ⟨k, hk, snug'⟩ := names.known x hx
      refine ⟨k, ?_, snug'⟩
      rw [Function.update_of_ne, hk]
      intro same
      exact other x hx (Nat.add_right_cancel same)
  live p k h := by
    by_cases hp : p = payloadOf e.block
    · exact ⟨e, .inl rfl, hp.symm⟩
    · rw [Function.update_of_ne hp] at h
      obtain ⟨x, hx, start⟩ := names.live p k h
      exact ⟨x, .inr hx, start⟩

end Names

namespace Allocator

variable {a a' b c : Allocator} {es es' : List Extent} {shelves : Shelves} {e x : Extent} {n : Nat}
  {r : Request} {answer : Except Refusal Answer} {ledger : Ledger} {history : History}

/-! ## The invariant -/

/-- An allocator is sound, and its live blocks are those that a ledger names. -/
def Tracked (a : Allocator) (ledger : Ledger) : Prop :=
  ∃ es shelves, a.Sound es shelves ∧ ledger.Names (Live es)

/-- A block that is replaced by itself stays. -/
theorem live_replaced (live : Live es e) : x ∈ some e ∨ Live es x ∧ x ∉ some e ↔ Live es x := by
  simp only [Option.mem_def, Option.some.injEq]
  constructor
  · rintro (rfl | hx)
    · exact live
    · exact hx.1
  · intro hx
    by_cases he : e = x
    · exact .inl he
    · exact .inr ⟨hx, he⟩

/-- A change enters the new block and strikes out the one that went. -/
theorem Change.tracked_replace {e' : Extent} (sound : a.Sound es shelves)
    (names : ledger.Names (Live es)) (live : Live es e) (change : Change a a' es (some e) (some e'))
    (snug : e'.Snug n) :
    a'.Tracked (Ledger.grant (Function.update ledger (payloadOf e.block) none) n
      (some (payloadOf e'.block))) := by
  obtain ⟨es', shelves', sound', live'⟩ := change.sound
  have erased := names.erase (e := e) fun x hx hne same =>
    hne (sound.arena.tiles.block_inj hx.1 live.1 same)
  refine ⟨es', shelves', sound', (erased.enter (?_) snug).congr ?_⟩
  · intro x hx
    exact change.fresh e' rfl x hx.1 fun h => hx.2 (Option.some.inj h).symm
  · intro x
    rw [live' x]
    simp [eq_comm]

/-- A change strikes out the block that went. -/
theorem Change.tracked_erase (sound : a.Sound es shelves) (names : ledger.Names (Live es))
    (live : Live es e) (change : Change a a' es (some e) none) :
    a'.Tracked (Function.update ledger (payloadOf e.block) none) := by
  obtain ⟨es', shelves', sound', live'⟩ := change.sound
  have erased := names.erase (e := e) fun x hx hne same =>
    hne (sound.arena.tiles.block_inj hx.1 live.1 same)
  refine ⟨es', shelves', sound', erased.congr ?_⟩
  intro x
  rw [live' x]
  simp [eq_comm]

/-- A change enters the new block. -/
theorem Change.tracked_enter (names : ledger.Names (Live es))
    (change : Change a a' es none (some e)) (snug : e.Snug n) :
    a'.Tracked (ledger.grant n (some (payloadOf e.block))) := by
  obtain ⟨es', shelves', sound', live'⟩ := change.sound
  refine ⟨es', shelves', sound', (names.enter (?_) snug).congr ?_⟩
  · intro x hx
    exact change.fresh e rfl x hx (Option.not_mem_none x)
  · intro x
    rw [live' x]
    simp [eq_comm]

/-- **A request keeps the allocator sound,** and its settings as they are. -/
theorem Effect.sound (sound : a.Sound es shelves) (effect : Effect a es r answer a') :
    (∃ es' shelves', a'.Sound es' shelves') ∧ a'.config = a.config := by
  have of_change : ∀ {gone new : Option Extent}, Change a a' es gone new →
      (∃ es' shelves', a'.Sound es' shelves') ∧ a'.config = a.config := by
    intro gone new change
    obtain ⟨es', shelves', sound', -⟩ := change.sound
    exact ⟨⟨es', shelves', sound'⟩, change.config⟩
  cases effect with
  | refused => exact ⟨⟨es, shelves, sound⟩, rfl⟩
  | started sound' config empty => exact ⟨⟨_, _, sound'⟩, config⟩
  | empty wanted => exact ⟨⟨es, shelves, sound⟩, rfl⟩
  | handed wanted handed zero => exact of_change handed.toChange
  | carried live pos carried => exact of_change carried.toChange
  | dropped live change => exact of_change change
  | freed live change => exact of_change change
  | idle => exact ⟨⟨es, shelves, sound⟩, rfl⟩
  | outside live long => exact ⟨⟨es, shelves, sound⟩, rfl⟩
  | written live fits memory change => exact of_change change

/-- **A request keeps the ledger true.** -/
theorem Effect.tracked (sound : a.Sound es shelves) (names : ledger.Names (Live es))
    (effect : Effect a es r answer a') : a'.Tracked (ledger.record (r, answer)) := by
  have unchanged : a.Tracked ledger := ⟨es, shelves, sound, names⟩
  cases effect with
  | refused =>
    rw [Ledger.record_error]
    exact unchanged
  | started sound' config empty => exact ⟨_, _, sound', Ledger.names_none empty⟩
  | empty wanted =>
    rw [Ledger.record_fresh wanted]
    exact unchanged
  | handed wanted handed zero =>
    rw [Ledger.record_fresh wanted]
    exact handed.tracked_enter names handed.snug
  | carried live pos carried => exact carried.tracked_replace sound names live carried.snug
  | dropped live change => exact change.tracked_erase sound names live
  | freed live change => exact change.tracked_erase sound names live
  | idle => exact unchanged
  | outside live long => exact unchanged
  | written live fits memory change =>
    obtain ⟨es', shelves', sound', live'⟩ := change.sound
    exact ⟨es', shelves', sound', names.congr fun x => (live' x).trans (live_replaced live)⟩

end Allocator

/-! ## Runs -/

/-- `b` is reached from `a` by an initialisation that succeeded, and the requests of a history,
which were answered as it says. -/
inductive Reaches (a : Allocator) : History → Allocator → Prop
  /-- An initialisation succeeds. -/
  | start {b : Allocator} (answered : Allocator.init.outcome a = .ok () b) : Reaches a [] b
  /-- A request is answered. -/
  | next {history : History} {b c : Allocator} {r : Request} {answer : Except Refusal Answer}
      (run : Reaches a history b) (answered : r.serve.outcome b = .ok answer c) :
      Reaches a (history ++ [(r, answer)]) c

namespace Reaches

open Allocator

variable {a b c : Allocator} {history : History} {r : Request} {answer : Except Refusal Answer}

/-- An initialisation that succeeds leaves a sound allocator without live blocks. -/
theorem start_sound (truthful : a.source.Truthful)
    (answered : Allocator.init.outcome a = .ok () b) :
    ∃ es shelves, b.Sound es shelves ∧ b.config = a.config ∧ ∀ x, ¬ Live es x := by
  have high : a.high = a.memory.size := (Nat.zero_add _).trans truthful
  rcases init_cases high with ⟨error, -, -, refused⟩ | ⟨b', o, -, answered', shows', facts⟩
  · rw [answered] at refused
    cases refused
  · rw [answered] at answered'
    cases answered'
    exact ⟨_, _, shows'.sound, facts⟩

/-- A request that was answered had its effect. -/
theorem effect {es : List Extent} {shelves : Shelves} (sound : b.Sound es shelves)
    (answered : r.serve.outcome b = .ok answer c) : Effect b es r answer c := by
  obtain ⟨answer', c', answered', effect⟩ := serve_effect sound r
  rw [answered] at answered'
  cases answered'
  exact effect

/-- **After any run, the allocator is sound and its live blocks are those that were asked for.** -/
theorem tracked (truthful : a.source.Truthful) (run : Reaches a history b) :
    b.Tracked (asked history) := by
  induction run with
  | start answered =>
    obtain ⟨es, shelves, sound, -, empty⟩ := start_sound truthful answered
    exact ⟨es, shelves, sound, Ledger.names_none empty⟩
  | next run answered ih =>
    obtain ⟨es, shelves, sound, names⟩ := ih
    rw [asked_concat]
    exact (effect sound answered).tracked sound names

/-- The settings stay. -/
theorem config (truthful : a.source.Truthful) (run : Reaches a history b) :
    b.config = a.config := by
  induction run with
  | start answered =>
    obtain ⟨-, -, -, config, -⟩ := start_sound truthful answered
    exact config
  | next run answered ih =>
    obtain ⟨es, shelves, sound, -⟩ := tracked truthful run
    exact ((effect sound answered).sound sound).2.trans ih

end Reaches

/-! ## Runs of outlines -/

namespace Outline

/-- Whether the pointers that requests name are live when it is their turn. -/
def allLive (o : Outline) : List Request → Bool
  | [] => true
  | r :: rest =>
    r.pointer.all (fun p => o.extents.any fun e => e.allocated && payloadOf e.block == p) &&
      (o.serve r).2.allLive rest

/-- What comes of some requests, and the outline after them. -/
def serveAll (o : Outline) : List Request → History × Outline
  | [] => ([], o)
  | r :: rest =>
    let (history, last) := (o.serve r).2.serveAll rest
    ((r, (o.serve r).1) :: history, last)

end Outline

section Follow

open Allocator

variable {a b : Allocator} {o : Outline} {history : History} {requests : List Request}

/-- A run goes on as that of the outline does. -/
theorem Reaches.serveAll (run : Reaches a history b) (shows : b.Shows o)
    (live : o.allLive requests = true) :
    ∃ c, Reaches a (history ++ (o.serveAll requests).1) c ∧ c.Shows (o.serveAll requests).2 := by
  induction requests generalizing history b o with
  | nil => exact ⟨b, by rwa [Outline.serveAll, List.append_nil], shows⟩
  | cons r rest ih =>
    rw [Outline.allLive, Bool.and_eq_true] at live
    have named : ∀ p ∈ r.pointer, ∃ e, Live o.extents e ∧ payloadOf e.block = p := by
      intro p hp
      have found := live.1
      rw [Option.mem_def.mp hp, Option.all_some, List.any_eq_true] at found
      obtain ⟨e, he, same⟩ := found
      rw [Bool.and_eq_true, beq_iff_eq] at same
      exact ⟨e, ⟨he, same.1⟩, same.2⟩
    obtain ⟨b', served⟩ := served_live shows named
    obtain ⟨c, run', shows'⟩ := ih (run.next served.answered) served.shows live.2
    rw [List.append_assoc] at run'
    exact ⟨c, run', shows'⟩

/-- **What an outline answers from an initialisation on is a run.** -/
theorem exists_reaches (requests : List Request) (truthful : a.source.Truthful)
    (planned : a.terms.init = .ok o) (live : o.allLive requests = true) :
    ∃ b, Reaches a (o.serveAll requests).1 b ∧ b.Shows (o.serveAll requests).2 := by
  rcases init_cases ((Nat.zero_add _).trans truthful) with ⟨error, -, refused, -⟩ |
    ⟨b, o', planned', answered, shows, -⟩
  · rw [planned] at refused
    cases refused
  · rw [planned] at planned'
    cases planned'
    exact (Reaches.start answered).serveAll shows live

end Follow

end TaggedHeap
