import TaggedHeap.Proofs.Correct
import TaggedHeap.Proofs.Runs

/-!
# Turns of clients

Several clients can use one heap, if each of them operates on payloads of its own.
`Turn a a' mine mine'` says that a client who had the payloads `mine` has `mine'` after its turn,
and that the others do not notice: whatever payloads there were besides are there still, and hold
what they held.

* `Turn.frame` and `Turn.perm`: a turn on some payloads is one on more, and the order of payloads
  does not matter.
* `Change.turn`: a change of a sound allocator is a turn.
* `Effect.turn`: so is every request but an initialisation, and `Request.settle` says what its
  client has afterwards.
-/

namespace TaggedHeap

open Memory

/-! ## What a client has -/

/-- The payload of an extent, if there is one. -/
def payloadsOf (e : Option Extent) : List Nat := (e.map fun e => payloadOf e.block).toList

@[simp] theorem payloadsOf_none : payloadsOf none = [] := rfl

@[simp] theorem payloadsOf_some (e : Extent) : payloadsOf (some e) = [payloadOf e.block] := rfl

/-- The payloads that a client has after a request was answered, if it had those
in `mine` before. -/
def Request.settle (r : Request) (answer : Except Refusal Answer) (mine : List Nat) : List Nat :=
  match r, answer with
  | .realloc (some q) _, .ok (.payload p) => p.toList ++ mine.erase q
  | .free (some q), .ok _ => mine.erase q
  | _, .ok (.payload p) => p.toList ++ mine
  | _, _ => mine

namespace Request

variable {r : Request} {n : Nat} {mine : List Nat}

/-- A refusal leaves a client with what it has. -/
theorem settle_error (r : Request) (error : Refusal) (mine : List Nat) :
    r.settle (.error error) mine = mine := by
  cases r with
  | realloc payload n => cases payload <;> rfl
  | free payload => cases payload <;> rfl
  | _ => rfl

/-- A request for a new payload adds it, if there is one. -/
theorem settle_fresh (wanted : r.fresh = some n) (p : Option Nat) :
    r.settle (.ok (.payload p)) mine = p.toList ++ mine := by
  cases r with
  | alloc n => rfl
  | calloc n size => rfl
  | realloc payload n =>
    cases payload with
    | none => rfl
    | some q => cases wanted
  | init => cases wanted
  | free payload => cases wanted
  | write payload start bytes => cases wanted

end Request

namespace Allocator

variable {a a' : Allocator} {es : List Extent} {shelves : Shelves} {gone new : Option Extent}
  {e : Extent} {mine mine' mine'' : List Nat} {r : Request} {answer : Except Refusal Answer}

/-! ## Turns -/

/-- `a'` came from `a` by a turn of a client who had the payloads `mine` before, and has `mine'`
afterwards.  The payloads of the others are called `rest`. -/
structure Turn (a a' : Allocator) (mine mine' : List Nat) : Prop where
  /-- The allocator is correct again. -/
  correct : a'.Correct
  /-- The settings stay. -/
  config : a'.config = a.config
  /-- All other payloads stay, and no others come. -/
  owned : ∀ rest, (mine ++ rest).Perm a.payloads → (mine' ++ rest).Perm a'.payloads
  /-- Their blocks are the same, and hold what they held. -/
  spared : ∀ rest, (mine ++ rest).Perm a.payloads → ∀ e ∈ a.taken, payloadOf e.block ∈ rest →
    e ∈ a'.taken ∧ ∀ j, Span (payloadOf e.block) e.stop j → a'.memory.byte j = a.memory.byte j

/-- To do nothing is a turn. -/
theorem Turn.refl (correct : a.Correct) (mine : List Nat) : Turn a a mine mine where
  correct := correct
  config := rfl
  owned _ perm := perm
  spared _ _ _ he _ := ⟨he, fun _ _ => rfl⟩

/-- A client may have more than its turn is about. -/
theorem Turn.frame (h : Turn a a' mine mine') (more : List Nat) :
    Turn a a' (mine ++ more) (mine' ++ more) where
  correct := h.correct
  config := h.config
  owned rest perm := by
    rw [List.append_assoc] at perm ⊢
    exact h.owned _ perm
  spared rest perm e he other := by
    rw [List.append_assoc] at perm
    exact h.spared _ perm e he (List.mem_append_right _ other)

/-- What a client has comes in any order. -/
theorem Turn.perm {those those' : List Nat} (h : Turn a a' mine mine') (before : those.Perm mine)
    (afterwards : mine'.Perm those') : Turn a a' those those' where
  correct := h.correct
  config := h.config
  owned rest perm :=
    (afterwards.symm.append_right rest).trans
      (h.owned rest ((before.symm.append_right rest).trans perm))
  spared rest perm := h.spared rest ((before.symm.append_right rest).trans perm)

/-! ## Changes are turns -/

/-- If the blocks that go have payloads of one client, then the other payloads are those of the
blocks that stay. -/
theorem Sound.mem_rest {rest : List Nat} (sound : a.Sound es shelves) (live : ∀ e ∈ gone, Live es e)
    (perm : (payloadsOf gone ++ rest).Perm a.payloads) {q : Nat} :
    q ∈ rest ↔ ∃ x, (Live es x ∧ x ∉ gone) ∧ payloadOf x.block = q := by
  have nodup : (payloadsOf gone ++ rest).Nodup := perm.nodup_iff.mpr sound.nodup_payloads
  have apart := (List.nodup_append.mp nodup).2.2
  constructor
  · intro hq
    have known : q ∈ a.payloads := perm.mem_iff.mp (List.mem_append_right _ hq)
    obtain ⟨x, hx, rfl⟩ := sound.mem_payloads.mp known
    refine ⟨x, ⟨hx, ?_⟩, rfl⟩
    rintro rfl
    exact apart _ (List.mem_singleton_self _) _ hq rfl
  · rintro ⟨x, ⟨hx, stays⟩, rfl⟩
    have known : payloadOf x.block ∈ a.payloads := sound.mem_payloads.mpr ⟨x, hx, rfl⟩
    rcases List.mem_append.mp (perm.mem_iff.mpr known) with goes | hq
    · cases gone with
      | none => cases goes
      | some y =>
        have same : x.block = y.block := Nat.add_right_cancel (List.mem_singleton.mp goes)
        exact absurd (congrArg some (sound.arena.tiles.block_inj hx.1 (live y rfl).1 same).symm)
          stays
    · exact hq

/-- **A change of a sound allocator is a turn of whoever has the block that goes.** -/
theorem Change.turn (sound : a.Sound es shelves) (live : ∀ e ∈ gone, Live es e)
    (change : Change a a' es gone new) : Turn a a' (payloadsOf gone) (payloadsOf new) := by
  obtain ⟨es', shelves', sound', live'⟩ := change.sound
  refine { correct := correct_iff.mpr ⟨es', shelves', sound'⟩, config := change.config,
           owned := fun rest perm => ?_, spared := fun rest perm e he other => ?_ }
  · have nodup : (payloadsOf gone ++ rest).Nodup := perm.nodup_iff.mpr sound.nodup_payloads
    have nodup' : (payloadsOf new ++ rest).Nodup := by
      have alone : (payloadsOf new).Nodup := by cases new <;> simp
      refine List.nodup_append.mpr ⟨alone, (List.nodup_append.mp nodup).2.1, ?_⟩
      rintro p hp q hq rfl
      obtain ⟨x, ⟨hx, stays⟩, same⟩ := (sound.mem_rest live perm).mp hq
      cases new with
      | none => cases hp
      | some e =>
        rw [payloadsOf_some, List.mem_singleton] at hp
        exact change.fresh e rfl x hx stays (Nat.add_right_cancel (same.trans hp))
    apply (List.perm_ext_iff_of_nodup nodup' sound'.nodup_payloads).mpr
    intro p
    rw [sound'.mem_payloads, List.mem_append, sound.mem_rest live perm]
    simp only [live']
    constructor
    · rintro (hp | ⟨x, hx, start⟩)
      · cases new with
        | none => cases hp
        | some e => exact ⟨e, .inl rfl, (List.mem_singleton.mp hp).symm⟩
      · exact ⟨x, .inr hx, start⟩
    · rintro ⟨x, rfl | hx, start⟩
      · exact .inl (List.mem_singleton.mpr start.symm)
      · exact .inr ⟨x, hx, start⟩
  · obtain ⟨x, ⟨hx, stays⟩, same⟩ := (sound.mem_rest live perm).mp other
    have he := sound.mem_taken.mp he
    obtain rfl : x = e := sound.arena.tiles.block_inj hx.1 he.1 (Nat.add_right_cancel same)
    exact ⟨sound'.mem_taken.mpr ((live' x).mpr (.inr ⟨hx, stays⟩)), change.kept x hx stays⟩

/-- **A request is a turn of whoever has the payload that it names.** -/
theorem Effect.turn (sound : a.Sound es shelves) (effect : Effect a es r answer a')
    (later : r ≠ .init) (own : ∀ p ∈ r.pointer, p ∈ mine) :
    Turn a a' mine (r.settle answer mine) := by
  have idle : Turn a a mine mine := .refl (correct_iff.mpr ⟨es, shelves, sound⟩) mine
  -- the payload that goes is one of the client's, so the others of its payloads are a frame
  have replaced : ∀ {e : Extent} {new : Option Extent}, Live es e → payloadOf e.block ∈ mine →
      Change a a' es (some e) new →
      Turn a a' mine (payloadsOf new ++ mine.erase (payloadOf e.block)) := by
    intro e new live mem change
    have gone : ∀ x ∈ some e, Live es x := by
      rintro _ ⟨⟩
      exact live
    exact ((change.turn sound gone).frame (mine.erase (payloadOf e.block))).perm
      (List.perm_cons_erase mem) (.refl _)
  cases effect with
  | refused =>
    rw [Request.settle_error]
    exact idle
  | started sound' config empty => exact absurd rfl later
  | empty wanted =>
    rw [Request.settle_fresh wanted]
    exact idle
  | handed wanted handed zero =>
    rw [Request.settle_fresh wanted]
    exact (handed.toChange.turn sound fun x hx => absurd hx (Option.not_mem_none x)).frame mine
  | carried live pos carried => exact replaced live (own _ rfl) carried.toChange
  | dropped live change => exact replaced live (own _ rfl) change
  | freed live change => exact replaced live (own _ rfl) change
  | idle => exact idle
  | outside live long => exact idle
  | written live fits memory change =>
    exact (replaced live (own _ rfl) change).perm (.refl _) (List.perm_cons_erase (own _ rfl)).symm

end Allocator

end TaggedHeap
