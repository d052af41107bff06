import TaggedHeap.Proofs.Sound
import TaggedHeap.Proofs.Totality

/-!
# Correct allocators

An audit does not look at the pattern in free blocks, since it makes the same tests on every heap.
So on a hardened heap there is more to being sound than to pass one: `Correct` adds the pattern, and
`correct_iff` says that nothing else is missing.  It is stated without extents or shelves, in terms
of the audit and of `Allocator.layout`, the blocks that a walk through the heap meets.
-/

namespace TaggedHeap

open Memory

namespace Allocator

variable {a : Allocator} {es : List Extent} {shelves : Shelves} {e : Extent} {stats : Stats}
  {filled : Extent → Prop}

/-- The blocks that a walk through a heap meets, none if it finds something wrong. -/
def layout (a : Allocator) : List Extent :=
  ((Arena.walk a.memory a.starts (a.high - wordSize) firstBlock true).toOption).getD []

/-- The allocated blocks of a heap. -/
def taken (a : Allocator) : List Extent := a.layout.filter (·.allocated)

/-- The live payloads of a heap. -/
def payloads (a : Allocator) : List Nat := a.taken.map fun e => payloadOf e.block

/-- An allocator passes an audit and, where it makes self-checks, its free blocks
hold the pattern. -/
structure Correct (a : Allocator) : Prop where
  /-- An audit finds nothing wrong. -/
  passes : ∃ stats, a.audit = .ok stats
  /-- Nobody wrote into a free block. -/
  unspoiled : a.hardened = true → ∀ e ∈ a.layout, e.allocated = false → Poisoned a.memory e

/-- A walk through a sound allocator meets its extents. -/
theorem Sound.layout (sound : a.Sound es shelves filled) : a.layout = es := by
  have met : Arena.walk a.memory a.starts (a.high - wordSize) firstBlock true = .ok es :=
    walk_complete sound.arena.walked
  rw [Allocator.layout, met]
  rfl

/-- An allocated block that a walk meets is a live one. -/
theorem Sound.mem_taken (sound : a.Sound es shelves filled) : e ∈ a.taken ↔ Live es e := by
  rw [taken, sound.layout, List.mem_filter]
  rfl

/-- A live payload is that of a live block. -/
theorem Sound.mem_payloads (sound : a.Sound es shelves filled) {p : Nat} :
    p ∈ a.payloads ↔ ∃ e, Live es e ∧ payloadOf e.block = p := by
  simp only [payloads, List.mem_map, sound.mem_taken]

/-- A payload is named once. -/
theorem Sound.nodup_payloads (sound : a.Sound es shelves filled) : a.payloads.Nodup := by
  have blocks : ((es.filter (·.allocated)).map (·.block)).Nodup :=
    sound.arena.tiles.nodup.sublist (List.filter_sublist.map _)
  have payloads_eq : a.payloads = ((es.filter (·.allocated)).map (·.block)).map (· + wordSize) := by
    rw [payloads, taken, sound.layout, List.map_map]
    rfl
  rw [payloads_eq]
  exact blocks.map fun _ _ => Nat.add_right_cancel

/-- **The correct allocators are the sound ones.** -/
theorem correct_iff : a.Correct ↔ ∃ es shelves, a.Sound es shelves := by
  constructor
  · rintro ⟨⟨stats, passes⟩, unspoiled⟩
    obtain ⟨es, shelves, sound, -⟩ := sound_of_audit passes
    rw [sound.layout] at unspoiled
    exact ⟨es, shelves, sound.refill fun e he free hard => unspoiled hard e he free⟩
  · rintro ⟨es, shelves, sound⟩
    refine ⟨⟨_, sound.audit⟩, ?_⟩
    rw [sound.layout]
    exact fun hard e he free => sound.arena.poisoned e he free hard

/-- An audit counts the live payloads. -/
theorem length_payloads (h : a.audit = .ok stats) : a.payloads.length = stats.allocatedBlocks := by
  obtain ⟨es, shelves, sound, rfl⟩ := sound_of_audit h
  rw [payloads, taken, sound.layout, List.length_map, Stats.ofExtents,
    List.partition_eq_filter_filter]

/-- An empty heap of 64 bytes, the free block of which does not hold the pattern. -/
def spare (hardened : Bool) : Allocator where
  source := ⟨.buffer, 64, (((Memory.empty.extend 64).putWord 8 50).putWord 48 50).putWord 56 1, 0⟩
  lists := FreeLists.empty.setHead (.of 48) (some 8)
  starts := .empty
  config := ⟨0, .bestFit, hardened⟩
  ready := true

/-- An audit finds nothing wrong with it, though on a hardened heap it is not correct. -/
theorem audit_spare (hardened : Bool) : (spare hardened).audit = .ok ⟨64, 0, 0, 1, 48, 48⟩ := by
  have small : (spare hardened).arena.memory.size < 65 := by
    cases hardened <;> decide +kernel
  show (spare hardened).arena.audit (spare hardened).hardened (spare hardened).high = _
  rw [← auditWithin_eq (high_lt _) small]
  cases hardened <;> decide +kernel

end Allocator

end TaggedHeap
