import Mathlib.Data.List.FinRange
import TaggedHeap.Proofs.Correct
import TaggedHeap.Proofs.Placement
import TaggedHeap.Proofs.Runs
import TaggedHeap.Proofs.WellFormed

/-!
# Which block a search finds

A search stops at the first class in which something fits, and still finds the best block of the
whole heap.

* `scan_bestFit` and `scan_firstFit` say which block of one shelf a scan answers.  The former is an
  induction with the best block so far: that one is larger than what is asked for, since the scan
  would have ended at it otherwise.
* `findSome?_upFrom` goes from one shelf to all.  Classes are intervals of sizes, one behind the
  other, so what lies in an earlier class than another block is smaller (`SizeClass.lt_of_of_lt`).
* `search_preferred` puts both together for every heap that passes an audit.

`Suits` says of a block that it is free and large enough, and `Preferred` that it is the one that a
policy wants.
-/

namespace TaggedHeap

open Memory

variable {size b : Nat} {sizeOf : Nat → Nat} {l : List Nat} {best : Option (Nat × Nat)}

/-! ## Scanning one shelf -/

/-- The first one on a shelf of which `P` holds is `b`. -/
def FirstOn (P : Nat → Prop) (l : List Nat) (b : Nat) : Prop :=
  ∃ before behind, l = before ++ b :: behind ∧ P b ∧ ∀ x ∈ before, ¬ P x

/-- The front of a shelf is the first one there. -/
theorem firstOn_head {P : Nat → Prop} (holds : P b) : FirstOn P (b :: l) b :=
  ⟨[], l, rfl, holds, fun _ h => absurd h List.not_mem_nil⟩

/-- What is first on a shelf stays so when something else is put in front. -/
theorem FirstOn.cons {P : Nat → Prop} {x : Nat} (first : FirstOn P l b) (other : ¬ P x) :
    FirstOn P (x :: l) b := by
  obtain ⟨before, behind, rfl, holds, none_before⟩ := first
  exact ⟨x :: before, behind, rfl, holds, List.forall_mem_cons.mpr ⟨other, none_before⟩⟩

/-- What is first on a shelf is on it. -/
theorem FirstOn.mem {P : Nat → Prop} (first : FirstOn P l b) : b ∈ l := by
  obtain ⟨before, behind, rfl, -⟩ := first
  exact List.mem_append_right _ List.mem_cons_self

/-- What is first on a shelf has what was looked for. -/
theorem FirstOn.holds {P : Nat → Prop} (first : FirstOn P l b) : P b := by
  obtain ⟨before, behind, -, holds, -⟩ := first
  exact holds

/-- **A scan for the first fit answers the first block that is large enough.** -/
theorem scan_firstFit (found : scan .firstFit size sizeOf l none = some b) :
    FirstOn (fun x => size ≤ sizeOf x) l b := by
  induction l with
  | nil => cases found
  | cons x rest ih =>
    by_cases large : size ≤ sizeOf x
    · rw [scan, if_pos ⟨large, .inl rfl⟩] at found
      cases found
      exact firstOn_head large
    · rw [scan, if_neg fun h => large h.1, if_neg large] at found
      exact (ih found).cons large

/-- The better one of two is no larger than either. -/
theorem better_snd_le (best : Option (Nat × Nat)) (x s : Nat) :
    (FreeLists.better best x s).2 ≤ s ∧ ∀ q ∈ best, (FreeLists.better best x s).2 ≤ q.2 := by
  cases best with
  | none => exact ⟨Nat.le_refl _, fun q hq => by cases hq⟩
  | some p =>
    rw [FreeLists.better]
    split
    next smaller =>
      refine ⟨Nat.le_refl _, ?_⟩
      rintro _ ⟨⟩
      exact Nat.le_of_lt smaller
    next larger =>
      refine ⟨Nat.not_lt.mp larger, ?_⟩
      rintro _ ⟨⟩
      exact Nat.le_refl _

/-- The better one of two is the new one, and smaller then, or it is the best one so far. -/
theorem better_cases (best : Option (Nat × Nat)) (x s : Nat) :
    (FreeLists.better best x s = (x, s) ∧ ∀ q ∈ best, s < q.2) ∨
      FreeLists.better best x s ∈ best := by
  cases best with
  | none => exact .inl ⟨rfl, fun q hq => by cases hq⟩
  | some p =>
    rw [FreeLists.better]
    split
    next smaller =>
      refine .inl ⟨rfl, ?_⟩
      rintro _ ⟨⟩
      exact smaller
    next => exact .inr rfl

/-- A block on a shelf is the first one of the smallest that are large enough. -/
structure Smallest (size : Nat) (sizeOf : Nat → Nat) (l : List Nat) (b : Nat) : Prop where
  /-- It is large enough. -/
  fits : size ≤ sizeOf b
  /-- None that is large enough is smaller. -/
  least : ∀ x ∈ l, size ≤ sizeOf x → sizeOf b ≤ sizeOf x
  /-- It is the first one of its size. -/
  first : FirstOn (fun x => sizeOf x = sizeOf b) l b

/-- **A scan for the best fit answers the first one of the smallest blocks that are large enough,**
or the best one so far, if none on the shelf is smaller than that. -/
theorem scan_bestFit (above : ∀ q ∈ best, size < q.2)
    (found : scan .bestFit size sizeOf l best = some b) :
    (∃ q ∈ best, q.1 = b ∧ ∀ x ∈ l, size ≤ sizeOf x → q.2 ≤ sizeOf x) ∨
      (∀ q ∈ best, sizeOf b < q.2) ∧ Smallest size sizeOf l b := by
  induction l generalizing best with
  | nil =>
    obtain ⟨q, hq, rfl⟩ := Option.map_eq_some_iff.mp found
    exact .inl ⟨q, hq, rfl, fun x hx => absurd hx List.not_mem_nil⟩
  | cons x rest ih =>
    rw [scan] at found
    by_cases exact_fit : sizeOf x = size
    · rw [if_pos ⟨Nat.le_of_eq exact_fit.symm, .inr exact_fit⟩] at found
      cases found
      refine .inr ⟨fun q hq => exact_fit ▸ above q hq, Nat.le_of_eq exact_fit.symm, ?_,
        firstOn_head rfl⟩
      exact fun y _ large => exact_fit ▸ large
    rw [if_neg fun h => h.2.elim (fun h => by cases h) exact_fit] at found
    by_cases large : size ≤ sizeOf x
    · rw [if_pos large] at found
      have larger : size < sizeOf x := Nat.lt_of_le_of_ne large (Ne.symm exact_fit)
      obtain ⟨le_new, le_best⟩ := better_snd_le best x (sizeOf x)
      have above' : ∀ q ∈ some (FreeLists.better best x (sizeOf x)), size < q.2 := by
        rintro _ ⟨⟩
        rcases better_cases best x (sizeOf x) with ⟨new, -⟩ | old
        · rw [new]
          exact larger
        · exact above _ old
      rcases ih above' found with ⟨_, ⟨⟩, rfl, least⟩ | ⟨smaller, smallest⟩
      · rcases better_cases best x (sizeOf x) with ⟨new, less⟩ | old
        · -- The new block is the best one, and stays so.
          rw [new] at least ⊢
          exact .inr ⟨less, large, List.forall_mem_cons.mpr ⟨fun _ => Nat.le_refl _, least⟩,
            firstOn_head rfl⟩
        · exact .inl ⟨_, old, rfl, List.forall_mem_cons.mpr ⟨fun _ => le_new, least⟩⟩
      · have less := smaller _ rfl
        refine .inr ⟨fun q hq => Nat.lt_of_lt_of_le less (le_best q hq), smallest.fits,
          List.forall_mem_cons.mpr ⟨fun _ => ?_, smallest.least⟩, smallest.first.cons ?_⟩
        · exact Nat.le_of_lt (Nat.lt_of_lt_of_le less le_new)
        · exact Nat.ne_of_gt (Nat.lt_of_lt_of_le less le_new)
    · rw [if_neg large] at found
      rcases ih above found with ⟨q, hq, rfl, least⟩ | ⟨smaller, smallest⟩
      · exact .inl ⟨q, hq, rfl, List.forall_mem_cons.mpr ⟨fun fits => absurd fits large, least⟩⟩
      · refine .inr ⟨smaller, smallest.fits,
          List.forall_mem_cons.mpr ⟨fun fits => absurd fits large, smallest.least⟩,
          smallest.first.cons ?_⟩
        exact Nat.ne_of_lt (Nat.lt_of_lt_of_le (Nat.not_le.mp large) smallest.fits)

/-! ## From one shelf to all -/

/-- **Sizes in an earlier class are smaller.** -/
theorem SizeClass.lt_of_of_lt {s t : Nat} (h : SizeClass.of s < SizeClass.of t) : s < t :=
  Nat.not_le.mp fun le => Fin.not_le.mpr h (SizeClass.of_mono le)

/-- Classes come in ascending order. -/
theorem SizeClass.sorted_upFrom (c : SizeClass) : c.upFrom.Pairwise (· < ·) :=
  (List.pairwise_lt_finRange classCount).drop

/-- What is found in the classes from one on is found in one of them, and nothing is found in those
of them that are before it. -/
theorem findSome?_upFrom {α : Type} {f : SizeClass → Option α} {x : α} {c : SizeClass}
    (found : c.upFrom.findSome? f = some x) :
    ∃ d, f d = some x ∧ ∀ d', c ≤ d' → d' < d → f d' = none := by
  obtain ⟨before, d, behind, split, here, nothing⟩ := List.findSome?_eq_some_iff.mp found
  refine ⟨d, here, fun d' from_c less => nothing d' ?_⟩
  have sorted := split ▸ SizeClass.sorted_upFrom c
  have listed : d' ∈ before ++ d :: behind := split ▸ SizeClass.mem_upFrom.mpr from_c
  rcases List.mem_append.mp listed with first | last
  · exact first
  · have ordered := (List.pairwise_append.mp sorted).2.1
    rcases List.mem_cons.mp last with rfl | last
    · exact absurd less (lt_irrefl _)
    · exact absurd ((List.pairwise_cons.mp ordered).1 d' last) (lt_asymm less)

namespace Allocator

variable {a : Allocator} {es : List Extent} {shelves : Shelves} {e x : Extent} {stats : Stats}
  {filled : Extent → Prop}

/-- A free block of a heap with at least `size` bytes. -/
def Suits (a : Allocator) (size : Nat) (e : Extent) : Prop :=
  e ∈ a.layout ∧ e.allocated = false ∧ size ≤ e.size

/-- Of all free blocks that are large enough, `e` is the one that a policy wants, where `shelf`
holds those of its class.  For the best fit it is a smallest one of all, and the first one of these
on its shelf; for the first fit, none of the others is in an earlier class, and it is the first one
on its shelf. -/
def Preferred (a : Allocator) (size : Nat) (shelf : List Nat) (e : Extent) : FitPolicy → Prop
  | .bestFit =>
    (∀ x, a.Suits size x → e.size ≤ x.size) ∧
      FirstOn (fun b => sizeAt a.memory b = e.size) shelf e.block
  | .firstFit =>
    (∀ x, a.Suits size x → SizeClass.of e.size ≤ SizeClass.of x.size) ∧
      FirstOn (fun b => size ≤ sizeAt a.memory b) shelf e.block

/-- A block that is large enough stands on the shelf of its class. -/
theorem Sound.mem_shelf (sound : a.Sound es shelves filled) (suits : a.Suits size x) :
    x.block ∈ shelves (.of x.size) ∧ size ≤ TaggedHeap.sizeAt a.memory x.block := by
  obtain ⟨mem, free, fits⟩ := suits
  rw [sound.layout] at mem
  rw [sound.sizeAt mem]
  exact ⟨(sound.arena.filed _ _).mpr ⟨x, mem, free, rfl, rfl⟩, fits⟩

/-- What stands on a shelf is a block of that class, and of the size that its header tells. -/
theorem Sound.of_mem_shelf {c : SizeClass} (sound : a.Sound es shelves filled)
    (listed : b ∈ shelves c) (fits : size ≤ TaggedHeap.sizeAt a.memory b) :
    ∃ e, a.Suits size e ∧ e.block = b ∧ SizeClass.of e.size = c ∧
      TaggedHeap.sizeAt a.memory b = e.size := by
  obtain ⟨e, he, free, rfl, class_eq⟩ := (sound.arena.filed c b).mp listed
  rw [sound.sizeAt he] at fits ⊢
  exact ⟨e, ⟨by rwa [sound.layout], free, fits⟩, rfl, class_eq, rfl⟩

/-- What a scan of a shelf finds is the one that the policy wants, if no earlier class has a block
that is large enough. -/
theorem Sound.preferred_of_scan {c : SizeClass} {fit : FitPolicy}
    (sound : a.Sound es shelves filled)
    (found : scan fit size (TaggedHeap.sizeAt a.memory) (shelves c) none = some b)
    (earlier : ∀ x, a.Suits size x → c ≤ SizeClass.of x.size) :
    ∃ e, a.Suits size e ∧ e.block = b ∧ a.Preferred size (shelves (.of e.size)) e fit := by
  cases fit with
  | bestFit =>
    rcases scan_bestFit (fun q hq => by cases hq) found with ⟨q, hq, -⟩ | ⟨-, smallest⟩
    · cases hq
    obtain ⟨e, suits, rfl, rfl, told⟩ := sound.of_mem_shelf smallest.first.mem smallest.fits
    refine ⟨e, suits, rfl, fun x hx => ?_, told ▸ smallest.first⟩
    obtain ⟨listed, fits⟩ := sound.mem_shelf hx
    rcases (earlier x hx).lt_or_eq with later | same
    · exact Nat.le_of_lt (SizeClass.lt_of_of_lt later)
    · rw [← same] at listed
      have least := smallest.least x.block listed fits
      have mem : x ∈ es := sound.layout ▸ hx.1
      rwa [told, sound.sizeAt mem] at least
  | firstFit =>
    have first := scan_firstFit found
    obtain ⟨e, suits, rfl, rfl, -⟩ := sound.of_mem_shelf first.mem first.holds
    exact ⟨e, suits, rfl, earlier, first⟩

/-- A scan of a shelf finds nothing only if none of its blocks is large enough. -/
theorem Sound.not_suits_of_scan {fit : FitPolicy} (sound : a.Sound es shelves filled)
    (nothing : scan fit size (TaggedHeap.sizeAt a.memory) (shelves (.of x.size)) none = none) :
    ¬ a.Suits size x := by
  intro suits
  obtain ⟨listed, fits⟩ := sound.mem_shelf suits
  have found : (scan fit size (TaggedHeap.sizeAt a.memory) (shelves (.of x.size)) none).isSome :=
    scan_isSome (.inl ⟨x.block, listed, fits⟩)
  rw [nothing] at found
  cases found

/-- **A search ends, and finds the block that the policy wants if any is large enough,** in every
heap that passes an audit.  Although it stops at the first class with a block that is large enough,
the best fit is the best one of the whole heap. -/
theorem search_preferred (passes : a.audit = .ok stats) (large : minBlockSize ≤ size)
    (fit : FitPolicy) :
    ∃ (shelves : Shelves) (found : Option Nat),
      (∀ c, Visits a.memory (a.lists.head c) (shelves c)) ∧
      a.lists.findBlock a.hardened a.memory fit size = .ok found ∧
      (found = none ↔ ∀ x, ¬ a.Suits size x) ∧
      ∀ b ∈ found, ∃ e, a.Suits size e ∧ e.block = b ∧
        a.Preferred size (shelves (.of e.size)) e fit := by
  obtain ⟨es, shelves, sound, -⟩ := sound_of_audit passes
  have visited := (sound.arena.wellFormed sound.size.symm).visited
  refine ⟨shelves, _, visited, findBlock_eq sound.arena.shelving large, ?_⟩
  have from_size : ∀ x, a.Suits size x → SizeClass.of size ≤ SizeClass.of x.size :=
    fun x hx => SizeClass.of_mono hx.2.2
  cases found : (SizeClass.of size).upFrom.findSome?
      fun c => scan fit size (TaggedHeap.sizeAt a.memory) (shelves c) none with
  | none =>
    refine ⟨iff_of_true rfl fun x hx => ?_, fun b hb => by cases hb⟩
    have nothing :=
      List.findSome?_eq_none_iff.mp found _ (SizeClass.mem_upFrom.mpr (from_size x hx))
    exact sound.not_suits_of_scan nothing hx
  | some b =>
    obtain ⟨c, here, nothing⟩ := findSome?_upFrom found
    have earlier : ∀ x, a.Suits size x → c ≤ SizeClass.of x.size := fun x hx =>
      not_lt.mp fun before =>
        sound.not_suits_of_scan (nothing _ (from_size x hx) before) hx
    obtain ⟨e, suits, rfl, preferred⟩ := sound.preferred_of_scan here earlier
    refine ⟨iff_of_false (Option.some_ne_none _) fun none_suits => none_suits e suits, ?_⟩
    rintro _ ⟨⟩
    exact ⟨e, suits, rfl, preferred⟩

/-- A block of a heap that passes an audit is known by where it starts. -/
theorem eq_of_mem_layout (passes : a.audit = .ok stats) (he : e ∈ a.layout) (hx : x ∈ a.layout)
    (same : e.block = x.block) : e = x := by
  obtain ⟨es, shelves, sound, -⟩ := sound_of_audit passes
  rw [sound.layout] at he hx
  exact sound.arena.tiles.block_inj he hx same

/-- There is a heap with five free blocks, four of which have room for 80 bytes: two of 96 and one
of 112 in one class, and one of 144 in another.  None has room for 160. -/
theorem exists_scattered : ∃ a : Allocator, (∃ stats, a.audit = .ok stats) ∧
    a.layout = [⟨8, 112, false⟩, ⟨120, 32, true⟩, ⟨152, 96, false⟩, ⟨248, 32, true⟩,
      ⟨280, 96, false⟩, ⟨376, 32, true⟩, ⟨408, 144, false⟩, ⟨552, 32, true⟩, ⟨584, 64, false⟩,
      ⟨648, 32, true⟩] ∧
    a.lists.findBlock a.hardened a.memory .bestFit 80 = .ok (some 152) ∧
    a.lists.findBlock a.hardened a.memory .firstFit 80 = .ok (some 8) ∧
    ∀ fit, a.lists.findBlock a.hardened a.memory fit 160 = .ok none := by
  have truthful : (Source.buffer 1024).Truthful :=
    Source.truthful_make (rfl : Source.make .buffer 1024 = .ok (.buffer 1024))
  obtain ⟨a, -, shows⟩ := exists_reaches [.alloc 104, .alloc 1, .alloc 88, .alloc 1, .alloc 88,
      .alloc 1, .alloc 136, .alloc 1, .alloc 56, .alloc 1, .free (some 288), .free (some 160),
      .free (some 16), .free (some 416), .free (some 592)] truthful
    (rfl : (Allocator.create (.buffer 1024) { chunk := 0 }).terms.init = .ok _) (by decide +kernel)
  refine ⟨a, ⟨_, shows.sound.audit⟩, shows.sound.layout.trans (by decide +kernel),
    (shows.findBlock_by (by decide) _).trans (by decide +kernel),
    (shows.findBlock_by (by decide) _).trans (by decide +kernel), fun fit => ?_⟩
  exact (shows.findBlock_by (by decide) fit).trans (by cases fit <;> decide +kernel)

/-- Of four blocks that are large enough, the best fit is the first one on its shelf of the two that
are the smallest, and the first fit is the one in front of these.  Where none is large enough, none
is found. -/
theorem search_preferred_of_scattered :
    ∃ a : Allocator,
      (∃ shelves : Shelves, (∀ c, Visits a.memory (a.lists.head c) (shelves c)) ∧
        a.lists.findBlock a.hardened a.memory .bestFit 80 = .ok (some 152) ∧
        a.Preferred 80 (shelves (.of 96)) ⟨152, 96, false⟩ .bestFit ∧
        a.Suits 80 ⟨280, 96, false⟩) ∧
      (∃ shelves : Shelves, (∀ c, Visits a.memory (a.lists.head c) (shelves c)) ∧
        a.lists.findBlock a.hardened a.memory .firstFit 80 = .ok (some 8) ∧
        a.Preferred 80 (shelves (.of 112)) ⟨8, 112, false⟩ .firstFit ∧
        a.Suits 80 ⟨408, 144, false⟩) ∧
      ∀ fit x, a.lists.findBlock a.hardened a.memory fit 160 = .ok none ∧ ¬ a.Suits 160 x := by
  obtain ⟨a, ⟨stats, passes⟩, layout, best, first, nothing⟩ := exists_scattered
  have large : minBlockSize ≤ 80 := by decide
  refine ⟨a, ?_, ?_, fun fit x => ?_⟩
  · obtain ⟨shelves, found, visited, ended, -, preferred⟩ := search_preferred passes large .bestFit
    rw [best] at ended
    cases ended
    obtain ⟨e, ⟨mem, -⟩, start, wanted⟩ := preferred 152 rfl
    obtain rfl : e = ⟨152, 96, false⟩ := eq_of_mem_layout passes mem (by simp [layout]) start
    exact ⟨shelves, visited, best, wanted, by simp [layout], rfl, by decide⟩
  · obtain ⟨shelves, found, visited, ended, -, preferred⟩ := search_preferred passes large .firstFit
    rw [first] at ended
    cases ended
    obtain ⟨e, ⟨mem, -⟩, start, wanted⟩ := preferred 8 rfl
    obtain rfl : e = ⟨8, 112, false⟩ := eq_of_mem_layout passes mem (by simp [layout]) start
    exact ⟨shelves, visited, first, wanted, by simp [layout], rfl, by decide⟩
  · obtain ⟨-, found, -, ended, none_iff, -⟩ :=
      search_preferred passes (show minBlockSize ≤ 160 by decide) fit
    rw [nothing] at ended
    cases ended
    exact ⟨nothing fit, none_iff.mp rfl x⟩

end Allocator

end TaggedHeap
