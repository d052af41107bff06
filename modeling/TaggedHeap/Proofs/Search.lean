import Mathlib.Data.List.Perm.Subperm
import TaggedHeap.Proofs.Shelves
import TaggedHeap.Proofs.Sizes

/-!
# Searching the shelves

A search follows links through a memory, with fuel.  On lists that are lists none of this shows: it
is a scan of the shelves, and `findBlock_eq` says which one.  The fuel is enough because no block
stands twice on a shelf (`Threaded.length_le`).

What the scan answers is then a question about plain lists.  `mem_of_findSome?` is the part of it
that every request rests on: what is found stands on a shelf and is large enough.
-/

namespace TaggedHeap

open Memory

/-! ## Scanning one shelf -/

/-- Looks through the blocks of a shelf as a search does, when `best` is the best one so far. -/
def scan (fit : FitPolicy) (size : Nat) (sizeOf : Nat → Nat) :
    List Nat → (best : Option (Nat × Nat)) → Option Nat
  | [], best => best.map (·.1)
  | b :: rest, best =>
    if size ≤ sizeOf b ∧ (fit = .firstFit ∨ sizeOf b = size) then some b
    else scan fit size sizeOf rest
      (if size ≤ sizeOf b then some (FreeLists.better best b (sizeOf b)) else best)

section Scan

variable {fit : FitPolicy} {size : Nat} {sizeOf : Nat → Nat} {l : List Nat}
  {best : Option (Nat × Nat)} {b : Nat}

/-- The better one of two is one of the two. -/
theorem better_fst (best : Option (Nat × Nat)) (b size : Nat) :
    (FreeLists.better best b size).1 = b ∨
      some (FreeLists.better best b size).1 = best.map (·.1) := by
  cases best with
  | none => exact .inl rfl
  | some best =>
    rw [FreeLists.better]
    split
    · exact .inl rfl
    · exact .inr rfl

/-- What a scan finds is on the shelf and large enough, unless it is the best one so far. -/
theorem scan_sound (h : scan fit size sizeOf l best = some b) :
    (b ∈ l ∧ size ≤ sizeOf b) ∨ best.map (·.1) = some b := by
  induction l generalizing best with
  | nil => exact .inr h
  | cons x rest ih =>
    rw [scan] at h
    split at h
    next fits =>
      cases h
      exact .inl ⟨List.mem_cons_self, fits.1⟩
    next =>
      rcases ih h with ⟨hmem, hsize⟩ | hbest
      · exact .inl ⟨List.mem_cons_of_mem _ hmem, hsize⟩
      · by_cases large : size ≤ sizeOf x
        · rw [if_pos large, Option.map_some, Option.some.injEq] at hbest
          rcases better_fst best x (sizeOf x) with here | before
          · rw [here] at hbest
            exact .inl ⟨by rw [hbest]; exact List.mem_cons_self, by rw [← hbest]; exact large⟩
          · rw [hbest] at before
            exact .inr before.symm
        · rw [if_neg large] at hbest
          exact .inr hbest

/-- A scan finds a block if one on the shelf is large enough, or if there is a best one so far. -/
theorem scan_isSome (h : (∃ b ∈ l, size ≤ sizeOf b) ∨ best.isSome) :
    (scan fit size sizeOf l best).isSome := by
  induction l generalizing best with
  | nil =>
    obtain ⟨b, hb, -⟩ | some_best := h
    · cases hb
    · rwa [scan, Option.isSome_map]
  | cons x rest ih =>
    rw [scan]
    split
    · rfl
    · apply ih
      by_cases large : size ≤ sizeOf x
      · exact .inr (by rw [if_pos large]; rfl)
      · rw [if_neg large]
        refine h.imp_left ?_
        rintro ⟨b, hb, fits⟩
        rcases List.mem_cons.mp hb with rfl | hb
        · exact absurd fits large
        · exact ⟨b, hb, fits⟩

/-- A scan looks at the sizes of the blocks on the shelf only. -/
theorem scan_congr {sizeOf' : Nat → Nat} (same : ∀ x ∈ l, sizeOf' x = sizeOf x) :
    scan fit size sizeOf' l best = scan fit size sizeOf l best := by
  induction l generalizing best with
  | nil => rfl
  | cons x rest ih =>
    rw [scan, scan, same x List.mem_cons_self,
      ih fun y hy => same y (List.mem_cons_of_mem _ hy)]

end Scan

/-! ## A search is a scan -/

section Search

variable {hardened : Bool} {m : Memory} {lists : FreeLists} {shelves : Shelves} {fit : FitPolicy}
  {size fuel b : Nat} {prev : Option Nat} {l : List Nat} {best : Option (Nat × Nat)}

/-- Following the links of a stretch is going through its members. -/
theorem findIn_eq (linked : Linked m prev l none) (linkable : ∀ x ∈ l, Linkable hardened m x)
    (enough : l.length ≤ fuel) :
    FreeLists.findIn hardened m fit size fuel l.head? best
      = .ok (scan fit size (sizeAt m) l best) := by
  induction l generalizing prev fuel best with
  | nil => cases fuel <;> rfl
  | cons b rest ih =>
    obtain ⟨word_next, -, linked_rest⟩ := linked
    cases fuel with
    | zero => cases enough
    | succ fuel =>
      have hb := linkable b List.mem_cons_self
      have linkable_rest : ∀ x ∈ rest, Linkable hardened m x := fun x hx =>
        linkable x (List.mem_cons_of_mem _ hx)
      have next_pos : ∀ x ∈ rest.head?, x ≠ 0 := fun x hx =>
        (linkable_rest x (List.mem_of_head? hx)).pos
      rw [Option.or_none] at word_next
      rw [List.head?_cons, FreeLists.findIn, hb.header, ok_bind, ← sizeAt, scan]
      split
      · rfl
      · rw [hb.requireLinks, ok_bind, hb.nextLink word_next next_pos, ok_bind]
        exact ih linked_rest linkable_rest (Nat.le_of_succ_le_succ enough)

/-- A shelf has no more blocks than the memory has bytes. -/
theorem Threaded.length_le (h : Threaded hardened m lists shelves) (c : SizeClass) :
    (shelves c).length ≤ m.size := by
  have subset : shelves c ⊆ List.range m.size := fun b hb => by
    have inside : b + 24 ≤ m.size := (h.linkable c b hb).inside
    exact List.mem_range.mpr (by omega)
  simpa using (List.subperm_of_subset (h.nodup c) subset).length_le

/-- Going through the lists of some classes is going through their shelves. -/
theorem findAmong_eq (h : Threaded hardened m lists shelves) (classes : List SizeClass) :
    lists.findAmong hardened m fit size classes
      = .ok (classes.findSome? fun c => scan fit size (sizeAt m) (shelves c) none) := by
  induction classes with
  | nil => rfl
  | cons c classes ih =>
    have enough : (shelves c).length ≤ FreeLists.walkBound m := Nat.le_succ_of_le (h.length_le c)
    rw [FreeLists.findAmong, h.heads, findIn_eq (h.linked c) (h.linkable c) enough, ok_bind,
      List.findSome?_cons]
    cases scan fit size (sizeAt m) (shelves c) none with
    | some b => rfl
    | none => exact ih

/-- **A search for a block goes through,** and scans the shelves from the class of its size on. -/
theorem findBlock_eq (h : Shelving m lists shelves) (large : minBlockSize ≤ size) :
    lists.findBlock hardened m fit size
      = .ok ((SizeClass.of size).upFrom.findSome?
          fun c => scan fit size (sizeAt m) (shelves c) none) := by
  rw [FreeLists.findBlock, require_hardened fun _ => decide_eq_true large, ok_bind,
    findAmong_eq (h.threaded hardened)]

/-- A block that is found stands on a shelf and is large enough. -/
theorem mem_of_findSome? {classes : List SizeClass}
    (found : classes.findSome? (fun c => scan fit size (sizeAt m) (shelves c) none) = some b) :
    ∃ c, b ∈ shelves c ∧ size ≤ sizeAt m b := by
  obtain ⟨c, -, hc⟩ := List.exists_of_findSome?_eq_some found
  rcases scan_sound hc with hfound | hbest
  · exact ⟨c, hfound⟩
  · cases hbest

end Search

end TaggedHeap
