import Mathlib.Data.List.Nodup
import Mathlib.Data.List.Perm.Subperm
import TaggedHeap.Proofs.Tiling

/-!
# The start set names the live blocks

Which blocks are live is said twice, by the allocated flags in the memory and by the start set.
`Marks starts es` is the statement that the two agree: at every place where a block can start, the
set names exactly the allocated ones of `es`.

An audit does not compare the two like that.  It asks the set about each block that it meets and
then counts.  `Marks.size` and `marks_of_size` say that this comes to the same: the set is as large
as there are live blocks, and a set that names them and is no larger names nothing else.
-/

namespace TaggedHeap

/-- An extent is an allocated one of some extents. -/
def Live (es : List Extent) (e : Extent) : Prop := e ∈ es ∧ e.allocated = true

section Live

variable {es xs ys pre post : List Extent} {e x : Extent}

/-- Of no extents, none is live. -/
@[simp] theorem live_nil : ¬ Live [] x := fun h => absurd h.1 List.not_mem_nil

/-- An extent of two lists is live in one of them. -/
@[simp] theorem live_append : Live (xs ++ ys) x ↔ Live xs x ∨ Live ys x := by
  simp only [Live, List.mem_append, or_and_right]

/-- A free extent in front is not live. -/
theorem live_cons_free (free : e.allocated = false) : Live (e :: es) x ↔ Live es x := by
  constructor
  · rintro ⟨hx, taken⟩
    rcases List.mem_cons.mp hx with rfl | hx
    · rw [free] at taken
      cases taken
    · exact ⟨hx, taken⟩
  · exact fun h => ⟨List.mem_cons_of_mem _ h.1, h.2⟩

/-- An allocated extent in front is live. -/
theorem live_cons_taken (taken : e.allocated = true) : Live (e :: es) x ↔ x = e ∨ Live es x := by
  constructor
  · rintro ⟨hx, h⟩
    exact (List.mem_cons.mp hx).imp_right fun hx => ⟨hx, h⟩
  · rintro (rfl | h)
    · exact ⟨List.mem_cons_self, taken⟩
    · exact ⟨List.mem_cons_of_mem _ h.1, h.2⟩

/-- A free extent among others is not live. -/
theorem live_middle_free (free : e.allocated = false) :
    Live (pre ++ e :: post) x ↔ Live (pre ++ post) x := by
  rw [live_append, live_cons_free free, live_append]

/-- An allocated extent among others is live. -/
theorem live_middle_taken (taken : e.allocated = true) :
    Live (pre ++ e :: post) x ↔ x = e ∨ Live (pre ++ post) x := by
  rw [live_append, live_cons_taken taken, live_append, or_left_comm]

end Live

namespace StartSet

/-- The units whose flag is set. -/
def units (starts : StartSet) : List Nat :=
  (List.range starts.flags.size).filter fun u => starts.flags.getD u false

theorem nodup_units (starts : StartSet) : starts.units.Nodup := List.nodup_range.filter _

theorem mem_units {starts : StartSet} {u : Nat} :
    u ∈ starts.units ↔ starts.flags.getD u false = true := by
  simp only [units, List.mem_filter, List.mem_range, and_iff_right_iff_imp]
  intro h
  by_contra outside
  rw [Array.getD_eq_getD_getElem?, Array.getElem?_eq_none (Nat.not_lt.mp outside)] at h
  cases h

/-- The size of the set is the number of units whose flag is set. -/
theorem size_eq_length_units (starts : StartSet) : starts.size = starts.units.length := by
  obtain ⟨⟨flags⟩⟩ := starts
  have list : flags = (List.range flags.length).map fun u => flags.getD u false := by
    apply List.ext_getElem (by simp)
    intro i hi _
    simp [List.getD_eq_getElem?_getD, List.getElem?_eq_getElem hi]
  simp only [size, units, List.count_toArray, List.size_toArray, Array.getD_eq_getD_getElem?,
    List.getElem?_toArray, ← List.getD_eq_getElem?_getD]
  conv_lhs => rw [list, List.count_eq_countP, List.countP_map, List.countP_eq_length_filter]
  congr 2
  funext u
  simp

end StartSet

/-- At every place where a block can start, the set names the live blocks and no others. -/
def Marks (starts : StartSet) (es : List Extent) : Prop :=
  ∀ b, b % alignment = firstBlock →
    (starts.contains b = true ↔ ∃ e, Live es e ∧ e.block = b)

section Marks

variable {starts : StartSet} {es es' : List Extent} {e : Extent} {b stop : Nat}

/-- Blocks start in different units. -/
theorem unit_inj {b b' : Nat} (hb : b % alignment = firstBlock)
    (hb' : b' % alignment = firstBlock) : StartSet.unit b = StartSet.unit b' ↔ b = b' := by
  simp only [StartSet.unit, alignment, firstBlock] at *
  omega

/-- The empty set names the live ones of blocks none of which is. -/
theorem marks_empty (none_live : ∀ x, ¬ Live es x) : Marks .empty es := by
  intro b _
  simp [none_live]

/-- A block that becomes live is added. -/
theorem Marks.insert (h : Marks starts es) (he : e.block % alignment = firstBlock)
    (added : ∀ x, Live es' x ↔ x = e ∨ Live es x) : Marks (starts.insert e.block) es' := by
  intro b hb
  rw [StartSet.contains_insert, Bool.or_eq_true, beq_iff_eq, unit_inj hb he, h b hb]
  constructor
  · rintro (rfl | ⟨x, hx, rfl⟩)
    · exact ⟨e, (added e).mpr (.inl rfl), rfl⟩
    · exact ⟨x, (added x).mpr (.inr hx), rfl⟩
  · rintro ⟨x, hx, rfl⟩
    rcases (added x).mp hx with rfl | hx
    · exact .inl rfl
    · exact .inr ⟨x, hx, rfl⟩

/-- A live block may be replaced by another one that starts where it did. -/
theorem Marks.replace {others : List Extent} {e' : Extent} (h : Marks starts es)
    (same : e'.block = e.block) (old : ∀ x, Live es x ↔ x = e ∨ Live others x)
    (new : ∀ x, Live es' x ↔ x = e' ∨ Live others x) : Marks starts es' := by
  intro b hb
  rw [h b hb]
  simp only [old, new, or_and_right, exists_or, exists_eq_left, same]

/-- A block that is no longer live is taken out. -/
theorem Marks.remove (h : Marks starts es) (he : e.block % alignment = firstBlock)
    (gone : ∀ x, Live es x ↔ x = e ∨ Live es' x) (other : ∀ x, Live es' x → x.block ≠ e.block) :
    Marks (starts.remove e.block) es' := by
  intro b hb
  rw [StartSet.contains_remove, Bool.and_eq_true, bne_iff_ne, ne_eq, unit_inj hb he, h b hb]
  constructor
  · rintro ⟨hne, x, hx, rfl⟩
    rcases (gone x).mp hx with rfl | hx
    · exact absurd rfl hne
    · exact ⟨x, hx, rfl⟩
  · rintro ⟨x, hx, rfl⟩
    exact ⟨other x hx, x, (gone x).mpr (.inr hx), rfl⟩

/-- The set agrees with the flag of every block. -/
theorem Marks.agree (h : Marks starts es) (tiles : Contiguous firstBlock es stop) (he : e ∈ es) :
    starts.contains e.block = e.allocated := by
  have named := h e.block (tiles.bounds he).aligned
  cases taken : e.allocated with
  | true => exact named.mpr ⟨e, ⟨he, taken⟩, rfl⟩
  | false =>
    rw [← Bool.not_eq_true, named]
    rintro ⟨x, ⟨hx, x_taken⟩, same⟩
    rw [tiles.block_inj hx he same, taken] at x_taken
    cases x_taken

/-- The units of the allocated ones of some extents. -/
def takenUnits (es : List Extent) : List Nat :=
  (es.filter (·.allocated)).map fun e => StartSet.unit e.block

/-- Blocks side by side start in different units. -/
theorem Contiguous.nodup_takenUnits (tiles : Contiguous firstBlock es stop) :
    (takenUnits es).Nodup := by
  refine List.Nodup.map_on ?_ ((List.Nodup.of_map _ tiles.nodup).filter _)
  intro x hx y hy hxy
  have mem_x := List.mem_of_mem_filter hx
  have mem_y := List.mem_of_mem_filter hy
  refine tiles.block_inj mem_x mem_y ((unit_inj ?_ ?_).mp hxy)
  · exact (tiles.bounds mem_x).aligned
  · exact (tiles.bounds mem_y).aligned

/-- A unit whose flag is set is that of the block which starts in it. -/
theorem contains_of_unit (starts : StartSet) (u : Nat) :
    starts.flags.getD u false = starts.contains (u * alignment + firstBlock) := by
  rw [StartSet.contains]
  congr 1
  simp only [StartSet.unit, alignment, firstBlock]
  omega

/-- **The start set is as large as there are live blocks.** -/
theorem Marks.size (h : Marks starts es) (tiles : Contiguous firstBlock es stop) :
    starts.size = (es.filter (·.allocated)).length := by
  have same : ∀ u, u ∈ starts.units ↔ u ∈ takenUnits es := by
    intro u
    rw [StartSet.mem_units, contains_of_unit, h _ (by simp only [alignment, firstBlock]; omega)]
    simp only [takenUnits, List.mem_map, List.mem_filter, Live]
    refine exists_congr fun e => and_congr_right ?_
    intro he
    have aligned : e.block % 16 = 8 := (tiles.bounds he.1).aligned
    simp only [StartSet.unit, alignment, firstBlock]
    omega
  rw [StartSet.size_eq_length_units,
    ((List.perm_ext_iff_of_nodup starts.nodup_units tiles.nodup_takenUnits).mpr same).length_eq,
    takenUnits, List.length_map]

/-- **A start set that names the live blocks, and is as large as there are any,
names no others.** -/
theorem marks_of_size (tiles : Contiguous firstBlock es stop)
    (agree : ∀ e ∈ es, starts.contains e.block = e.allocated)
    (size : starts.size = (es.filter (·.allocated)).length) : Marks starts es := by
  have subset : takenUnits es ⊆ starts.units := by
    intro u hu
    obtain ⟨e, he, rfl⟩ := List.mem_map.mp hu
    obtain ⟨he, taken⟩ := List.mem_filter.mp he
    rw [StartSet.mem_units]
    exact (agree e he).trans taken
  have length : starts.units.length = (takenUnits es).length := by
    rw [← StartSet.size_eq_length_units, size, takenUnits, List.length_map]
  have perm : (takenUnits es).Perm starts.units :=
    (List.subperm_of_subset tiles.nodup_takenUnits subset).perm_of_length_le (Nat.le_of_eq length)
  intro b hb
  constructor
  · intro hcontains
    have hu : StartSet.unit b ∈ takenUnits es := perm.mem_iff.mpr (StartSet.mem_units.mpr hcontains)
    obtain ⟨e, he, hunit⟩ := List.mem_map.mp hu
    obtain ⟨he, taken⟩ := List.mem_filter.mp he
    exact ⟨e, ⟨he, taken⟩, (unit_inj (tiles.bounds he).aligned hb).mp hunit⟩
  · rintro ⟨e, ⟨he, taken⟩, rfl⟩
    exact (agree e he).trans taken

end Marks

end TaggedHeap
