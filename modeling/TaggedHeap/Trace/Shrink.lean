import TaggedHeap.Trace.Operation

/-!
# Smaller traces

When a trace shows that something is wrong, a smaller one may show it as well.  The candidates are,
in this order: its proper beginnings, the trace without one of its operations that is no allocation,
without one of its allocations, and with one of its allocations halved.

An allocation takes the operations that refer to it along, and the numbers of the later ones move
down by one, so that what is left refers to what it referred to before.
-/

namespace TaggedHeap

namespace Operation

/-- The operation in a trace from which allocation number `dropped` was taken out, unless it refers
to that one. -/
def afterDropping (dropped : Nat) (operation : Operation) : Option Operation :=
  let renumber (index : Nat) : Nat := if dropped < index then index - 1 else index
  match operation with
  | alloc size => some (alloc size)
  | free index => if index = dropped then none else some (free (renumber index))
  | realloc index size =>
    if index = dropped then none else some (realloc (renumber index) size)

end Operation

namespace Trace

/-- The positions of the operations that satisfy a condition. -/
def positions (condition : Operation → Bool) (t : Trace) : List Nat :=
  (List.range t.length).filter fun i => (t[i]?.map condition).getD false

/-- The trace without its allocation number `dropped`, which stands at `position`. -/
def dropAlloc (t : Trace) (dropped position : Nat) : Trace :=
  (t.eraseIdx position).filterMap (Operation.afterDropping dropped)

/-- The trace with the allocation at `position` halved, if it asks for any bytes. -/
def halveAlloc? (t : Trace) (position : Nat) : Option Trace :=
  match t[position]? with
  | some (.alloc size) => if size = 0 then none else some (t.set position (.alloc (size / 2)))
  | _ => none

/-- The proper beginnings of a trace, the shortest one first. -/
def beginnings (t : Trace) : List Trace := (List.range t.length).map t.take

/-- The trace without one of its operations that is no allocation. -/
def withoutOthers (t : Trace) : List Trace := (positions (!·.isAlloc) t).map t.eraseIdx

/-- The trace without one of its allocations. -/
def withoutAllocs (t : Trace) : List Trace :=
  (positions Operation.isAlloc t).mapIdx fun number position => dropAlloc t number position

/-- The trace with one of its allocations halved. -/
def withHalves (t : Trace) : List Trace :=
  (positions Operation.isAlloc t).filterMap (halveAlloc? t)

/-- The candidates for a smaller trace. -/
def shrink (t : Trace) : List Trace :=
  beginnings t ++ withoutOthers t ++ withoutAllocs t ++ withHalves t

end Trace

end TaggedHeap
