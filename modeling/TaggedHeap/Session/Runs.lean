/-!
# Runs

Long stretches of equal items are told as one: where they start, the item, and how often it comes.
-/

namespace TaggedHeap

/-- A stretch of equal items. -/
structure Run (α : Type) where
  /-- The index of the first one. -/
  start : Nat
  /-- The item. -/
  value : α
  /-- How many there are. -/
  count : Nat
deriving DecidableEq, Repr

namespace Run

variable {α : Type} [BEq α]

/-- The runs of the items that follow, behind the one that was last read and those before it, which
come in reverse. -/
def collect (item : Nat → α) (next : Nat) (last : Run α) (before : List (Run α)) :
    (count : Nat) → List (Run α)
  | 0 => (last :: before).reverse
  | count + 1 =>
    let value := item next
    if value == last.value then
      collect item (next + 1) { last with count := last.count + 1 } before count
    else collect item (next + 1) ⟨next, value, 1⟩ (last :: before) count

/-- The runs of the first `count` items. -/
def ofItems (item : Nat → α) : (count : Nat) → List (Run α)
  | 0 => []
  | count + 1 => collect item 1 ⟨0, item 0, 1⟩ [] count

end Run

end TaggedHeap
