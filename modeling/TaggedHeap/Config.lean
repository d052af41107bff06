import TaggedHeap.FreeLists

/-!
# Configurations

What whoever makes an allocator may choose.  Where blocks are placed and when the heap grows depends
on the first two settings.  The third one makes self-checks, and changes no answer on a heap that
passes them.
-/

namespace TaggedHeap

/-- How an allocator behaves where it has a choice. -/
structure Config where
  /-- The heap grows by this many bytes at least, so that a run of small requests does not ask the
  source each time. -/
  chunk : Nat := defaultChunk
  /-- How a block is chosen among the free ones of a class. -/
  fit : FitPolicy := .bestFit
  /-- Whether freed bytes are filled with a pattern, and self-checks and audits are made. -/
  hardened : Bool := false
deriving DecidableEq, Repr

instance : Inhabited Config := ⟨{}⟩

end TaggedHeap
