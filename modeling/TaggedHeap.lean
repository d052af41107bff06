import TaggedHeap.Memory.Lemmas
import TaggedHeap.Session.Play
import TaggedHeap.Text.Hexadecimal
import TaggedHeap.Trace.Histogram
import TaggedHeap.Trace.Shrink
import TaggedHeap.Proofs.Access
import TaggedHeap.Proofs.Words
import TaggedHeap.Proofs.Sizes
import TaggedHeap.Proofs.Tiling
import TaggedHeap.Proofs.Linking
import TaggedHeap.Proofs.Shelves
import TaggedHeap.Proofs.Plan
import TaggedHeap.Proofs.Gaps
import TaggedHeap.Proofs.Search
import TaggedHeap.Proofs.Blocks
import TaggedHeap.Proofs.BoundaryTags
import TaggedHeap.Proofs.Growth
import TaggedHeap.Proofs.Outline
import TaggedHeap.Proofs.Audited
import TaggedHeap.Proofs.Sound
import TaggedHeap.Proofs.Placement
import TaggedHeap.Proofs.Pointers
import TaggedHeap.Proofs.Requests
import TaggedHeap.Proofs.Effects
import TaggedHeap.Proofs.Invariance
import TaggedHeap.Proofs.Contents
import TaggedHeap.Proofs.Spacing
import TaggedHeap.Proofs.Acceptance
import TaggedHeap.Proofs.Atomicity
import TaggedHeap.Proofs.WellFormed
import TaggedHeap.Proofs.Lockstep
import TaggedHeap.Proofs.Independence
import TaggedHeap.Proofs.Hardening
import TaggedHeap.Proofs.Totality
import TaggedHeap.Proofs.Initialisation
import TaggedHeap.Proofs.Correct
import TaggedHeap.Proofs.NormalForm
import TaggedHeap.Proofs.Coalescing
import TaggedHeap.Proofs.Scarcity
import TaggedHeap.Proofs.Turns
import TaggedHeap.Proofs.Watching
import TaggedHeap.Proofs.Replays
import TaggedHeap.Proofs.Sharing
import TaggedHeap.Proofs.BestFit
import TaggedHeap.Proofs.Cuts
import TaggedHeap.Proofs.Supply
import TaggedHeap.Proofs.Resizing
import TaggedHeap.Proofs.Fallback
import TaggedHeap.Proofs.Backing
import TaggedHeap.Proofs.Twins
import TaggedHeap.Proofs.Interchange
import TaggedHeap.Proofs.Views
import TaggedHeap.Proofs.Relics
import TaggedHeap.Proofs.DoubleFrees
import TaggedHeap.Proofs.WriteAfterFree
import TaggedHeap.Proofs.Zeroing
import TaggedHeap.Proofs.Quotations
import TaggedHeap.Proofs.Grammar
import TaggedHeap.Proofs.Listing
import TaggedHeap.Proofs.Shrinking
import TaggedHeap.Proofs.Descent
import TaggedHeap.Proofs.Lifetimes
import TaggedHeap.Proofs.Intrusive
import TaggedHeap.Proofs.Bitmap
