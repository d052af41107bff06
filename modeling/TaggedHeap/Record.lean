import TaggedHeap.Error

/-!
# Records

What an allocator writes into its log: how the heap grew, what was handed out and taken back, and
which pointers were rejected.
-/

namespace TaggedHeap

/-- An entry of the log. -/
inductive Record where
  /-- A heap was set up. -/
  | initialized (size free : Nat)
  /-- The heap grew for a new block. -/
  | grew (increment size : Nat)
  /-- The heap grew behind a block. -/
  | grewAt (increment block : Nat)
  /-- The heap could not grow behind a block. -/
  | growthRefused (block : Nat) (error : Refusal)
  /-- A payload was handed out. -/
  | allocated (n payload : Nat)
  /-- A payload is about to be taken back. -/
  | freed (payload : Nat)
  /-- A payload is about to be shrunk where it is. -/
  | shrunk (payload n : Nat)
  /-- A payload was grown where it is. -/
  | grown (payload n : Nat)
  /-- A payload was moved. -/
  | moved (payload n target : Nat)
  /-- A pointer was rejected. -/
  | rejected (payload : Nat) (error : Refusal)
deriving DecidableEq, Repr

namespace Record

/-- How much a record matters. -/
def level : Record → String
  | initialized .. | grew .. | grewAt .. | growthRefused .. => "DEBUG"
  | allocated .. | freed .. | shrunk .. | grown .. | moved .. => "TRACE"
  | rejected .. => "WARN"

/-- The start of the record of a reallocation. -/
def reallocation (payload n : Nat) : String :=
  "realloc(" ++ Numeral.hex payload ++ ", " ++ toString n ++ "): "

/-- What a record says. -/
def text : Record → String
  | initialized size free =>
    "initialized heap of " ++ toString size ++ " bytes (" ++ toString free ++ " bytes free)"
  | grew increment size =>
    "grew heap by " ++ toString increment ++ " bytes to " ++ toString size ++ " bytes"
  | grewAt increment block =>
    "grew heap by " ++ toString increment ++ " bytes at " ++ blockName block
  | growthRefused block error =>
    "could not grow " ++ blockName block ++ " in place: " ++ error.message
  | allocated n payload => "alloc(" ++ toString n ++ ") -> " ++ Numeral.hex payload
  | freed payload => "free(" ++ Numeral.hex payload ++ ")"
  | shrunk payload n => reallocation payload n ++ "shrink in place"
  | grown payload n => reallocation payload n ++ "grow in place"
  | moved payload n target => reallocation payload n ++ "moved to " ++ Numeral.hex target
  | rejected payload error => "rejected pointer " ++ Numeral.hex payload ++ ": " ++ error.message

/-- The record as one line. -/
def line (record : Record) : String := record.level ++ " " ++ record.text

end Record

end TaggedHeap
