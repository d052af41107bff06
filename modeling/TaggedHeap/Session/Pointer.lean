import TaggedHeap.Text.Numeral

/-!
# Naming payloads in a session

A command names a payload by its offset, or as the result of an earlier step, possibly with an
offset relative to it.
-/

namespace TaggedHeap

/-- How a command names a payload. -/
inductive Pointer where
  /-- Not at all. -/
  | none
  /-- By its offset in the heap. -/
  | offset (n : Nat)
  /-- As the result of a step, counted from zero, plus a difference. -/
  | result (step : Nat) (difference : Int)
deriving DecidableEq, Repr

namespace Pointer

/-- Reads what follows the sign `#`: the number of a step, and a difference if there is one. -/
def readResult (text : List Char) : Option Pointer := do
  let step ← Numeral.readDecimal (text.takeWhile Char.isDigit)
  match text.dropWhile Char.isDigit with
  | [] => return .result step 0
  | '+' :: digits => return .result step (← Numeral.readDecimal digits)
  | '-' :: digits => return .result step (-(← Numeral.readDecimal digits))
  | _ => failure

/-- Reads an offset, or a step behind the sign `#`. -/
def read : List Char → Option Pointer
  | '#' :: text => readResult text
  | text => offset <$> Numeral.readDecimal text

/-- An offset as a payload: there is none at zero. -/
def nonzero (n : Nat) : Option Nat := if n = 0 then Option.none else some n

/-- The payload that is meant, when the steps so far had the given results. -/
def resolve (results : Array (Option Nat)) : Pointer → Option Nat
  | none => Option.none
  | offset n => nonzero n
  | result step difference => do
    let payload ← (results[step]?).join
    nonzero ((payload + difference) % wordBound).toNat

end Pointer

end TaggedHeap
