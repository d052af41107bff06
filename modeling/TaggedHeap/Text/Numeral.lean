/-!
# Numerals

Offsets are shown in two ways: in decimal when they stand inside an operation or a block's name,
and in hexadecimal with a leading `0x` when a message speaks of a place in the heap.  Reading goes
the other way for decimal numerals only, and only for numbers that fit a 64-bit word: that bound
belongs to the reader, because a numeral that names no word names nothing in this library.
-/

namespace TaggedHeap

/-- One past the largest word: words, sizes and offsets are the natural numbers below it. -/
def wordBound : Nat := 0x10000000000000000

namespace Numeral

/-- The decimal digits of a number, most significant first, without leading zeros. -/
def decimal (n : Nat) : List Char := Nat.toDigits 10 n

/-- The digits of a number in base sixteen, lower case and without padding. -/
def hexDigits (n : Nat) : String := String.ofList (Nat.toDigits 16 n)

/-- A place in the heap as messages show it: its hexadecimal digits after `0x`. -/
def hex (n : Nat) : String := "0x" ++ hexDigits n

/-- The digits of a numeral after its optional plus sign. -/
def unsigned : List Char → List Char
  | '+' :: digits => digits
  | digits => digits

/-- Reads a numeral: an optional plus sign, then at least one ASCII digit, with any number of
leading zeros.  The value has to be a word. -/
def readDecimal (text : List Char) : Option Nat :=
  let digits := unsigned text
  if digits.isEmpty || !digits.all Char.isDigit then none
  else
    let value := Nat.ofDigitChars 10 digits 0
    if value < wordBound then some value else none

theorem isDigit_of_mem_decimal {n : Nat} {c : Char} (h : c ∈ decimal n) : c.isDigit = true :=
  Nat.isDigit_of_mem_toDigits (by decide) (by decide) h

theorem decimal_ne_nil (n : Nat) : decimal n ≠ [] := Nat.toDigits_ne_nil

/-- A text that does not open with a plus sign has nothing to strip. -/
theorem unsigned_of_forall_isDigit {text : List Char} (h : ∀ c ∈ text, c.isDigit = true) :
    unsigned text = text := by
  unfold unsigned
  split
  · exact absurd (h '+' (by simp)) (by decide)
  · rfl

end Numeral

end TaggedHeap
