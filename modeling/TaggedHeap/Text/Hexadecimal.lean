/-!
# Bytes and words in hexadecimal

Two digits for a byte and sixteen for a word, the most significant one first.
-/

namespace TaggedHeap.Hexadecimal

/-- The value of a digit of either case. -/
def digit? (c : Char) : Option Nat :=
  if '0' ≤ c ∧ c ≤ '9' then some (c.toNat - '0'.toNat)
  else if 'a' ≤ c ∧ c ≤ 'f' then some (c.toNat - 'a'.toNat + 10)
  else if 'A' ≤ c ∧ c ≤ 'F' then some (c.toNat - 'A'.toNat + 10)
  else none

/-- Reads bytes behind those that were read already. -/
def readBytesFrom (read : ByteArray) : List Char → Option ByteArray
  | [] => some read
  | [_] => none
  | high :: low :: rest => do
    let high ← digit? high
    let low ← digit? low
    readBytesFrom (read.push (UInt8.ofNat (16 * high + low))) rest

/-- Reads bytes, two digits each. -/
def readBytes (text : List Char) : Option ByteArray := readBytesFrom ByteArray.empty text

/-- The last `count` digits of a number. -/
def lastDigits (n : Nat) : (count : Nat) → List Char
  | 0 => []
  | count + 1 => lastDigits (n / 16) count ++ [Nat.digitChar (n % 16)]

/-- The sixteen digits of a word. -/
def word (n : Nat) : String := String.ofList (lastDigits n 16)

end TaggedHeap.Hexadecimal
