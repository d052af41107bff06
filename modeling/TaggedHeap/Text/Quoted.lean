import TaggedHeap.Text.Extending
import TaggedHeap.Text.Numeral
import TaggedHeap.Text.Unprintable

/-!
# Quoted text

How a message quotes a text that it speaks of: between double quotes, with an escape for each
character that would end the quotation, be mistaken for an escape, or not be seen.
-/

namespace TaggedHeap.Quoted

/-- Whether a character is quoted by its code point: one that cannot be seen, or that would be drawn
on the character before it. -/
def isHidden (c : Char) : Bool :=
  CharSet.unprintable.contains c || CharSet.fillers.contains c ||
    (CharSet.extending.contains c && !CharSet.soundMarks.contains c)

/-- How one character stands between the quotes. -/
def encodeChar (c : Char) : String :=
  match c with
  | '\x00' => "\\0"
  | '\t' => "\\t"
  | '\r' => "\\r"
  | '\n' => "\\n"
  | '\\' => "\\\\"
  | '"' => "\\\""
  | c => if isHidden c then "\\u\x7b" ++ Numeral.hexDigits c.toNat ++ "\x7d" else c.toString

/-- The text between quotes. -/
def encode (text : List Char) : String :=
  "\"" ++ String.join (text.map encodeChar) ++ "\""

end TaggedHeap.Quoted
