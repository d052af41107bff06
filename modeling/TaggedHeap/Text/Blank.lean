/-!
# Blanks

A blank is a character with the property White_Space.  Texts are trimmed of blanks at both ends
before they are read.

Main statement: `trim_of_ends`, trimming leaves a text alone that neither begins nor ends with a
blank.
-/

namespace TaggedHeap.Text

/-- Whether a character has the property White_Space: U+0009 to U+000D, U+0020, U+0085, U+00A0,
U+1680, U+2000 to U+200A, U+2028, U+2029, U+202F, U+205F and U+3000. -/
def isBlank (c : Char) : Bool :=
  let n := c.toNat
  (0x9 ≤ n && n ≤ 0xd) || n == 0x20 || n == 0x85 || n == 0xa0 || n == 0x1680 ||
    (0x2000 ≤ n && n ≤ 0x200a) || n == 0x2028 || n == 0x2029 || n == 0x202f || n == 0x205f ||
    n == 0x3000

/-- The text without the blanks at its end. -/
def trimEnd (text : List Char) : List Char := (text.reverse.dropWhile isBlank).reverse

/-- The text without the blanks at its ends. -/
def trim (text : List Char) : List Char := trimEnd (text.dropWhile isBlank)

/-- A text that neither begins nor ends with a blank has nothing to trim. -/
theorem trim_of_ends {text : List Char} (first : ∀ c ∈ text.head?, isBlank c = false)
    (last : ∀ c ∈ text.getLast?, isBlank c = false) : trim text = text := by
  have drop : ∀ {l : List Char}, (∀ c ∈ l.head?, isBlank c = false) →
      l.dropWhile isBlank = l := by
    intro l h
    cases l with
    | nil => rfl
    | cons c l => simp [h c (by simp)]
  rw [trim, drop first, trimEnd, drop (by simpa using last), List.reverse_reverse]

end TaggedHeap.Text
