/-!
# Lines

A line ends with a line feed, and a carriage return right before that is not a part of it either.
The last line needs no end, and there is no line behind the last line feed.
-/

namespace TaggedHeap.Text

/-- A line from its characters in reverse, without the carriage return that it may end with. -/
def endLine : List Char → List Char
  | '\r' :: line => line.reverse
  | line => line.reverse

/-- The lines of a text behind the characters, in reverse, that were already read of the first. -/
def linesFrom (read : List Char) : List Char → List (List Char)
  | [] => if read.isEmpty then [] else [read.reverse]
  | '\n' :: rest => endLine read :: linesFrom [] rest
  | c :: rest => linesFrom (c :: read) rest

/-- The lines of a text. -/
def lines (text : List Char) : List (List Char) := linesFrom [] text

end TaggedHeap.Text
