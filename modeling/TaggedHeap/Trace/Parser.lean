import TaggedHeap.Text.Blank
import TaggedHeap.Text.Lines
import TaggedHeap.Text.Quoted
import TaggedHeap.Trace.Operation

/-!
# Reading traces

An operation is its name, its arguments between parentheses and a comma, with blanks around it and
around each argument.  A trace has one operation on each line, apart from blank lines and from
comments, whose first character is `#`.

`Operation.parse` and `Trace.parse` read them, or say what they could not read.
-/

namespace TaggedHeap

open Text

/-- A text that is no operation. -/
structure ParseError where
  /-- The number of its line in a trace, counted from one. -/
  line : Option Nat
  /-- The text without the blanks around it. -/
  text : List Char
deriving DecidableEq, Repr

namespace ParseError

/-- The error as a sentence. -/
def message (error : ParseError) : String :=
  let complaint := "not an operation: " ++ Quoted.encode error.text
  match error.line with
  | some line => "line " ++ toString line ++ ": " ++ complaint
  | none => complaint

end ParseError

/-- The parts of a text between its commas.  There is one more than there are commas. -/
def fields : List Char → List (List Char)
  | [] => [[]]
  | c :: rest =>
    if c = ',' then [] :: fields rest
    else
      match fields rest with
      | first :: others => (c :: first) :: others
      | [] => [[c]]

/-- The text between an opening and a closing text. -/
def between? (opening closing text : List Char) : Option (List Char) := do
  let rest ← opening.isPrefixOf? text
  closing.isSuffixOf? rest

/-- Reads the arguments of an operation with the given name. -/
def arguments? (name : String) (text : List Char) : Option (List Nat) := do
  let inner ← between? (name.toList ++ ['(']) [')', ','] text
  (fields inner).mapM fun field => Numeral.readDecimal (trim field)

namespace Operation

/-- Reads an operation without blanks around it. -/
def ofTrimmed? (text : List Char) : Option Operation :=
  match arguments? "Alloc" text, arguments? "Free" text, arguments? "Realloc" text with
  | some [size], _, _ => some (alloc size)
  | _, some [index], _ => some (free index)
  | _, _, some [index, size] => some (realloc index size)
  | _, _, _ => none

/-- Reads an operation with any blanks around it. -/
def parse (text : List Char) : Except ParseError Operation :=
  match ofTrimmed? (trim text) with
  | some operation => .ok operation
  | none => .error ⟨none, trim text⟩

end Operation

namespace Trace

/-- Whether a line holds no operation: it is blank, or a comment. -/
def isSkipped (line : List Char) : Bool := (trim line).isEmpty || line.head? == some '#'

/-- Reads lines, the first of which has the given number. -/
def parseLines (number : Nat) : List (List Char) → Except ParseError Trace
  | [] => .ok []
  | line :: rest =>
    if isSkipped line then parseLines (number + 1) rest
    else
      match Operation.ofTrimmed? (trim line) with
      | some operation => (parseLines (number + 1) rest).map (operation :: ·)
      | none => .error ⟨some number, trim line⟩

/-- Reads a trace. -/
def parse (text : List Char) : Except ParseError Trace := parseLines 1 (lines text)

end Trace

end TaggedHeap
