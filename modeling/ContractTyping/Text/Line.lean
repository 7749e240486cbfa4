/-!
# Lines of a text by byte offset

A line includes its line feed. Offsets and columns count bytes of the UTF-8 form.
-/

namespace ContractTyping

/-- Appends a character to the front of the first line. -/
def consLine (c : Char) : List (List Char) → List (List Char)
  | [] => [[c]]
  | line :: rest => (c :: line) :: rest

/-- The lines of a text, each with its line feed if it has one. -/
def lineChars : List Char → List (List Char)
  | [] => []
  | c :: rest => if c = '\n' then [c] :: lineChars rest else consLine c (lineChars rest)

/-- The lines of a text, each with its line feed if it has one. -/
def textLines (text : String) : List String := (lineChars text.toList).map String.ofList

/-- A place in a text: the line's number from one, the line, and the byte column in it. -/
structure LinePlace where
  number : Nat
  line : String
  column : Nat
deriving DecidableEq, Repr

/-- Finds the line that holds an offset, counting from the given line number. -/
def findLine (number : Nat) : List String → Nat → Option LinePlace
  | [], _ => none
  | line :: rest, offset =>
    if offset < line.utf8ByteSize then some ⟨number, line, offset⟩
    else findLine (number + 1) rest (offset - line.utf8ByteSize)

/-- The line that holds a byte offset; none when the offset lies past the end. -/
def lineAt? (text : String) (offset : Nat) : Option LinePlace := findLine 1 (textLines text) offset

end ContractTyping
