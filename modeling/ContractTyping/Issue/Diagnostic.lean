import ContractTyping.Issue.Basic
import ContractTyping.Source.Writer
import ContractTyping.Text.Blank
import ContractTyping.Text.Line

/-!
# Diagnostics

An issue found at a place of the source, as an error or as a warning. `Diagnostic.display` shows it
under an excerpt of the source, with a caret below the character it starts at.
-/

namespace ContractTyping

inductive Severity
  | error
  | warning
deriving DecidableEq, Repr

namespace Severity

def word : Severity → String
  | error => "error"
  | warning => "warning"

def label : Severity → String
  | error => "Error"
  | warning => "Warning"

end Severity

structure Diagnostic where
  issue : Issue
  span : Span
  severity : Severity
deriving DecidableEq, Repr

namespace Diagnostic

def isError (d : Diagnostic) : Bool := d.severity == .error

def isWarning (d : Diagnostic) : Bool := d.severity == .warning

/-- One line: the category and the message. -/
def line (d : Diagnostic) : String := d.issue.category.text ++ ": " ++ d.issue.message

/-- The text at the end of a field that is at least so many characters wide. -/
def padLeft (fill : Char) (width : Nat) (text : String) : String :=
  String.ofList (List.replicate (width - text.length) fill) ++ text

/-- The excerpt of a line with a caret below one of its characters. Leading spaces are not shown. -/
def excerpt (place : LinePlace) : String :=
  let text := place.line.toList
  let shown := text.dropWhile (· == ' ')
  let removed := text.length - shown.length
  let number := Nat.repr place.number
  let margin := padLeft ' ' (number.length + 2) "|"
  margin ++ "\n" ++
    number ++ " | " ++ String.ofList (trimBlanks shown) ++ "\n" ++
    margin ++ " " ++ padLeft '-' (place.column - removed + 1) "^" ++ "\n"

/-- The diagnostic with its tip, the file, and an excerpt when the source has the position. -/
def display (d : Diagnostic) (file : String) (source : Option String) : String :=
  let tip := match d.issue.tip? with
    | some tip => " (" ++ tip ++ ")"
    | none => ""
  let place := source.bind fun text => lineAt? text d.span.start.offset.toNat
  d.severity.label ++ ": " ++ d.issue.name ++ tip ++ "\n" ++
    "-> " ++ file ++ "\n" ++ (place.map excerpt).getD ""

/-- The parts of a diagnostic, by name. -/
def jsonFields (d : Diagnostic) : List (String × Json) := [
  ("error", d.issue.toJson),
  ("span", d.span.toJson),
  ("severity", .string d.severity.word),
  ("name", .string d.issue.name),
  ("category", .string d.issue.category.text),
  ("message", .string d.issue.message)]

end Diagnostic

end ContractTyping
