import ContractTyping.Check.Unit

/-!
# Reports as text and as JSON
-/

namespace ContractTyping

/-- The types of nodes as texts, by the numbers of the nodes. -/
def TypeTable.toJson (table : TypeTable) : Json :=
  .object (table.map fun (id, t) => (id.decimal, .string t.text))

def Annotations.toJson (a : Annotations) : Json :=
  .object [("expressions", a.expressions.toJson), ("variables", a.vars.toJson)]

def Diagnostic.toJson (d : Diagnostic) : Json :=
  .object
    [("error", d.issue.toJson), ("span", d.span.toJson), ("severity", .string d.severity.word)]

namespace Report

def toJson (r : Report) : Json := .object [
  ("passed", .bool r.passed),
  ("diagnostics", .ofList Diagnostic.toJson r.diagnostics),
  ("annotations", r.annotations.toJson)]

/-- Every diagnostic with its excerpt and its message, and an empty line behind it. -/
def text (r : Report) (file : String) (source : Option String) : String :=
  String.join (r.diagnostics.map fun d => d.display file source ++ d.issue.message ++ "\n\n")

end Report

end ContractTyping
