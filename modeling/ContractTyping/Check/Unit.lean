import ContractTyping.Check.Contract

/-!
# Checking source units

The check of a whole source unit. Its result is a report, or the fault that ended it.
-/

namespace ContractTyping

/-- The result of a check. -/
structure Report where
  annotations : Annotations
  diagnostics : List Diagnostic

/-- A source unit passes when no error is reported. -/
def Report.passed (r : Report) : Bool := !r.diagnostics.any Diagnostic.isError

namespace Check

def unitPart : UnitPart → Check Unit
  | .contract c => contract c
  | .struct s => struct s
  | .function f => function f
  | .usingFor u => usingFor u

/-- The context of a check of a source unit. -/
def contextOf (unit : SourceUnit) (settings : Settings) : Context :=
  let declarations := Declarations.ofUnit unit
  { unit, settings, declarations, structs := declarations.structTable }

end Check

/-- Checks a source unit. -/
def check (unit : SourceUnit) (settings : Settings) : Except Fault Report := do
  let ((), found) ← (unit.parts.forM Check.unitPart).run (Check.contextOf unit settings) |>.run {}
  return ⟨found.annotations, found.diagnostics⟩

end ContractTyping
