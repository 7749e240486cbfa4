import ContractTyping.Abi.Encoding
import ContractTyping.Annotations
import ContractTyping.Arguments
import ContractTyping.Issue.Diagnostic
import ContractTyping.Resolution

/-!
# The state of a check

A check reads its context, records annotations and diagnostics, and ends early only with a fault.
-/

namespace ContractTyping

/-- The declarations around what is being checked. -/
structure Scope where
  contract : Option Contract := none
  function : Option Function := none
  inModifier : Bool := false

/-- What a check knows from the start, and where it is. -/
structure Context where
  unit : SourceUnit
  settings : Settings
  declarations : Declarations
  structs : StructTable
  scope : Scope := {}

namespace Context

/-- The coder of the source unit; if it names none, that of the settings. -/
def abiCoder (c : Context) : AbiCoder := c.unit.abiCoder.getD c.settings.abiCoder

/-- The identity of the contract around what is being checked. -/
def contractId? (c : Context) : Option NodeId := c.scope.contract.map Contract.id

/-- An issue about a feature that the target machine may lack. -/
def requireFeature (c : Context) (feature : Feature) (available : EvmVersion → Bool) :
    Except Issue Unit :=
  if available c.settings.evmVersion then .ok ()
  else .error (.featureUnavailable feature c.settings.evmVersion)

end Context

/-- What has been found so far. -/
structure Findings where
  annotations : Annotations := {}
  diagnostics : List Diagnostic := []
  /-- The next call is the one that an emit statement is about. -/
  emitPending : Bool := false
  /-- Contracts that lie on a cycle or lead to one. -/
  cyclic : List NodeId := []

abbrev Check (α : Type) := ReaderT Context (StateT Findings (Except Fault)) α

/-- What the surroundings of an expression ask of it. -/
structure Demand where
  /-- It is written to. -/
  isTarget : Bool := false
  /-- It is called with these arguments. -/
  arguments : Option Arguments := none
deriving Inhabited

namespace Check

def fail {α : Type} (fault : Fault) : Check α := throw fault

/-- Goes on with what does not record anything. -/
def ofExcept {α : Type} (result : Except Fault α) : Check α :=
  match result with
  | .ok value => pure value
  | .error fault => fail fault

def record (issue : Issue) (span : Span) (severity : Severity) : Check Unit :=
  modify fun found => { found with diagnostics := found.diagnostics ++ [⟨issue, span, severity⟩] }

/-- Records an error. -/
def report (issue : Issue) (span : Span) : Check Unit := record issue span .error

/-- Records a warning. -/
def warn (issue : Issue) (span : Span) : Check Unit := record issue span .warning

/-- Records an error and goes on with the invalid type. -/
def reject (issue : Issue) (span : Span) : Check Ty := do
  report issue span
  return .invalid

/-- Goes on with a type, or records the issue that stands in its place. -/
def orReject (result : Except Issue Ty) (span : Span) : Check Ty :=
  match result with
  | .ok t => pure t
  | .error issue => reject issue span

/-- Records the type of an expression. -/
def annotate (id : NodeId) (t : Ty) : Check Ty := do
  let found ← get
  let (annotations, fault) := found.annotations.annotateExpression id t
  set { found with annotations }
  if let some fault := fault then fail fault
  return t

/-- Records the type of a variable. -/
def annotateVariable (id : NodeId) (t : Ty) : Check Unit := do
  let found ← get
  let (annotations, fault) := found.annotations.annotateVariable id t
  set { found with annotations }
  if let some fault := fault then fail fault

/-- The recorded type of an expression. -/
def expression? (id : NodeId) : Check (Option Ty) :=
  return (← get).annotations.expression? id

/-- Checks inside another scope. -/
def within {α : Type} (scope : Scope) (check : Check α) : Check α :=
  withReader (fun context => { context with scope }) check

/-- Resolves a type name, or gives the issue with it. -/
def resolve (typeName : TypeName) (place : Place) : Check (Except Issue Ty) := do
  ofExcept ((← read).declarations.resolve typeName place).run

/-- The value of an expression, if it is constant. -/
def evaluate (e : Expr) : Check (Option Fraction) := do
  ofExcept ((← read).declarations.evaluate e)

def structMembers (id : NodeId) (location : DataLocation) : Check (List (String × Ty)) := do
  ofExcept ((← read).declarations.structMembers id location)

/-- Reports a value that does not convert to the type expected of it. -/
def requireConvertible (received expected : Ty) (span : Span) : Check Unit := do
  unless received.implicitlyConvertible expected do report (.typeMismatch expected received) span

end Check

end ContractTyping
