import ContractTyping.Settings
import ContractTyping.Source.Statement

/-!
# Declarations and source units

A source unit is one parsed and linked file. Its parts are contracts, structs, functions and
using-for directives; a contract has parts of its own.
-/

namespace ContractTyping

/-- A base in an inheritance list. The arguments are absent if there are no parentheses. -/
structure BaseSpecifier where
  node : Node
  base : Path
  arguments : Option (List Expr)

/-- A modifier on a function, or the call of a base constructor. -/
structure ModifierCall where
  node : Node
  target : Path
  arguments : Option (List Expr)

structure Function where
  node : Node
  name : String
  kind : FunctionKind
  visibility : Visibility
  mutability : Mutability
  isVirtual : Bool := false
  parameters : List Variable := []
  returns : List Variable := []
  modifiers : List ModifierCall := []
  body : Option Block := none

structure Modifier where
  node : Node
  name : String
  parameters : List Variable
  body : Option Block

structure Event where
  node : Node
  name : String
  parameters : List Variable
  anonymous : Bool

/-- An asynchronous message. Sending one gives a handle that can be awaited for the results. -/
structure Message where
  node : Node
  name : String
  parameters : List Variable
  returns : List Variable

structure StructDef where
  node : Node
  name : String
  members : List Variable

/-- A directive that attaches the functions of a library to a type, or to all types. -/
structure UsingFor where
  node : Node
  library : Path
  typeName : Option TypeName

inductive ContractPart
  | function (f : Function)
  | stateVariable (v : Variable)
  | event (e : Event)
  | message (m : Message)
  | modifier (m : Modifier)
  | struct (s : StructDef)
  | usingFor (u : UsingFor)

/-- A contract. The linearization lists the contract itself and its bases, most derived first; it is
empty when none was supplied. -/
structure Contract where
  node : Node
  name : String
  kind : ContractKind
  isAbstract : Bool
  bases : List BaseSpecifier
  linearization : List NodeId
  parts : List ContractPart

inductive UnitPart
  | contract (c : Contract)
  | struct (s : StructDef)
  | function (f : Function)
  | usingFor (u : UsingFor)

structure SourceUnit where
  node : Node
  path : String
  abiCoder : Option AbiCoder
  parts : List UnitPart

instance : Inhabited Function :=
  ⟨default, "", .function, .internal, .nonPayable, false, [], [], [], none⟩

instance : Inhabited Contract := ⟨default, "", .contract, false, [], [], []⟩

namespace Function

def id (f : Function) : NodeId := f.node.id

def span (f : Function) : Span := f.node.span

def isConstructor (f : Function) : Bool := f.kind == .constructor

def isImplemented (f : Function) : Bool := f.body.isSome

end Function

namespace ContractPart

def function? : ContractPart → Option Function
  | function f => some f
  | _ => none

def stateVariable? : ContractPart → Option Variable
  | stateVariable v => some v
  | _ => none

def usingFor? : ContractPart → Option UsingFor
  | usingFor u => some u
  | _ => none

end ContractPart

namespace Contract

def id (c : Contract) : NodeId := c.node.id

def span (c : Contract) : Span := c.node.span

def isLibrary (c : Contract) : Bool := c.kind == .library

def isInterface (c : Contract) : Bool := c.kind == .interface

def functions (c : Contract) : List Function := c.parts.filterMap ContractPart.function?

def stateVariables (c : Contract) : List Variable := c.parts.filterMap ContractPart.stateVariable?

def usingForDirectives (c : Contract) : List UsingFor := c.parts.filterMap ContractPart.usingFor?

/-- The first constructor. -/
def constructor? (c : Contract) : Option Function := c.functions.find? Function.isConstructor

end Contract

namespace UnitPart

def usingFor? : UnitPart → Option UsingFor
  | usingFor u => some u
  | _ => none

end UnitPart

namespace SourceUnit

def usingForDirectives (unit : SourceUnit) : List UsingFor :=
  unit.parts.filterMap UnitPart.usingFor?

end SourceUnit

end ContractTyping
