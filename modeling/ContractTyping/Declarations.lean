import ContractTyping.Source.Global
import ContractTyping.Source.Unit

/-!
# Declarations of a source unit

All declarations of a unit, collected before anything is checked, so that references to later parts
of the file can be followed. Each one comes with the contract that it lies in.

Identities should be unique. Where they are not, the later declaration counts.
-/

namespace ContractTyping

/-- A thing that a name can refer to. -/
inductive DeclaredItem
  | contract (c : Contract)
  | function (f : Function)
  | modifier (m : Modifier)
  | event (e : Event)
  | message (m : Message)
  | struct (s : StructDef)
  | var (v : Variable)
  | global (g : Global)

namespace DeclaredItem

def name : DeclaredItem → String
  | contract c => c.name
  | function f => f.name
  | modifier m => m.name
  | event e => e.name
  | message m => m.name
  | struct s => s.name
  | var v => v.name
  | global g => g.name

/-- The word for the kind of a declaration. -/
def kindWord : DeclaredItem → String
  | contract _ => "Contract"
  | function _ => "Function"
  | modifier _ => "Modifier"
  | event _ => "Event"
  | message _ => "Message"
  | struct _ => "Struct"
  | var _ => "Variable"
  | global _ => "Magic"

def var? : DeclaredItem → Option Variable
  | var v => some v
  | _ => none

end DeclaredItem

/-- A declaration and the contract that it lies in, which is none at the level of the file. -/
structure Declaration where
  item : DeclaredItem
  scope : Option NodeId

/-! ## Variables inside declarations -/

mutual

/-- A variable and those inside its type name. -/
def Variable.withInner : Variable → List Variable
  | .mk traits none value => [.mk traits none value]
  | .mk traits (some typeName) value =>
    .mk traits (some typeName) value :: typeName.innerVariables

/-- The parameters of the function types in a type name. -/
def TypeName.innerVariables : TypeName → List Variable
  | .function _ parameters returns _ _ =>
    variablesWithInner parameters ++ variablesWithInner returns
  | .mapping _ key value => key.innerVariables ++ value.innerVariables
  | .array _ base _ => base.innerVariables
  | .elementary .. | .userDefined .. => []

def variablesWithInner : List Variable → List Variable
  | [] => []
  | v :: rest => v.withInner ++ variablesWithInner rest

end

mutual

/-- The variables declared in a statement, at any depth. -/
def Statement.vars : Statement → List Variable
  | .block _ body => body.vars
  | .ifElse _ _ yes no =>
    yes.vars ++
      match no with
      | some no => no.vars
      | none => []
  | .whileLoop _ _ body _ => body.vars
  | .forLoop _ initial _ _ body =>
    (match initial with
      | some initial => initial.vars
      | none => []) ++ body.vars
  | .declare _ vars _ => variablesWithInner (vars.filterMap id)
  | .tryCatch _ _ clauses => clausesVariables clauses
  | .placeholder _ | .continueLoop _ | .breakLoop _ | .returnValue .. | .emit .. | .expression .. =>
    []

def Block.vars : Block → List Variable
  | .mk _ statements _ => statementsVariables statements

def statementsVariables : List Statement → List Variable
  | [] => []
  | s :: rest => s.vars ++ statementsVariables rest

def clausesVariables : List CatchClause → List Variable
  | [] => []
  | .mk _ _ parameters body :: rest =>
    variablesWithInner (parameters.getD []) ++ body.vars ++ clausesVariables rest

end

/-! ## Collecting -/

/-- Declarations by identity, in the order of the file. -/
abbrev DeclarationList := List (NodeId × Declaration)

def variableDeclarations (scope : Option NodeId) (vars : List Variable) : DeclarationList :=
  vars.map fun v => (v.id, ⟨.var v, scope⟩)

def bodyVariables : Option Block → List Variable
  | some body => body.vars
  | none => []

def Function.declarations (f : Function) (scope : Option NodeId) : DeclarationList :=
  (f.id, ⟨.function f, scope⟩) ::
    variableDeclarations scope
      (variablesWithInner f.parameters ++ variablesWithInner f.returns ++ bodyVariables f.body)

def StructDef.declarations (s : StructDef) (scope : Option NodeId) : DeclarationList :=
  (s.node.id, ⟨.struct s, scope⟩) :: variableDeclarations scope (variablesWithInner s.members)

def ContractPart.declarations (scope : Option NodeId) : ContractPart → DeclarationList
  | function f => f.declarations scope
  | stateVariable v => variableDeclarations scope v.withInner
  | event e =>
    (e.node.id, ⟨.event e, scope⟩) :: variableDeclarations scope (variablesWithInner e.parameters)
  | message m =>
    (m.node.id, ⟨.message m, scope⟩) ::
      variableDeclarations scope (variablesWithInner m.parameters ++ variablesWithInner m.returns)
  | modifier m =>
    (m.node.id, ⟨.modifier m, scope⟩) ::
      variableDeclarations scope (variablesWithInner m.parameters ++ bodyVariables m.body)
  | struct s => s.declarations scope
  | usingFor _ => []

def Contract.declarations (c : Contract) : DeclarationList :=
  (c.id, ⟨.contract c, none⟩) :: c.parts.flatMap (ContractPart.declarations (some c.id))

def UnitPart.declarations : UnitPart → DeclarationList
  | contract c => c.declarations
  | struct s => s.declarations none
  | function f => f.declarations none
  | usingFor _ => []

/-- The declarations of a unit, the latest first. -/
structure Declarations where
  entries : DeclarationList
  contracts : List Contract

namespace Declarations

def ofUnit (unit : SourceUnit) : Declarations where
  entries := (unit.parts.flatMap UnitPart.declarations).reverse
  contracts := unit.parts.filterMap fun part =>
    match part with
    | .contract c => some c
    | _ => none

/-- The declaration of the file with the given identity. -/
def find? (d : Declarations) (id : NodeId) : Option Declaration := d.entries.lookup id

/-- What an identity refers to. Negative ones refer to globals only. -/
def lookup? (d : Declarations) (id : NodeId) : Option Declaration :=
  if id.isGlobal then (Global.ofId? id).map fun g => ⟨.global g, none⟩ else d.find? id

def contract? (d : Declarations) (id : NodeId) : Option Contract :=
  match d.find? id with
  | some ⟨.contract c, _⟩ => some c
  | _ => none

/-- The struct with the given identity and the contract that it lies in. -/
def struct? (d : Declarations) (id : NodeId) : Option (StructDef × Option NodeId) :=
  match d.find? id with
  | some ⟨.struct s, scope⟩ => some (s, scope)
  | _ => none

/-- The variable with the given identity. -/
def var? (d : Declarations) (id : NodeId) : Option Variable :=
  (d.lookup? id).bind fun declaration => declaration.item.var?

end Declarations

end ContractTyping
