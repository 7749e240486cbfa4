import ContractTyping.Check.Basic

/-!
# Types of declarations

The type that a declaration has for those who refer to it. A variable that has not been checked yet
has the type it is declared with.
-/

namespace ContractTyping

namespace Ty

/-- Outside callers pass memory where the function itself sees calldata. -/
def calldataToMemory (t : Ty) : Ty :=
  if t.location? == some .calldata then t.moveTo .memory else t

/-- The parameters of a getter, one for each mapping and array, and what is left of the type. -/
def getterParts : Ty → List Ty × Ty
  | mapping key value =>
    let (parameters, result) := value.getterParts
    (key.moveTo .memory :: parameters, result)
  | array element _ _ =>
    let (parameters, result) := element.getterParts
    (uint256 :: parameters, result)
  | t => ([], t)

/-- Whether a getter leaves a member of a struct out. -/
def isOmittedByGetter : Ty → Bool
  | mapping .. | array .. => true
  | _ => false

end Ty

/-- The type of a reference to a global inside a contract or outside. -/
def Global.type? (g : Global) (contract : Option ContractTy) : Option Ty :=
  let builtin (kind : CallKind) (parameters returns : List Ty) (mutability : Mutability) :
    Option Ty :=
    some { FunctionTy.of kind parameters returns mutability with declaration := some g.id }.toTy
  match g.kind with
  | .abi => some (.magic .abi)
  | .block => some (.magic .block)
  | .message => some (.magic .message)
  | .transaction => some (.magic .transaction)
  | .this => contract.map .contract
  | .super => contract.map fun c => .contract { c with isSuper := true }
  | .metaType => builtin .metaType [] [] .pure
  | .require => builtin .require [.bool] [] .pure
  | .requireWithMessage => builtin .require [.bool, .stringMemory] [] .pure
  | .assert => builtin .assert [.bool] [] .pure
  | .revert => builtin .revert [] [] .pure
  | .revertWithMessage => builtin .revert [.stringMemory] [] .pure
  | .keccak256 => builtin .keccak256 [.bytesMemory] [.fixedBytes 32] .pure
  | .sha256 => builtin .sha256 [.bytesMemory] [.fixedBytes 32] .pure
  | .ripemd160 => builtin .ripemd160 [.bytesMemory] [.fixedBytes 20] .pure
  | .ecrecover =>
    builtin .ecRecover [.fixedBytes 32, .integer 8 false, .fixedBytes 32, .fixedBytes 32]
      [.address false] .pure
  | .addMod => builtin .addMod [.uint256, .uint256, .uint256] [.uint256] .pure
  | .mulMod => builtin .mulMod [.uint256, .uint256, .uint256] [.uint256] .pure
  | .gasLeft => builtin .gasLeft [] [.uint256] .view
  | .blockHash => builtin .blockHash [.uint256] [.fixedBytes 32] .view
  | .selfdestruct => builtin .selfdestruct [.address true] [] .nonPayable

namespace Check

/-- The type of a variable: the recorded one, or that of its declaration. -/
def variableType (v : Variable) : Check Ty := do
  match (← get).annotations.var? v.id with
  | some t => return t
  | none => ofExcept (Declarations.orInvalid ((← read).declarations.declaredType v))

def variableTypes (vars : List Variable) : Check (List Ty) := vars.mapM variableType

/-- The type of a function when it is called in the given way. -/
def functionType (f : Function) (kind : CallKind) : Check FunctionTy := do
  let parameters ← variableTypes f.parameters
  let returns ← variableTypes f.returns
  let seen (types : List Ty) := if kind == .external then types.map Ty.calldataToMemory else types
  return {
    kind
    parameterNames := f.parameters.map Variable.name
    returnNames := f.returns.map Variable.name
    mutability := f.mutability
    declaration := some f.id
    parameters := seen parameters
    returns := seen returns }

def eventType (e : Event) : Check Ty := do
  let parameters ← variableTypes e.parameters
  return { FunctionTy.of .event parameters [] .nonPayable with
    parameterNames := e.parameters.map Variable.name
    declaration := some e.node.id }.toTy

/-- Sending a message gives a handle for the values that it returns. -/
def messageType (m : Message) : Check Ty := do
  let returns ← variableTypes m.returns
  let parameters ← variableTypes m.parameters
  return { FunctionTy.of .message (parameters.map Ty.calldataToMemory) [.handle returns]
    .payable with
    parameterNames := m.parameters.map Variable.name
    declaration := some m.node.id }.toTy

/-- The type of the getter of a public state variable. -/
def getterType (v : Variable) : Check FunctionTy := do
  let (parameters, result) := (← variableType v).getterParts
  let returns ← match result with
    | .struct id _ _ => do
      let members ← structMembers id .memory
      pure ((members.map Prod.snd).filter fun t => !t.isOmittedByGetter)
    | t => pure [t.moveTo .memory]
  return { FunctionTy.of .external parameters returns .view with declaration := some v.id }

/-- The type of a reference to a declaration by its plain name. -/
def declarationType (declaration : Declaration) (name : String) (span : Span) : Check Ty := do
  let context ← read
  match declaration.item with
  | .var v => variableType v
  | .function f => return (← functionType f .internal).toTy
  | .modifier m => return .modifier (← variableTypes m.parameters)
  | .event e => eventType e
  | .message m => messageType m
  | .struct s =>
    return .typeType (context.declarations.structTy s declaration.scope ⟨.storage, true⟩)
  | .contract c => return .typeType (.contract (context.declarations.contractTy c))
  | .global g =>
    match g.type? (context.scope.contract.map context.declarations.contractTy) with
    | some t => return t
    | none => reject (.unresolvedReference name) span

/-- The declaration that a path names. One that was never linked is reported. -/
def followPath (path : Path) : Check (Option Declaration) := do
  match path.target with
  | none =>
    report (.unresolvedReference path.name) path.node.span
    return none
  | some id =>
    match (← read).declarations.lookup? id with
    | some declaration => return some declaration
    | none => fail (.danglingReference path.node.id id)

end Check

end ContractTyping
