import ContractTyping.Check.Statement

/-!
# Checking contracts and other declarations

The shape of functions, events, messages and structs, the rules of inheritance, and what the
different kinds of contract may contain.
-/

namespace ContractTyping

/-- The visibility of a function for callers when it may be left out. -/
def Function.effectiveVisibility (f : Function) (inContract : Bool) : Visibility :=
  match f.kind, f.visibility with
  | .fallback, _ | .receive, _ => .external
  | .constructor, _ => .pub
  | .function, .unspecified => if inContract then .pub else .internal
  | .function, visibility => visibility

/-- Whether a function of this mutability may change the state. -/
def Mutability.mayChangeState : Mutability → Bool
  | payable | nonPayable => true
  | _ => false

namespace Function

/-- What is wrong with the shape of a function, in the order of the rules. -/
def shapeFaults (f : Function) (contract : Option Contract) : List SignatureFault :=
  let faults (rules : List (Bool × SignatureFault)) : List SignatureFault :=
    (rules.filter Prod.fst).map Prod.snd
  match f.kind with
  | .fallback => faults [
    (f.visibility != .external, .fallbackVisibility),
    (!f.mutability.mayChangeState, .fallbackMutability f.mutability),
    (!f.parameters.isEmpty, .fallbackParameters),
    (!f.returns.isEmpty, .fallbackReturns)]
  | .receive => faults [
    (f.visibility != .external, .receiveVisibility),
    (f.mutability != .payable, .receiveMutability f.mutability),
    (!f.parameters.isEmpty, .receiveParameters),
    (!f.returns.isEmpty, .receiveReturns)]
  | .constructor => faults [
    (!f.mutability.mayChangeState, .constructorMutability f.mutability),
    (!f.returns.isEmpty, .constructorReturns)]
  | .function => faults [
    (!f.isImplemented && !contract.any Contract.isInterface && !f.isVirtual, .unimplemented),
    (contract.isNone && !f.isImplemented, .freeUnimplemented),
    (contract.isNone && (f.visibility.isExternallyVisible || f.visibility == .priv),
      .freeVisibility)]

/-- What a function cannot have in a library. -/
def libraryFault? (f : Function) : Option SignatureFault :=
  match f.kind with
  | .constructor => some .libraryConstructor
  | .fallback => some .libraryFallback
  | .receive => some .libraryReceive
  | .function => if f.mutability == .payable then some .libraryPayable else none

/-- What a function cannot have in an interface. -/
def interfaceIssues (f : Function) : List Issue :=
  if f.isConstructor then [.invalidDeclaration .interfaceConstructor]
  else
    (if f.visibility != .external then [.functionSignature .interfaceVisibility] else []) ++
      if f.isImplemented then [.functionSignature .interfaceImplementation] else []

end Function

namespace Contract

/-- What a contract cannot contain, because of what kind of contract it is. -/
def kindIssues (c : Contract) : List (Issue × Span) :=
  match c.kind with
  | .interface =>
    c.stateVariables.map (fun v => (.invalidDeclaration .interfaceVariable, v.span)) ++
      c.functions.flatMap fun f => f.interfaceIssues.map fun issue => (issue, f.span)
  | .library =>
    (c.stateVariables.filter fun v => !v.isConstant).map
        (fun v => (.invalidDeclaration .libraryVariable, v.span)) ++
      c.functions.filterMap fun f => f.libraryFault?.map fun fault =>
        (.functionSignature fault, f.span)
  | .contract =>
    if !c.isAbstract && c.functions.any fun f => !f.isImplemented then
      [(.invalidDeclaration (.notAbstract c.name), c.span)]
    else []

/-- Why a contract cannot inherit from another one. -/
def baseFault? (c base : Contract) : Option DeclarationFault :=
  if base.isLibrary then some .libraryBase
  else if c.isLibrary then some .libraryInherits
  else if c.isInterface && !base.isInterface then some .interfaceBase
  else none

end Contract

namespace Check

def invalidDeclaration (fault : DeclarationFault) (span : Span) : Check Unit :=
  report (.invalidDeclaration fault) span

/-! ## Functions and modifiers -/

/-- Checks arguments, if there are any, against the constructor of a contract. Without a constructor
there are no parameters. -/
def passToConstructor (c : Contract) (arguments : Option Arguments) (span : Span) : Check Unit := do
  let parameters := match c.constructor? with
    | some f => f.parameters
    | none => []
  let types ← variableTypes parameters
  if let some arguments := arguments then
    passArguments .constructorCall types (parameters.map Variable.name) arguments span

/-- Checks the arguments of a modifier or of a base, if there are any. -/
def optionalArguments : Option (List Expr) → Check (Option Arguments)
  | none => return none
  | some arguments => some <$> positional arguments

/-- Checks a modifier of a function. A constructor can also name bases. -/
def modifierCall (bases : List NodeId) (m : ModifierCall) : Check Unit := do
  let arguments ← optionalArguments m.arguments
  match ← followPath m.target with
  | none => return
  | some declaration =>
    let neither := report (.notModifierOrBase m.target.name) m.node.span
    match declaration.item with
    | .contract c =>
      if bases.contains c.id then passToConstructor c arguments m.node.span else neither
    | .modifier definition =>
      passArguments .modifierInvocation (← variableTypes definition.parameters)
        (definition.parameters.map Variable.name) (arguments.getD { types := [] }) m.node.span
    | _ => neither

/-- The bases whose constructors a function may call. -/
def constructibleBases (f : Function) : Check (List NodeId) := do
  let context ← read
  match context.scope.contract with
  | some c =>
    if f.isConstructor then
      return (context.declarations.linearized c).filter fun id => id != c.id
    else return []
  | none => return []

def optionalBlock : Option Block → Check Unit
  | none => return
  | some body => block body

def function (f : Function) : Check Unit := do
  let contract := (← read).scope.contract
  within { contract, function := some f } do
    let visibility := f.effectiveVisibility contract.isSome
    let isLibrary := contract.any Contract.isLibrary
    let _ ← declareAll f.parameters (.parameter visibility isLibrary false)
    let _ ← declareAll f.returns (.parameter visibility isLibrary true)
    (f.shapeFaults contract).forM fun fault => report (.functionSignature fault) f.span
    let bases ← constructibleBases f
    f.modifiers.forM (modifierCall bases)
    optionalBlock f.body

def modifier (m : Modifier) : Check Unit := do
  let contract := (← read).scope.contract
  within { contract, inModifier := true } do
    let isLibrary := contract.any Contract.isLibrary
    let _ ← declareAll m.parameters (.parameter .internal isLibrary false)
    optionalBlock m.body

/-! ## Events, messages, structs and directives -/

/-- The number of indexed parameters is limited; an anonymous event can have one more. -/
def event (e : Event) : Check Unit := do
  e.parameters.forM fun v => do
    let t ← declare v .eventParameter
    unless t.isInvalid do requireCrossing t false .event v.span
  let indexed := (e.parameters.filter fun v => v.traits.indexed).length
  if e.anonymous then
    if indexed > 4 then invalidDeclaration .anonymousEventIndexed e.node.span
  else if indexed > 3 then invalidDeclaration .eventIndexed e.node.span

def message (m : Message) : Check Unit :=
  (m.parameters ++ m.returns).forM fun v => do
    let t ← declare v .messageParameter
    if t.isInvalid then return
    if (← read).structs.containsMapping t then
      report (.notEncodable t .messageWithMapping) v.span
    else requireCrossing t false .message v.span

/-- Finds and records the type of a member of a struct. -/
def structField (v : Variable) : Check Unit := do
  let t ← match v.typeName with
    | none => reject (.invalidDeclaration .untyped) v.span
    | some typeName => orReject (← resolve typeName ⟨.storage, false⟩) typeName.span
  annotateVariable v.id t

def struct (s : StructDef) : Check Unit := do
  if s.members.isEmpty then invalidDeclaration .emptyStruct s.node.span
  s.members.forM structField
  if (← read).structs.hasInfiniteSize s.node.id then invalidDeclaration .infiniteStruct s.node.span

def usingFor (u : UsingFor) : Check Unit := do
  if let some declaration ← followPath u.library then
    let isLibrary := match declaration.item with
      | .contract c => c.isLibrary
      | _ => false
    unless isLibrary do invalidDeclaration .libraryExpected u.library.node.span
  if let some typeName := u.typeName then
    if let .error issue ← resolve typeName ⟨.storage, true⟩ then report issue typeName.span

/-! ## Contracts -/

/-- Checks a base of a contract. -/
def baseSpecifier (c : Contract) (specifier : BaseSpecifier) : Check Unit := do
  let span := specifier.node.span
  let arguments ← optionalArguments specifier.arguments
  match ← followPath specifier.base with
  | none => return
  | some ⟨.contract base, _⟩ =>
    if let some fault := c.baseFault? base then invalidDeclaration fault span
    if arguments.isSome then
      if c.isInterface then invalidDeclaration .interfaceArguments span
      else passToConstructor base arguments span
  | some _ => invalidDeclaration .contractExpected span

/-- The getter of a public state variable crosses the interface. -/
def getter (v : Variable) : Check Unit := do
  let f ← getterType v
  (f.parameters ++ f.returns).forM fun t => requireCrossing t false .getter v.span

/-- Checks the parts of a contract, given the types of its state variables. -/
def contractParts : List ContractPart → List Ty → Check Unit
  | [], _ => return
  | .stateVariable v :: rest, types => do
    let t := types.head?.getD .invalid
    stateVariableValue v t
    if v.traits.visibility == .pub && !t.isInvalid then getter v
    contractParts rest types.tail
  | part :: rest, types => do
    match part with
    | .function f => function f
    | .event e => event e
    | .message m => message m
    | .modifier m => modifier m
    | .struct s => struct s
    | .usingFor u => usingFor u
    | .stateVariable _ => pure ()
    contractParts rest types

/-- Whether a contract lies on an inheritance cycle or leads to one, so that its members cannot be
checked. A cycle is reported once, at a contract that lies on it. -/
def isCyclic (c : Contract) : Check Bool := do
  let declarations := (← read).declarations
  let known := (← get).cyclic
  if known.contains c.id then return true
  match declarations.cycle? c with
  | none => return false
  | some cycle =>
    unless cycle.any known.contains do
      let anchor := (cycle.head?.bind declarations.contract?).getD c
      report (.inheritanceCycle anchor.name) anchor.span
    modify fun found => { found with cyclic := c.id :: (cycle ++ found.cyclic) }
    return true

/-- Checks a contract: its bases, the types of its state variables, then its parts in order. -/
def contract (c : Contract) : Check Unit := do
  unless ← isCyclic c do
    within { contract := some c } do
      c.bases.forM (baseSpecifier c)
      let types ← declareAll c.stateVariables .state
      contractParts c.parts types
      c.kindIssues.forM fun (issue, span) => report issue span

end Check

end ContractTyping
