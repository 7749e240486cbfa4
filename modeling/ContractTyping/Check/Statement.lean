import ContractTyping.Check.Variable

/-!
# Checking statements

Statements are checked in the order of the source.
-/

namespace ContractTyping

/-- The callee of a call without its options. -/
def Expr.withoutOptions : Expr → Expr
  | .callOptions _ callee _ _ => callee.withoutOptions
  | e => e

namespace Check

def invalidStatement (fault : StatementFault) (span : Span) : Check Unit :=
  report (.invalidStatement fault) span

/-- How the function is called that a checked expression calls. -/
def calleeKind? : Expr → Check (Option CallKind)
  | .call _ callee _ _ => do
    match ← expression? callee.withoutOptions.id with
    | some (.function traits _ _) => return some traits.kind
    | _ => return none
  | _ => return none

/-- Checks returned values against the return parameters. -/
def matchReturn (expected : List Ty) (actual : Ty) (value : Expr) (span : Span) : Check Unit :=
  match expected, actual with
  | [], _ => invalidStatement .returnCount span
  | [single], _ => requireConvertible actual single value.span
  | several, .tuple components =>
    if components.length != several.length then invalidStatement .returnCount span
    else requireConvertible actual (.tupleOf several) value.span
  | _, _ => invalidStatement .returnCount span

/-- Checks a return statement with a value. Only functions can return values. -/
def returnStatement (value : Expr) (span : Span) : Check Unit := do
  match (← read).scope.function with
  | none =>
    let _ ← expression value {}
    invalidStatement .returnArguments span
  | some f =>
    let expected ← variableTypes f.returns
    let actual ← expression value {}
    unless actual.isInvalid do matchReturn expected actual value span

/-- Checks the call of an emit statement. -/
def emitStatement (event : Expr) : Check Unit := do
  setEmitPending true
  let _ ← expression event {}
  setEmitPending false
  unless (← calleeKind? event) == some .event do invalidStatement .notEvent event.span

/-- What is lost when the result of a call is not used. -/
def unusedResult? : CallKind → Option UnusedResult
  | .send => some .send
  | kind => if kind.isBareCall then some .lowLevelCall else none

/-- Checks an expression that stands as a statement. -/
def expressionStatement (e : Expr) : Check Unit := do
  let _ ← expression e {}
  if let some result := (← calleeKind? e).bind unusedResult? then
    warn (.unusedCallResult result) e.span

/-! ## Declarations -/

/-- Checks the variables of a declaration. -/
def declareSlots : List (Option Variable) → Check (List (Option (Variable × Ty)))
  | [] => return []
  | none :: rest => return none :: (← declareSlots rest)
  | some v :: rest => do
    let t ← declare v .localVariable
    return some (v, t) :: (← declareSlots rest)

/-- Reports variables that cannot do without an initial value. -/
def requireInitial (declared : List (Option (Variable × Ty))) : Check Unit :=
  (declared.filterMap id).forM fun (v, t) =>
    match t with
    | .mapping .. => report (.invalidDeclaration .uninitializedMapping) v.span
    | _ =>
      if t.isStoragePointer then report (.invalidDeclaration .uninitializedPointer) v.span
      else return

/-- Checks the initial values of variables. A mismatch in a list of variables is at the variable. -/
def matchInitial (declared : List (Option (Variable × Ty))) (values : List (Option Ty))
    (initial : Expr) : Check Unit :=
  (declared.zip values).forM fun (slot, value) =>
    match slot, value with
    | some (v, t), some value =>
      requireConvertible value t (if declared.length == 1 then initial.span else v.span)
    | _, _ => return

/-- Checks a declaration of variables. -/
def declarationStatement (vars : List (Option Variable)) (initial : Option Expr) (span : Span) :
    Check Unit := do
  let declared ← declareSlots vars
  match initial with
  | none => requireInitial declared
  | some initial =>
    let t ← expression initial {}
    if t.isInvalid then return
    let values := match t with
      | .tuple components => components
      | single => [some single]
    if values.length != declared.length then
      report (.invalidOperation (.componentCount declared.length values.length)) span
    else matchInitial declared values initial

/-! ## Try statements -/

/-- Checks the call of a try statement and gives the types of what it returns. -/
def tryCall (call : Expr) : Check (List Ty) := do
  let t ← expression call {}
  match ← calleeKind? call with
  | some .external | some .creation =>
    match t with
    | .tuple components => return components.map fun component => component.getD .invalid
    | single => return [single]
  | _ =>
    invalidStatement .tryCallee call.span
    return []

/-- Checks the variables for what a successful call returns. -/
def successParameters (parameters : Option (List Variable)) (returned : List Ty) (span : Span) :
    Check Unit := do
  let declared ← declareAll (parameters.getD []) .catchParameter
  if parameters.isSome then
    if declared.length != returned.length then
      invalidStatement (.clauseCount returned.length declared.length) span
    else
      (declared.zip returned).forM fun (parameter, t) =>
        unless t.implicitlyConvertible parameter do
          invalidStatement (.clauseType t parameter) span

/-- The parameters that a catch clause of the given name has to have, and what to say otherwise. -/
def catchShape? : String → Option (List Ty × StatementFault)
  | "Error" => some ([.stringMemory], .catchError)
  | "Panic" => some ([.uint256], .catchPanic)
  | _ => none

/-- Checks the name and the parameters of a catch clause. -/
def catchParameters (errorName : String) (parameters : Option (List Variable)) (span : Span) :
    Check Unit := do
  let declared ← declareAll (parameters.getD []) .catchParameter
  match catchShape? errorName with
  | some (shape, fault) =>
    match (← read).requireFeature (.catchClause errorName) EvmVersion.supportsReturndata with
    | .error issue => report issue span
    | .ok _ => unless declared == shape do invalidStatement fault span
  | none =>
    if errorName.isEmpty then
      unless declared.isEmpty || declared == [.bytesMemory] do invalidStatement .catchLowLevel span
    else invalidStatement .catchName span

/-! ## All statements -/

mutual

def statement : Statement → Check Unit
  | .block _ body => block body
  | .placeholder node => do
    unless (← read).scope.inModifier do invalidStatement .placeholder node.span
  | .ifElse _ condition yes no => do
    expect condition .bool
    statement yes
    optionalStatement no
  | .whileLoop _ condition body _ => do
    expect condition .bool
    statement body
  | .forLoop _ initial condition step body => do
    optionalStatement initial
    if let some condition := condition then expect condition .bool
    if let some step := step then
      let _ ← expression step {}
    statement body
  | .continueLoop _ | .breakLoop _ => return
  | .returnValue node value => do
    if let some value := value then returnStatement value node.span
  | .emit _ event => emitStatement event
  | .declare node vars initial => declarationStatement vars initial node.span
  | .expression _ e => expressionStatement e
  | .tryCatch node call clauses => do
    let returned ← tryCall call
    tryClauses returned clauses
    if clauses.length < 2 then invalidStatement .missingCatch node.span

def block : Block → Check Unit
  | .mk _ body _ => statements body

def statements : List Statement → Check Unit
  | [] => return
  | s :: rest => do
    statement s
    statements rest

def optionalStatement : Option Statement → Check Unit
  | none => return
  | some s => statement s

/-- The first clause is for success. -/
def tryClauses (returned : List Ty) : List CatchClause → Check Unit
  | [] => return
  | .mk node _ parameters body :: rest => do
    successParameters parameters returned node.span
    block body
    catchClauses rest []

/-- Checks catch clauses, after those of the given names. -/
def catchClauses : List CatchClause → (before : List String) → Check Unit
  | [], _ => return
  | .mk node errorName parameters body :: rest, before => do
    if before.contains errorName then invalidStatement (.duplicateCatch errorName) node.span
    catchParameters errorName parameters node.span
    block body
    catchClauses rest (errorName :: before)

end

end Check

end ContractTyping
