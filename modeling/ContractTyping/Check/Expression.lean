import ContractTyping.Check.Assignability
import ContractTyping.Check.Call
import ContractTyping.Check.Member
import ContractTyping.Check.Operation

/-!
# Checking expressions

Every expression is visited once, its parts before itself, and its type is recorded. The arguments
of a call are visited before the callee.
-/

namespace ContractTyping

namespace Check

/-- Says that the next call to be visited is the one that an emit statement is about, or not. -/
def setEmitPending (pending : Bool) : Check Unit :=
  modify fun found => { found with emitPending := pending }

/-- Whether the call being visited is the one that an emit statement is about. -/
def takeEmitPending : Check Bool := do
  let pending := (← get).emitPending
  setEmitPending false
  return pending

/-- A named call has a name for each argument. -/
def requireNames (node : NodeId) (names values : Nat) : Check Unit := do
  if names != values then fail (.argumentNamesMismatch node names values)

/-- The type of an inline array from what was found about its elements. Nothing was found if a
component is missing; otherwise there is the common type, if any, and whether all elements are
valid. -/
def inlineArrayType (length : Nat) (found : Option (Option Ty × Bool)) (span : Span) : Check Ty :=
  match found with
  | none => reject (.invalidOperation .emptyElement) span
  | some (some element, true) => return .arrayOf element (some length) .memory
  | some (_, false) => return .invalid
  | some (none, true) => reject (.invalidOperation .elementType) span

mutual

/-- Finds and records the type of an expression. -/
def expression : Expr → Demand → Check Ty
  | .identifier node name target overloads, demand => do
    annotate node.id (← identifierType node name target overloads demand)
  | .elementaryType node name payable, _ => do
    match Ty.elementary? name payable with
    | .ok t => annotate node.id (.typeType t)
    | .error refusal =>
      annotate node.id (← reject (.invalidTypeName (.elementary refusal)) node.span)
  | .literal node kind text unit, _ => do
    match literalType kind text unit with
    | .ok t => annotate node.id t
    | .error fault => annotate node.id (← reject (.invalidLiteral text fault) node.span)
  | .unary node op _ operand, _ => do
    let t ← expression operand { isTarget := op.isModifying }
    if op.isModifying then requireAssignable false operand
    annotate node.id (← unaryType op t node.span)
  | .binary node op left right, _ => do
    let leftType ← expression left {}
    let rightType ← expression right {}
    annotate node.id (← binaryType op leftType rightType node.span)
  | .assignment node op left right, _ => do
    let leftType ← expression left { isTarget := true }
    requireAssignable op.isNone left
    let rightType ← expression right {}
    annotate node.id (← assignmentType op left right leftType rightType node.span)
  | .conditional node condition yes no, _ => do
    let conditionType ← expression condition {}
    requireConvertible conditionType .bool condition.span
    let yesType ← expression yes {}
    let noType ← expression no {}
    annotate node.id (← conditionalType yesType noType node.span)
  | .tuple node components true, _ => do
    let found ← elements components none true
    annotate node.id (← inlineArrayType components.length found node.span)
  | .tuple node parts false, demand => do
    annotate node.id (tupleType (← components demand.isTarget node.span parts))
  | .call node callee arguments names, _ => do
    unless names.isEmpty do requireNames node.id names.length arguments.length
    let emitted ← takeEmitPending
    let types ← expressions arguments
    let passed : Arguments := { types, names, spans := arguments.map Expr.span }
    let calleeType ← expression callee { arguments := some passed }
    annotate node.id (← callType calleeType passed emitted node.span)
  | .callOptions node callee names options, demand => do
    requireNames node.id names.length options.length
    let calleeType ← expression callee { arguments := demand.arguments }
    let types ← expressions options
    let given := names.zip (types.zip (options.map Expr.span))
    annotate node.id (← callOptionsType calleeType given node.span)
  | .create node typeName, _ => do
    annotate node.id (← creationType typeName node.span)
  | .await node handle, _ => do
    let handleType ← expression handle {}
    annotate node.id (← awaitType handleType node.span)
  | .member node base name, demand => do
    let baseType ← expression base {}
    annotate node.id (← memberType baseType name demand.arguments node.span)
  | .index node base none, demand => do
    let baseType ← expression base {}
    match baseType with
    | .typeType actual => annotate node.id (← arrayTypeType actual none demand.isTarget node.span)
    | _ =>
      if needsIndex baseType then annotate node.id (← reject (.invalidIndex .omitted) node.span)
      else annotate node.id (← elementType baseType .invalid node.span)
  | .index node base (some index), demand => do
    let baseType ← expression base {}
    let indexType ← expression index {}
    match baseType, expectedIndex? baseType with
    | .typeType actual, _ =>
      match ← lengthOfIndex index indexType with
      | none => annotate node.id .invalid
      | length => annotate node.id (← arrayTypeType actual length demand.isTarget node.span)
    | _, some expected =>
      requireConvertible indexType expected index.span
      annotate node.id (← elementType baseType indexType node.span)
    | _, none => annotate node.id (← elementType baseType indexType node.span)
  | .slice node base start stop, _ => do
    let baseType ← expression base {}
    bound start
    bound stop
    annotate node.id (← sliceType baseType node.span)

/-- Checks expressions in order. -/
def expressions : List Expr → Check (List Ty)
  | [] => return []
  | e :: rest => do
    let t ← expression e {}
    return t :: (← expressions rest)

/-- Checks the components of a tuple. Only a target may leave some out. -/
def components (isTarget : Bool) (span : Span) : List (Option Expr) → Check (List (Option Ty))
  | [] => return []
  | some e :: rest => do
    let t ← expression e { isTarget }
    return some t :: (← components isTarget span rest)
  | none :: rest => do
    let t ← if isTarget then pure none else some <$> reject (.invalidOperation .emptyComponent) span
    return t :: (← components isTarget span rest)

/-- Checks the elements of an inline array, up to one missing or without a type in common. -/
def elements : List (Option Expr) → Option Ty → Bool → Check (Option (Option Ty × Bool))
  | [], common, valid => return some (common, valid)
  | none :: _, _, _ => return none
  | some e :: rest, common, valid => do
    let t ← expression e {}
    if t.isInvalid then elements rest common false
    else match Ty.joinElement common t with
      | none => return some (none, valid)
      | joined => elements rest joined valid

/-- Checks a bound of a slice. -/
def bound : Option Expr → Check Unit
  | none => return
  | some e => do
    let t ← expression e {}
    requireConvertible t .uint256 e.span

end

/-- Checks an expression that has to convert to a type. -/
def expect (e : Expr) (expected : Ty) : Check Unit := do
  let t ← expression e {}
  requireConvertible t expected e.span

/-- Checks arguments that are passed by position. -/
def positional (arguments : List Expr) : Check Arguments :=
  return { types := ← expressions arguments, spans := arguments.map Expr.span }

end Check

end ContractTyping
