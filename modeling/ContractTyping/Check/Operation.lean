import ContractTyping.Check.DeclarationType
import ContractTyping.Check.StorageGuard
import ContractTyping.Literal.HexString

/-!
# Types of single expressions

The type of an expression from the types of its parts, which have been checked before.
-/

namespace ContractTyping

/-! ## Literals -/

/-- The type of a number literal, with a unit or without. -/
def numberLiteralType (text : String) (unit : Option Denomination) : Except LiteralFault Ty := do
  let value ← (NumberLiteral.parse text).mapError .number
  let scaled ← match unit with
    | some unit => (value.mul (.ofNatural (.ofWord unit.multiplier))).elim (throw .tooLarge) pure
    | none => pure value
  if scaled.exceedsLimit then throw .tooLarge
  let byteWidth := if unit.isNone then NumberLiteral.byteWidth? text else none
  return .number scaled byteWidth

def literalType (kind : LiteralKind) (text : String) (unit : Option Denomination) :
    Except LiteralFault Ty :=
  match kind with
  | .bool => return .bool
  | .string => return .stringLiteral text
  | .hexString => (HexString.text? text).elim (throw .hexDigits) (pure ∘ .stringLiteral)
  | .number => numberLiteralType text unit

namespace Ty

/-! ## Operators -/

/-- The type of a unary operation, if the operator applies. -/
def unaryResult? (op : UnaryOp) (operand : Ty) : Option Ty :=
  match op, operand with
  | .delete, _ => some unit
  | .not, bool => some bool
  | .bitNot, integer .. | .bitNot, fixedBytes _ => some operand
  | .bitNot, number value _ => value.bitNot.map (number · none)
  | .negate, integer _ true => some operand
  | .negate, number value _ => some (number value.neg none)
  | .increment, integer .. | .decrement, integer .. => some operand
  | _, _ => none

/-- Whether a number literal is not below a bound. -/
def reaches (t : Ty) (bound : Nat) : Bool :=
  match t with
  | number value _ => value.cmp (.ofNatural (.ofWord bound.toUInt64)) != .lt
  | _ => false

/-- The number of components of a tuple. -/
def componentCount? : Ty → Option Nat
  | tuple components => some components.length
  | _ => none

/-- The type of the elements that the components of an inline array have in common so far. -/
def joinElement (common : Option Ty) (t : Ty) : Option Ty :=
  match common with
  | none => t.mobile?
  | some current => common? current t

end Ty

namespace Check

def unaryType (op : UnaryOp) (operand : Ty) (span : Span) : Check Ty := do
  if operand.isInvalid then return .invalid
  match Ty.unaryResult? op operand with
  | some t => return t
  | none => reject (.operatorNotApplicable op operand) span

def binaryType (op : BinaryOp) (left right : Ty) (span : Span) : Check Ty := do
  if left.isInvalid || right.isInvalid then return .invalid
  match Ty.binaryResult? op left right with
  | some t => return t
  | none => reject (.operatorNotCompatible op false left right) span

/-- Checks the assignment of a value to a tuple. -/
def assignTuple (isCompound : Bool) (components : List (Option Ty)) (target source : Expr)
    (right : Ty) (span : Span) : Check Unit := do
  let left := Ty.tuple components
  if isCompound then report (.notAssignable .compoundTuple) span
  else if let some given := right.componentCount?.filter (· != components.length) then
    report (.invalidOperation (.componentCount components.length given)) span
  else if !right.implicitlyConvertible left then report (.typeMismatch left right) source.span
  else guardStorage target right span

/-- Checks the assignment of a value, by itself or with an operator. The result is the target. -/
def assignmentType (op : Option BinaryOp) (target source : Expr) (left right : Ty) (span : Span) :
    Check Ty := do
  if left.isInvalid || right.isInvalid then return left
  match left, op with
  | .tuple components, _ => assignTuple op.isSome components target source right span
  | _, none => requireConvertible right left source.span
  | _, some op =>
    if Ty.binaryResult? op left right != some left then
      report (.operatorNotCompatible op true left right) span
  return left

/-- The type of a conditional expression: the common type of its branches. -/
def conditionalType (yes no : Ty) (span : Span) : Check Ty := do
  if yes.isInvalid || no.isInvalid then return .invalid
  match Ty.common? yes no with
  | some t => return t
  | none => reject (.noCommonType yes no) span

/-- The type of a tuple. One component in parentheses is that component itself. -/
def tupleType : List (Option Ty) → Ty
  | [some t] => t
  | [none] => .invalid
  | components => .tuple components

/-! ## Access -/

/-- Reports an index that is known to be too large. -/
def requireBelow (index : Ty) (length : Option Nat) (span : Span) : Check Unit := do
  if length.any index.reaches then report (.invalidIndex .outOfBounds) span

/-- The length of an array type in an expression, when its index has been typed. -/
def lengthOfIndex (index : Expr) (indexType : Ty) : Check (Option Nat) := do
  let length := (← evaluate index).filter (!·.isZero) |>.bind Fraction.toWord?
  if length.isNone && !indexType.isInvalid then report (.invalidIndex .notConstant) index.span
  return length.map UInt64.toNat

/-- The type of an array type in an expression. -/
def arrayTypeType (actual : Ty) (length : Option Nat) (isTarget : Bool) (span : Span) :
    Check Ty := do
  if isTarget then report (.notAssignable .notLvalue) span
  return .typeType (.arrayOf actual length .memory)

/-- The type that an index has to have, by the type that is indexed. -/
def expectedIndex? : Ty → Option Ty
  | .byteArray .. | .array .. | .fixedBytes _ => some .uint256
  | .mapping key _ => some key
  | _ => none

/-- Whether the type that is indexed cannot do without an index. -/
def needsIndex (base : Ty) : Bool := (expectedIndex? base).isSome

/-- The type of an element, when the index has been typed. -/
def elementType (base index : Ty) (span : Span) : Check Ty := do
  match base with
  | .byteArray true _ => reject (.invalidIndex .string) span
  | .byteArray false _ => return .fixedBytes 1
  | .array element length place =>
    requireBelow index length span
    return element.moveTo ⟨place.location, false⟩
  | .mapping _ value => return value.moveTo ⟨.storage, false⟩
  | .fixedBytes size =>
    requireBelow index (some size) span
    return .fixedBytes 1
  | .invalid => return .invalid
  | other => reject (.invalidIndex (.notIndexable other)) span

/-- The type of a slice. Only calldata of varying length can be sliced. -/
def sliceType (base : Ty) (span : Span) : Check Ty :=
  match base with
  | .invalid => return .invalid
  | .byteArray _ ⟨.calldata, _⟩ | .array _ none ⟨.calldata, _⟩ => return base
  | _ => reject (.invalidIndex .slice) span

/-! ## Creation and messages -/

/-- The function that creates a contract. -/
def contractCreation (c : ContractTy) (span : Span) : Check Ty := do
  let context ← read
  match context.declarations.contract? c.id with
  | none => return .invalid
  | some definition =>
    if definition.isInterface then reject (.invalidCreation .interface) span
    else if definition.isLibrary then reject (.invalidCreation .library) span
    else if definition.isAbstract then reject (.invalidCreation .isAbstract) span
    else if context.contractId?.any c.bases.contains then reject (.invalidCreation .circular) span
    else
      let function ← match definition.constructor? with
        | some f => functionType f .external
        | none => pure (.of .external [] [] .nonPayable)
      return { function with kind := .creation, returnNames := [""], returns := [.contract c] }.toTy

/-- The function that allocates an array in memory, by its length. -/
def arrayCreation (array : Ty) : Ty :=
  { FunctionTy.of .objectCreation [.uint256] [array] .pure with parameterNames := ["length"] }.toTy

/-- The type of a creation expression: a function that creates what is named. -/
def creationType (typeName : TypeName) (span : Span) : Check Ty := do
  match ← resolve typeName .memory with
  | .error issue => reject issue typeName.span
  | .ok (.contract c) => contractCreation c span
  | .ok (.byteArray isString place) => return arrayCreation (.byteArray isString place)
  | .ok (.array element none place) => return arrayCreation (.array element none place)
  | .ok (.array _ (some _) _) => reject (.invalidCreation .arrayLength) span
  | .ok _ => reject (.invalidCreation .notCreatable) span

/-- Awaiting a handle gives the values that the message returns. -/
def awaitType (handle : Ty) (span : Span) : Check Ty :=
  match handle with
  | .invalid => return .invalid
  | .handle returns => return FunctionTy.resultOf returns
  | other => reject (.notAwaitable other) span

end Check

end ContractTyping
